import Mac3am.FeatureInvarianceProofs

/-! # What the five values do not see

    Each value is taken from one region, from differences of coordinates
    without their sign.  So a region may be moved, stretched, mirrored or turned
    over on its own, an eyebrow as far as its slope allows, and the model is
    called with the same numbers.

    * `opennessDivision_stretch`, `steepnessDivision_stretch` — what a stretch
      does to one division;
    * `alike_features` — so two faces that are alike region by region are one
      face to the model, in every box, degenerate ones included. -/

namespace Mac3amLandmarks

open Swift TrapRun

/-- A map of the plane along its axes; negative scales mirror it. -/
structure Stretch (K : Type) where
  xScale : K
  xShift : K
  yScale : K
  yShift : K

section Stretches

variable {K : Type} [Field K] [LinearOrder K]

def Stretch.point (t : Stretch K) (p : CGPoint K) : CGPoint K where
  x := t.xScale * p.x + t.xShift
  y := t.yScale * p.y + t.yShift

def Stretch.region (t : Stretch K) (r : VNFaceLandmarkRegion2D K) : VNFaceLandmarkRegion2D K where
  normalizedPoints := r.normalizedPoints.map t.point

/-- One region is the other after a stretch that does not flatten it. -/
def Stretched (r r' : Option (VNFaceLandmarkRegion2D K)) : Prop :=
  ∃ t : Stretch K, t.yScale ≠ 0 ∧ r' = r.map t.region

/-- One region is the other enlarged, and perhaps mirrored. -/
def Enlarged (r r' : Option (VNFaceLandmarkRegion2D K)) : Prop :=
  ∃ t : Stretch K, t.yScale ≠ 0 ∧ |t.yScale| = |t.xScale| ∧ r' = r.map t.region

/-- Two faces that are alike region by region, as far as the five values go. -/
structure Alike (observation observation' : VNFaceObservation K) : Prop where
  leftEye : Stretched (observation.region (·.leftEye)) (observation'.region (·.leftEye))
  rightEye : Stretched (observation.region (·.rightEye)) (observation'.region (·.rightEye))
  outerLips : Stretched (observation.region (·.outerLips)) (observation'.region (·.outerLips))
  leftEyebrow : Enlarged (observation.region (·.leftEyebrow)) (observation'.region (·.leftEyebrow))
  rightEyebrow :
    Enlarged (observation.region (·.rightEyebrow)) (observation'.region (·.rightEyebrow))

omit [LinearOrder K] in
/-- Reading points of a stretched region. -/
theorem fourPoints_stretch {β : Type} (t : Stretch K)
    (g : CGPoint K → CGPoint K → CGPoint K → CGPoint K → β)
    (region : Option (VNFaceLandmarkRegion2D K)) (start ending middleTop middleBottom : Nat) :
    fourPoints g (region.map t.region) start ending middleTop middleBottom
      = fourPoints (fun s e t' b => g (t.point s) (t.point e) (t.point t') (t.point b)) region
          start ending middleTop middleBottom := by
  cases region with
  | none => rfl
  | some region =>
      simp only [fourPoints, Stretch.region, Option.bind_eq_bind, Option.bind_some,
        Option.map_some, List.getElem?_map, Option.bind_map, Function.comp_def]

omit [LinearOrder K] in
theorem twoPoints_stretch {β : Type} (t : Stretch K) (h : CGPoint K → CGPoint K → β)
    (region : Option (VNFaceLandmarkRegion2D K)) (middle ending : Nat) :
    twoPoints h (region.map t.region) middle ending
      = twoPoints (fun m e => h (t.point m) (t.point e)) region middle ending := by
  cases region with
  | none => rfl
  | some region =>
      simp only [twoPoints, Stretch.region, Option.bind_eq_bind, Option.bind_some,
        Option.map_some, List.getElem?_map, Option.bind_map, Function.comp_def]

omit [LinearOrder K] in
theorem steepnessDivision_stretch (t : Stretch K) (middle ending : CGPoint K) :
    steepnessDivision (t.point middle) (t.point ending)
      = (steepnessDivision middle ending).scale t.yScale t.xScale := by
  have hdividend : t.yScale * middle.y + t.yShift - (t.yScale * ending.y + t.yShift)
      = t.yScale * (middle.y - ending.y) := by ring
  have hdivisor : t.xScale * middle.x + t.xShift - (t.xScale * ending.x + t.xShift)
      = t.xScale * (middle.x - ending.x) := by ring
  exact congrArg₂ Division.mk hdividend hdivisor

variable [IsStrictOrderedRing K]

theorem opennessDivision_stretch (t : Stretch K) (start ending middleTop middleBottom : CGPoint K) :
    opennessDivision (t.point start) (t.point ending) (t.point middleTop) (t.point middleBottom)
      = (opennessDivision start ending middleTop middleBottom).scale |t.yScale| |t.yScale| := by
  have hmiddle : (t.yScale * start.y + t.yShift + (t.yScale * ending.y + t.yShift)) / 2
        - (t.yScale * middleBottom.y + t.yShift)
      = t.yScale * ((start.y + ending.y) / 2 - middleBottom.y) := by ring
  have hopen : t.yScale * middleTop.y + t.yShift - (t.yScale * middleBottom.y + t.yShift)
      = t.yScale * (middleTop.y - middleBottom.y) := by ring
  have hdividend : |(t.yScale * start.y + t.yShift + (t.yScale * ending.y + t.yShift)) / 2
        - (t.yScale * middleBottom.y + t.yShift)|
      = |t.yScale| * |(start.y + ending.y) / 2 - middleBottom.y| := by rw [hmiddle, abs_mul]
  have hdivisor : |t.yScale * middleTop.y + t.yShift - (t.yScale * middleBottom.y + t.yShift)|
      = |t.yScale| * |middleTop.y - middleBottom.y| := by rw [hopen, abs_mul]
  exact congrArg₂ Division.mk hdividend hdivisor

/-! ## One division -/

/-- Both sides are multiplied, by the same factor up to its sign. -/
def Multiple (d d' : Division K) : Prop :=
  ∃ a b : K, a ≠ 0 ∧ |a| = |b| ∧ d' = d.scale a b

/-- Both sides are multiplied by the same factor. -/
def Expanded (d d' : Division K) : Prop := ∃ a : K, a ≠ 0 ∧ d' = d.scale a a

theorem stretched_division {r r' : Option (VNFaceLandmarkRegion2D K)} (h : Stretched r r')
    {start ending middleTop middleBottom : Nat} {d : Division K}
    (hd : fourPoints opennessDivision r start ending middleTop middleBottom = some d) :
    ∃ d', fourPoints opennessDivision r' start ending middleTop middleBottom = some d' ∧
      Expanded d d' := by
  obtain ⟨t, hscale, rfl⟩ := h
  refine ⟨d.scale |t.yScale| |t.yScale|, ?_, |t.yScale|, abs_ne_zero.mpr hscale, rfl⟩
  rw [fourPoints_stretch]
  simp only [opennessDivision_stretch]
  rw [← map_fourPoints, hd, Option.map_some]

omit [IsStrictOrderedRing K] in
theorem enlarged_division {r r' : Option (VNFaceLandmarkRegion2D K)} (h : Enlarged r r')
    {middle ending : Nat} {d : Division K}
    (hd : twoPoints steepnessDivision r middle ending = some d) :
    ∃ d', twoPoints steepnessDivision r' middle ending = some d' ∧ Multiple d d' := by
  obtain ⟨t, hscale, hsame, rfl⟩ := h
  refine ⟨d.scale t.yScale t.xScale, ?_, t.yScale, t.xScale, hscale, hsame, rfl⟩
  rw [twoPoints_stretch]
  simp only [steepnessDivision_stretch]
  rw [← map_twoPoints, hd, Option.map_some]

/-- A box in between changes nothing: the factor stays outside. -/
theorem Expanded.inBox {d d' : Division K} (h : Expanded d d') (c e : K) :
    (d'.scale c e).value = (d.scale c e).value ∧
      ((d'.scale c e).divisor ≠ 0 ↔ (d.scale c e).divisor ≠ 0) := by
  obtain ⟨a, ha, rfl⟩ := h
  constructor
  · show c * (a * d.dividend) / (e * (a * d.divisor)) = c * d.dividend / (e * d.divisor)
    rw [mul_left_comm c, mul_left_comm e, mul_div_mul_left _ _ ha]
  · show e * (a * d.divisor) ≠ 0 ↔ e * d.divisor ≠ 0
    rw [mul_left_comm, mul_ne_zero_iff_left ha]

theorem Multiple.inBox {d d' : Division K} (h : Multiple d d') (c e : K) :
    |(d'.scale c e).value| = |(d.scale c e).value| ∧
      ((d'.scale c e).divisor ≠ 0 ↔ (d.scale c e).divisor ≠ 0) := by
  obtain ⟨a, b, ha, hab, rfl⟩ := h
  have hb : b ≠ 0 := abs_ne_zero.mp (hab ▸ abs_ne_zero.mpr ha)
  constructor
  · show |c * (a * d.dividend) / (e * (b * d.divisor))| = |c * d.dividend / (e * d.divisor)|
    rw [mul_left_comm c, mul_left_comm e, abs_div, abs_mul a, abs_mul b, ← hab,
      mul_div_mul_left _ _ (abs_ne_zero.mpr ha), ← abs_div]
  · show e * (b * d.divisor) ≠ 0 ↔ e * d.divisor ≠ 0
    rw [mul_left_comm, mul_ne_zero_iff_left hb]

/-! ## One face -/

/-- Alike faces have divisions of the same values, in every box. -/
theorem alike_divisions {observation observation' : VNFaceObservation K}
    (h : Alike observation observation') {raw : EmotionInput (Division K)}
    (hraw : rawDivisions observation = some raw) :
    ∃ raw', rawDivisions observation' = some raw' ∧ ∀ boundingBox : CGRect K,
      (divisionsInBox boundingBox raw').values = (divisionsInBox boundingBox raw).values ∧
        ((divisionsInBox boundingBox raw').WellDefined ↔
          (divisionsInBox boundingBox raw).WellDefined) := by
  obtain ⟨a, ha, hraw⟩ := Option.bind_eq_some_iff.mp hraw
  obtain ⟨b, hb, hraw⟩ := Option.bind_eq_some_iff.mp hraw
  obtain ⟨c, hc, hraw⟩ := Option.bind_eq_some_iff.mp hraw
  obtain ⟨d, hd, hraw⟩ := Option.bind_eq_some_iff.mp hraw
  obtain ⟨e, he, hraw⟩ := Option.bind_eq_some_iff.mp hraw
  cases hraw
  obtain ⟨a', ha', hleft⟩ := stretched_division h.leftEye ha
  obtain ⟨b', hb', hright⟩ := stretched_division h.rightEye hb
  obtain ⟨c', hc', hlip⟩ := stretched_division h.outerLips hc
  obtain ⟨d', hd', hleftBrow⟩ := enlarged_division h.leftEyebrow hd
  obtain ⟨e', he', hrightBrow⟩ := enlarged_division h.rightEyebrow he
  refine ⟨⟨a', b', c', d', e'⟩, ?_, fun boundingBox => ?_⟩
  · rw [rawDivisions, readFace, readRegions, ha', hb', hc', hd', he']
    rfl
  · obtain ⟨hvalue, hzero⟩ := hleft.inBox boundingBox.height boundingBox.height
    obtain ⟨hvalue₁, hzero₁⟩ := hright.inBox boundingBox.height boundingBox.height
    obtain ⟨hvalue₂, hzero₂⟩ := hlip.inBox boundingBox.height boundingBox.height
    obtain ⟨hvalue₃, hzero₃⟩ := hleftBrow.inBox (-boundingBox.height) boundingBox.width
    obtain ⟨hvalue₄, hzero₄⟩ := hrightBrow.inBox (-boundingBox.height) boundingBox.width
    constructor
    · exact EmotionInput.mk.injEq .. ▸ ⟨hvalue, hvalue₁, hvalue₂, hvalue₃, hvalue₄⟩
    · constructor
      · rintro ⟨h, h₁, h₂, h₃, h₄⟩
        exact ⟨hzero.mp h, hzero₁.mp h₁, hzero₂.mp h₂, hzero₃.mp h₃, hzero₄.mp h₄⟩
      · rintro ⟨h, h₁, h₂, h₃, h₄⟩
        exact ⟨hzero.mpr h, hzero₁.mpr h₁, hzero₂.mpr h₂, hzero₃.mpr h₃, hzero₄.mpr h₄⟩

/-- **Alike faces are one face to the model**: for every two observations with
    their regions and points whose eyes and lips are the same up to a stretch of
    each, and whose eyebrows up to an enlargement of each, mirrored or not, a
    block calls the model with the same five numbers, in every box and view; and
    their divisors are non-zero together. -/
theorem alike_features (io : Printing K) {observation observation' face : VNFaceObservation K}
    (viewSize : CGSize K) {s : Pipeline K} (halike : Alike observation observation')
    (hcomplete : Complete observation) (hcomplete' : Complete observation')
    (henough : EnoughPoints observation) (hcsv : s.csvText = some [])
    (hface : s.firstFace = some face) :
    ∃ d d', blockDivisions io observation (face.boundingBox.scaled viewSize) = .ok d ∧
      blockDivisions io observation' (face.boundingBox.scaled viewSize) = .ok d' ∧
      landmarksBlock io observation viewSize true true s
        = .ok (s.called ⟨observation, face, viewSize, d.values⟩) ∧
      landmarksBlock io observation' viewSize true true s
        = .ok (s.called ⟨observation', face, viewSize, d.values⟩) ∧
      (d'.WellDefined ↔ d.WellDefined) := by
  obtain ⟨raw, hraw⟩ := exists_rawDivisions henough
  obtain ⟨raw', hraw', hboxes⟩ := alike_divisions halike hraw
  obtain ⟨hvalues, hdefined⟩ := hboxes (face.boundingBox.scaled viewSize)
  have hd := blockDivisions_eq io (face.boundingBox.scaled viewSize) hcomplete hraw
  have hd' := blockDivisions_eq io (face.boundingBox.scaled viewSize) hcomplete' hraw'
  exact ⟨_, _, hd, hd', landmarksBlock_divisions io hcsv hface hd,
    hvalues ▸ landmarksBlock_divisions io hcsv hface hd', hdefined⟩

end Stretches

/-! ## A face with an eye turned over -/

/-- The stretch that leaves all points where they are. -/
def noStretch : Stretch ℚ := ⟨1, 0, 1, 0⟩

theorem noStretch_region (r : Option (VNFaceLandmarkRegion2D ℚ)) :
    r = r.map noStretch.region := by
  have hpoint : noStretch.point = id := by
    funext p
    simp [Stretch.point, noStretch]
  have hregion : noStretch.region = id := by
    funext r
    rw [Stretch.region, hpoint, List.map_id, id]
  rw [hregion, Option.map_id, id]

theorem stretched_refl (r : Option (VNFaceLandmarkRegion2D ℚ)) : Stretched r r :=
  ⟨noStretch, one_ne_zero, noStretch_region r⟩

theorem enlarged_refl (r : Option (VNFaceLandmarkRegion2D ℚ)) : Enlarged r r :=
  ⟨noStretch, one_ne_zero, rfl, noStretch_region r⟩

/-- The sample face with its left eye upside down. -/
def turnedEyeFace : VNFaceObservation ℚ where
  boundingBox := squareBox
  landmarks := (sampleFace squareBox).landmarks.map fun landmarks =>
    { landmarks with leftEye := landmarks.leftEye.map (Stretch.region ⟨1, 0, -1, 1⟩) }

/-- The model is called with the same numbers for both. -/
theorem alike_features_turned_eye :
    ∃ input, landmarksBlock rationalPrinting (sampleFace squareBox) ⟨100, 100⟩ true true
        (faceStored squareBox)
        = .ok ((faceStored squareBox).called ⟨sampleFace squareBox, sampleFace squareBox,
            ⟨100, 100⟩, input⟩) ∧
      landmarksBlock rationalPrinting turnedEyeFace ⟨100, 100⟩ true true (faceStored squareBox)
        = .ok ((faceStored squareBox).called ⟨turnedEyeFace, sampleFace squareBox, ⟨100, 100⟩,
            input⟩) := by
  have halike : Alike (sampleFace squareBox) turnedEyeFace :=
    ⟨⟨⟨1, 0, -1, 1⟩, by norm_num, rfl⟩, stretched_refl _, stretched_refl _, enlarged_refl _,
      enlarged_refl _⟩
  obtain ⟨d, -, -, -, hblock, hblock', -⟩ := alike_features rationalPrinting ⟨100, 100⟩ halike
    (sampleCall_block squareBox squareBox).1 (by decide) (sampleFace_enough squareBox)
    (faceStored_csvText squareBox) (faceStored_firstFace squareBox)
  exact ⟨d.values, hblock, hblock'⟩

end Mac3amLandmarks
