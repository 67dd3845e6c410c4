import Mac3am.BlockSafetyProofs

/-! # What a box does to the five values

    A box multiplies both sides of every division by its sizes.

    * `blockDivisions_eq` — the divisions of a block, from those of the
      normalized points;
    * `features_invariant` — no box changes an eye or lip value, and only its
      shape changes an eyebrow value;
    * `divisors_nonzero_iff` — no box makes a divisor zero: the five are non-zero
      exactly on faces with open eyes and lips whose eyebrows are not upright. -/

namespace Mac3amLandmarks

open Swift TrapRun

/-! ## The divisions in a box -/

section Boxes

variable {K : Type} [Field K] [LinearOrder K]

/-- Placing points in a box multiplies both sides by its sizes. -/
def divisionsInBox (boundingBox : CGRect K) (raw : EmotionInput (Division K)) :
    EmotionInput (Division K) :=
  raw.mapParts (Division.scale boundingBox.height boundingBox.height)
    (Division.scale (-boundingBox.height) boundingBox.width)

/-- A box of positive size. -/
structure CGRect.Positive (r : CGRect K) : Prop where
  width : 0 < r.size.width
  height : 0 < r.size.height

/-- The input of a face in a box of one ratio of height to width: the ratios
    of the normalized points for the eyes and the lips, and for the eyebrows
    their slopes, without sign, times that ratio. -/
structure Features (raw : EmotionInput (Division K)) (ratio : K) (input : EmotionInput K) :
    Prop where
  leftEye : input.leftEye = raw.leftEye.value
  rightEye : input.rightEye = raw.rightEye.value
  outerLip : input.outerLip = raw.outerLip.value
  leftEyeBrow : input.leftEyeBrow = ratio * |raw.leftEyeBrow.value|
  rightEyeBrow : input.rightEyeBrow = ratio * |raw.rightEyeBrow.value|

/-- One ratio, one input. -/
theorem Features.unique {raw : EmotionInput (Division K)} {ratio : K}
    {input input' : EmotionInput K} (h : Features raw ratio input)
    (h' : Features raw ratio input') : input = input' := by
  obtain ⟨leftEye, rightEye, outerLip, leftEyeBrow, rightEyeBrow⟩ := input
  obtain ⟨leftEye', rightEye', outerLip', leftEyeBrow', rightEyeBrow'⟩ := input'
  rw [EmotionInput.mk.injEq]
  exact ⟨h.leftEye.trans h'.leftEye.symm, h.rightEye.trans h'.rightEye.symm,
    h.outerLip.trans h'.outerLip.symm, h.leftEyeBrow.trans h'.leftEyeBrow.symm,
    h.rightEyeBrow.trans h'.rightEyeBrow.symm⟩

variable [IsStrictOrderedRing K] {boundingBox : CGRect K} {observation : VNFaceObservation K}

/-- **The divisions of a block**, from those of the normalized points. -/
theorem blockDivisions_eq (io : Printing K) (boundingBox : CGRect K)
    (hcomplete : Complete observation) {raw : EmotionInput (Division K)}
    (hraw : rawDivisions observation = some raw) :
    blockDivisions io observation boundingBox = .ok (divisionsInBox boundingBox raw) := by
  rw [blockDivisions_complete io boundingBox hcomplete]
  simp only [opennessDivision_place, steepnessDivision_place]
  rw [readFace, ← map_readRegions]
  show inRange ((rawDivisions observation).map _) = _
  rw [hraw]
  rfl

theorem CGRect.Positive.height_pos (h : boundingBox.Positive) : 0 < boundingBox.height :=
  abs_pos.mpr h.height.ne'

theorem CGRect.Positive.width_pos (h : boundingBox.Positive) : 0 < boundingBox.width :=
  abs_pos.mpr h.width.ne'

theorem CGRect.Positive.ratio (h : boundingBox.Positive) :
    boundingBox.height / boundingBox.width = boundingBox.size.height / boundingBox.size.width :=
  congrArg₂ (· / ·) (abs_of_pos h.height) (abs_of_pos h.width)

/-- A positive box in a view of positive size is positive. -/
theorem CGRect.Positive.scaled (h : boundingBox.Positive) {viewSize : CGSize K}
    (hwidth : 0 < viewSize.width) (hheight : 0 < viewSize.height) :
    (boundingBox.scaled viewSize).Positive :=
  ⟨mul_pos h.width hwidth, mul_pos h.height hheight⟩

/-- A positive box makes no divisor zero, and no zero disappear. -/
theorem wellDefined_inBox (hbox : boundingBox.Positive) (raw : EmotionInput (Division K)) :
    (divisionsInBox boundingBox raw).WellDefined ↔ raw.WellDefined := by
  have hheight := hbox.height_pos.ne'
  have hwidth := hbox.width_pos.ne'
  constructor
  · rintro ⟨hleft, hright, hlip, hleftBrow, hrightBrow⟩
    exact ⟨right_ne_zero_of_mul hleft, right_ne_zero_of_mul hright, right_ne_zero_of_mul hlip,
      right_ne_zero_of_mul hleftBrow, right_ne_zero_of_mul hrightBrow⟩
  · rintro ⟨hleft, hright, hlip, hleftBrow, hrightBrow⟩
    exact ⟨mul_ne_zero hheight hleft, mul_ne_zero hheight hright, mul_ne_zero hheight hlip,
      mul_ne_zero hwidth hleftBrow, mul_ne_zero hwidth hrightBrow⟩

theorem features_inBox (hbox : boundingBox.Positive) (raw : EmotionInput (Division K)) :
    Features raw (boundingBox.size.height / boundingBox.size.width)
      (divisionsInBox boundingBox raw).values := by
  rw [← hbox.ratio]
  exact ⟨value_scale hbox.height_pos.ne' _, value_scale hbox.height_pos.ne' _,
    value_scale hbox.height_pos.ne' _, magnitude_value_scale boundingBox _,
    magnitude_value_scale boundingBox _⟩

end Boxes

/-! ## The divisions of a block -/

section Blocks

variable {K : Type} [Field K] [LinearOrder K] {observation face : VNFaceObservation K}
  {viewSize : CGSize K} {s : Pipeline K}

/-- The call of a block has the values of its divisions. -/
theorem landmarksBlock_divisions (io : Printing K) {d : EmotionInput (Division K)}
    (hcsv : s.csvText = some []) (hface : s.firstFace = some face)
    (hd : blockDivisions io observation (face.boundingBox.scaled viewSize) = .ok d) :
    landmarksBlock io observation viewSize true true s
      = .ok (s.called ⟨observation, face, viewSize, d.values⟩) := by
  rw [blockDivisions, convertLandmarks_eq] at hd
  have hdecoded := emotionInput_eq_values io
    ((csvLines io (face.boundingBox.scaled viewSize) observation).flatMap fun line =>
      line ++ ['\n'])
  rw [show emotionDivisions io _ = .ok d from hd] at hdecoded
  rw [landmarksBlock_eq hcsv hface, calculateEmotion, hdecoded]
  obtain ⟨inputFaceObservations, mainQueue, csvText, modelCalls⟩ := s
  cases hcsv
  rfl

/-- A face with points enough has its divisions. -/
theorem exists_rawDivisions (henough : EnoughPoints observation) :
    ∃ raw, rawDivisions observation = some raw :=
  Option.isSome_iff_exists.mp ((readFace_isSome_iff opennessDivision steepnessDivision
    observation).mpr henough)

variable [IsStrictOrderedRing K]

/-- One block: its divisions, its call, and what they are in its box. -/
theorem landmarksBlock_features (io : Printing K) {raw : EmotionInput (Division K)}
    (hcomplete : Complete observation) (hraw : rawDivisions observation = some raw)
    (hcsv : s.csvText = some []) (hface : s.firstFace = some face)
    (hbox : (face.boundingBox.scaled viewSize).Positive) :
    ∃ d, blockDivisions io observation (face.boundingBox.scaled viewSize) = .ok d ∧
      landmarksBlock io observation viewSize true true s
        = .ok (s.called ⟨observation, face, viewSize, d.values⟩) ∧
      (d.WellDefined ↔ raw.WellDefined) ∧
      Features raw ((face.boundingBox.scaled viewSize).size.height
        / (face.boundingBox.scaled viewSize).size.width) d.values := by
  have hd := blockDivisions_eq io (face.boundingBox.scaled viewSize) hcomplete hraw
  exact ⟨_, hd, landmarksBlock_divisions io hcsv hface hd, wellDefined_inBox hbox raw,
    features_inBox hbox raw⟩

/-- **Two blocks of one face**, in two positive boxes: where the divisors of
    the normalized points are non-zero, so are all ten divisors; the eye and lip
    values of both are the ratios of the normalized points, and the eyebrow
    values of each are the slopes times the ratio of its box; with one ratio the
    two inputs are the same. -/
theorem features_invariant (io : Printing K) (observation : VNFaceObservation K)
    (viewSize viewSize' : CGSize K) {face face' : VNFaceObservation K} {s s' : Pipeline K}
    (hcomplete : Complete observation) (henough : EnoughPoints observation)
    (hcsv : s.csvText = some []) (hface : s.firstFace = some face)
    (hcsv' : s'.csvText = some []) (hface' : s'.firstFace = some face')
    (hbox : (face.boundingBox.scaled viewSize).Positive)
    (hbox' : (face'.boundingBox.scaled viewSize').Positive) :
    ∃ raw d d', rawDivisions observation = some raw ∧
      blockDivisions io observation (face.boundingBox.scaled viewSize) = .ok d ∧
      blockDivisions io observation (face'.boundingBox.scaled viewSize') = .ok d' ∧
      landmarksBlock io observation viewSize true true s
        = .ok (s.called ⟨observation, face, viewSize, d.values⟩) ∧
      landmarksBlock io observation viewSize' true true s'
        = .ok (s'.called ⟨observation, face', viewSize', d'.values⟩) ∧
      (raw.WellDefined → d.WellDefined ∧ d'.WellDefined ∧
        Features raw ((face.boundingBox.scaled viewSize).size.height
          / (face.boundingBox.scaled viewSize).size.width) d.values ∧
        Features raw ((face'.boundingBox.scaled viewSize').size.height
          / (face'.boundingBox.scaled viewSize').size.width) d'.values ∧
        ((face.boundingBox.scaled viewSize).size.height
            / (face.boundingBox.scaled viewSize).size.width
          = (face'.boundingBox.scaled viewSize').size.height
            / (face'.boundingBox.scaled viewSize').size.width → d.values = d'.values)) := by
  obtain ⟨raw, hraw⟩ := exists_rawDivisions henough
  obtain ⟨d, hd, hblock, hdefined, hfeatures⟩ :=
    landmarksBlock_features io hcomplete hraw hcsv hface hbox
  obtain ⟨d', hd', hblock', hdefined', hfeatures'⟩ :=
    landmarksBlock_features io hcomplete hraw hcsv' hface' hbox'
  refine ⟨raw, d, d', hraw, hd, hd', hblock, hblock', ?_⟩
  intro hwell
  refine ⟨hdefined.mpr hwell, hdefined'.mpr hwell, hfeatures, hfeatures', ?_⟩
  intro hratio
  rw [hratio] at hfeatures
  exact hfeatures.unique hfeatures'

end Blocks

/-! ## Faces whose divisors are zero -/

section Apart

variable {K : Type}

/-- Two points of a region, by number, differ in a coordinate. -/
def Apart (coordinate : CGPoint K → K) (region : Option (VNFaceLandmarkRegion2D K))
    (i j : Nat) : Prop :=
  ∀ p q, (region.bind fun r => r.normalizedPoints[i]?) = some p →
    (region.bind fun r => r.normalizedPoints[j]?) = some q → coordinate p ≠ coordinate q

/-- Eyes and lips are open where they are measured, and no eyebrow is upright
    there. -/
structure PointsApart (observation : VNFaceObservation K) : Prop where
  leftEye : Apart CGPoint.y (observation.region (·.leftEye)) 2 4
  rightEye : Apart CGPoint.y (observation.region (·.rightEye)) 2 4
  outerLips : Apart CGPoint.y (observation.region (·.outerLips)) 3 10
  leftEyebrow : Apart CGPoint.x (observation.region (·.leftEyebrow)) 2 5
  rightEyebrow : Apart CGPoint.x (observation.region (·.rightEyebrow)) 2 5

theorem apart_iff {coordinate : CGPoint K → K} (region : Option (VNFaceLandmarkRegion2D K))
    {i j : Nat} {p q : CGPoint K} (hp : (region.bind fun r => r.normalizedPoints[i]?) = some p)
    (hq : (region.bind fun r => r.normalizedPoints[j]?) = some q) :
    Apart coordinate region i j ↔ coordinate p ≠ coordinate q := by
  constructor
  · intro h
    exact h p q hp hq
  · intro hne p' q' hp' hq'
    obtain rfl := Option.some.inj (hp.symm.trans hp')
    obtain rfl := Option.some.inj (hq.symm.trans hq')
    exact hne

end Apart

section Divisors

variable {K : Type} [Field K] [LinearOrder K] [IsStrictOrderedRing K]
  {observation : VNFaceObservation K}

/-- The divisor of an openness is zero where its last two points are level. -/
theorem opennessDivision_divisor_iff {region : Option (VNFaceLandmarkRegion2D K)}
    {start ending middleTop middleBottom : Nat} {d : Division K}
    (h : fourPoints opennessDivision region start ending middleTop middleBottom = some d) :
    d.divisor ≠ 0 ↔ Apart CGPoint.y region middleTop middleBottom := by
  obtain ⟨r, rfl, h⟩ := Option.bind_eq_some_iff.mp h
  obtain ⟨s, -, h⟩ := Option.bind_eq_some_iff.mp h
  obtain ⟨e, -, h⟩ := Option.bind_eq_some_iff.mp h
  obtain ⟨t, ht, h⟩ := Option.bind_eq_some_iff.mp h
  obtain ⟨b, hb, h⟩ := Option.bind_eq_some_iff.mp h
  cases h
  rw [apart_iff (some r) ht hb]
  show |t.y - b.y| ≠ 0 ↔ t.y ≠ b.y
  rw [abs_ne_zero, sub_ne_zero]

omit [LinearOrder K] [IsStrictOrderedRing K] in
theorem steepnessDivision_divisor_iff {region : Option (VNFaceLandmarkRegion2D K)}
    {middle ending : Nat} {d : Division K}
    (h : twoPoints steepnessDivision region middle ending = some d) :
    d.divisor ≠ 0 ↔ Apart CGPoint.x region middle ending := by
  obtain ⟨r, rfl, h⟩ := Option.bind_eq_some_iff.mp h
  obtain ⟨m, hm, h⟩ := Option.bind_eq_some_iff.mp h
  obtain ⟨e, he, h⟩ := Option.bind_eq_some_iff.mp h
  cases h
  rw [apart_iff (some r) hm he]
  exact sub_ne_zero

theorem rawDivisions_wellDefined_iff {raw : EmotionInput (Division K)}
    (hraw : rawDivisions observation = some raw) :
    raw.WellDefined ↔ PointsApart observation := by
  obtain ⟨a, ha, hraw⟩ := Option.bind_eq_some_iff.mp hraw
  obtain ⟨b, hb, hraw⟩ := Option.bind_eq_some_iff.mp hraw
  obtain ⟨c, hc, hraw⟩ := Option.bind_eq_some_iff.mp hraw
  obtain ⟨d, hd, hraw⟩ := Option.bind_eq_some_iff.mp hraw
  obtain ⟨e, he, hraw⟩ := Option.bind_eq_some_iff.mp hraw
  cases hraw
  constructor
  · rintro ⟨hleft, hright, hlip, hleftBrow, hrightBrow⟩
    exact ⟨(opennessDivision_divisor_iff ha).mp hleft, (opennessDivision_divisor_iff hb).mp hright,
      (opennessDivision_divisor_iff hc).mp hlip, (steepnessDivision_divisor_iff hd).mp hleftBrow,
      (steepnessDivision_divisor_iff he).mp hrightBrow⟩
  · rintro ⟨hleft, hright, hlip, hleftBrow, hrightBrow⟩
    exact ⟨(opennessDivision_divisor_iff ha).mpr hleft,
      (opennessDivision_divisor_iff hb).mpr hright, (opennessDivision_divisor_iff hc).mpr hlip,
      (steepnessDivision_divisor_iff hd).mpr hleftBrow,
      (steepnessDivision_divisor_iff he).mpr hrightBrow⟩

/-- **No zero divisor, exactly**: for every face with its regions and points, in
    every box and view of positive size, the five divisors of the values a block
    gives to the model are non-zero exactly if the points they are taken from
    are apart. -/
theorem divisors_nonzero_iff (io : Printing K) (observation : VNFaceObservation K)
    (viewSize : CGSize K) {face : VNFaceObservation K} {s : Pipeline K}
    (hcomplete : Complete observation) (henough : EnoughPoints observation)
    (hcsv : s.csvText = some []) (hface : s.firstFace = some face)
    (hbox : face.boundingBox.Positive) (hwidth : 0 < viewSize.width)
    (hheight : 0 < viewSize.height) :
    ∃ d, blockDivisions io observation (face.boundingBox.scaled viewSize) = .ok d ∧
      landmarksBlock io observation viewSize true true s
        = .ok (s.called ⟨observation, face, viewSize, d.values⟩) ∧
      (d.WellDefined ↔ PointsApart observation) := by
  obtain ⟨raw, hraw⟩ := exists_rawDivisions henough
  obtain ⟨d, hd, hblock, hdefined, -⟩ :=
    landmarksBlock_features io hcomplete hraw hcsv hface (hbox.scaled hwidth hheight)
  exact ⟨d, hd, hblock, hdefined.trans (rawDivisions_wellDefined_iff hraw)⟩

end Divisors

/-! ## An open face, and one with an eye closed -/

/-- The sample face with its left eye closed: all points of the eye are level. -/
def closedEyeFace : VNFaceObservation ℚ where
  boundingBox := squareBox
  landmarks := (sampleFace squareBox).landmarks.map fun landmarks =>
    { landmarks with
      leftEye := some ⟨[⟨0, 1 / 2⟩, ⟨1 / 4, 1 / 2⟩, ⟨1 / 2, 1 / 2⟩, ⟨1, 1 / 2⟩, ⟨1 / 2, 1 / 2⟩]⟩ }

theorem squareBox_positive : squareBox.Positive :=
  ⟨by norm_num [squareBox], by norm_num [squareBox]⟩

theorem flatBox_positive : flatBox.Positive :=
  ⟨by norm_num [flatBox], by norm_num [flatBox]⟩

theorem sampleFace_apart (boundingBox : CGRect ℚ) : PointsApart (sampleFace boundingBox) := by
  have heye : ∀ p q : CGPoint ℚ, some (⟨0, 1⟩ : CGPoint ℚ) = some p →
      some (⟨0, 0⟩ : CGPoint ℚ) = some q → p.y ≠ q.y := by
    intro p q hp hq
    cases hp
    cases hq
    exact one_ne_zero
  have hbrow : ∀ p q : CGPoint ℚ, some (⟨0, 1⟩ : CGPoint ℚ) = some p →
      some (⟨1, 0⟩ : CGPoint ℚ) = some q → p.x ≠ q.x := by
    intro p q hp hq
    cases hp
    cases hq
    exact zero_ne_one
  exact ⟨heye, heye, heye, hbrow, hbrow⟩

/-- A square box, and a flat one in a view twice as high as wide, give the
    model the same input. -/
theorem features_invariant_two_boxes :
    ∃ d d', landmarksBlock rationalPrinting (sampleFace squareBox) ⟨100, 100⟩ true true
        (faceStored squareBox)
        = .ok ((faceStored squareBox).called ⟨sampleFace squareBox, sampleFace squareBox,
            ⟨100, 100⟩, EmotionInput.values d⟩) ∧
      landmarksBlock rationalPrinting (sampleFace squareBox) ⟨100, 200⟩ true true
        (faceStored flatBox)
        = .ok ((faceStored flatBox).called ⟨sampleFace squareBox, sampleFace flatBox, ⟨100, 200⟩,
            EmotionInput.values d'⟩) ∧
      d.WellDefined ∧ d'.WellDefined ∧ d.values = d'.values := by
  obtain ⟨raw, d, d', hraw, -, -, hblock, hblock', hall⟩ :=
    features_invariant rationalPrinting (sampleFace squareBox) ⟨100, 100⟩ ⟨100, 200⟩
      (sampleCall_block squareBox squareBox).1 (sampleFace_enough squareBox)
      (faceStored_csvText squareBox) (faceStored_firstFace squareBox) (faceStored_csvText flatBox)
      (faceStored_firstFace flatBox)
      (squareBox_positive.scaled (by norm_num) (by norm_num))
      (flatBox_positive.scaled (by norm_num) (by norm_num))
  obtain ⟨hdefined, hdefined', -, -, hsame⟩ :=
    hall ((rawDivisions_wellDefined_iff hraw).mpr (sampleFace_apart squareBox))
  refine ⟨d, d', hblock, hblock', hdefined, hdefined', hsame ?_⟩
  norm_num [sampleFace, squareBox, flatBox, CGRect.scaled]

/-- Of an open face all five divisors are non-zero. -/
theorem divisors_nonzero_iff_sample :
    ∃ d, blockDivisions rationalPrinting (sampleFace squareBox) (squareBox.scaled ⟨100, 100⟩)
        = .ok d ∧ d.WellDefined := by
  obtain ⟨d, hd, -, hiff⟩ := divisors_nonzero_iff rationalPrinting
    (sampleFace squareBox) ⟨100, 100⟩ (sampleCall_block squareBox squareBox).1
    (sampleFace_enough squareBox) (faceStored_csvText squareBox) (faceStored_firstFace squareBox)
    squareBox_positive (by norm_num) (by norm_num)
  exact ⟨d, hd, hiff.mpr (sampleFace_apart squareBox)⟩

/-- A closed eye is divided by zero, and the value goes to the model: zero by
    zero, as its points are level. -/
theorem closed_eye_divisor_zero :
    Complete closedEyeFace ∧ EnoughPoints closedEyeFace ∧ squareBox.Positive ∧
      ∃ d, blockDivisions rationalPrinting closedEyeFace (squareBox.scaled ⟨100, 100⟩) = .ok d ∧
        landmarksBlock rationalPrinting closedEyeFace ⟨100, 100⟩ true true (faceStored squareBox)
          = .ok ((faceStored squareBox).called ⟨closedEyeFace, sampleFace squareBox, ⟨100, 100⟩,
              d.values⟩) ∧
        d.leftEye = ⟨0, 0⟩ := by
  have hcomplete : Complete closedEyeFace := by decide
  have hd := blockDivisions_eq rationalPrinting (squareBox.scaled ⟨100, 100⟩) hcomplete rfl
  refine ⟨hcomplete, ⟨by decide, by decide, by decide, by decide, by decide⟩, squareBox_positive,
    _, hd, landmarksBlock_divisions rationalPrinting (faceStored_csvText squareBox)
      (faceStored_firstFace squareBox) hd, ?_⟩
  have hdividend : |((1 / 2 + 1 / 2) / 2 - 1 / 2 : ℚ)| = 0 := by norm_num
  have hdivisor : |(1 / 2 - 1 / 2 : ℚ)| = 0 := by norm_num
  exact congrArg₂ Division.mk (mul_eq_zero_of_right _ hdividend) (mul_eq_zero_of_right _ hdivisor)

end Mac3amLandmarks
