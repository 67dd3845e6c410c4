import Mathlib.Algebra.Order.Field.Rat
import Mathlib.Algebra.Order.Field.Basic
import Mathlib.Tactic.NormNum
import Mathlib.Tactic.Ring
import Mac3am.CapturePipelineProofs
import Mac3am.FeatureDivisionProofs
import Mac3am.RationalTextProofs

/-! # Whose box a block reads

    A block places the points of its own observation in the box of the first
    stored face.  Coordinates are exact here: those of an ordered field, in
    which a division by zero gives zero.

    * `referenceInput_place` — moving and scaling a box cancels in the eye and
      lip values, and multiplies the eyebrow values by its height over its
      width;
    * `inBox_eq_iff` — so two boxes give one input exactly when they agree in
      that ratio, as far as anything depends on it;
    * `own_box_iff_guarded` — every block gets the numbers of its own box
      exactly in the runs whose blocks all meet a first box that agrees with
      their own. -/

namespace Mac3amLandmarks

open Swift TrapRun

section Geometry

variable {K : Type} [Field K] [LinearOrder K]

instance : Magnitude K where
  magnitude x := |x|

/-- An eye or lip value in a box: a box without height has no openness. -/
def openIn (boundingBox : CGRect K) (value : K) : K :=
  if boundingBox.height = 0 then 0 else value

/-- An eyebrow value in a box. -/
def steepIn (boundingBox : CGRect K) (value : K) : K :=
  boundingBox.height / boundingBox.width * value

/-- The inputs of a face in a box, from those of its normalized points. -/
def EmotionInput.inBox (boundingBox : CGRect K) (raw : EmotionInput K) : EmotionInput K where
  leftEye := openIn boundingBox raw.leftEye
  rightEye := openIn boundingBox raw.rightEye
  outerLip := openIn boundingBox raw.outerLip
  leftEyeBrow := steepIn boundingBox raw.leftEyeBrow
  rightEyeBrow := steepIn boundingBox raw.rightEyeBrow

/-- Two boxes agree on the inputs of a face: both have a height or neither has,
    where an eye or lip value depends on it, and they have one ratio of height
    to width, where an eyebrow value depends on it. -/
structure BoxesAgree (raw : EmotionInput K) (b b' : CGRect K) : Prop where
  height : (b.height = 0 ↔ b'.height = 0) ∨
    (raw.leftEye = 0 ∧ raw.rightEye = 0 ∧ raw.outerLip = 0)
  ratio : b.height / b.width = b'.height / b'.width ∨
    (raw.leftEyeBrow = 0 ∧ raw.rightEyeBrow = 0)

theorem openIn_eq_iff (b b' : CGRect K) (value : K) :
    openIn b value = openIn b' value ↔ (b.height = 0 ↔ b'.height = 0) ∨ value = 0 := by
  unfold openIn
  by_cases h : b.height = 0
  · by_cases h' : b'.height = 0
    · simp [h, h']
    · simp [h, h', eq_comm]
  · by_cases h' : b'.height = 0
    · simp [h, h']
    · simp [h, h']

theorem steepIn_eq_iff (b b' : CGRect K) (value : K) :
    steepIn b value = steepIn b' value ↔
      b.height / b.width = b'.height / b'.width ∨ value = 0 :=
  mul_eq_mul_right_iff

/-- **When two boxes give one input.** -/
theorem inBox_eq_iff (raw : EmotionInput K) (b b' : CGRect K) :
    raw.inBox b = raw.inBox b' ↔ BoxesAgree raw b b' := by
  rw [EmotionInput.inBox, EmotionInput.inBox, EmotionInput.mk.injEq, openIn_eq_iff,
    openIn_eq_iff, openIn_eq_iff, steepIn_eq_iff, steepIn_eq_iff]
  constructor
  · rintro ⟨hleft, hright, hlip, hleftBrow, hrightBrow⟩
    refine ⟨?_, ?_⟩
    · rcases hleft with h | hleft
      · exact Or.inl h
      · rcases hright with h | hright
        · exact Or.inl h
        · exact hlip.imp_right fun hlip => ⟨hleft, hright, hlip⟩
    · rcases hleftBrow with h | hleftBrow
      · exact Or.inl h
      · exact hrightBrow.imp_right fun hrightBrow => ⟨hleftBrow, hrightBrow⟩
  · rintro ⟨height, ratio⟩
    exact ⟨height.imp_right (·.1), height.imp_right (·.2.1), height.imp_right (·.2.2),
      ratio.imp_right (·.1), ratio.imp_right (·.2)⟩

/-- A division whose two sides are multiplied. -/
def Division.scale (a b : K) (d : Division K) : Division K where
  dividend := a * d.dividend
  divisor := b * d.divisor

omit [LinearOrder K] in
theorem value_scale {a : K} (ha : a ≠ 0) (d : Division K) : (d.scale a a).value = d.value :=
  mul_div_mul_left _ _ ha

variable (boundingBox : CGRect K)

/-- Placing points turns the vertical axis over. -/
theorem place_y_sub (p q : CGPoint K) :
    (place boundingBox p).y - (place boundingBox q).y = -(boundingBox.height * (p.y - q.y)) := by
  simp only [place]
  ring

theorem place_x_sub (p q : CGPoint K) :
    (place boundingBox p).x - (place boundingBox q).x = boundingBox.width * (p.x - q.x) := by
  simp only [place]
  ring

variable [IsStrictOrderedRing K]

/-- A box is as high as its standardized rectangle. -/
theorem abs_height : |boundingBox.height| = boundingBox.height := abs_abs _

theorem abs_width : |boundingBox.width| = boundingBox.width := abs_abs _

/-- The middle of two points is placed where the middle of their places is. -/
theorem place_middle_sub (p q r : CGPoint K) :
    ((place boundingBox p).y + (place boundingBox q).y) / 2 - (place boundingBox r).y
      = -(boundingBox.height * ((p.y + q.y) / 2 - r.y)) := by
  simp only [place]
  ring

theorem opennessDivision_place (start ending middleTop middleBottom : CGPoint K) :
    opennessDivision (place boundingBox start) (place boundingBox ending)
        (place boundingBox middleTop) (place boundingBox middleBottom)
      = (opennessDivision start ending middleTop middleBottom).scale boundingBox.height
          boundingBox.height := by
  have hdividend : |((place boundingBox start).y + (place boundingBox ending).y) / 2
        - (place boundingBox middleBottom).y|
      = boundingBox.height * |(start.y + ending.y) / 2 - middleBottom.y| := by
    rw [place_middle_sub, abs_neg, abs_mul, abs_height]
  have hdivisor : |(place boundingBox middleTop).y - (place boundingBox middleBottom).y|
      = boundingBox.height * |middleTop.y - middleBottom.y| := by
    rw [place_y_sub, abs_neg, abs_mul, abs_height]
  exact congrArg₂ Division.mk hdividend hdivisor

omit [IsStrictOrderedRing K] in
theorem steepnessDivision_place (middle ending : CGPoint K) :
    steepnessDivision (place boundingBox middle) (place boundingBox ending)
      = (steepnessDivision middle ending).scale (-boundingBox.height) boundingBox.width := by
  have hdividend := place_y_sub boundingBox middle ending
  rw [← neg_mul] at hdividend
  exact congrArg₂ Division.mk hdividend (place_x_sub boundingBox middle ending)

/-- The sign of the flipped axis goes with the magnitude. -/
theorem magnitude_value_scale (d : Division K) :
    |(d.scale (-boundingBox.height) boundingBox.width).value|
      = boundingBox.height / boundingBox.width * |d.value| := by
  show |-boundingBox.height * d.dividend / (boundingBox.width * d.divisor)| = _ * |_ / _|
  rw [mul_div_mul_comm, abs_mul, abs_div, abs_neg, abs_height, abs_width]

/-- Openness does not see where a box is, nor how large. -/
theorem openness_place (start ending middleTop middleBottom : CGPoint K) :
    openness (place boundingBox start) (place boundingBox ending) (place boundingBox middleTop)
        (place boundingBox middleBottom)
      = openIn boundingBox (openness start ending middleTop middleBottom) := by
  show (opennessDivision _ _ _ _).value = openIn boundingBox (opennessDivision _ _ _ _).value
  rw [opennessDivision_place, openIn]
  by_cases hheight : boundingBox.height = 0
  · rw [if_pos hheight, Division.value, Division.scale, hheight, zero_mul, zero_div]
  · -- the height is a factor of both, and cancels
    rw [if_neg hheight, value_scale hheight]

/-- Steepness takes the shape of a box as a factor. -/
theorem steepness_place (middle ending : CGPoint K) :
    steepness (place boundingBox middle) (place boundingBox ending)
      = steepIn boundingBox (steepness middle ending) := by
  show |(steepnessDivision _ _).value| = steepIn boundingBox |(steepnessDivision _ _).value|
  rw [steepnessDivision_place, magnitude_value_scale]
  rfl

/-- **The input of a face in a box**, from its normalized points. -/
theorem referenceInput_place (observation : VNFaceObservation K) :
    referenceInput (place boundingBox) observation
      = (referenceInput id observation).map (EmotionInput.inBox boundingBox) := by
  show _ = (readFace openness steepness observation).map
    (EmotionInput.mapParts (openIn boundingBox) (steepIn boundingBox))
  rw [readFace, map_readRegions]
  simp only [← openness_place, ← steepness_place]
  rfl

end Geometry

section OwnBox

variable {K : Type} [Field K] [LinearOrder K] {s : Pipeline K}

/-- The inputs of a call are those of its observation in its own box. -/
def ModelCall.OwnBox (call : ModelCall K) : Prop :=
  call.InBox (call.observation.boundingBox.scaled call.viewSize)

/-- Where a block comes as far as the model, the box of the face stored first
    agrees with the own one of its observation. -/
def SameShapeBox (s : Pipeline K) : CaptureEvent K → Prop
  | .capture _ _ => True
  | .runBlock viewSize array prediction =>
      array = true → prediction = true → ∀ observation rest face raw,
        s.mainQueue = observation :: rest → s.firstFace = some face → Complete observation →
        referenceInput id observation = some raw →
        BoxesAgree raw (face.boundingBox.scaled viewSize)
          (observation.boundingBox.scaled viewSize)

variable [IsStrictOrderedRing K]

/-- **One call**: it has the numbers of its own box exactly when the box it was
    made with agrees with that. -/
theorem ownBox_iff {call : ModelCall K} {raw : EmotionInput K} (hblock : call.FromBlock)
    (hraw : referenceInput id call.observation = some raw) :
    call.OwnBox ↔ BoxesAgree raw (call.face.boundingBox.scaled call.viewSize)
      (call.observation.boundingBox.scaled call.viewSize) := by
  have hinput := hblock.2
  rw [ModelCall.InBox, referenceInput_place, hraw, Option.map_some, Option.some.injEq] at hinput
  rw [ModelCall.OwnBox, ModelCall.InBox, referenceInput_place, hraw, Option.map_some,
    Option.some.injEq, ← hinput, ← inBox_eq_iff, eq_comm]

/-- The inputs of a face in a box come from those of its normalized points. -/
theorem exists_raw {f : CGRect K} {observation : VNFaceObservation K} {input : EmotionInput K}
    (h : referenceInput (place f) observation = some input) :
    ∃ raw, referenceInput id observation = some raw := by
  rw [referenceInput_place] at h
  obtain ⟨raw, hraw, -⟩ := Option.map_eq_some_iff.mp h
  exact ⟨raw, hraw⟩

/-- A returning block whose box agrees with its own adds a call with the
    numbers of its own box. -/
theorem landmarksBlock_ownBox {io : Printing K} {observation : VNFaceObservation K}
    {viewSize : CGSize K} {array prediction : Bool} {s' : Pipeline K}
    (hcsv : s.csvText = some []) (hown : ∀ call ∈ s.modelCalls, call.OwnBox)
    (hagree : array = true → prediction = true → ∀ face raw, s.firstFace = some face →
      Complete observation → referenceInput id observation = some raw →
      BoxesAgree raw (face.boundingBox.scaled viewSize) (observation.boundingBox.scaled viewSize))
    (h : landmarksBlock io observation viewSize array prediction s = .ok s') :
    ∀ call ∈ s'.modelCalls, call.OwnBox := by
  rcases landmarksBlock_cases io observation viewSize array prediction hcsv with
    ⟨-, heq⟩ | ⟨face, input1, hface, hblock, harray, hend⟩ | ⟨-, -, -, t, m, heq, -⟩
  · rw [heq] at h
    cases h
    exact hown
  · rcases hend with ⟨hprediction, heq⟩ | ⟨-, t, m, heq, -⟩
    · rw [heq] at h
      cases h
      intro call hcall
      rcases List.mem_append.mp hcall with hold | hnew
      · exact hown call hold
      · rw [List.mem_singleton.mp hnew]
        obtain ⟨raw, hraw⟩ := exists_raw hblock.2
        exact (ownBox_iff hblock hraw).mpr
          (hagree harray hprediction face raw hface hblock.1 hraw)
    · rw [heq] at h
      cases h
  · rw [heq] at h
    cases h

/-- Conversely, a block that completes with the numbers of its own box was in a
    box that agrees with it. -/
theorem boxesAgree_of_ownBox {io : Printing K} {observation face : VNFaceObservation K}
    {viewSize : CGSize K} {raw : EmotionInput K} (hcsv : s.csvText = some [])
    (hface : s.firstFace = some face) (hcomplete : Complete observation)
    (hraw : referenceInput id observation = some raw)
    (hall : ∀ s', landmarksBlock io observation viewSize true true s = .ok s' →
      ∀ call ∈ s'.modelCalls, call.OwnBox) :
    BoxesAgree raw (face.boundingBox.scaled viewSize)
      (observation.boundingBox.scaled viewSize) := by
  have hblock : (ModelCall.mk observation face viewSize
      (raw.inBox (face.boundingBox.scaled viewSize))).FromBlock := by
    refine ⟨hcomplete, ?_⟩
    rw [ModelCall.InBox, referenceInput_place, hraw]
    rfl
  -- the block completes, so its call is one of those after it
  have hlast := hall _ (landmarksBlock_completes io hcsv hface hblock) _
    (List.mem_append_right _ List.mem_cons_self)
  exact (ownBox_iff hblock hraw).mp hlast

/-- **One event** keeps all calls on their own boxes exactly under the
    condition. -/
theorem captureStep_ownBox_iff (io : Printing K) (e : CaptureEvent K)
    (hcsv : s.csvText = some []) (hown : ∀ call ∈ s.modelCalls, call.OwnBox) :
    SameShapeBox s e ↔
      ∀ s', captureStep io s e = .ok s' → ∀ call ∈ s'.modelCalls, call.OwnBox := by
  cases e with
  | capture faces landmarks =>
      constructor
      · intro _ s' h
        cases h
        rw [(detectFace_keeps faces landmarks s).2]
        exact hown
      · intro _; trivial
  | runBlock viewSize array prediction =>
      cases hqueue : s.mainQueue with
      | nil =>
          constructor
          · intro _ s' h
            rw [captureStep, hqueue] at h
            cases h
            exact hown
          · intro _ _ _ observation rest face raw hcons
            cases hqueue.symm.trans hcons
      | cons observation rest =>
          have hcsv' : ({ s with mainQueue := rest } : Pipeline K).csvText = some [] := hcsv
          rw [captureStep_block io hqueue]
          constructor
          · intro hguard s' h
            refine landmarksBlock_ownBox hcsv' hown ?_ h
            intro harray hprediction face raw hface
            exact hguard harray hprediction observation rest face raw hqueue hface
          · rintro hall rfl rfl observation' rest' face raw hcons hface hcomplete hraw
            rw [hqueue] at hcons
            obtain ⟨rfl, rfl⟩ := List.cons.inj hcons
            exact boxesAgree_of_ownBox hcsv' hface hcomplete hraw hall

/-- **Each face in its own box**: over every order of captures and blocks, all
    calls made so far have the numbers of their own boxes, at every point of
    the run, exactly when every block meets a first face whose box agrees with
    its own. -/
theorem own_box_iff_guarded (io : Printing K) (es : List (CaptureEvent K)) :
    (∀ pre post s, es = pre ++ post → run (captureStep io) .started pre = .ok s →
      ∀ call ∈ s.modelCalls, call.OwnBox) ↔
    Guarded (captureStep io) SameShapeBox .started es :=
  always_iff_guarded (P := fun s => s.csvText = some [])
    (fun _ e _ hcsv hstep => (captureStep_spec io e hcsv).1 _ hstep)
    (fun _ e hcsv hown => captureStep_ownBox_iff io e hcsv hown) rfl
    (fun _ hcall => nomatch hcall)

end OwnBox

/-! ## One face in the image, and two -/

/-- A face with one outline for all its regions: all its values are 1 in a
    square box. -/
def sampleFace (boundingBox : CGRect ℚ) : VNFaceObservation ℚ where
  boundingBox := boundingBox
  landmarks :=
    let region : Option (VNFaceLandmarkRegion2D ℚ) :=
      some ⟨[⟨0, 1⟩, ⟨0, 1⟩, ⟨0, 1⟩, ⟨0, 1⟩, ⟨0, 0⟩, ⟨1, 0⟩, ⟨0, 0⟩, ⟨0, 1⟩, ⟨0, 0⟩, ⟨0, 0⟩,
        ⟨0, 0⟩]⟩
    some ⟨region, region, region, region, region, region, region, region, region⟩

def squareBox : CGRect ℚ := ⟨⟨0, 0⟩, ⟨1 / 2, 1 / 2⟩⟩

def flatBox : CGRect ℚ := ⟨⟨1 / 2, 0⟩, ⟨1 / 2, 1 / 4⟩⟩

/-- The call for a sample face in the box of another one. -/
def sampleCall (boundingBox firstBox : CGRect ℚ) : ModelCall ℚ where
  observation := sampleFace boundingBox
  face := sampleFace firstBox
  viewSize := ⟨100, 100⟩
  input1 := EmotionInput.inBox (firstBox.scaled ⟨100, 100⟩) ⟨1, 1, 1, 1, 1⟩

/-- One capture of sample faces in these boxes, and then their blocks. -/
def sampleEvents (boxes : List (CGRect ℚ)) : List (CaptureEvent ℚ) :=
  .capture (some (boxes.map sampleFace)) (some (boxes.map sampleFace)) ::
    boxes.map fun _ => .runBlock ⟨100, 100⟩ true true

theorem sampleFace_raw (boundingBox : CGRect ℚ) :
    referenceInput id (sampleFace boundingBox) = some ⟨1, 1, 1, 1, 1⟩ := by
  simp [referenceInput, regionOpenness, regionSteepness, openness, steepness, sampleFace,
    VNFaceObservation.region, magnitude]

theorem sampleCall_block (boundingBox firstBox : CGRect ℚ) :
    (sampleCall boundingBox firstBox).FromBlock := by
  refine ⟨?_, ?_⟩
  · intro p hp
    simp only [sampleCall, regions, VNFaceObservation.region, sampleFace, Option.bind_some,
      List.mem_cons, List.not_mem_nil, or_false] at hp
    rcases hp with rfl | rfl | rfl | rfl | rfl | rfl | rfl | rfl | rfl <;> rfl
  · rw [ModelCall.InBox, referenceInput_place, sampleCall, sampleFace_raw]
    rfl

/-- Blocks of sample faces complete, each with its call in the first box. -/
theorem run_sampleBlocks {firstBox : CGRect ℚ} (boxes : List (CGRect ℚ)) {s : Pipeline ℚ}
    (hcsv : s.csvText = some []) (hqueue : s.mainQueue = boxes.map sampleFace)
    (hface : s.firstFace = some (sampleFace firstBox)) :
    ∃ s', run (captureStep rationalPrinting) s
        (boxes.map fun _ => .runBlock ⟨100, 100⟩ true true) = .ok s' ∧
      s'.modelCalls = s.modelCalls ++ boxes.map fun box => sampleCall box firstBox := by
  induction boxes generalizing s with
  | nil => exact ⟨s, rfl, (List.append_nil _).symm⟩
  | cons box boxes ih =>
      have hstep : captureStep rationalPrinting s (.runBlock ⟨100, 100⟩ true true)
          = .ok (({ s with mainQueue := boxes.map sampleFace } : Pipeline ℚ).called
              (sampleCall box firstBox)) := by
        rw [captureStep_block rationalPrinting hqueue]
        exact landmarksBlock_completes rationalPrinting hcsv hface (sampleCall_block box firstBox)
      obtain ⟨s', hrun, hcalls⟩ := ih (s := ({ s with mainQueue := boxes.map sampleFace } :
        Pipeline ℚ).called (sampleCall box firstBox)) hcsv rfl hface
      refine ⟨s', run_cons_ok.mpr ⟨_, hstep, hrun⟩, ?_⟩
      rw [hcalls, List.map_cons, Pipeline.called, List.append_assoc]
      rfl

/-- All faces of one image are placed in the box of the first. -/
theorem run_sampleEvents (firstBox : CGRect ℚ) (boxes : List (CGRect ℚ)) :
    ∃ s, run (captureStep rationalPrinting) .started (sampleEvents (firstBox :: boxes)) = .ok s ∧
      s.modelCalls = (firstBox :: boxes).map fun box => sampleCall box firstBox := by
  rw [sampleEvents, run_cons, captureStep, Outcome.ok_andThen]
  exact run_sampleBlocks (firstBox :: boxes) rfl rfl rfl

/-- With one face in the image the first box is the own one. -/
theorem own_box_iff_guarded_one_face :
    ∃ s, run (captureStep rationalPrinting) .started (sampleEvents [flatBox]) = .ok s ∧
      s.modelCalls = [sampleCall flatBox flatBox] ∧ (sampleCall flatBox flatBox).OwnBox := by
  obtain ⟨s, hrun, hcalls⟩ := run_sampleEvents flatBox []
  have hguarded : Guarded (captureStep rationalPrinting) SameShapeBox .started
      (sampleEvents [flatBox]) := by
    refine ⟨trivial, ?_⟩
    intro s hs
    cases hs
    refine ⟨?_, fun _ _ => trivial⟩
    rintro - - observation rest face raw hqueue hface - -
    cases hqueue
    cases hface
    exact ⟨Or.inl Iff.rfl, Or.inl rfl⟩
  refine ⟨s, hrun, hcalls, ?_⟩
  exact (own_box_iff_guarded rationalPrinting (sampleEvents [flatBox])).mpr hguarded _ [] s
    (List.append_nil _).symm hrun _ (hcalls ▸ List.mem_cons_self)

/-- With two, the second face is placed in the box of the first: its eyebrow
    values are 1, and 1/2 in its own box. -/
theorem second_face_in_first_box :
    ∃ s, run (captureStep rationalPrinting) .started (sampleEvents [squareBox, flatBox]) = .ok s ∧
      s.modelCalls = [sampleCall squareBox squareBox, sampleCall flatBox squareBox] ∧
      ¬ (sampleCall flatBox squareBox).OwnBox := by
  obtain ⟨s, hrun, hcalls⟩ := run_sampleEvents squareBox [flatBox]
  refine ⟨s, hrun, hcalls, ?_⟩
  intro hown
  have hratio := ((ownBox_iff (sampleCall_block flatBox squareBox)
    (sampleFace_raw flatBox)).mp hown).ratio
  norm_num [sampleCall, sampleFace, squareBox, flatBox, CGRect.scaled, CGRect.height,
    CGRect.width, magnitude] at hratio

end Mac3amLandmarks
