import Mac3am.FaceBoxProofs

/-! # When a block runs to its end

    The encoder writes no line for a region Vision did not find, and as many
    fields as a region has points.  The decoder asks for fixed lines and fields.

    * `referenceInput_isSome_iff` — a face has its input exactly if the five
      regions it is computed from have points enough;
    * `landmarksBlock_returns_iff` — so a block runs to its end exactly on a
      face with all nine regions and with that many points in the five, and what
      it traps on otherwise is always a subscript out of range. -/

namespace Mac3amLandmarks

open Swift TrapRun

section Counts

variable {K β : Type}

/-- How many points a region has; a missing region has none. -/
def pointCount (region : Option (VNFaceLandmarkRegion2D K)) : Nat :=
  region.elim 0 fun r => r.normalizedPoints.length

/-- The points the decoder asks for are there. -/
structure EnoughPoints (observation : VNFaceObservation K) : Prop where
  leftEye : 5 ≤ pointCount (observation.region (·.leftEye))
  rightEye : 5 ≤ pointCount (observation.region (·.rightEye))
  outerLips : 11 ≤ pointCount (observation.region (·.outerLips))
  leftEyebrow : 6 ≤ pointCount (observation.region (·.leftEyebrow))
  rightEyebrow : 6 ≤ pointCount (observation.region (·.rightEyebrow))

/-- A reading that starts with point `i` succeeds if the point is there and the
    rest succeeds. -/
theorem point_bind_isSome_iff {points : List (CGPoint K)} {i : Nat} {rest : CGPoint K → Option β}
    {P : Prop} (hrest : ∀ p, (rest p).isSome = true ↔ P) :
    ((points[i]?).bind rest).isSome = true ↔ i < points.length ∧ P := by
  by_cases hi : i < points.length
  · rw [List.getElem?_eq_getElem hi, Option.bind_some, hrest]
    exact ⟨fun hP => ⟨hi, hP⟩, And.right⟩
  · rw [List.getElem?_eq_none (Nat.le_of_not_lt hi), Option.bind_none]
    exact ⟨fun hsome => absurd hsome Bool.false_ne_true, fun h => absurd h.1 hi⟩

theorem fourPoints_isSome_iff (g : CGPoint K → CGPoint K → CGPoint K → CGPoint K → β)
    (region : Option (VNFaceLandmarkRegion2D K)) (start ending middleTop middleBottom : Nat) :
    (fourPoints g region start ending middleTop middleBottom).isSome = true ↔
      start < pointCount region ∧ ending < pointCount region ∧ middleTop < pointCount region ∧
        middleBottom < pointCount region := by
  cases region with
  | none => exact ⟨fun h => absurd h Bool.false_ne_true, fun h => absurd h.1 (Nat.not_lt_zero _)⟩
  | some region =>
      refine point_bind_isSome_iff fun _ => point_bind_isSome_iff fun _ =>
        point_bind_isSome_iff fun _ => ?_
      rw [← and_true (middleBottom < _)]
      exact point_bind_isSome_iff fun _ => Iff.of_eq (eq_true rfl)

theorem twoPoints_isSome_iff (g : CGPoint K → CGPoint K → β)
    (region : Option (VNFaceLandmarkRegion2D K)) (middle ending : Nat) :
    (twoPoints g region middle ending).isSome = true ↔
      middle < pointCount region ∧ ending < pointCount region := by
  cases region with
  | none => exact ⟨fun h => absurd h Bool.false_ne_true, fun h => absurd h.1 (Nat.not_lt_zero _)⟩
  | some region =>
      refine point_bind_isSome_iff fun _ => ?_
      rw [← and_true (ending < _)]
      exact point_bind_isSome_iff fun _ => Iff.of_eq (eq_true rfl)

theorem collect_isSome_iff (leftEye rightEye outerLip leftEyeBrow rightEyeBrow : Option β) :
    (EmotionInput.collect leftEye rightEye outerLip leftEyeBrow rightEyeBrow).isSome = true ↔
      leftEye.isSome = true ∧ rightEye.isSome = true ∧ outerLip.isSome = true ∧
        leftEyeBrow.isSome = true ∧ rightEyeBrow.isSome = true := by
  simp [EmotionInput.collect, Option.isSome_iff_exists, Option.bind_eq_some_iff]

/-- Reading the regions of a face succeeds exactly if it has points enough. -/
theorem readFace_isSome_iff (g : CGPoint K → CGPoint K → CGPoint K → CGPoint K → β)
    (h : CGPoint K → CGPoint K → β) (observation : VNFaceObservation K) :
    (readFace g h observation).isSome = true ↔ EnoughPoints observation := by
  rw [readFace, readRegions, collect_isSome_iff, fourPoints_isSome_iff, fourPoints_isSome_iff,
    fourPoints_isSome_iff, twoPoints_isSome_iff, twoPoints_isSome_iff]
  constructor
  · intro h
    exact ⟨by omega, by omega, by omega, by omega, by omega⟩
  · rintro ⟨hleft, hright, hlips, hleftBrow, hrightBrow⟩
    omega

end Counts

section Blocks

variable {K : Type} [Add K] [Sub K] [Mul K] [Div K] [OfNat K 2] [Magnitude K] {s : Pipeline K}
  {face : VNFaceObservation K}

omit [Mul K] in
theorem referenceInput_isSome_iff (f : CGPoint K → CGPoint K)
    (observation : VNFaceObservation K) :
    (referenceInput f observation).isSome = true ↔ EnoughPoints observation :=
  readFace_isSome_iff (fun s e t b => openness (f s) (f e) (f t) (f b))
    (fun m e => steepness (f m) (f e)) observation

/-- On an empty text, a block of a face that lacks a region or a point traps on
    a subscript. -/
theorem landmarksBlock_traps (io : Printing K) (observation : VNFaceObservation K)
    (viewSize : CGSize K) (hcsv : s.csvText = some [])
    (hface : s.firstFace = some face) (hlacks : ¬ (Complete observation ∧ EnoughPoints observation))
    (array prediction : Bool) :
    ∃ m, landmarksBlock io observation viewSize array prediction s
      = .trap .indexOutOfRange m := by
  have hdecoded : emotionInput io ((csvLines io (face.boundingBox.scaled viewSize)
      observation).flatMap fun line => line ++ ['\n']) = .error .indexOutOfRange := by
    by_cases hcomplete : Complete observation
    · have hnone : referenceInput (place (face.boundingBox.scaled viewSize)) observation
          = none := by
        rw [← Option.not_isSome_iff_eq_none, referenceInput_isSome_iff]
        exact fun henough => hlacks ⟨hcomplete, henough⟩
      rw [emotionInput_complete io _ hcomplete, hnone]
      rfl
    · exact emotionInput_incomplete io _ hcomplete
  rw [landmarksBlock_eq hcsv hface, calculateEmotion, hdecoded]
  exact ⟨_, rfl⟩

/-- **When a block runs to its end**: from an empty text and with a face stored,
    with the array and the prediction coming about, a block returns, with an
    empty text again, exactly if its observation has all nine regions and the
    decoder's points in them; otherwise it traps on a subscript. -/
theorem landmarksBlock_returns_iff (io : Printing K) (observation : VNFaceObservation K)
    (viewSize : CGSize K) (hcsv : s.csvText = some []) (hface : s.firstFace = some face) :
    ((∃ s', landmarksBlock io observation viewSize true true s = .ok s' ∧ s'.csvText = some []) ↔
      Complete observation ∧ EnoughPoints observation) ∧
    ∀ t m, landmarksBlock io observation viewSize true true s = .trap t m →
      t = .indexOutOfRange := by
  by_cases hall : Complete observation ∧ EnoughPoints observation
  · obtain ⟨input1, hinput⟩ := Option.isSome_iff_exists.mp
      ((referenceInput_isSome_iff (place (face.boundingBox.scaled viewSize)) observation).mpr
        hall.2)
    have hblock : (ModelCall.mk observation face viewSize input1).FromBlock := ⟨hall.1, hinput⟩
    have hdone := landmarksBlock_completes io hcsv hface hblock
    refine ⟨⟨fun _ => hall, fun _ => ⟨_, hdone, hcsv⟩⟩, ?_⟩
    intro t m htrap
    cases hdone.symm.trans htrap
  · obtain ⟨m, htrap⟩ := landmarksBlock_traps io observation viewSize hcsv hface hall true true
    refine ⟨⟨?_, fun h => absurd h hall⟩, ?_⟩
    · rintro ⟨s', hdone, -⟩
      cases hdone.symm.trans htrap
    · intro t m' htrap'
      cases htrap.symm.trans htrap'
      rfl

end Blocks

/-! ## A face with all regions, and one without -/

/-- A pipeline with one stored face, in this box. -/
def faceStored (boundingBox : CGRect ℚ) : Pipeline ℚ where
  inputFaceObservations := some [sampleFace boundingBox]
  mainQueue := []
  csvText := some []
  modelCalls := []

theorem faceStored_csvText (boundingBox : CGRect ℚ) :
    (faceStored boundingBox).csvText = some [] := rfl

theorem faceStored_firstFace (boundingBox : CGRect ℚ) :
    (faceStored boundingBox).firstFace = some (sampleFace boundingBox) := rfl

/-- The sample face without its nose crest. -/
def faceWithoutCrest : VNFaceObservation ℚ where
  boundingBox := squareBox
  landmarks := (sampleFace squareBox).landmarks.map fun landmarks =>
    { landmarks with noseCrest := none }

theorem sampleFace_enough (boundingBox : CGRect ℚ) : EnoughPoints (sampleFace boundingBox) := by
  rw [← referenceInput_isSome_iff id, sampleFace_raw]
  rfl

/-- The block of a face with all regions and points runs to its end. -/
theorem landmarksBlock_returns_iff_sample :
    ∃ s', landmarksBlock rationalPrinting (sampleFace squareBox) ⟨100, 100⟩ true true
      (faceStored squareBox) = .ok s' ∧ s'.csvText = some [] :=
  (landmarksBlock_returns_iff rationalPrinting (sampleFace squareBox) ⟨100, 100⟩
    (faceStored_csvText squareBox) (faceStored_firstFace squareBox)).1.mpr
    ⟨(sampleCall_block squareBox squareBox).1, sampleFace_enough squareBox⟩

/-- Without the nose crest, which no value is computed from, the block traps. -/
theorem missing_region_traps :
    ∃ m, landmarksBlock rationalPrinting faceWithoutCrest ⟨100, 100⟩ true true
      (faceStored squareBox) = .trap .indexOutOfRange m := by
  refine landmarksBlock_traps rationalPrinting faceWithoutCrest ⟨100, 100⟩
    (faceStored_csvText squareBox) (faceStored_firstFace squareBox) ?_ true true
  rintro ⟨hcomplete, -⟩
  have hcrest := hcomplete ("noseCrest".toList, none) (by decide)
  cases hcrest

end Mac3amLandmarks
