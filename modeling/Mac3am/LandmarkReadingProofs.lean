import Mac3am.LandmarkTextProofs

/-! # Reading the landmark text back

    The decoder goes by line and field numbers, whatever lines there are.

    * `csvLines_holds` — each line of the text holds the points of one region
      that is there, and the lines behind the last hold none;
    * `readFields_csvLines` — so on the text of any face the decoder reads the
      regions its lines are about, and its only trap is a line or a point that
      is not there;
    * `emotionInput_ok_iff` — what it returns is the input `referenceInput`
      computes without any text, of a face with all nine regions. -/

namespace Mac3amLandmarks

open Swift SplitText

variable {K : Type}

/-! ## Points by number -/

section Points

variable {β γ : Type}

/-- What four points of a region give, by number. -/
def fourPoints (g : CGPoint K → CGPoint K → CGPoint K → CGPoint K → β)
    (region : Option (VNFaceLandmarkRegion2D K)) (start ending middleTop middleBottom : Nat) :
    Option β := do
  let points := (← region).normalizedPoints
  let startPoint ← points[start]?
  let endPoint ← points[ending]?
  let topPoint ← points[middleTop]?
  let bottomPoint ← points[middleBottom]?
  return g startPoint endPoint topPoint bottomPoint

/-- What two points of a region give, by number. -/
def twoPoints (g : CGPoint K → CGPoint K → β) (region : Option (VNFaceLandmarkRegion2D K))
    (middle ending : Nat) : Option β := do
  let points := (← region).normalizedPoints
  let middlePoint ← points[middle]?
  let endPoint ← points[ending]?
  return g middlePoint endPoint

/-- Five parts of an input, where all are there. -/
def EmotionInput.collect (leftEye rightEye outerLip leftEyeBrow rightEyeBrow : Option β) :
    Option (EmotionInput β) := do
  return {
    leftEye := ← leftEye
    rightEye := ← rightEye
    outerLip := ← outerLip
    leftEyeBrow := ← leftEyeBrow
    rightEyeBrow := ← rightEyeBrow }

/-- One function on the eye and lip parts, another on the eyebrow parts. -/
def EmotionInput.mapParts (p q : β → γ) (parts : EmotionInput β) : EmotionInput γ where
  leftEye := p parts.leftEye
  rightEye := p parts.rightEye
  outerLip := p parts.outerLip
  leftEyeBrow := q parts.leftEyeBrow
  rightEyeBrow := q parts.rightEyeBrow

/-- What five regions give, at the points the decoder asks for. -/
def readRegions (g : CGPoint K → CGPoint K → CGPoint K → CGPoint K → β)
    (h : CGPoint K → CGPoint K → β)
    (leftEye rightEye outerLips leftEyebrow rightEyebrow : Option (VNFaceLandmarkRegion2D K)) :
    Option (EmotionInput β) :=
  EmotionInput.collect (fourPoints g leftEye 0 3 2 4) (fourPoints g rightEye 0 3 2 4)
    (fourPoints g outerLips 0 7 3 10) (twoPoints h leftEyebrow 2 5) (twoPoints h rightEyebrow 2 5)

theorem map_fourPoints (p : β → γ) (g : CGPoint K → CGPoint K → CGPoint K → CGPoint K → β)
    (region : Option (VNFaceLandmarkRegion2D K)) (start ending middleTop middleBottom : Nat) :
    (fourPoints g region start ending middleTop middleBottom).map p
      = fourPoints (fun s e t b => p (g s e t b)) region start ending middleTop middleBottom := by
  cases region with
  | none => rfl
  | some region =>
      simp only [fourPoints, Option.bind_eq_bind, Option.bind_some, Option.map_bind,
        Function.comp_def, Option.pure_def, Option.map_some]

theorem map_twoPoints (q : β → γ) (h : CGPoint K → CGPoint K → β)
    (region : Option (VNFaceLandmarkRegion2D K)) (middle ending : Nat) :
    (twoPoints h region middle ending).map q
      = twoPoints (fun m e => q (h m e)) region middle ending := by
  cases region with
  | none => rfl
  | some region =>
      simp only [twoPoints, Option.bind_eq_bind, Option.bind_some, Option.map_bind,
        Function.comp_def, Option.pure_def, Option.map_some]

theorem map_collect (p q : β → γ)
    (leftEye rightEye outerLip leftEyeBrow rightEyeBrow : Option β) :
    (EmotionInput.collect leftEye rightEye outerLip leftEyeBrow rightEyeBrow).map
        (EmotionInput.mapParts p q)
      = EmotionInput.collect (leftEye.map p) (rightEye.map p) (outerLip.map p)
          (leftEyeBrow.map q) (rightEyeBrow.map q) := by
  simp only [EmotionInput.collect, Option.bind_eq_bind, Option.bind_map, Option.map_bind,
    Function.comp_def, Option.pure_def, Option.map_some, EmotionInput.mapParts]

/-- Reading and then computing is reading what is computed. -/
theorem map_readRegions (p q : β → γ)
    (g : CGPoint K → CGPoint K → CGPoint K → CGPoint K → β) (h : CGPoint K → CGPoint K → β)
    (leftEye rightEye outerLips leftEyebrow rightEyebrow : Option (VNFaceLandmarkRegion2D K)) :
    (readRegions g h leftEye rightEye outerLips leftEyebrow rightEyebrow).map
        (EmotionInput.mapParts p q)
      = readRegions (fun s e t b => p (g s e t b)) (fun m e => q (h m e)) leftEye rightEye
          outerLips leftEyebrow rightEyebrow := by
  rw [readRegions, map_collect, map_fourPoints, map_fourPoints, map_fourPoints, map_twoPoints,
    map_twoPoints]
  rfl

end Points

/-! ## The regions of the lines -/

section Regions

variable {β : Type} {observation : VNFaceObservation K}

/-- The regions that are there, under their labels. -/
def present (observation : VNFaceObservation K) : List (Text × VNFaceLandmarkRegion2D K) :=
  (regions observation).filterMap fun p => p.2.map fun region => (p.1, region)

/-- The region a line of the text is about. -/
def lineRegion (observation : VNFaceObservation K) (line : Nat) :
    Option (VNFaceLandmarkRegion2D K) :=
  (present observation)[line]?.map Prod.snd

theorem present_labels (observation : VNFaceObservation K) :
    ∀ p ∈ present observation, ',' ∉ p.1 ∧ p.1 ≠ [] := by
  intro p hp
  obtain ⟨q, hq, hp⟩ := List.mem_filterMap.mp hp
  obtain ⟨region, -, rfl⟩ := Option.map_eq_some_iff.mp hp
  exact ⟨(regions_labels observation q hq).1, (regions_labels observation q hq).2.2⟩

/-- Of a face with all nine regions, line `k` is about region `k`. -/
theorem lineRegion_complete (hcomplete : Complete observation) {k : Nat} {thisType : Text}
    {landmark : Option (VNFaceLandmarkRegion2D K)}
    (hk : (regions observation)[k]? = some (thisType, landmark)) :
    lineRegion observation k = landmark := by
  -- no region is missing, so no line moves up
  have hall : (present observation).map (fun p => (p.1, some p.2)) = regions observation := by
    rw [present, List.map_filterMap]
    refine (List.filterMap_congr ?_).trans List.filterMap_some
    intro p hp
    obtain ⟨region, hregion⟩ := Option.isSome_iff_exists.mp (hcomplete p hp)
    obtain ⟨label, landmark'⟩ := p
    cases hregion
    rfl
  rw [← hall, List.getElem?_map] at hk
  obtain ⟨p, hp, heq⟩ := Option.map_eq_some_iff.mp hk
  cases heq
  rw [lineRegion, hp]
  rfl

/-- Of any other face, there is no line 8. -/
theorem lineRegion_incomplete (hincomplete : ¬ Complete observation) :
    lineRegion observation 8 = none := by
  have hshort : (present observation).length < 9 := by
    refine Nat.lt_of_le_of_ne (List.length_filterMap_le _ (regions observation)) ?_
    intro hlength
    refine hincomplete ?_
    intro p hp
    have hsome := List.filterMap_length_eq_length.mp hlength p hp
    rwa [Option.isSome_map] at hsome
  rw [lineRegion, List.getElem?_eq_none (by omega)]
  rfl

/-- What the lines of a face give, whatever regions they are about. -/
def readLines (g : CGPoint K → CGPoint K → CGPoint K → CGPoint K → β)
    (h : CGPoint K → CGPoint K → β) (observation : VNFaceObservation K) :
    Option (EmotionInput β) :=
  readRegions g h (lineRegion observation 1) (lineRegion observation 2) (lineRegion observation 8)
    (lineRegion observation 5) (lineRegion observation 6)

/-- What the regions of a face give. -/
def readFace (g : CGPoint K → CGPoint K → CGPoint K → CGPoint K → β) (h : CGPoint K → CGPoint K → β)
    (observation : VNFaceObservation K) : Option (EmotionInput β) :=
  readRegions g h (observation.region (·.leftEye)) (observation.region (·.rightEye))
    (observation.region (·.outerLips)) (observation.region (·.leftEyebrow))
    (observation.region (·.rightEyebrow))

/-- With all nine regions, the lines are about the regions they are read for. -/
theorem readLines_complete (g : CGPoint K → CGPoint K → CGPoint K → CGPoint K → β)
    (h : CGPoint K → CGPoint K → β) (hcomplete : Complete observation) :
    readLines g h observation = readFace g h observation := by
  rw [readLines, readFace, lineRegion_complete hcomplete (k := 1) rfl,
    lineRegion_complete hcomplete (k := 2) rfl, lineRegion_complete hcomplete (k := 8) rfl,
    lineRegion_complete hcomplete (k := 5) rfl, lineRegion_complete hcomplete (k := 6) rfl]

/-- With a region missing, the lines behind it move up, and the last one is not
    there. -/
theorem readLines_incomplete (g : CGPoint K → CGPoint K → CGPoint K → CGPoint K → β)
    (h : CGPoint K → CGPoint K → β) (hincomplete : ¬ Complete observation) :
    readLines g h observation = none := by
  rw [readLines, lineRegion_incomplete hincomplete, readRegions]
  -- the eyes are read first, and may be short of points before that
  cases fourPoints g (lineRegion observation 1) 0 3 2 4 with
  | none => rfl
  | some a =>
      cases fourPoints g (lineRegion observation 2) 0 3 2 4 with
      | none => rfl
      | some b => rfl

end Regions

/-! ## The fields of the lines -/

section Fields

variable {β : Type}

/-- Four fields of a line, as `shapeOf` reads them. -/
def fourFields (read : Text → Text → Text → Text → Except Trap β) (df : List Text)
    (line start ending middleTop middleBottom : Nat) : Except Trap β := do
  let startText ← field df line start
  let endText ← field df line ending
  let middleTopText ← field df line middleTop
  let middleBottomText ← field df line middleBottom
  read startText endText middleTopText middleBottomText

/-- Two fields of a line, as `eyebrowShapeOf` reads them. -/
def twoFields (read : Text → Text → Except Trap β) (df : List Text) (line middle ending : Nat) :
    Except Trap β := do
  let middleText ← field df line middle
  let endText ← field df line ending
  read middleText endText

/-- The fields `emotionInput` reads, in its order. -/
def readFields (read : Text → Text → Text → Text → Except Trap β)
    (readBrow : Text → Text → Except Trap β) (df : List Text) : Except Trap (EmotionInput β) := do
  let leftEye ← fourFields read df 1 1 4 3 5
  let rightEye ← fourFields read df 2 1 4 3 5
  let outerLip ← fourFields read df 8 1 8 4 11
  let leftEyeBrow ← twoFields readBrow df 5 3 6
  let rightEyeBrow ← twoFields readBrow df 6 3 6
  return { leftEye, rightEye, outerLip, leftEyeBrow, rightEyeBrow }

/-- A subscript out of range is the only trap of the decoder on the text of a
    face. -/
def inRange {β : Type} : Option β → Except Trap β
  | some b => .ok b
  | none => .error .indexOutOfRange

/-- Five readings, one after the other, collect their parts. -/
theorem inRange_collect (leftEye rightEye outerLip leftEyeBrow rightEyeBrow : Option β) :
    (do
      let leftEye ← inRange leftEye
      let rightEye ← inRange rightEye
      let outerLip ← inRange outerLip
      let leftEyeBrow ← inRange leftEyeBrow
      let rightEyeBrow ← inRange rightEyeBrow
      return ({ leftEye, rightEye, outerLip, leftEyeBrow, rightEyeBrow } : EmotionInput β))
      = inRange (EmotionInput.collect leftEye rightEye outerLip leftEyeBrow rightEyeBrow) := by
  cases leftEye with
  | none => rfl
  | some a =>
      cases rightEye with
      | none => rfl
      | some b =>
          cases outerLip with
          | none => rfl
          | some c =>
              cases leftEyeBrow with
              | none => rfl
              | some d =>
                  cases rightEyeBrow with
                  | none => rfl
                  | some e => rfl

end Fields

/-! ## Reading what was written -/

section Lines

variable [Add K] [Sub K] [Mul K] [Magnitude K] {io : Printing K} {boundingBox : CGRect K}
  {observation : VNFaceObservation K}

theorem csvLines_eq (io : Printing K) (boundingBox : CGRect K)
    (observation : VNFaceObservation K) :
    csvLines io boundingBox observation
      = (present observation).map fun p => csvLine io boundingBox p.1 p.2.normalizedPoints := by
  rw [csvLines, present, List.map_filterMap]
  simp only [Option.map_map, Function.comp_def]

/-- A line holds the points of a region, in its fields from the first on. -/
def Holds (io : Printing K) (boundingBox : CGRect K) (df : List Text) (line : Nat)
    (region : Option (VNFaceLandmarkRegion2D K)) : Prop :=
  ∀ i, field df line (i + 1)
    = inRange ((region.bind fun r => r.normalizedPoints[i]?).map fun p =>
        fieldText io (place boundingBox p))

/-- **Every line of the text** holds the points of its region, and the lines
    behind the last hold none. -/
theorem csvLines_holds (io : Printing K) (boundingBox : CGRect K)
    (observation : VNFaceObservation K) (line : Nat) :
    Holds io boundingBox (csvLines io boundingBox observation ++ [[]]) line
      (lineRegion observation line) := by
  intro i
  rw [csvLines_eq, lineRegion]
  cases hp : (present observation)[line]? with
  | some p =>
      have hlt := (List.getElem?_eq_some_iff.mp hp).1
      have hline : (((present observation).map fun p =>
          csvLine io boundingBox p.1 p.2.normalizedPoints) ++ [[]])[line]?
          = some (csvLine io boundingBox p.1 p.2.normalizedPoints) := by
        rw [List.getElem?_append_left (by rwa [List.length_map]), List.getElem?_map, hp]
        rfl
      rw [field_csvLine hline (present_labels observation p (List.mem_of_getElem? hp)) i]
      show _ = inRange ((p.2.normalizedPoints[i]?).map _)
      cases p.2.normalizedPoints[i]? with
      | none => rfl
      | some point => rfl
  | none =>
      have hge := List.getElem?_eq_none_iff.mp hp
      rw [field]
      by_cases hlast : line = (present observation).length
      · -- the empty line behind the last has no field
        have hempty : (((present observation).map fun p =>
            csvLine io boundingBox p.1 p.2.normalizedPoints) ++ [[]])[line]? = some [] := by
          rw [hlast, ← List.length_map (fun p : Text × VNFaceLandmarkRegion2D K =>
            csvLine io boundingBox p.1 p.2.normalizedPoints), List.getElem?_concat_length]
        rw [element_some hempty]
        rfl
      · have hnone : (((present observation).map fun p =>
            csvLine io boundingBox p.1 p.2.normalizedPoints) ++ [[]])[line]? = none := by
          refine List.getElem?_eq_none ?_
          rw [List.length_append, List.length_map, List.length_singleton]
          omega
        rw [element_none hnone]
        rfl

section Reading

variable {β : Type} {df : List Text} {line : Nat} {region : Option (VNFaceLandmarkRegion2D K)}

/-- Reading four fields of a line reads four points of its region. -/
theorem Holds.four (h : Holds io boundingBox df line region)
    {read : Text → Text → Text → Text → Except Trap β}
    {g : CGPoint K → CGPoint K → CGPoint K → CGPoint K → β}
    (hread : ∀ s e t b, read (fieldText io s) (fieldText io e) (fieldText io t) (fieldText io b)
      = .ok (g s e t b)) (start ending middleTop middleBottom : Nat) :
    fourFields read df line (start + 1) (ending + 1) (middleTop + 1) (middleBottom + 1)
      = inRange (fourPoints (fun s e t b => g (place boundingBox s) (place boundingBox e)
          (place boundingBox t) (place boundingBox b)) region start ending middleTop
          middleBottom) := by
  rw [fourFields, h, h, h, h]
  cases region with
  | none => rfl
  | some region =>
      rw [fourPoints, Option.bind_some, Option.bind_some, Option.bind_some, Option.bind_some]
      dsimp only [Option.bind_eq_bind, Option.bind_some]
      cases region.normalizedPoints[start]? with
      | none => rfl
      | some s =>
          cases region.normalizedPoints[ending]? with
          | none => rfl
          | some e =>
              cases region.normalizedPoints[middleTop]? with
              | none => rfl
              | some t =>
                  cases region.normalizedPoints[middleBottom]? with
                  | none => rfl
                  | some b => exact hread _ _ _ _

/-- Reading two fields of a line reads two points of its region. -/
theorem Holds.two (h : Holds io boundingBox df line region)
    {read : Text → Text → Except Trap β} {g : CGPoint K → CGPoint K → β}
    (hread : ∀ m e, read (fieldText io m) (fieldText io e) = .ok (g m e)) (middle ending : Nat) :
    twoFields read df line (middle + 1) (ending + 1)
      = inRange (twoPoints (fun m e => g (place boundingBox m) (place boundingBox e)) region
          middle ending) := by
  rw [twoFields, h, h]
  cases region with
  | none => rfl
  | some region =>
      rw [twoPoints, Option.bind_some, Option.bind_some]
      dsimp only [Option.bind_eq_bind, Option.bind_some]
      cases region.normalizedPoints[middle]? with
      | none => rfl
      | some m =>
          cases region.normalizedPoints[ending]? with
          | none => rfl
          | some e => exact hread _ _

/-- **Any face**: reading the text of a face reads the regions its lines are
    about, and the only trap is a line or a point that is not there. -/
theorem readFields_csvLines (io : Printing K) (boundingBox : CGRect K)
    (observation : VNFaceObservation K) {read : Text → Text → Text → Text → Except Trap β}
    {readBrow : Text → Text → Except Trap β}
    {g : CGPoint K → CGPoint K → CGPoint K → CGPoint K → β} {h : CGPoint K → CGPoint K → β}
    (hread : ∀ s e t b, read (fieldText io s) (fieldText io e) (fieldText io t) (fieldText io b)
      = .ok (g s e t b))
    (hreadBrow : ∀ m e, readBrow (fieldText io m) (fieldText io e) = .ok (h m e)) :
    readFields read readBrow (csvLines io boundingBox observation ++ [[]])
      = inRange (readLines (fun s e t b => g (place boundingBox s) (place boundingBox e)
          (place boundingBox t) (place boundingBox b))
          (fun m e => h (place boundingBox m) (place boundingBox e)) observation) := by
  have hholds := csvLines_holds io boundingBox observation
  rw [readFields, (hholds 1).four hread 0 3 2 4, (hholds 2).four hread 0 3 2 4,
    (hholds 8).four hread 0 7 3 10, (hholds 5).two hreadBrow 2 5, (hholds 6).two hreadBrow 2 5]
  exact inRange_collect _ _ _ _ _

end Reading

end Lines

section Decoding

variable [Add K] [Sub K] [Mul K] [Div K] [OfNat K 2] [Magnitude K] {io : Printing K}
  {boundingBox : CGRect K} {observation : VNFaceObservation K}

/-- **All nine regions**: the decoder computes the reference input, and its
    only trap is a point that is not there. -/
theorem emotionInput_complete (io : Printing K) (boundingBox : CGRect K)
    (hcomplete : Complete observation) :
    emotionInput io ((csvLines io boundingBox observation).flatMap fun line => line ++ ['\n'])
      = inRange (referenceInput (place boundingBox) observation) := by
  show readFields (shape io) (eyebrowShape io) (components ['\n'] _) = _
  rw [components_csvLines, readFields_csvLines io boundingBox observation (shape_fieldText io)
    (eyebrowShape_fieldText io), readLines_complete _ _ hcomplete]
  rfl

/-- **A region is missing**: the decoder asks for a line that is not there. -/
theorem emotionInput_incomplete (io : Printing K) (boundingBox : CGRect K)
    (hincomplete : ¬ Complete observation) :
    emotionInput io ((csvLines io boundingBox observation).flatMap fun line => line ++ ['\n'])
      = .error .indexOutOfRange := by
  show readFields (shape io) (eyebrowShape io) (components ['\n'] _) = _
  rw [components_csvLines, readFields_csvLines io boundingBox observation (shape_fieldText io)
    (eyebrowShape_fieldText io), readLines_incomplete _ _ hincomplete]
  rfl

/-- **What the decoder returns**: the reference input of a face with all nine
    regions, and nothing else. -/
theorem emotionInput_ok_iff (io : Printing K) (boundingBox : CGRect K)
    (observation : VNFaceObservation K) (input : EmotionInput K) :
    emotionInput io ((csvLines io boundingBox observation).flatMap fun line => line ++ ['\n'])
        = .ok input ↔
      Complete observation ∧ referenceInput (place boundingBox) observation = some input := by
  by_cases hcomplete : Complete observation
  · rw [emotionInput_complete io boundingBox hcomplete]
    cases referenceInput (place boundingBox) observation with
    | none => exact ⟨fun h => (nomatch h), fun h => (nomatch h.2)⟩
    | some v =>
        constructor
        · intro h
          exact ⟨hcomplete, congrArg some (Except.ok.inj h)⟩
        · intro h
          exact congrArg Except.ok (Option.some.inj h.2)
  · rw [emotionInput_incomplete io boundingBox hcomplete]
    exact ⟨fun h => (nomatch h), fun h => absurd h.1 hcomplete⟩

end Decoding

end Mac3amLandmarks
