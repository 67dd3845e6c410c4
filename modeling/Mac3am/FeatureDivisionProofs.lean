import Mac3am.LandmarkReadingProofs

/-! # The divisions behind the five values

    `shape` and `eyebrowShape` divide differences of coordinates they have read
    from the text, and no path checks a divisor.  Here a division keeps its two
    sides until its value is asked for.

    * `emotionInput_eq_values` — on every text the five numbers are the values
      of the five divisions;
    * `blockDivisions_complete` — of a face with all nine regions, they are the
      divisions of its placed points. -/

namespace Mac3amLandmarks

open Swift SplitText

/-- A division that is not made yet. -/
structure Division (K : Type) where
  dividend : K
  divisor : K
deriving DecidableEq, Repr

section Divisions

variable {K : Type}

def Division.value [Div K] (d : Division K) : K := d.dividend / d.divisor

/-- All five divisors are non-zero. -/
structure EmotionInput.WellDefined [Zero K] (d : EmotionInput (Division K)) : Prop where
  leftEye : d.leftEye.divisor ≠ 0
  rightEye : d.rightEye.divisor ≠ 0
  outerLip : d.outerLip.divisor ≠ 0
  leftEyeBrow : d.leftEyeBrow.divisor ≠ 0
  rightEyeBrow : d.rightEyeBrow.divisor ≠ 0

variable [Add K] [Sub K] [Div K] [OfNat K 2] [Magnitude K] (io : Printing K)

/-- The division of `shape`. -/
def shapeDivision (start ending middleTop middleBottom : Text) : Except Trap (Division K) := do
  let startY ← number io start 1
  let endY ← number io ending 1
  let bothEndY := ((← unwrap startY) + (← unwrap endY)) / 2
  let middleBottomY ← number io middleBottom 1
  let middleTopY ← number io middleTop 1
  let middleBottomY ← unwrap middleBottomY
  let middleTopY ← unwrap middleTopY
  return {
    dividend := magnitude (bothEndY - middleBottomY)
    divisor := magnitude (middleTopY - middleBottomY) }

/-- The division of `eyebrowShape`, whose magnitude it returns. -/
def eyebrowDivision (middle ending : Text) : Except Trap (Division K) := do
  let middleX ← number io middle 0
  let middleY ← number io middle 1
  let endX ← number io ending 0
  let endY ← number io ending 1
  let middleY ← unwrap middleY
  let endY ← unwrap endY
  let middleX ← unwrap middleX
  let endX ← unwrap endX
  return { dividend := middleY - endY, divisor := middleX - endX }

/-- The divisions of `calculateEmotion`. -/
def emotionDivisions (emotionText : Text) : Except Trap (EmotionInput (Division K)) :=
  readFields (shapeDivision io) (eyebrowDivision io) (components ['\n'] emotionText)

/-- The five numbers, once they are divided. -/
def EmotionInput.values (d : EmotionInput (Division K)) : EmotionInput K :=
  d.mapParts Division.value fun d => magnitude d.value

theorem shape_eq_value (start ending middleTop middleBottom : Text) :
    shape io start ending middleTop middleBottom
      = Division.value <$> shapeDivision io start ending middleTop middleBottom := by
  simp only [shape, shapeDivision, map_bind, map_pure]
  rfl

omit [Add K] [OfNat K 2] in
theorem eyebrowShape_eq_value (middle ending : Text) :
    eyebrowShape io middle ending
      = (fun d => magnitude d.value) <$> eyebrowDivision io middle ending := by
  simp only [eyebrowShape, eyebrowDivision, map_bind, map_pure]
  rfl

theorem map_readFields {β γ : Type} (p q : β → γ) (read : Text → Text → Text → Text → Except Trap β)
    (readBrow : Text → Text → Except Trap β) (df : List Text) :
    EmotionInput.mapParts p q <$> readFields read readBrow df
      = readFields (fun s e t b => p <$> read s e t b) (fun m e => q <$> readBrow m e) df := by
  simp only [readFields, fourFields, twoFields, map_bind, map_pure, bind_map_left, bind_assoc]
  rfl

/-- **Any text**: the five numbers are the values of the five divisions. -/
theorem emotionInput_eq_values (emotionText : Text) :
    emotionInput io emotionText = EmotionInput.values <$> emotionDivisions io emotionText := by
  show readFields (shape io) (eyebrowShape io) _
    = EmotionInput.mapParts Division.value (fun d => magnitude d.value) <$> readFields _ _ _
  rw [map_readFields]
  simp only [← shape_eq_value, ← eyebrowShape_eq_value]

/-! ## The divisions of points -/

/-- The division behind an openness. -/
def opennessDivision (start ending middleTop middleBottom : CGPoint K) : Division K where
  dividend := magnitude ((start.y + ending.y) / 2 - middleBottom.y)
  divisor := magnitude (middleTop.y - middleBottom.y)

/-- The division behind a steepness. -/
def steepnessDivision (middle ending : CGPoint K) : Division K where
  dividend := middle.y - ending.y
  divisor := middle.x - ending.x

/-- The divisions of a face, on its normalized points. -/
def rawDivisions (observation : VNFaceObservation K) : Option (EmotionInput (Division K)) :=
  readFace opennessDivision steepnessDivision observation

theorem shapeDivision_fieldText (start ending middleTop middleBottom : CGPoint K) :
    shapeDivision io (fieldText io start) (fieldText io ending) (fieldText io middleTop)
        (fieldText io middleBottom)
      = .ok (opennessDivision start ending middleTop middleBottom) := by
  rw [shapeDivision, (number_fieldText io start).2, (number_fieldText io ending).2,
    (number_fieldText io middleBottom).2, (number_fieldText io middleTop).2]
  rfl

omit [Add K] [Div K] [OfNat K 2] [Magnitude K] in
theorem eyebrowDivision_fieldText (middle ending : CGPoint K) :
    eyebrowDivision io (fieldText io middle) (fieldText io ending)
      = .ok (steepnessDivision middle ending) := by
  rw [eyebrowDivision, (number_fieldText io middle).1, (number_fieldText io middle).2,
    (number_fieldText io ending).1, (number_fieldText io ending).2]
  rfl

/-- The divisions a block makes in a box. -/
def blockDivisions [Mul K] (observation : VNFaceObservation K) (faceBoundingBox : CGRect K) :
    Except Trap (EmotionInput (Division K)) := do
  let emotionText ← unwrap (convertLandmarks io observation faceBoundingBox (some []))
  emotionDivisions io emotionText

/-- **All nine regions**: a block makes the divisions of the placed points. -/
theorem blockDivisions_complete [Mul K] (boundingBox : CGRect K)
    {observation : VNFaceObservation K} (hcomplete : Complete observation) :
    blockDivisions io observation boundingBox
      = inRange (readFace
          (fun s e t b => opennessDivision (place boundingBox s) (place boundingBox e)
            (place boundingBox t) (place boundingBox b))
          (fun m e => steepnessDivision (place boundingBox m) (place boundingBox e))
          observation) := by
  rw [blockDivisions, convertLandmarks_eq]
  show readFields (shapeDivision io) (eyebrowDivision io) (components ['\n'] _) = _
  rw [components_csvLines, readFields_csvLines io boundingBox observation
    (shapeDivision_fieldText io) (eyebrowDivision_fieldText io), readLines_complete _ _ hcomplete]

end Divisions

end Mac3amLandmarks
