import Mac3am.SplitTextProofs
import Mac3am.SwiftProofs

/-! # The landmark text

    `convertPointsForFace` writes one line of text for each region Vision
    found: a label, then `, x * y` for each point.  `calculateEmotion` reads
    the text back by line and field numbers, and computes five numbers from it.

    * `convertLandmarks_eq` — a block writes one line for each region that is
      there;
    * `field_csvLine`, `number_fieldText` — the fields of such a line are the
      points of the region, and their two parts the coordinates. -/

namespace Mac3amLandmarks

open Swift SplitText

abbrev Text := List Char

/-- `CharacterSet.whitespaces`: the space separators and the tab. -/
def isWhitespace (c : Char) : Bool :=
  c.toNat = 0x09 || c.toNat = 0x20 || c.toNat = 0xA0 || c.toNat = 0x1680 ||
    (0x2000 ≤ c.toNat && c.toNat ≤ 0x200A) || c.toNat = 0x202F || c.toNat = 0x205F ||
    c.toNat = 0x3000

/-- `abs(_:)` -/
class Magnitude (K : Type) where
  magnitude : K → K

export Magnitude (magnitude)

/-- How coordinates are printed and parsed: a printed coordinate contains no
    separator and parses back to itself. -/
structure Printing (K : Type) where
  description : K → Text
  double : Text → Option K
  description_ne_nil : ∀ x, description x ≠ []
  separators : ∀ x, ∀ c ∈ description x, c ≠ ',' ∧ c ≠ '\n' ∧ isWhitespace c = false
  double_description : ∀ x, double (description x) = some x

structure CGPoint (K : Type) where
  x : K
  y : K
deriving DecidableEq, Repr

structure CGSize (K : Type) where
  width : K
  height : K
deriving DecidableEq, Repr

structure CGRect (K : Type) where
  origin : CGPoint K
  size : CGSize K
deriving DecidableEq, Repr

/-- A region Vision found. -/
structure VNFaceLandmarkRegion2D (K : Type) where
  normalizedPoints : List (CGPoint K)
deriving DecidableEq, Repr

/-- The regions of a face, each of which may be missing. -/
structure VNFaceLandmarks2D (K : Type) where
  faceContour : Option (VNFaceLandmarkRegion2D K)
  leftEye : Option (VNFaceLandmarkRegion2D K)
  rightEye : Option (VNFaceLandmarkRegion2D K)
  nose : Option (VNFaceLandmarkRegion2D K)
  innerLips : Option (VNFaceLandmarkRegion2D K)
  leftEyebrow : Option (VNFaceLandmarkRegion2D K)
  rightEyebrow : Option (VNFaceLandmarkRegion2D K)
  noseCrest : Option (VNFaceLandmarkRegion2D K)
  outerLips : Option (VNFaceLandmarkRegion2D K)
deriving DecidableEq, Repr

structure VNFaceObservation (K : Type) where
  boundingBox : CGRect K
  landmarks : Option (VNFaceLandmarks2D K)
deriving DecidableEq, Repr

/-- The five numbers of `tempArray`, in its order. -/
structure EmotionInput (K : Type) where
  leftEye : K
  rightEye : K
  outerLip : K
  leftEyeBrow : K
  rightEyeBrow : K
deriving DecidableEq, Repr

variable {K : Type}

/-- `observation.landmarks?.region` -/
def VNFaceObservation.region (f : VNFaceLandmarks2D K → Option (VNFaceLandmarkRegion2D K))
    (observation : VNFaceObservation K) : Option (VNFaceLandmarkRegion2D K) :=
  observation.landmarks.bind f

def CGRect.scaled [Mul K] (r : CGRect K) (size : CGSize K) : CGRect K where
  origin := { x := r.origin.x * size.width, y := r.origin.y * size.height }
  size := { width := r.size.width * size.width, height := r.size.height * size.height }

/-- `CGRect.width`, that of the standardized rectangle. -/
def CGRect.width [Magnitude K] (r : CGRect K) : K := magnitude r.size.width

/-- `CGRect.height`, that of the standardized rectangle. -/
def CGRect.height [Magnitude K] (r : CGRect K) : K := magnitude r.size.height

section Encoder

variable [Add K] [Sub K] [Mul K] [Magnitude K] (io : Printing K)

/-- The place of a normalized point in a box. -/
def place (boundingBox : CGRect K) (point : CGPoint K) : CGPoint K where
  x := point.x * boundingBox.width + boundingBox.origin.x
  y := boundingBox.origin.y + boundingBox.height - (point.y * boundingBox.height)

/-- The text of a point behind its comma: ` x * y`. -/
def fieldText (point : CGPoint K) : Text :=
  ' ' :: (io.description point.x ++ ([' ', '*', ' '] ++ io.description point.y))

def convertPointsForFace (landmark : Option (VNFaceLandmarkRegion2D K)) (boundingBox : CGRect K)
    (thisType : Text) (csvText : Option Text) : Option Text :=
  match landmark with
  | none => csvText
  | some region =>
      let csvLine := region.normalizedPoints.foldl
        (fun csvLine point => csvLine ++ ',' :: fieldText io (place boundingBox point)) thisType
      csvText.map fun text => text ++ (csvLine ++ ['\n'])

/-- The nine conversions of a block, in their order. -/
def convertLandmarks (observation : VNFaceObservation K) (faceBoundingBox : CGRect K)
    (csvText : Option Text) : Option Text :=
  let csvText := convertPointsForFace io (observation.region (·.faceContour)) faceBoundingBox
    "faceContour".toList csvText
  let csvText := convertPointsForFace io (observation.region (·.leftEye)) faceBoundingBox
    "leftEye".toList csvText
  let csvText := convertPointsForFace io (observation.region (·.rightEye)) faceBoundingBox
    "rightEye".toList csvText
  let csvText := convertPointsForFace io (observation.region (·.nose)) faceBoundingBox
    "nose".toList csvText
  let csvText := convertPointsForFace io (observation.region (·.innerLips)) faceBoundingBox
    "lips".toList csvText
  let csvText := convertPointsForFace io (observation.region (·.leftEyebrow)) faceBoundingBox
    "leftEyebrow".toList csvText
  let csvText := convertPointsForFace io (observation.region (·.rightEyebrow)) faceBoundingBox
    "rightEyebrow".toList csvText
  let csvText := convertPointsForFace io (observation.region (·.noseCrest)) faceBoundingBox
    "noseCrest".toList csvText
  convertPointsForFace io (observation.region (·.outerLips)) faceBoundingBox
    "outerLips".toList csvText

end Encoder

section Decoder

variable [Add K] [Sub K] [Div K] [OfNat K 2] [Magnitude K] (io : Printing K)

/-- `Double(text.trimmingCharacters(in: .whitespaces).components(separatedBy: " * ")[part])` -/
def number (text : Text) (part : Nat) : Except Trap (Option K) := do
  let piece ← element (components [' ', '*', ' '] (trim isWhitespace text)) part
  return io.double piece

def shape (start ending middleTop middleBottom : Text) : Except Trap K := do
  let startY ← number io start 1
  let endY ← number io ending 1
  let bothEndY := ((← unwrap startY) + (← unwrap endY)) / 2
  let middleBottomY ← number io middleBottom 1
  let middleTopY ← number io middleTop 1
  let middleBottomY ← unwrap middleBottomY
  let middleTopY ← unwrap middleTopY
  return magnitude (bothEndY - middleBottomY) / magnitude (middleTopY - middleBottomY)

def eyebrowShape (middle ending : Text) : Except Trap K := do
  let middleX ← number io middle 0
  let middleY ← number io middle 1
  let endX ← number io ending 0
  let endY ← number io ending 1
  let middleY ← unwrap middleY
  let endY ← unwrap endY
  let middleX ← unwrap middleX
  let endX ← unwrap endX
  return magnitude ((middleY - endY) / (middleX - endX))

/-- `String(String(df[line]).split(separator: ",")[i])` -/
def field (df : List Text) (line i : Nat) : Except Trap Text := do
  let text ← element df line
  element (split ',' text) i

/-- A call of `shape` on four fields of a line. -/
def shapeOf (df : List Text) (line start ending middleTop middleBottom : Nat) : Except Trap K := do
  let startText ← field df line start
  let endText ← field df line ending
  let middleTopText ← field df line middleTop
  let middleBottomText ← field df line middleBottom
  shape io startText endText middleTopText middleBottomText

/-- A call of `eyebrowShape` on two fields of a line. -/
def eyebrowShapeOf (df : List Text) (line middle ending : Nat) : Except Trap K := do
  let middleText ← field df line middle
  let endText ← field df line ending
  eyebrowShape io middleText endText

/-- `calculateEmotion` as far as `tempArray`. -/
def emotionInput (emotionText : Text) : Except Trap (EmotionInput K) := do
  let df := components ['\n'] emotionText
  let leftEye ← shapeOf io df 1 1 4 3 5
  let rightEye ← shapeOf io df 2 1 4 3 5
  let outerLip ← shapeOf io df 8 1 8 4 11
  let leftEyeBrow ← eyebrowShapeOf io df 5 3 6
  let rightEyeBrow ← eyebrowShapeOf io df 6 3 6
  return { leftEye, rightEye, outerLip, leftEyeBrow, rightEyeBrow }

end Decoder

/-! ## The reference, without any text -/

section Reference

variable [Add K] [Sub K] [Div K] [OfNat K 2] [Magnitude K]

/-- The openness of an eye or of the lips. -/
def openness (start ending middleTop middleBottom : CGPoint K) : K :=
  magnitude ((start.y + ending.y) / 2 - middleBottom.y) / magnitude (middleTop.y - middleBottom.y)

/-- The steepness of an eyebrow. -/
def steepness (middle ending : CGPoint K) : K :=
  magnitude ((middle.y - ending.y) / (middle.x - ending.x))

/-- The openness of a region from its points by number, each placed by `f`. -/
def regionOpenness (f : CGPoint K → CGPoint K) (region : Option (VNFaceLandmarkRegion2D K))
    (start ending middleTop middleBottom : Nat) : Option K := do
  let points := (← region).normalizedPoints
  let startPoint ← points[start]?
  let endPoint ← points[ending]?
  let topPoint ← points[middleTop]?
  let bottomPoint ← points[middleBottom]?
  return openness (f startPoint) (f endPoint) (f topPoint) (f bottomPoint)

/-- The steepness of a region from its points by number, each placed by `f`. -/
def regionSteepness (f : CGPoint K → CGPoint K) (region : Option (VNFaceLandmarkRegion2D K))
    (middle ending : Nat) : Option K := do
  let points := (← region).normalizedPoints
  let middlePoint ← points[middle]?
  let endPoint ← points[ending]?
  return steepness (f middlePoint) (f endPoint)

/-- The five numbers of a face whose points are placed by `f`; `none` where a
    point they need is missing. -/
def referenceInput (f : CGPoint K → CGPoint K) (observation : VNFaceObservation K) :
    Option (EmotionInput K) := do
  let leftEye ← regionOpenness f (observation.region (·.leftEye)) 0 3 2 4
  let rightEye ← regionOpenness f (observation.region (·.rightEye)) 0 3 2 4
  let outerLip ← regionOpenness f (observation.region (·.outerLips)) 0 7 3 10
  let leftEyeBrow ← regionSteepness f (observation.region (·.leftEyebrow)) 2 5
  let rightEyeBrow ← regionSteepness f (observation.region (·.rightEyebrow)) 2 5
  return { leftEye, rightEye, outerLip, leftEyeBrow, rightEyeBrow }

end Reference

/-- The regions of a face under their labels, in the order of the lines. -/
def regions (observation : VNFaceObservation K) :
    List (Text × Option (VNFaceLandmarkRegion2D K)) :=
  [("faceContour".toList, observation.region (·.faceContour)),
   ("leftEye".toList, observation.region (·.leftEye)),
   ("rightEye".toList, observation.region (·.rightEye)),
   ("nose".toList, observation.region (·.nose)),
   ("lips".toList, observation.region (·.innerLips)),
   ("leftEyebrow".toList, observation.region (·.leftEyebrow)),
   ("rightEyebrow".toList, observation.region (·.rightEyebrow)),
   ("noseCrest".toList, observation.region (·.noseCrest)),
   ("outerLips".toList, observation.region (·.outerLips))]

/-- Vision found all nine regions. -/
def Complete (observation : VNFaceObservation K) : Prop :=
  ∀ p ∈ regions observation, p.2.isSome = true

instance (observation : VNFaceObservation K) : Decidable (Complete observation) :=
  inferInstanceAs (Decidable (∀ p ∈ regions observation, p.2.isSome = true))

/-- The labels contain no separator. -/
theorem regions_labels (observation : VNFaceObservation K) :
    ∀ p ∈ regions observation, ',' ∉ p.1 ∧ '\n' ∉ p.1 ∧ p.1 ≠ [] := by
  intro p hp
  have hlabel : p.1 ∈ (regions observation).map Prod.fst := List.mem_map_of_mem hp
  exact (show ∀ label ∈ ["faceContour".toList, "leftEye".toList, "rightEye".toList,
    "nose".toList, "lips".toList, "leftEyebrow".toList, "rightEyebrow".toList,
    "noseCrest".toList, "outerLips".toList], ',' ∉ label ∧ '\n' ∉ label ∧ label ≠ [] by decide)
    p.1 hlabel

/-! ## What the encoder writes -/

section Encoding

variable [Add K] [Sub K] [Mul K] [Magnitude K] (io : Printing K)

/-- The line of a region, without its end. -/
def csvLine (boundingBox : CGRect K) (thisType : Text) (points : List (CGPoint K)) : Text :=
  thisType ++ (points.map fun p => fieldText io (place boundingBox p)).flatMap fun t => ',' :: t

/-- The lines of a face. -/
def csvLines (boundingBox : CGRect K) (observation : VNFaceObservation K) : List Text :=
  (regions observation).filterMap fun p =>
    p.2.map fun region => csvLine io boundingBox p.1 region.normalizedPoints

theorem foldl_csvLine (boundingBox : CGRect K) (points : List (CGPoint K)) (thisType : Text) :
    points.foldl (fun line point => line ++ ',' :: fieldText io (place boundingBox point)) thisType
      = csvLine io boundingBox thisType points := by
  induction points generalizing thisType with
  | nil => exact (List.append_nil thisType).symm
  | cons p points ih =>
      rw [List.foldl_cons, ih, csvLine, csvLine, List.map_cons, List.flatMap_cons,
        List.append_assoc]

/-- Conversions append the lines of the regions that are there. -/
theorem foldl_convertPointsForFace (boundingBox : CGRect K)
    (l : List (Text × Option (VNFaceLandmarkRegion2D K))) (text : Text) :
    l.foldl (fun csvText p => convertPointsForFace io p.2 boundingBox p.1 csvText) (some text)
      = some (text ++ (l.filterMap fun p => p.2.map fun region =>
          csvLine io boundingBox p.1 region.normalizedPoints).flatMap
            fun line => line ++ ['\n']) := by
  induction l generalizing text with
  | nil => exact congrArg some (List.append_nil text).symm
  | cons p l ih =>
      obtain ⟨thisType, landmark⟩ := p
      rw [List.foldl_cons]
      cases landmark with
      | none => exact ih text
      | some region =>
          have hline : convertPointsForFace io (some region) boundingBox thisType (some text)
              = some (text ++ (csvLine io boundingBox thisType region.normalizedPoints
                  ++ ['\n'])) := by
            rw [← foldl_csvLine]
            rfl
          rw [hline, ih, List.append_assoc]
          rfl

/-- **What a block writes**: one ended line for each region that is there. -/
theorem convertLandmarks_eq (observation : VNFaceObservation K) (boundingBox : CGRect K) :
    convertLandmarks io observation boundingBox (some [])
      = some ((csvLines io boundingBox observation).flatMap fun line => line ++ ['\n']) :=
  foldl_convertPointsForFace io boundingBox (regions observation) []

end Encoding

/-! ## What the decoder reads -/

section FieldText

variable (io : Printing K)

theorem fieldText_separators (point : CGPoint K) :
    ',' ∉ fieldText io point ∧ '\n' ∉ fieldText io point := by
  have hall : ∀ c ∈ fieldText io point, c ≠ ',' ∧ c ≠ '\n' := by
    intro c hc
    rw [fieldText, List.mem_cons, List.mem_append, List.mem_append] at hc
    rcases hc with rfl | hx | hsep | hy
    · decide
    · exact ⟨(io.separators _ c hx).1, (io.separators _ c hx).2.1⟩
    · simp only [List.mem_cons, List.not_mem_nil, or_false] at hsep
      rcases hsep with rfl | rfl | rfl <;> decide
    · exact ⟨(io.separators _ c hy).1, (io.separators _ c hy).2.1⟩
  exact ⟨fun h => (hall _ h).1 rfl, fun h => (hall _ h).2 rfl⟩

theorem description_blank (x : K) : ' ' ∉ io.description x := by
  intro h
  exact absurd (io.separators x ' ' h).2.2 (by decide)

/-- Trimming a field leaves the two numbers and their separator. -/
theorem trim_fieldText (point : CGPoint K) :
    trim isWhitespace (fieldText io point)
      = io.description point.x ++ ([' ', '*', ' '] ++ io.description point.y) := by
  refine trim_padded (by decide) ?_ ?_
  · intro c hc
    rw [List.head?_append_of_ne_nil _ (io.description_ne_nil point.x)] at hc
    exact (io.separators point.x c (List.mem_of_head? hc)).2.2
  · intro c hc
    rw [List.getLast?_append_of_ne_nil _ (by simp),
      List.getLast?_append_of_ne_nil _ (io.description_ne_nil point.y)] at hc
    exact (io.separators point.y c (List.mem_of_getLast? hc)).2.2

/-- **A field reads back**: its two parts are the two coordinates. -/
theorem number_fieldText (point : CGPoint K) :
    number io (fieldText io point) 0 = .ok (some point.x) ∧
      number io (fieldText io point) 1 = .ok (some point.y) := by
  have hparts : components [' ', '*', ' '] (trim isWhitespace (fieldText io point))
      = [io.description point.x, io.description point.y] := by
    rw [trim_fieldText, components_append (description_blank io point.x),
      components_segment (description_blank io point.y)]
  constructor
  · rw [number, hparts]
    exact congrArg Except.ok (io.double_description point.x)
  · rw [number, hparts]
    exact congrArg Except.ok (io.double_description point.y)

end FieldText

section Numbers

variable [Add K] [Sub K] [Div K] [OfNat K 2] [Magnitude K] (io : Printing K)

theorem shape_fieldText (start ending middleTop middleBottom : CGPoint K) :
    shape io (fieldText io start) (fieldText io ending) (fieldText io middleTop)
        (fieldText io middleBottom)
      = .ok (openness start ending middleTop middleBottom) := by
  rw [shape, (number_fieldText io start).2, (number_fieldText io ending).2,
    (number_fieldText io middleBottom).2, (number_fieldText io middleTop).2]
  rfl

omit [Add K] [OfNat K 2] in
theorem eyebrowShape_fieldText (middle ending : CGPoint K) :
    eyebrowShape io (fieldText io middle) (fieldText io ending)
      = .ok (steepness middle ending) := by
  rw [eyebrowShape, (number_fieldText io middle).1, (number_fieldText io middle).2,
    (number_fieldText io ending).1, (number_fieldText io ending).2]
  rfl

end Numbers

section Lines

variable [Add K] [Sub K] [Mul K] [Magnitude K] {io : Printing K} {boundingBox : CGRect K}
  {observation : VNFaceObservation K}

/-- Field `i + 1` of the line of a region is its point `i`. -/
theorem field_csvLine {df : List Text} {line : Nat} {thisType : Text}
    {points : List (CGPoint K)} (hline : df[line]? = some (csvLine io boundingBox thisType points))
    (hlabel : ',' ∉ thisType ∧ thisType ≠ []) (i : Nat) :
    field df line (i + 1)
      = match points[i]? with
        | some p => .ok (fieldText io (place boundingBox p))
        | none => .error .indexOutOfRange := by
  have hsplit : split ',' (csvLine io boundingBox thisType points)
      = thisType :: points.map fun p => fieldText io (place boundingBox p) := by
    refine split_joined hlabel.1 hlabel.2 ?_
    intro piece hpiece
    obtain ⟨p, -, rfl⟩ := List.mem_map.mp hpiece
    exact ⟨(fieldText_separators io _).1, List.cons_ne_nil _ _⟩
  rw [field, element_some hline]
  show element (split ',' (csvLine io boundingBox thisType points)) (i + 1) = _
  rw [hsplit, element, List.getElem?_cons_succ, List.getElem?_map]
  cases points[i]? with
  | none => rfl
  | some p => rfl

/-- Splitting the text of a face into lines gives its lines, and an empty one
    behind the last. -/
theorem components_csvLines (io : Printing K) (boundingBox : CGRect K)
    (observation : VNFaceObservation K) :
    components ['\n'] ((csvLines io boundingBox observation).flatMap fun line => line ++ ['\n'])
      = csvLines io boundingBox observation ++ [[]] := by
  refine components_terminated ?_
  intro line hline
  obtain ⟨p, hp, hp'⟩ := List.mem_filterMap.mp hline
  obtain ⟨region, -, rfl⟩ := Option.map_eq_some_iff.mp hp'
  rw [csvLine, List.mem_append, not_or]
  refine ⟨(regions_labels observation p hp).2.1, ?_⟩
  intro hmem
  obtain ⟨piece, hpiece, hc⟩ := List.mem_flatMap.mp hmem
  obtain ⟨point, -, rfl⟩ := List.mem_map.mp hpiece
  rcases List.mem_cons.mp hc with hcomma | hfield
  · exact absurd hcomma (by decide)
  · exact (fieldText_separators io _).2 hfield

end Lines

end Mac3amLandmarks
