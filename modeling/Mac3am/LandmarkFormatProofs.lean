import Mac3am.KeyedTableProofs
import Mac3am.LandmarkReadingProofs

/-! # The landmark text as a format

    The decoder reads ten of its lines' fields.  All the others can be read
    back too: the text of a face says which regions Vision found and where it
    placed each of their points.

    * `map_split_csvLines` — splitting its lines gives the placed regions back;
    * `csvText_eq_iff` — two faces in two boxes are written alike exactly when
      they have the same regions, with the same points at the same places. -/

namespace Mac3amLandmarks

open Swift SplitText KeyedTable

variable {K : Type}

/-- A line about points that are placed already. -/
def lineText (io : Printing K) (thisType : Text) (points : List (CGPoint K)) : Text :=
  thisType ++ (points.map (fieldText io)).flatMap fun t => ',' :: t

/-- A field says where its point is. -/
theorem fieldText_injective (io : Printing K) : Function.Injective (fieldText io) := by
  intro p q h
  obtain ⟨hx, hy⟩ := number_fieldText io p
  obtain ⟨hx', hy'⟩ := number_fieldText io q
  rw [h] at hx hy
  have hxx : p.x = q.x := Option.some.inj (Except.ok.inj (hx.symm.trans hx'))
  have hyy : p.y = q.y := Option.some.inj (Except.ok.inj (hy.symm.trans hy'))
  cases p
  cases q
  cases hxx
  cases hyy
  rfl

theorem split_lineText (io : Printing K) {thisType : Text}
    (hlabel : ',' ∉ thisType ∧ thisType ≠ []) (points : List (CGPoint K)) :
    split ',' (lineText io thisType points) = thisType :: points.map (fieldText io) := by
  refine split_joined hlabel.1 hlabel.2 ?_
  intro piece hpiece
  obtain ⟨p, -, rfl⟩ := List.mem_map.mp hpiece
  exact ⟨(fieldText_separators io p).1, List.cons_ne_nil _ _⟩

section Faces

variable [Add K] [Sub K] [Mul K] [Magnitude K]

/-- The regions of a face under their labels, their points placed in a box. -/
def placedRegions (boundingBox : CGRect K) (observation : VNFaceObservation K) :
    List (Text × Option (List (CGPoint K))) :=
  (regions observation).map fun p =>
    (p.1, p.2.map fun region => region.normalizedPoints.map (place boundingBox))

theorem placedRegions_labels (boundingBox : CGRect K) (observation : VNFaceObservation K) :
    (placedRegions boundingBox observation).map Prod.fst
      = (regions observation).map Prod.fst := by
  rw [placedRegions, List.map_map]
  rfl

/-- The lines of a face are those of its placed regions. -/
theorem csvLines_placed (io : Printing K) (boundingBox : CGRect K)
    (observation : VNFaceObservation K) :
    csvLines io boundingBox observation
      = (entries (placedRegions boundingBox observation)).map
          fun p => lineText io p.1 p.2 := by
  rw [csvLines, entries, placedRegions, List.filterMap_map, List.map_filterMap]
  refine List.filterMap_congr ?_
  rintro ⟨thisType, region⟩ -
  cases region with
  | none => rfl
  | some region =>
      have hline : csvLine io boundingBox thisType region.normalizedPoints
          = lineText io thisType (region.normalizedPoints.map (place boundingBox)) := by
        rw [csvLine, lineText, List.map_map]
        rfl
      exact congrArg some hline

/-- Splitting the lines of a face gives its placed regions. -/
theorem map_split_csvLines (io : Printing K) (boundingBox : CGRect K)
    (observation : VNFaceObservation K) :
    (csvLines io boundingBox observation).map (split ',')
      = (entries (placedRegions boundingBox observation)).map
          fun p => p.1 :: p.2.map (fieldText io) := by
  rw [csvLines_placed, List.map_map]
  refine List.map_congr_left ?_
  intro p hp
  have hlabel : p.1 ∈ (regions observation).map Prod.fst :=
    placedRegions_labels boundingBox observation ▸ mem_keys_of_entries hp
  obtain ⟨q, hq, hlabel⟩ := List.mem_map.mp hlabel
  obtain ⟨hcomma, -, hne⟩ := regions_labels observation q hq
  exact split_lineText io (hlabel ▸ ⟨hcomma, hne⟩) p.2

/-- **The text is unambiguous**: two faces in two boxes are written alike
    exactly when the same regions were found in both, with the same points at
    the same places. -/
theorem csvText_eq_iff (io : Printing K) (observation observation' : VNFaceObservation K)
    (boundingBox boundingBox' : CGRect K) :
    convertLandmarks io observation boundingBox (some [])
        = convertLandmarks io observation' boundingBox' (some []) ↔
      placedRegions boundingBox observation = placedRegions boundingBox' observation' := by
  rw [convertLandmarks_eq, convertLandmarks_eq, Option.some.injEq]
  constructor
  · intro h
    have hlines := congrArg (components ['\n']) h
    rw [components_csvLines, components_csvLines] at hlines
    have hsplit := congrArg (List.map (split ',')) (List.append_cancel_right hlines)
    rw [map_split_csvLines, map_split_csvLines] at hsplit
    have hinjective : Function.Injective fun p : Text × List (CGPoint K) =>
        p.1 :: p.2.map (fieldText io) := by
      rintro ⟨thisType, points⟩ ⟨thisType', points'⟩ heq
      obtain ⟨htype, hfields⟩ := List.cons.inj heq
      exact Prod.ext htype ((fieldText_injective io).list_map hfields)
    refine entries_injective ?_ ?_ (hinjective.list_map hsplit)
    · rw [placedRegions_labels, placedRegions_labels]
      rfl
    · rw [placedRegions_labels]
      exact (by decide : ["faceContour".toList, "leftEye".toList, "rightEye".toList,
        "nose".toList, "lips".toList, "leftEyebrow".toList, "rightEyebrow".toList,
        "noseCrest".toList, "outerLips".toList].Nodup)
  · intro h
    rw [csvLines_placed, csvLines_placed, h]

end Faces

end Mac3amLandmarks
