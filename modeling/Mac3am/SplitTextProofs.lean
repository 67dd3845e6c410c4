import Mathlib.Data.List.DropRight

/-! # Splitting and trimming texts

    The text operations of Foundation and of the standard library that a
    decoder of delimited text uses, on lists of characters of any kind:

    * `components` — all pieces between the occurrences of a separator text,
      searched from the left without overlaps;
    * `split` — the non-empty pieces between the occurrences of one character;
    * `trim` — a text without the characters of a kind at its two ends.

    What a writer joined, they take apart again, as long as no piece contains
    the first character of the separator: `components_terminated`,
    `components_joined`, `split_joined`, `trim_padded`. -/

namespace SplitText

variable {α : Type}

/-- `trimmingCharacters(in:)` -/
def trim (p : α → Bool) (text : List α) : List α := (text.dropWhile p).rdropWhile p

/-- One padding character in front of a text whose ends are not of the kind is
    trimmed away, and nothing else. -/
theorem trim_padded {p : α → Bool} {w : α} {text : List α} (hw : p w = true)
    (hhead : ∀ c ∈ text.head?, p c = false) (hlast : ∀ c ∈ text.getLast?, p c = false) :
    trim p (w :: text) = text := by
  have hdrop : (w :: text).dropWhile p = text := by
    rw [List.dropWhile_cons_of_pos hw]
    cases text with
    | nil => rfl
    | cons c rest =>
        exact List.dropWhile_cons_of_neg (by rw [hhead c rfl]; exact Bool.false_ne_true)
  rw [trim, hdrop, List.rdropWhile_eq_self_iff]
  intro hne
  rw [hlast _ (List.getLast?_eq_some_getLast hne)]
  exact Bool.false_ne_true

variable [DecidableEq α]

/-- The scan behind `components`: `skip` characters of a separator that was
    found are still to be passed over, `piece` is the piece read so far. -/
def scanComponents (separator : List α) : List α → Nat → List α → List (List α)
  | [], _, piece => [piece]
  | _ :: rest, skip + 1, piece => scanComponents separator rest skip piece
  | c :: rest, 0, piece =>
      if separator <+: c :: rest then
        piece :: scanComponents separator rest (separator.length - 1) []
      else scanComponents separator rest 0 (piece ++ [c])

/-- `components(separatedBy:)` -/
def components (separator text : List α) : List (List α) := scanComponents separator text 0 []

/-- `split(separator:)`, which omits empty pieces. -/
def split (separator : α) (text : List α) : List (List α) :=
  (text.splitOn separator).filter fun piece => piece ≠ []

section Components

variable {s : α} {separator : List α}

/-- A separator that was found is passed over. -/
theorem scanComponents_skip (text passed piece : List α) :
    scanComponents separator (passed ++ text) passed.length piece
      = scanComponents separator text 0 piece := by
  induction passed with
  | nil => rfl
  | cons c passed ih => exact ih

/-- A text without the separator's first character goes into the piece. -/
theorem scanComponents_segment {segment : List α} (hs : s ∉ segment) (text piece : List α) :
    scanComponents (s :: separator) (segment ++ text) 0 piece
      = scanComponents (s :: separator) text 0 (piece ++ segment) := by
  induction segment generalizing piece with
  | nil => rw [List.nil_append, List.append_nil]
  | cons c segment ih =>
      rw [List.mem_cons, not_or] at hs
      -- no separator starts inside the segment
      have hno : ¬ s :: separator <+: c :: (segment ++ text) := by
        intro hprefix
        exact hs.1 (List.cons_prefix_cons.mp hprefix).1
      rw [List.cons_append, scanComponents, if_neg hno, ih hs.2, List.append_assoc]
      rfl

/-- The piece before a separator, and the pieces after it. -/
theorem components_append {segment : List α} (hs : s ∉ segment) (text : List α) :
    components (s :: separator) (segment ++ (s :: separator ++ text))
      = segment :: components (s :: separator) text := by
  rw [components, scanComponents_segment hs, List.nil_append, List.cons_append, scanComponents,
    if_pos (show s :: separator <+: s :: (separator ++ text) from List.prefix_append _ text)]
  exact congrArg (segment :: ·) (scanComponents_skip text separator [])

/-- A text without the separator is one piece. -/
theorem components_segment {segment : List α} (hs : s ∉ segment) :
    components (s :: separator) segment = [segment] := by
  have hscan : scanComponents (s :: separator) (segment ++ []) 0 []
      = scanComponents (s :: separator) [] 0 ([] ++ segment) := scanComponents_segment hs [] []
  rw [List.append_nil] at hscan
  exact hscan

/-- Pieces that were each ended with a separator come back, with an empty piece
    behind the last one. -/
theorem components_terminated {lines : List (List α)} (hs : ∀ line ∈ lines, s ∉ line) :
    components (s :: separator) (lines.flatMap fun line => line ++ s :: separator)
      = lines ++ [[]] := by
  induction lines with
  | nil => rfl
  | cons line lines ih =>
      rw [List.flatMap_cons, List.append_assoc,
        components_append (hs line List.mem_cons_self),
        ih fun l hl => hs l (List.mem_cons_of_mem _ hl)]
      rfl

end Components

/-- Non-empty pieces that were joined by a character come back. -/
theorem split_joined {s : α} {first : List α} {rest : List (List α)}
    (hfirst : s ∉ first) (hne : first ≠ []) (hrest : ∀ piece ∈ rest, s ∉ piece ∧ piece ≠ []) :
    split s (first ++ rest.flatMap fun piece => s :: piece) = first :: rest := by
  have hsplit : (first ++ rest.flatMap fun piece => s :: piece).splitOn s = first :: rest := by
    clear hne
    induction rest generalizing first with
    | nil =>
        rw [List.flatMap_nil, List.append_nil, List.splitOn_eq_singleton hfirst]
    | cons piece rest ih =>
        have hp := hrest piece List.mem_cons_self
        rw [List.flatMap_cons, List.cons_append, List.splitOn_append_cons_self_of_not_mem hfirst,
          ih hp.1 fun p hp => hrest p (List.mem_cons_of_mem _ hp)]
  rw [split, hsplit]
  refine List.filter_eq_self.mpr ?_
  intro piece hpiece
  rcases List.mem_cons.mp hpiece with rfl | hmem
  · exact decide_eq_true hne
  · exact decide_eq_true (hrest piece hmem).2

end SplitText
