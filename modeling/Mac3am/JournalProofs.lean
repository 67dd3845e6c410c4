import Mathlib.Data.List.Induction

/-! # Updates and the saves between them

    A program updates a state in memory and saves it from time to time.  When
    it dies, what it made since its last save is gone: of the updates of its
    journal the `durable` ones remain, a first part of all `updates`. -/

namespace Journal

variable {α : Type}

/-- An entry of the journal of one life of a program. -/
inductive Entry (α : Type) where
  /-- an update, with a save behind it that works or not -/
  | update (a : α) (saved : Bool)
  /-- a save of its own that works -/
  | save
deriving DecidableEq, Repr

/-- The entry ends with a save that works. -/
def Entry.saves : Entry α → Bool
  | .update _ saved => saved
  | .save => true

/-- The update an entry makes. -/
def Entry.made : Entry α → Option α
  | .update a _ => some a
  | .save => none

/-- The updates of a journal. -/
def updates (l : List (Entry α)) : List α := l.filterMap Entry.made

/-- The updates of a journal up to its last save. -/
def durable (l : List (Entry α)) : List α :=
  updates (l.reverse.dropWhile fun e => !e.saves).reverse

variable {l : List (Entry α)} {e : Entry α}

theorem updates_snoc : updates (l ++ [e]) = updates l ++ e.made.toList := by
  rw [updates, updates, List.filterMap_append]
  cases e with
  | update a saved => rfl
  | save => rfl

/-- A save makes all updates durable. -/
theorem durable_snoc_saves (h : e.saves = true) : durable (l ++ [e]) = updates (l ++ [e]) := by
  rw [durable, List.reverse_append, List.reverse_singleton, List.singleton_append,
    List.dropWhile_cons, h]
  show updates (e :: l.reverse).reverse = _
  rw [List.reverse_cons, List.reverse_reverse]

/-- An entry without a save makes none durable. -/
theorem durable_snoc_pending (h : e.saves = false) : durable (l ++ [e]) = durable l := by
  rw [durable, List.reverse_append, List.reverse_singleton, List.singleton_append,
    List.dropWhile_cons, h]
  rfl

/-- What is durable is a first part of what was made. -/
theorem durable_initial (l : List (Entry α)) : durable l <+: updates l := by
  refine List.IsPrefix.filterMap _ ?_
  have hsuffix := List.dropWhile_suffix (l := l.reverse) fun e => !e.saves
  rw [← List.reverse_reverse l]
  exact List.reverse_prefix.mpr (by rw [List.reverse_reverse]; exact hsuffix)

/-- Where every entry saves, every update is durable. -/
theorem durable_of_saves (h : ∀ e ∈ l, e.saves = true) : durable l = updates l := by
  cases l using List.reverseRecOn with
  | nil => rfl
  | append_singleton l e => exact durable_snoc_saves (h e (by simp))

end Journal
