import Mathlib.Data.List.Basic

/-! # What Swift traps on

    The ways a statement of the player ends the process, and array subscripts,
    which are the first of them. -/

namespace Swift

variable {α : Type}

/-- Why the process ends. -/
inductive Trap where
  /-- `list[i]` with `i` outside `0 ..< list.count` -/
  | indexOutOfRange
  /-- `x as! T` on a value that is not a `T` -/
  | castFailed
  /-- `x!`, or the use of an implicitly unwrapped `x`, on `nil` -/
  | unwrappedNil
  /-- `fatalError(_:)` -/
  | fatalError
  /-- calls nested deeper than the stack holds -/
  | stackOverflow
deriving DecidableEq, Repr

/-- `list[i]`, where `none` is the trap. -/
def subscript (list : List α) (i : Int) : Option α :=
  if 0 ≤ i then list[i.toNat]? else none

theorem subscript_of_neg {list : List α} {i : Int} (h : i < 0) : subscript list i = none :=
  if_neg (by omega)

/-- A subscript with a natural number. -/
theorem subscript_natCast (list : List α) (n : Nat) : subscript list n = list[n]? := by
  rw [subscript, if_pos (by omega), Int.toNat_natCast]

/-- A subscript is evaluated without a trap exactly inside the bounds. -/
theorem subscript_isSome {list : List α} {i : Int} :
    (∃ a, subscript list i = some a) ↔ 0 ≤ i ∧ i < list.length := by
  by_cases hi : 0 ≤ i
  · obtain ⟨n, rfl⟩ := Int.eq_ofNat_of_zero_le hi
    rw [subscript_natCast]
    constructor
    · rintro ⟨a, ha⟩
      obtain ⟨hn, -⟩ := List.getElem?_eq_some_iff.mp ha
      exact ⟨hi, by omega⟩
    · rintro ⟨-, hn⟩
      have hlt : n < list.length := by omega
      exact ⟨list[n], List.getElem?_eq_getElem hlt⟩
  · rw [subscript_of_neg (by omega)]
    constructor
    · rintro ⟨a, ha⟩; cases ha
    · intro h; exact absurd h.1 hi

theorem subscript_eq_none {list : List α} {i : Int} :
    subscript list i = none ↔ ¬ (0 ≤ i ∧ i < list.length) := by
  rw [← subscript_isSome]
  cases subscript list i with
  | none => simp
  | some a => simp

theorem subscript_mem {list : List α} {i : Int} {a : α} (h : subscript list i = some a) :
    a ∈ list := by
  rw [subscript] at h
  by_cases hi : 0 ≤ i
  · rw [if_pos hi] at h
    exact List.mem_of_getElem? h
  · rw [if_neg hi] at h
    cases h

/-- `list[i]` in a function that is stopped by a trap. -/
def element (list : List α) (i : Nat) : Except Trap α :=
  match list[i]? with
  | some a => .ok a
  | none => .error .indexOutOfRange

/-- `x!` in a function that is stopped by a trap. -/
def unwrap : Option α → Except Trap α
  | some a => .ok a
  | none => .error .unwrappedNil

theorem element_some {list : List α} {i : Nat} {a : α} (h : list[i]? = some a) :
    element list i = .ok a := by
  rw [element, h]

theorem element_none {list : List α} {i : Nat} (h : list[i]? = none) :
    element list i = .error .indexOutOfRange := by
  rw [element, h]

end Swift
