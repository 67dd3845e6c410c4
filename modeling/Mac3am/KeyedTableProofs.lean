import Mathlib.Algebra.BigOperators.Group.List.Basic
import Mathlib.Data.List.Nodup
import Mathlib.Data.List.Perm.Basic
import Mathlib.Logic.Function.Basic
import Mathlib.Tactic.Abel

/-! # Unordered lists of records as maps from keys

    A table whose records are found by scanning all of them: the list comes in
    any order, and the loop keeps the last record whose key matches.  While no
    two records share a key the list means a partial map (`table`), the loop
    finds what the map holds whatever the order (`lastMatch_eq_table`), and
    appending a record or changing one in place is `Function.update` on the map.
    Where records do share keys, `total` still adds up their values. -/

namespace KeyedTable

variable {R κ : Type} (key : R → κ)

/-- No two records of the list share a key. -/
def Unique (l : List R) : Prop := (l.map key).Nodup

section Keys

variable {key} {l l' : List R} {r : R}

theorem unique_cons {x : R} {xs : List R} :
    Unique key (x :: xs) ↔ key x ∉ xs.map key ∧ Unique key xs := by
  rw [Unique, List.map_cons, List.nodup_cons]
  rfl

theorem Unique.perm (hu : Unique key l) (hp : l'.Perm l) : Unique key l' :=
  ((hp.map key).nodup_iff).mpr hu

/-- Appending a record with a new key keeps the keys unique. -/
theorem unique_append (hu : Unique key l) (hr : key r ∉ l.map key) :
    Unique key (l ++ [r]) := by
  rw [Unique, List.map_append, List.map_singleton]
  exact List.Nodup.append hu (List.nodup_singleton _) (List.disjoint_singleton.mpr hr)

/-- Changing a record in place without touching its key keeps the list of
    keys. -/
theorem map_key_modify {i : Nat} {f : R → R} (hf : ∀ r, l[i]? = some r → key (f r) = key r) :
    (l.modify i f).map key = l.map key := by
  induction l generalizing i with
  | nil => rw [List.modify_nil]
  | cons x xs ih =>
      cases i with
      | zero => rw [List.modify_zero_cons, List.map_cons, List.map_cons, hf x rfl]
      | succ i =>
          rw [List.modify_succ_cons, List.map_cons, List.map_cons, ih]
          intro r hr
          exact hf r hr

theorem unique_modify {i : Nat} {f : R → R} (hu : Unique key l)
    (hf : ∀ r, l[i]? = some r → key (f r) = key r) : Unique key (l.modify i f) := by
  rw [Unique, map_key_modify hf]
  exact hu

theorem unique_zipIdx {n : Nat} :
    Unique (fun p : R × Nat => key p.1) (l.zipIdx n) ↔ Unique key l := by
  have hkeys : (l.zipIdx n).map (fun p => key p.1) = l.map key := by
    rw [show (fun p : R × Nat => key p.1) = key ∘ Prod.fst from rfl, ← List.map_map,
      List.zipIdx_map_fst]
  rw [Unique, Unique, hkeys]

end Keys

/-! ## Optional values under fixed keys -/

/-- The values that are there, with their keys. -/
def entries {α : Type} (l : List (κ × Option α)) : List (κ × α) :=
  l.filterMap fun p => p.2.map fun a => (p.1, a)

theorem mem_keys_of_entries {α : Type} {l : List (κ × Option α)} {p : κ × α}
    (h : p ∈ entries l) : p.1 ∈ l.map Prod.fst := by
  obtain ⟨q, hq, hp⟩ := List.mem_filterMap.mp h
  obtain ⟨a, -, rfl⟩ := Option.map_eq_some_iff.mp hp
  exact List.mem_map_of_mem hq

/-- Under fixed keys, none of them twice, the values that are there say which
    ones are missing. -/
theorem entries_injective {α : Type} {l l' : List (κ × Option α)}
    (hkeys : l.map Prod.fst = l'.map Prod.fst) (hnodup : (l.map Prod.fst).Nodup)
    (h : entries l = entries l') : l = l' := by
  induction l generalizing l' with
  | nil => exact (List.map_eq_nil_iff.mp hkeys.symm).symm
  | cons p l ih =>
      obtain ⟨k, value⟩ := p
      cases l' with
      | nil => cases hkeys
      | cons p' l' =>
          obtain ⟨k', value'⟩ := p'
          obtain ⟨rfl, hrest⟩ : k = k' ∧ l.map Prod.fst = l'.map Prod.fst := List.cons.inj hkeys
          obtain ⟨hk, hrestnodup⟩ := List.nodup_cons.mp hnodup
          -- a value under `k` stands only at the head of either list
          have hnone : ∀ a, (k, a) ∉ entries l := fun a hmem => hk (mem_keys_of_entries hmem)
          have hnone' : ∀ a, (k, a) ∉ entries l' :=
            fun a hmem => hk (hrest ▸ mem_keys_of_entries hmem)
          cases value with
          | none =>
              cases value' with
              | none => rw [ih hrest hrestnodup h]
              | some a' => exact absurd ((show entries l = (k, a') :: _ from h) ▸
                  List.mem_cons_self) (hnone a')
          | some a =>
              cases value' with
              | none => exact absurd ((show (k, a) :: _ = entries l' from h) ▸
                  List.mem_cons_self) (hnone' a)
              | some a' =>
                  obtain ⟨hhead, htail⟩ := List.cons.inj
                    (show (k, a) :: entries l = (k, a') :: entries l' from h)
                  rw [ih hrest hrestnodup htail, (Prod.mk.inj hhead).2]

/-! ## The map a list of records stands for -/

variable [DecidableEq κ]

instance (l : List R) : Decidable (Unique key l) :=
  inferInstanceAs (Decidable (l.map key).Nodup)

/-- The partial map a list of records stands for. -/
def table (l : List R) (k : κ) : Option R := l.find? fun r => key r = k

/-- The loop that looks at every record and keeps the last match. -/
def lastMatch (k : κ) (l : List R) : Option R :=
  l.foldl (fun found r => if key r = k then some r else found) none

variable {key} {l l' : List R} {k : κ} {r : R}

theorem table_nil : table key ([] : List R) k = none := rfl

theorem table_cons (x : R) (xs : List R) :
    table key (x :: xs) k = if key x = k then some x else table key xs k := by
  by_cases hx : key x = k <;> simp [table, hx]

theorem table_eq_none : table key l k = none ↔ k ∉ l.map key := by
  induction l with
  | nil => simp [table_nil]
  | cons x xs ih =>
      rw [table_cons, List.map_cons, List.mem_cons, not_or]
      by_cases hx : key x = k
      · rw [if_pos hx]
        exact iff_of_false (by simp) (fun h => h.1 hx.symm)
      · rw [if_neg hx, ih]
        exact ⟨fun h => ⟨fun h' => hx h'.symm, h⟩, fun h => h.2⟩

/-- What the map holds under a key is a record of the list with that key. -/
theorem mem_of_table (h : table key l k = some r) : r ∈ l ∧ key r = k := by
  have hk : decide (key r = k) = true := List.find?_some (p := fun r' => decide (key r' = k)) h
  exact ⟨List.mem_of_find?_eq_some h, of_decide_eq_true hk⟩

/-- The records under a key are what the map holds there: none or one. -/
theorem filter_eq_table (hu : Unique key l) :
    l.filter (fun r => key r = k) = (table key l k).toList := by
  induction l with
  | nil => rfl
  | cons x xs ih =>
      obtain ⟨hx, hxs⟩ := unique_cons.mp hu
      rw [table_cons]
      by_cases hk : key x = k
      · have hnone : table key xs k = none := table_eq_none.mpr (hk ▸ hx)
        rw [if_pos hk, List.filter_cons_of_pos (by simpa using hk), ih hxs, hnone]
        rfl
      · rw [if_neg hk, List.filter_cons_of_neg (by simpa using hk), ih hxs]

/-- Reordering a list does not change the map it stands for. -/
theorem table_perm (hu : Unique key l) (hp : l'.Perm l) : table key l' k = table key l k := by
  have hfilter : (table key l' k).toList.Perm (table key l k).toList := by
    rw [← filter_eq_table (hu.perm hp), ← filter_eq_table hu]
    exact hp.filter _
  cases h : table key l k with
  | none =>
      rw [h] at hfilter
      exact Option.toList_eq_nil_iff.mp hfilter.eq_nil
  | some r =>
      rw [h] at hfilter
      have hsingle : (table key l' k).toList = [r] := hfilter.eq_singleton
      cases h' : table key l' k with
      | none =>
          rw [h'] at hsingle
          cases hsingle
      | some r' =>
          rw [h'] at hsingle
          exact congrArg some (List.cons.inj hsingle).1

/-- The scanning loop from any value found so far. -/
theorem foldl_lastMatch (found : Option R) :
    l.foldl (fun found r => if key r = k then some r else found) found
      = ((l.filter fun r => key r = k).getLast?).or found := by
  induction l generalizing found with
  | nil => rfl
  | cons x xs ih =>
      rw [List.foldl_cons, ih]
      by_cases hk : key x = k
      · rw [if_pos hk, List.filter_cons_of_pos (by simpa using hk), List.getLast?_cons]
        cases (xs.filter fun r => key r = k).getLast? <;> rfl
      · rw [if_neg hk, List.filter_cons_of_neg (by simpa using hk)]

/-- **The scan finds the only match**, in whatever order the records come. -/
theorem lastMatch_eq_table (hu : Unique key l) (hp : l'.Perm l) :
    lastMatch key k l' = table key l k := by
  rw [lastMatch, foldl_lastMatch, filter_eq_table (hu.perm hp), table_perm hu hp]
  cases table key l k <;> rfl

/-- Numbering the records does not change the map they stand for. -/
theorem table_zipIdx (n : Nat) :
    (table (fun p : R × Nat => key p.1) (l.zipIdx n) k).map Prod.fst = table key l k := by
  induction l generalizing n with
  | nil => rfl
  | cons x xs ih =>
      rw [List.zipIdx_cons, table_cons, table_cons]
      by_cases hx : key x = k
      · rw [if_pos hx, if_pos hx]
        rfl
      · rw [if_neg hx, if_neg hx]
        exact ih (n + 1)

/-! ## Writing to the list -/

/-- Appending a record with a new key is an update of the map. -/
theorem table_append (hr : key r ∉ l.map key) :
    table key (l ++ [r]) = Function.update (table key l) (key r) (some r) := by
  funext k
  by_cases hk : k = key r
  · have hnone : l.find? (fun r' => key r' = k) = none := table_eq_none.mpr (hk ▸ hr)
    rw [table, List.find?_append, hnone, Option.none_or, hk, Function.update_self]
    simp
  · rw [Function.update_of_ne hk, table, List.find?_append]
    have hlast : [r].find? (fun r' => key r' = k) = none := by
      simpa using fun h => hk h.symm
    rw [hlast, Option.or_none]
    rfl

theorem table_append_self (hr : key r ∉ l.map key) :
    table key (l ++ [r]) (key r) = some r := by
  rw [table_append hr, Function.update_self]

/-- Changing a record in place without touching its key is an update of the
    map. -/
theorem table_modify {i : Nat} {f : R → R} (hu : Unique key l) (hi : l[i]? = some r)
    (hf : key (f r) = key r) :
    table key (l.modify i f) = Function.update (table key l) (key r) (some (f r)) := by
  induction l generalizing i with
  | nil => cases hi
  | cons x xs ih =>
      obtain ⟨hx, hxs⟩ := unique_cons.mp hu
      funext k
      cases i with
      | zero =>
          rw [List.getElem?_cons_zero, Option.some.injEq] at hi
          subst hi
          rw [List.modify_zero_cons, table_cons, hf]
          by_cases hk : k = key x
          · rw [if_pos hk.symm, hk, Function.update_self]
          · rw [if_neg fun h => hk h.symm, Function.update_of_ne hk, table_cons,
              if_neg fun h => hk h.symm]
      | succ i =>
          rw [List.getElem?_cons_succ] at hi
          have hne : key x ≠ key r := by
            intro h
            refine hx ?_
            rw [h]
            exact List.mem_map_of_mem (List.mem_of_getElem? hi)
          rw [List.modify_succ_cons, table_cons, ih hxs hi]
          by_cases hk : key x = k
          · have hkr : k ≠ key r := fun h => hne (hk.trans h)
            rw [if_pos hk, Function.update_of_ne hkr, table_cons, if_pos hk]
          · rw [if_neg hk]
            by_cases hkr : k = key r
            · rw [hkr, Function.update_self, Function.update_self]
            · rw [Function.update_of_ne hkr, Function.update_of_ne hkr, table_cons, if_neg hk]

/-! ## Sums over a key -/

section Totals

variable {M : Type} [AddCommGroup M]

/-- The sum of a value over the records with one key, of which there may be
    many. -/
def total (key : R → κ) (value : R → M) (l : List R) (k : κ) : M :=
  ((l.filter fun r => key r = k).map value).sum

variable {value : R → M}

theorem total_cons (x : R) (xs : List R) :
    total key value (x :: xs) k = (if key x = k then value x else 0) + total key value xs k := by
  by_cases hk : key x = k
  · rw [total, List.filter_cons_of_pos (by simpa using hk), List.map_cons, List.sum_cons,
      if_pos hk]
    rfl
  · rw [total, List.filter_cons_of_neg (by simpa using hk), if_neg hk, zero_add]
    rfl

/-- One more record adds its value to the sum over its key. -/
theorem total_append (r : R) :
    total key value (l ++ [r]) k = total key value l k + if key r = k then value r else 0 := by
  induction l with
  | nil =>
      rw [List.nil_append, total_cons, add_comm]
  | cons x xs ih => rw [List.cons_append, total_cons, total_cons, ih, add_assoc]

/-- Changing a record in place, without touching its key, adds the change of its
    value to the sum over its key. -/
theorem total_modify {i : Nat} {f : R → R} (hi : l[i]? = some r) (hf : key (f r) = key r) :
    total key value (l.modify i f) k
      = total key value l k + if key r = k then value (f r) - value r else 0 := by
  induction l generalizing i with
  | nil => cases hi
  | cons x xs ih =>
      cases i with
      | zero =>
          rw [List.getElem?_cons_zero, Option.some.injEq] at hi
          subst hi
          rw [List.modify_zero_cons, total_cons, total_cons, hf]
          by_cases hk : key x = k
          · rw [if_pos hk, if_pos hk, if_pos hk]
            abel
          · rw [if_neg hk, if_neg hk, if_neg hk, add_zero]
      | succ i =>
          rw [List.getElem?_cons_succ] at hi
          rw [List.modify_succ_cons, total_cons, total_cons, ih hi, add_assoc]

end Totals

end KeyedTable
