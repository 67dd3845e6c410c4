import Mathlib.Data.List.Nodup
import Mac3am.KeyedTableProofs
import Mac3am.SwiftProofs
import Mac3am.TrapRunProofs

/-! # The skip statistics in Core Data

    `skipBtnTouched` keeps one `Entity` record per song: it fetches all
    records, looks for the one named like the current song and either counts
    it up or inserts a new one, then saves.  The managed object context holds
    the records as the program sees them; the persistent store holds what the
    last successful save wrote.  A name stands for a Swift string up to its
    `==`, which is canonical equivalence: the code compares names and does
    nothing else with them.

    * `recordSkip` — lines 183 to 218 of `PlayViewController.swift`;
    * `recordSkip_fetched` — after a fetch that works, in any order, it is one
      update of the map from names to records;
    * `recordSkip_failed` — after a fetch that throws, it always inserts;
    * `applicationShouldTerminate` — the last save, when the application
      quits. -/

namespace Mac3amStore

open Swift TrapRun KeyedTable

/-- A record of the data model: `skip` is an Integer 32 attribute with the
    default 0, the two texts are optional. -/
structure Entity where
  name : Option String := none
  skip : Int32 := 0
  emotion : Option String := none
deriving DecidableEq, Repr

/-- The view context over its store.  A record's object identifier is its
    position in `objects`; no record is ever deleted. -/
structure ManagedObjectContext where
  objects : List Entity
  stored : List Entity
  hasChanges : Bool
deriving DecidableEq, Repr

namespace ManagedObjectContext

/-- The context of a freshly loaded store. -/
def opened (records : List Entity) : ManagedObjectContext where
  objects := records
  stored := records
  hasChanges := false

/-- `NSManagedObject(entity:insertInto:)` -/
def insert (e : Entity) (c : ManagedObjectContext) : ManagedObjectContext :=
  { c with objects := c.objects ++ [e], hasChanges := true }

/-- `setValue(_:forKey:)` on the object `thisUser`. -/
def setValues (thisUser : Nat) (f : Entity → Entity) (c : ManagedObjectContext) :
    ManagedObjectContext :=
  { c with objects := c.objects.modify thisUser f, hasChanges := true }

/-- `context.save()`: a save that throws keeps the changes pending. -/
def save (succeeds : Bool) (c : ManagedObjectContext) : ManagedObjectContext :=
  if succeeds then { c with stored := c.objects, hasChanges := false } else c

end ManagedObjectContext

/-- The order in which a fetch returns the records, which nothing fixes. -/
structure FetchOrder where
  arrange : List (Entity × Nat) → List (Entity × Nat)
  perm : ∀ l, (arrange l).Perm l

/-- The records as they were inserted. -/
def FetchOrder.inserted : FetchOrder := ⟨id, fun l => List.Perm.refl l⟩

/-- The records with the last one first. -/
def FetchOrder.reversed : FetchOrder := ⟨List.reverse, fun l => List.reverse_perm l⟩

/-- `context.fetch(request)`: every record with its identifier, pending
    changes included, in some order; `none` is a fetch that throws. -/
def fetch (order : Option FetchOrder) (c : ManagedObjectContext) :
    Option (List (Entity × Nat)) :=
  order.map fun o => o.arrange c.objects.zipIdx

/-- The local variables of `skipBtnTouched`. -/
structure Scan where
  thisUser : Option Nat := none
  thisIsNewSong : Bool := true
  skipTime : Int := 0

/-- The loop over the fetched records: the last one named like the current
    song is kept. -/
def scan (musicList : List String) (currentMusicIndex : Int) :
    List (Entity × Nat) → Scan → Except Trap Scan
  | [], v => .ok v
  | (data, thisUser) :: rest, v =>
      match data.name with
      | none => .error .castFailed
      | some name =>
          match subscript musicList currentMusicIndex with
          | none => .error .indexOutOfRange
          | some song =>
              if name = song then
                scan musicList currentMusicIndex rest
                  { thisUser := some thisUser, thisIsNewSong := false
                    skipTime := data.skip.toInt }
              else scan musicList currentMusicIndex rest v

/-- The record of a song that is skipped for the first time. -/
def newSong (song : String) : Entity where
  name := some song
  skip := 1
  emotion := some "testEmotion"

/-- The record of a song that is skipped again.  The attribute is declared with
    32 bits: what is written is what these hold of the sum, whatever Core Data
    does with a larger one until it is saved. -/
def skipAgain (skipTime : Int) (data : Entity) : Entity :=
  { data with skip := Int32.ofInt (skipTime + 1), emotion := some "testEmotion2" }

/-- The write that follows the scan, with its save. -/
def storeSkip (musicList : List String) (currentMusicIndex : Int) (saved : Bool) (v : Scan)
    (c : ManagedObjectContext) : Outcome Trap ManagedObjectContext :=
  if v.thisIsNewSong then
    match subscript musicList currentMusicIndex with
    | none => .trap .indexOutOfRange (c.insert {})
    | some song => .ok ((c.insert (newSong song)).save saved)
  else
    match v.thisUser with
    | none => .trap .unwrappedNil c
    | some thisUser => .ok ((c.setValues thisUser (skipAgain v.skipTime)).save saved)

/-- The store update of `skipBtnTouched`, from its fetch up to its save. -/
def recordSkip (musicList : List String) (currentMusicIndex : Int)
    (order : Option FetchOrder) (saved : Bool) (c : ManagedObjectContext) :
    Outcome Trap ManagedObjectContext :=
  match fetch order c with
  | none => storeSkip musicList currentMusicIndex saved {} c   -- prints "Failed", falls through
  | some result =>
      match scan musicList currentMusicIndex result {} with
      | .error t => .trap t c
      | .ok v => storeSkip musicList currentMusicIndex saved v c

/-! ## The scan -/

section Scanning

variable {musicList : List String} {currentMusicIndex : Int} {song : String}

/-- The records all have a name. -/
def Named (records : List Entity) : Prop := ∀ e ∈ records, e.name ≠ none

instance (records : List Entity) : Decidable (Named records) :=
  inferInstanceAs (Decidable (∀ e ∈ records, e.name ≠ none))

/-- The local variables after the scan kept the object it `found`. -/
def Scan.keeping : Option (Entity × Nat) → Scan
  | none => {}
  | some (data, thisUser) =>
      { thisUser := some thisUser, thisIsNewSong := false, skipTime := data.skip.toInt }

/-- Over named records the scan is the loop that keeps the last match. -/
theorem scan_named (hs : subscript musicList currentMusicIndex = some song)
    {l : List (Entity × Nat)} (hn : ∀ p ∈ l, p.1.name ≠ none) (found : Option (Entity × Nat)) :
    scan musicList currentMusicIndex l (Scan.keeping found)
      = .ok (Scan.keeping
          (l.foldl (fun found p => if p.1.name = some song then some p else found) found)) := by
  -- `found` is general: the loop overwrites it at every match
  induction l generalizing found with
  | nil => rfl
  | cons p rest ih =>
      obtain ⟨data, thisUser⟩ := p
      have hrest : ∀ q ∈ rest, q.1.name ≠ none := fun q hq => hn q (List.mem_cons_of_mem _ hq)
      cases hname : data.name with
      | none => exact absurd hname (hn (data, thisUser) List.mem_cons_self)
      | some name =>
          rw [scan, hname, hs, List.foldl_cons]
          show (if name = song then _ else _) = _
          by_cases heq : name = song
          · rw [if_pos heq, if_pos (by rw [hname, heq])]
            exact ih hrest (some (data, thisUser))
          · rw [if_neg heq, if_neg (by rw [hname]; exact fun h => heq (Option.some.inj h))]
            exact ih hrest found

/-- A scan traps only where the current index is out of range or a record has
    no name. -/
theorem scan_error {l : List (Entity × Nat)} {v : Scan} {t : Trap}
    (h : scan musicList currentMusicIndex l v = .error t) :
    (t = .indexOutOfRange ∧ subscript musicList currentMusicIndex = none) ∨
      (t = .castFailed ∧ ∃ p ∈ l, p.1.name = none) := by
  induction l generalizing v with
  | nil => cases h
  | cons p rest ih =>
      obtain ⟨data, thisUser⟩ := p
      rw [scan] at h
      cases hname : data.name with
      | none =>
          rw [hname] at h
          cases h
          exact Or.inr ⟨rfl, (data, thisUser), List.mem_cons_self, hname⟩
      | some name =>
          rw [hname] at h
          cases hs : subscript musicList currentMusicIndex with
          | none =>
              rw [hs] at h
              cases h
              exact Or.inl ⟨rfl, rfl⟩
          | some song =>
              rw [hs] at h
              have hrest : ∃ v', scan musicList currentMusicIndex rest v' = .error t := by
                by_cases heq : name = song
                · exact ⟨_, by simpa only [if_pos heq] using h⟩
                · exact ⟨_, by simpa only [if_neg heq] using h⟩
              obtain ⟨v', hv'⟩ := hrest
              rw [hs] at ih
              rcases ih hv' with hbad | ⟨ht, q, hq, hqn⟩
              · exact Or.inl hbad
              · exact Or.inr ⟨ht, q, List.mem_cons_of_mem _ hq, hqn⟩

/-- A scan that returns kept what it started with, or the object of a record
    named like the current song. -/
theorem scan_ok {l : List (Entity × Nat)} {v v' : Scan}
    (h : scan musicList currentMusicIndex l v = .ok v') :
    v' = v ∨ ∃ p ∈ l, ∃ song, subscript musicList currentMusicIndex = some song ∧
      p.1.name = some song ∧ v' = Scan.keeping (some p) := by
  induction l generalizing v with
  | nil =>
      cases h
      exact Or.inl rfl
  | cons p rest ih =>
      obtain ⟨data, thisUser⟩ := p
      rw [scan] at h
      cases hname : data.name with
      | none =>
          rw [hname] at h
          cases h
      | some name =>
          rw [hname] at h
          cases hs : subscript musicList currentMusicIndex with
          | none =>
              rw [hs] at h
              cases h
          | some song =>
              rw [hs] at h ih
              by_cases heq : name = song
              · have h' : scan musicList currentMusicIndex rest
                    (Scan.keeping (some (data, thisUser))) = .ok v' := by
                  simpa only [if_pos heq, Scan.keeping] using h
                rcases ih h' with rfl | ⟨q, hq, hkept⟩
                · exact Or.inr ⟨(data, thisUser), List.mem_cons_self, song, rfl,
                    by rw [hname, heq], rfl⟩
                · exact Or.inr ⟨q, List.mem_cons_of_mem _ hq, hkept⟩
              · have h' : scan musicList currentMusicIndex rest v = .ok v' := by
                  simpa only [if_neg heq] using h
                rcases ih h' with hv | ⟨q, hq, hkept⟩
                · exact Or.inl hv
                · exact Or.inr ⟨q, List.mem_cons_of_mem _ hq, hkept⟩

end Scanning

/-! ## The store update -/

section Update

variable {musicList : List String} {currentMusicIndex : Int} {song : String}
  {order : Option FetchOrder} {saved : Bool} {c c' : ManagedObjectContext}

theorem recordSkip_fetch (o : FetchOrder) :
    recordSkip musicList currentMusicIndex (some o) saved c
      = match scan musicList currentMusicIndex (o.arrange c.objects.zipIdx) {} with
        | .error t => .trap t c
        | .ok v => storeSkip musicList currentMusicIndex saved v c := rfl

theorem storeSkip_new :
    storeSkip musicList currentMusicIndex saved {} c
      = match subscript musicList currentMusicIndex with
        | none => .trap .indexOutOfRange (c.insert {})
        | some song => .ok ((c.insert (newSong song)).save saved) := rfl

theorem storeSkip_keeping (r : Entity) (k : Nat) :
    storeSkip musicList currentMusicIndex saved (Scan.keeping (some (r, k))) c
      = .ok ((c.setValues k (skipAgain r.skip.toInt)).save saved) := rfl

/-- The objects a fetch returns are those of the context. -/
theorem mem_arrange {o : FetchOrder} {r : Entity} {k : Nat} :
    (r, k) ∈ o.arrange c.objects.zipIdx ↔ c.objects[k]? = some r := by
  rw [(o.perm _).mem_iff, List.mk_mem_zipIdx_iff_getElem?]

/-- After a fetch that throws, the flag `thisIsNewSong` is still set: the
    update inserts, whatever the store holds. -/
theorem recordSkip_failed (hs : subscript musicList currentMusicIndex = some song) :
    recordSkip musicList currentMusicIndex none saved c
      = .ok ((c.insert (newSong song)).save saved) := by
  rw [show recordSkip musicList currentMusicIndex none saved c
      = storeSkip musicList currentMusicIndex saved {} c from rfl, storeSkip_new, hs]

/-- A first-time write that returns inserted a record of the current song. -/
theorem storeSkip_new_ok (h : storeSkip musicList currentMusicIndex saved {} c = .ok c') :
    ∃ song, subscript musicList currentMusicIndex = some song ∧
      c' = (c.insert (newSong song)).save saved := by
  rw [storeSkip_new] at h
  cases hs : subscript musicList currentMusicIndex with
  | none =>
      rw [hs] at h
      cases h
  | some song =>
      rw [hs] at h
      cases h
      exact ⟨song, rfl, rfl⟩

/-- A first-time write traps only where the current index is out of range. -/
theorem storeSkip_new_trap {t : Trap}
    (h : storeSkip musicList currentMusicIndex saved {} c = .trap t c') :
    t = .indexOutOfRange ∧ subscript musicList currentMusicIndex = none := by
  rw [storeSkip_new] at h
  cases hs : subscript musicList currentMusicIndex with
  | none =>
      rw [hs] at h
      cases h
      exact ⟨rfl, rfl⟩
  | some song =>
      rw [hs] at h
      cases h

/-- Everything a store update that returns can have done: it inserted a record
    of the current song, or it counted one up that it had fetched. -/
theorem recordSkip_ok (h : recordSkip musicList currentMusicIndex order saved c = .ok c') :
    ∃ song, subscript musicList currentMusicIndex = some song ∧
      (c' = (c.insert (newSong song)).save saved ∨
        ∃ k r, c.objects[k]? = some r ∧ r.name = some song ∧
          c' = (c.setValues k (skipAgain r.skip.toInt)).save saved) := by
  cases order with
  | none =>
      -- a fetch that throws goes straight to the insert
      obtain ⟨song, hs, hc⟩ := storeSkip_new_ok h
      exact ⟨song, hs, Or.inl hc⟩
  | some o =>
      rw [recordSkip_fetch] at h
      cases hscan : scan musicList currentMusicIndex (o.arrange c.objects.zipIdx) {} with
      | error t =>
          rw [hscan] at h
          cases h
      | ok v =>
          rw [hscan] at h
          rcases scan_ok hscan with rfl | ⟨⟨r, k⟩, hmem, song, hs, hname, rfl⟩
          · obtain ⟨song, hs, hc⟩ := storeSkip_new_ok h
            exact ⟨song, hs, Or.inl hc⟩
          · cases h
            exact ⟨song, hs, Or.inr ⟨k, r, mem_arrange.mp hmem, hname, rfl⟩⟩

/-- Where a store update traps: the current index is out of range, or it
    fetched a record without a name. -/
theorem recordSkip_trap {t : Trap}
    (h : recordSkip musicList currentMusicIndex order saved c = .trap t c') :
    (t = .indexOutOfRange ∧ subscript musicList currentMusicIndex = none) ∨
      (t = .castFailed ∧ order ≠ none ∧ ∃ e ∈ c.objects, e.name = none) := by
  cases order with
  | none => exact Or.inl (storeSkip_new_trap h)
  | some o =>
      rw [recordSkip_fetch] at h
      cases hscan : scan musicList currentMusicIndex (o.arrange c.objects.zipIdx) {} with
      | error t' =>
          rw [hscan] at h
          cases h
          rcases scan_error hscan with hbad | ⟨ht, ⟨e, k⟩, hmem, hname⟩
          · exact Or.inl hbad
          · have he : e ∈ c.objects := List.mem_of_getElem? (mem_arrange.mp hmem)
            exact Or.inr ⟨ht, by simp, e, he, hname⟩
      | ok v =>
          rw [hscan] at h
          rcases scan_ok hscan with rfl | ⟨⟨r, k⟩, -, song, hs, -, rfl⟩
          · exact Or.inl (storeSkip_new_trap h)
          · cases h

/-- The scan of a fetch comes to a record without a name before it subscripts
    the playlist out of range. -/
def MeetsUnnamed (musicList : List String) (currentMusicIndex : Int)
    (order : Option FetchOrder) (c : ManagedObjectContext) : Prop :=
  ∃ result, fetch order c = some result ∧
    if (subscript musicList currentMusicIndex).isSome then ∃ p ∈ result, p.1.name = none
    else ∃ p, result.head? = some p ∧ p.1.name = none

theorem MeetsUnnamed.exists_unnamed (h : MeetsUnnamed musicList currentMusicIndex order c) :
    ∃ e ∈ c.objects, e.name = none := by
  obtain ⟨result, hfetch, hunnamed⟩ := h
  obtain ⟨o, -, rfl⟩ := Option.map_eq_some_iff.mp hfetch
  have hmem : ∃ p ∈ o.arrange c.objects.zipIdx, p.1.name = none := by
    by_cases hs : (subscript musicList currentMusicIndex).isSome
    · rw [if_pos hs] at hunnamed
      exact hunnamed
    · rw [if_neg hs] at hunnamed
      obtain ⟨p, hhead, hname⟩ := hunnamed
      exact ⟨p, List.mem_of_head? hhead, hname⟩
  obtain ⟨⟨r, k⟩, hr, hname⟩ := hmem
  exact ⟨r, List.mem_of_getElem? (mem_arrange.mp hr), hname⟩

/-- With the index in range, a scan that comes to a record without a name
    traps on its cast. -/
theorem scan_unnamed (hs : subscript musicList currentMusicIndex = some song)
    {l : List (Entity × Nat)} (hl : ∃ p ∈ l, p.1.name = none) (v : Scan) :
    scan musicList currentMusicIndex l v = .error .castFailed := by
  induction l generalizing v with
  | nil =>
      obtain ⟨p, hp, -⟩ := hl
      cases hp
  | cons q rest ih =>
      obtain ⟨data, thisUser⟩ := q
      rw [scan]
      cases hname : data.name with
      | none => rfl
      | some name =>
          have hrest : ∃ p ∈ rest, p.1.name = none := by
            obtain ⟨p, hp, hnone⟩ := hl
            rcases List.mem_cons.mp hp with rfl | hmem
            · rw [hname] at hnone
              cases hnone
            · exact ⟨p, hmem, hnone⟩
          rw [hs]
          show (if name = song then _ else _) = _
          by_cases heq : name = song
          · rw [if_pos heq]
            exact ih hrest _
          · rw [if_neg heq]
            exact ih hrest v

/-- Meeting a record without a name crashes the update. -/
theorem recordSkip_meets (hmeets : MeetsUnnamed musicList currentMusicIndex order c)
    (saved : Bool) :
    ∃ c', recordSkip musicList currentMusicIndex order saved c = .trap .castFailed c' := by
  obtain ⟨result, hfetch, hunnamed⟩ := hmeets
  have hscan : scan musicList currentMusicIndex result {} = .error .castFailed := by
    cases hs : subscript musicList currentMusicIndex with
    | some song =>
        rw [hs, Option.isSome_some, if_pos rfl] at hunnamed
        exact scan_unnamed hs hunnamed {}
    | none =>
        -- off the playlist only the first record is read before the subscript traps
        rw [hs, Option.isSome_none, if_neg (by simp)] at hunnamed
        obtain ⟨p, hhead, hname⟩ := hunnamed
        obtain ⟨rest, rfl⟩ := List.head?_eq_some_iff.mp hhead
        rw [scan, hname]
  rw [recordSkip, hfetch]
  show ∃ c', (match scan musicList currentMusicIndex result {} with
    | .error t => Outcome.trap t c
    | .ok v => storeSkip musicList currentMusicIndex saved v c) = _
  rw [hscan]
  exact ⟨c, rfl⟩

/-- Otherwise, on a song of the playlist, the update returns. -/
theorem recordSkip_returns (hmeets : ¬ MeetsUnnamed musicList currentMusicIndex order c)
    (saved : Bool) (hs : subscript musicList currentMusicIndex = some song) :
    ∃ c', recordSkip musicList currentMusicIndex order saved c = .ok c' := by
  cases hupd : recordSkip musicList currentMusicIndex order saved c with
  | ok c' => exact ⟨c', rfl⟩
  | trap t c' =>
      rcases recordSkip_trap hupd with ⟨-, hnone⟩ | ⟨-, horder, e, he, hname⟩
      · rw [hs] at hnone
        cases hnone
      · obtain ⟨o, rfl⟩ := Option.ne_none_iff_exists'.mp horder
        obtain ⟨k, hk⟩ := List.mem_iff_getElem?.mp he
        refine absurd ⟨_, rfl, ?_⟩ hmeets
        rw [hs, Option.isSome_some, if_pos rfl]
        exact ⟨(e, k), mem_arrange.mpr hk, hname⟩

/-- And off the playlist it subscripts out of range. -/
theorem recordSkip_outOfRange (hmeets : ¬ MeetsUnnamed musicList currentMusicIndex order c)
    (saved : Bool) (hs : subscript musicList currentMusicIndex = none) :
    ∃ c', recordSkip musicList currentMusicIndex order saved c = .trap .indexOutOfRange c' := by
  have hinsert : ∃ c', storeSkip musicList currentMusicIndex saved {} c
      = .trap .indexOutOfRange c' := ⟨_, by rw [storeSkip_new, hs]⟩
  cases hfetch : fetch order c with
  | none =>
      rw [recordSkip, hfetch]
      exact hinsert
  | some result =>
      rw [recordSkip, hfetch]
      show ∃ c', (match scan musicList currentMusicIndex result {} with
        | .error t => Outcome.trap t c
        | .ok v => storeSkip musicList currentMusicIndex saved v c) = _
      cases result with
      | nil => exact hinsert
      | cons p rest =>
          cases hname : p.1.name with
          | none =>
              refine absurd ⟨_, hfetch, ?_⟩ hmeets
              rw [hs, Option.isSome_none, if_neg (by simp)]
              exact ⟨p, rfl, hname⟩
          | some name =>
              rw [scan, hname, hs]
              exact ⟨c, rfl⟩

/-- **How a store update ends**: it crashes on a record without a name, it
    subscripts out of range, or it returns. -/
theorem recordSkip_cases (musicList : List String) (currentMusicIndex : Int)
    (order : Option FetchOrder) (saved : Bool) (c : ManagedObjectContext) :
    (MeetsUnnamed musicList currentMusicIndex order c ∧
      ∃ c', recordSkip musicList currentMusicIndex order saved c = .trap .castFailed c') ∨
    (¬ MeetsUnnamed musicList currentMusicIndex order c ∧
      subscript musicList currentMusicIndex = none ∧
      ∃ c', recordSkip musicList currentMusicIndex order saved c = .trap .indexOutOfRange c') ∨
    (¬ MeetsUnnamed musicList currentMusicIndex order c ∧
      (∃ song, subscript musicList currentMusicIndex = some song) ∧
      ∃ c', recordSkip musicList currentMusicIndex order saved c = .ok c') := by
  by_cases hmeets : MeetsUnnamed musicList currentMusicIndex order c
  · exact Or.inl ⟨hmeets, recordSkip_meets hmeets saved⟩
  · cases hs : subscript musicList currentMusicIndex with
    | none => exact Or.inr (Or.inl ⟨hmeets, rfl, recordSkip_outOfRange hmeets saved hs⟩)
    | some song =>
        exact Or.inr (Or.inr ⟨hmeets, ⟨song, rfl⟩, recordSkip_returns hmeets saved hs⟩)

@[simp] theorem save_objects : (c.save saved).objects = c.objects := by
  cases saved <;> rfl

@[simp] theorem insert_objects (e : Entity) : (c.insert e).objects = c.objects ++ [e] := rfl

@[simp] theorem setValues_objects (k : Nat) (f : Entity → Entity) :
    (c.setValues k f).objects = c.objects.modify k f := rfl

/-- What a skip makes of the record of its song. -/
def bump (song : String) : Option Entity → Entity
  | none => newSong song
  | some r => skipAgain r.skip.toInt r

/-- Reading the map of a context through the positions a fetch returns. -/
theorem fetched_table (hu : Unique Entity.name c.objects) (o : FetchOrder) (song : String) :
    (lastMatch (fun p : Entity × Nat => p.1.name) (some song) (o.arrange c.objects.zipIdx)).map
        Prod.fst
      = table Entity.name c.objects (some song) := by
  rw [lastMatch_eq_table (unique_zipIdx.mpr hu) (o.perm _), table_zipIdx]

theorem scan_fetched (hs : subscript musicList currentMusicIndex = some song)
    (hn : Named c.objects) (o : FetchOrder) :
    scan musicList currentMusicIndex (o.arrange c.objects.zipIdx) {}
      = .ok (Scan.keeping
          (lastMatch (fun p : Entity × Nat => p.1.name) (some song)
            (o.arrange c.objects.zipIdx))) := by
  refine scan_named hs ?_ none
  rintro ⟨r, k⟩ hmem
  exact hn r (List.mem_of_getElem? (mem_arrange.mp hmem))

theorem named_append {l : List Entity} {e : Entity} (hn : Named l) (he : e.name ≠ none) :
    Named (l ++ [e]) := by
  intro r hr
  rcases List.mem_append.mp hr with hl | hlast
  · exact hn r hl
  · rw [List.mem_singleton.mp hlast]
    exact he

theorem named_modify {l : List Entity} {k : Nat} {f : Entity → Entity} (hn : Named l)
    (hf : ∀ r, (f r).name = r.name) : Named (l.modify k f) := by
  intro r hr
  have hkeys : (l.modify k f).map Entity.name = l.map Entity.name :=
    map_key_modify fun r _ => hf r
  have hmem : r.name ∈ (l.modify k f).map Entity.name := List.mem_map_of_mem hr
  rw [hkeys] at hmem
  obtain ⟨r', hr', hname⟩ := List.mem_map.mp hmem
  exact hname ▸ hn r' hr'

/-- A store update leaves no record without a name behind. -/
theorem recordSkip_named (h : recordSkip musicList currentMusicIndex order saved c = .ok c')
    (hn : Named c.objects) : Named c'.objects := by
  obtain ⟨song, -, rfl | ⟨k, r, -, -, rfl⟩⟩ := recordSkip_ok h
  · rw [save_objects, insert_objects]
    exact named_append hn (by simp [newSong])
  · rw [save_objects, setValues_objects]
    exact named_modify hn fun _ => rfl

/-- **A skip after a fetch that works**, whatever order the records come in, is
    one update of the map from names to records. -/
theorem recordSkip_fetched (hs : subscript musicList currentMusicIndex = some song)
    (hn : Named c.objects) (hu : Unique Entity.name c.objects) (o : FetchOrder)
    (saved : Bool) : ∃ c₁ : ManagedObjectContext,
      recordSkip musicList currentMusicIndex (some o) saved c = .ok (c₁.save saved) ∧
      c₁.hasChanges = true ∧ c₁.stored = c.stored ∧ Unique Entity.name c₁.objects ∧
      table Entity.name c₁.objects
        = Function.update (table Entity.name c.objects) (some song)
            (some (bump song (table Entity.name c.objects (some song)))) := by
  have hfound := fetched_table hu o song
  rw [recordSkip_fetch, scan_fetched hs hn o]
  cases hmatch : lastMatch (fun p : Entity × Nat => p.1.name) (some song)
      (o.arrange c.objects.zipIdx) with
  | none =>
      -- no record of the song: the update inserts one
      rw [hmatch] at hfound
      have habsent : table Entity.name c.objects (some song) = none := hfound.symm
      have hfresh : (newSong song).name ∉ c.objects.map Entity.name :=
        table_eq_none.mp habsent
      refine ⟨c.insert (newSong song), ?_, rfl, rfl, unique_append hu hfresh, ?_⟩
      · show storeSkip musicList currentMusicIndex saved {} c = _
        rw [storeSkip_new, hs]
      · rw [habsent]
        exact table_append hfresh
  | some p =>
      -- the scan ends with the position of the song's one record
      obtain ⟨r, k⟩ := p
      rw [hmatch] at hfound
      have hpresent : table Entity.name c.objects (some song) = some r := hfound.symm
      have hname : r.name = some song := (mem_of_table hpresent).2
      have hk : c.objects[k]? = some r := by
        rw [lastMatch_eq_table (unique_zipIdx.mpr hu) (o.perm _)] at hmatch
        exact List.mk_mem_zipIdx_iff_getElem?.mp (mem_of_table hmatch).1
      refine ⟨c.setValues k (skipAgain r.skip.toInt), storeSkip_keeping r k, rfl, rfl,
        unique_modify hu fun _ _ => rfl, ?_⟩
      rw [hpresent, ← hname]
      exact table_modify hu hk rfl

end Update

/-! ## Saving and quitting -/

/-- The delegate's save action.  Editing that cannot be committed is only
    logged, and an error is only presented. -/
def saveAction (_commitEditing saved : Bool) (c : ManagedObjectContext) : ManagedObjectContext :=
  if c.hasChanges then c.save saved else c

/-- `NSApplication.TerminateReply`, as far as the delegate returns it. -/
inductive TerminateReply where
  | terminateCancel
  | terminateNow
deriving DecidableEq, Repr

/-- `NSApplication.ModalResponse` of the alert. -/
inductive ModalResponse where
  | alertFirstButtonReturn
  | alertSecondButtonReturn
deriving DecidableEq, Repr

/-- What the surroundings answer while the application tries to quit. -/
structure QuitAnswers where
  commitEditing : Bool
  saved : Bool
  presentError : Bool
  runModal : ModalResponse

/-- The delegate's reply to a request to quit, and the context after it. -/
def applicationShouldTerminate (q : QuitAnswers) (c : ManagedObjectContext) :
    TerminateReply × ManagedObjectContext :=
  if !q.commitEditing then (.terminateCancel, c)
  else if !c.hasChanges then (.terminateNow, c)
  else if q.saved then (.terminateNow, c.save true)
  else if q.presentError then (.terminateCancel, c.save false)
  else if q.runModal = .alertSecondButtonReturn then (.terminateCancel, c.save false)
  else (.terminateNow, c.save false)

/-- **What quitting does to the store**: it only goes through with the store
    equal to the context, or by the user's answer to the alert about a save
    that failed; and a cancelled quit leaves the context as it was. -/
theorem applicationShouldTerminate_spec (q : QuitAnswers) {c : ManagedObjectContext}
    (h : c.hasChanges = false → c.stored = c.objects) :
    ((applicationShouldTerminate q c).1 = .terminateNow →
      (applicationShouldTerminate q c).2.stored = (applicationShouldTerminate q c).2.objects ∨
        (q.saved = false ∧ q.presentError = false ∧ q.runModal ≠ .alertSecondButtonReturn)) ∧
    ((applicationShouldTerminate q c).1 = .terminateCancel →
      (applicationShouldTerminate q c).2 = c) := by
  obtain ⟨commitEditing, saved, presentError, runModal⟩ := q
  rw [applicationShouldTerminate]
  -- one case per early return, in the order of the source
  cases commitEditing with
  | false => exact ⟨fun hnow => (nomatch hnow), fun _ => rfl⟩
  | true =>
      cases hchanges : c.hasChanges with
      | false => exact ⟨fun _ => Or.inl (h hchanges), fun _ => rfl⟩
      | true =>
          cases saved with
          | true => exact ⟨fun _ => Or.inl rfl, fun hcancel => nomatch hcancel⟩
          | false =>
              cases presentError with
              | true => exact ⟨fun hnow => (nomatch hnow), fun _ => rfl⟩
              | false =>
                  cases runModal with
                  | alertFirstButtonReturn =>
                      exact ⟨fun _ => Or.inr ⟨rfl, rfl, by decide⟩, fun hcancel => nomatch hcancel⟩
                  | alertSecondButtonReturn =>
                      exact ⟨fun hnow => (nomatch hnow), fun _ => rfl⟩

end Mac3amStore
