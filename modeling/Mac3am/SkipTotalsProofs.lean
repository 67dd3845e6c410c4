import Mathlib.Algebra.Order.BigOperators.Group.List
import Mathlib.Algebra.Order.Group.Int
import Mathlib.Data.Int.ModEq
import Mac3am.SkipStatisticsProofs

/-! # No skip is lost

    A fetch that throws makes a second record of a song that has one already,
    and later skips count whichever record they find last.  The counts of a
    song may be spread over several records then, but their sum is right.

    * `recordSkip_ledger` — one update adds one to the sum over its song;
    * `skip_total_conserved` — so in every run, whatever fetches and saves do
      and however the run ends, the sum over a song is what it was at first and
      one for each skip; and no record is removed or renamed. -/

namespace Mac3amPanel

open Swift TrapRun KeyedTable Mac3amStore

/-- The skips a list of records holds for a song. -/
def skipTotal (objects : List Entity) (name : String) : Int :=
  total Entity.name (fun r => r.skip.toInt) objects (some name)

/-- What the records of a context hold after the songs in `credited` were
    skipped, starting from `records`: names stay, and each song's sum counts
    on, in 32 bits, and without them as long as nothing can wrap. -/
structure Ledger (records : List Entity) (credited : List String) (objects : List Entity) :
    Prop where
  names : records.map Entity.name <+: objects.map Entity.name
  sum : ∀ name, skipTotal objects name
    ≡ skipTotal records name + credited.count name [ZMOD 4294967296]
  exact : ∀ name, (∀ r ∈ records, r.name = some name → 0 ≤ r.skip.toInt) →
    skipTotal records name + credited.count name ≤ 2147483647 →
    skipTotal objects name = skipTotal records name + credited.count name ∧
      ∀ r ∈ objects, r.name = some name → 0 ≤ r.skip.toInt

theorem ledger_opened (records : List Entity) : Ledger records [] records where
  names := List.prefix_rfl
  sum := fun name => by rw [List.count_nil, Int.natCast_zero, Int.add_zero]
  exact := fun name hpos _ => ⟨by rw [List.count_nil, Int.natCast_zero, Int.add_zero], hpos⟩

section Updates

variable {records objects : List Entity} {credited : List String} {song name : String}

theorem count_snoc (credited : List String) (song name : String) :
    ((credited ++ [song]).count name : Int)
      = credited.count name + if song = name then 1 else 0 := by
  rw [List.count_append, Int.natCast_add]
  by_cases h : song = name
  · subst h
    rw [List.count_singleton_self, if_pos rfl]
    rfl
  · have habsent : [song].count name = 0 :=
      List.count_eq_zero_of_not_mem fun hmem => h (List.mem_singleton.mp hmem).symm
    rw [habsent, if_neg h]
    rfl

/-- Counting one up in 32 bits adds one, up to the wrap at their end. -/
theorem toInt_skipAgain (r : Entity) :
    (skipAgain r.skip.toInt r).skip.toInt ≡ r.skip.toInt + 1 [ZMOD 4294967296] := by
  show (Int32.ofInt (r.skip.toInt + 1)).toInt % 4294967296 = _
  rw [Int32.toInt_ofInt]
  exact Int.bmod_emod

/-- A record that was counted up holds at most the sum over its song. -/
theorem skip_le_total (hpos : ∀ r ∈ objects, r.name = some name → 0 ≤ r.skip.toInt)
    {r : Entity} (hr : r ∈ objects) (hname : r.name = some name) :
    r.skip.toInt ≤ skipTotal objects name := by
  refine List.single_le_sum ?_ _ ?_
  · intro x hx
    obtain ⟨r', hr', rfl⟩ := List.mem_map.mp hx
    obtain ⟨hmem, hname'⟩ := List.mem_filter.mp hr'
    exact hpos r' hmem (of_decide_eq_true hname')
  · exact List.mem_map_of_mem (List.mem_filter.mpr ⟨hr, decide_eq_true hname⟩)

/-- A change of the records that adds `v` to the sum over one song, where `v` is
    one in 32 bits, is one more skip of that song in the ledger. -/
theorem ledger_next {objects' : List Entity} {v : Int} (h : Ledger records credited objects)
    (hnames : objects.map Entity.name <+: objects'.map Entity.name)
    (hsum : ∀ name, skipTotal objects' name
      = skipTotal objects name + if song = name then v else 0)
    (hv : v ≡ 1 [ZMOD 4294967296])
    (hexact : (∀ r ∈ objects, r.name = some song → 0 ≤ r.skip.toInt) →
      skipTotal objects song < 2147483647 → v = 1)
    (hpos : ∀ name, (∀ r ∈ objects, r.name = some name → 0 ≤ r.skip.toInt) →
      (song = name → skipTotal objects name < 2147483647) →
      ∀ r ∈ objects', r.name = some name → 0 ≤ r.skip.toInt) :
    Ledger records (credited ++ [song]) objects' := by
  refine ⟨h.names.trans hnames, ?_, ?_⟩
  · intro name
    rw [hsum, count_snoc, ← Int.add_assoc]
    by_cases hname : song = name
    · rw [if_pos hname, if_pos hname]
      exact (h.sum name).add hv
    · rw [if_neg hname, if_neg hname, Int.add_zero, Int.add_zero]
      exact h.sum name
  · intro name hrecords hle
    rw [count_snoc] at hle ⊢
    obtain ⟨hsame, hnonneg⟩ := h.exact name hrecords (by split at hle <;> omega)
    refine ⟨?_, hpos name hnonneg ?_⟩
    · rw [hsum, hsame]
      by_cases hname : song = name
      · subst hname
        rw [if_pos rfl] at hle ⊢
        rw [if_pos rfl, hexact hnonneg (by omega)]
        omega
      · rw [if_neg hname, if_neg hname]
        omega
    · intro hname
      rw [if_pos hname] at hle
      omega

theorem ledger_insert (h : Ledger records credited objects) (song : String) :
    Ledger records (credited ++ [song]) (objects ++ [newSong song]) := by
  refine ledger_next (v := 1) h ?_ ?_ Int.ModEq.rfl (fun _ _ => rfl) ?_
  · rw [List.map_append]
    exact List.prefix_append _ _
  · intro name
    rw [skipTotal, total_append, skipTotal]
    congr 1
    by_cases hname : song = name
    · rw [if_pos (show (newSong song).name = some name from congrArg some hname), if_pos hname]
      rfl
    · rw [if_neg (show (newSong song).name ≠ some name from
        fun heq => hname (Option.some.inj heq)), if_neg hname]
  · intro name hnonneg _ r hr hname
    rcases List.mem_append.mp hr with hold | hlast
    · exact hnonneg r hold hname
    · rw [List.mem_singleton.mp hlast]
      exact (by decide : (0 : Int) ≤ (1 : Int32).toInt)

theorem ledger_countUp (h : Ledger records credited objects) {k : Nat} {r : Entity}
    (hr : objects[k]? = some r) (hname : r.name = some song) :
    Ledger records (credited ++ [song]) (objects.modify k (skipAgain r.skip.toInt)) := by
  have hmem : r ∈ objects := List.mem_of_getElem? hr
  -- below the end of the 32 bits, counting up is exact
  have hone : skipTotal objects song < 2147483647 →
      (∀ r ∈ objects, r.name = some song → 0 ≤ r.skip.toInt) →
      (skipAgain r.skip.toInt r).skip.toInt = r.skip.toInt + 1 := by
    intro hlt hnonneg
    have hle := skip_le_total hnonneg hmem hname
    exact toInt_ofInt_counted r.skip 1 (by omega)
  refine ledger_next (v := (skipAgain r.skip.toInt r).skip.toInt - r.skip.toInt) h ?_ ?_ ?_ ?_ ?_
  · have hsame : (objects.modify k (skipAgain r.skip.toInt)).map Entity.name
        = objects.map Entity.name := map_key_modify fun _ _ => rfl
    exact hsame ▸ List.prefix_rfl
  · intro name
    rw [skipTotal, total_modify hr rfl, skipTotal, hname]
    congr 1
    by_cases hsong : song = name
    · rw [if_pos (congrArg some hsong), if_pos hsong]
    · rw [if_neg fun heq => hsong (Option.some.inj heq), if_neg hsong]
  · have hdiff := (toInt_skipAgain r).sub_right r.skip.toInt
    rwa [show r.skip.toInt + 1 - r.skip.toInt = 1 by omega] at hdiff
  · intro hnonneg hlt
    rw [hone hlt hnonneg]
    omega
  · intro name hnonneg hbound r' hr' hname'
    obtain ⟨j, hj⟩ := List.mem_iff_getElem?.mp hr'
    rw [List.getElem?_modify] at hj
    obtain ⟨old, hold, hnew⟩ := Option.map_eq_some_iff.mp hj
    by_cases hkj : k = j
    · -- the record that was counted up; the bound rules a wrap out
      subst hkj
      obtain rfl : r = old := Option.some.inj (hr.symm.trans hold)
      rw [if_pos rfl] at hnew
      subst hnew
      obtain rfl : song = name := Option.some.inj (hname.symm.trans hname')
      rw [hone (hbound rfl) hnonneg]
      have := hnonneg r hmem hname
      omega
    · rw [if_neg hkj] at hnew
      exact hnonneg r' (hnew ▸ List.mem_of_getElem? hold) hname'

/-- **One update, one more in the sum**, whatever the fetch does: it inserts a
    record that counts one, or it counts one record up. -/
theorem recordSkip_ledger {musicList : List String} {currentMusicIndex : Int}
    {order : Option FetchOrder} {saved : Bool} {c c' : ManagedObjectContext}
    (h : Ledger records credited c.objects)
    (hc : recordSkip musicList currentMusicIndex order saved c = .ok c') :
    ∃ song, subscript musicList currentMusicIndex = some song ∧
      Ledger records (credited ++ [song]) c'.objects := by
  obtain ⟨song, hsong, rfl | ⟨k, r, hr, hname, rfl⟩⟩ := recordSkip_ok hc
  · rw [save_objects, insert_objects]
    exact ⟨song, hsong, ledger_insert h song⟩
  · rw [save_objects, setValues_objects]
    exact ⟨song, hsong, ledger_countUp h hr hname⟩

/-- A store update that traps has changed nothing, or it has inserted a record
    without a name. -/
theorem recordSkip_trap_cases {musicList : List String} {currentMusicIndex : Int}
    {order : Option FetchOrder} {saved : Bool} {c c' : ManagedObjectContext} {t : Trap}
    (hc : recordSkip musicList currentMusicIndex order saved c = .trap t c') :
    c' = c ∨ c' = c.insert {} := by
  have hnew : storeSkip musicList currentMusicIndex saved {} c = .trap t c' →
      c' = c.insert {} := by
    intro hstore
    rw [storeSkip_new] at hstore
    cases hs : subscript musicList currentMusicIndex with
    | none =>
        rw [hs] at hstore
        cases hstore
        rfl
    | some song =>
        rw [hs] at hstore
        cases hstore
  cases order with
  | none => exact Or.inr (hnew hc)
  | some o =>
      rw [recordSkip_fetch] at hc
      cases hscan : scan musicList currentMusicIndex (o.arrange c.objects.zipIdx) {} with
      | error t' =>
          rw [hscan] at hc
          cases hc
          exact Or.inl rfl
      | ok v =>
          rw [hscan] at hc
          rcases scan_ok hscan with rfl | ⟨⟨r, k⟩, -, song, -, -, rfl⟩
          · exact Or.inr (hnew hc)
          · cases hc

/-- A record without a name adds to no song. -/
theorem ledger_unnamed (h : Ledger records credited objects) :
    Ledger records credited (objects ++ [({} : Entity)]) := by
  have hsum : ∀ name, skipTotal (objects ++ [({} : Entity)]) name = skipTotal objects name := by
    intro name
    rw [skipTotal, total_append, if_neg (fun heq => nomatch heq), Int.add_zero]
    rfl
  refine ⟨?_, fun name => hsum name ▸ h.sum name, ?_⟩
  · rw [List.map_append]
    exact h.names.trans (List.prefix_append _ _)
  · intro name hrecords hle
    obtain ⟨hsame, hnonneg⟩ := h.exact name hrecords hle
    refine ⟨(hsum name).trans hsame, ?_⟩
    intro r hr hname
    rcases List.mem_append.mp hr with hold | hlast
    · exact hnonneg r hold hname
    · rw [List.mem_singleton.mp hlast] at hname
      cases hname

end Updates

/-! ## Runs of the panel -/

variable {env : Environment} {s : Panel} {e : Event}

/-- The song an event credits: a press whose store update goes through credits
    the current one. -/
def creditedSong (s : Panel) : Event → Option String
  | .skip press | .key press =>
      match s.skipUpdate press with
      | .ok _ => s.currentSong
      | .trap _ _ => none
  | _ => none

theorem Event.Presses.creditedSong_eq {press : SkipPress} (he : e.Presses press) (s : Panel) :
    creditedSong s e = match s.skipUpdate press with
      | .ok _ => s.currentSong
      | .trap _ _ => none := by
  rcases he with rfl | rfl
  · rfl
  · rfl

theorem creditedSong_other (s : Panel) (hpress : ¬ ∃ press, e.Presses press) :
    creditedSong s e = none := by
  cases e with
  | skip press => exact absurd ⟨press, Or.inl rfl⟩ hpress
  | key press => exact absurd ⟨press, Or.inr rfl⟩ hpress
  | _ => rfl

theorem loadCurrent_context (env : Environment) (s : Panel) :
    (loadCurrent env s).state.context = s.context := by
  cases hurl : s.currentURL env with
  | none => rw [loadCurrent_none hurl, Outcome.state_trap]
  | some url => rw [loadCurrent_eq hurl, Outcome.state_ok, (settled_keeps env url s).2.2]

/-- No other event touches the records, however it ends. -/
theorem step_context_other (env : Environment) (s : Panel)
    (hpress : ∀ press, ¬ e.Presses press) : (step env s e).state.context = s.context := by
  cases e with
  | selection row =>
      rw [step]
      by_cases hrow : -1 ≤ row ∧ row < s.musicList.length
      · rw [if_pos hrow, selectRow]
        by_cases hsel : s.selectedRow = row
        · rw [if_pos hsel, Outcome.state_ok]
        · rw [if_neg hsel]
          cases hurl : (s.toSelection row).currentURL env with
          | none =>
              rw [tableViewSelectionDidChange_none (s := { s with selectedRow := row }) hurl]
              rfl
          | some url =>
              rw [tableViewSelectionDidChange_some (s := { s with selectedRow := row }) hurl]
              show (loadPlayMusic env env.stack url (s.toSelection row)).state.context = s.context
              rw [loadPlayMusic_eq env.stack_holds hurl, Outcome.state_ok,
                (settled_keeps env url (s.toSelection row)).2.2]
              rfl
      · rw [if_neg hrow, Outcome.state_ok]
  | previous =>
      rw [step_of_entry (m := s.toPrevious) rfl, loadCurrent_context]
      rfl
  | skip press => exact absurd (Or.inl rfl) (hpress press)
  | key press => exact absurd (Or.inr rfl) (hpress press)
  | play => exact (playBtnTouched_idle s).context
  | trackEnds k => rfl
  | trackAdvances k time => rfl
  | progressWakes =>
      rw [step]
      by_cases hblocks : s.progressBlocks = 0
      · rw [if_pos hblocks, Outcome.state_ok]
      · rw [if_neg hblocks, Outcome.state_ok]
  | tick =>
      rw [step]
      by_cases hposted : s.postedTicks = 0
      · rw [if_pos hposted, Outcome.state_ok]
      · rw [if_neg hposted, showProgress]
        split
        · rfl
        · rfl

/-- **Everything an event can do to the records**, however it ends: make the
    store update of a press; or leave them alone; or insert one without a name,
    and trap. -/
theorem step_credits (env : Environment) (s : Panel) (e : Event) :
    (∃ press c, e.Presses press ∧ s.skipUpdate press = .ok c ∧
      creditedSong s e = s.currentSong ∧ (step env s e).state.context = c) ∨
    (creditedSong s e = none ∧ (step env s e).state.context = s.context) ∨
    (creditedSong s e = none ∧ (step env s e).state.context = s.context.insert {} ∧
      ∃ t s', step env s e = .trap t s') := by
  by_cases hpress : ∃ press, e.Presses press
  · obtain ⟨press, he⟩ := hpress
    rw [he.creditedSong_eq]
    cases hc : s.skipUpdate press with
    | ok c => exact Or.inl ⟨press, c, he, hc, rfl, he.step_context env hc⟩
    | trap t c =>
        have hstep : step env s e = .trap t { s.stop with context := c } := by
          rw [he.step_eq, skipBtnTouched_eq, hc]
        rw [hstep, Outcome.state_trap]
        rcases recordSkip_trap_cases hc with rfl | rfl
        · exact Or.inr (Or.inl ⟨rfl, rfl⟩)
        · exact Or.inr (Or.inr ⟨rfl, rfl, t, _, rfl⟩)
  · exact Or.inr (Or.inl ⟨creditedSong_other s hpress,
      step_context_other env s fun press he => hpress ⟨press, he⟩⟩)

/-- One event of the panel, however it ends, credits at most one song in the
    ledger. -/
theorem step_ledger {records : List Entity} {credited : List String}
    (h : Ledger records credited s.context.objects) :
    Ledger records (credited ++ (creditedSong s e).toList)
      (step env s e).state.context.objects := by
  rcases step_credits env s e with ⟨press, c, -, hc, hsong, hcontext⟩ | ⟨hnone, hcontext⟩ |
      ⟨hnone, hcontext, -⟩
  · obtain ⟨song, hcurrent, hnext⟩ := recordSkip_ledger h hc
    rw [hcontext, hsong, show s.currentSong = some song from hcurrent]
    exact hnext
  · rw [hcontext, hnone, Option.toList_none, List.append_nil]
    exact h
  · rw [hcontext, hnone, Option.toList_none, List.append_nil]
    exact ledger_unnamed h

/-- The ledger of a run, however it ends. -/
theorem run_ledger (env : Environment) (contents : List String) (records : List Entity)
    (es : List Event) :
    Ledger records (observed (step env) creditedSong (viewDidLoad contents records) es)
      (run (step env) (viewDidLoad contents records) es).state.context.objects := by
  have h : Ledger records
      ([] ++ observed (step env) creditedSong (viewDidLoad contents records) es)
      (run (step env) (viewDidLoad contents records) es).state.context.objects :=
    run_observes_state
      (R := fun credited (m : Panel) => Ledger records credited m.context.objects)
      (F := fun _ => True) (fun _ _ _ _ => step_ledger) (fun _ _ => trivial)
      (ledger_opened records)
  rwa [List.nil_append] at h

/-- **No skip is lost or counted twice**: in every run, whatever its fetches and
    saves do and whether or not it ends in a trap, the records of the beginning
    are all there under their names, and the counts of a song, over all records
    with its name, add up to what they were and one for each skip of it: in
    32 bits, and exactly where no count is negative and the sum fits. -/
theorem skip_total_conserved (env : Environment) (contents : List String)
    (records : List Entity) (es : List Event) :
    records.map Entity.name
      <+: (run (step env) (viewDidLoad contents records) es).state.context.objects.map
        Entity.name ∧
    ∀ name n, n = (observed (step env) creditedSong (viewDidLoad contents records) es).count name →
      skipTotal (run (step env) (viewDidLoad contents records) es).state.context.objects name
          ≡ skipTotal records name + n [ZMOD 4294967296] ∧
        ((∀ r ∈ records, r.name = some name → 0 ≤ r.skip.toInt) →
          skipTotal records name + n ≤ 2147483647 →
          skipTotal (run (step env) (viewDidLoad contents records) es).state.context.objects name
            = skipTotal records name + n) := by
  have h := run_ledger env contents records es
  refine ⟨h.names, ?_⟩
  rintro name n rfl
  exact ⟨h.sum name, fun hpos hle => (h.exact name hpos hle).1⟩

end Mac3amPanel
