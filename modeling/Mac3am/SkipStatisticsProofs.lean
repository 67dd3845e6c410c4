import Mac3am.NavigationProofs

/-! # The skip statistics over whole runs

    Counting is a read, a scan and a write over an unordered fetched list.
    `Tally` says what the context holds after a history of skips: every name
    once, every song's record counted up from where it began, every other
    record as it was.

    * `recordSkip_tally` — one update adds one to one song;
    * `skip_statistics` — so the statistics are exact over every run, in the
      32 bits of the attribute, and durable through the quit path;
    * `failed_fetch_iff` — what a fetch that throws does to all of it. -/

namespace Mac3amPanel

open Swift TrapRun KeyedTable Mac3amStore

/-- The skip value a store begins with; a song without a record counts from 0. -/
def initialSkip (records : List Entity) (name : String) : Int :=
  match table Entity.name records (some name) with
  | none => 0
  | some r => r.skip.toInt

/-- The context after the songs in `skipped` were skipped, starting from
    `records`. -/
structure Tally (records : List Entity) (skipped : List String) (c : ManagedObjectContext) :
    Prop where
  named : Named c.objects
  unique : Unique Entity.name c.objects
  untouched : ∀ name, skipped.count name = 0 →
    table Entity.name c.objects (some name) = table Entity.name records (some name)
  counted : ∀ name, 0 < skipped.count name →
    ∃ r, table Entity.name c.objects (some name) = some r ∧
      r.skip = Int32.ofInt (initialSkip records name + skipped.count name)
  saved : c.hasChanges = false → c.stored = c.objects

theorem tally_opened {records : List Entity} (hn : Named records)
    (hu : Unique Entity.name records) : Tally records [] (.opened records) where
  named := hn
  unique := hu
  untouched := fun _ _ => rfl
  counted := fun name hpos => absurd hpos (by simp)
  saved := fun _ => rfl

section Tallying

variable {records : List Entity} {skipped : List String} {musicList : List String}
  {currentMusicIndex : Int} {song : String} {c c' : ManagedObjectContext}

/-- The record a skip leaves, counted from the beginning of the history. -/
theorem Tally.bump_skip (h : Tally records skipped c) :
    (bump song (table Entity.name c.objects (some song))).skip
      = Int32.ofInt (initialSkip records song + skipped.count song + 1) := by
  rcases Nat.eq_zero_or_pos (skipped.count song) with hzero | hpos
  · rw [h.untouched song hzero, hzero, initialSkip]
    cases table Entity.name records (some song) with
    | none => rfl
    | some r =>
        show Int32.ofInt (r.skip.toInt + 1) = _
        rw [Int.natCast_zero, Int.add_zero]
  · obtain ⟨r, hr, hskip⟩ := h.counted song hpos
    rw [hr]
    show Int32.ofInt (r.skip.toInt + 1) = _
    rw [Int32.ofInt_add, Int32.ofInt_toInt, hskip, ← Int32.ofInt_add]

/-- **One update, one count**: after a fetch that works, in any order, the
    record of the current song counts one more and no other record changes. -/
theorem recordSkip_tally (h : Tally records skipped c)
    (hs : subscript musicList currentMusicIndex = some song) (o : FetchOrder) (saved : Bool) :
    ∃ c', recordSkip musicList currentMusicIndex (some o) saved c = .ok c' ∧
      Tally records (skipped ++ [song]) c' ∧ (saved = true → c'.stored = c'.objects) := by
  obtain ⟨c₁, hc₁, hchanged, -, hunique, htable⟩ :=
    recordSkip_fetched hs h.named h.unique o saved
  have hobjects : (c₁.save saved).objects = c₁.objects := save_objects
  have hself : (skipped ++ [song]).count song = skipped.count song + 1 := by
    rw [List.count_append, List.count_singleton_self]
  have hother : ∀ name, name ≠ song → (skipped ++ [song]).count name = skipped.count name := by
    intro name hne
    have habsent : [song].count name = 0 := List.count_eq_zero_of_not_mem (by simpa using hne)
    rw [List.count_append, habsent, Nat.add_zero]
  have htable' : ∀ name, name ≠ song →
      table Entity.name c₁.objects (some name) = table Entity.name c.objects (some name) := by
    intro name hne
    rw [htable, Function.update_of_ne (fun heq => hne (Option.some.inj heq))]
  refine ⟨c₁.save saved, hc₁, ⟨?_, ?_, ?_, ?_, ?_⟩, ?_⟩
  · exact recordSkip_named hc₁ h.named
  · rw [hobjects]
    exact hunique
  · intro name hzero
    have hne : name ≠ song := by
      rintro rfl
      omega
    rw [hobjects, htable' name hne]
    exact h.untouched name (by rw [← hother name hne, hzero])
  · -- the current song counts one more, the others as before
    intro name hpos
    rw [hobjects]
    by_cases hne : name = song
    · subst hne
      refine ⟨_, by rw [htable, Function.update_self], ?_⟩
      rw [h.bump_skip, hself]
      congr 1
      omega
    · rw [htable' name hne, hother name hne]
      exact h.counted name (by rw [← hother name hne]; exact hpos)
  · -- without changes the last save has worked
    intro hunchanged
    cases saved with
    | true => rfl
    | false => cases hchanged.symm.trans hunchanged
  · rintro rfl
    rfl

end Tallying

/-! ## Statistics over runs of the panel -/

variable {env : Environment} {s s' : Panel} {e : Event}

/-- The song a skip counts. -/
def skippedSong (s : Panel) : Event → Option String
  | .skip _ | .key _ => s.currentSong
  | _ => none

/-- The fetch of the event, where it makes one, works. -/
def Fetches (e : Event) : Prop := ∀ press, e.Presses press → press.order ≠ none

theorem Event.Presses.skippedSong_eq {press : SkipPress} (he : e.Presses press) (s : Panel) :
    skippedSong s e = s.currentSong := by
  rcases he with rfl | rfl
  · rfl
  · rfl

/-- One event of the panel adds the song it skips, if it skips one. -/
theorem step_tally {records : List Entity} {skipped : List String} (hf : Fetches e)
    (h : Tally records skipped s.context) (hstep : step env s e = .ok s') :
    Tally records (skipped ++ (skippedSong s e).toList) s'.context := by
  by_cases hpress : ∃ press, e.Presses press
  · obtain ⟨press, he⟩ := hpress
    obtain ⟨c, hc⟩ := he.skipUpdate_ok hstep
    obtain ⟨song, hsong, -⟩ := recordSkip_ok hc
    obtain ⟨o, ho⟩ := Option.ne_none_iff_exists'.mp (hf press he)
    obtain ⟨c', hc', htally, -⟩ := recordSkip_tally h hsong o press.saved
    have hcc : c = c' := by
      rw [Panel.skipUpdate, ho, hc'] at hc
      exact (Outcome.ok.inj hc).symm
    have hcontext : s'.context = c := by
      rw [← he.step_context env hc, hstep, Outcome.state_ok]
    rw [hcontext, hcc, he.skippedSong_eq, show s.currentSong = some song from hsong]
    exact htally
  · -- no other event touches the context
    have hnone : skippedSong s e = none := by
      cases e with
      | skip press => exact absurd ⟨press, Or.inl rfl⟩ hpress
      | key press => exact absurd ⟨press, Or.inr rfl⟩ hpress
      | _ => rfl
    have hcontext : s'.context = s.context := by
      rcases step_cases hstep with ⟨m, url, hentry, -, rfl⟩ | ⟨-, hidle⟩
      · rw [(settled_keeps env url m).2.2]
        rcases entry_cases hentry with ⟨row, -, -, -, -, rfl⟩ | ⟨-, rfl⟩ | ⟨press, c, he, -, -⟩
        · rfl
        · rfl
        · exact absurd ⟨press, he⟩ hpress
      · exact hidle.context
    rw [hcontext, hnone, Option.toList_none, List.append_nil]
    exact h

/-- A sum of 32 bits that does not overflow. -/
theorem toInt_ofInt_counted (r : Int32) (n : Nat) (hle : r.toInt + n ≤ 2147483647) :
    (Int32.ofInt (r.toInt + n)).toInt = r.toInt + n := by
  have hlow := r.le_toInt
  exact Int32.toInt_ofInt_of_le (by omega) (by omega)

/-- **Skip statistics are exact, unique and durable**: over every run whose
    fetches work, in any order, whatever the saves do, each skip leaves one
    record per name; the record of a song holds, in its 32 bits, the initial
    value plus the number of skips; the record of a song never skipped is
    untouched; a successful save stores all of it; and quitting loses changes
    only by the answer to the alert about a failed save. -/
theorem skip_statistics (env : Environment) (contents : List String) (records : List Entity)
    (hn : Named records) (hu : Unique Entity.name records) {es : List Event} {s : Panel}
    (hf : ∀ e ∈ es, Fetches e)
    (hrun : run (step env) (viewDidLoad contents records) es = .ok s) :
    (∀ e press song, e.Presses press → press.order ≠ none → s.currentSong = some song →
      ∃ c', s.skipUpdate press = .ok c' ∧ (step env s e).state.context = c' ∧
        Unique Entity.name c'.objects ∧
        (∀ name, ∀ n, n = (observed (step env) skippedSong (viewDidLoad contents records)
            (es ++ [e])).count name →
          (n = 0 →
            table Entity.name c'.objects (some name) = table Entity.name records (some name)) ∧
          (0 < n → ∃ r, table Entity.name c'.objects (some name) = some r ∧
            r.skip = Int32.ofInt (initialSkip records name + n) ∧
            (initialSkip records name + n ≤ 2147483647 →
              r.skip.toInt = initialSkip records name + n))) ∧
        (press.saved = true → c'.stored = c'.objects)) ∧
    (∀ q : QuitAnswers,
      ((applicationShouldTerminate q s.context).1 = .terminateNow →
        (applicationShouldTerminate q s.context).2.stored
            = (applicationShouldTerminate q s.context).2.objects ∨
          (q.saved = false ∧ q.presentError = false ∧
            q.runModal ≠ .alertSecondButtonReturn)) ∧
      ((applicationShouldTerminate q s.context).1 = .terminateCancel →
        (applicationShouldTerminate q s.context).2 = s.context)) := by
  -- the history rule carries the tally over the run, the last event apart
  have htally : Tally records
      ([] ++ observed (step env) skippedSong (viewDidLoad contents records) es) s.context :=
    run_observes (R := fun skipped m => Tally records skipped m.context) (F := Fetches)
      (fun _ _ _ _ hfetch h hstep => step_tally hfetch h hstep) hf (tally_opened hn hu) hrun
  rw [List.nil_append] at htally
  constructor
  · intro e press song he horder hsong
    obtain ⟨o, ho⟩ := Option.ne_none_iff_exists'.mp horder
    obtain ⟨c', hc', hnext, hsaved⟩ := recordSkip_tally htally hsong o press.saved
    have hupd : s.skipUpdate press = .ok c' := by
      rw [Panel.skipUpdate, ho, hc']
    have hseen : observed (step env) skippedSong (viewDidLoad contents records) (es ++ [e])
        = observed (step env) skippedSong (viewDidLoad contents records) es ++ [song] := by
      rw [observed_snoc hrun, he.skippedSong_eq, hsong, Option.toList_some]
    refine ⟨c', hupd, he.step_context env hupd, hnext.unique, ?_, hsaved⟩
    intro name n hcount
    rw [hseen] at hcount
    subst hcount
    refine ⟨hnext.untouched name, ?_⟩
    intro hpos
    obtain ⟨r, hr, hskip⟩ := hnext.counted name hpos
    refine ⟨r, hr, hskip, ?_⟩
    intro hle
    rw [hskip]
    rw [initialSkip] at hle ⊢
    cases htable : table Entity.name records (some name) with
    | none =>
        rw [htable] at hle
        exact toInt_ofInt_counted 0 _ hle
    | some r₀ =>
        rw [htable] at hle
        exact toInt_ofInt_counted r₀.skip _ hle
  · intro q
    exact applicationShouldTerminate_spec q htally.saved

/-- A playlist of three songs: a skip whose save fails, then one whose save
    works, on the song that moves off the playlist. -/
theorem skip_statistics_three_songs :
    ∃ s c', run (step (.plain fun _ _ => true))
        (viewDidLoad ["one", "two", "three"] [{ name := some "three", skip := 4 }])
        [.skip ⟨some .reversed, false, false⟩] = .ok s ∧
      s.skipUpdate ⟨some .inserted, true, false⟩ = .ok c' ∧
      Unique Entity.name c'.objects ∧ c'.stored = c'.objects := by
  have hf : ∀ e ∈ [Event.skip ⟨some .reversed, false, false⟩], Fetches e := by
    intro e he press hpress
    rw [List.mem_singleton.mp he] at hpress
    rcases hpress with h | h
    · cases h
      exact Option.some_ne_none _
    · cases h
  obtain ⟨c', hc', -, hunique, -, hsaved⟩ :=
    (skip_statistics (.plain fun _ _ => true) ["one", "two", "three"]
      [{ name := some "three", skip := 4 }] (by decide) (by decide) hf rfl).1
      (.skip ⟨some .inserted, true, false⟩) ⟨some .inserted, true, false⟩ "three" (Or.inl rfl)
      (Option.some_ne_none _) rfl
  exact ⟨_, c', rfl, hc', hunique, hsaved rfl⟩

/-- The attribute has 32 bits: a record at their end is skipped once more and
    holds the least value instead of the sum. -/
theorem skip_wraps_at_int32_max :
    ∃ c', (viewDidLoad ["one", "two"] [{ name := some "one", skip := 2147483647 }]).skipUpdate
        ⟨some .inserted, true, false⟩ = .ok c' ∧
      ∃ r, table Entity.name c'.objects (some "one") = some r ∧
        r.skip.toInt = -2147483648 ∧ r.skip.toInt ≠ 2147483647 + 1 :=
  ⟨_, rfl, _, rfl, rfl, by decide⟩

/-! ## A fetch that throws -/

/-- No name occurs in two records. -/
def NamesUnique (objects : List Entity) : Prop := (objects.filterMap Entity.name).Nodup

instance (objects : List Entity) : Decidable (NamesUnique objects) :=
  inferInstanceAs (Decidable (objects.filterMap Entity.name).Nodup)

theorem namesUnique_iff {objects : List Entity} (hn : Named objects) :
    NamesUnique objects ↔ Unique Entity.name objects := by
  have hnames : objects.map Entity.name = (objects.filterMap Entity.name).map some := by
    induction objects with
    | nil => rfl
    | cons r rest ih =>
        obtain ⟨name, hname⟩ := Option.ne_none_iff_exists'.mp (hn r List.mem_cons_self)
        rw [List.map_cons, List.filterMap_cons_some hname, List.map_cons, hname,
          ih fun r' hr' => hn r' (List.mem_cons_of_mem _ hr')]
  rw [KeyedTable.Unique, hnames, List.nodup_map_iff (Option.some_injective String)]
  exact Iff.rfl

/-- A later skip of some song, whose fetch works. -/
structure LaterSkip where
  currentMusicIndex : Int
  order : FetchOrder
  saved : Bool

/-- The store update of a later skip. -/
def skipStep (musicList : List String) (c : ManagedObjectContext) (later : LaterSkip) :
    Outcome Trap ManagedObjectContext :=
  recordSkip musicList later.currentMusicIndex (some later.order) later.saved c

/-- The song a later skip counts. -/
def laterSong (musicList : List String) (_ : ManagedObjectContext) (later : LaterSkip) :
    Option String :=
  subscript musicList later.currentMusicIndex

/-- After a fetch that throws, the context holds what it held and one more
    record of the song. -/
theorem failed_fetch_objects {musicList : List String} {i : Int} {song : String} {saved : Bool}
    {c c' : ManagedObjectContext} (hs : subscript musicList i = some song)
    (hc' : recordSkip musicList i none saved c = .ok c') :
    c' = (c.insert (newSong song)).save saved ∧ c'.objects = c.objects ++ [newSong song] := by
  rw [recordSkip_failed hs] at hc'
  cases hc'
  exact ⟨rfl, by rw [save_objects, insert_objects]⟩

/-- Where the song had no record, the history starts again from the new one. -/
theorem failed_fetch_tally {musicList : List String} {i : Int} {song : String} {saved : Bool}
    {c c' : ManagedObjectContext} (hs : subscript musicList i = some song)
    (hn : Named c.objects) (hu : NamesUnique c.objects)
    (hfresh : ∀ r ∈ c.objects, r.name ≠ some song)
    (hc' : recordSkip musicList i none saved c = .ok c') :
    Tally c'.objects [] c' ∧ initialSkip c'.objects song = 1 := by
  obtain ⟨hsave, hobjects⟩ := failed_fetch_objects hs hc'
  have hkeys : (newSong song).name ∉ c.objects.map Entity.name := by
    intro hmem
    obtain ⟨r, hr, hname⟩ := List.mem_map.mp hmem
    exact hfresh r hr hname
  have hunique := (namesUnique_iff hn).mp hu
  refine ⟨⟨?_, ?_, fun _ _ => rfl, fun name hpos => absurd hpos (by simp), ?_⟩, ?_⟩
  · rw [hobjects]
    exact named_append hn (Option.some_ne_none song)
  · rw [hobjects]
    exact unique_append hunique hkeys
  · rw [hsave]
    intro hunchanged
    cases saved with
    | true => rfl
    | false => cases hunchanged
  · have htable : table Entity.name c'.objects (some song) = some (newSong song) := by
      rw [hobjects]
      exact table_append_self hkeys
    rw [initialSkip, htable]
    rfl

/-- The statistics over a run of later skips. -/
theorem later_tally {musicList : List String} {records : List Entity}
    {c c' : ManagedObjectContext} {later : List LaterSkip} (h : Tally records [] c)
    (hrun : run (skipStep musicList) c later = .ok c') :
    Tally records (observed (skipStep musicList) (laterSong musicList) c later) c' := by
  have hstep : ∀ skipped c₀ e c₁, True → Tally records skipped c₀ →
      skipStep musicList c₀ e = .ok c₁ →
      Tally records (skipped ++ (laterSong musicList c₀ e).toList) c₁ := by
    intro skipped c₀ e c₁ _ h₀ hc₁
    obtain ⟨song, hsong, -⟩ := recordSkip_ok hc₁
    obtain ⟨c₂, hc₂, htally, -⟩ := recordSkip_tally h₀ hsong e.order e.saved
    obtain rfl : c₁ = c₂ := Outcome.ok.inj (hc₁.symm.trans hc₂)
    rw [laterSong, hsong, Option.toList_some]
    exact htally
  have htally := run_observes (F := fun _ => True) hstep (fun _ _ => trivial) h hrun
  rwa [List.nil_append] at htally

/-- **What a fetch that throws does**: the statistics come through it, names
    unique, no value smaller, no later skip counting from below, exactly when
    the song had no record yet; and then every later skip counts on from the
    new record. -/
theorem failed_fetch_iff (musicList : List String) (i : Int) (song : String)
    (hs : subscript musicList i = some song) (saved : Bool) (c : ManagedObjectContext)
    (hu : NamesUnique c.objects) :
    ((∃ c', recordSkip musicList i none saved c = .ok c' ∧ NamesUnique c'.objects ∧
        (∀ (k : Nat) (r : Entity), c.objects[k]? = some r →
          ∃ r', c'.objects[k]? = some r' ∧ r'.name = r.name ∧ r.skip ≤ r'.skip) ∧
        ∀ r ∈ c.objects, r.name = some song →
          ∀ later c'', run (skipStep musicList) c' later = .ok c'' →
            ∀ next c₃, subscript musicList next.currentMusicIndex = some song →
              skipStep musicList c'' next = .ok c₃ →
              ∀ (k : Nat) (old new : Entity), c''.objects[k]? = some old →
                c₃.objects[k]? = some new → new ≠ old → r.skip ≤ old.skip) ↔
      ∀ r ∈ c.objects, r.name ≠ some song) ∧
    (Named c.objects → (∀ r ∈ c.objects, r.name ≠ some song) →
      ∀ c', recordSkip musicList i none saved c = .ok c' →
        ∀ later c'', run (skipStep musicList) c' later = .ok c'' →
          ∃ r, table Entity.name c''.objects (some song) = some r ∧
            r.skip = Int32.ofInt (1 +
              (observed (skipStep musicList) (laterSong musicList) c' later).count song)) := by
  constructor
  · constructor
    · -- a record of the song and the inserted one share their name
      rintro ⟨c', hc', hunique, -⟩ r hr hname
      obtain ⟨-, hobjects⟩ := failed_fetch_objects hs hc'
      rw [NamesUnique, hobjects, List.filterMap_append] at hunique
      have hmem : song ∈ c.objects.filterMap Entity.name := List.mem_filterMap.mpr ⟨r, hr, hname⟩
      exact List.disjoint_of_nodup_append hunique hmem (List.mem_singleton.mpr rfl)
    · intro hfresh
      refine ⟨_, recordSkip_failed hs, ?_, ?_, ?_⟩
      · rw [save_objects, insert_objects, NamesUnique, List.filterMap_append]
        refine List.Nodup.append hu (List.nodup_singleton song) ?_
        refine List.disjoint_singleton.mpr ?_
        intro hmem
        obtain ⟨r, hr, hname⟩ := List.mem_filterMap.mp hmem
        exact hfresh r hr hname
      · intro k r hr
        refine ⟨r, ?_, rfl, Int32.le_refl r.skip⟩
        rw [save_objects, insert_objects,
          List.getElem?_append_left (List.getElem?_eq_some_iff.mp hr).1, hr]
      · intro r hr hname
        exact absurd hname (hfresh r hr)
  · intro hn hfresh c' hc' later c'' hrun
    obtain ⟨hstart, hone⟩ := failed_fetch_tally hs hn hu hfresh hc'
    have htally := later_tally hstart hrun
    -- before the first later skip the new record still holds its 1
    rcases Nat.eq_zero_or_pos
      ((observed (skipStep musicList) (laterSong musicList) c' later).count song) with hzero | hpos
    · have htable := htally.untouched song hzero
      rw [hzero]
      cases hr : table Entity.name c'.objects (some song) with
      | none =>
          rw [initialSkip, hr] at hone
          cases hone
      | some r =>
          rw [initialSkip, hr] at hone
          have hvalue : r.skip.toInt = 1 := hone
          refine ⟨r, htable.trans hr, ?_⟩
          rw [← Int32.ofInt_toInt r.skip, hvalue]
          rfl
    · obtain ⟨r, hr, hskip⟩ := htally.counted song hpos
      exact ⟨r, hr, by rw [hskip, hone]⟩

/-- A first skip of a song, its fetch throwing, on a store with another one; two
    later skips of the song count it up to 3. -/
theorem failed_fetch_iff_fresh :
    ∃ c' c'' r, recordSkip ["one", "two"] 0 none true (.opened [{ name := some "two", skip := 5 }])
        = .ok c' ∧ NamesUnique c'.objects ∧
      run (skipStep ["one", "two"]) c' [⟨0, .reversed, true⟩, ⟨0, .inserted, false⟩] = .ok c'' ∧
      table Entity.name c''.objects (some "one") = some r ∧ r.skip = 3 := by
  obtain ⟨hiff, hlater⟩ := failed_fetch_iff ["one", "two"] 0 "one" rfl true
    (.opened [{ name := some "two", skip := 5 }]) (by decide)
  obtain ⟨c', hc', hunique, -⟩ := hiff.mpr (by decide)
  have hrun : ∃ c'', run (skipStep ["one", "two"]) c' [⟨0, .reversed, true⟩, ⟨0, .inserted, false⟩]
        = .ok c'' ∧ (observed (skipStep ["one", "two"]) (laterSong ["one", "two"]) c'
          [⟨0, .reversed, true⟩, ⟨0, .inserted, false⟩]).count "one" = 2 := by
    cases hc'
    exact ⟨_, rfl, rfl⟩
  obtain ⟨c'', hrun, hcount⟩ := hrun
  obtain ⟨r, hr, hskip⟩ := hlater (by decide) (by decide) c' hc' _ c'' hrun
  refine ⟨c', c'', r, hc', hunique, hrun, hr, ?_⟩
  rw [hskip, hcount]
  rfl

/-- A song counted 5 times, then skipped with a fetch that throws: two records
    have its name, and the next skip, fetching them in the order they were
    inserted, counts the new one from 1 to 2. -/
theorem failed_fetch_restarts_count :
    ∃ c' c'', recordSkip ["one", "two"] 0 none true (.opened [{ name := some "one", skip := 5 }])
        = .ok c' ∧
      ¬ NamesUnique c'.objects ∧
      skipStep ["one", "two"] c' ⟨0, .inserted, true⟩ = .ok c'' ∧
      c'.objects[1]? = some { name := some "one", skip := 1, emotion := some "testEmotion" } ∧
      c''.objects[1]? = some { name := some "one", skip := 2, emotion := some "testEmotion2" } ∧
      ¬ (5 : Int32) ≤ 1 := by
  exact ⟨_, _, rfl, by decide, rfl, rfl, rfl, by decide⟩

end Mac3amPanel
