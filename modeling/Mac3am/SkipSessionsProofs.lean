import Mac3am.JournalProofs
import Mac3am.SkipTotalsProofs

/-! # The statistics across launches

    Each launch reads the store, counts in memory, saves after every skip and
    once more when it quits; it may also crash or be killed at any moment, and
    any save may fail.  The next launch starts from what was saved.

    * `session_books` — whatever relation to the skips the updates keep, the
      store keeps to the durable ones;
    * `sessions_conserve` — over any number of launches the sums in the store
      are those of the skips that were kept, and quitting or saves that work
      keep all;
    * `sessions_records` — where fetches work, so are the records, to the
      letter. -/

namespace Mac3amPanel

open Swift TrapRun KeyedTable Mac3amStore Journal

/-! ## One launch -/

/-- How a process ends, if it is not killed. -/
inductive End where
  | crash (t : Trap)
  | quit (q : QuitAnswers)

inductive SessionEvent where
  | panel (e : Event)
  | saveAction (commitEditing saved : Bool)
  /-- the user asks to quit -/
  | terminate (q : QuitAnswers)

def sessionStep (env : Environment) (s : Panel) : SessionEvent → Outcome End Panel
  | .panel e =>
      match step env s e with
      | .ok s' => .ok s'
      | .trap t s' => .trap (.crash t) s'
  | .saveAction commitEditing saved =>
      .ok { s with context := Mac3amStore.saveAction commitEditing saved s.context }
  | .terminate q =>
      match applicationShouldTerminate q s.context with
      | (.terminateCancel, c) => .ok { s with context := c }
      | (.terminateNow, c) => .trap (.quit q) { s with context := c }

/-- A launch, with the files it finds and what happens until it is over. -/
structure Session where
  env : Environment
  contents : List String
  events : List SessionEvent

namespace Session

/-- How a launch over a store ends; one that is killed after its last event
    returns. -/
def ends (σ : Session) (records : List Entity) : Outcome End Panel :=
  run (sessionStep σ.env) (viewDidLoad σ.contents records) σ.events

/-- The store a launch leaves behind. -/
def leaves (σ : Session) (records : List Entity) : List Entity :=
  (σ.ends records).state.context.stored

/-- The event is a press of the launch. -/
def Press (σ : Session) (press : SkipPress) : Prop :=
  ∃ e, SessionEvent.panel e ∈ σ.events ∧ e.Presses press

end Session

/-- What an event writes into the journal of its launch. -/
def entryOf (s : Panel) : SessionEvent → Option (Entry String)
  | .panel (.skip press) => (creditedSong s (.skip press)).map (.update · press.saved)
  | .panel (.key press) => (creditedSong s (.key press)).map (.update · press.saved)
  | .panel _ => none
  | .saveAction _ saved => if s.context.hasChanges && saved then some .save else none
  | .terminate q =>
      if q.commitEditing && s.context.hasChanges && q.saved then some .save else none

/-- The journal of a launch over a store. -/
def Session.journal (σ : Session) (records : List Entity) : List (Entry String) :=
  observed (sessionStep σ.env) entryOf (viewDidLoad σ.contents records) σ.events

/-- The user chose to quit without the changes that could not be saved. -/
def QuitsAnyway (q : QuitAnswers) : Prop :=
  q.saved = false ∧ q.presentError = false ∧ q.runModal ≠ .alertSecondButtonReturn

/-! ## The books of a launch -/

/-- A relation between skips and records holds in memory for all skips of a
    launch, and in the store for the durable ones; without changes these are
    all. -/
structure Booked (Rel : List String → List Entity → Prop) (credited : List String)
    (journal : List (Entry String)) (c : ManagedObjectContext) : Prop where
  memory : Rel (credited ++ updates journal) c.objects
  store : Rel (credited ++ durable journal) c.stored
  unchanged : c.hasChanges = false → durable journal = updates journal

section Booking

variable {Rel : List String → List Entity → Prop} {credited : List String}
  {journal : List (Entry String)} {c c' : ManagedObjectContext} {song : String} {saved : Bool}

/-- A store update that returns ends with its save. -/
theorem recordSkip_saves {musicList : List String} {currentMusicIndex : Int}
    {order : Option FetchOrder}
    (hc : recordSkip musicList currentMusicIndex order saved c = .ok c') :
    (saved = true → c'.stored = c'.objects) ∧
      (saved = false → c'.stored = c.stored ∧ c'.hasChanges = true) := by
  obtain ⟨song, -, rfl | ⟨k, r, -, -, rfl⟩⟩ := recordSkip_ok hc
  · cases saved with
    | true => exact ⟨fun _ => rfl, fun h => nomatch h⟩
    | false => exact ⟨fun h => (nomatch h), fun _ => ⟨rfl, rfl⟩⟩
  · cases saved with
    | true => exact ⟨fun _ => rfl, fun h => nomatch h⟩
    | false => exact ⟨fun h => (nomatch h), fun _ => ⟨rfl, rfl⟩⟩

theorem booked_update (h : Booked Rel credited journal c)
    (hstored : saved = true → c'.stored = c'.objects)
    (hpending : saved = false → c'.stored = c.stored ∧ c'.hasChanges = true)
    (hrel : Rel (credited ++ updates journal ++ [song]) c'.objects) :
    Booked Rel credited (journal ++ [.update song saved]) c' := by
  have hmade : updates (journal ++ [Entry.update song saved]) = updates journal ++ [song] :=
    updates_snoc
  rw [List.append_assoc, ← hmade] at hrel
  cases saved with
  | true =>
      have hall := durable_snoc_saves (l := journal) (e := Entry.update song true) rfl
      refine ⟨hrel, ?_, fun _ => hall⟩
      rw [hall, hstored rfl]
      exact hrel
  | false =>
      obtain ⟨hsame, hchanged⟩ := hpending rfl
      refine ⟨hrel, ?_, fun hunchanged => nomatch hchanged.symm.trans hunchanged⟩
      rw [durable_snoc_pending (l := journal) (e := Entry.update song false) rfl, hsame]
      exact h.store

theorem booked_save (h : Booked Rel credited journal c) :
    Booked Rel credited (journal ++ [.save]) (c.save true) := by
  have hmade : updates (journal ++ [Entry.save]) = updates journal := by
    rw [updates_snoc]
    exact List.append_nil _
  have hall := durable_snoc_saves (l := journal) (e := Entry.save) rfl
  refine ⟨?_, ?_, fun _ => hall⟩
  · rw [hmade, save_objects]
    exact h.memory
  · rw [hall, hmade]
    exact h.memory

end Booking

section Sessions

variable {Rel : List String → List Entity → Prop} {F : SkipPress → Prop} {env : Environment}

/-- The relation between skips and records is kept by the store update of every
    press of kind `F`. -/
def Keeps (Rel : List String → List Entity → Prop) (F : SkipPress → Prop) : Prop :=
  ∀ credited (s : Panel) press c, F press → Rel credited s.context.objects →
    s.skipUpdate press = .ok c →
    ∃ song, s.currentSong = some song ∧ Rel (credited ++ [song]) c.objects

theorem entryOf_press {e : Event} {press : SkipPress} (he : e.Presses press) (s : Panel) :
    entryOf s (.panel e) = (creditedSong s e).map (.update · press.saved) := by
  rcases he with rfl | rfl
  · rfl
  · rfl

theorem entryOf_other {e : Event} {s : Panel} (hnone : creditedSong s e = none) :
    entryOf s (.panel e) = none := by
  cases e with
  | skip press => rw [entryOf, hnone, Option.map_none]
  | key press => rw [entryOf, hnone, Option.map_none]
  | _ => rfl

/-- What is true of the books where a launch is, or has ended. -/
def Closes (Rel : List String → List Entity → Prop) (credited : List String)
    (journal : List (Entry String)) : Outcome End Panel → Prop
  | .ok s => Booked Rel credited journal s.context
  | .trap t s =>
      Rel (credited ++ durable journal) s.context.stored ∧
        ∀ q, t = .quit q → ¬ QuitsAnyway q → durable journal = updates journal

variable {credited : List String} {journal : List (Entry String)} {s : Panel}

theorem panel_closes (hkeeps : Keeps Rel F) {e : Event}
    (hF : ∀ press, e.Presses press → F press) (h : Booked Rel credited journal s.context) :
    Closes Rel credited (journal ++ (entryOf s (.panel e)).toList)
      (sessionStep env s (.panel e)) := by
  have hbooked : Booked Rel credited (journal ++ (entryOf s (.panel e)).toList)
        (step env s e).state.context ∨
      (entryOf s (.panel e) = none ∧ (step env s e).state.context = s.context.insert {} ∧
        ∃ t s', step env s e = .trap t s') := by
    rcases step_credits env s e with ⟨press, c, he, hc, hsong, rfl⟩ | ⟨hnone, hcontext⟩ |
        ⟨hnone, hcontext, htrap⟩
    · obtain ⟨song, hcurrent, hrel⟩ := hkeeps _ s press _ (hF press he) h.memory hc
      obtain ⟨hstored, hpending⟩ := recordSkip_saves hc
      rw [entryOf_press he, hsong, hcurrent]
      exact Or.inl (booked_update h hstored hpending hrel)
    · rw [entryOf_other hnone, Option.toList_none, List.append_nil, hcontext]
      exact Or.inl h
    · exact Or.inr ⟨entryOf_other hnone, hcontext, htrap⟩
  rw [sessionStep]
  cases hstep : step env s e with
  | ok s' =>
      rw [hstep] at hbooked
      rcases hbooked with hnext | ⟨-, -, t, m, htrap⟩
      · exact hnext
      · cases htrap
  | trap t s' =>
      rw [hstep] at hbooked
      refine ⟨?_, fun q hq => nomatch hq⟩
      rcases hbooked with hnext | ⟨hnone, hcontext, -⟩
      · exact hnext.store
      · rw [hnone, Option.toList_none, List.append_nil,
          show s'.context = s.context.insert {} from hcontext]
        exact h.store

theorem saveAction_closes (h : Booked Rel credited journal s.context)
    (commitEditing saved : Bool) :
    Closes Rel credited (journal ++ (entryOf s (.saveAction commitEditing saved)).toList)
      (sessionStep env s (.saveAction commitEditing saved)) := by
  show Booked Rel credited (journal ++ _) (Mac3amStore.saveAction commitEditing saved s.context)
  rw [entryOf, Mac3amStore.saveAction]
  cases s.context.hasChanges with
  | false => exact (List.append_nil journal).symm ▸ h
  | true =>
      cases saved with
      | false => exact (List.append_nil journal).symm ▸ h
      | true => exact booked_save h

/-- A request to quit saves, or changes nothing; and only a quit without the
    changes loses any. -/
theorem terminate_closes (h : Booked Rel credited journal s.context) (q : QuitAnswers) :
    Closes Rel credited (journal ++ (entryOf s (.terminate q)).toList)
      (sessionStep env s (.terminate q)) := by
  have hnil : journal ++ (none : Option (Entry String)).toList = journal := List.append_nil journal
  obtain ⟨commitEditing, saved, presentError, runModal⟩ := q
  rw [sessionStep, applicationShouldTerminate, entryOf]
  cases commitEditing with
  | false => exact hnil.symm ▸ h
  | true =>
      cases hchanges : s.context.hasChanges with
      | false =>
          show Rel (credited ++ durable (journal ++ _)) _ ∧ _
          exact ⟨hnil.symm ▸ h.store, fun _ _ _ => hnil.symm ▸ h.unchanged hchanges⟩
      | true =>
          cases saved with
          | true =>
              have hsaved := booked_save h
              exact ⟨hsaved.store, fun _ _ _ => hsaved.unchanged rfl⟩
          | false =>
              cases presentError with
              | true => exact hnil.symm ▸ h
              | false =>
                  cases runModal with
                  | alertFirstButtonReturn =>
                      refine ⟨hnil.symm ▸ h.store, ?_⟩
                      intro q hq hnot
                      cases hq
                      exact absurd ⟨rfl, rfl, by decide⟩ hnot
                  | alertSecondButtonReturn => exact hnil.symm ▸ h

/-- **The books of a launch**: however it ends, the store holds the durable
    skips of its journal, and a quit that is not without the changes makes all
    of them durable. -/
theorem session_books (hkeeps : Keeps Rel F) {σ : Session} {records : List Entity}
    (hF : ∀ press, σ.Press press → F press) (h : Rel credited records) :
    Rel (credited ++ durable (σ.journal records)) (σ.leaves records) ∧
    ∀ q s, σ.ends records = .trap (.quit q) s → ¬ QuitsAnyway q →
      durable (σ.journal records) = updates (σ.journal records) := by
  have hopened : Booked Rel credited [] (viewDidLoad σ.contents records).context :=
    ⟨(List.append_nil credited).symm ▸ h, (List.append_nil credited).symm ▸ h, fun _ => rfl⟩
  have hcloses : Closes Rel credited ([] ++ σ.journal records) (σ.ends records) := by
    refine run_observes_end (R := fun journal (s : Panel) => Booked Rel credited journal s.context)
      (T := Closes Rel credited)
      (F := fun e => ∀ p press, e = .panel p → p.Presses press → F press) ?_
      (fun _ _ => Iff.rfl) ?_ hopened
    · intro journal s e hFe h
      cases e with
      | panel p => exact panel_closes hkeeps (fun press => hFe p press rfl) h
      | saveAction commitEditing saved => exact saveAction_closes h commitEditing saved
      | terminate q => exact terminate_closes h q
    · rintro e he p press rfl hpress
      exact hF press ⟨p, he, hpress⟩
  rw [List.nil_append] at hcloses
  rw [Session.leaves]
  cases hends : σ.ends records with
  | ok s =>
      rw [hends] at hcloses
      exact ⟨hcloses.store, fun q s' hs' => nomatch hs'⟩
  | trap t s =>
      rw [hends] at hcloses
      refine ⟨hcloses.1, ?_⟩
      intro q s' hs'
      cases hs'
      exact hcloses.2 q rfl

/-! ## Launch after launch -/

/-- The store after one launch after the other. -/
def relaunched : List Entity → List Session → List Entity
  | records, [] => records
  | records, σ :: rest => relaunched (σ.leaves records) rest

/-- The skips that were durable when their launch ended. -/
def keptSkips : List Entity → List Session → List String
  | _, [] => []
  | records, σ :: rest => durable (σ.journal records) ++ keptSkips (σ.leaves records) rest

/-- The skips that were made. -/
def madeSkips : List Entity → List Session → List String
  | _, [] => []
  | records, σ :: rest => updates (σ.journal records) ++ madeSkips (σ.leaves records) rest

/-- The launch ends with a quit, and not without the changes, or all its saves
    work. -/
def Session.LosesNothing (σ : Session) (records : List Entity) : Prop :=
  (∃ q s, σ.ends records = .trap (.quit q) s ∧ ¬ QuitsAnyway q) ∨
    ∀ press, σ.Press press → press.saved = true

def NothingLost : List Entity → List Session → Prop
  | _, [] => True
  | records, σ :: rest => σ.LosesNothing records ∧ NothingLost (σ.leaves records) rest

/-- **Books over launches**: a relation that the store updates keep holds of the
    store and the skips that were kept. -/
theorem launches_book (hkeeps : Keeps Rel F) {σs : List Session} {records : List Entity}
    (hF : ∀ σ ∈ σs, ∀ press, σ.Press press → F press) (h : Rel credited records) :
    Rel (credited ++ keptSkips records σs) (relaunched records σs) := by
  induction σs generalizing credited records with
  | nil =>
      rw [keptSkips, List.append_nil]
      exact h
  | cons σ rest ih =>
      have hleft := (session_books hkeeps (hF σ List.mem_cons_self) h).1
      rw [keptSkips, ← List.append_assoc]
      exact ih (fun σ' hσ' => hF σ' (List.mem_cons_of_mem _ hσ')) hleft

theorem kept_sublist (records : List Entity) (σs : List Session) :
    (keptSkips records σs).Sublist (madeSkips records σs) := by
  induction σs generalizing records with
  | nil => exact List.Sublist.refl []
  | cons σ rest ih => exact (durable_initial (σ.journal records)).sublist.append (ih _)

theorem keeps_ledger (records : List Entity) : Keeps (Ledger records) fun _ => True :=
  fun _ _ _ _ _ h hc => recordSkip_ledger h hc

/-- A launch that loses nothing makes all its skips durable. -/
theorem Session.LosesNothing.durable_eq {σ : Session} {records : List Entity}
    (h : σ.LosesNothing records) : durable (σ.journal records) = updates (σ.journal records) := by
  rcases h with ⟨q, s, hends, hnot⟩ | hsaves
  · exact (session_books (keeps_ledger records) (fun _ _ => trivial)
      (ledger_opened records)).2 q s hends hnot
  · refine durable_of_saves ?_
    intro entry hentry
    obtain ⟨e, he, m, hentry⟩ := mem_observed hentry
    cases e with
    | panel p =>
        by_cases hpress : ∃ press, p.Presses press
        · obtain ⟨press, hp⟩ := hpress
          rw [entryOf_press hp] at hentry
          obtain ⟨song, -, rfl⟩ := Option.map_eq_some_iff.mp hentry
          exact hsaves press ⟨p, he, hp⟩
        · cases (entryOf_other (creditedSong_other m hpress)).symm.trans hentry
    | saveAction commitEditing saved =>
        rw [entryOf] at hentry
        split at hentry
        · cases hentry
          rfl
        · cases hentry
    | terminate q =>
        rw [entryOf] at hentry
        split at hentry
        · cases hentry
          rfl
        · cases hentry

theorem kept_eq_made {records : List Entity} {σs : List Session} (h : NothingLost records σs) :
    keptSkips records σs = madeSkips records σs := by
  induction σs generalizing records with
  | nil => rfl
  | cons σ rest ih => rw [keptSkips, madeSkips, h.1.durable_eq, ih h.2]

/-- **Nothing but unsaved skips is lost across launches**: after any number of
    launches, each ended by a quit, a crash or a kill at any moment, whatever
    fetches and saves did, every record of the first store is there under its
    name, and the counts of a song add up to what they were and one for each
    skip of it that was kept: in 32 bits, and exactly where no count is negative
    and the sum fits.  The kept skips are all skips where every launch ends with
    a quit that is not made without the changes, or all its saves work. -/
theorem sessions_conserve (records : List Entity) (σs : List Session) :
    records.map Entity.name <+: (relaunched records σs).map Entity.name ∧
    (∀ name n, n = (keptSkips records σs).count name →
      skipTotal (relaunched records σs) name ≡ skipTotal records name + n [ZMOD 4294967296] ∧
        ((∀ r ∈ records, r.name = some name → 0 ≤ r.skip.toInt) →
          skipTotal records name + n ≤ 2147483647 →
          skipTotal (relaunched records σs) name = skipTotal records name + n)) ∧
    (keptSkips records σs).Sublist (madeSkips records σs) ∧
    (NothingLost records σs → keptSkips records σs = madeSkips records σs) := by
  have h := launches_book (keeps_ledger records) (fun σ (_ : σ ∈ σs) _ _ => trivial)
    (ledger_opened records)
  rw [List.nil_append] at h
  refine ⟨h.names, ?_, kept_sublist records σs, kept_eq_made⟩
  rintro name n rfl
  exact ⟨h.sum name, fun hpos hle => (h.exact name hpos hle).1⟩

/-! ## The records themselves -/

/-- One skip more of the record of a song. -/
def bumped (name : String) (r : Option Entity) : Option Entity := some (bump name r)

/-- The records of a context are those of the beginning, each counted up once
    for every skip of its song. -/
structure Counted (records : List Entity) (credited : List String) (objects : List Entity) :
    Prop where
  named : Named objects
  unique : Unique Entity.name objects
  counted : ∀ name, table Entity.name objects (some name)
    = (bumped name)^[credited.count name] (table Entity.name records (some name))

theorem keeps_counted (records : List Entity) :
    Keeps (Counted records) fun press => press.order ≠ none := by
  intro credited s press c horder h hc
  obtain ⟨song, hsong, -⟩ := recordSkip_ok hc
  obtain ⟨o, ho⟩ := Option.ne_none_iff_exists'.mp horder
  obtain ⟨c₁, hc₁, -, -, hunique, htable⟩ :=
    recordSkip_fetched hsong h.named h.unique o press.saved
  have hsame : c₁.save press.saved = c := by
    rw [Panel.skipUpdate, ho, hc₁] at hc
    exact Outcome.ok.inj hc
  have hobjects : c.objects = c₁.objects := by rw [← hsame, save_objects]
  refine ⟨song, hsong, recordSkip_named hc h.named, hobjects ▸ hunique, ?_⟩
  intro name
  rw [hobjects, htable, List.count_append]
  by_cases hname : name = song
  · subst hname
    rw [Function.update_self, List.count_singleton_self, Function.iterate_succ_apply',
      ← h.counted name, bumped]
  · rw [Function.update_of_ne fun heq => hname (Option.some.inj heq), h.counted name,
      List.count_eq_zero_of_not_mem (l := [song]) (by simpa using hname), Nat.add_zero]

/-- What counting a record up comes to. -/
theorem bumped_iterate (name : String) (r : Option Entity) (n : Nat) :
    ∃ r', (bumped name)^[n + 1] r = some r' ∧
      r'.skip = Int32.ofInt ((r.elim 0 fun r => r.skip.toInt) + (n + 1 : Nat)) ∧
      r'.emotion = some (if r = none ∧ n = 0 then "testEmotion" else "testEmotion2") := by
  induction n with
  | zero =>
      cases r with
      | none => exact ⟨newSong name, rfl, rfl, rfl⟩
      | some r => exact ⟨skipAgain r.skip.toInt r, rfl, rfl, rfl⟩
  | succ n ih =>
      obtain ⟨r', hr', hskip, -⟩ := ih
      refine ⟨skipAgain r'.skip.toInt r', ?_, ?_, ?_⟩
      · rw [Function.iterate_succ_apply', hr']
        rfl
      · show Int32.ofInt (r'.skip.toInt + 1) = _
        rw [Int32.ofInt_add, Int32.ofInt_toInt, hskip, ← Int32.ofInt_add]
        congr 1
        omega
      · rw [if_neg fun h => absurd h.2 (Nat.succ_ne_zero n)]
        rfl

/-- **The store to the letter**: where the fetches of all launches work, in any
    order, and the first store has one named record for each song, so has the
    last one; the record of a song whose skips were not kept is untouched, and
    that of any other holds its first count plus the kept skips, in 32 bits, and
    the text of a first skip or of a later one. -/
theorem sessions_records (records : List Entity) (σs : List Session) (hn : Named records)
    (hu : Unique Entity.name records)
    (hf : ∀ σ ∈ σs, ∀ press, σ.Press press → press.order ≠ none) :
    Named (relaunched records σs) ∧ Unique Entity.name (relaunched records σs) ∧
    ∀ name n, n = (keptSkips records σs).count name →
      (n = 0 → table Entity.name (relaunched records σs) (some name)
        = table Entity.name records (some name)) ∧
      (0 < n → ∃ r, table Entity.name (relaunched records σs) (some name) = some r ∧
        r.skip = Int32.ofInt (initialSkip records name + n) ∧
        r.emotion = some (if table Entity.name records (some name) = none ∧ n = 1
          then "testEmotion" else "testEmotion2")) := by
  have hstart : Counted records [] records := ⟨hn, hu, fun _ => rfl⟩
  have h := launches_book (keeps_counted records) hf hstart
  rw [List.nil_append] at h
  refine ⟨h.named, h.unique, ?_⟩
  rintro name n hcount
  have hcounted := h.counted name
  rw [← hcount] at hcounted
  constructor
  · rintro rfl
    exact hcounted
  · intro hpos
    obtain ⟨k, rfl⟩ := Nat.exists_eq_succ_of_ne_zero (Nat.ne_of_gt hpos)
    obtain ⟨r, hr, hskip, hemotion⟩ := bumped_iterate name (table Entity.name records (some name)) k
    refine ⟨r, hcounted.trans hr, ?_, ?_⟩
    · rw [hskip, initialSkip]
      cases table Entity.name records (some name) with
      | none => rfl
      | some r => rfl
    · rw [hemotion]
      simp only [Nat.succ_eq_add_one, Nat.add_eq_right]

/-- Two launches of a playlist of two songs: the first is killed after a skip
    whose save failed, the second quits. -/
def twoLaunches : List Session :=
  [{ env := .plain fun _ _ => true
     contents := ["one", "two"]
     events := [.panel (.skip ⟨some .inserted, true, false⟩),
       .panel (.skip ⟨some .inserted, false, false⟩)] },
   { env := .plain fun _ _ => true
     contents := ["one", "two"]
     events := [.panel (.key ⟨some .reversed, false, false⟩),
       .terminate ⟨true, true, false, .alertFirstButtonReturn⟩] }]

/-- Three skips of the first song, of which two were kept. -/
theorem sessions_records_two_launches :
    ∃ r, table Entity.name (relaunched [] twoLaunches) (some "one") = some r ∧
      r.skip = 2 ∧ r.emotion = some "testEmotion2" := by
  have hf : ∀ σ ∈ twoLaunches, ∀ press, σ.Press press → press.order ≠ none := by
    rintro σ hσ press ⟨e, he, hpress⟩
    have hfetch : ∀ press', (e = .skip press' ∨ e = .key press') → press'.order ≠ none →
        press.order ≠ none := by
      rintro press' (rfl | rfl) horder
      · rcases hpress with h | h
        · cases h
          exact horder
        · cases h
      · rcases hpress with h | h
        · cases h
        · cases h
          exact horder
    rcases List.mem_pair.mp hσ with rfl | rfl
    · rcases List.mem_pair.mp he with h | h
      · exact hfetch _ (Or.inl (SessionEvent.panel.inj h)) (Option.some_ne_none _)
      · exact hfetch _ (Or.inl (SessionEvent.panel.inj h)) (Option.some_ne_none _)
    · rcases List.mem_pair.mp he with h | h
      · exact hfetch _ (Or.inr (SessionEvent.panel.inj h)) (Option.some_ne_none _)
      · cases h
  obtain ⟨r, hr, hskip, hemotion⟩ :=
    ((sessions_records [] twoLaunches (by decide) (by decide) hf).2.2 "one" 2 rfl).2 (by decide)
  exact ⟨r, hr, hskip, hemotion⟩

end Sessions

end Mac3amPanel
