import Mac3am.AlbumArtProofs
import Mac3am.SkipTotalsProofs

/-! # Whose record a skip counts

    The store update names its record after the current index, and the music
    comes from the global player.  The index moves before the file is loaded,
    and it stays where it went when the load fails.

    * `run_loadedFile` — the player holds the last song whose load succeeded;
      `run_currentSong` — the index is on the last song a run moved to;
    * `credit_iff_history` — so every skip credits the loaded song exactly when
      each of them comes after a move whose load succeeded, or one to the song
      that was loaded already, or crashes before it saves. -/

namespace Mac3amPanel

open Swift TrapRun Mac3amStore

variable {env : Environment} {s s' m : Panel} {e : Event} {name : String}

/-- The file the global player was loaded from. -/
def Panel.loadedFile (s : Panel) : Option String :=
  s.globalPlayer.map fun p => p.url.lastPathComponent

/-- Every record that was created or changed is named after `file`. -/
def CreditsOnly (file : Option String) (c c' : ManagedObjectContext) : Prop :=
  ∀ (k : Nat) (r' : Entity), c'.objects[k]? = some r' → c.objects[k]? ≠ some r' →
    ∃ name, file = some name ∧ r'.name = some name

/-- The event, where it is a skip, credits the file loaded in the global
    player. -/
def CreditsLoaded (s : Panel) (e : Event) : Prop :=
  ∀ press, e.Presses press → ∀ c', s.skipUpdate press = .ok c' →
    CreditsOnly s.loadedFile s.context c'

/-! ## One press -/

/-- The next number in 32 bits is another one. -/
theorem skipAgain_ne (r : Entity) : skipAgain r.skip.toInt r ≠ r := by
  intro heq
  have hskip : Int32.ofInt (r.skip.toInt + 1) = r.skip := congrArg Entity.skip heq
  rw [Int32.ofInt_add, Int32.ofInt_toInt] at hskip
  exact absurd (Int32.add_eq_left.mp hskip) (by decide)

/-- A store update that returns changes or creates one record, and that one is
    named after the current song. -/
theorem recordSkip_changes {musicList : List String} {currentMusicIndex : Int}
    {order : Option FetchOrder} {saved : Bool} {c c' : ManagedObjectContext}
    (h : recordSkip musicList currentMusicIndex order saved c = .ok c') :
    ∃ song k r', subscript musicList currentMusicIndex = some song ∧ r'.name = some song ∧
      c'.objects[k]? = some r' ∧ c.objects[k]? ≠ some r' ∧
      ∀ j, j ≠ k → j < c'.objects.length → c'.objects[j]? = c.objects[j]? := by
  obtain ⟨song, hsong, rfl | ⟨k, r, hr, hname, rfl⟩⟩ := recordSkip_ok h
  · refine ⟨song, c.objects.length, newSong song, hsong, rfl, ?_, ?_, ?_⟩
    · rw [save_objects, insert_objects, List.getElem?_concat_length]
    · rw [List.getElem?_eq_none (Nat.le_refl _)]
      exact fun hnone => nomatch hnone
    · intro j hj hlt
      rw [save_objects, insert_objects] at hlt ⊢
      rw [List.length_append, List.length_singleton] at hlt
      exact List.getElem?_append_left (by omega)
  · refine ⟨song, k, skipAgain r.skip.toInt r, hsong, hname, ?_, ?_, ?_⟩
    · rw [save_objects, setValues_objects, List.getElem?_modify_eq, hr]
      rfl
    · rw [hr]
      exact fun heq => skipAgain_ne r (Option.some.inj heq).symm
    · intro j hj _
      rw [save_objects, setValues_objects, List.getElem?_modify_ne _ _ (Ne.symm hj)]

/-- One press of the skip button credits the loaded song exactly then. -/
theorem credit_iff (s : Panel) (press : SkipPress) :
    (∀ c', s.skipUpdate press = .ok c' → CreditsOnly s.loadedFile s.context c') ↔
      s.meetsUnnamed press ∨ s.currentSong = none ∨ s.currentSong = s.loadedFile := by
  rcases recordSkip_cases s.musicList s.currentMusicIndex press.order press.saved s.context with
    ⟨hmeets, c, hc⟩ | ⟨-, hnone, c, hc⟩ | ⟨hmeets, ⟨song, hsong⟩, c, hc⟩
  · have htrap : ∀ c', s.skipUpdate press ≠ .ok c' := fun c' hok => nomatch hok.symm.trans hc
    exact iff_of_true (fun c' hok => absurd hok (htrap c')) (Or.inl hmeets)
  · have htrap : ∀ c', s.skipUpdate press ≠ .ok c' := fun c' hok => nomatch hok.symm.trans hc
    exact iff_of_true (fun c' hok => absurd hok (htrap c')) (Or.inr (Or.inl hnone))
  · obtain ⟨song', k, r', hsong', hname, hnew, hold, hrest⟩ := recordSkip_changes hc
    have hcurrent : s.currentSong = some song' := hsong'
    constructor
    · intro hcredit
      obtain ⟨name, hfile, hname'⟩ := hcredit c hc k r' hnew hold
      rw [hname] at hname'
      exact Or.inr (Or.inr (by rw [hcurrent, hfile, hname']))
    · rintro (hbad | hbad | hloaded) c' hc'
      · exact absurd hbad hmeets
      · cases hbad.symm.trans hcurrent
      · obtain rfl : c = c' := Outcome.ok.inj (hc.symm.trans hc')
        -- the one record that differs is the one named after the current song
        intro j r hr hne
        have hlt : j < c.objects.length := (List.getElem?_eq_some_iff.mp hr).1
        have hj : j = k := by
          by_contra hjk
          exact hne ((hrest j hjk hlt).symm.trans hr)
        subst hj
        obtain rfl : r' = r := Option.some.inj (hnew.symm.trans hr)
        exact ⟨song', hloaded.symm.trans hcurrent, hname⟩

/-- On a song of the playlist only a fetch that works and comes to a record
    without a name stops the update. -/
theorem meetsUnnamed_iff {press : SkipPress} (hsong : s.currentSong = some name) :
    s.meetsUnnamed press ↔ press.order ≠ none ∧ ¬ Named s.context.objects := by
  have hisSome : (subscript s.musicList s.currentMusicIndex).isSome = true :=
    Option.isSome_iff_exists.mpr ⟨name, hsong⟩
  constructor
  · intro hmeets
    obtain ⟨r, hr, hnone⟩ := hmeets.exists_unnamed
    obtain ⟨result, hfetch, -⟩ := hmeets
    refine ⟨?_, fun hn => hn r hr hnone⟩
    intro hthrows
    rw [fetch, hthrows] at hfetch
    cases hfetch
  · rintro ⟨horder, hunnamed⟩
    obtain ⟨o, ho⟩ := Option.ne_none_iff_exists'.mp horder
    obtain ⟨r, hr, hnone⟩ : ∃ r ∈ s.context.objects, r.name = none := by
      by_contra hall
      exact hunnamed fun r hr hnone => hall ⟨r, hr, hnone⟩
    obtain ⟨k, hk⟩ := List.mem_iff_getElem?.mp hr
    refine ⟨o.arrange s.context.objects.zipIdx, by rw [ho]; rfl, ?_⟩
    rw [if_pos hisSome]
    exact ⟨(r, k), mem_arrange.mpr hk, hnone⟩

/-! ## What a run has moved to and loaded -/

/-- The song an event moves to, and whether the first load of its file
    succeeds. -/
def movedTo (env : Environment) (s : Panel) (e : Event) : Option (String × Bool) := do
  let m ← entry s e
  let name ← m.currentSong
  some (name, env.initSucceeds m.loads (env.file name))

/-- The songs a run moves to, in order. -/
def songsMovedTo (env : Environment) (contents : List String) (records : List Entity)
    (es : List Event) : List (String × Bool) :=
  observed (step env) (movedTo env) (viewDidLoad contents records) es

/-- Those of them that are loaded. -/
def loadedOf (moves : List (String × Bool)) : List String :=
  moves.filterMap fun move => if move.2 then some move.1 else none

/-- One more move. -/
theorem loadedOf_snoc (moves : List (String × Bool)) (name : String) (loads : Bool) :
    loadedOf (moves ++ [(name, loads)]) = loadedOf moves ++ if loads then [name] else [] := by
  rw [loadedOf, List.filterMap_append]
  cases loads with
  | false => rfl
  | true => rfl

/-- The files loaded in a run are those of the moves that load. -/
theorem filesLoaded_eq (env : Environment) (contents : List String) (records : List Entity)
    (es : List Event) :
    filesLoaded env contents records es
      = (loadedOf (songsMovedTo env contents records es)).map env.file := by
  have hhalves : fileLoaded env = fun s e => (movedTo env s e).bind fun move =>
      if move.2 then some (env.file move.1) else none := by
    funext s e
    rw [fileLoaded, movedTo]
    cases entry s e with
    | none => rfl
    | some m =>
        show ((m.currentSong.map env.file).bind fun url =>
            if env.initSucceeds m.loads url then some url else none)
          = (m.currentSong.bind fun name =>
              some (name, env.initSucceeds m.loads (env.file name))).bind _
        cases m.currentSong with
        | none => rfl
        | some name => rfl
  rw [filesLoaded, hhalves, observed_bind, loadedOf, List.map_filterMap]
  refine List.filterMap_congr ?_
  rintro ⟨name, loads⟩ -
  cases loads with
  | false => rfl
  | true => rfl

theorem movedTo_eq (hentry : entry s e = some m) (hsong : m.currentSong = some name) :
    movedTo env s e = some (name, env.initSucceeds m.loads (env.file name)) := by
  rw [movedTo, hentry, Option.bind_eq_bind, Option.bind_some, hsong]
  rfl

/-! ## What the player holds -/

/-- A change of the player objects that respects their files respects the file
    of the global player. -/
theorem kept_loadedFile (hkept : Kept s.player s.players s'.players)
    (hplayer : s'.player = s.player) : s'.loadedFile = s.loadedFile := by
  cases hp' : s'.globalPlayer with
  | some p' =>
      obtain ⟨p, hp, hurl, -⟩ := globalPlayer_kept hkept hplayer hp'
      rw [Panel.loadedFile, Panel.loadedFile, hp', hp, Option.map_some, Option.map_some, hurl]
  | none =>
      -- without an object there, there was none before
      have hnone : s.globalPlayer = none := by
        rw [Panel.globalPlayer, hplayer] at hp'
        rw [Panel.globalPlayer]
        cases hk : s.player with
        | none => rfl
        | some k =>
            rw [hk, Option.bind_some, List.getElem?_eq_none_iff, hkept.1] at hp'
            exact List.getElem?_eq_none hp'
      rw [Panel.loadedFile, Panel.loadedFile, hp', hnone]

/-- A load that succeeds puts its file into the player, one that fails leaves it
    alone. -/
theorem settled_loadedFile (env : Environment) (url : URL) (m : Panel) :
    (settled env url m).loadedFile
      = if env.initSucceeds m.loads url then some url.lastPathComponent else m.loadedFile := by
  have hstarted : ∀ m : Panel, (m.start (env.audioPlayer url)).loadedFile
      = some url.lastPathComponent := by
    intro m
    rw [Panel.loadedFile, start_globalPlayer]
    rfl
  rcases settled_cases env url m with ⟨hinit, heq⟩ | ⟨hinit, -, heq⟩ | ⟨hinit, -, -, heq⟩ |
      ⟨hinit, -, -, heq⟩
  · rw [heq, hinit]
    rfl
  · rw [heq, hinit]
    exact hstarted m.tried
  · -- the second call fails: the first player stays, stopped
    rw [heq, hinit]
    exact (kept_loadedFile (stop_kept _) rfl).trans (hstarted m.tried)
  · rw [heq, hinit]
    exact hstarted (m.reentered env url).tried

theorem entry_loadedFile (hentry : entry s e = some m) : m.loadedFile = s.loadedFile := by
  have hmoved := entry_moved hentry
  exact kept_loadedFile (hmoved.players ▸ stop_kept s) hmoved.player

theorem step_loadedFile {urls : List URL}
    (h : s.loadedFile = urls.getLast?.map URL.lastPathComponent)
    (hstep : step env s e = .ok s') :
    s'.loadedFile
      = (urls ++ (fileLoaded env s e).toList).getLast?.map URL.lastPathComponent := by
  rcases step_cases hstep with ⟨m, url, hentry, hurl, rfl⟩ | ⟨hentry, hidle⟩
  · rw [fileLoaded_eq hentry hurl, settled_loadedFile, entry_loadedFile hentry, h]
    by_cases hinit : env.initSucceeds m.loads url = true
    · rw [if_pos hinit, if_pos hinit, Option.toList_some, List.getLast?_concat, Option.map_some]
    · rw [if_neg hinit, if_neg hinit, Option.toList_none, List.append_nil]
  · have hnone : fileLoaded env s e = none := by
      rw [fileLoaded, hentry]
      rfl
    rw [hnone, Option.toList_none, List.append_nil, ← h]
    exact kept_loadedFile hidle.players hidle.player

/-- **The player holds the song loaded last**, and nothing before the first. -/
theorem run_loadedFile {contents : List String} {records : List Entity} {es : List Event}
    (h : run (step env) (viewDidLoad contents records) es = .ok s) :
    s.loadedFile = (loadedOf (songsMovedTo env contents records es)).getLast? := by
  have hnone : (viewDidLoad contents records).loadedFile
      = ([] : List URL).getLast?.map URL.lastPathComponent := rfl
  have hlast : s.loadedFile
      = (filesLoaded env contents records es).getLast?.map URL.lastPathComponent :=
    run_observes (f := fileLoaded env)
      (R := fun urls s => s.loadedFile = urls.getLast?.map URL.lastPathComponent)
      (F := fun _ => True) (fun _ _ _ _ _ hlast hstep => step_loadedFile hlast hstep)
      (fun _ _ => trivial) hnone h
  rw [hlast, filesLoaded_eq, List.getLast?_map, Option.map_map]
  exact congrFun Option.map_id _

/-! ## Where the index is -/

/-- The index is on the last of these songs. -/
def OnLast (moves : List (String × Bool)) (s : Panel) : Prop :=
  ∀ move, moves.getLast? = some move → s.currentSong = some move.1

theorem step_onLast {moves : List (String × Bool)} (h : OnLast moves s)
    (hstep : step env s e = .ok s') : OnLast (moves ++ (movedTo env s e).toList) s' := by
  have hsame : ∀ m : Panel, s'.musicList = m.musicList →
      s'.currentMusicIndex = m.currentMusicIndex → s'.currentSong = m.currentSong := by
    intro m hlist hindex
    rw [Panel.currentSong, hlist, hindex]
    rfl
  rcases step_cases hstep with ⟨m, url, hentry, hurl, rfl⟩ | ⟨hentry, hidle⟩
  · obtain ⟨name, hsong, rfl⟩ := Option.map_eq_some_iff.mp hurl
    obtain ⟨hlist, hindex, -⟩ := settled_keeps env (env.file name) m
    rw [movedTo_eq hentry hsong, Option.toList_some]
    intro move hmove
    rw [List.getLast?_concat] at hmove
    cases hmove
    exact (hsame m hlist hindex).trans hsong
  · have hnone : movedTo env s e = none := by
      rw [movedTo, hentry]
      rfl
    rw [hnone, Option.toList_none, List.append_nil]
    intro move hmove
    exact (hsame s hidle.musicList hidle.currentMusicIndex).trans (h move hmove)

/-- **The index is on the song a run moved to last**, whether or not that one was
    loaded. -/
theorem run_currentSong {contents : List String} {records : List Entity} {es : List Event}
    (h : run (step env) (viewDidLoad contents records) es = .ok s) :
    OnLast (songsMovedTo env contents records es) s := by
  have hnone : OnLast [] (viewDidLoad contents records) := fun _ hmove => nomatch hmove
  exact run_observes (f := movedTo env) (R := OnLast) (F := fun _ => True)
    (fun _ _ _ _ _ hlast hstep => step_onLast hlast hstep) (fun _ _ => trivial) hnone h

/-! ## Whole runs -/

/-- The last of these moves was loaded, or it went to the song that was. -/
def LastLoaded (moves : List (String × Bool)) : Prop :=
  ∃ earlier name loads, moves = earlier ++ [(name, loads)] ∧
    (loads = true ∨ (loadedOf earlier).getLast? = some name)

/-- A press crashes before it saves: there is no song, or it fetches a record
    that had no name at launch. -/
def Crashes (contents : List String) (records : List Entity) (press : SkipPress) : Prop :=
  contents = [] ∨ (press.order ≠ none ∧ ¬ Named records)

/-- After these moves the current song is the loaded one exactly if the last move
    was loaded. -/
theorem lastLoaded_iff {moves : List (String × Bool)} (hlast : OnLast moves s)
    (hloaded : s.loadedFile = (loadedOf moves).getLast?) (hsong : s.currentSong ≠ none) :
    LastLoaded moves ↔ s.currentSong = s.loadedFile := by
  rcases List.eq_nil_or_concat' moves with rfl | ⟨earlier, ⟨name, loads⟩, rfl⟩
  · -- nothing was moved to, and nothing is loaded
    refine iff_of_false ?_ fun heq => hsong (heq.trans hloaded)
    rintro ⟨earlier, name, loads, hmoves, -⟩
    exact List.append_ne_nil_of_right_ne_nil earlier (List.cons_ne_nil _ _) hmoves.symm
  · have hcurrent : s.currentSong = some name := hlast (name, loads) List.getLast?_concat
    rw [hcurrent, hloaded, loadedOf_snoc]
    constructor
    · rintro ⟨earlier', name', loads', hmoves, hor⟩
      obtain ⟨rfl, hmove⟩ := List.append_inj' hmoves rfl
      cases hmove
      rcases hor with rfl | hbefore
      · rw [if_pos rfl, List.getLast?_concat]
      · cases loads with
        | false => rw [if_neg Bool.false_ne_true, List.append_nil, hbefore]
        | true => rw [if_pos rfl, List.getLast?_concat]
    · intro hname
      refine ⟨earlier, name, loads, rfl, ?_⟩
      cases loads with
      | false =>
          rw [if_neg Bool.false_ne_true, List.append_nil] at hname
          exact Or.inr hname.symm
      | true => exact Or.inl rfl

/-- The store names its records in a run exactly if it did at launch. -/
theorem run_named_iff {contents : List String} {records : List Entity} {es : List Event}
    (h : run (step env) (viewDidLoad contents records) es = .ok s) :
    Named s.context.objects ↔ Named records := by
  constructor
  · intro hn r hr hnone
    -- no record is removed or renamed
    have hnames := (run_ledger env contents records es).names
    rw [h, Outcome.state_ok] at hnames
    have hmem : r.name ∈ s.context.objects.map Entity.name :=
      hnames.subset (List.mem_map_of_mem hr)
    obtain ⟨r', hr', hname⟩ := List.mem_map.mp hmem
    exact hn r' hr' (hname.trans hnone)
  · intro hn
    exact Reachable.named hn ⟨es, h⟩

/-- **One press after a run** credits the loaded song exactly if it crashes or the
    last move of the run was loaded. -/
theorem press_credit_iff {contents : List String} {records : List Entity} {es : List Event}
    (hrun : run (step env) (viewDidLoad contents records) es = .ok s) (press : SkipPress) :
    (∀ c', s.skipUpdate press = .ok c' → CreditsOnly s.loadedFile s.context c') ↔
      Crashes contents records press ∨ LastLoaded (songsMovedTo env contents records es) := by
  have hreach : Reachable env contents records s := ⟨es, hrun⟩
  rw [credit_iff, Crashes]
  by_cases hcontents : contents = []
  · have hnone : s.currentSong = none := by
      rw [Panel.currentSong, hreach.musicList, hcontents]
      exact subscript_eq_none.mpr fun hin => absurd (Int.lt_of_le_of_lt hin.1 hin.2) (by decide)
    exact iff_of_true (Or.inr (Or.inl hnone)) (Or.inl (Or.inl hcontents))
  · -- the index is in range, so there is a song to credit
    obtain ⟨hlength, -, hlo, hhi⟩ := hreach.onSong hcontents
    obtain ⟨name, hsong⟩ := subscript_isSome.mpr ⟨hlo, hlength ▸ hhi⟩
    have hcurrent : s.currentSong ≠ none := by
      rw [Panel.currentSong, hsong]
      exact Option.some_ne_none name
    rw [meetsUnnamed_iff hsong, run_named_iff hrun,
      lastLoaded_iff (run_currentSong hrun) (run_loadedFile hrun) hcurrent, or_iff_right hcurrent,
      or_iff_right hcontents]

/-- **Whose record a skip counts**: in a run from launch every skip credits the
    file loaded in the global player exactly when each one comes after a move
    whose first load succeeded, or one to the song that was loaded last before,
    or crashes before it saves. -/
theorem credit_iff_history (env : Environment) (contents : List String) (records : List Entity)
    (es : List Event) :
    (∀ pre e post m, es = pre ++ e :: post →
      run (step env) (viewDidLoad contents records) pre = .ok m → CreditsLoaded m e) ↔
      ∀ pre e post, es = pre ++ e :: post →
        (∃ m, run (step env) (viewDidLoad contents records) pre = .ok m) →
        ∀ press, e.Presses press →
          Crashes contents records press ∨ LastLoaded (songsMovedTo env contents records pre) := by
  constructor
  · rintro h pre e post hes ⟨m, hrun⟩ press he
    exact (press_credit_iff hrun press).mp (h pre e post m hes hrun press he)
  · intro h pre e post m hes hrun press he
    exact (press_credit_iff hrun press).mpr (h pre e post hes ⟨m, hrun⟩ press he)

/-- A key pressed right after launch credits the first song of the directory,
    with nothing loaded. -/
theorem key_credits_unloaded_song :
    (viewDidLoad ["one", "two"] []).loadedFile = none ∧
    ∃ c', (viewDidLoad ["one", "two"] []).skipUpdate ⟨some .inserted, true, false⟩ = .ok c' ∧
      c'.objects = [newSong "one"] ∧
      ¬ CreditsOnly (viewDidLoad ["one", "two"] []).loadedFile
        (viewDidLoad ["one", "two"] []).context c' := by
  refine ⟨rfl, _, rfl, rfl, ?_⟩
  intro h
  obtain ⟨name, hfile, -⟩ := h 0 (newSong "one") rfl (by decide)
  cases hfile

end Mac3amPanel
