import Mac3am.PanelInvariantProofs

/-! # Every player object is accounted for

    A load makes a player object, queues one more block on the progress queue,
    and may do both a second time from inside the table.  None of them is ever
    taken back while the panel lives, so what a run leaves behind is a matter of
    counting.

    * `created` — the files whose initialisations succeed, among those tried;
    * `settled_accounted`, `step_accounted` — what one load, and one event, adds;
    * `players_accounted` — over a run, the players are exactly the successes of
      its tries, with one progress block each, and there are at most two tries
      for each time it moves to a song. -/

namespace Mac3amPanel

open Swift TrapRun Mac3amStore

variable {env : Environment} {s s' m : Panel} {e : Event} {url : URL} {tried : List URL}

/-- Of the files tried in this order, those whose initialisation succeeds. -/
def created (env : Environment) (tried : List URL) : List URL :=
  (tried.zipIdx.filter fun attempt => env.initSucceeds attempt.2 attempt.1).map Prod.fst

/-- The files an event initialises players for: the one of the song it moves to,
    and once more where the first time succeeds and the selection follows. -/
def triedBy (env : Environment) (s : Panel) (e : Event) : Option (List URL) :=
  (entry s e).bind fun m => (m.currentURL env).map fun url =>
    if env.initSucceeds m.loads url = true ∧ m.selectedRow ≠ m.currentMusicIndex then [url, url]
    else [url]

/-- All files that a run initialises players for, in order. -/
def triedFiles (env : Environment) (s : Panel) (es : List Event) : List URL :=
  (observed (step env) (triedBy env) s es).flatten

/-- The event asks for a move to another song. -/
def Event.navigates : Event → Bool
  | .selection _ | .previous | .skip _ | .key _ => true
  | _ => false

/-- The event is a press with a camera connection. -/
def Event.connects : Event → Bool
  | .skip press | .key press => press.connection
  | _ => false

theorem created_snoc (env : Environment) (tried : List URL) (url : URL) :
    created env (tried ++ [url])
      = created env tried ++ if env.initSucceeds tried.length url then [url] else [] := by
  rw [created, List.zipIdx_append, List.filter_append, List.map_append, ← created,
    List.zipIdx_singleton, Nat.zero_add, List.filter_cons, List.filter_nil]
  dsimp only
  cases env.initSucceeds tried.length url with
  | true => rfl
  | false => rfl

/-! ## What a load adds -/

/-- The player objects are those the tries have created. -/
structure Accounted (env : Environment) (tried : List URL) (s : Panel) : Prop where
  loads : s.loads = tried.length
  players : s.players.map AVAudioPlayer.url = created env tried
  duration : ∀ p ∈ s.players, p.duration = env.duration p.url

/-- Pausing, starting and playing on change no file. -/
theorem Kept.urls {player : Option Nat} {l l' : List AVAudioPlayer} (h : Kept player l l') :
    l'.map AVAudioPlayer.url = l.map AVAudioPlayer.url := by
  refine List.ext_getElem? fun k => ?_
  rw [List.getElem?_map, List.getElem?_map]
  cases hk : l'[k]? with
  | some p' =>
      obtain ⟨p, hp, hurl, -, -⟩ := h.2 k p' hk
      rw [hp, Option.map_some, Option.map_some, hurl]
  | none =>
      have hlast : l.length ≤ k := h.1 ▸ List.getElem?_eq_none_iff.mp hk
      rw [List.getElem?_eq_none_iff.mpr hlast]

theorem Accounted.kept (h : Accounted env tried s) (hkept : Kept s.player s.players s'.players)
    (hloads : s'.loads = s.loads) : Accounted env tried s' where
  loads := hloads.trans h.loads
  players := hkept.urls.trans h.players
  duration := by
    intro p' hp'
    obtain ⟨k, hk⟩ := List.mem_iff_getElem?.mp hp'
    obtain ⟨p, hp, hurl, hduration, -⟩ := hkept.2 k p' hk
    rw [hduration, hurl]
    exact h.duration p (List.mem_of_getElem? hp)

theorem Accounted.fails (h : Accounted env tried s) (hinit : env.initSucceeds s.loads url = false) :
    Accounted env (tried ++ [url]) s.tried where
  loads := by
    rw [List.length_append, List.length_singleton, ← h.loads]
    rfl
  players := by
    rw [created_snoc, ← h.loads, hinit, if_neg Bool.false_ne_true, List.append_nil]
    exact h.players
  duration := h.duration

theorem Accounted.succeeds (h : Accounted env tried s)
    (hinit : env.initSucceeds s.loads url = true) :
    Accounted env (tried ++ [url]) (s.tried.start (env.audioPlayer url)) where
  loads := by
    rw [List.length_append, List.length_singleton, ← h.loads]
    rfl
  players := by
    rw [created_snoc, ← h.loads, hinit, if_pos rfl, ← h.players]
    exact List.map_append
  duration := by
    intro p hp
    rcases List.mem_append.mp hp with hold | hnew
    · exact h.duration p hold
    · rw [List.mem_singleton.mp hnew]
      rfl

theorem Accounted.finish (h : Accounted env tried s) : Accounted env tried (s.finish env url) :=
  ⟨h.loads, h.players, h.duration⟩

/-- The first player of a load that the table re-enters is stopped again. -/
theorem Accounted.reentered (h : Accounted env tried s)
    (hinit : env.initSucceeds s.loads url = true) :
    Accounted env (tried ++ [url]) (s.reentered env url) :=
  (h.succeeds hinit).kept (stop_kept _) rfl

/-- **What a load adds**: a try of the file, and a second one where it
    re-enters. -/
theorem settled_accounted (h : Accounted env tried s) :
    Accounted env (tried ++
      if env.initSucceeds s.loads url = true ∧ s.selectedRow ≠ s.currentMusicIndex then [url, url]
      else [url]) (settled env url s) := by
  rcases settled_cases env url s with ⟨hinit, heq⟩ | ⟨hinit, hrow, heq⟩ |
      ⟨hinit, hrow, hagain, heq⟩ | ⟨hinit, hrow, hagain, heq⟩
  · rw [heq, if_neg fun hre => Bool.false_ne_true (hinit.symm.trans hre.1)]
    exact h.fails hinit
  · rw [heq, if_neg fun hre => hre.2 hrow]
    exact (h.succeeds hinit).finish
  · rw [heq, if_pos ⟨hinit, hrow⟩, List.append_cons]
    exact ((h.reentered hinit).fails hagain).finish
  · rw [heq, if_pos ⟨hinit, hrow⟩, List.append_cons]
    exact ((h.reentered hinit).succeeds hagain).finish.finish

/-- A load queues a progress block for each player it makes. -/
theorem settled_blocks (env : Environment) (url : URL) (s : Panel) :
    (settled env url s).progressBlocks + s.players.length
      = s.progressBlocks + (settled env url s).players.length := by
  have hreentered : (s.reentered env url).players.length = s.players.length + 1 :=
    reentered_length env url s
  rcases settled_cases env url s with ⟨-, heq⟩ | ⟨-, -, heq⟩ | ⟨-, -, -, heq⟩ | ⟨-, -, -, heq⟩
  · rw [heq]
    rfl
  · have hlength := start_length (env.audioPlayer url) s.tried
    rw [heq]
    show s.progressBlocks + 1 + s.players.length
      = s.progressBlocks + (s.tried.start (env.audioPlayer url)).players.length
    rw [hlength]
    show _ = s.progressBlocks + (s.players.length + 1)
    omega
  · rw [heq]
    show s.progressBlocks + 1 + s.players.length
      = s.progressBlocks + (s.reentered env url).players.length
    omega
  · have hlength := start_length (env.audioPlayer url) (s.reentered env url).tried
    rw [heq]
    show s.progressBlocks + 1 + 1 + s.players.length
      = s.progressBlocks + ((s.reentered env url).tried.start (env.audioPlayer url)).players.length
    rw [hlength]
    show _ = s.progressBlocks + ((s.reentered env url).players.length + 1)
    omega

theorem settled_captures (env : Environment) (url : URL) (s : Panel) :
    (settled env url s).captures = s.captures := by
  rcases settled_cases env url s with ⟨-, heq⟩ | ⟨-, -, heq⟩ | ⟨-, -, -, heq⟩ | ⟨-, -, -, heq⟩
  · rw [heq]
    simp
  · rw [heq]
    simp
  · rw [heq]
    simp
  · rw [heq]
    simp

/-! ## What an event adds -/

theorem entry_blocks (h : entry s e = some m) : m.progressBlocks = s.progressBlocks := by
  rcases entry_cases h with ⟨row, -, -, -, -, rfl⟩ | ⟨-, rfl⟩ | ⟨press, c, -, -, rfl⟩
  · rfl
  · rfl
  · rfl

theorem entry_navigates (h : entry s e = some m) : e.navigates = true := by
  rcases entry_cases h with ⟨row, rfl, -, -, -, -⟩ | ⟨rfl, -⟩ | ⟨press, c, rfl | rfl, -, -⟩
  · rfl
  · rfl
  · rfl
  · rfl

theorem toNext_captures (connection : Bool) (c : ManagedObjectContext) (s : Panel) :
    (s.toNext connection c).captures = s.captures + if connection then 1 else 0 := by
  cases connection with
  | true => rfl
  | false => rfl

theorem playBtnTouched_captures (s : Panel) : (playBtnTouched s).captures = s.captures := by
  rw [playBtnTouched]
  split
  · rfl
  · split
    · rfl
    · split
      · rfl
      · rfl

/-- An event that returns starts a capture exactly where it connects. -/
theorem step_captures (hstep : step env s e = .ok s') :
    s'.captures = s.captures + if e.connects then 1 else 0 := by
  rcases step_cases hstep with ⟨m, url, hentry, -, rfl⟩ | ⟨hentry, -⟩
  · rw [settled_captures]
    rcases entry_cases hentry with ⟨row, rfl, -, -, -, rfl⟩ | ⟨rfl, rfl⟩ |
        ⟨press, c, rfl | rfl, -, rfl⟩
    · rfl
    · rfl
    · exact toNext_captures press.connection c s
    · exact toNext_captures press.connection c s
  · have hidle : e.connects = false := by
      cases e with
      | skip press => exact absurd hentry (Event.Presses.entry_ne_none (Or.inl rfl) hstep)
      | key press => exact absurd hentry (Event.Presses.entry_ne_none (Or.inr rfl) hstep)
      | _ => rfl
    rw [hidle, if_neg Bool.false_ne_true, Nat.add_zero]
    rcases idle_step_cases hentry hstep with rfl | ⟨-, rfl⟩ | ⟨k, -, rfl⟩ | ⟨k, time, -, rfl⟩ |
        ⟨-, rfl⟩ | ⟨-, p, rfl⟩
    · rfl
    · exact playBtnTouched_captures s
    · rfl
    · rfl
    · rfl
    · rfl

/-- **What an event adds**: the tries it makes, with a progress block for each
    player. -/
theorem step_accounted (h : Accounted env tried s) (hblocks : s.progressBlocks = s.players.length)
    (hstep : step env s e = .ok s') :
    Accounted env (tried ++ ((triedBy env s e).toList).flatten) s' ∧
      s'.progressBlocks = s'.players.length := by
  rcases step_cases hstep with ⟨m, url, hentry, hurl, rfl⟩ | ⟨hentry, hidle⟩
  · obtain hmoved := entry_moved hentry
    have hkept : Kept s.player s.players m.players := by
      rw [hmoved.players]
      exact stop_kept s
    have htried : triedBy env s e = some
        (if env.initSucceeds m.loads url = true ∧ m.selectedRow ≠ m.currentMusicIndex
          then [url, url] else [url]) := by
      rw [triedBy, hentry, Option.bind_some, hurl, Option.map_some]
    refine ⟨?_, ?_⟩
    · rw [htried, Option.toList_some, List.flatten_singleton]
      exact settled_accounted (h.kept hkept hmoved.loads)
    · have hsettled := settled_blocks env url m
      rw [entry_blocks hentry, hblocks, hkept.1] at hsettled
      omega
  · refine ⟨?_, ?_⟩
    · rw [triedBy, hentry, Option.bind_none, Option.toList_none, List.flatten_nil, List.append_nil]
      exact h.kept hidle.players hidle.loads
    · rw [hidle.progressBlocks, hidle.players.1]
      exact hblocks

/-- What is tried is a file of the playlist. -/
theorem triedBy_mem {l : List URL} (h : triedBy env s e = some l) (hurl : url ∈ l) :
    ∃ name ∈ s.musicList, url = env.file name := by
  obtain ⟨m, hentry, hm⟩ := Option.bind_eq_some_iff.mp h
  obtain ⟨file, hfile, rfl⟩ := Option.map_eq_some_iff.mp hm
  have hsame : url = file := by
    split at hurl
    · rcases List.mem_pair.mp hurl with rfl | rfl
      · rfl
      · rfl
    · exact List.mem_singleton.mp hurl
  obtain ⟨name, hname, rfl⟩ := Option.map_eq_some_iff.mp hfile
  have hlist : m.musicList = s.musicList := (entry_moved hentry).musicList
  exact ⟨name, hlist ▸ subscript_mem hname, hsame⟩

theorem settled_loads (env : Environment) (url : URL) (s : Panel) :
    (settled env url s).loads ≤ s.loads + 2 := by
  rcases settled_cases env url s with ⟨-, heq⟩ | ⟨-, -, heq⟩ | ⟨-, -, -, heq⟩ | ⟨-, -, -, heq⟩
  · rw [heq]
    exact Nat.le_succ _
  · rw [heq]
    exact Nat.le_succ _
  · rw [heq]
    exact Nat.le_refl _
  · rw [heq]
    exact Nat.le_refl _

theorem step_loads (hstep : step env s e = .ok s') :
    s'.loads ≤ s.loads + 2 * if e.navigates then 1 else 0 := by
  rcases step_cases hstep with ⟨m, url, hentry, -, rfl⟩ | ⟨-, hidle⟩
  · rw [entry_navigates hentry, if_pos rfl, ← (entry_moved hentry).loads]
    exact settled_loads env url m
  · rw [hidle.loads]
    exact Nat.le_add_right _ _

/-! ## What a run adds -/

/-- **Every player object is accounted for**: after any run the initialisations
    tried were of files of the playlist, at most two for each move to a song;
    the player objects are exactly those that succeeded, in order, each with the
    duration of its file and one block on the progress queue; and the captures
    are the presses that found a connection. -/
theorem players_accounted (env : Environment) (contents : List String) (records : List Entity)
    {es : List Event} (h : run (step env) (viewDidLoad contents records) es = .ok s) :
    s.loads = (triedFiles env (viewDidLoad contents records) es).length ∧
    s.players.map AVAudioPlayer.url
      = created env (triedFiles env (viewDidLoad contents records) es) ∧
    (∀ p ∈ s.players, p.duration = env.duration p.url) ∧
    s.progressBlocks = s.players.length ∧
    (∀ url ∈ triedFiles env (viewDidLoad contents records) es,
      ∃ name ∈ contents, url = env.file name) ∧
    s.loads ≤ 2 * es.countP Event.navigates ∧
    s.captures = es.countP Event.connects := by
  let R : List (List URL) → Panel → Prop := fun seen m =>
    Accounted env seen.flatten m ∧ m.progressBlocks = m.players.length ∧ m.musicList = contents ∧
      ∀ url ∈ seen.flatten,
        ∃ name ∈ contents, url = env.file name
  have hstart : R [] (viewDidLoad contents records) :=
    ⟨⟨rfl, rfl, fun _ hp => nomatch hp⟩, rfl, rfl, fun _ hurl => nomatch hurl⟩
  have hstep : ∀ seen m e m', True → R seen m → step env m e = .ok m' →
      R (seen ++ (triedBy env m e).toList) m' := by
    rintro seen m e m' - ⟨haccounted, hblocks, hlist, hfiles⟩ hm
    obtain ⟨haccounted', hblocks'⟩ := step_accounted haccounted hblocks hm
    refine ⟨List.flatten_append ▸ haccounted', hblocks', (step_musicList hm).trans hlist, ?_⟩
    intro url hurl
    rw [List.flatten_append] at hurl
    rcases List.mem_append.mp hurl with hold | hnew
    · exact hfiles url hold
    · obtain ⟨l, hl, hurl⟩ := List.mem_flatten.mp hnew
      exact hlist ▸ triedBy_mem (Option.mem_toList.mp hl) hurl
  obtain ⟨haccounted, hblocks, -, hfiles⟩ :=
    run_observes (F := fun _ => True) hstep (fun _ _ => trivial) hstart h
  rw [List.nil_append] at haccounted hfiles
  -- tries and captures, counted by the events that ask for them
  have hloads := run_count_le (c := 2) (fun _ _ _ hm => step_loads hm) h
  have hcaptures := run_count (fun _ _ _ hm => step_captures hm) h
  exact ⟨haccounted.loads, haccounted.players, haccounted.duration, hblocks, hfiles,
    hloads.trans (Nat.le_of_eq (Nat.zero_add _)), hcaptures.trans (Nat.zero_add _)⟩

/-- A move back to the last of two songs makes two players; one more to a file
    that cannot be played makes none. -/
theorem players_accounted_two_songs :
    ∃ s, run (step (.plain fun _ url => url.lastPathComponent = "two"))
        (viewDidLoad ["one", "two"] []) [.previous, .selection 0] = .ok s ∧
      s.players.length = 2 ∧ s.progressBlocks = 2 ∧ s.loads = 3 := by
  have h := players_accounted (.plain fun _ url => url.lastPathComponent = "two") ["one", "two"] []
    (show run _ _ [.previous, .selection 0] = .ok _ from rfl)
  refine ⟨_, rfl, rfl, h.2.2.2.1, h.1.trans ?_⟩
  decide

end Mac3amPanel
