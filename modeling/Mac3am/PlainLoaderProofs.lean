import Mac3am.NavigationProofs

/-! # The re-entrant loader and a plain one

    `load_Play_Music` selects the row it plays, the table calls the selection
    handler inside it, and that one calls `load_Play_Music` again.  `Deck` is
    what a user sees of the panel, and `playRow` is the loader one would write
    instead: it selects the row in silence and loads once.

    * `reentrant_refines_plain` — where the file loads, the deck is the one of
      the plain loader, after one load or two;
    * `failed_load_consistent_iff` — where it does not, the error path only
      prints, and the deck stays consistent only if nothing played and the
      target is the current song. -/

namespace Mac3amPanel

open Swift TrapRun Mac3amStore

variable {env : Environment} {s s' m : Panel} {e : Event} {url : URL}

/-- What a user sees of the panel, and hears of the global player. -/
structure Deck where
  currentMusicIndex : Int
  selectedRow : Int
  file : Option URL
  isPlaying : Option Bool
  playBtnImage : NSImage
  playBtnEnabled : Bool
  isIndeterminate : Bool
  maxValue : TimeInterval
  albumArt : NSImage
deriving DecidableEq, Repr

def Panel.deck (s : Panel) : Deck where
  currentMusicIndex := s.currentMusicIndex
  selectedRow := s.selectedRow
  file := s.globalPlayer.map AVAudioPlayer.url
  isPlaying := s.globalPlayer.map AVAudioPlayer.isPlaying
  playBtnImage := s.playBtnImage
  playBtnEnabled := s.playBtnEnabled
  isIndeterminate := s.isIndeterminate
  maxValue := s.maxValue
  albumArt := s.albumArt

/-- The plain loader: it selects the current row without a notification, and
    loads once. -/
def playRow (env : Environment) (url : URL) (s : Panel) : Panel :=
  plainLoad env url { s with selectedRow := s.currentMusicIndex, playBtnEnabled := true }

/-- The deck of a plain load that succeeds. -/
def loadedDeck (env : Environment) (url : URL) (s : Panel) : Deck where
  currentMusicIndex := s.currentMusicIndex
  selectedRow := s.currentMusicIndex
  file := some url
  isPlaying := some true
  playBtnImage := .named "pause-2"
  playBtnEnabled := true
  isIndeterminate := false
  maxValue := env.duration url
  albumArt := artworkOf env (env.metadata url) s.albumArt

/-- Starting a player and finishing its load shows it, whatever the panel was. -/
theorem started_deck (env : Environment) (url : URL) (s : Panel) :
    ((s.tried.start (env.audioPlayer url)).finish env url).deck
      = { loadedDeck env url s with
          selectedRow := s.selectedRow, playBtnEnabled := s.playBtnEnabled } := by
  have hplayer : ((s.tried.start (env.audioPlayer url)).finish env url).globalPlayer
      = some { env.audioPlayer url with isPlaying := true } :=
    start_globalPlayer (env.audioPlayer url) s.tried
  rw [Panel.deck, hplayer]
  simp [loadedDeck, Environment.audioPlayer]

theorem playRow_deck (hinit : env.initSucceeds s.loads url = true) :
    (playRow env url s).deck = loadedDeck env url s := by
  rw [playRow, plainLoad, if_pos hinit, started_deck]
  rfl

/-- A load of a file that loads shows the deck of the plain loader, once the
    button is enabled for a row that is selected already. -/
theorem settled_deck (hloads : ∀ k, env.initSucceeds k url = true)
    (henabled : m.selectedRow = m.currentMusicIndex → m.playBtnEnabled = true) :
    (settled env url m).deck = loadedDeck env url m ∧
    (settled env url m).loads
      = m.loads + if m.selectedRow = m.currentMusicIndex then 1 else 2 := by
  rcases settled_cases env url m with ⟨hfail, -⟩ | ⟨-, hrow, heq⟩ | ⟨-, -, hfail, -⟩ |
      ⟨-, hrow, -, heq⟩
  · cases (hloads _).symm.trans hfail
  · -- the row was selected already: one load
    rw [heq, started_deck, if_pos hrow, henabled hrow, hrow]
    exact ⟨rfl, rfl⟩
  · cases (hloads _).symm.trans hfail
  · -- the row is selected inside the first load: a second one
    rw [heq, if_neg hrow]
    refine ⟨?_, rfl⟩
    have hinner := started_deck env url (m.reentered env url)
    have houter : (((((m.reentered env url).tried.start (env.audioPlayer url)).finish env
        url)).finish env url).deck
        = { (((m.reentered env url).tried.start (env.audioPlayer url)).finish env url).deck with
            albumArt := artworkOf env (env.metadata url)
              (artworkOf env (env.metadata url) (m.reentered env url).albumArt) } := rfl
    rw [houter, hinner, artworkOf_idem]
    rfl

/-! ## The enabled button -/

/-- The play button is enabled as soon as a row was selected. -/
def EnabledOnceSelected (s : Panel) : Prop := s.selectedRow ≠ -1 → s.playBtnEnabled = true

theorem settled_enabled (env : Environment) (url : URL) (h : EnabledOnceSelected m) :
    EnabledOnceSelected (settled env url m) := by
  rcases settled_cases env url m with ⟨-, heq⟩ | ⟨-, -, heq⟩ | ⟨-, -, -, heq⟩ | ⟨-, -, -, heq⟩
  · rw [heq]
    exact h
  · rw [heq]
    exact h
  · rw [heq]
    exact fun _ => rfl
  · rw [heq]
    exact fun _ => rfl

theorem entry_enabled (hentry : entry s e = some m) (h : EnabledOnceSelected s) :
    EnabledOnceSelected m := by
  rcases entry_cases hentry with ⟨row, -, -, -, -, rfl⟩ | ⟨-, rfl⟩ | ⟨press, c, -, -, rfl⟩
  · exact fun _ => rfl
  · exact h
  · exact h

theorem step_enabled (h : EnabledOnceSelected s) (hstep : step env s e = .ok s') :
    EnabledOnceSelected s' := by
  rcases step_cases hstep with ⟨m, url, hentry, -, rfl⟩ | ⟨-, hidle⟩
  · exact settled_enabled env url (entry_enabled hentry h)
  · rw [EnabledOnceSelected, hidle.selectedRow, hidle.playBtnEnabled]
    exact h

theorem Reachable.enabled {contents : List String} {records : List Entity}
    (h : Reachable env contents records s) : EnabledOnceSelected s := by
  obtain ⟨es, hrun⟩ := h
  exact run_invariant (fun _ _ _ => step_enabled) (fun hrow => absurd rfl hrow) hrun

/-- **The re-entrant loader refines the plain one**: in every reachable state,
    an event that moves to a song in range whose file loads ends, after one
    load if the row was selected already and after two otherwise, with the deck
    of the plain loader: that row, that file playing, the pause image on an
    enabled button, and that file's duration. -/
theorem reentrant_refines_plain (env : Environment) (contents : List String)
    (records : List Entity) {s m : Panel} {e : Event} {url : URL}
    (hreach : Reachable env contents records s) (hentry : entry s e = some m)
    (hurl : m.currentURL env = some url) (hloads : ∀ k, env.initSucceeds k url = true) :
    ∃ s', step env s e = .ok s' ∧
      s'.loads = s.loads + (if m.selectedRow = m.currentMusicIndex then 1 else 2) ∧
      s'.deck = (playRow env url m).deck ∧
      s'.deck = loadedDeck env url m := by
  have hin : 0 ≤ m.currentMusicIndex := by
    obtain ⟨song, hsong, -⟩ := Option.map_eq_some_iff.mp hurl
    exact (subscript_isSome.mp ⟨song, hsong⟩).1
  -- previous and skip do not enable the button; an earlier selection has
  have henabled : m.selectedRow = m.currentMusicIndex → m.playBtnEnabled = true := by
    intro hrow
    exact entry_enabled hentry hreach.enabled (by omega)
  have hsame : m.loads = s.loads := (entry_moved hentry).loads
  obtain ⟨hdeck, hcount⟩ := settled_deck (m := m) hloads henabled
  refine ⟨settled env url m, ?_, hsame ▸ hcount, ?_, hdeck⟩
  · rw [step_of_entry hentry, loadCurrent_eq hurl]
  · rw [playRow_deck (hloads _), hdeck]

/-- Back from the first song to the second, whose row is not selected: two
    loads more, and the deck of one. -/
theorem reentrant_refines_plain_previous :
    ∃ s s', run (step (.plain fun _ _ => true)) (viewDidLoad ["one", "two"] [])
        [.selection 0] = .ok s ∧
      step (.plain fun _ _ => true) s .previous = .ok s' ∧
      s'.loads = 3 ∧ s'.deck.file = some ⟨"Mac3am Music", "two"⟩ := by
  obtain ⟨s', hs', hcount, -, hdeck⟩ := reentrant_refines_plain (.plain fun _ _ => true)
    ["one", "two"] [] ⟨[.selection 0], rfl⟩ (e := .previous) rfl rfl (fun _ => rfl)
  exact ⟨_, s', rfl, hs', hcount, by rw [hdeck]; rfl⟩

/-! ## A load that fails -/

/-- The selected row is the current index, the global player was loaded from
    the song there, and the button shows the pause image exactly while it
    plays. -/
def Consistent (env : Environment) (s : Panel) : Prop :=
  s.selectedRow = s.currentMusicIndex ∧
    ∃ p, s.globalPlayer = some p ∧ s.currentURL env = some p.url ∧
      (s.playBtnImage = .named "pause-2" ↔ p.isPlaying = true)

/-- The target of an event is the song that is current already. -/
def TargetsCurrent (s : Panel) : Event → Prop
  | .selection row => subscript s.musicList row = s.currentSong
  | .previous => previousIndex s.musicList.length s.currentMusicIndex = s.currentMusicIndex
  | .skip _ | .key _ => nextIndex s.musicList.length s.currentMusicIndex = s.currentMusicIndex
  | _ => True

theorem stop_globalPlayer (s : Panel) :
    s.stop.globalPlayer = s.globalPlayer.map fun p => { p with isPlaying := false } := by
  cases hk : s.player with
  | none => simp [Panel.globalPlayer, hk]
  | some k => simp [Panel.globalPlayer, hk, List.getElem?_modify_eq]

/-- After stopping, a panel that went to song `i` and row `row` without a load
    is consistent exactly when it did not play and went to its own song. -/
theorem moved_consistent_iff {p : AVAudioPlayer} (hplayer : s.globalPlayer = some p)
    (hlist : m.musicList = s.musicList) (hstopped : m.globalPlayer = s.stop.globalPlayer)
    (himage : m.playBtnImage = s.playBtnImage) (hfile : s.currentURL env = some p.url)
    (hpause : s.playBtnImage = .named "pause-2" ↔ p.isPlaying = true) :
    Consistent env m ↔
      p.isPlaying = false ∧ m.selectedRow = m.currentMusicIndex ∧
        subscript s.musicList m.currentMusicIndex = s.currentSong := by
  have hsilent : m.globalPlayer = some { p with isPlaying := false } := by
    rw [hstopped, stop_globalPlayer, hplayer]
    rfl
  have hurl : m.currentURL env = some p.url ↔
      subscript s.musicList m.currentMusicIndex = s.currentSong := by
    have hinj : Function.Injective fun name =>
        ({ directory := env.dataPath, lastPathComponent := name } : URL) :=
      fun _ _ heq => congrArg URL.lastPathComponent heq
    rw [← hfile, Panel.currentURL, Panel.currentURL, Panel.currentSong, hlist]
    exact (Option.map_injective hinj).eq_iff
  constructor
  · rintro ⟨hrow, q, hq, hsong, hq'⟩
    obtain rfl : { p with isPlaying := false } = q := Option.some.inj (hsilent.symm.trans hq)
    refine ⟨?_, hrow, hurl.mp hsong⟩
    cases hplays : p.isPlaying with
    | false => rfl
    | true =>
        rw [himage] at hq'
        exact (hq'.mp (hpause.mpr hplays)).symm
  · rintro ⟨hplays, hrow, hsong⟩
    refine ⟨hrow, _, hsilent, hurl.mpr hsong, ?_⟩
    rw [himage, hpause, hplays]

/-- A button whose load fails leaves the selected row behind, unless it leads
    back to the same index. -/
theorem button_consistent_iff {p : AVAudioPlayer} (hplayer : s.globalPlayer = some p)
    (hlist : m.musicList = s.musicList) (hstopped : m.globalPlayer = s.stop.globalPlayer)
    (himage : m.playBtnImage = s.playBtnImage) (hselected : m.selectedRow = s.selectedRow)
    (hrow : s.selectedRow = s.currentMusicIndex) (hfile : s.currentURL env = some p.url)
    (hpause : s.playBtnImage = .named "pause-2" ↔ p.isPlaying = true) :
    Consistent env m ↔ p.isPlaying = false ∧ m.currentMusicIndex = s.currentMusicIndex := by
  rw [moved_consistent_iff hplayer hlist hstopped himage hfile hpause]
  constructor
  · rintro ⟨hplays, hsel, -⟩
    exact ⟨hplays, hsel.symm.trans (hselected.trans hrow)⟩
  · rintro ⟨hplays, hindex⟩
    refine ⟨hplays, ?_, ?_⟩
    · rw [hselected, hrow, hindex]
    · rw [hindex]
      rfl

/-- **A load that fails**: from a consistent state, an event to a song in range
    whose initialisation throws ends in a consistent state exactly when the
    player was not playing and the target is the current song. -/
theorem failed_load_consistent_iff (env : Environment) {s m : Panel} {e : Event} {url : URL}
    (hc : Consistent env s) (hentry : entry s e = some m) (hurl : m.currentURL env = some url)
    (hfail : env.initSucceeds m.loads url = false) :
    ∃ s', step env s e = .ok s' ∧
      (Consistent env s' ↔
        s.globalPlayer.map AVAudioPlayer.isPlaying = some false ∧ TargetsCurrent s e) := by
  obtain ⟨hrow, p, hplayer, hfile, hpause⟩ := hc
  -- the catch only prints: what is left is the state the loader was called in
  have hsettled : settled env url m = m.tried := by
    rcases settled_cases env url m with ⟨-, heq⟩ | ⟨hok, -⟩ | ⟨hok, -⟩ | ⟨hok, -⟩
    · exact heq
    · cases hfail.symm.trans hok
    · cases hfail.symm.trans hok
    · cases hfail.symm.trans hok
  refine ⟨m.tried, ?_, ?_⟩
  · rw [step_of_entry hentry, loadCurrent_eq hurl, hsettled]
  rw [hplayer, Option.map_some, Option.some.injEq]
  rcases entry_cases hentry with ⟨row, rfl, -, -, -, rfl⟩ | ⟨rfl, rfl⟩ | ⟨press, c, he, -, rfl⟩
  · -- a selection moves the row itself: only the file can be the wrong one
    rw [moved_consistent_iff (m := (s.toSelection row).tried) hplayer rfl rfl rfl hfile hpause]
    exact ⟨fun h => ⟨h.1, h.2.2⟩, fun h => ⟨h.1, rfl, h.2⟩⟩
  · exact button_consistent_iff (m := s.toPrevious.tried) hplayer rfl rfl rfl rfl hrow hfile hpause
  · have htargets : TargetsCurrent s e ↔
        nextIndex s.musicList.length s.currentMusicIndex = s.currentMusicIndex := by
      rcases he with rfl | rfl
      · exact Iff.rfl
      · exact Iff.rfl
    rw [htargets]
    exact button_consistent_iff (m := (s.toNext press.connection c).tried) hplayer rfl rfl rfl rfl
      hrow hfile hpause

/-- A playlist of one song that is loaded, paused and then gone: the previous
    button fails to load it again, and the panel still shows it paused. -/
theorem failed_load_consistent_iff_paused :
    ∃ s s', run (step (.plain fun k _ => k == 0)) (viewDidLoad ["one"] [])
        [.selection 0, .play] = .ok s ∧
      step (.plain fun k _ => k == 0) s .previous = .ok s' ∧
      Consistent (.plain fun k _ => k == 0) s' := by
  have hc : ∃ s, run (step (.plain fun k _ => k == 0)) (viewDidLoad ["one"] [])
      [.selection 0, .play] = .ok s ∧ Consistent (.plain fun k _ => k == 0) s ∧
      s.toPrevious.currentURL (.plain fun k _ => k == 0) = some ⟨"Mac3am Music", "one"⟩ ∧
      s.toPrevious.loads = 1 ∧ s.globalPlayer.map AVAudioPlayer.isPlaying = some false ∧
      TargetsCurrent s .previous :=
    ⟨_, rfl, ⟨rfl, _, rfl, rfl, by decide⟩, rfl, rfl, rfl, rfl⟩
  obtain ⟨s, hrun, hs, hurl, hloads, htarget⟩ := hc
  obtain ⟨s', hs', hiff⟩ := failed_load_consistent_iff (.plain fun k _ => k == 0) (e := .previous)
    hs rfl hurl (by rw [hloads]; rfl)
  exact ⟨s, s', hrun, hs', hiff.mpr htarget⟩

/-- A song plays, and the user selects a folder: the panel shows the folder
    selected and the pause image, with the song stopped. -/
theorem selecting_folder_inconsistent :
    ∃ s s', run (step (.plain fun _ url => url.lastPathComponent != "folder"))
        (viewDidLoad ["one", "folder"] []) [.selection 0] = .ok s ∧
      Consistent (.plain fun _ url => url.lastPathComponent != "folder") s ∧
      step (.plain fun _ url => url.lastPathComponent != "folder") s (.selection 1) = .ok s' ∧
      ¬ Consistent (.plain fun _ url => url.lastPathComponent != "folder") s' := by
  refine ⟨_, _, rfl, ⟨rfl, _, rfl, rfl, by decide⟩, rfl, ?_⟩
  rintro ⟨-, p, hp, hfile, -⟩
  cases hp
  exact absurd hfile (by decide)

end Mac3amPanel
