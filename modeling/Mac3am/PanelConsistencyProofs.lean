import Mac3am.PlainLoaderProofs

/-! # What the panel shows over whole runs

    The row, the file in the player and the image on the play button are kept
    in step by hand, by five handlers and two loads of which each may fail.
    They part in three ways: a load that fails after something else was shown,
    a load whose second call fails, and a track that ends by itself, of which
    the controller is never told.

    * `settled_shown_iff` — when a load leaves a consistent panel;
    * `shown_iff_guarded` — so a run never shows anything else than it plays
      exactly when it keeps clear of the three. -/

namespace Mac3amPanel

open Swift TrapRun Mac3amStore

variable {env : Environment} {s s' m : Panel} {e : Event} {url : URL} {k : Nat}

/-- Once a song was loaded, the panel is consistent. -/
def Shown (env : Environment) (s : Panel) : Prop :=
  s.globalPlayer = none ∨ Consistent env s

/-- What an event must do to leave a consistent panel: each call of the loader
    that it makes succeeds, or the only one fails with nothing loaded before or
    silent on its target already; and no track that plays ends. -/
def KeepsShown (env : Environment) (s : Panel) (e : Event) : Prop :=
  (∀ m url, entry s e = some m → m.currentURL env = some url →
    if env.initSucceeds s.loads url = true then
      m.selectedRow = m.currentMusicIndex ∨ env.initSucceeds (s.loads + 1) url = true
    else
      s.globalPlayer = none ∨
        s.globalPlayer.map AVAudioPlayer.isPlaying = some false ∧ TargetsCurrent s e) ∧
  ∀ k p, e = .trackEnds k → s.players[k]? = some p → p.isPlaying = false

/-! ## Panels that look alike -/

/-- Consistency can be read off the deck. -/
theorem shown_congr (hlist : s'.musicList = s.musicList) (hdeck : s'.deck = s.deck) :
    Shown env s' ↔ Shown env s := by
  have hindex : s'.currentMusicIndex = s.currentMusicIndex := congrArg Deck.currentMusicIndex hdeck
  have hrow : s'.selectedRow = s.selectedRow := congrArg Deck.selectedRow hdeck
  have himage : s'.playBtnImage = s.playBtnImage := congrArg Deck.playBtnImage hdeck
  have hfile : s'.globalPlayer.map AVAudioPlayer.url = s.globalPlayer.map AVAudioPlayer.url :=
    congrArg Deck.file hdeck
  have hplays : s'.globalPlayer.map AVAudioPlayer.isPlaying
      = s.globalPlayer.map AVAudioPlayer.isPlaying := congrArg Deck.isPlaying hdeck
  have hurl : s'.currentURL env = s.currentURL env := by
    rw [Panel.currentURL, Panel.currentURL, Panel.currentSong, Panel.currentSong, hlist, hindex]
  rw [Shown, Shown, Consistent, Consistent, hindex, hrow, himage, hurl]
  cases hp : s.globalPlayer with
  | none =>
      rw [hp, Option.map_none] at hfile
      exact iff_of_true (Or.inl (Option.map_eq_none_iff.mp hfile)) (Or.inl rfl)
  | some p =>
      rw [hp, Option.map_some] at hfile hplays
      obtain ⟨p', hp', hfile'⟩ := Option.map_eq_some_iff.mp hfile
      rw [hp', Option.map_some, Option.some.injEq] at hplays
      rw [hp']
      simp only [Option.some.injEq, exists_eq_left', hfile', hplays, reduceCtorEq, false_or]

theorem onPlayer_globalPlayer (k : Nat) (f : AVAudioPlayer → AVAudioPlayer) (s : Panel) :
    (s.onPlayer k f).globalPlayer
      = s.globalPlayer.map fun p => if s.player = some k then f p else p := by
  cases hj : s.player with
  | none => simp [Panel.globalPlayer, Panel.onPlayer, hj]
  | some j =>
      show s.player.bind (fun i => (s.players.modify k f)[i]?) = _
      rw [hj, Option.bind_some, List.getElem?_modify, Panel.globalPlayer, hj, Option.bind_some]
      by_cases hkj : k = j
      · simp [hkj]
      · have hjk : ¬ some j = some k := fun h => hkj (Option.some.inj h).symm
        simp [hkj, hjk]

/-- A player object that changes neither its file nor whether it plays leaves
    the deck alone. -/
theorem onPlayer_deck {f : AVAudioPlayer → AVAudioPlayer}
    (hf : ∀ p, s.players[k]? = some p → (f p).url = p.url ∧ (f p).isPlaying = p.isPlaying) :
    (s.onPlayer k f).deck = s.deck := by
  rw [Panel.deck, Panel.deck, onPlayer_globalPlayer, Option.map_map, Option.map_map]
  cases hp : s.globalPlayer with
  | none => rfl
  | some p =>
      by_cases hk : s.player = some k
      · have hget : s.players[k]? = some p := by
          rw [Panel.globalPlayer, hk] at hp
          exact hp
        obtain ⟨hurl, hplays⟩ := hf p hget
        simp only [if_pos hk, Option.map_some, Function.comp_apply, hurl, hplays]
        rfl
      · simp only [if_neg hk, Option.map_some, Function.comp_apply]
        rfl

/-! ## Loads -/

/-- A load that succeeds, on a row that is or was just selected, is shown. -/
theorem started_consistent (hurl : s.currentURL env = some url)
    (hrow : s.selectedRow = s.currentMusicIndex) :
    Consistent env ((s.tried.start (env.audioPlayer url)).finish env url) :=
  ⟨hrow, _, start_globalPlayer (env.audioPlayer url) s.tried, hurl,
    iff_of_true rfl rfl⟩

/-- A load whose second call fails leaves the pause image on a player that was
    stopped. -/
theorem halfLoaded_not_shown (hq : Quiet m) :
    ¬ Shown env ((m.reentered env url).tried.finish env url) := by
  have hwired : Wired (m.reentered env url) ∧ _ := reentered_wired hq
  obtain ⟨-, hquiet, p, hp, -, -⟩ := hwired
  have hplayer : ((m.reentered env url).tried.finish env url).globalPlayer = some p := hp
  have hsilent : p.isPlaying = false := by
    obtain ⟨j, -, hget⟩ := Option.bind_eq_some_iff.mp hp
    exact hquiet j p hget
  rintro (hnone | ⟨-, q, hq', -, himage⟩)
  · cases hplayer.symm.trans hnone
  · cases hplayer.symm.trans hq'
    have hpause : ((m.reentered env url).tried.finish env url).playBtnImage = .named "pause-2" :=
      rfl
    cases hsilent.symm.trans (himage.mp hpause)

/-- **When a load is shown**: where it succeeds, if the row was selected already
    or its second call succeeds as well; where it fails, if the panel was
    consistent as it stood. -/
theorem settled_shown_iff (hq : Quiet m) (hurl : m.currentURL env = some url) :
    Shown env (settled env url m) ↔
      if env.initSucceeds m.loads url = true then
        m.selectedRow = m.currentMusicIndex ∨ env.initSucceeds (m.loads + 1) url = true
      else Shown env m := by
  rcases settled_cases env url m with ⟨hinit, heq⟩ | ⟨hinit, hrow, heq⟩ |
      ⟨hinit, hrow, hinner, heq⟩ | ⟨hinit, hrow, hinner, heq⟩
  · rw [heq, hinit, if_neg Bool.false_ne_true]
    exact Iff.rfl
  · rw [heq, hinit, if_pos rfl]
    exact iff_of_true (Or.inr (started_consistent hurl hrow)) (Or.inl hrow)
  · rw [heq, hinit, if_pos rfl, hinner]
    refine iff_of_false (halfLoaded_not_shown hq) ?_
    rintro (hsame | hfalse)
    · exact hrow hsame
    · cases hfalse
  · rw [heq, hinit, if_pos rfl, hinner]
    have hinside : Consistent env
        (((m.reentered env url).tried.start (env.audioPlayer url)).finish env url) :=
      started_consistent hurl rfl
    exact iff_of_true (Or.inr hinside) (Or.inr rfl)

/-- Where a consistent panel has moved to a song without a load, it is
    consistent still if nothing was loaded yet, or nothing played and the song
    is the one before. -/
theorem entry_shown_iff (hshown : Shown env s) (hentry : entry s e = some m) :
    Shown env m ↔
      s.globalPlayer = none ∨
        s.globalPlayer.map AVAudioPlayer.isPlaying = some false ∧ TargetsCurrent s e := by
  have hmoved := entry_moved hentry
  have hstopped : m.globalPlayer = s.stop.globalPlayer := by
    rw [Panel.globalPlayer, Panel.globalPlayer, hmoved.player, hmoved.players]
    rfl
  cases hplayer : s.globalPlayer with
  | none =>
      have hnone : m.globalPlayer = none := by
        rw [hstopped, stop_globalPlayer, hplayer]
        rfl
      exact iff_of_true (Or.inl hnone) (Or.inl rfl)
  | some p =>
      have hp : m.globalPlayer ≠ none := by
        rw [hstopped, stop_globalPlayer, hplayer]
        exact Option.some_ne_none _
      obtain ⟨hrow, q, hq, hfile, hpause⟩ :=
        hshown.resolve_left (by rw [hplayer]; exact Option.some_ne_none p)
      obtain rfl : p = q := Option.some.inj (hplayer.symm.trans hq)
      rw [Shown, or_iff_right hp, or_iff_right (Option.some_ne_none p), Option.map_some,
        Option.some.injEq]
      rcases entry_cases hentry with ⟨row, rfl, -, -, -, rfl⟩ | ⟨rfl, rfl⟩ | ⟨press, c, he, -, rfl⟩
      · rw [moved_consistent_iff (m := s.toSelection row) hplayer rfl rfl rfl hfile hpause]
        exact ⟨fun h => ⟨h.1, h.2.2⟩, fun h => ⟨h.1, rfl, h.2⟩⟩
      · exact button_consistent_iff (m := s.toPrevious) hplayer rfl rfl rfl rfl hrow hfile hpause
      · have htargets : TargetsCurrent s e ↔
            nextIndex s.musicList.length s.currentMusicIndex = s.currentMusicIndex := by
          rcases he with rfl | rfl
          · exact Iff.rfl
          · exact Iff.rfl
        rw [htargets]
        exact button_consistent_iff (m := s.toNext press.connection c) hplayer rfl rfl rfl rfl
          hrow hfile hpause

/-! ## Events that load nothing -/

/-- The play button keeps its image in step. -/
theorem playBtnTouched_shown (hshown : Shown env s) : Shown env (playBtnTouched s) := by
  rw [playBtnTouched]
  cases hplayer : s.player with
  | none => exact hshown
  | some k =>
      dsimp only
      cases hget : s.players[k]? with
      | none => exact hshown
      | some p =>
          have hp : s.globalPlayer = some p := by
            rw [Panel.globalPlayer, hplayer]
            exact hget
          obtain ⟨hrow, q, hq, hfile, -⟩ :=
            hshown.resolve_left (by rw [hp]; exact Option.some_ne_none p)
          obtain rfl : p = q := Option.some.inj (hp.symm.trans hq)
          have htoggled : ∀ playing : Bool,
              (s.onPlayer k fun p => { p with isPlaying := playing }).globalPlayer
                = some { p with isPlaying := playing } := by
            intro playing
            rw [onPlayer_globalPlayer, hp, Option.map_some, if_pos hplayer]
          dsimp only
          cases p.isPlaying with
          | true => exact Or.inr ⟨hrow, _, htoggled false, hfile, by simp⟩
          | false => exact Or.inr ⟨hrow, _, htoggled true, hfile, iff_of_true rfl rfl⟩

/-- A track that plays and ends leaves the pause image behind. -/
theorem trackEnds_not_shown {p : AVAudioPlayer} (hshown : Shown env s) (hs : Sound s)
    (hp : s.players[k]? = some p) (hplays : p.isPlaying = true) :
    ¬ Shown env (s.onPlayer k fun p =>
        if p.isPlaying then { p with isPlaying := false, currentTime := 0 } else p) := by
  have hplayer : s.player = some k := hs.playing k p hp hplays
  have hglobal : s.globalPlayer = some p := by
    rw [Panel.globalPlayer, hplayer]
    exact hp
  obtain ⟨-, q, hq, -, hpause⟩ :=
    hshown.resolve_left (by rw [hglobal]; exact Option.some_ne_none p)
  obtain rfl : p = q := Option.some.inj (hglobal.symm.trans hq)
  have hended := onPlayer_globalPlayer k
    (fun p => if p.isPlaying then { p with isPlaying := false, currentTime := 0 } else p) s
  rw [hglobal, Option.map_some, if_pos hplayer, if_pos hplays] at hended
  rintro (hnone | ⟨-, q, hq', -, himage⟩)
  · cases hended.symm.trans hnone
  · cases hended.symm.trans hq'
    cases himage.mp (hpause.mpr hplays)

/-- A track that ends is shown exactly if it did not play. -/
theorem trackEnds_shown_iff (hs : Sound s) (hshown : Shown env s) (k : Nat) :
    (∀ p, s.players[k]? = some p → p.isPlaying = false) ↔
      ∀ s', step env s (.trackEnds k) = .ok s' → Shown env s' := by
  constructor
  · intro hsilent s' hs'
    cases hs'
    refine (shown_congr (s := s) ?_ (onPlayer_deck ?_)).mpr hshown
    · rfl
    · intro p hp
      rw [hsilent p hp]
      exact ⟨rfl, hsilent p hp⟩
  · intro h p hp
    cases hplays : p.isPlaying with
    | false => rfl
    | true => exact absurd (h _ rfl) (trackEnds_not_shown hshown hs hp hplays)

/-- Every other event that loads nothing keeps the panel consistent. -/
theorem still_shown (hshown : Shown env s) (hentry : entry s e = none)
    (htrack : ∀ k, e ≠ .trackEnds k) (hstep : step env s e = .ok s') : Shown env s' := by
  rcases idle_step_cases hentry hstep with rfl | ⟨-, rfl⟩ | ⟨k, rfl, -⟩ | ⟨k, time, -, rfl⟩ |
      ⟨-, rfl⟩ | ⟨-, p, rfl⟩
  · exact hshown
  · exact playBtnTouched_shown hshown
  · exact absurd rfl (htrack k)
  · refine (shown_congr (s := s) ?_ (onPlayer_deck ?_)).mpr hshown
    · rfl
    · intro p _
      cases hplays : p.isPlaying with
      | false => exact ⟨rfl, hplays⟩
      | true => exact ⟨rfl, rfl⟩
  · exact hshown
  · exact hshown

/-- An event that moves to a song keeps a consistent panel consistent exactly
    under its condition. -/
theorem load_shown_iff (hs : Sound s) (hshown : Shown env s) (hentry : entry s e = some m) :
    KeepsShown env s e ↔ ∀ s', step env s e = .ok s' → Shown env s' := by
  have hloads : m.loads = s.loads := (entry_moved hentry).loads
  have htrack : ∀ k p, e = .trackEnds k → s.players[k]? = some p → p.isPlaying = false := by
    rintro k p rfl -
    cases hentry
  rw [KeepsShown, and_iff_left htrack, step_of_entry hentry, hentry]
  cases hurl : m.currentURL env with
  | none =>
      rw [loadCurrent_none hurl]
      refine iff_of_true ?_ fun s' h => nomatch h
      intro m' url hm hurl'
      cases hm
      cases hurl.symm.trans hurl'
  | some url =>
      have hiff := settled_shown_iff (entry_sound hentry hs).2 hurl
      rw [entry_shown_iff hshown hentry, hloads] at hiff
      rw [loadCurrent_eq hurl]
      constructor
      · intro h s' hs'
        cases hs'
        exact hiff.mpr (h m url rfl hurl)
      · intro h m' url' hm hurl'
        cases hm
        cases hurl.symm.trans hurl'
        exact hiff.mp (h _ rfl)

/-- One event keeps a consistent panel consistent exactly under its
    condition. -/
theorem step_shown_iff (hs : Sound s) (hshown : Shown env s) (e : Event) :
    KeepsShown env s e ↔ ∀ s', step env s e = .ok s' → Shown env s' := by
  cases hentry : entry s e with
  | some m => exact load_shown_iff hs hshown hentry
  | none =>
      rw [KeepsShown, and_iff_right fun m url hm _ => nomatch hentry.symm.trans hm]
      by_cases htrack : ∃ k, e = .trackEnds k
      · obtain ⟨k, rfl⟩ := htrack
        rw [← trackEnds_shown_iff hs hshown k]
        exact ⟨fun h p => h k p rfl, fun h j p hj => Event.trackEnds.inj hj ▸ h p⟩
      · have hne : ∀ k, e ≠ .trackEnds k := fun k hk => htrack ⟨k, hk⟩
        exact iff_of_true (fun k _ hk => absurd hk (hne k))
          fun s' hstep => still_shown hshown hentry hne hstep

/-- **The panel shows what it plays, and when**: over every run from launch the
    selected row, the file in the global player and the play button's image
    agree at every moment once a song was loaded, exactly when every event of
    the run keeps to its condition. -/
theorem shown_iff_guarded (env : Environment) (contents : List String) (records : List Entity)
    (es : List Event) :
    (∀ pre post m, es = pre ++ post → run (step env) (viewDidLoad contents records) pre = .ok m →
        Shown env m) ↔
      Guarded (step env) (KeepsShown env) (viewDidLoad contents records) es :=
  always_iff_guarded (P := Sound) (fun _ _ _ hs hstep => step_sound hs hstep)
    (fun _ e hs hshown => step_shown_iff hs hshown e) (viewDidLoad_sound contents records)
    (Or.inl rfl)

end Mac3amPanel
