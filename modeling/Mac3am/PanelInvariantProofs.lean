import Mac3am.PanelLoaderProofs

/-! # One song at a time

    Every load makes a player object, starts it and re-enters the same handler,
    which stops it, makes another one and returns into the outer load.  What
    survives all of it is `Sound`: only the object the global `player` refers
    to may play, `currentMusicPlayer` is that object, and the progress
    indicator is set up for it.

    * `settled_sound` — a load restores `Sound` from a silent panel, whether
      the outer load, the inner one, both or neither succeed;
    * `step_sound`, `Reachable.sound` — so every event keeps it;
    * `plays_one_song` — the panel plays one song at a time, and no progress
      tick ever unwraps `nil`. -/

namespace Mac3amPanel

open Swift TrapRun Mac3amStore

variable {env : Environment} {s s' : Panel} {url : URL}

/-- No player object plays. -/
def Quiet (s : Panel) : Prop :=
  ∀ (k : Nat) (p : AVAudioPlayer), s.players[k]? = some p → p.isPlaying = false

/-- Only the global player may play, it exists once any player object does,
    and nothing asks for the position of a player before that. -/
structure Wired (s : Panel) : Prop where
  playing : ∀ (k : Nat) (p : AVAudioPlayer), s.players[k]? = some p → p.isPlaying = true →
    s.player = some k
  current : s.currentMusicPlayer = s.player
  valid : ∀ k, s.player = some k → k < s.players.length
  loaded : s.player = none → s.players = []
  asked : s.player = none → s.progressBlocks = 0 ∧ s.postedTicks = 0

/-- The invariant of the panel between events. -/
structure Sound (s : Panel) : Prop extends Wired s where
  maxValue : ∀ p, s.globalPlayer = some p → s.maxValue = p.duration

theorem viewDidLoad_sound (contents : List String) (records : List Entity) :
    Sound (viewDidLoad contents records) where
  playing := fun _ _ hp => nomatch hp
  current := rfl
  valid := fun _ hk => nomatch hk
  loaded := fun _ => rfl
  asked := fun _ => ⟨rfl, rfl⟩
  maxValue := fun _ hp => nomatch hp

/-- A wired panel has a global player as soon as it refers to one. -/
theorem Wired.globalPlayer (h : Wired s) (hplayer : s.player ≠ none) :
    ∃ p, s.globalPlayer = some p := by
  cases hk : s.player with
  | none => exact absurd hk hplayer
  | some k =>
      have hlt : k < s.players.length := h.valid k hk
      refine ⟨s.players[k], ?_⟩
      rw [Panel.globalPlayer, hk, Option.bind_some, List.getElem?_eq_getElem hlt]

theorem Wired.player_ne_none (h : Wired s) (hplayers : s.players ≠ []) : s.player ≠ none :=
  fun hnone => hplayers (h.loaded hnone)

/-! ## Stopping and starting -/

/-- Stopping the global player keeps the list of player objects. -/
theorem stop_kept (s : Panel) : Kept s.player s.players s.stop.players := by
  rw [Panel.stop_players]
  cases s.player with
  | none => exact Kept.refl none s.players
  | some k => exact kept_modify fun p => ⟨rfl, rfl, fun hp => absurd hp Bool.false_ne_true⟩

/-- What keeps the list of player objects keeps the wiring. -/
theorem Wired.kept (h : Wired s) (hkept : Kept s.player s.players s'.players)
    (hplayer : s'.player = s.player) (hcurrent : s'.currentMusicPlayer = s.currentMusicPlayer)
    (hasked : s.player = none → s'.progressBlocks = 0 ∧ s'.postedTicks = 0) : Wired s' := by
  constructor
  · -- what plays now has played before, or was started as the global player
    intro k p' hp' hplays
    obtain ⟨p, hp, -, -, hplay⟩ := hkept.2 k p' hp'
    rw [hplayer]
    rcases hplay hplays with hbefore | hglobal
    · exact h.playing k p hp hbefore
    · exact hglobal
  · rw [hcurrent, hplayer]
    exact h.current
  · intro k hk
    rw [hkept.1]
    exact h.valid k (hplayer ▸ hk)
  · intro hnone
    have hempty : s.players = [] := h.loaded (hplayer ▸ hnone)
    refine List.eq_nil_of_length_eq_zero ?_
    rw [hkept.1, hempty]
    rfl
  · intro hnone
    exact hasked (hplayer ▸ hnone)

/-- The global player after such a change is the one before it, as far as its
    file goes. -/
theorem globalPlayer_kept (hkept : Kept s.player s.players s'.players)
    (hplayer : s'.player = s.player) {p' : AVAudioPlayer} (hp' : s'.globalPlayer = some p') :
    ∃ p, s.globalPlayer = some p ∧ p'.url = p.url ∧ p'.duration = p.duration := by
  obtain ⟨k, hk, hget⟩ := Option.bind_eq_some_iff.mp hp'
  obtain ⟨p, hp, hurl, hduration, -⟩ := hkept.2 k p' hget
  refine ⟨p, ?_, hurl, hduration⟩
  rw [Panel.globalPlayer, ← hplayer, hk]
  exact hp

theorem Wired.stop (h : Wired s) : Wired s.stop :=
  h.kept (stop_kept s) rfl rfl h.asked

/-- After `player?.stop()` nothing plays. -/
theorem Wired.stop_quiet (h : Wired s) : Quiet s.stop := by
  intro k p hp
  cases hplays : p.isPlaying with
  | false => rfl
  | true =>
      -- what plays is the global player, and that one was just paused
      have hk : s.player = some k := h.stop.playing k p hp hplays
      have hstopped : s.stop.players
          = s.players.modify k fun p => { p with isPlaying := false } := by
        rw [Panel.stop, hk]
      rw [hstopped, List.getElem?_modify_eq] at hp
      obtain ⟨q, -, hq⟩ := Option.map_eq_some_iff.mp hp
      rw [← hq] at hplays
      cases hplays

theorem Sound.stop (h : Sound s) : Sound s.stop where
  toWired := h.toWired.stop
  maxValue := by
    intro p' hp'
    obtain ⟨p, hp, -, hduration⟩ := globalPlayer_kept (stop_kept s) rfl hp'
    rw [hduration]
    exact h.maxValue p hp

theorem start_globalPlayer (newPlayer : AVAudioPlayer) (s : Panel) :
    (s.start newPlayer).globalPlayer = some { newPlayer with isPlaying := true } := by
  show (s.players ++ [{ newPlayer with isPlaying := true }])[s.players.length]? = _
  rw [List.getElem?_concat_length]

/-- Starting a new player on a silent panel leaves only that one playing. -/
theorem Quiet.start (hq : Quiet s) (newPlayer : AVAudioPlayer) :
    Wired (s.start newPlayer) where
  playing := by
    intro k p hp hplays
    by_cases hk : k < s.players.length
    · -- an older object, and those are silent
      have hold : s.players[k]? = some p := by
        rw [← hp]
        exact (List.getElem?_append_left hk).symm
      rw [hq k p hold] at hplays
      cases hplays
    · have hlast : k = s.players.length := by
        have hlt : k < (s.players ++ [{ newPlayer with isPlaying := true }]).length :=
          (List.getElem?_eq_some_iff.mp hp).1
        rw [List.length_append, List.length_singleton] at hlt
        omega
      rw [hlast]
      rfl
  current := rfl
  valid := by
    intro k hk
    cases hk
    show s.players.length < (s.players ++ [{ newPlayer with isPlaying := true }]).length
    rw [List.length_append, List.length_singleton]
    exact Nat.lt_succ_self _
  loaded := fun hnone => nomatch hnone
  asked := fun hnone => nomatch hnone

/-- Setting up the indicator for the file of the global player. -/
theorem Wired.finish (h : Wired s)
    (hfile : ∃ p, s.globalPlayer = some p ∧ p.duration = env.duration url) :
    Sound (s.finish env url) := by
  obtain ⟨p, hp, hduration⟩ := hfile
  have hplayer : s.player ≠ none := by
    intro hnone
    rw [Panel.globalPlayer, hnone] at hp
    cases hp
  refine ⟨⟨h.playing, h.current, h.valid, h.loaded, fun hnone => absurd hnone hplayer⟩, ?_⟩
  intro q hq
  have hqp : q = p := Option.some.inj ((show s.globalPlayer = some q from hq).symm.trans hp)
  rw [hqp, hduration]
  rfl

/-! ## A load -/

theorem Wired.tried (h : Wired s) : Wired s.tried :=
  ⟨h.playing, h.current, h.valid, h.loaded, h.asked⟩

/-- The panel when the selection handler calls the loader again: wired, silent,
    and holding the file already. -/
theorem reentered_wired (hq : Quiet s) :
    Wired (s.reentered env url) ∧ Quiet (s.reentered env url) ∧
      ∃ p, (s.reentered env url).globalPlayer = some p ∧ p.url = url ∧
        p.duration = env.duration url := by
  have hstarted : Wired (s.tried.start (env.audioPlayer url)) := Quiet.start (s := s.tried) hq _
  have hstopped := hstarted.stop
  refine ⟨⟨hstopped.playing, hstopped.current, hstopped.valid, hstopped.loaded, hstopped.asked⟩,
    hstarted.stop_quiet, ?_⟩
  obtain ⟨p', hp'⟩ := hstopped.globalPlayer (by exact fun hnone => nomatch hnone)
  obtain ⟨p, hp, hurl, hduration⟩ := globalPlayer_kept (stop_kept _) rfl hp'
  rw [start_globalPlayer] at hp
  cases hp
  exact ⟨p', hp', hurl, hduration⟩

/-- **A load restores the invariant**, however its two halves end. -/
theorem settled_sound (env : Environment) (url : URL) (h : Sound s) (hq : Quiet s) :
    Sound (settled env url s) := by
  have hw := h.toWired
  have hfresh : ∀ m : Panel, ∃ p, (m.tried.start (env.audioPlayer url)).globalPlayer = some p ∧
      p.duration = env.duration url :=
    fun m => ⟨_, start_globalPlayer _ _, rfl⟩
  rcases settled_cases env url s with ⟨-, heq⟩ | ⟨-, -, heq⟩ | ⟨-, -, -, heq⟩ | ⟨-, -, -, heq⟩
  · rw [heq]
    exact ⟨hw.tried, h.maxValue⟩
  · rw [heq]
    exact (Quiet.start (s := s.tried) hq _).finish (hfresh s)
  · -- the second load fails: the first player stays, stopped
    rw [heq]
    obtain ⟨hrw, -, p, hp, -, hduration⟩ := reentered_wired hq
    exact hrw.tried.finish ⟨p, hp, hduration⟩
  · -- both succeed: the second player replaces the first, which is stopped
    rw [heq]
    obtain ⟨hrw, hrq, -⟩ := reentered_wired hq
    have hinner := (Quiet.start (s := (s.reentered env url).tried) hrq _).finish (hfresh _)
    exact hinner.toWired.finish (hfresh (s.reentered env url))

theorem start_length (newPlayer : AVAudioPlayer) (s : Panel) :
    (s.start newPlayer).players.length = s.players.length + 1 := by
  show (s.players ++ [{ newPlayer with isPlaying := true }]).length = s.players.length + 1
  rw [List.length_append, List.length_singleton]

theorem reentered_length (env : Environment) (url : URL) (s : Panel) :
    (s.reentered env url).players.length = s.players.length + 1 := by
  show (s.tried.start (env.audioPlayer url)).stop.players.length = _
  rw [(stop_kept _).1, start_length]
  rfl

/-- A load loses no player object, and makes one where its first initialisation
    succeeds. -/
theorem settled_grows (env : Environment) (url : URL) (s : Panel) :
    s.players.length + (if env.initSucceeds s.loads url then 1 else 0)
      ≤ (settled env url s).players.length := by
  rcases settled_cases env url s with ⟨hinit, heq⟩ | ⟨hinit, -, heq⟩ | ⟨hinit, -, -, heq⟩ |
      ⟨hinit, -, -, heq⟩
  · rw [heq, hinit]
    exact Nat.le_refl _
  · rw [heq, hinit]
    exact Nat.le_of_eq (start_length _ s.tried).symm
  · rw [heq, hinit]
    exact Nat.le_of_eq (reentered_length env url s).symm
  · rw [heq, hinit, if_pos rfl, ← reentered_length env url s]
    exact Nat.le_trans (Nat.le_succ _) (Nat.le_of_eq (start_length _ (s.reentered env url)).symm)

/-- A load whose first initialisation succeeds leaves a player object. -/
theorem settled_players (hinit : env.initSucceeds s.loads url = true) :
    (settled env url s).players ≠ [] := by
  have hgrows := settled_grows env url s
  rw [if_pos hinit] at hgrows
  exact List.ne_nil_of_length_pos (by omega)

/-! ## Every event -/

/-- Where an event calls the loader, the panel is sound and silent. -/
theorem entry_sound {m : Panel} {e : Event} (hentry : entry s e = some m) (h : Sound s) :
    Sound m ∧ Quiet m := by
  have hstop := h.stop
  have hquiet := h.toWired.stop_quiet
  rcases entry_cases hentry with ⟨row, -, -, -, -, rfl⟩ | ⟨-, rfl⟩ | ⟨press, c, -, -, rfl⟩
  · exact ⟨{ hstop with }, hquiet⟩
  · exact ⟨{ hstop with }, hquiet⟩
  · exact ⟨{ hstop with }, hquiet⟩

/-- An idle event keeps the invariant. -/
theorem Idle.sound (hidle : Idle s s') (h : Sound s) : Sound s' := by
  constructor
  · refine h.toWired.kept hidle.players hidle.player hidle.currentMusicPlayer ?_
    intro hnone
    obtain ⟨hblocks, hticks⟩ := h.asked hnone
    refine ⟨by rw [hidle.progressBlocks, hblocks], ?_⟩
    rcases Nat.eq_zero_or_pos s'.postedTicks with hzero | hpos
    · exact hzero
    · have := hidle.postedTicks hpos
      omega
  · intro p' hp'
    obtain ⟨p, hp, -, hduration⟩ := globalPlayer_kept hidle.players hidle.player hp'
    rw [hidle.maxValue, hduration]
    exact h.maxValue p hp

/-- **Every event keeps the invariant.** -/
theorem step_sound {e : Event} (h : Sound s) (hstep : step env s e = .ok s') : Sound s' := by
  rcases step_cases hstep with ⟨m, url, hentry, -, rfl⟩ | ⟨-, hidle⟩
  · obtain ⟨hm, hquiet⟩ := entry_sound hentry h
    exact settled_sound env url hm hquiet
  · exact hidle.sound h

/-- The states a run from `viewDidLoad` can be in between two events. -/
def Reachable (env : Environment) (contents : List String) (records : List Entity)
    (s : Panel) : Prop :=
  ∃ es, run (step env) (viewDidLoad contents records) es = .ok s

theorem Reachable.sound {contents : List String} {records : List Entity}
    (h : Reachable env contents records s) : Sound s := by
  obtain ⟨es, hrun⟩ := h
  exact run_invariant (fun _ _ _ => step_sound) (viewDidLoad_sound contents records) hrun

theorem Reachable.musicList {contents : List String} {records : List Entity}
    (h : Reachable env contents records s) : s.musicList = contents := by
  obtain ⟨es, hrun⟩ := h
  exact run_invariant (P := fun m => m.musicList = contents)
    (fun _ _ _ hm hstep => (step_musicList hstep).trans hm) rfl hrun

/-! ## The panel plays one song at a time -/

/-- No player object is ever lost. -/
theorem step_grows {e : Event} (hstep : step env s e = .ok s') :
    s.players.length ≤ s'.players.length := by
  rcases step_cases hstep with ⟨m, url, hentry, -, rfl⟩ | ⟨-, hidle⟩
  · have hm : m.players.length = s.players.length := by
      rw [(entry_moved hentry).players, (stop_kept s).1]
    exact hm ▸ Nat.le_trans (Nat.le_add_right _ _) (settled_grows env url m)
  · exact Nat.le_of_eq hidle.players.1.symm

/-- A posted tick finds its player. -/
theorem Sound.tick (env : Environment) (h : Sound s) (hposted : 0 < s.postedTicks) :
    ∃ p, s.globalPlayer = some p ∧
      step env s .tick
        = .ok { s with postedTicks := s.postedTicks - 1, doubleValue := p.currentTime } := by
  -- a tick is only posted by a block that a load has queued
  have hplayer : s.player ≠ none := by
    intro hnone
    have := (h.asked hnone).2
    omega
  obtain ⟨p, hp⟩ := h.toWired.globalPlayer hplayer
  have hshown : (s.currentMusicPlayer.bind fun k => s.players[k]?) = some p := by
    rw [h.current]
    exact hp
  refine ⟨p, hp, ?_⟩
  rw [step, if_neg (by omega)]
  exact showProgress_some hshown

/-- A tick never traps. -/
theorem Sound.tick_ok (env : Environment) (h : Sound s) : ∃ s', step env s .tick = .ok s' := by
  rcases Nat.eq_zero_or_pos s.postedTicks with hzero | hpos
  · exact ⟨s, by rw [step, if_pos hzero]⟩
  · obtain ⟨p, -, hstep⟩ := h.tick env hpos
    exact ⟨_, hstep⟩

theorem progressWakes_ok (env : Environment) (s : Panel) :
    ∃ s', step env s .progressWakes = .ok s' := by
  rw [step]
  by_cases hblocks : s.progressBlocks = 0
  · exact ⟨_, if_pos hblocks⟩
  · exact ⟨_, if_neg hblocks⟩

/-- **One song at a time, and the progress bar follows it**: after any run from
    launch only the global player may play, `currentMusicPlayer` is the same
    object, a successful load makes it exist, from then on it exists for ever
    with the indicator set to its duration, and a tick shows its position. -/
theorem plays_one_song (env : Environment) (contents : List String) (records : List Entity)
    {es : List Event} {s : Panel}
    (h : run (step env) (viewDidLoad contents records) es = .ok s) :
    (∀ k p, s.players[k]? = some p → p.isPlaying = true → s.player = some k) ∧
    s.currentMusicPlayer = s.player ∧
    (∀ e m url, entry s e = some m → m.currentURL env = some url →
      env.initSucceeds m.loads url = true → ∃ s', step env s e = .ok s' ∧ s'.players ≠ []) ∧
    (s.players ≠ [] → ∀ fs s', run (step env) s fs = .ok s' →
      s'.currentMusicPlayer = s'.player ∧
        ∃ p, s'.globalPlayer = some p ∧ s'.maxValue = p.duration) ∧
    (0 < s.postedTicks → ∃ p, s.globalPlayer = some p ∧
      step env s .tick
        = .ok { s with postedTicks := s.postedTicks - 1, doubleValue := p.currentTime }) := by
  have hsound : Sound s := Reachable.sound ⟨es, h⟩
  refine ⟨hsound.playing, hsound.current, ?_, ?_, hsound.tick env⟩
  · intro e m url hentry hurl hinit
    refine ⟨settled env url m, ?_, settled_players hinit⟩
    rw [step_of_entry hentry]
    exact loadCurrent_eq hurl
  · intro hplayers fs s' hrun
    have hsound' : Sound s' := run_invariant (fun _ _ _ => step_sound) hsound hrun
    have hgrown : 0 < s'.players.length :=
      run_invariant (P := fun m => 0 < m.players.length)
        (fun _ _ _ hpos hstep => Nat.lt_of_lt_of_le hpos (step_grows hstep))
        (List.length_pos_of_ne_nil hplayers) hrun
    obtain ⟨p, hp⟩ := hsound'.toWired.globalPlayer
      (hsound'.toWired.player_ne_none (List.ne_nil_of_length_pos hgrown))
    exact ⟨hsound'.current, p, hp, hsound'.maxValue p hp⟩

/-- One press of the previous button on a playlist of two songs: the run the
    theorem is applied to ends with the second song playing and a posted tick. -/
theorem plays_one_song_after_previous :
    ∃ s, run (step (.plain fun _ _ => true)) (viewDidLoad ["one", "two"] [])
        [.previous, .progressWakes] = .ok s ∧
      s.players ≠ [] ∧ 0 < s.postedTicks ∧
      s.currentMusicPlayer = s.player ∧ ∃ p, s.globalPlayer = some p ∧ p.isPlaying = true := by
  refine ⟨_, rfl, by decide, by decide, ?_, ?_⟩
  · exact (plays_one_song (.plain fun _ _ => true) ["one", "two"] []
      (show run _ _ [.previous, .progressWakes] = .ok _ from rfl)).2.1
  · exact ⟨_, rfl, rfl⟩

end Mac3amPanel
