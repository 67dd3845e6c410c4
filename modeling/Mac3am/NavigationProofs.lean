import Mathlib.Data.Int.ModEq
import Mac3am.PanelInvariantProofs

/-! # The playlist index

    Four handlers move `currentMusicIndex` by three rules: the previous button
    steps back with a sign test, the skip button and the key monitor add 2 with
    an equality test, and the selection handler copies the table's row.

    * `KeepsInRange` — the events after which the index is still in range;
      `index_safe_iff_guarded`: a run from launch never subscripts the playlist
      out of range exactly when each of its events is one of these;
    * `walkStep` — the indices that guarded presses of the two buttons visit:
      every skip is a step of 2 on the cycle, every previous a step of −1;
      `navigation_iff` says when that is the walk in steps of 1, and that the two
      never undo each other. -/

namespace Mac3amPanel

open Swift TrapRun Mac3amStore

variable {env : Environment} {s s' m : Panel} {e : Event}

/-! ## Index safety -/

/-- The index names a song; with no songs at all it is still 0. -/
def InRange (s : Panel) : Prop :=
  0 ≤ s.currentMusicIndex ∧
    (s.currentMusicIndex < s.musicList.length ∨ s.currentMusicIndex = 0)

/-- The store update of a press comes to a record without a name first. -/
def Panel.meetsUnnamed (press : SkipPress) (s : Panel) : Prop :=
  MeetsUnnamed s.musicList s.currentMusicIndex press.order s.context

/-- What an event must not do, for the index to stay in range: empty the
    selection, go back on an empty playlist, or skip with fewer than two songs
    ahead. -/
def KeepsInRange (s : Panel) : Event → Prop
  | .selection row => row = -1 → s.selectedRow = -1
  | .previous => s.musicList ≠ []
  | .skip press | .key press =>
      s.currentMusicIndex + 2 ≤ s.musicList.length ∨ s.meetsUnnamed press
  | _ => True

theorem currentURL_of_lt (env : Environment) (hlo : 0 ≤ s.currentMusicIndex)
    (hhi : s.currentMusicIndex < s.musicList.length) : ∃ url, s.currentURL env = some url := by
  obtain ⟨song, hsong⟩ := subscript_isSome.mpr ⟨hlo, hhi⟩
  exact ⟨_, congrArg (Option.map _) hsong⟩

theorem currentURL_eq_none (env : Environment)
    (hout : ¬ (0 ≤ s.currentMusicIndex ∧ s.currentMusicIndex < s.musicList.length)) :
    s.currentURL env = none := by
  have hnone : s.currentSong = none := subscript_eq_none.mpr hout
  rw [Panel.currentURL, hnone]
  rfl

/-- Moving to a song inside the playlist loads it. -/
theorem step_entry_ok (env : Environment) (hentry : entry s e = some m)
    (hlo : 0 ≤ m.currentMusicIndex) (hhi : m.currentMusicIndex < m.musicList.length) :
    ∃ url, m.currentURL env = some url ∧ step env s e = .ok (settled env url m) := by
  obtain ⟨url, hurl⟩ := currentURL_of_lt env hlo hhi
  exact ⟨url, hurl, by rw [step_of_entry hentry, loadCurrent_eq hurl]⟩

/-- Moving off the playlist traps. -/
theorem step_entry_trap (env : Environment) (hentry : entry s e = some m)
    (hout : ¬ (0 ≤ m.currentMusicIndex ∧ m.currentMusicIndex < m.musicList.length)) :
    step env s e = .trap .indexOutOfRange m := by
  rw [step_of_entry hentry, loadCurrent_none (currentURL_eq_none env hout)]

theorem settled_inRange (env : Environment) (url : URL) (hlo : 0 ≤ m.currentMusicIndex)
    (hhi : m.currentMusicIndex < m.musicList.length) : InRange (settled env url m) := by
  obtain ⟨hlist, hindex, -⟩ := settled_keeps env url m
  rw [InRange, hlist, hindex]
  exact ⟨hlo, Or.inl hhi⟩

theorem Idle.inRange (hidle : Idle s s') (h : InRange s) : InRange s' := by
  rw [InRange, hidle.musicList, hidle.currentMusicIndex]
  exact h

/-- How a press of the skip button ends. -/
theorem skip_ends (env : Environment) (press : SkipPress) (s : Panel) :
    (s.meetsUnnamed press ∧ ∃ s', skipBtnTouched env press s = .trap .castFailed s') ∨
    (¬ s.meetsUnnamed press ∧ s.currentSong = none ∧
      ∃ s', skipBtnTouched env press s = .trap .indexOutOfRange s') ∨
    (¬ s.meetsUnnamed press ∧ (∃ song, s.currentSong = some song) ∧
      ∃ c, s.skipUpdate press = .ok c) := by
  rcases recordSkip_cases s.musicList s.currentMusicIndex press.order press.saved s.context with
    ⟨hmeets, c, hc⟩ | ⟨hmeets, hsong, c, hc⟩ | ⟨hmeets, hsong, c, hc⟩
  · refine Or.inl ⟨hmeets, { s.stop with context := c }, ?_⟩
    rw [skipBtnTouched_eq, show s.skipUpdate press = .trap .castFailed c from hc]
  · refine Or.inr (Or.inl ⟨hmeets, hsong, { s.stop with context := c }, ?_⟩)
    rw [skipBtnTouched_eq, show s.skipUpdate press = .trap .indexOutOfRange c from hc]
  · exact Or.inr (Or.inr ⟨hmeets, hsong, c, hc⟩)

/-- A skip with two songs ahead stays in the playlist. -/
theorem nextIndex_inside {count : Nat} {i : Int} (hlo : 0 ≤ i) (hahead : i + 2 ≤ count) :
    0 ≤ nextIndex count i ∧ nextIndex count i < count := by
  rw [nextIndex]
  by_cases hend : i + 2 = count
  · rw [if_pos hend]
    omega
  · rw [if_neg hend]
    omega

/-- A skip with fewer than two songs ahead leaves it. -/
theorem nextIndex_outside {count : Nat} {i : Int} (hahead : ¬ i + 2 ≤ count) :
    ¬ (0 ≤ nextIndex count i ∧ nextIndex count i < count) := by
  rw [nextIndex, if_neg (by omega)]
  omega

theorem previousIndex_inside {count : Nat} {i : Int} (hcount : 0 < count)
    (hhi : i < count ∨ i = 0) : 0 ≤ previousIndex count i ∧ previousIndex count i < count := by
  rw [previousIndex]
  by_cases hneg : i - 1 < 0
  · rw [if_pos hneg]
    omega
  · rw [if_neg hneg]
    omega

/-- An event that moves inside the playlist keeps the index in range. -/
theorem entry_inRange (env : Environment) (h : Sound s) (hentry : entry s e = some m)
    (hin : 0 ≤ m.currentMusicIndex ∧ m.currentMusicIndex < m.musicList.length) :
    ∃ s', step env s e = .ok s' ∧ Sound s' ∧ InRange s' := by
  obtain ⟨url, -, hstep⟩ := step_entry_ok env hentry hin.1 hin.2
  exact ⟨_, hstep, step_sound h hstep, settled_inRange env url hin.1 hin.2⟩

/-- So does one that loads nothing and returns. -/
theorem idle_inRange (h : Sound s) (hr : InRange s) (hentry : entry s e = none)
    (hstep : ∃ s', step env s e = .ok s') :
    ∃ s', step env s e = .ok s' ∧ Sound s' ∧ InRange s' := by
  obtain ⟨s', hs'⟩ := hstep
  have hidle := step_idle hentry hs'
  exact ⟨s', hs', hidle.sound h, hidle.inRange hr⟩

/-- A press with two songs ahead keeps the index in range, or it crashes on a
    record without a name. -/
theorem press_guarded (env : Environment) {press : SkipPress} (h : Sound s) (hr : InRange s)
    (he : e.Presses press)
    (hahead : s.currentMusicIndex + 2 ≤ s.musicList.length ∨ s.meetsUnnamed press) :
    (∃ s', step env s e = .ok s' ∧ Sound s' ∧ InRange s') ∨
      ∃ s', step env s e = .trap .castFailed s' ∧ ∃ r ∈ s.context.objects, r.name = none := by
  rcases skip_ends env press s with ⟨hmeets, s', htrap⟩ | ⟨hmeets, hnone, -⟩ | ⟨hmeets, -, c, hc⟩
  · exact Or.inr ⟨s', (he.step_eq s).trans htrap, hmeets.exists_unnamed⟩
  · have hlt := hahead.resolve_right hmeets
    exact absurd ⟨hr.1, by omega⟩ (subscript_eq_none.mp hnone)
  · have hlt := hahead.resolve_right hmeets
    exact Or.inl (entry_inRange env h (he.entry_eq hc) (nextIndex_inside hr.1 hlt))

/-- A selection change that does not empty a selection keeps the index in
    range. -/
theorem selection_guarded (env : Environment) {row : Int} (h : Sound s) (hr : InRange s)
    (hkeeps : row = -1 → s.selectedRow = -1) :
    ∃ s', step env s (.selection row) = .ok s' ∧ Sound s' ∧ InRange s' := by
  by_cases hmoves : 0 ≤ row ∧ row < s.musicList.length ∧ s.selectedRow ≠ row
  · exact entry_inRange env h (m := s.toSelection row) (if_pos hmoves) ⟨hmoves.1, hmoves.2.1⟩
  · refine idle_inRange h hr (if_neg hmoves) ⟨s, ?_⟩
    rw [step]
    by_cases hrow : -1 ≤ row ∧ row < s.musicList.length
    · -- the row is selected already; an emptied selection was empty before
      have hsel : s.selectedRow = row := by
        by_contra hne
        by_cases hempty : row = -1
        · exact hne ((hkeeps hempty).trans hempty.symm)
        · exact hmoves ⟨by omega, hrow.2, hne⟩
      rw [if_pos hrow, selectRow, if_pos hsel]
    · rw [if_neg hrow]

/-- An event that keeps to its condition keeps the index in range, or it
    crashes on a record without a name. -/
theorem step_guarded (env : Environment) (h : Sound s) (hr : InRange s) (hG : KeepsInRange s e) :
    (∃ s', step env s e = .ok s' ∧ Sound s' ∧ InRange s') ∨
      ∃ s', step env s e = .trap .castFailed s' ∧ ∃ r ∈ s.context.objects, r.name = none := by
  cases e with
  | selection row => exact Or.inl (selection_guarded env h hr hG)
  | previous =>
      have hcount : 0 < s.musicList.length := List.length_pos_of_ne_nil hG
      exact Or.inl (entry_inRange env h (m := s.toPrevious) rfl (previousIndex_inside hcount hr.2))
  | skip press => exact press_guarded env h hr (Or.inl rfl) hG
  | key press => exact press_guarded env h hr (Or.inr rfl) hG
  | play => exact Or.inl (idle_inRange h hr rfl ⟨_, rfl⟩)
  | trackEnds k => exact Or.inl (idle_inRange h hr rfl ⟨_, rfl⟩)
  | trackAdvances k time => exact Or.inl (idle_inRange h hr rfl ⟨_, rfl⟩)
  | progressWakes => exact Or.inl (idle_inRange h hr rfl (progressWakes_ok env s))
  | tick => exact Or.inl (idle_inRange h hr rfl (h.tick_ok env))

/-- Emptying the selection calls the handler with the row `-1`. -/
theorem step_emptied (env : Environment) (hsel : s.selectedRow ≠ -1) :
    ∃ s', step env s (.selection (-1)) = .trap .indexOutOfRange s' := by
  have hcall : tableViewSelectionDidChange env (loadPlayMusic env env.stack)
      { s with selectedRow := -1 }
      = .trap .indexOutOfRange { s.stop with selectedRow := -1, currentMusicIndex := -1 } := rfl
  refine ⟨{ s.stop with selectedRow := -1, currentMusicIndex := -1 }, ?_⟩
  rw [step, if_pos ⟨by omega, by omega⟩, selectRow, if_neg hsel, hcall]

/-- A press with fewer than two songs ahead subscripts out of range. -/
theorem press_unguarded (env : Environment) {press : SkipPress} (he : e.Presses press)
    (hahead : ¬ (s.currentMusicIndex + 2 ≤ s.musicList.length ∨ s.meetsUnnamed press)) :
    ∃ s', step env s e = .trap .indexOutOfRange s' := by
  rcases skip_ends env press s with ⟨hmeets, -⟩ | ⟨-, -, s', htrap⟩ | ⟨-, -, c, hc⟩
  · exact absurd (Or.inr hmeets) hahead
  · exact ⟨s', (he.step_eq s).trans htrap⟩
  · have hout := nextIndex_outside fun hle => hahead (Or.inl hle)
    exact ⟨_, step_entry_trap env (he.entry_eq hc) hout⟩

/-- An event that does not keep to its condition subscripts out of range. -/
theorem step_unguarded (env : Environment) (hG : ¬ KeepsInRange s e) :
    ∃ s', step env s e = .trap .indexOutOfRange s' := by
  cases e with
  | selection row =>
      obtain ⟨rfl, hsel⟩ : row = -1 ∧ s.selectedRow ≠ -1 := Classical.not_imp.mp hG
      exact step_emptied env hsel
  | previous =>
      have hnil : s.musicList = [] := not_not.mp hG
      refine ⟨s.toPrevious, step_entry_trap env rfl ?_⟩
      rintro ⟨hlo, hhi⟩
      rw [show s.toPrevious.musicList = s.musicList from rfl, hnil] at hhi
      exact absurd (Int.lt_of_le_of_lt hlo hhi) (by decide)
  | skip press => exact press_unguarded env (Or.inl rfl) hG
  | key press => exact press_unguarded env (Or.inr rfl) hG
  | play => exact absurd trivial hG
  | trackEnds k => exact absurd trivial hG
  | trackAdvances k time => exact absurd trivial hG
  | progressWakes => exact absurd trivial hG
  | tick => exact absurd trivial hG

/-- Every event that returns keeps the index in range. -/
theorem step_inRange (h : Sound s) (hr : InRange s) (hstep : step env s e = .ok s') :
    Sound s' ∧ InRange s' := by
  by_cases hG : KeepsInRange s e
  · rcases step_guarded env h hr hG with ⟨m, hm, hsound⟩ | ⟨m, hm, -⟩
    · rw [hstep] at hm
      cases hm
      exact hsound
    · rw [hstep] at hm
      cases hm
  · obtain ⟨m, hm⟩ := step_unguarded env hG
    rw [hstep] at hm
    cases hm

theorem viewDidLoad_inRange (contents : List String) (records : List Entity) :
    InRange (viewDidLoad contents records) :=
  ⟨Int.le_refl 0, Or.inr rfl⟩

theorem Reachable.inRange {contents : List String} {records : List Entity}
    (h : Reachable env contents records s) : InRange s := by
  obtain ⟨es, hrun⟩ := h
  exact (run_invariant (P := fun m => Sound m ∧ InRange m)
    (fun _ _ _ hm hstep => step_inRange hm.1 hm.2 hstep)
    ⟨viewDidLoad_sound contents records, viewDidLoad_inRange contents records⟩ hrun).2

/-- An event that returns leaves no record without a name behind. -/
theorem step_named (hn : Named s.context.objects) (hstep : step env s e = .ok s') :
    Named s'.context.objects := by
  rcases step_cases hstep with ⟨m, url, hentry, -, rfl⟩ | ⟨-, hidle⟩
  · rw [(settled_keeps env url m).2.2]
    rcases entry_cases hentry with ⟨row, -, -, -, -, rfl⟩ | ⟨-, rfl⟩ | ⟨press, c, -, hc, rfl⟩
    · exact hn
    · exact hn
    · exact recordSkip_named hc hn
  · rw [hidle.context]
    exact hn

theorem Reachable.named {contents : List String} {records : List Entity} (hn : Named records)
    (h : Reachable env contents records s) : Named s.context.objects := by
  obtain ⟨es, hrun⟩ := h
  exact run_invariant (P := fun m => Named m.context.objects)
    (fun _ _ _ hm hstep => step_named hm hstep) hn hrun

/-- **Index safety**: a run from launch never subscripts the playlist out of
    range exactly when every event of it keeps to its condition; and there is
    no other trap but the cast of a name the store did not have. -/
theorem index_safe_iff_guarded (env : Environment) (contents : List String)
    (records : List Entity) (es : List Event) :
    ((∀ t s', run (step env) (viewDidLoad contents records) es = .trap t s' →
        t ≠ .indexOutOfRange) ↔
      Guarded (step env) KeepsInRange (viewDidLoad contents records) es) ∧
    ∀ t s', run (step env) (viewDidLoad contents records) es = .trap t s' →
      t = .indexOutOfRange ∨ (t = .castFailed ∧ ∃ r ∈ records, r.name = none) := by
  constructor
  · refine run_avoids_iff_guarded (P := fun m => Sound m ∧ InRange m)
      (B := fun t => t = Trap.indexOutOfRange) ?_ ?_
      ⟨viewDidLoad_sound contents records, viewDidLoad_inRange contents records⟩
    · rintro m e ⟨hsound, hr⟩ hG
      rcases step_guarded env hsound hr hG with hok | ⟨m', htrap, -⟩
      · exact Or.inl hok
      · exact Or.inr ⟨_, m', htrap, by decide⟩
    · rintro m e - hG
      obtain ⟨m', htrap⟩ := step_unguarded env hG
      exact ⟨_, m', htrap, rfl⟩
  · intro t s' htrap
    obtain ⟨pre, e, post, m, -, hrun, hstep⟩ := run_trap_split htrap
    have hreach : Reachable env contents records m := ⟨pre, hrun⟩
    -- under its condition the event can only have trapped on a record
    by_cases hG : KeepsInRange m e
    · rcases step_guarded env hreach.sound hreach.inRange hG with ⟨m', hm', -⟩ | ⟨m', hm', hr⟩
      · rw [hstep] at hm'
        cases hm'
      · rw [hstep] at hm'
        cases hm'
        refine Or.inr ⟨rfl, ?_⟩
        by_contra hall
        have hn : Named records := fun r hr' hnone => hall ⟨r, hr', hnone⟩
        obtain ⟨r, hmem, hnone⟩ := hr
        exact hreach.named hn r hmem hnone
    · obtain ⟨m', hm'⟩ := step_unguarded env hG
      rw [hstep] at hm'
      cases hm'
      exact Or.inl rfl

/-- Three songs, the last one selected: a skip adds 2 and subscripts the
    playlist behind its end. -/
theorem skip_from_last_song_traps :
    ∃ s', run (step (.plain fun _ _ => true)) (viewDidLoad ["one", "two", "three"] [])
      [.selection 2, .skip ⟨some .inserted, true, false⟩] = .trap .indexOutOfRange s' :=
  ⟨_, rfl⟩

/-! ## Cyclic navigation -/

/-- The two buttons. -/
inductive Move where
  | skip (press : SkipPress)
  | previous

/-- The handler of a button. -/
def navigate (env : Environment) (s : Panel) : Move → Outcome Trap Panel
  | .skip press => skipBtnTouched env press s
  | .previous => previousBtnTouched env s

/-- The buttons all return, and lead to song `j`. -/
def ArrivesAt (env : Environment) (s : Panel) (moves : List Move) (j : Int) : Prop :=
  ∃ s', run (navigate env) s moves = .ok s' ∧ s'.currentMusicIndex = j

/-- The number of skips. -/
def skips : List Move → Nat
  | [] => 0
  | .skip _ :: moves => skips moves + 1
  | .previous :: moves => skips moves

/-- The number of steps back. -/
def previouses : List Move → Nat
  | [] => 0
  | .skip _ :: moves => previouses moves
  | .previous :: moves => previouses moves + 1

/-- The index a button moves to on a cycle of `count` songs, while skips find
    two songs ahead. -/
def walkStep (count : Nat) (i : Int) : Move → Int
  | .skip _ => (i + 2) % count
  | .previous => (i - 1) % count

/-- A skip needs two songs ahead and records with names. -/
def SkipsInside (s : Panel) : Move → Prop
  | .skip press => s.currentMusicIndex + 2 ≤ s.musicList.length ∧ ¬ s.meetsUnnamed press
  | .previous => True

/-- Every skip of a walk is a step of 2, every previous a step of −1. -/
theorem walk_modEq (count : Nat) (i : Int) (moves : List Move) :
    moves.foldl (walkStep count) i ≡ i + 2 * skips moves - previouses moves [ZMOD count] := by
  induction moves generalizing i with
  | nil =>
      rw [List.foldl_nil, skips, previouses]
      simp
  | cons move moves ih =>
      rw [List.foldl_cons]
      cases move with
      | skip press =>
          have hstep : walkStep count i (.skip press) ≡ i + 2 [ZMOD count] := Int.mod_modEq _ _
          calc moves.foldl (walkStep count) (walkStep count i (.skip press))
              ≡ walkStep count i (.skip press) + 2 * skips moves - previouses moves
                [ZMOD count] := ih _
            _ ≡ (i + 2) + 2 * skips moves - previouses moves [ZMOD count] :=
                (hstep.add_right _).sub_right _
            _ = i + 2 * skips (.skip press :: moves) - previouses (.skip press :: moves) := by
                rw [skips, previouses]
                omega
      | previous =>
          have hstep : walkStep count i .previous ≡ i - 1 [ZMOD count] := Int.mod_modEq _ _
          calc moves.foldl (walkStep count) (walkStep count i .previous)
              ≡ walkStep count i .previous + 2 * skips moves - previouses moves
                [ZMOD count] := ih _
            _ ≡ (i - 1) + 2 * skips moves - previouses moves [ZMOD count] :=
                (hstep.add_right _).sub_right _
            _ = i + 2 * skips (.previous :: moves) - previouses (.previous :: moves) := by
                rw [skips, previouses]
                omega

theorem nextIndex_eq {count : Nat} {i : Int} (hlo : 0 ≤ i) (hahead : i + 2 ≤ count) :
    nextIndex count i = (i + 2) % count := by
  rw [nextIndex]
  by_cases hend : i + 2 = count
  · rw [if_pos hend, hend, Int.emod_self]
  · rw [if_neg hend, Int.emod_eq_of_lt (by omega) (by omega)]

theorem previousIndex_eq {count : Nat} {i : Int} (hlo : 0 ≤ i) (hhi : i < count) :
    previousIndex count i = (i - 1) % count := by
  rw [previousIndex]
  by_cases hneg : i - 1 < 0
  · have hzero : i = 0 := by omega
    rw [if_pos hneg, hzero, Int.zero_sub, ← Int.add_emod_right,
      Int.emod_eq_of_lt (by omega) (by omega)]
    omega
  · rw [if_neg hneg, Int.emod_eq_of_lt (by omega) (by omega)]

/-- A panel on song `i` of `count`. -/
def OnSong (count : Nat) (i : Int) (s : Panel) : Prop :=
  s.musicList.length = count ∧ s.currentMusicIndex = i ∧ 0 ≤ i ∧ i < count

/-- With any songs at all, a run is on one of them. -/
theorem Reachable.onSong {contents : List String} {records : List Entity}
    (hsongs : contents ≠ []) (h : Reachable env contents records s) :
    OnSong contents.length s.currentMusicIndex s := by
  obtain ⟨hlo, hhi⟩ := h.inRange
  rw [h.musicList] at hhi
  have hpos : 0 < contents.length := List.length_pos_of_ne_nil hsongs
  exact ⟨congrArg List.length h.musicList, rfl, hlo, by omega⟩

/-- A guarded press of a button takes one step of the walk. -/
theorem navigate_guarded (env : Environment) {count : Nat} {i : Int} {move : Move}
    (h : OnSong count i s) (hG : SkipsInside s move) :
    ∃ s', navigate env s move = .ok s' ∧ OnSong count (walkStep count i move) s' := by
  obtain ⟨rfl, rfl, hlo, hhi⟩ := h
  have hloads : ∀ m e, entry s e = some m → m.musicList = s.musicList →
      0 ≤ m.currentMusicIndex ∧ m.currentMusicIndex < s.musicList.length →
      ∃ s', step env s e = .ok s' ∧ OnSong s.musicList.length m.currentMusicIndex s' := by
    intro m e hentry hlist hin
    obtain ⟨url, -, hstep⟩ := step_entry_ok env hentry hin.1 (hlist ▸ hin.2)
    obtain ⟨hlist', hindex, -⟩ := settled_keeps env url m
    exact ⟨_, hstep, by rw [hlist', hlist], hindex, hin⟩
  cases move with
  | skip press =>
      obtain ⟨hahead, hnamed⟩ := hG
      rcases skip_ends env press s with ⟨hmeets, -⟩ | ⟨-, hnone, -⟩ | ⟨-, -, c, hc⟩
      · exact absurd hmeets hnamed
      · exact absurd ⟨hlo, hhi⟩ (subscript_eq_none.mp hnone)
      · have hpress : (Event.skip press).Presses press := Or.inl rfl
        obtain ⟨s', hstep, hon⟩ := hloads _ _ (hpress.entry_eq hc) rfl (nextIndex_inside hlo hahead)
        refine ⟨s', hstep, ?_⟩
        rw [walkStep, ← nextIndex_eq hlo hahead]
        exact hon
  | previous =>
      obtain ⟨s', hstep, hon⟩ := hloads s.toPrevious .previous rfl rfl
        (previousIndex_inside (by omega) (Or.inl hhi))
      refine ⟨s', hstep, ?_⟩
      rw [walkStep, ← previousIndex_eq hlo hhi]
      exact hon

/-- A press of a button that returns was guarded. -/
theorem navigate_ok {move : Move} (hstep : navigate env s move = .ok s') :
    SkipsInside s move := by
  cases move with
  | previous => trivial
  | skip press =>
      have hpress : (Event.skip press).Presses press := Or.inl rfl
      rcases skip_ends env press s with ⟨-, m, htrap⟩ | ⟨-, -, m, htrap⟩ | ⟨hnamed, -, c, hc⟩
      · cases hstep.symm.trans htrap
      · cases hstep.symm.trans htrap
      · -- off the playlist the move to the next song would have trapped
        refine ⟨?_, hnamed⟩
        by_contra hahead
        have htrap := step_entry_trap env (hpress.entry_eq hc) (nextIndex_outside hahead)
        cases hstep.symm.trans htrap

/-- The walk in steps of 2 ends where the walk in steps of 1 does exactly when
    the cycle divides the number of skips. -/
theorem walk_eq_iff {count : Nat} {i : Int} (hlo : 0 ≤ i) (hhi : i < count) (moves : List Move) :
    moves.foldl (walkStep count) i = (i + skips moves - previouses moves) % count ↔
      (count : Int) ∣ skips moves := by
  -- the walk stays on the cycle, so its end is its own remainder
  have hmod : moves.foldl (walkStep count) i % count = moves.foldl (walkStep count) i := by
    induction moves generalizing i with
    | nil => exact Int.emod_eq_of_lt hlo hhi
    | cons move moves ih =>
        have hcount : (count : Int) ≠ 0 := by omega
        cases move with
        | skip press => exact ih (Int.emod_nonneg _ hcount) (Int.emod_lt_of_pos _ (by omega))
        | previous => exact ih (Int.emod_nonneg _ hcount) (Int.emod_lt_of_pos _ (by omega))
  rw [← hmod]
  show moves.foldl (walkStep count) i ≡ i + skips moves - previouses moves [ZMOD count] ↔ _
  have hwalk := walk_modEq count i moves
  constructor
  · intro hone
    have hdvd := (hone.symm.trans hwalk).dvd
    rwa [show i + 2 * (skips moves : Int) - previouses moves - (i + skips moves - previouses moves)
      = skips moves by omega] at hdvd
  · intro hdvd
    refine hwalk.trans (Int.ModEq.symm ?_)
    refine Int.modEq_of_dvd ?_
    rwa [show i + 2 * (skips moves : Int) - previouses moves - (i + skips moves - previouses moves)
      = skips moves by omega]

section Laws

variable {count : Nat} {i : Int} {moves : List Move}

/-- The buttons return exactly where every press is guarded: the playlist does
    not change, and every press that returns is on a song. -/
theorem navigate_returns_iff (h : OnSong count i s) (moves : List Move) :
    (∃ s', run (navigate env) s moves = .ok s') ↔
      Guarded (navigate env) SkipsInside s moves := by
  refine run_ok_iff_guarded (P := fun m => ∃ i, OnSong count i m) ?_ ?_ ⟨i, h⟩
  · rintro m move ⟨j, hm⟩ hG
    obtain ⟨m', hm', hon⟩ := navigate_guarded env hm hG
    exact ⟨m', hm', _, hon⟩
  · rintro m move m' - hm'
    exact navigate_ok hm'

/-- Buttons that return walk. -/
theorem navigate_walks (h : OnSong count i s) (hrun : run (navigate env) s moves = .ok s') :
    OnSong count (moves.foldl (walkStep count) i) s' := by
  refine run_simulates (R := OnSong count) (g := walkStep count) ?_ h hrun
  intro j m move m' hm hm'
  obtain ⟨m'', hm'', hon⟩ := navigate_guarded env hm (navigate_ok hm')
  rw [hm'] at hm''
  cases hm''
  exact hon

/-- The buttons arrive where one step for each of them leads exactly when they
    return and the cycle divides the number of skips. -/
theorem arrives_iff (h : OnSong count i s) (moves : List Move) :
    ArrivesAt env s moves ((i + skips moves - previouses moves) % count) ↔
      Guarded (navigate env) SkipsInside s moves ∧ (count : Int) ∣ skips moves := by
  rw [← navigate_returns_iff h, ← walk_eq_iff h.2.2.1 h.2.2.2 moves]
  constructor
  · rintro ⟨s', hrun, hindex⟩
    exact ⟨⟨s', hrun⟩, (navigate_walks h hrun).2.1 ▸ hindex⟩
  · rintro ⟨⟨s', hrun⟩, hindex⟩
    exact ⟨s', hrun, (navigate_walks h hrun).2.1.trans hindex⟩

/-- A skip among buttons that return had two songs. -/
theorem two_songs_of_skip (h : OnSong count i s) (hrun : run (navigate env) s moves = .ok s')
    (hskips : skips moves ≠ 0) : 2 ≤ count := by
  induction moves generalizing s i with
  | nil => exact absurd rfl hskips
  | cons move moves ih =>
      obtain ⟨m, hm, hrest⟩ := run_cons_ok.mp hrun
      obtain ⟨m', hm', hon⟩ := navigate_guarded env h (navigate_ok hm)
      rw [hm] at hm'
      cases hm'
      cases move with
      | previous => exact ih hon hrest hskips
      | skip press =>
          obtain ⟨hahead, -⟩ := navigate_ok hm
          obtain ⟨hcount, hindex, hlo, -⟩ := h
          rw [hcount, hindex] at hahead
          omega

/-- Without a skip the previous button always returns. -/
theorem guarded_of_no_skip (env : Environment) (s : Panel) (hskips : skips moves = 0) :
    Guarded (navigate env) SkipsInside s moves := by
  induction moves generalizing s with
  | nil => trivial
  | cons move moves ih =>
      cases move with
      | skip press => exact absurd hskips (Nat.succ_ne_zero _)
      | previous => exact ⟨trivial, fun m _ => ih m hskips⟩

theorem skips_append (moves moves' : List Move) :
    skips (moves ++ moves') = skips moves + skips moves' := by
  induction moves with
  | nil => rw [List.nil_append, skips, Nat.zero_add]
  | cons move moves ih =>
      cases move with
      | skip press =>
          rw [List.cons_append, skips, skips, ih]
          omega
      | previous => exact ih

/-- The first skip of a sequence. -/
theorem first_skip (hskips : skips moves ≠ 0) :
    ∃ pre press post, moves = pre ++ .skip press :: post ∧ skips pre = 0 := by
  induction moves with
  | nil => exact absurd rfl hskips
  | cons move moves ih =>
      cases move with
      | skip press => exact ⟨[], press, moves, rfl, rfl⟩
      | previous =>
          obtain ⟨pre, press, post, rfl, hpre⟩ := ih hskips
          exact ⟨.previous :: pre, press, post, rfl, hpre⟩

/-- One skip never arrives where one step leads: there would be one song, and
    the skip needs two. -/
theorem one_skip_misses (h : OnSong count i s) (moves : List Move) (hone : skips moves = 1) :
    ¬ ArrivesAt env s moves ((i + skips moves - previouses moves) % count) := by
  intro harrives
  obtain ⟨s', hrun, -⟩ := id harrives
  have htwo := two_songs_of_skip h hrun (by omega)
  obtain ⟨-, hdvd⟩ := (arrives_iff h moves).mp harrives
  rw [hone] at hdvd
  have hle : (count : Int) ≤ 1 := Int.le_of_dvd (by decide) hdvd
  omega

/-- The law of steps of 1 holds after every press exactly where none of them is
    a skip. -/
theorem arrives_throughout_iff (h : OnSong count i s) (moves : List Move) :
    (∀ pre post, moves = pre ++ post →
        ArrivesAt env s pre ((i + skips pre - previouses pre) % count)) ↔
      skips moves = 0 := by
  constructor
  · intro hlaw
    by_contra hskips
    obtain ⟨pre, press, post, hmoves, hpre⟩ := first_skip hskips
    have hone : skips (pre ++ [.skip press]) = 1 := by
      rw [skips_append, hpre]
      rfl
    refine one_skip_misses h _ hone (hlaw _ post ?_)
    rw [hmoves, List.append_assoc]
    rfl
  · rintro hskips pre post rfl
    rw [skips_append] at hskips
    have hpre : skips pre = 0 := by omega
    refine (arrives_iff h pre).mpr ⟨guarded_of_no_skip env s hpre, ?_⟩
    rw [hpre]
    exact Int.dvd_zero _

/-- Where skips in a row visit the last song before their end, the next one of
    them traps. -/
theorem skips_miss (h : OnSong count i s) {presses : List SkipPress} {k : Nat}
    (hk : k < presses.length)
    (hvisits : ArrivesAt env s ((presses.take k).map .skip) (count - 1)) (j : Int) :
    ¬ ArrivesAt env s (presses.map .skip) j := by
  rintro ⟨s', hrun, -⟩
  obtain ⟨m, hm, hindex⟩ := hvisits
  have hsplit : presses.map Move.skip
      = (presses.take k).map .skip ++ .skip presses[k] :: (presses.drop (k + 1)).map .skip := by
    rw [← List.map_cons, ← List.drop_eq_getElem_cons hk, ← List.map_append, List.take_append_drop]
  rw [hsplit, run_append, hm, Outcome.ok_andThen] at hrun
  obtain ⟨m', hm', -⟩ := run_cons_ok.mp hrun
  obtain ⟨hahead, -⟩ := navigate_ok hm'
  rw [(navigate_walks h hm).1, hindex] at hahead
  omega

/-- **Cyclic navigation**: from any song the two buttons lead `i` plus skips
    minus previouses round the playlist exactly when every skip finds two songs
    ahead (and named records) and the playlist's length divides the number of
    skips; they do so after every press exactly when none of them is a skip; a
    skip and a previous never undo each other; and as many skips as there are
    songs never visit each song once and come back. -/
theorem navigation_iff (env : Environment) (s : Panel) (hlo : 0 ≤ s.currentMusicIndex)
    (hhi : s.currentMusicIndex < s.musicList.length) :
    (∀ moves, ArrivesAt env s moves
        ((s.currentMusicIndex + skips moves - previouses moves) % s.musicList.length) ↔
      Guarded (navigate env) SkipsInside s moves ∧
        (s.musicList.length : Int) ∣ skips moves) ∧
    (∀ moves, (∀ pre post, moves = pre ++ post → ArrivesAt env s pre
        ((s.currentMusicIndex + skips pre - previouses pre) % s.musicList.length)) ↔
      skips moves = 0) ∧
    (∀ press, ¬ ArrivesAt env s [.skip press, .previous] s.currentMusicIndex ∧
      ¬ ArrivesAt env s [.previous, .skip press] s.currentMusicIndex) ∧
    ∀ presses : List SkipPress, presses.length = s.musicList.length →
      ¬ (ArrivesAt env s (presses.map .skip) s.currentMusicIndex ∧
        ∀ j : Int, 0 ≤ j → j < s.musicList.length →
          ∃! k, k < presses.length ∧ ArrivesAt env s ((presses.take k).map .skip) j) := by
  have h : OnSong s.musicList.length s.currentMusicIndex s := ⟨rfl, rfl, hlo, hhi⟩
  refine ⟨arrives_iff h, arrives_throughout_iff h, ?_, ?_⟩
  · intro press
    have hback : s.currentMusicIndex
        = (s.currentMusicIndex + (1 : Nat) - (1 : Nat)) % s.musicList.length := by
      rw [Int.add_sub_cancel, Int.emod_eq_of_lt hlo hhi]
    constructor
    · rw [hback]
      exact one_skip_misses h [.skip press, .previous] rfl
    · rw [hback]
      exact one_skip_misses h [.previous, .skip press] rfl
  · rintro presses hlength ⟨hreturns, hvisits⟩
    -- the last song is among those visited, and no skip leads on from it
    obtain ⟨k, ⟨hk, hlast⟩, -⟩ := hvisits (s.musicList.length - 1) (by omega) (by omega)
    exact skips_miss h hk hlast _ hreturns

end Laws

/-- On a playlist of two songs two skips come back to the first, without a visit
    to the second; and the previous button does not undo a skip. -/
theorem navigation_iff_two_songs :
    ArrivesAt (.plain fun _ _ => true) (viewDidLoad ["one", "two"] [])
        [.skip ⟨some .inserted, true, false⟩, .skip ⟨some .inserted, true, false⟩] 0 ∧
      ¬ ArrivesAt (.plain fun _ _ => true) (viewDidLoad ["one", "two"] [])
        [.skip ⟨some .inserted, true, false⟩, .previous] 0 ∧
      ¬ ∀ j : Int, 0 ≤ j → j < 2 → ∃! k, k < 2 ∧
        ArrivesAt (.plain fun _ _ => true) (viewDidLoad ["one", "two"] [])
          ((List.take k [⟨some .inserted, true, false⟩, ⟨some .inserted, true, false⟩]).map .skip)
          j := by
  obtain ⟨hlaw, -, hundo, hround⟩ := navigation_iff (.plain fun _ _ => true)
    (viewDidLoad ["one", "two"] []) (by decide) (by decide)
  have hon : OnSong 2 0 (viewDidLoad ["one", "two"] []) := ⟨rfl, rfl, by decide, by decide⟩
  have hguarded : Guarded (navigate (.plain fun _ _ => true)) SkipsInside
      (viewDidLoad ["one", "two"] [])
      [.skip ⟨some .inserted, true, false⟩, .skip ⟨some .inserted, true, false⟩] :=
    (navigate_returns_iff hon _).mp ⟨_, rfl⟩
  have hback : ArrivesAt (.plain fun _ _ => true) (viewDidLoad ["one", "two"] [])
      [.skip ⟨some .inserted, true, false⟩, .skip ⟨some .inserted, true, false⟩] 0 :=
    (hlaw _).mpr ⟨hguarded, by decide⟩
  refine ⟨hback, (hundo ⟨some .inserted, true, false⟩).1, ?_⟩
  intro hvisits
  exact hround [⟨some .inserted, true, false⟩, ⟨some .inserted, true, false⟩] rfl ⟨hback, hvisits⟩

/-- One skip on a playlist of three songs, every load succeeding, goes to the
    third song and not to the second. -/
theorem skip_passes_a_song :
    ∃ s', run (navigate (.plain fun _ _ => true)) (viewDidLoad ["one", "two", "three"] [])
        [.skip ⟨some .inserted, true, false⟩] = .ok s' ∧
      s'.currentMusicIndex = 2 ∧ s'.currentMusicIndex ≠ (0 + 1 - 0) % 3 :=
  ⟨_, rfl, rfl, by decide⟩

end Mac3amPanel
