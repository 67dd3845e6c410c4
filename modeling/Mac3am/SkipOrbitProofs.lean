import Mac3am.NavigationProofs

/-! # Nothing but skips

    A listener who only skips moves through the playlist in steps of 2.  The
    equality test at its end catches the index or misses it by one, and which
    of the two happens is a matter of parity.

    * `skips_return_iff` — how many presses in a row come back, from any state
      of any run: for ever where the length of the playlist and the index are
      even, and otherwise once or twice round at most;
    * `skips_reach_iff` — which songs such presses ever come to. -/

namespace Mac3amPanel

open Swift TrapRun Mac3amStore

variable {env : Environment} {s s' : Panel} {e : Event} {es : List Event} {count : Nat} {i : Int}

/-- A playlist of `count` songs takes that many presses in a row from song
    `i`. -/
def Lasts (count : Nat) (i : Int) (presses : Nat) : Prop :=
  ((count : Int) % 2 = 0 ∧ i % 2 = 0) ∨ i + 2 * presses < count ∨
    ((count : Int) % 2 = 1 ∧ i % 2 = 1 ∧ i + 2 * presses < 2 * count)

theorem lasts_zero (hhi : i < count) : Lasts count i 0 :=
  Or.inr (Or.inl (by omega))

/-- The first press needs two songs ahead, the others what is left. -/
theorem lasts_succ (hhi : i < count) (presses : Nat) :
    Lasts count i (presses + 1) ↔
      i + 2 ≤ count ∧ Lasts count (nextIndex count i) presses := by
  rw [nextIndex, Lasts, Lasts]
  by_cases hend : i + 2 = count
  · rw [if_pos hend]
    omega
  · rw [if_neg hend]
    omega

/-- The song that so many presses lead to. -/
theorem nextIndex_add (hlo : 0 ≤ i) (hahead : i + 2 ≤ count) (presses : Nat) :
    (nextIndex count i + 2 * presses) % count = (i + 2 * (presses + 1 : Nat)) % count := by
  rw [nextIndex_eq hlo hahead, Int.emod_add_emod]
  congr 1
  omega

/-- The songs that one press or more lead to: those ahead an even number of
    songs, and, where the index meets the end of the playlist, every second one
    from the first. -/
theorem lasts_reach (hlo : 0 ≤ i) (hhi : i < count) (j : Int) :
    (∃ presses : Nat, 0 < presses ∧ Lasts count i presses ∧ (i + 2 * presses) % count = j) ↔
      0 ≤ j ∧ j < count ∧
        ((j % 2 = i % 2 ∧ i < j) ∨ ((count : Int) % 2 = i % 2 ∧ j % 2 = 0)) := by
  constructor
  · rintro ⟨presses, hpos, hlasts, rfl⟩
    refine ⟨Int.emod_nonneg _ (by omega), Int.emod_lt_of_pos _ (by omega), ?_⟩
    rcases hlasts with ⟨hcount, hi⟩ | hinside | ⟨hcount, hi, htwice⟩
    · right
      have htwo : (2 : Int) ∣ count := Int.dvd_of_emod_eq_zero hcount
      rw [Int.emod_emod_of_dvd _ htwo]
      omega
    · rw [Int.emod_eq_of_lt (by omega) hinside]
      omega
    · by_cases hinside : i + 2 * presses < count
      · rw [Int.emod_eq_of_lt (by omega) hinside]
        omega
      · -- past the end once: what is left is the distance behind it
        have hback : (i + 2 * presses) % count = i + 2 * presses - count := by
          rw [← Int.sub_emod_right, Int.emod_eq_of_lt (by omega) (by omega)]
        rw [hback]
        omega
  · rintro ⟨hj, hlt, ⟨hparity, hahead⟩ | ⟨hparity, heven⟩⟩
    · refine ⟨((j - i) / 2).toNat, by omega, Or.inr (Or.inl (by omega)), ?_⟩
      rw [show i + 2 * (((j - i) / 2).toNat : Int) = j by omega, Int.emod_eq_of_lt hj hlt]
    · have hround : i + 2 * (((count - i + j) / 2).toNat : Int) = j + count := by omega
      refine ⟨((count - i + j) / 2).toNat, by omega, ?_, ?_⟩
      · rw [Lasts, hround]
        omega
      · rw [hround, Int.add_emod_right, Int.emod_eq_of_lt hj hlt]

/-- The events are all presses of the skip button or of keys. -/
def OnlySkips (es : List Event) : Prop := ∀ e ∈ es, ∃ press, e.Presses press

/-- No press of these events can meet a record without a name: the store has
    none, or every fetch throws. -/
def NoneUnnamed (s : Panel) (es : List Event) : Prop :=
  Named s.context.objects ∨ ∀ e ∈ es, ∀ press, e.Presses press → press.order = none

theorem not_meetsUnnamed {press : SkipPress} (he : e.Presses press) (hfree : NoneUnnamed s (e :: es)) :
    ¬ s.meetsUnnamed press := by
  intro hmeets
  rcases hfree with hn | hthrows
  · obtain ⟨r, hr, hname⟩ := hmeets.exists_unnamed
    exact hn r hr hname
  · obtain ⟨result, hresult, -⟩ := hmeets
    rw [fetch, hthrows e List.mem_cons_self press he] at hresult
    cases hresult

/-- A press that returns had two songs ahead, and moved two songs on. -/
theorem press_onSong {press : SkipPress} (he : e.Presses press) (h : OnSong count i s)
    (hstep : step env s e = .ok s') : i + 2 ≤ count ∧ OnSong count (nextIndex count i) s' := by
  have hskip : navigate env s (.skip press) = .ok s' := (he.step_eq s).symm.trans hstep
  have hinside := navigate_ok hskip
  obtain ⟨m, hm, hon⟩ := navigate_guarded env h hinside
  rw [hskip] at hm
  cases hm
  obtain ⟨rfl, rfl, hlo, -⟩ := h
  rw [walkStep, ← nextIndex_eq hlo hinside.1] at hon
  exact ⟨hinside.1, hon⟩

/-- Presses that all return: the playlist lasts for them. -/
theorem presses_last (hes : OnlySkips es) (h : OnSong count i s)
    (hrun : run (step env) s es = .ok s') :
    Lasts count i es.length ∧ s'.currentMusicIndex = (i + 2 * es.length) % count := by
  induction es generalizing i s with
  | nil =>
      cases hrun
      obtain ⟨-, hindex, hlo, hhi⟩ := h
      refine ⟨lasts_zero hhi, ?_⟩
      rw [List.length_nil, hindex, Int.natCast_zero, Int.mul_zero, Int.add_zero,
        Int.emod_eq_of_lt hlo hhi]
  | cons e es ih =>
      obtain ⟨press, he⟩ := hes e List.mem_cons_self
      have hrest : OnlySkips es := fun e' he' => hes e' (List.mem_cons_of_mem _ he')
      obtain ⟨m, hm, hrun⟩ := run_cons_ok.mp hrun
      obtain ⟨hahead, hon⟩ := press_onSong he h hm
      obtain ⟨hlasts, hindex⟩ := ih hrest hon hrun
      obtain ⟨-, -, hlo, hhi⟩ := h
      rw [List.length_cons, lasts_succ hhi, ← nextIndex_add hlo hahead]
      exact ⟨⟨hahead, hlasts⟩, hindex⟩

/-- Presses that no record can stop return exactly as long as the playlist
    lasts, and what stops them is a subscript out of range. -/
theorem run_presses (env : Environment) (hes : OnlySkips es) (h : OnSong count i s)
    (hfree : NoneUnnamed s es) :
    (Lasts count i es.length → ∃ s', run (step env) s es = .ok s') ∧
    (¬ Lasts count i es.length → ∃ s', run (step env) s es = .trap .indexOutOfRange s') := by
  induction es generalizing i s with
  | nil => exact ⟨fun _ => ⟨s, rfl⟩, fun hnot => absurd (lasts_zero h.2.2.2) hnot⟩
  | cons e es ih =>
      obtain ⟨press, he⟩ := hes e List.mem_cons_self
      have hrest : OnlySkips es := fun e' he' => hes e' (List.mem_cons_of_mem _ he')
      have hmeets := not_meetsUnnamed he hfree
      have hsame : s.currentMusicIndex + 2 ≤ s.musicList.length ↔ i + 2 ≤ count := by
        rw [h.1, h.2.1]
      rw [List.length_cons, lasts_succ h.2.2.2, run_cons]
      by_cases hahead : i + 2 ≤ count
      · obtain ⟨m, hm, -⟩ := navigate_guarded env h
          (show SkipsInside s (.skip press) from ⟨hsame.mpr hahead, hmeets⟩)
        have hstep : step env s e = .ok m := (he.step_eq s).trans hm
        have hnext : NoneUnnamed m es :=
          hfree.imp (fun hn => step_named hn hstep)
            fun hthrows e' he' => hthrows e' (List.mem_cons_of_mem _ he')
        rw [hstep, Outcome.ok_andThen]
        obtain ⟨hlasts, hstops⟩ := ih hrest (press_onSong he h hstep).2 hnext
        exact ⟨fun hl => hlasts hl.2, fun hl => hstops fun hl' => hl ⟨hahead, hl'⟩⟩
      · obtain ⟨m, hm⟩ := press_unguarded env he fun hor =>
          hor.elim (fun hle => hahead (hsame.mp hle)) hmeets
        rw [hm, Outcome.trap_andThen]
        exact ⟨fun hl => absurd hl.1 hahead, fun _ => ⟨m, rfl⟩⟩

/-! ## From any state of a run -/

section Reached

variable {contents : List String} {records : List Entity}

/-- **How long one can skip**: after any run, whatever the loads, fetches and
    saves do, presses in a row all return exactly when the playlist lasts; they
    end on the song twice their number ahead; and what stops them is always a
    subscript out of range. -/
theorem skips_return_iff (hn : Named records) (hsongs : contents ≠ [])
    (h : Reachable env contents records s) (hes : OnlySkips es) :
    ((∃ s', run (step env) s es = .ok s') ↔
      Lasts contents.length s.currentMusicIndex es.length) ∧
    (∀ s', run (step env) s es = .ok s' →
      s'.currentMusicIndex = (s.currentMusicIndex + 2 * es.length) % contents.length) ∧
    ∀ t s', run (step env) s es = .trap t s' → t = .indexOutOfRange := by
  have hon := h.onSong hsongs
  obtain ⟨hlasts, hstops⟩ := run_presses env hes hon (Or.inl (h.named hn))
  refine ⟨⟨?_, hlasts⟩, fun s' hrun => (presses_last hes hon hrun).2, ?_⟩
  · rintro ⟨s', hrun⟩
    exact (presses_last hes hon hrun).1
  · intro t s' htrap
    by_cases hl : Lasts contents.length s.currentMusicIndex es.length
    · obtain ⟨m, hm⟩ := hlasts hl
      cases htrap.symm.trans hm
    · obtain ⟨m, hm⟩ := hstops hl
      cases htrap.symm.trans hm
      rfl

/-- From the third song of four one press wraps round, and from there two more
    do. -/
theorem skips_return_iff_four_songs :
    ∃ s s', run (step (.plain fun _ _ => true)) (viewDidLoad ["a", "b", "c", "d"] [])
        [.selection 2] = .ok s ∧
      run (step (.plain fun _ _ => true)) s (List.replicate 3 (.key ⟨none, false, false⟩))
        = .ok s' := by
  have hes : OnlySkips (List.replicate 3 (.key ⟨none, false, false⟩)) := by
    intro e he
    rw [List.eq_of_mem_replicate he]
    exact ⟨_, Or.inr rfl⟩
  have hreach : Reachable (.plain fun _ _ => true) ["a", "b", "c", "d"] [] _ :=
    ⟨[.selection 2], rfl⟩
  obtain ⟨s', hs'⟩ := (skips_return_iff (by decide) (by decide) hreach hes).1.mpr
    (Or.inl ⟨rfl, rfl⟩)
  exact ⟨_, s', rfl, hs'⟩

/-- **What one hears by skipping**: after any run, presses alone come to a song
    exactly when it lies an even number of songs ahead, or has an even index
    while the length of the playlist and the current index have one parity. -/
theorem skips_reach_iff (hsongs : contents ≠ []) (h : Reachable env contents records s) (j : Int) :
    (∃ es s', OnlySkips es ∧ es ≠ [] ∧ run (step env) s es = .ok s' ∧
        s'.currentMusicIndex = j) ↔
      0 ≤ j ∧ j < contents.length ∧
        ((j % 2 = s.currentMusicIndex % 2 ∧ s.currentMusicIndex < j) ∨
          ((contents.length : Int) % 2 = s.currentMusicIndex % 2 ∧ j % 2 = 0)) := by
  have hon := h.onSong hsongs
  rw [← lasts_reach hon.2.2.1 hon.2.2.2]
  constructor
  · rintro ⟨es, s', hes, hne, hrun, rfl⟩
    obtain ⟨hlasts, hindex⟩ := presses_last hes hon hrun
    exact ⟨es.length, List.length_pos_of_ne_nil hne, hlasts, hindex.symm⟩
  · rintro ⟨presses, hpos, hlasts, rfl⟩
    -- no record can stop a press whose fetch throws
    have hpress : ∀ e ∈ List.replicate presses (Event.skip ⟨none, false, false⟩),
        e = .skip ⟨none, false, false⟩ := fun e he => List.eq_of_mem_replicate he
    have hes : OnlySkips (List.replicate presses (.skip ⟨none, false, false⟩)) :=
      fun e he => ⟨_, Or.inl (hpress e he)⟩
    have hfree : NoneUnnamed s (List.replicate presses (.skip ⟨none, false, false⟩)) := by
      refine Or.inr ?_
      rintro e he press (hskip | hkey)
      · cases (hpress e he).symm.trans hskip
        rfl
      · cases (hpress e he).symm.trans hkey
    have hlength : (List.replicate presses (Event.skip ⟨none, false, false⟩)).length = presses :=
      List.length_replicate
    obtain ⟨s', hrun⟩ := (run_presses env hes hon hfree).1 (hlength.symm ▸ hlasts)
    have hindex := (presses_last hes hon hrun).2
    rw [hlength] at hindex
    exact ⟨_, s', hes, List.ne_nil_of_length_pos (hlength.symm ▸ hpos), hrun, hindex⟩

/-- From the second song of five the wrap leads to the first one, and to the
    third. -/
theorem skips_reach_iff_five_songs :
    ∃ s es s', run (step (.plain fun _ _ => true)) (viewDidLoad ["a", "b", "c", "d", "e"] [])
        [.selection 1] = .ok s ∧
      OnlySkips es ∧ run (step (.plain fun _ _ => true)) s es = .ok s' ∧
      s'.currentMusicIndex = 2 := by
  have hreach : Reachable (.plain fun _ _ => true) ["a", "b", "c", "d", "e"] [] _ :=
    ⟨[.selection 1], rfl⟩
  obtain ⟨es, s', hes, -, hrun, hindex⟩ := (skips_reach_iff (by decide) hreach 2).mpr
    ⟨by decide, by decide, Or.inr ⟨rfl, rfl⟩⟩
  exact ⟨_, es, s', rfl, hes, hrun, hindex⟩

end Reached

end Mac3amPanel
