import Mac3am.PressAccountProofs

/-! # The parts do nothing the application cannot do

    The application runs as its two parts; here is the other direction.  A run
    of the panel on its own is a run of the application in which no capture is
    ever delivered.  A run of the pipeline needs captures, which need presses
    that do not trap, and these need two songs: with them the previous button
    leads back to a song from which one more press returns.

    * `panel_realized` — every run of the panel, traps included, is one of the
      application;
    * `pipeline_realized_iff` — every run of the pipeline is one exactly where
      the playlist holds two songs; with fewer the application never sees a
      face. -/

namespace Mac3amApp

open Swift TrapRun Mac3amStore Mac3amPanel Mac3amLandmarks

/-! ## The panel -/

section Panels

variable {K : Type} [Add K] [Sub K] [Mul K] [Div K] [OfNat K 2] [Magnitude K]
  {env : Environment} {io : Printing K} {a a' : App K}

theorem direct_or (e : Event) : Direct e ∨ e = .progressWakes ∨ e = .tick := by
  cases e with
  | progressWakes => exact Or.inr (Or.inl rfl)
  | tick => exact Or.inr (Or.inr rfl)
  | _ => exact Or.inl trivial

theorem direct_previous : Direct .previous := trivial

theorem direct_skip (press : SkipPress) : Direct (.skip press) := trivial

/-- No block waits but those of the progress loop. -/
def OnlyTicks (a : App K) : Prop := ∃ n, a.mainQueue = List.replicate n .showProgress

/-- Each event of the panel is at most one of the application. -/
theorem panel_event_realized (env : Environment) (io : Printing K) (h : OnlyTicks a) (e : Event) :
    ∃ fs, (run (appStep env io) a fs).Agree (fun a s => a.asPanel = s ∧ OnlyTicks a)
      (fun a s => a.asPanel = s) (step env a.asPanel e) := by
  obtain ⟨n, hqueue⟩ := h
  rcases direct_or e with hdirect | rfl | rfl
  · refine ⟨[.handler e hdirect], (hosts_panel env io).agrees rfl ?_⟩
    intro a' ha'
    obtain ⟨p, -, rfl⟩ := Outcome.map_eq_ok.mp ha'
    exact ⟨n, hqueue⟩
  · refine ⟨[.progressWakes], (hosts_panel env io).agrees rfl ?_⟩
    intro a' ha'
    rw [appStep] at ha'
    by_cases hblocks : a.panel.progressBlocks = 0
    · rw [if_pos hblocks] at ha'
      cases ha'
      exact ⟨n, hqueue⟩
    · rw [if_neg hblocks] at ha'
      cases ha'
      refine ⟨n + 1, ?_⟩
      rw [List.replicate_succ', ← hqueue]
      rfl
  · cases n with
    | zero =>
        -- no block is posted, and the queue has nothing to run
        refine ⟨[], ?_⟩
        have hnone : a.asPanel.postedTicks = 0 := congrArg ticksOf hqueue
        rw [step, if_pos hnone]
        exact ⟨rfl, 0, hqueue⟩
    | succ n =>
        have hhead : a.mainQueue = .showProgress :: List.replicate n .showProgress := hqueue
        refine ⟨[.runMain ⟨2, 2⟩ true true], (hosts_panel env io).agrees ?_ ?_⟩
        · rw [panelEvent, hhead]
        · intro a' ha'
          rw [appStep, hhead] at ha'
          obtain ⟨p, -, rfl⟩ := Outcome.map_eq_ok.mp ha'
          exact ⟨n, rfl⟩

/-- **The panel does nothing the application cannot do**: each of its runs, from
    any playlist and any store, is a run of the application that ends alike. -/
theorem panel_realized (env : Environment) (io : Printing K) (contents : List String)
    (records : List Entity) (es : List Event) :
    ∃ fs, (run (appStep env io) (App.started contents records) fs).Agree
      (fun a s => a.asPanel = s) (fun a s => a.asPanel = s)
      (run (step env) (viewDidLoad contents records) es) := by
  have hevents : ∀ (a : App K) s e, a.asPanel = s ∧ OnlyTicks a → ∃ fs,
      (run (appStep env io) a fs).Agree (fun a s => a.asPanel = s ∧ OnlyTicks a)
        (fun a s => a.asPanel = s) (step env s e) := by
    rintro a s e ⟨rfl, hticks⟩
    exact panel_event_realized env io hticks e
  obtain ⟨fs, hagree⟩ :=
    run_realizes hevents es (s := App.started contents records) ⟨rfl, 0, rfl⟩
  exact ⟨fs, hagree.mono fun _ _ h => h.1⟩

end Panels

/-! ## The pipeline -/

section Pipelines

variable {K : Type} [Add K] [Sub K] [Mul K] [Div K] [OfNat K 2] [Magnitude K]
  {env : Environment} {io : Printing K} {a a' : App K} {count : Nat}

/-- A state from which a capture can be had: the panel is on a song, and no
    progress block waits. -/
structure Ready (count : Nat) (a : App K) : Prop where
  onSong : ∃ i, OnSong count i a.panel
  delivered : a.delivered ≤ a.panel.captures
  noTicks : ticksOf a.mainQueue = 0

theorem run_handler {e : Event} {p : Panel} (io : Printing K) {direct : Direct e}
    (hstep : step env a.panel e = .ok p) :
    run (appStep env io) a [.handler e direct] = .ok { a with panel := p } := by
  show ((step env a.panel e).map _).andThen _ = _
  rw [hstep]
  rfl

/-- The previous button, pressed until the first song. -/
theorem rewind (env : Environment) (io : Printing K) {n : Nat} (h : OnSong count n a.panel) :
    ∃ fs p, run (appStep env io) a fs = .ok { a with panel := p } ∧ OnSong count 0 p ∧
      p.captures = a.panel.captures := by
  induction n generalizing a with
  | zero => exact ⟨[], a.panel, rfl, h, rfl⟩
  | succ n ih =>
      obtain ⟨p, hp, hon⟩ := navigate_guarded env h (show SkipsInside a.panel .previous from trivial)
      have hstep : step env a.panel .previous = .ok p := hp
      have hwalk : walkStep count (n + 1 : Nat) .previous = n := by
        have hlt := h.2.2.2
        rw [walkStep, show ((n + 1 : Nat) : Int) - 1 = n by omega,
          Int.emod_eq_of_lt (by omega) (by omega)]
      rw [hwalk] at hon
      obtain ⟨fs, q, hrun, hfirst, hcaptures⟩ := ih (a := { a with panel := p }) hon
      refine ⟨[.handler .previous direct_previous] ++ fs, q, ?_, hfirst, ?_⟩
      · rw [run_append, run_handler io hstep]
        exact hrun
      · rw [hcaptures, show p.captures = a.panel.captures from step_captures hstep]

/-- With two songs, a press with a connection can be had from anywhere. -/
theorem press_realized (env : Environment) (io : Printing K) (h : Ready count a)
    (htwo : 2 ≤ count) :
    ∃ fs p, run (appStep env io) a fs = .ok { a with panel := p } ∧ (∃ i, OnSong count i p) ∧
      p.captures = a.panel.captures + 1 := by
  obtain ⟨i, hon⟩ := h.onSong
  have hindex : i = (i.toNat : Int) := (Int.toNat_of_nonneg hon.2.2.1).symm
  obtain ⟨fs, p, hrun, hfirst, hcaptures⟩ := rewind env io (hindex ▸ hon)
  -- the fetch of this press throws, so that no record can stop it
  have hinside : SkipsInside p (.skip ⟨none, false, true⟩) := by
    refine ⟨?_, ?_⟩
    · rw [hfirst.1, hfirst.2.1]
      omega
    · rintro ⟨result, hresult, -⟩
      cases hresult
  obtain ⟨q, hq, hnext⟩ := navigate_guarded env hfirst hinside
  have hstep : step env p (.skip ⟨none, false, true⟩) = .ok q := hq
  refine ⟨fs ++ [.handler (.skip ⟨none, false, true⟩) (direct_skip _)], q, ?_, ⟨_, hnext⟩, ?_⟩
  · rw [run_append, hrun]
    exact run_handler (a := { a with panel := p }) io hstep
  · rw [step_captures hstep, hcaptures]
    rfl

omit [Add K] [Sub K] [Mul K] [Div K] [OfNat K 2] [Magnitude K] in
theorem detectFace_ready (h : Ready count a) (faces landmarks : Option (List (VNFaceObservation K))) :
    Ready count (a.detectFace faces landmarks) := by
  obtain ⟨hdelivered, hpanel⟩ := detectFace_delivered faces landmarks a
  have hticks : ticksOf (a.detectFace faces landmarks).mainQueue = ticksOf a.mainQueue :=
    congrArg Panel.postedTicks (detectFace_parts faces landmarks a).1
  refine ⟨?_, ?_, hticks.trans h.noTicks⟩
  · rw [hpanel]
    exact h.onSong
  · rw [hpanel, hdelivered]
    exact h.delivered

omit [Add K] [Sub K] [Mul K] [Div K] [OfNat K 2] [Magnitude K] in
/-- A capture of the pipeline was due. -/
theorem captureEvent_capture {e : AppEvent K} {faces landmarks : Option (List (VNFaceObservation K))}
    (h : captureEvent a e = some (.capture faces landmarks)) : a.delivered < a.panel.captures := by
  cases e with
  | handler x direct => cases h
  | progressWakes => cases h
  | captureCompletes r =>
      rw [captureEvent] at h
      by_cases hdue : a.delivered < a.panel.captures ∧ r.Arrives
      · exact hdue.1
      · rw [if_neg hdue] at h
        cases h
  | runMain viewSize array prediction =>
      rw [captureEvent] at h
      split at h
      · cases h
      · cases h

/-- A capture of the pipeline is a press, and the image it asks for. -/
theorem capture_realized (env : Environment) (io : Printing K) (h : Ready count a)
    (htwo : 2 ≤ count) (faces landmarks : Option (List (VNFaceObservation K))) :
    ∃ fs, (run (appStep env io) a fs).Agree (fun a s => a.asPipeline = s ∧ Ready count a)
      (fun a s => a.asPipeline = s) (captureStep io a.asPipeline (.capture faces landmarks)) := by
  obtain ⟨fs, p, hrun, hon, hcaptures⟩ := press_realized env io h htwo
  have hdelivered := h.delivered
  have hdue : a.delivered < p.captures := by omega
  have hevent : captureEvent { a with panel := p }
      (.captureCompletes ⟨true, true, true, true, faces, landmarks⟩)
      = some (.capture faces landmarks) := if_pos ⟨hdue, rfl, rfl, rfl, rfl⟩
  refine ⟨fs ++ [.captureCompletes ⟨true, true, true, true, faces, landmarks⟩], ?_⟩
  rw [run_append, hrun]
  refine (hosts_pipeline env io).agrees hevent ?_
  intro a' ha'
  rw [appStep, if_pos hdue] at ha'
  cases ha'
  refine detectFace_ready (a := { a with panel := p, delivered := a.delivered + 1 }) ?_ _ _
  exact ⟨hon, hdue, h.noTicks⟩

/-- The blocks of captures before the next landmarks block, if there is one, run
    without a trace. -/
theorem drain (env : Environment) (io : Printing K) {queue : List (MainBlock K)}
    (hqueue : a.mainQueue = queue) (hticks : ticksOf queue = 0) :
    ∃ fs rest, run (appStep env io) a fs = .ok { a with mainQueue := rest } ∧
      ticksOf rest = 0 ∧ observationsOf rest = observationsOf queue ∧
      (rest = [] ∨ ∃ observation tail, rest = .landmarks observation :: tail) := by
  induction queue generalizing a with
  | nil => exact ⟨[], [], hqueue ▸ rfl, rfl, rfl, Or.inl rfl⟩
  | cons block queue ih =>
      have hskip : (∀ viewSize array prediction, runBlock io viewSize array prediction
            { a with mainQueue := queue } block = .ok { a with mainQueue := queue }) →
          ticksOf queue = 0 → observationsOf (block :: queue) = observationsOf queue →
          ∃ fs rest, run (appStep env io) a fs = .ok { a with mainQueue := rest } ∧
            ticksOf rest = 0 ∧ observationsOf rest = observationsOf (block :: queue) ∧
            (rest = [] ∨ ∃ observation tail, rest = .landmarks observation :: tail) := by
        intro hblock hnone hsame
        obtain ⟨fs, rest, hrun, hrest⟩ := ih (a := { a with mainQueue := queue }) rfl hnone
        refine ⟨.runMain ⟨2, 2⟩ true true :: fs, rest, ?_, hsame ▸ hrest⟩
        rw [run_cons, appStep, hqueue]
        dsimp only
        rw [hblock]
        exact hrun
      cases block with
      | showProgress =>
          rw [ticksOf, List.countP_cons_of_pos rfl] at hticks
          exact absurd hticks (Nat.succ_ne_zero _)
      | landmarks observation =>
          exact ⟨[], _, hqueue ▸ rfl, hticks, rfl, Or.inr ⟨observation, queue, rfl⟩⟩
      | clearShapes => exact hskip (fun _ _ _ => rfl) hticks rfl
      | draw => exact hskip (fun _ _ _ => rfl) hticks rfl

/-- A block of the pipeline is the next landmarks block of the queue. -/
theorem block_realized (env : Environment) (io : Printing K) (h : Ready count a)
    (viewSize : CGSize K) (array prediction : Bool) :
    ∃ fs, (run (appStep env io) a fs).Agree (fun a s => a.asPipeline = s ∧ Ready count a)
      (fun a s => a.asPipeline = s)
      (captureStep io a.asPipeline (.runBlock viewSize array prediction)) := by
  obtain ⟨fs, rest, hrun, hticks, hobservations, hrest⟩ := drain env io rfl h.noTicks
  have hsame : ({ a with mainQueue := rest } : App K).asPipeline = a.asPipeline := by
    show waitingBlocks (observationsOf rest) a.pipeline = _
    rw [hobservations]
    rfl
  rcases hrest with rfl | ⟨observation, tail, rfl⟩
  · have hnil : a.asPipeline.mainQueue = [] := hobservations.symm
    refine ⟨fs, ?_⟩
    rw [hrun, captureStep, hnil]
    exact ⟨hsame, h.onSong, h.delivered, rfl⟩
  · refine ⟨fs ++ [.runMain viewSize array prediction], ?_⟩
    rw [run_append, hrun, ← hsame]
    refine (hosts_pipeline env io).agrees rfl ?_
    intro a' ha'
    obtain ⟨p, -, rfl⟩ := Outcome.map_eq_ok.mp ha'
    refine ⟨h.onSong, h.delivered, ?_⟩
    show ticksOf (tail ++ drawBlocks observation a.pipeline) = 0
    rw [ticksOf_append, (drawBlocks_parts observation a.pipeline).1]
    exact hticks

/-! ## Without two songs -/

/-- A press that returns had two songs. -/
theorem press_two_songs {s s' : Panel} {e : Event} {press : SkipPress} (he : e.Presses press)
    (hr : InRange s) (hstep : step env s e = .ok s') : 2 ≤ s.musicList.length := by
  have hskip : navigate env s (.skip press) = .ok s' := (he.step_eq s).symm.trans hstep
  obtain ⟨hahead, -⟩ := navigate_ok hskip
  have hlo := hr.1
  omega

/-- With fewer than two songs no capture is ever started, and the pipeline stays
    as it is at launch. -/
structure Blind (contents : List String) (a : App K) : Prop where
  steady : Steady a
  musicList : a.asPanel.musicList = contents
  captures : a.panel.captures = 0
  delivered : a.delivered = 0
  pipeline : a.asPipeline = .started

/-- No press returns then. -/
theorem Blind.press_traps {contents : List String} (h : Blind contents a)
    (hshort : ¬ 2 ≤ contents.length) {e : Event} {direct : Direct e} {press : SkipPress}
    (he : e.Presses press) : ¬ ∃ a', appStep env io a (.handler e direct) = .ok a' := by
  intro hreturns
  obtain ⟨p, hp⟩ := ((hosts_panel env io).returns_iff (e := .handler e direct)
    (k := e) rfl).mp hreturns
  have htwo := press_two_songs he h.steady.inRange hp
  exact hshort (h.musicList ▸ htwo)

theorem appStep_blind {contents : List String} (hshort : ¬ 2 ≤ contents.length) {e : AppEvent K}
    (h : Blind contents a) (hstep : appStep env io a e = .ok a') : Blind contents a' := by
  have hconnects : e.connects = false := by
    cases e with
    | handler x direct =>
        have hpress : ∀ press, ¬ x.Presses press :=
          fun press hx => h.press_traps hshort hx ⟨a', hstep⟩
        cases x with
        | skip press => exact absurd (Or.inl rfl) (hpress press)
        | key press => exact absurd (Or.inr rfl) (hpress press)
        | _ => rfl
    | _ => rfl
  have hcaptures : a'.panel.captures = 0 := by
    rw [appStep_captures hstep, h.captures, hconnects]
    rfl
  have hdelivered := (appStep_delivered (h.delivered ▸ Nat.zero_le _) hstep).2
  refine ⟨appStep_steady h.steady hstep, ?_, hcaptures, by omega, ?_⟩
  · exact (hosts_panel env io).keeps (Q := fun s => s.musicList = contents)
      (fun _ _ _ hs hk => (step_musicList hk).trans hs) h.musicList hstep
  · have hacts := hosts_pipeline env io a e
    cases hevent : captureEvent a e with
    | none =>
        rw [hevent] at hacts
        exact (hacts a' hstep).trans h.pipeline
    | some k =>
        rw [hevent, hstep] at hacts
        have hinner : captureStep io .started k = .ok a'.asPipeline := h.pipeline ▸ hacts
        cases k with
        | runBlock viewSize array prediction => exact (Outcome.ok.inj hinner).symm
        | capture faces landmarks =>
            -- no capture is due
            have hnone := captureEvent_capture hevent
            rw [h.delivered, h.captures] at hnone
            exact absurd hnone (Nat.lt_irrefl 0)

/-- After a run on fewer than two songs the pipeline is as it was at launch. -/
theorem run_blind {contents : List String} {records : List Entity} {fs : List (AppEvent K)}
    (hshort : ¬ 2 ≤ contents.length)
    (hrun : run (appStep env io) (App.started contents records) fs = .ok a) : Blind contents a :=
  run_invariant (fun _ _ _ h hstep => appStep_blind hshort h hstep)
    ⟨started_steady contents records, rfl, rfl, rfl, rfl⟩ hrun

/-- **The pipeline does nothing the application cannot do, given two songs**:
    each of its runs, whatever the captures deliver and whenever their blocks
    run, is a run of the application that ends alike, and that for every store.
    With fewer songs the application never sees a face: every press of the skip
    button or of a key traps, and as long as there is none the pipeline stays as
    it is at launch. -/
theorem pipeline_realized_iff (env : Environment) (io : Printing K) (contents : List String)
    (records : List Entity) :
    ((∀ ks : List (CaptureEvent K), ∃ fs,
        (run (appStep env io) (App.started contents records) fs).Agree
          (fun a s => a.asPipeline = s) (fun a s => a.asPipeline = s)
          (run (captureStep io) .started ks)) ↔
      2 ≤ contents.length) ∧
    (¬ 2 ≤ contents.length → ∀ fs (a : App K),
      run (appStep env io) (App.started contents records) fs = .ok a →
        a.asPipeline = .started ∧
          ∀ (e : Event) (direct : Direct e) (press : SkipPress), e.Presses press →
            ¬ ∃ a', appStep env io a (.handler e direct) = .ok a') := by
  constructor
  · constructor
    · intro hall
      by_contra hshort
      obtain ⟨fs, hagree⟩ := hall [.capture (some [⟨⟨⟨2, 2⟩, ⟨2, 2⟩⟩, none⟩]) none]
      cases hrun : run (appStep env io) (App.started contents records) fs with
      | ok a =>
          rw [hrun] at hagree
          have hface := congrArg Pipeline.inputFaceObservations
            ((run_blind hshort hrun).pipeline.symm.trans hagree)
          cases hface
      | trap t a =>
          rw [hrun] at hagree
          exact hagree
    · intro htwo ks
      have hevents : ∀ (a : App K) s k, a.asPipeline = s ∧ Ready contents.length a → ∃ fs,
          (run (appStep env io) a fs).Agree
            (fun a s => a.asPipeline = s ∧ Ready contents.length a) (fun a s => a.asPipeline = s)
            (captureStep io s k) := by
        rintro a s k ⟨rfl, hready⟩
        cases k with
        | capture faces landmarks => exact capture_realized env io hready htwo faces landmarks
        | runBlock viewSize array prediction =>
            exact block_realized env io hready viewSize array prediction
      have hstart : Ready contents.length (App.started contents records : App K) :=
        ⟨⟨0, rfl, rfl, Int.le_refl 0, by omega⟩, Nat.le_refl 0, rfl⟩
      obtain ⟨fs, hagree⟩ :=
        run_realizes hevents ks (s := App.started contents records) ⟨rfl, hstart⟩
      exact ⟨fs, hagree.mono fun _ _ h => h.1⟩
  · intro hshort fs a hrun
    have hblind := run_blind hshort hrun
    exact ⟨hblind.pipeline, fun e direct press he => hblind.press_traps hshort he⟩

end Pipelines

end Mac3amApp
