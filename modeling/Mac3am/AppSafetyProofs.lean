import Mac3am.MainQueueProofs

/-! # When the application does not crash

    A crash can come from the playlist index, from the store, from a capture or
    from the landmarks of a face, in any interleaving.  Each part has its own
    exact condition; since the application hosts both, so has the whole.

    * `panelStep_returns_iff`, `runBlock_returns_iff` — for one event of a part,
      in the states it can be in;
    * `app_returns_iff_guarded` — for every run of the whole. -/

namespace Mac3amApp

open Swift TrapRun Mac3amStore Mac3amPanel Mac3amLandmarks

section Panels

variable {env : Environment} {s : Panel} {e : Event}

/-- What an event of the panel must meet to return. -/
def PanelReturns (s : Panel) (e : Event) : Prop :=
  KeepsInRange s e ∧ ∀ press, e.Presses press → ¬ s.meetsUnnamed press

/-- A press that returns keeps to its condition and meets no record without a
    name. -/
theorem press_returns (env : Environment) {press : SkipPress} (h : Sound s) (hr : InRange s)
    (he : e.Presses press) (hkeeps : KeepsInRange s e) (hnamed : ¬ s.meetsUnnamed press) :
    ∃ s', step env s e = .ok s' := by
  have hahead : s.currentMusicIndex + 2 ≤ s.musicList.length ∨ s.meetsUnnamed press := by
    rcases he with rfl | rfl
    · exact hkeeps
    · exact hkeeps
  rcases skip_ends env press s with ⟨hmeets, -⟩ | ⟨-, hnone, -⟩ | ⟨-, -, c, hc⟩
  · exact absurd hmeets hnamed
  · have hlt := hahead.resolve_right hnamed
    exact absurd ⟨hr.1, by omega⟩ (subscript_eq_none.mp hnone)
  · obtain ⟨s', hs', -⟩ := entry_inRange env h (he.entry_eq hc)
      (nextIndex_inside hr.1 (hahead.resolve_right hnamed))
    exact ⟨s', hs'⟩

/-- **When an event of the panel returns**, in the states it can be in. -/
theorem panelStep_returns_iff (env : Environment) (h : Sound s) (hr : InRange s) (e : Event) :
    (∃ s', step env s e = .ok s') ↔ PanelReturns s e := by
  constructor
  · rintro ⟨s', hs'⟩
    constructor
    · by_contra hnot
      obtain ⟨m, hm⟩ := step_unguarded env hnot
      cases hs'.symm.trans hm
    · intro press he hmeets
      rcases skip_ends env press s with ⟨-, m, hm⟩ | ⟨hnot, -⟩ | ⟨hnot, -⟩
      · cases hs'.symm.trans ((he.step_eq s).trans hm)
      · exact hnot hmeets
      · exact hnot hmeets
  · rintro ⟨hkeeps, hnamed⟩
    cases e with
    | selection row =>
        obtain ⟨s', hs', -⟩ := selection_guarded env h hr hkeeps
        exact ⟨s', hs'⟩
    | previous =>
        obtain ⟨s', hs', -⟩ := entry_inRange env h (e := .previous) (m := s.toPrevious) rfl
          (previousIndex_inside (List.length_pos_of_ne_nil hkeeps) hr.2)
        exact ⟨s', hs'⟩
    | skip press => exact press_returns env h hr (Or.inl rfl) hkeeps (hnamed press (Or.inl rfl))
    | key press => exact press_returns env h hr (Or.inr rfl) hkeeps (hnamed press (Or.inr rfl))
    | play => exact ⟨_, rfl⟩
    | trackEnds k => exact ⟨_, rfl⟩
    | trackAdvances k time => exact ⟨_, rfl⟩
    | progressWakes => exact progressWakes_ok env s
    | tick => exact h.tick_ok env

end Panels

/-- What the block that runs next must find: all regions of its observation,
    points enough in them, an array and a prediction. -/
def BlockReturns {K : Type} (waiting : List (VNFaceObservation K)) (array prediction : Bool) :
    Prop :=
  ∀ observation, waiting.head? = some observation →
    Complete observation ∧ EnoughPoints observation ∧ array = true ∧ prediction = true

theorem blockReturns_cons {K : Type} {observation : VNFaceObservation K}
    {rest : List (VNFaceObservation K)} {array prediction : Bool} :
    BlockReturns (observation :: rest) array prediction ↔
      Complete observation ∧ EnoughPoints observation ∧ array = true ∧ prediction = true :=
  ⟨fun hall => hall observation rfl, fun hall _ ho => Option.some.inj ho ▸ hall⟩

section Pipelines

variable {K : Type} [Add K] [Sub K] [Mul K] [Div K] [OfNat K 2] [Magnitude K]
  {s s' : Pipeline K} {io : Printing K}

/-- What the pipeline keeps between its events: no text is left over, and an
    observation that waits finds a face. -/
structure Clean (s : Pipeline K) : Prop where
  csvText : s.csvText = some []
  finds : s.mainQueue ≠ [] → s.firstFace ≠ none

theorem captureStep_clean (h : Clean s) {e : CaptureEvent K} (hstep : captureStep io s e = .ok s') :
    Clean s' := by
  have hagree := captureStep_direct io e h.csvText
  rw [hstep] at hagree
  cases hdirect : directStep s e with
  | trap t m =>
      rw [hdirect] at hagree
      exact hagree.elim
  | ok m =>
      rw [hdirect] at hagree
      obtain ⟨rfl, hcsv⟩ := hagree
      exact ⟨hcsv, directStep_finds h.finds hdirect⟩

/-- **When a block of the pipeline returns**, in the states it can be in. -/
theorem runBlock_returns_iff (io : Printing K) (h : Clean s) (viewSize : CGSize K)
    (array prediction : Bool) :
    (∃ s', captureStep io s (.runBlock viewSize array prediction) = .ok s') ↔
      BlockReturns s.mainQueue array prediction := by
  rw [(captureStep_direct io (.runBlock viewSize array prediction) h.csvText).returns_iff, directStep]
  cases hqueue : s.mainQueue with
  | nil =>
      refine iff_of_true ⟨s, rfl⟩ ?_
      intro observation ho
      cases ho
  | cons observation rest =>
      obtain ⟨face, hface⟩ := Option.ne_none_iff_exists'.mp
        (h.finds (by rw [hqueue]; exact List.cons_ne_nil _ _))
      rw [blockReturns_cons]
      dsimp only
      rw [directBlock,
        show ({ s with mainQueue := rest } : Pipeline K).firstFace = some face from hface]
      dsimp only
      cases hinput : directInput observation (face.boundingBox.scaled viewSize) with
      | none =>
          have hlacks := directInput_eq_none.mp hinput
          refine iff_of_false ?_ fun hall => hlacks ⟨hall.1, hall.2.1⟩
          rintro ⟨s', hs'⟩
          cases hs'
      | some input1 =>
          have hhas : Complete observation ∧ EnoughPoints observation := by
            by_contra hlacks
            cases hinput.symm.trans (directInput_eq_none.mpr hlacks)
          cases array with
          | false =>
              refine iff_of_false ?_ fun hall => Bool.false_ne_true hall.2.2.1
              rintro ⟨s', hs'⟩
              cases hs'
          | true =>
              cases prediction with
              | false =>
                  refine iff_of_false ?_ fun hall => Bool.false_ne_true hall.2.2.2
                  rintro ⟨s', hs'⟩
                  cases hs'
              | true => exact iff_of_true ⟨_, rfl⟩ ⟨hhas.1, hhas.2, rfl, rfl⟩

end Pipelines

/-! ## The whole -/

section Whole

variable {K : Type} [Add K] [Sub K] [Mul K] [Div K] [OfNat K 2] [Magnitude K]

/-- What an event of the application must meet to return. -/
def AppReturns (a : App K) : AppEvent K → Prop
  | .handler e _ => PanelReturns a.asPanel e
  | .progressWakes => True
  | .captureCompletes r => a.delivered < a.panel.captures → r.Unwraps
  | .runMain _ array prediction =>
      ∀ observation, a.mainQueue.head? = some (.landmarks observation) →
        Complete observation ∧ EnoughPoints observation ∧ array = true ∧ prediction = true

/-- What the application keeps between its events. -/
structure Steady (a : App K) : Prop where
  sound : Sound a.asPanel
  inRange : InRange a.asPanel
  clean : Clean a.asPipeline

omit [Add K] [Sub K] [Mul K] [Div K] [OfNat K 2] [Magnitude K] in
theorem started_steady (contents : List String) (records : List Entity) :
    Steady (App.started contents records : App K) where
  sound := viewDidLoad_sound contents records
  inRange := viewDidLoad_inRange contents records
  clean := ⟨rfl, fun h => absurd rfl h⟩

variable {env : Environment} {io : Printing K} {a a' : App K} {e : AppEvent K}

theorem appStep_steady (h : Steady a) (hstep : appStep env io a e = .ok a') : Steady a' := by
  obtain ⟨hsound, hrange⟩ := (hosts_panel env io).keeps (Q := fun s => Sound s ∧ InRange s)
    (fun _ _ _ hs hk => step_inRange hs.1 hs.2 hk) ⟨h.sound, h.inRange⟩ hstep
  exact ⟨hsound, hrange,
    (hosts_pipeline env io).keeps (fun _ _ _ hs hk => captureStep_clean hs hk) h.clean hstep⟩

/-- **When an event of the application returns**, in the states it can be in. -/
theorem appStep_returns_iff (env : Environment) (io : Printing K) (h : Steady a)
    (e : AppEvent K) : (∃ a', appStep env io a e = .ok a') ↔ AppReturns a e := by
  cases e with
  | handler e direct =>
      rw [(hosts_panel env io).returns_iff (k := e) rfl, panelStep_returns_iff env h.sound h.inRange]
      exact Iff.rfl
  | progressWakes =>
      rw [(hosts_panel env io).returns_iff (k := .progressWakes) rfl]
      exact iff_of_true (progressWakes_ok env _) trivial
  | captureCompletes r =>
      rw [appStep, AppReturns]
      by_cases hdue : a.delivered < a.panel.captures
      · rw [if_pos hdue, forall_prop_of_true hdue]
        rcases stillImage_cases r { a with delivered := a.delivered + 1 } with
          ⟨-, hunwraps, heq⟩ | ⟨-, hunwraps, heq⟩ | ⟨-, hunwraps, heq⟩
        · exact iff_of_true ⟨_, heq⟩ hunwraps
        · exact iff_of_true ⟨_, heq⟩ hunwraps
        · refine iff_of_false ?_ hunwraps
          rintro ⟨a', ha'⟩
          cases heq.symm.trans ha'
      · rw [if_neg hdue]
        exact iff_of_true ⟨a, rfl⟩ fun h => absurd h hdue
  | runMain viewSize array prediction =>
      cases hqueue : a.mainQueue with
      | nil =>
          rw [appStep, AppReturns, hqueue]
          refine iff_of_true ⟨a, rfl⟩ ?_
          intro observation ho
          cases ho
      | cons block rest =>
          cases block with
          | showProgress =>
              rw [(hosts_panel env io).returns_iff (k := .tick) (by rw [panelEvent, hqueue]),
                AppReturns, hqueue]
              refine iff_of_true (h.sound.tick_ok env) ?_
              intro observation ho
              cases ho
          | landmarks observation =>
              have hwaits : a.asPipeline.mainQueue = observation :: observationsOf rest := by
                show observationsOf a.mainQueue = _
                rw [hqueue]
                rfl
              rw [(hosts_pipeline env io).returns_iff
                (k := .runBlock viewSize array prediction) (by rw [captureEvent, hqueue]),
                runBlock_returns_iff io h.clean, hwaits, AppReturns, hqueue, blockReturns_cons]
              exact ⟨fun hall o ho => MainBlock.landmarks.inj (Option.some.inj ho) ▸ hall,
                fun hall => hall observation rfl⟩
          | clearShapes =>
              rw [appStep, AppReturns, hqueue]
              refine iff_of_true ⟨_, rfl⟩ ?_
              intro observation ho
              cases ho
          | draw =>
              rw [appStep, AppReturns, hqueue]
              refine iff_of_true ⟨_, rfl⟩ ?_
              intro observation ho
              cases ho

/-- **The application returns exactly when it is guarded**: over every
    interleaving of handlers, progress loop, captures and main queue, from
    launch, no event crashes the process exactly when each meets its own
    condition in the state it is reached in. -/
theorem app_returns_iff_guarded (env : Environment) (io : Printing K) (contents : List String)
    (records : List Entity) (es : List (AppEvent K)) :
    (∃ a, run (appStep env io) (App.started contents records) es = .ok a) ↔
      Guarded (appStep env io) AppReturns (App.started contents records) es := by
  refine run_ok_iff_guarded (P := Steady) ?_ ?_ (started_steady contents records)
  · intro a e h hreturns
    obtain ⟨a', ha'⟩ := (appStep_returns_iff env io h e).mpr hreturns
    exact ⟨a', ha', appStep_steady h ha'⟩
  · intro a e a' h hstep
    exact (appStep_returns_iff env io h e).mp ⟨a', hstep⟩

end Whole

end Mac3amApp
