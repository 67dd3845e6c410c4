import Mac3am.AppSafetyProofs

/-! # The main queue serves in order

    Blocks are posted from three places, the progress loop every second among
    them, while others wait.  The queue runs them in the order of their posting,
    so nothing that happens can hold a block up.

    * `appStep_queue` — an event appends to the queue, and only the queue itself
      takes its first block away;
    * `waiting_observations_called` — so an observation with `n` blocks before it
      has reached the model after `n + 1` turns of the queue, in every
      interleaving. -/

namespace Mac3amApp

open Swift TrapRun Mac3amStore Mac3amPanel Mac3amLandmarks

section Order

variable {K : Type}

/-- The event is a turn of the main queue. -/
def AppEvent.isTurn : AppEvent K → Bool
  | .runMain _ _ _ => true
  | _ => false

/-- The number of turns the main queue gets. -/
def turns (es : List (AppEvent K)) : Nat := es.countP AppEvent.isTurn

/-- The observations the model was called with. -/
def App.called (a : App K) : List (VNFaceObservation K) :=
  a.pipeline.modelCalls.map (·.observation)

theorem turns_cons (e : AppEvent K) (es : List (AppEvent K)) :
    turns (e :: es) = turns es + if e.isTurn then 1 else 0 := List.countP_cons

/-- A capture only posts, and calls nothing. -/
theorem detectFace_queue (faces landmarks : Option (List (VNFaceObservation K))) (a : App K) :
    (a.detectFace faces landmarks).called = a.called ∧
      a.mainQueue <+: (a.detectFace faces landmarks).mainQueue := by
  cases faces with
  | none => exact ⟨rfl, List.prefix_rfl⟩
  | some results =>
      rw [App.detectFace]
      cases results.isEmpty with
      | true => exact ⟨rfl, List.prefix_rfl⟩
      | false =>
          refine ⟨rfl, ?_⟩
          show a.mainQueue <+: (a.mainQueue ++ _) ++ _
          rw [List.append_assoc]
          exact List.prefix_append _ _

end Order

section Turns

variable {K : Type} [Add K] [Sub K] [Mul K] [Div K] [OfNat K 2] [Magnitude K]
  {env : Environment} {io : Printing K} {a a' : App K} {e : AppEvent K}

/-- On a clean pipeline with a face, a landmarks block that returns has called
    the model with its observation. -/
theorem landmarksBlock_called {s s' : Pipeline K} {observation : VNFaceObservation K}
    {viewSize : CGSize K} {array prediction : Bool} (hcsv : s.csvText = some [])
    (hface : s.firstFace ≠ none)
    (h : landmarksBlock io observation viewSize array prediction s = .ok s') :
    s'.modelCalls.map (·.observation) = s.modelCalls.map (·.observation) ++ [observation] := by
  rcases landmarksBlock_cases io observation viewSize array prediction hcsv with
    ⟨hnone, -⟩ | ⟨face, input1, -, -, -, ⟨-, heq⟩ | ⟨-, t, m, heq, -⟩⟩ | ⟨face, -, -, t, m, heq, -⟩
  · exact absurd hnone hface
  · cases heq.symm.trans h
    exact List.map_append
  · cases heq.symm.trans h
  · cases heq.symm.trans h

/-- A turn of the queue runs its first block, if it has one. -/
theorem runBlock_queue (h : Clean a.asPipeline) {block : MainBlock K} {rest : List (MainBlock K)}
    (hqueue : a.mainQueue = block :: rest) {viewSize : CGSize K} {array prediction : Bool}
    (hrun : runBlock io viewSize array prediction { a with mainQueue := rest } block = .ok a') :
    a'.called = a.called ++ observationsOf [block] ∧ rest <+: a'.mainQueue := by
  have hsame : a.called = a.called ++ [] := (List.append_nil _).symm
  rcases runBlock_cases hrun with ⟨rfl, p, -, rfl⟩ | ⟨observation, p, rfl, hp, rfl⟩ |
      ⟨rfl | rfl, rfl⟩
  · exact ⟨hsame, List.prefix_rfl⟩
  · have hface : a.pipeline.firstFace ≠ none := by
      refine h.finds ?_
      show observationsOf a.mainQueue ≠ []
      rw [hqueue]
      exact List.cons_ne_nil _ _
    exact ⟨landmarksBlock_called h.csvText hface hp, List.prefix_append _ _⟩
  · exact ⟨hsame, List.prefix_rfl⟩
  · exact ⟨hsame, List.prefix_rfl⟩

/-- **What an event does to the queue**: a turn takes the first block and calls
    the model with its observation, if it has one; every other event at most
    appends. -/
theorem appStep_queue (h : Clean a.asPipeline) (hstep : appStep env io a e = .ok a') :
    a'.called = a.called ++ observationsOf (a.mainQueue.take (if e.isTurn then 1 else 0)) ∧
      a.mainQueue.drop (if e.isTurn then 1 else 0) <+: a'.mainQueue := by
  have hsame : a.called = a.called ++ observationsOf (a.mainQueue.take 0) :=
    (List.append_nil _).symm
  rcases appStep_cases hstep with ⟨x, direct, p, rfl, -, rfl⟩ | ⟨rfl, ⟨-, rfl⟩ | ⟨-, rfl⟩⟩ |
      ⟨r, rfl, -, rfl⟩ | ⟨r, m, rfl, -, rfl, ⟨-, rfl⟩ | ⟨-, rfl⟩⟩ |
      ⟨viewSize, array, prediction, rfl, ⟨hqueue, rfl⟩ | ⟨block, rest, hqueue, hrun⟩⟩
  · exact ⟨hsame, List.prefix_rfl⟩
  · exact ⟨hsame, List.prefix_rfl⟩
  · exact ⟨hsame, List.prefix_append _ _⟩
  · exact ⟨hsame, List.prefix_rfl⟩
  · obtain ⟨hcalled, hqueue⟩ :=
      detectFace_queue r.faces r.landmarks { a with delivered := a.delivered + 1 }
    exact ⟨hcalled.trans hsame, hqueue⟩
  · exact ⟨hsame, List.prefix_rfl⟩
  · rw [hqueue]
    exact ⟨(List.append_nil _).symm, List.nil_prefix⟩
  · rw [hqueue]
    exact runBlock_queue h hqueue hrun

/-- **Nothing holds a block up**: from any state a run can reach, in every
    interleaving that returns, after as many turns of the main queue as there
    are blocks up to an observation's own the model has been called with it, and
    with those before it, in order. -/
theorem waiting_observations_called (env : Environment) (io : Printing K)
    (contents : List String) (records : List Entity) {es fs : List (AppEvent K)} {a a' : App K}
    (hreach : run (appStep env io) (App.started contents records) es = .ok a)
    (hrun : run (appStep env io) a fs = .ok a') :
    a.called ++ observationsOf (a.mainQueue.take (turns fs)) <+: a'.called := by
  have hsteady : Steady a := run_invariant (fun _ _ _ h hstep => appStep_steady h hstep)
    (started_steady contents records) hreach
  clear hreach
  induction fs generalizing a with
  | nil =>
      cases hrun
      have hnone : a'.called ++ observationsOf (a'.mainQueue.take (turns ([] : List (AppEvent K))))
          = a'.called := List.append_nil _
      exact ⟨[], (List.append_nil _).trans hnone⟩
  | cons e fs ih =>
      obtain ⟨m, hm, hrest⟩ := run_cons_ok.mp hrun
      obtain ⟨hcalled, hqueue⟩ := appStep_queue hsteady.clean hm
      refine List.IsPrefix.trans ?_ (ih hrest (appStep_steady hsteady hm))
      -- the first blocks of the queue are the one that ran and the first ones left
      obtain ⟨posted, hposted⟩ := hqueue
      rw [hcalled, List.append_assoc, turns_cons, Nat.add_comm, List.take_add,
        observationsOf_append, ← hposted, List.take_append, observationsOf_append]
      refine List.prefix_append_right_inj _ |>.mpr ?_
      exact List.prefix_append_right_inj _ |>.mpr (List.prefix_append _ _)

end Turns

/-- A press whose capture delivers one face. -/
def faceDelivered : List (AppEvent ℚ) :=
  [.handler (.skip ⟨none, false, true⟩) trivial,
    .captureCompletes ⟨true, true, true, true, some [sampleFace squareBox],
      some [sampleFace squareBox]⟩]

/-- The next turn of the queue has the model called with it. -/
theorem waiting_observations_called_face_delivered :
    ∃ a, run (appStep (.plain fun _ _ => true) rationalPrinting) (App.started ["one", "two"] [])
        (faceDelivered ++ [.runMain ⟨100, 100⟩ true true]) = .ok a ∧
      a.called ≠ [] := by
  obtain ⟨a, ha⟩ : ∃ a, run (appStep (.plain fun _ _ => true) rationalPrinting)
      (App.started ["one", "two"] []) faceDelivered = .ok a := ⟨_, rfl⟩
  have hqueue : a.mainQueue = [.landmarks (sampleFace squareBox), .clearShapes] := by
    cases ha
    rfl
  have hsteady : Steady a := run_invariant (fun _ _ _ h hstep => appStep_steady h hstep)
    (started_steady _ _) ha
  obtain ⟨a', ha'⟩ := (appStep_returns_iff (.plain fun _ _ => true) rationalPrinting hsteady
    (.runMain ⟨100, 100⟩ true true)).mpr (by
      intro observation ho
      rw [hqueue] at ho
      cases ho
      exact ⟨(sampleCall_block squareBox squareBox).1, sampleFace_enough squareBox, rfl, rfl⟩)
  have hrun : run (appStep (.plain fun _ _ => true) rationalPrinting) a
      [.runMain ⟨100, 100⟩ true true] = .ok a' := by
    rw [run_cons, ha']
    rfl
  refine ⟨a', by rw [run_append, ha]; exact hrun, ?_⟩
  have hprefix := waiting_observations_called (.plain fun _ _ => true) rationalPrinting
    ["one", "two"] [] ha hrun
  rw [hqueue] at hprefix
  intro hnil
  rw [hnil] at hprefix
  exact List.cons_ne_nil _ _ (List.append_eq_nil_iff.mp (List.prefix_nil.mp hprefix)).2

end Mac3amApp
