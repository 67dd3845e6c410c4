import Mac3am.MainQueueOrderProofs
import Mac3am.PlayerAccountProofs

/-! # From a press to the model

    A press that finds a camera connection starts a capture; a capture is
    delivered once, from another thread; a delivered image may hold faces; and
    each face waits in the main queue for its call of the model.  In between
    anything else can happen.

    * `appStep_captures`, `appStep_delivered` — what an event adds to each of
      the counts;
    * `presses_call_model` — over a run, the calls made and those that wait are
      the faces of the images delivered, one for one and in order, and no image
      is delivered that no press has asked for. -/

namespace Mac3amApp

open Swift TrapRun Mac3amStore Mac3amPanel Mac3amLandmarks

section Counts

variable {K : Type}

/-- The event is a press with a camera connection. -/
def AppEvent.connects : AppEvent K → Bool
  | .handler e _ => e.connects
  | _ => false

/-- The event of the pipeline is a capture, and no block. -/
def isCapture : CaptureEvent K → Bool
  | .capture _ _ => true
  | .runBlock _ _ _ => false

theorem detectFace_delivered (faces landmarks : Option (List (VNFaceObservation K))) (a : App K) :
    (a.detectFace faces landmarks).delivered = a.delivered ∧
      (a.detectFace faces landmarks).panel = a.panel := by
  cases faces with
  | none => exact ⟨rfl, rfl⟩
  | some results =>
      rw [App.detectFace]
      cases results.isEmpty with
      | true => exact ⟨rfl, rfl⟩
      | false => exact ⟨rfl, rfl⟩

/-- An event of the panel connects where the event of the application does. -/
theorem panelEvent_connects {a : App K} {e : AppEvent K} :
    ((panelEvent a e).map Event.connects).getD false = e.connects := by
  cases e with
  | handler e direct => rfl
  | progressWakes => rfl
  | captureCompletes r => rfl
  | runMain viewSize array prediction =>
      rw [panelEvent]
      split
      · rfl
      · rfl

theorem length_submitted (faces landmarks : Option (List (VNFaceObservation K))) :
    (submitted (.capture faces landmarks)).length ≤ (landmarks.getD []).length := by
  cases faces with
  | none => exact Nat.zero_le _
  | some faces =>
      cases landmarks with
      | none => exact Nat.zero_le _
      | some landmarks =>
          rw [submitted]
          split
          · exact Nat.zero_le _
          · exact Nat.le_refl _

/-- What the captures of a run submit, where none submits more than `n`. -/
theorem length_submitted_le {n : Nat} {l : List (CaptureEvent K)}
    (h : ∀ k ∈ l, (submitted k).length ≤ n) :
    (l.flatMap submitted).length ≤ n * l.countP isCapture := by
  induction l with
  | nil => exact Nat.zero_le _
  | cons k l ih =>
      have hrest := ih fun k' hk' => h k' (List.mem_cons_of_mem _ hk')
      have hfirst : (submitted k).length ≤ n * if isCapture k then 1 else 0 := by
        cases k with
        | capture faces landmarks =>
            show _ ≤ n * 1
            rw [Nat.mul_one]
            exact h _ List.mem_cons_self
        | runBlock viewSize array prediction => exact Nat.zero_le _
      rw [List.flatMap_cons, List.length_append, List.countP_cons, Nat.mul_add]
      omega

/-- An arriving image submits no more than the faces it holds. -/
theorem captureEvent_submitted_le {a : App K} {e : AppEvent K} {k : CaptureEvent K} {n : Nat}
    (h : ∀ r, e = .captureCompletes r → (r.landmarks.getD []).length ≤ n)
    (hk : captureEvent a e = some k) : (submitted k).length ≤ n := by
  cases e with
  | handler e direct => cases hk
  | progressWakes => cases hk
  | captureCompletes r =>
      rw [captureEvent] at hk
      split at hk
      · cases hk
        exact (length_submitted r.faces r.landmarks).trans (h r rfl)
      · cases hk
  | runMain viewSize array prediction =>
      rw [captureEvent] at hk
      split at hk
      · cases hk
        exact Nat.zero_le n
      · cases hk

end Counts

section Accounts

variable {K : Type} [Add K] [Sub K] [Mul K] [Div K] [OfNat K 2] [Magnitude K]
  {env : Environment} {io : Printing K} {a a' : App K} {e : AppEvent K}

/-- Captures are started by presses with a connection, and by nothing else. -/
theorem appStep_captures (hstep : appStep env io a e = .ok a') :
    a'.panel.captures = a.panel.captures + if e.connects then 1 else 0 := by
  have hacts := hosts_panel env io a e
  rw [← panelEvent_connects (a := a)]
  show a'.asPanel.captures = a.asPanel.captures + _
  cases hk : panelEvent a e with
  | none =>
      rw [hk] at hacts
      rw [hacts a' hstep]
      rfl
  | some k =>
      rw [hk, hstep] at hacts
      exact step_captures (show step env a.asPanel k = .ok a'.asPanel from hacts)

/-- No block delivers an image. -/
theorem runBlock_delivered {viewSize : CGSize K} {array prediction : Bool} {block : MainBlock K}
    (h : runBlock io viewSize array prediction a block = .ok a') :
    a'.delivered = a.delivered := by
  rcases runBlock_cases h with ⟨-, p, -, rfl⟩ | ⟨observation, p, -, -, rfl⟩ | ⟨-, rfl⟩
  · rfl
  · rfl
  · rfl

/-- A delivery is one of the captures started; of the pipeline's captures each
    is one of the deliveries. -/
theorem appStep_delivered (h : a.delivered ≤ a.panel.captures)
    (hstep : appStep env io a e = .ok a') :
    a.delivered + (((captureEvent a e).toList).countP isCapture) ≤ a'.delivered ∧
      a'.delivered ≤ a'.panel.captures := by
  have hmono : a.panel.captures ≤ a'.panel.captures := by
    rw [appStep_captures hstep]
    exact Nat.le_add_right _ _
  -- apart from a delivery, nothing changes
  have hsame : ((captureEvent a e).toList).countP isCapture = 0 → a'.delivered = a.delivered →
      a.delivered + (((captureEvent a e).toList).countP isCapture) ≤ a'.delivered ∧
        a'.delivered ≤ a'.panel.captures := by
    intro hnone hdelivered
    rw [hnone, hdelivered]
    exact ⟨Nat.le_refl _, h.trans hmono⟩
  rcases appStep_cases hstep with ⟨x, direct, p, rfl, -, rfl⟩ | ⟨rfl, ⟨-, rfl⟩ | ⟨-, rfl⟩⟩ |
      ⟨r, rfl, hdue, rfl⟩ | ⟨r, m, rfl, hdue, rfl, harrives⟩ |
      ⟨viewSize, array, prediction, rfl, ⟨hqueue, rfl⟩ | ⟨block, rest, hqueue, hrun⟩⟩
  · exact hsame rfl rfl
  · exact hsame rfl rfl
  · exact hsame rfl rfl
  · refine hsame ?_ rfl
    rw [captureEvent, if_neg fun hand => hdue hand.1]
    rfl
  · have hone : ((captureEvent a (.captureCompletes r)).toList).countP isCapture ≤ 1 :=
      List.countP_le_length.trans Option.length_toList_le
    have hnext : a'.delivered = a.delivered + 1 := by
      rcases harrives with ⟨-, rfl⟩ | ⟨-, rfl⟩
      · exact (detectFace_delivered r.faces r.landmarks _).1
      · rfl
    exact ⟨by omega, by omega⟩
  · refine hsame ?_ rfl
    rw [captureEvent, hqueue]
    rfl
  · refine hsame ?_ ((runBlock_delivered hrun).trans rfl)
    rw [captureEvent, hqueue]
    cases block with
    | landmarks observation => rfl
    | showProgress => rfl
    | clearShapes => rfl
    | draw => rfl

/-- **From a press to the model**: in every interleaving that returns, the calls
    made and the observations that wait are those of the images that arrived,
    one for one and in their order; no more images arrive than presses with a
    connection asked for; and where no image holds more than `n` faces, the
    model is called at most `n` times for each such press. -/
theorem presses_call_model (env : Environment) (io : Printing K) (contents : List String)
    (records : List Entity) {es : List (AppEvent K)} {a : App K}
    (h : run (appStep env io) (App.started contents records) es = .ok a) :
    a.called ++ observationsOf a.mainQueue
      = (observed (appStep env io) captureEvent (App.started contents records) es).flatMap
          submitted ∧
    (observed (appStep env io) captureEvent (App.started contents records) es).countP isCapture
      ≤ a.delivered ∧
    a.delivered ≤ es.countP AppEvent.connects ∧
    ∀ n, (∀ r, .captureCompletes r ∈ es → (r.landmarks.getD []).length ≤ n) →
      a.called.length ≤ n * es.countP AppEvent.connects := by
  have hpipeline := run_hosted (hosts_pipeline env io) h
  have honce := (run_inOrder ((run_ok_iff_direct io).mp hpipeline)).once
  let R : List (CaptureEvent K) → App K → Prop := fun seen m =>
    seen.countP isCapture ≤ m.delivered ∧ m.delivered ≤ m.panel.captures
  have hstart : R [] (App.started contents records) := ⟨Nat.le_refl 0, Nat.le_refl 0⟩
  have hstep : ∀ seen m e m', True → R seen m → appStep env io m e = .ok m' →
      R (seen ++ (captureEvent m e).toList) m' := by
    rintro seen m e m' - ⟨hseen, hdue⟩ hm
    obtain ⟨harrived, hdue'⟩ := appStep_delivered hdue hm
    refine ⟨?_, hdue'⟩
    rw [List.countP_append]
    exact (Nat.add_le_add_right hseen _).trans harrived
  have hcounts := run_observes (F := fun _ => True) hstep (fun _ _ => trivial) hstart h
  rw [List.nil_append] at hcounts
  have hdelivered : a.delivered ≤ es.countP AppEvent.connects :=
    hcounts.2.trans (Nat.le_of_eq
      ((run_count (fun _ _ _ hm => appStep_captures hm) h).trans (Nat.zero_add _)))
  refine ⟨honce, hcounts.1, hdelivered, fun n hn => ?_⟩
  have hsubmitted : ((observed (appStep env io) captureEvent (App.started contents records)
      es).flatMap submitted).length ≤ n * (observed (appStep env io) captureEvent
        (App.started contents records) es).countP isCapture := by
    refine length_submitted_le fun k hk => ?_
    obtain ⟨e, he, m, hm⟩ := mem_observed hk
    exact captureEvent_submitted_le (fun r hr => hn r (hr ▸ he)) hm
  calc a.called.length
      ≤ (a.called ++ observationsOf a.mainQueue).length := by
        rw [List.length_append]
        exact Nat.le_add_right _ _
    _ ≤ n * (observed (appStep env io) captureEvent (App.started contents records)
          es).countP isCapture := (congrArg List.length honce).trans_le hsubmitted
    _ ≤ n * es.countP AppEvent.connects :=
        Nat.mul_le_mul_left n (hcounts.1.trans hdelivered)

end Accounts

/-- One press, one image, one face: it waits for its call. -/
theorem presses_call_model_face_delivered :
    ∃ a, run (appStep (.plain fun _ _ => true) rationalPrinting) (App.started ["one", "two"] [])
        faceDelivered = .ok a ∧
      a.delivered ≤ 1 ∧ a.called.length ≤ 1 ∧ observationsOf a.mainQueue ≠ [] := by
  obtain ⟨a, ha⟩ : ∃ a, run (appStep (.plain fun _ _ => true) rationalPrinting)
      (App.started ["one", "two"] []) faceDelivered = .ok a := ⟨_, rfl⟩
  obtain ⟨-, -, hdelivered, hcalls⟩ :=
    presses_call_model (.plain fun _ _ => true) rationalPrinting ["one", "two"] [] ha
  refine ⟨a, ha, hdelivered, hcalls 1 ?_, ?_⟩
  · intro r hr
    rcases List.mem_pair.mp hr with h | h
    · cases h
    · cases h
      exact Nat.le_refl 1
  · cases ha
    exact List.cons_ne_nil _ _

end Mac3amApp
