import Mac3am.BlockSafetyProofs

/-! # The pipeline without its text

    A block writes its landmarks into a text that all blocks share, and reads
    the text back.  `directStep` is the pipeline one would write instead: each
    block computes its numbers from its own observation.

    * `text_unobservable` — the two pipelines cannot be told apart, not even by
      how they trap;
    * `observations_called_once` — every observation that is put into the main
      queue reaches the model once, in order, or still waits; the face it is
      placed by is the one that the last capture found first;
    * `own_capture_iff_guarded` — when that is a face of its own capture. -/

namespace Mac3amLandmarks

open Swift TrapRun

section Captures

variable {K : Type}

/-- The observations a capture puts into the main queue. -/
def submitted : CaptureEvent K → List (VNFaceObservation K)
  | .capture (some faces) (some landmarks) => if faces.isEmpty then [] else landmarks
  | _ => []

/-- The face a capture finds first. -/
def foundFace : CaptureEvent K → Option (VNFaceObservation K)
  | .capture (some faces) _ => faces.head?
  | _ => none

/-- What submits anything has found a face. -/
theorem foundFace_of_submitted {e : CaptureEvent K} (h : submitted e ≠ []) :
    foundFace e ≠ none := by
  match e with
  | .runBlock _ _ _ => exact absurd rfl h
  | .capture none _ => exact absurd rfl h
  | .capture (some []) none => exact absurd rfl h
  | .capture (some []) (some _) => exact absurd rfl h
  | .capture (some (face :: _)) _ => exact Option.some_ne_none face

/-- A capture appends what it submits, and its first face replaces the one
    stored before. -/
theorem detectFace_spec (faces landmarks : Option (List (VNFaceObservation K)))
    (s : Pipeline K) :
    (detectFace faces landmarks s).mainQueue
        = s.mainQueue ++ submitted (.capture faces landmarks) ∧
      (detectFace faces landmarks s).firstFace
        = (foundFace (.capture faces landmarks)).or s.firstFace := by
  cases faces with
  | none => exact ⟨(List.append_nil _).symm, rfl⟩
  | some faces =>
      cases faces with
      | nil =>
          cases landmarks with
          | none => exact ⟨(List.append_nil _).symm, rfl⟩
          | some landmarks => exact ⟨(List.append_nil _).symm, rfl⟩
      | cons face faces =>
          cases landmarks with
          | none => exact ⟨(List.append_nil _).symm, rfl⟩
          | some landmarks => exact ⟨rfl, rfl⟩

/-- What holds after the observations `seen` were submitted, the last capture
    that found a face having found `latest` first: every observation was called
    with or waits, in order, and one that waits finds a face. -/
structure InOrder (seen : List (VNFaceObservation K)) (latest : Option (VNFaceObservation K))
    (s : Pipeline K) : Prop where
  once : s.modelCalls.map (·.observation) ++ s.mainQueue = seen
  face : s.firstFace = latest
  finds : s.mainQueue ≠ [] → s.firstFace ≠ none

end Captures

section Direct

variable {K : Type} [Add K] [Sub K] [Mul K] [Div K] [OfNat K 2] [Magnitude K]

/-- The numbers of a face in a box, where all its regions are there. -/
def directInput (observation : VNFaceObservation K) (faceBoundingBox : CGRect K) :
    Option (EmotionInput K) :=
  if Complete observation then referenceInput (place faceBoundingBox) observation else none

/-- The block of an observation, without a text. -/
def directBlock (observation : VNFaceObservation K) (viewSize : CGSize K)
    (array prediction : Bool) (s : Pipeline K) : Outcome Trap (Pipeline K) :=
  match s.firstFace with
  | none => .ok s
  | some face =>
      match directInput observation (face.boundingBox.scaled viewSize) with
      | none => .trap .indexOutOfRange s
      | some input1 =>
          if array then
            let s := s.called { observation, face, viewSize, input1 }
            if prediction then .ok s else .trap .fatalError s
          else .trap .unwrappedNil s

def directStep (s : Pipeline K) : CaptureEvent K → Outcome Trap (Pipeline K)
  | .capture faces landmarks => .ok (detectFace faces landmarks s)
  | .runBlock viewSize array prediction =>
      match s.mainQueue with
      | [] => .ok s
      | observation :: rest =>
          directBlock observation viewSize array prediction { s with mainQueue := rest }

variable {s : Pipeline K} {observation face : VNFaceObservation K} {viewSize : CGSize K}

theorem directInput_eq_some {faceBoundingBox : CGRect K} {input1 : EmotionInput K} :
    directInput observation faceBoundingBox = some input1 ↔
      Complete observation ∧
        referenceInput (place faceBoundingBox) observation = some input1 := by
  rw [directInput]
  by_cases hcomplete : Complete observation
  · rw [if_pos hcomplete]
    exact ⟨fun h => ⟨hcomplete, h⟩, And.right⟩
  · rw [if_neg hcomplete]
    exact ⟨fun h => (nomatch h), fun h => absurd h.1 hcomplete⟩

theorem directInput_eq_none {faceBoundingBox : CGRect K} :
    directInput observation faceBoundingBox = none ↔
      ¬ (Complete observation ∧ EnoughPoints observation) := by
  rw [Option.eq_none_iff_forall_not_mem]
  constructor
  · rintro hnone ⟨hcomplete, henough⟩
    obtain ⟨input1, hinput⟩ := Option.isSome_iff_exists.mp
      ((referenceInput_isSome_iff (place faceBoundingBox) observation).mpr henough)
    exact hnone input1 (directInput_eq_some.mpr ⟨hcomplete, hinput⟩)
  · intro hlacks input1 hinput
    obtain ⟨hcomplete, hinput⟩ := directInput_eq_some.mp hinput
    exact hlacks ⟨hcomplete, (referenceInput_isSome_iff _ observation).mp
      (Option.isSome_iff_exists.mpr ⟨input1, hinput⟩)⟩

/-- The text a pipeline holds on to does not show in the rest of it. -/
def SameButText (s s' : Pipeline K) : Prop := { s with csvText := s'.csvText } = s'

/-- **Writing and reading back is the identity**: the decoder finds in a block's
    text the numbers of its observation, or the trap of their absence. -/
theorem emotionInput_direct (io : Printing K) (faceBoundingBox : CGRect K)
    (observation : VNFaceObservation K) :
    emotionInput io ((csvLines io faceBoundingBox observation).flatMap fun line => line ++ ['\n'])
      = inRange (directInput observation faceBoundingBox) := by
  rw [directInput]
  by_cases hcomplete : Complete observation
  · rw [if_pos hcomplete]
    exact emotionInput_complete io faceBoundingBox hcomplete
  · rw [if_neg hcomplete]
    exact emotionInput_incomplete io faceBoundingBox hcomplete

/-- On an empty text a block does what the direct block does; where both trap,
    the text is left over. -/
theorem landmarksBlock_direct (io : Printing K) (observation : VNFaceObservation K)
    (viewSize : CGSize K) (array prediction : Bool) (hcsv : s.csvText = some []) :
    (landmarksBlock io observation viewSize array prediction s).Agree
      (fun s s' => s = s' ∧ s.csvText = some []) SameButText
      (directBlock observation viewSize array prediction s) := by
  cases hface : s.firstFace with
  | none =>
      rw [landmarksBlock, directBlock, hface]
      exact ⟨rfl, hcsv⟩
  | some face =>
      rw [directBlock, hface, landmarksBlock_eq hcsv hface, calculateEmotion,
        emotionInput_direct]
      obtain ⟨inputFaceObservations, mainQueue, csvText, modelCalls⟩ := s
      cases hcsv
      dsimp only
      cases directInput observation (face.boundingBox.scaled viewSize) with
      | none => exact ⟨rfl, rfl⟩
      | some input1 =>
          cases array with
          | false => exact ⟨rfl, rfl⟩
          | true =>
              cases prediction with
              | true => exact ⟨rfl, rfl⟩
              | false => exact ⟨rfl, rfl⟩

theorem captureStep_direct (io : Printing K) (e : CaptureEvent K) (hcsv : s.csvText = some []) :
    (captureStep io s e).Agree (fun s s' => s = s' ∧ s.csvText = some []) SameButText
      (directStep s e) := by
  cases e with
  | capture faces landmarks =>
      exact ⟨rfl, (detectFace_keeps faces landmarks s).1.trans hcsv⟩
  | runBlock viewSize array prediction =>
      rw [captureStep, directStep]
      cases s.mainQueue with
      | nil => exact ⟨rfl, hcsv⟩
      | cons observation rest =>
          exact landmarksBlock_direct io observation viewSize array prediction hcsv

/-- A run of captures and blocks and the direct one agree: both return, in the
    same state with an empty text, or both trap in the same way, in states that
    differ in the left-over text alone. -/
theorem run_direct (io : Printing K) (es : List (CaptureEvent K)) :
    (run (captureStep io) .started es).Agree (fun s s' => s = s' ∧ s.csvText = some [])
      SameButText (run directStep .started es) := by
  refine run_agrees ?_ ⟨rfl, rfl⟩
  rintro s _ e ⟨rfl, hcsv⟩
  exact captureStep_direct io e hcsv

/-- The runs that return are those of the direct pipeline. -/
theorem run_ok_iff_direct (io : Printing K) {es : List (CaptureEvent K)} {s : Pipeline K} :
    run (captureStep io) .started es = .ok s ↔ run directStep .started es = .ok s := by
  have hagree := run_direct io es
  cases hrun : run (captureStep io) .started es with
  | ok m =>
      cases hdirect : run directStep (.started : Pipeline K) es with
      | ok m' =>
          rw [hrun, hdirect] at hagree
          rw [hagree.1]
      | trap t m' =>
          rw [hrun, hdirect] at hagree
          exact hagree.elim
  | trap t m =>
      cases hdirect : run directStep (.started : Pipeline K) es with
      | ok m' =>
          rw [hrun, hdirect] at hagree
          exact hagree.elim
      | trap t' m' => exact ⟨fun h => (nomatch h), fun h => (nomatch h)⟩

/-- **The text cannot be observed**: in every run of captures and blocks, the
    pipeline returns exactly in the states the one without a text returns in,
    and always with an empty text; where it traps the other traps in the same
    way, in a state that differs in the left-over text alone. -/
theorem text_unobservable (io : Printing K) (es : List (CaptureEvent K)) :
    (∀ s, run (captureStep io) .started es = .ok s ↔ run directStep .started es = .ok s) ∧
    (∀ s, run (captureStep io) .started es = .ok s → s.csvText = some []) ∧
    ∀ t s, run (captureStep io) .started es = .trap t s →
      ∃ s', run directStep .started es = .trap t s' ∧ SameButText s s' := by
  have hagree := run_direct io es
  refine ⟨fun s => run_ok_iff_direct io, ?_, ?_⟩
  · intro s hrun
    rw [hrun, (run_ok_iff_direct io).mp hrun] at hagree
    exact hagree.2
  · intro t s hrun
    cases hdirect : run directStep (.started : Pipeline K) es with
    | ok s' =>
        rw [hrun, hdirect] at hagree
        exact hagree.elim
    | trap t' s' =>
        rw [hrun, hdirect] at hagree
        exact ⟨s', congrArg (Outcome.trap · s') hagree.1.symm, hagree.2⟩

omit [Add K] [Sub K] [Mul K] [Div K] [OfNat K 2] [Magnitude K] in
/-- Outcomes that agree but for the text have made the same calls. -/
theorem modelCalls_of_agree {o o' : Outcome Trap (Pipeline K)}
    (h : o.Agree (fun s s' => s = s' ∧ s.csvText = some []) SameButText o') :
    o.state.modelCalls = o'.state.modelCalls := by
  cases o with
  | ok s =>
      cases o' with
      | ok s' => rw [show s = s' from h.1]
      | trap t' s' => exact h.elim
  | trap t s =>
      cases o' with
      | ok s' => exact h.elim
      | trap t' s' =>
          have hsame : ({ s with csvText := s'.csvText } : Pipeline K) = s' := h.2
          have hcalls := congrArg Pipeline.modelCalls hsame
          exact hcalls

/-! ## Once, and in order -/

/-- **Everything an event can do to the direct pipeline**: a capture keeps the
    order; a block calls the model with the first observation that waits and
    the latest face, or traps without a call, or has no observation to run on. -/
theorem directStep_cases {seen : List (VNFaceObservation K)}
    {latest : Option (VNFaceObservation K)} (h : InOrder seen latest s) (e : CaptureEvent K) :
    (∃ s', directStep s e = .ok s' ∧ s'.modelCalls = s.modelCalls ∧
      InOrder (seen ++ submitted e) ((foundFace e).or latest) s') ∨
    (∃ call rest, submitted e = [] ∧ foundFace e = none ∧
      s.mainQueue = call.observation :: rest ∧ latest = some call.face ∧
      ((directStep s e = .ok { s.called call with mainQueue := rest } ∧
          InOrder seen latest { s.called call with mainQueue := rest }) ∨
        ∃ t m, directStep s e = .trap t m ∧ m.modelCalls = s.modelCalls ++ [call])) ∨
    (foundFace e = none ∧ ∃ t m, directStep s e = .trap t m ∧ m.modelCalls = s.modelCalls) := by
  cases e with
  | capture faces landmarks =>
      obtain ⟨hqueue, hface⟩ := detectFace_spec faces landmarks s
      have hcalls := (detectFace_keeps faces landmarks s).2
      refine Or.inl ⟨_, rfl, hcalls, ?_, ?_, ?_⟩
      · rw [hcalls, hqueue, ← List.append_assoc, h.once]
      · rw [hface, h.face]
      · rw [hqueue, hface]
        intro hwaits hnone
        rw [Option.or_eq_none_iff] at hnone
        by_cases hsub : submitted (.capture faces landmarks) = []
        · rw [hsub, List.append_nil] at hwaits
          exact h.finds hwaits hnone.2
        · exact foundFace_of_submitted hsub hnone.1
  | runBlock viewSize array prediction =>
      cases hqueue : s.mainQueue with
      | nil =>
          refine Or.inl ⟨s, by rw [directStep, hqueue], rfl, ?_⟩
          show InOrder (seen ++ []) (none.or latest) s
          rw [List.append_nil, Option.none_or]
          exact h
      | cons observation rest =>
          obtain ⟨face, hface⟩ := Option.ne_none_iff_exists'.mp
            (h.finds (by rw [hqueue]; exact List.cons_ne_nil _ _))
          have hstep : directStep s (.runBlock viewSize array prediction)
              = directBlock observation viewSize array prediction { s with mainQueue := rest } := by
            rw [directStep, hqueue]
          rw [hstep, directBlock,
            show ({ s with mainQueue := rest } : Pipeline K).firstFace = some face from hface]
          dsimp only
          cases directInput observation (face.boundingBox.scaled viewSize) with
          | none => exact Or.inr (Or.inr ⟨rfl, _, _, rfl, rfl⟩)
          | some input1 =>
              cases array with
              | false => exact Or.inr (Or.inr ⟨rfl, _, _, rfl, rfl⟩)
              | true =>
                  refine Or.inr (Or.inl ⟨⟨observation, face, viewSize, input1⟩, rest, rfl, rfl,
                    rfl, h.face.symm.trans hface, ?_⟩)
                  cases prediction with
                  | false => exact Or.inr ⟨_, _, rfl, rfl⟩
                  | true =>
                      refine Or.inl ⟨rfl, ?_, h.face, fun _ => ?_⟩
                      · show (s.modelCalls ++ [_]).map _ ++ rest = seen
                        rw [List.map_append, List.append_assoc, ← h.once, hqueue]
                        rfl
                      · show s.firstFace ≠ none
                        rw [hface]
                        exact Option.some_ne_none face

/-- An observation that waits finds a face after every event. -/
theorem directStep_finds {s' : Pipeline K} {e : CaptureEvent K}
    (h : s.mainQueue ≠ [] → s.firstFace ≠ none) (hstep : directStep s e = .ok s') :
    s'.mainQueue ≠ [] → s'.firstFace ≠ none := by
  rcases directStep_cases ⟨rfl, rfl, h⟩ e with ⟨m, hm, -, hnext⟩ |
      ⟨call, rest, -, -, -, -, ⟨hm, hnext⟩ | ⟨t, m, hm, -⟩⟩ | ⟨-, t, m, hm, -⟩
  · cases hstep.symm.trans hm
    exact hnext.finds
  · cases hstep.symm.trans hm
    exact hnext.finds
  · cases hstep.symm.trans hm
  · cases hstep.symm.trans hm

/-- The face the last capture of a run that found one found first. -/
def latestFace (es : List (CaptureEvent K)) : Option (VNFaceObservation K) :=
  es.reverse.findSome? foundFace

omit [Add K] [Sub K] [Mul K] [Div K] [OfNat K 2] [Magnitude K] in
/-- What a run submits and finds, event by event. -/
theorem foldl_submitted (es : List (CaptureEvent K)) (seen : List (VNFaceObservation K))
    (latest : Option (VNFaceObservation K)) :
    es.foldl (fun a e => (a.1 ++ submitted e, (foundFace e).or a.2)) (seen, latest)
      = (seen ++ es.flatMap submitted, (latestFace es).or latest) := by
  induction es generalizing seen latest with
  | nil => exact congrArg (·, latest) (List.append_nil seen).symm
  | cons e es ih =>
      have hlatest : latestFace (e :: es) = (latestFace es).or (foundFace e) := by
        rw [latestFace, List.reverse_cons, List.findSome?_append, List.findSome?_singleton]
        rfl
      rw [List.foldl_cons, ih, List.flatMap_cons, List.append_assoc, hlatest, Option.or_assoc]

theorem run_inOrder {es : List (CaptureEvent K)} {s : Pipeline K}
    (hrun : run directStep .started es = .ok s) :
    InOrder (es.flatMap submitted) (latestFace es) s := by
  have hstart : InOrder [] none (.started : Pipeline K) := ⟨rfl, rfl, fun h => absurd rfl h⟩
  have hsim := run_simulates
    (R := fun (a : List (VNFaceObservation K) × Option (VNFaceObservation K)) s =>
      InOrder a.1 a.2 s)
    (g := fun a e => (a.1 ++ submitted e, (foundFace e).or a.2)) ?_ (a := ([], none)) hstart hrun
  · rw [foldl_submitted, List.nil_append, Option.or_none] at hsim
    exact hsim
  · intro a s e s' h hstep
    rcases directStep_cases h e with ⟨m, hm, -, hnext⟩ |
        ⟨call, rest, hsub, hfound, -, -, ⟨hm, hnext⟩ | ⟨t, m, hm, -⟩⟩ | ⟨-, t, m, hm, -⟩
    · cases hstep.symm.trans hm
      exact hnext
    · cases hstep.symm.trans hm
      rw [hsub, hfound, List.append_nil, Option.none_or]
      exact hnext
    · cases hstep.symm.trans hm
    · cases hstep.symm.trans hm

/-- The calls a run of the direct pipeline has made when it ends or traps. -/
theorem run_direct_prefix (es : List (CaptureEvent K)) :
    (run directStep (.started : Pipeline K) es).state.modelCalls.map (·.observation)
      <+: es.flatMap submitted := by
  cases hrun : run directStep (.started : Pipeline K) es with
  | ok s =>
      rw [← (run_inOrder hrun).once]
      exact List.prefix_append _ _
  | trap t s =>
      obtain ⟨pre, e, post, m, rfl, hpre, hstep⟩ := run_trap_split hrun
      have h := run_inOrder hpre
      rw [Outcome.state_trap, List.flatMap_append]
      refine List.IsPrefix.trans ?_ (List.prefix_append _ _)
      rw [← h.once]
      rcases directStep_cases h e with ⟨m', hm', -⟩ |
          ⟨call, rest, -, -, hqueue, -, ⟨hm', -⟩ | ⟨t', m', hm', hcalls⟩⟩ | ⟨-, t', m', hm', hcalls⟩
      · cases hstep.symm.trans hm'
      · cases hstep.symm.trans hm'
      · -- the call of the block that trapped is the next one in order
        cases hstep.symm.trans hm'
        rw [hcalls, hqueue, List.map_append, List.append_cons]
        exact List.prefix_append _ _
      · cases hstep.symm.trans hm'
        rw [hcalls]
        exact List.prefix_append _ _

/-- **Every observation once, in order, with the latest face**: in a run that
    returns, the observations of the calls and then those that wait are the
    ones the captures submitted; a run that traps has called with a first part
    of them; and every call reads the face that the last capture before it
    found first. -/
theorem observations_called_once (io : Printing K) (es : List (CaptureEvent K)) :
    (∀ s, run (captureStep io) .started es = .ok s →
      s.modelCalls.map (·.observation) ++ s.mainQueue = es.flatMap submitted) ∧
    (run (captureStep io) .started es).state.modelCalls.map (·.observation)
      <+: es.flatMap submitted ∧
    ∀ s e call, run (captureStep io) .started es = .ok s →
      (captureStep io s e).state.modelCalls = s.modelCalls ++ [call] →
      latestFace es = some call.face := by
  refine ⟨fun s hrun => (run_inOrder ((run_ok_iff_direct io).mp hrun)).once, ?_, ?_⟩
  · rw [modelCalls_of_agree (run_direct io es)]
    exact run_direct_prefix es
  · intro s e call hrun hcall
    have hdirect := (run_ok_iff_direct io).mp hrun
    have h := run_inOrder hdirect
    have hcsv : s.csvText = some [] := by
      have hagree := run_direct io es
      rw [hrun, hdirect] at hagree
      exact hagree.2
    rw [modelCalls_of_agree (captureStep_direct io e hcsv)] at hcall
    have hmore : s.modelCalls ++ [call] ≠ s.modelCalls := by simp
    rcases directStep_cases h e with ⟨m, hm, hcalls, -⟩ |
        ⟨call', rest, -, -, -, hface, ⟨hm, -⟩ | ⟨t, m, hm, hcalls⟩⟩ | ⟨-, t, m, hm, hcalls⟩
    · rw [hm] at hcall
      exact absurd (hcall.symm.trans hcalls) hmore
    · rw [hm] at hcall
      have heq : s.modelCalls ++ [call'] = s.modelCalls ++ [call] := hcall
      rw [hface, List.singleton_inj.mp (List.append_cancel_left heq)]
    · rw [hm] at hcall
      rw [hface, List.singleton_inj.mp (List.append_cancel_left (hcalls.symm.trans hcall))]
    · rw [hm] at hcall
      exact absurd (hcall.symm.trans hcalls) hmore

/-! ## The face of its own capture -/

/-- The observations a capture submits, with the face it found first. -/
def sourced : CaptureEvent K → List (VNFaceObservation K × VNFaceObservation K)
  | .capture (some (face :: _)) (some landmarks) => landmarks.map fun o => (o, face)
  | _ => []

/-- The observations called with, each with the face whose box was read; and
    those that wait, each with the face its block would read now. -/
def Pipeline.analysed (s : Pipeline K) : List (VNFaceObservation K × VNFaceObservation K) :=
  s.modelCalls.map (fun call => (call.observation, call.face)) ++
    s.mainQueue.filterMap fun o => s.firstFace.map fun face => (o, face)

/-- A capture that finds a face completes while no block waits, or it finds the
    face that is stored first. -/
def KeepsFace (s : Pipeline K) (e : CaptureEvent K) : Prop :=
  ∀ face, foundFace e = some face → s.mainQueue = [] ∨ s.firstFace = some face

omit [Add K] [Sub K] [Mul K] [Div K] [OfNat K 2] [Magnitude K] in
/-- What a capture submits stands for its first face, if it found one. -/
theorem sourced_eq (e : CaptureEvent K) :
    sourced e = (submitted e).filterMap fun o => (foundFace e).map fun face => (o, face) := by
  match e with
  | .runBlock _ _ _ => rfl
  | .capture none _ => rfl
  | .capture (some []) none => rfl
  | .capture (some []) (some _) => rfl
  | .capture (some (_ :: _)) none => rfl
  | .capture (some (face :: _)) (some landmarks) =>
      exact (congrFun List.filterMap_eq_map' landmarks).symm

theorem directStep_analysed_iff {seen : List (VNFaceObservation K × VNFaceObservation K)}
    (hfinds : s.mainQueue ≠ [] → s.firstFace ≠ none) (hseen : s.analysed = seen)
    (e : CaptureEvent K) :
    KeepsFace s e ↔ ∀ s', directStep s e = .ok s' → s'.analysed = seen ++ sourced e := by
  have hnothing : foundFace e = none → KeepsFace s e := by
    intro hfound face hface
    cases hfound.symm.trans hface
  rcases directStep_cases ⟨rfl, rfl, hfinds⟩ e with ⟨m, hm, hcalls, honce, hface, -⟩ |
      ⟨call, rest, hsub, hfound, hqueue, hface, ⟨hm, -⟩ | ⟨t, m, hm, -⟩⟩ | ⟨hfound, t, m, hm, -⟩
  · have hqueue : m.mainQueue = s.mainQueue ++ submitted e := by
      rw [hcalls, List.append_assoc] at honce
      exact List.append_cancel_left honce
    have hstep : (∀ s', directStep s e = .ok s' → s'.analysed = seen ++ sourced e) ↔
        m.analysed = seen ++ sourced e := by
      rw [hm]
      exact ⟨fun h => h m rfl, fun h s' hs' => Outcome.ok.inj hs' ▸ h⟩
    rw [hstep, ← hseen, sourced_eq, Pipeline.analysed, Pipeline.analysed, hcalls, hqueue, hface,
      List.filterMap_append, List.append_assoc, List.append_cancel_left_eq]
    cases hfound : foundFace e with
    | none =>
        have hsub : submitted e = [] := by
          by_contra hne
          exact foundFace_of_submitted hne hfound
        rw [hsub]
        exact iff_of_true (hnothing hfound) rfl
    | some face =>
        -- a new first face is read for the observations that wait already
        rw [Option.some_or, List.append_cancel_right_eq, KeepsFace, hfound]
        cases hwaits : s.mainQueue with
        | nil => exact iff_of_true (fun _ _ => Or.inl rfl) rfl
        | cons o rest =>
            obtain ⟨stored, hstored⟩ := Option.ne_none_iff_exists'.mp
              (hfinds (by rw [hwaits]; exact List.cons_ne_nil _ _))
            rw [hstored]
            constructor
            · intro h
              rcases h face rfl with hnil | hsame
              · cases hnil
              · rw [Option.some.inj hsame]
            · intro h face' hface'
              cases hface'
              have hhead := congrArg List.head? h
              cases hhead
              exact Or.inr rfl
  · -- the block's pair moves from those that wait to those that were called
    refine iff_of_true (hnothing hfound) ?_
    intro s' hs'
    cases hm.symm.trans hs'
    rw [sourced_eq, hsub, List.filterMap_nil, List.append_nil, ← hseen]
    show (s.modelCalls ++ [call]).map _ ++ rest.filterMap (fun o => s.firstFace.map _) = _
    rw [Pipeline.analysed, hqueue, hface, List.map_append, List.append_assoc]
    rfl
  · exact iff_of_true (hnothing hfound) fun s' hs' => nomatch hm.symm.trans hs'
  · exact iff_of_true (hnothing hfound) fun s' hs' => nomatch hm.symm.trans hs'

/-- **Each observation in a box of its own capture**: at every moment of a run
    all observations were analysed, or would be now, with the first face of
    their own capture exactly when every capture that finds a face completes
    with no block waiting, or finds the face that is stored first. -/
theorem own_capture_iff_guarded (io : Printing K) (es : List (CaptureEvent K)) :
    (∀ pre post m, es = pre ++ post → run (captureStep io) .started pre = .ok m →
        m.analysed = pre.flatMap sourced) ↔
      Guarded (captureStep io) KeepsFace .started es := by
  have hguarded : Guarded (captureStep io) KeepsFace .started es ↔
      Guarded directStep KeepsFace .started es := by
    rw [guarded_iff_split, guarded_iff_split]
    exact forall₄_congr fun pre e post m => by rw [run_ok_iff_direct]
  have hhistory : ∀ pre : List (CaptureEvent K),
      pre.foldl (fun seen e => seen ++ sourced e) [] = pre.flatMap sourced :=
    fun pre => List.flatMap_eq_foldl.symm
  rw [hguarded, ← history_iff_guarded
    (Q := fun seen (s : Pipeline K) => s.analysed = seen) (g := fun seen e => seen ++ sourced e)
    (a := []) (fun _ _ _ h hstep => directStep_finds h hstep)
    (fun seen s e h hseen => directStep_analysed_iff h hseen e)
    (fun h => absurd rfl h) rfl]
  exact forall₄_congr fun pre post m _ => by rw [run_ok_iff_direct, hhistory]

end Direct

end Mac3amLandmarks
