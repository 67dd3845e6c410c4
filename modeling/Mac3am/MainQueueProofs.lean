import Mac3am.CaptureOrderProofs
import Mac3am.NavigationProofs

/-! # One main queue

    The music panel and the camera pipeline live in one controller and share
    its main queue: the progress loop and the captures post their blocks into
    it from other threads, and it runs them one at a time, in order, between
    the handlers.

    * `step_waiting`, `landmarksBlock_waiting` — no handler and no block looks at
      what waits;
    * `app_refines` — so a run of the whole is a run of the panel and a run of
      the pipeline, each on the events that are its own, and it ends in a trap
      only where one of them does, or a capture delivers no image. -/

namespace Mac3amApp

open Swift TrapRun KeyedTable Mac3amStore Mac3amPanel Mac3amLandmarks

/-! ## The application -/

/-- A block of the main queue. -/
inductive MainBlock (K : Type) where
  /-- of the progress loop -/
  | showProgress
  /-- of `detectLandmarks`, with the observation it has captured -/
  | landmarks (observation : VNFaceObservation K)
  /-- of `detectFace`: it clears the shapes of the last capture -/
  | clearShapes
  /-- of `convertPointsForFace`: its only statement is commented out -/
  | draw

/-- The state of the controller.  `postedTicks` of the panel and `mainQueue` of
    the pipeline are not used here: what waits is in the one queue. -/
structure App (K : Type) where
  panel : Panel
  pipeline : Pipeline K
  mainQueue : List (MainBlock K)
  /-- how many still images were delivered -/
  delivered : Nat

/-- What a still image capture delivers: whether each of the values that are
    needed is there, and the results of the two requests. -/
structure StillImage (K : Type) where
  imageDataSampleBuffer : Bool
  imageData : Bool
  myimage : Bool
  cgImage : Bool
  faces : Option (List (VNFaceObservation K))
  landmarks : Option (List (VNFaceObservation K))

/-- The image comes as far as `detectFace`. -/
def StillImage.Arrives {K : Type} (r : StillImage K) : Prop :=
  r.imageDataSampleBuffer = true ∧ r.imageData = true ∧ r.myimage = true ∧ r.cgImage = true

instance {K : Type} (r : StillImage K) : Decidable r.Arrives :=
  inferInstanceAs (Decidable (_ ∧ _ ∧ _ ∧ _))

/-- What the handler unwraps by force is there. -/
def StillImage.Unwraps {K : Type} (r : StillImage K) : Prop :=
  r.imageDataSampleBuffer = true ∧ r.imageData = true ∧ (r.myimage = true → r.cgImage = true)

/-- The event is a handler of the main thread, and no matter of the progress
    loop. -/
def Direct : Event → Prop
  | .progressWakes | .tick => False
  | _ => True

/-- What happens to the application. -/
inductive AppEvent (K : Type) where
  | handler (e : Event) (direct : Direct e)
  /-- the progress loop wakes up and posts its block -/
  | progressWakes
  /-- a still image capture calls its completion handler -/
  | captureCompletes (r : StillImage K)
  /-- the main queue runs its first block, with this size of the view, and with
      the array and the prediction coming about or not -/
  | runMain (viewSize : CGSize K) (array prediction : Bool)

section Steps

variable {K : Type}

def App.started (contents : List String) (records : List Entity) : App K where
  panel := viewDidLoad contents records
  pipeline := .started
  mainQueue := []
  delivered := 0

/-- `DispatchQueue.main.async` -/
def App.post (blocks : List (MainBlock K)) (a : App K) : App K :=
  { a with mainQueue := a.mainQueue ++ blocks }

/-- `detectFace(on:)` in the application, from its requests on. -/
def App.detectFace (faces landmarksResults : Option (List (VNFaceObservation K))) (a : App K) :
    App K :=
  match faces with
  | none => a
  | some results =>
      if results.isEmpty then a
      else
        let a := { a with
          pipeline := { a.pipeline with inputFaceObservations := some results } }
        let a := a.post ((landmarksResults.getD []).map .landmarks)
        a.post [.clearShapes]

/-- The completion handler of a still image capture. -/
def App.stillImage (r : StillImage K) (a : App K) : Outcome Trap (App K) :=
  if !r.imageDataSampleBuffer then .trap .unwrappedNil a
  else if !r.imageData then .trap .unwrappedNil a
  else if !r.myimage then .ok a
  else if !r.cgImage then .trap .unwrappedNil a
  else .ok (a.detectFace r.faces r.landmarks)

/-- The blocks that the nine conversions of a landmarks block post: one for each
    region that is there, if there is a face to place it in. -/
def drawBlocks (observation : VNFaceObservation K) (s : Pipeline K) : List (MainBlock K) :=
  match s.firstFace with
  | none => []
  | some _ => List.replicate (entries (regions observation)).length .draw

variable [Add K] [Sub K] [Mul K] [Div K] [OfNat K 2] [Magnitude K]

/-- The main queue runs a block. -/
def runBlock (io : Printing K) (viewSize : CGSize K) (array prediction : Bool) (a : App K) :
    MainBlock K → Outcome Trap (App K)
  | .showProgress => (showProgress a.panel).map fun p => { a with panel := p }
  | .landmarks observation =>
      (landmarksBlock io observation viewSize array prediction a.pipeline).map
        fun p => { a.post (drawBlocks observation a.pipeline) with pipeline := p }
  | .clearShapes => .ok a
  | .draw => .ok a

def appStep (env : Environment) (io : Printing K) (a : App K) :
    AppEvent K → Outcome Trap (App K)
  | .handler e _ => (step env a.panel e).map fun p => { a with panel := p }
  | .progressWakes =>
      if a.panel.progressBlocks = 0 then .ok a else .ok (a.post [.showProgress])
  | .captureCompletes r =>
      if a.delivered < a.panel.captures then
        App.stillImage r { a with delivered := a.delivered + 1 }
      else .ok a   -- no capture is under way
  | .runMain viewSize array prediction =>
      match a.mainQueue with
      | [] => .ok a
      | block :: rest => runBlock io viewSize array prediction { a with mainQueue := rest } block

end Steps

/-! ## Nothing looks at what waits -/

section Panels

variable {env : Environment} {s m : Panel} {e : Event} {url : URL}

/-- The panel, with this many progress blocks waiting. -/
def waitingTicks (ticks : Nat) (s : Panel) : Panel := { s with postedTicks := ticks }

variable {ticks : Nat}

theorem settled_waiting :
    settled env url (waitingTicks ticks m) = waitingTicks ticks (settled env url m) := by
  have hplain : ∀ m : Panel, plainLoad env url (waitingTicks ticks m)
      = waitingTicks ticks (plainLoad env url m) := by
    intro m
    show (if env.initSucceeds m.loads url = true then _ else _) = _
    rw [plainLoad]
    by_cases hinit : env.initSucceeds m.loads url = true
    · rw [if_pos hinit, if_pos hinit]
      rfl
    · rw [if_neg hinit, if_neg hinit]
      rfl
  show (if env.initSucceeds m.loads url = true ∧ m.selectedRow ≠ m.currentMusicIndex then _
    else _) = _
  rw [settled]
  by_cases hre : env.initSucceeds m.loads url = true ∧ m.selectedRow ≠ m.currentMusicIndex
  · rw [if_pos hre, if_pos hre]
    show (plainLoad env url (waitingTicks ticks (m.reentered env url))).finish env url = _
    rw [hplain]
    rfl
  · rw [if_neg hre, if_neg hre]
    exact hplain m

theorem loadCurrent_waiting :
    loadCurrent env (waitingTicks ticks m) = (loadCurrent env m).map (waitingTicks ticks) := by
  cases hurl : m.currentURL env with
  | none =>
      rw [loadCurrent_none hurl, loadCurrent_none (s := waitingTicks ticks m) hurl]
      rfl
  | some url =>
      rw [loadCurrent_eq hurl, loadCurrent_eq (s := waitingTicks ticks m) hurl, settled_waiting]
      rfl

theorem selection_waiting (row : Int) :
    tableViewSelectionDidChange env (loadPlayMusic env env.stack)
        { waitingTicks ticks s with selectedRow := row }
      = (tableViewSelectionDidChange env (loadPlayMusic env env.stack)
        { s with selectedRow := row }).map (waitingTicks ticks) := by
  cases hurl : (s.toSelection row).currentURL env with
  | none =>
      rw [tableViewSelectionDidChange_none (s := { s with selectedRow := row }) hurl,
        tableViewSelectionDidChange_none
          (s := { waitingTicks ticks s with selectedRow := row }) hurl]
      rfl
  | some url =>
      rw [tableViewSelectionDidChange_some (s := { s with selectedRow := row }) hurl,
        tableViewSelectionDidChange_some
          (s := { waitingTicks ticks s with selectedRow := row }) hurl]
      show loadPlayMusic env env.stack url (waitingTicks ticks (s.toSelection row))
        = (loadPlayMusic env env.stack url (s.toSelection row)).map (waitingTicks ticks)
      rw [loadPlayMusic_eq env.stack_holds hurl,
        loadPlayMusic_eq (s := waitingTicks ticks (s.toSelection row)) env.stack_holds hurl,
        settled_waiting]
      rfl

theorem playBtnTouched_waiting :
    playBtnTouched (waitingTicks ticks s) = waitingTicks ticks (playBtnTouched s) := by
  simp only [playBtnTouched, waitingTicks]
  split
  · rfl
  · split
    · rfl
    · split
      · rfl
      · rfl

/-- The progress block neither. -/
theorem showProgress_waiting :
    showProgress (waitingTicks ticks s) = (showProgress s).map (waitingTicks ticks) := by
  simp only [showProgress, waitingTicks]
  split
  · rfl
  · rfl

/-- No handler looks at how many progress blocks wait. -/
theorem step_waiting (hdirect : Direct e) :
    step env (waitingTicks ticks s) e = (step env s e).map (waitingTicks ticks) := by
  have hpress : ∀ press, skipBtnTouched env press (waitingTicks ticks s)
      = (skipBtnTouched env press s).map (waitingTicks ticks) := by
    intro press
    rw [skipBtnTouched_eq, skipBtnTouched_eq,
      show (waitingTicks ticks s).skipUpdate press = s.skipUpdate press from rfl]
    cases s.skipUpdate press with
    | ok c => exact loadCurrent_waiting (m := s.toNext press.connection c)
    | trap t c => rfl
  cases e with
  | selection row =>
      show (if -1 ≤ row ∧ row < s.musicList.length then _ else _) = _
      rw [step]
      by_cases hrow : -1 ≤ row ∧ row < s.musicList.length
      · rw [if_pos hrow, if_pos hrow, selectRow, selectRow]
        by_cases hsel : s.selectedRow = row
        · rw [if_pos hsel, if_pos (show (waitingTicks ticks s).selectedRow = row from hsel)]
          rfl
        · rw [if_neg hsel, if_neg (show (waitingTicks ticks s).selectedRow ≠ row from hsel)]
          exact selection_waiting row
      · rw [if_neg hrow, if_neg hrow]
        rfl
  | previous =>
      show previousBtnTouched env (waitingTicks ticks s) = (previousBtnTouched env s).map _
      rw [previousBtnTouched_eq, previousBtnTouched_eq]
      exact loadCurrent_waiting (m := s.toPrevious)
  | skip press => exact hpress press
  | key press => exact hpress press
  | play =>
      show Outcome.ok (playBtnTouched (waitingTicks ticks s)) = .ok _
      rw [playBtnTouched_waiting]
  | trackEnds k => rfl
  | trackAdvances k time => rfl
  | progressWakes => exact hdirect.elim
  | tick => exact hdirect.elim

end Panels

/-- The pipeline, with these observations waiting. -/
def waitingBlocks {K : Type} (waiting : List (VNFaceObservation K)) (s : Pipeline K) :
    Pipeline K :=
  { s with mainQueue := waiting }

section Pipelines

variable {K : Type} [Add K] [Sub K] [Mul K] [Div K] [OfNat K 2] [Magnitude K]

/-- No landmarks block looks at what else waits. -/
theorem landmarksBlock_waiting (io : Printing K) (observation : VNFaceObservation K)
    (viewSize : CGSize K) (array prediction : Bool) (waiting : List (VNFaceObservation K))
    (s : Pipeline K) :
    landmarksBlock io observation viewSize array prediction (waitingBlocks waiting s)
      = (landmarksBlock io observation viewSize array prediction s).map
          (waitingBlocks waiting) := by
  rw [landmarksBlock, landmarksBlock,
    show (waitingBlocks waiting s).firstFace = s.firstFace from rfl]
  cases s.firstFace with
  | none => rfl
  | some face =>
      dsimp only [waitingBlocks]
      cases convertLandmarks io observation (face.boundingBox.scaled viewSize) s.csvText with
      | none => rfl
      | some emotionText =>
          simp only [calculateEmotion]
          cases emotionInput io emotionText with
          | error t => rfl
          | ok tempArray =>
              cases array with
              | false => rfl
              | true =>
                  cases prediction with
                  | false => rfl
                  | true => rfl

end Pipelines

/-! ## The parts of the application -/

section Parts

variable {K : Type}

/-- The observations whose blocks wait in the main queue. -/
def observationsOf (queue : List (MainBlock K)) : List (VNFaceObservation K) :=
  queue.filterMap fun
    | .landmarks observation => some observation
    | _ => none

/-- How many progress blocks wait in the main queue. -/
def ticksOf (queue : List (MainBlock K)) : Nat :=
  queue.countP fun
    | .showProgress => true
    | _ => false

/-- The application as a panel. -/
def App.asPanel (a : App K) : Panel := waitingTicks (ticksOf a.mainQueue) a.panel

/-- The application as a pipeline. -/
def App.asPipeline (a : App K) : Pipeline K :=
  waitingBlocks (observationsOf a.mainQueue) a.pipeline

/-- What an event of the application is to the panel. -/
def panelEvent (a : App K) : AppEvent K → Option Event
  | .handler e _ => some e
  | .progressWakes => some .progressWakes
  | .captureCompletes _ => none
  | .runMain _ _ _ =>
      match a.mainQueue with
      | .showProgress :: _ => some .tick
      | _ => none

/-- What an event of the application is to the pipeline. -/
def captureEvent (a : App K) : AppEvent K → Option (CaptureEvent K)
  | .handler _ _ | .progressWakes => none
  | .captureCompletes r =>
      if a.delivered < a.panel.captures ∧ r.Arrives then some (.capture r.faces r.landmarks)
      else none
  | .runMain viewSize array prediction =>
      match a.mainQueue with
      | .landmarks _ :: _ => some (.runBlock viewSize array prediction)
      | _ => none

theorem ticksOf_append (queue blocks : List (MainBlock K)) :
    ticksOf (queue ++ blocks) = ticksOf queue + ticksOf blocks := List.countP_append

theorem observationsOf_append (queue blocks : List (MainBlock K)) :
    observationsOf (queue ++ blocks) = observationsOf queue ++ observationsOf blocks :=
  List.filterMap_append

theorem ticksOf_landmarks (results : List (VNFaceObservation K)) :
    ticksOf (results.map .landmarks) = 0 := by
  rw [ticksOf, List.countP_eq_zero]
  intro block hblock
  obtain ⟨observation, -, rfl⟩ := List.mem_map.mp hblock
  exact Bool.false_ne_true

theorem observationsOf_landmarks (results : List (VNFaceObservation K)) :
    observationsOf (results.map .landmarks) = results := by
  rw [observationsOf, List.filterMap_map]
  exact List.filterMap_some

/-- Blocks that are neither of the progress loop nor of an observation show in
    neither part. -/
theorem post_parts (blocks : List (MainBlock K)) (hticks : ticksOf blocks = 0)
    (hobservations : observationsOf blocks = []) (a : App K) :
    (a.post blocks).asPanel = a.asPanel ∧ (a.post blocks).asPipeline = a.asPipeline := by
  constructor
  · show waitingTicks (ticksOf (a.mainQueue ++ blocks)) a.panel = _
    rw [ticksOf_append, hticks]
    rfl
  · show waitingBlocks (observationsOf (a.mainQueue ++ blocks)) a.pipeline = _
    rw [observationsOf_append, hobservations, List.append_nil]
    rfl

/-- Nor does such a block show where it leaves the queue. -/
theorem pop_parts {a : App K} {block : MainBlock K} {rest : List (MainBlock K)}
    (hqueue : a.mainQueue = block :: rest) :
    (ticksOf [block] = 0 → ({ a with mainQueue := rest } : App K).asPanel = a.asPanel) ∧
      (observationsOf [block] = [] →
        ({ a with mainQueue := rest } : App K).asPipeline = a.asPipeline) := by
  constructor
  · intro hticks
    show waitingTicks (ticksOf rest) a.panel = waitingTicks (ticksOf a.mainQueue) a.panel
    rw [hqueue, ← List.singleton_append, ticksOf_append, hticks, Nat.zero_add]
  · intro hobservations
    show waitingBlocks (observationsOf rest) a.pipeline
      = waitingBlocks (observationsOf a.mainQueue) a.pipeline
    rw [hqueue, ← List.singleton_append, observationsOf_append, hobservations, List.nil_append]

/-- A capture posts its observations into the pipeline, and no progress
    block. -/
theorem detectFace_parts (faces landmarks : Option (List (VNFaceObservation K))) (a : App K) :
    (a.detectFace faces landmarks).asPanel = a.asPanel ∧
      (a.detectFace faces landmarks).asPipeline
        = Mac3amLandmarks.detectFace faces landmarks a.asPipeline := by
  cases faces with
  | none => exact ⟨rfl, rfl⟩
  | some results =>
      rw [App.detectFace, Mac3amLandmarks.detectFace]
      cases results.isEmpty with
      | true => exact ⟨rfl, rfl⟩
      | false =>
          -- the clearing block behind the landmarks shows in neither part
          obtain ⟨hpanel, hpipeline⟩ := post_parts [.clearShapes] rfl rfl
            (({ a with pipeline := { a.pipeline with inputFaceObservations := some results } } :
              App K).post ((landmarks.getD []).map .landmarks))
          refine ⟨hpanel.trans ?_, hpipeline.trans ?_⟩
          · show waitingTicks (ticksOf (a.mainQueue ++ _)) a.panel = _
            rw [ticksOf_append, ticksOf_landmarks]
            rfl
          · show waitingBlocks (observationsOf (a.mainQueue ++ _)) _ = _
            rw [observationsOf_append, observationsOf_landmarks]
            cases landmarks with
            | none =>
                rw [Option.getD_none, List.append_nil]
                rfl
            | some landmarks => rfl

theorem drawBlocks_parts (observation : VNFaceObservation K) (s : Pipeline K) :
    ticksOf (drawBlocks observation s) = 0 ∧ observationsOf (drawBlocks observation s) = [] := by
  rw [drawBlocks]
  cases s.firstFace with
  | none => exact ⟨rfl, rfl⟩
  | some face =>
      constructor
      · rw [ticksOf, List.countP_eq_zero]
        intro block hblock
        rw [List.eq_of_mem_replicate hblock]
        exact Bool.false_ne_true
      · rw [observationsOf, List.filterMap_replicate_of_none rfl]

/-- **How a delivered image ends**: in `detectFace`, without one, or in a
    trap. -/
theorem stillImage_cases (r : StillImage K) (a : App K) :
    (r.Arrives ∧ r.Unwraps ∧ App.stillImage r a = .ok (a.detectFace r.faces r.landmarks)) ∨
    (¬ r.Arrives ∧ r.Unwraps ∧ App.stillImage r a = .ok a) ∨
    (¬ r.Arrives ∧ ¬ r.Unwraps ∧ App.stillImage r a = .trap .unwrappedNil a) := by
  obtain ⟨imageDataSampleBuffer, imageData, myimage, cgImage, faces, landmarks⟩ := r
  cases imageDataSampleBuffer with
  | false => exact Or.inr (Or.inr ⟨fun h => (nomatch h.1), fun h => (nomatch h.1), rfl⟩)
  | true =>
      cases imageData with
      | false => exact Or.inr (Or.inr ⟨fun h => (nomatch h.2.1), fun h => (nomatch h.2.1), rfl⟩)
      | true =>
          cases myimage with
          | false =>
              exact Or.inr (Or.inl ⟨fun h => (nomatch h.2.2.1), ⟨rfl, rfl, fun h => nomatch h⟩,
                rfl⟩)
          | true =>
              cases cgImage with
              | false =>
                  exact Or.inr (Or.inr ⟨fun h => (nomatch h.2.2.2), fun h => (nomatch h.2.2 rfl),
                    rfl⟩)
              | true => exact Or.inl ⟨⟨rfl, rfl, rfl, rfl⟩, ⟨rfl, rfl, fun _ => rfl⟩, rfl⟩

end Parts

/-! ## The parts run on their own events -/

section Hosting

variable {K : Type} [Add K] [Sub K] [Mul K] [Div K] [OfNat K 2] [Magnitude K]

variable {env : Environment} {io : Printing K} {a a' : App K}

/-- **What a block that returns has done.** -/
theorem runBlock_cases {viewSize : CGSize K} {array prediction : Bool} {block : MainBlock K}
    (h : runBlock io viewSize array prediction a block = .ok a') :
    (block = .showProgress ∧ ∃ p, showProgress a.panel = .ok p ∧ a' = { a with panel := p }) ∨
    (∃ observation p, block = .landmarks observation ∧
      landmarksBlock io observation viewSize array prediction a.pipeline = .ok p ∧
      a' = { a.post (drawBlocks observation a.pipeline) with pipeline := p }) ∨
    ((block = .clearShapes ∨ block = .draw) ∧ a' = a) := by
  cases block with
  | showProgress =>
      obtain ⟨p, hp, rfl⟩ := Outcome.map_eq_ok.mp h
      exact Or.inl ⟨rfl, p, hp, rfl⟩
  | landmarks observation =>
      obtain ⟨p, hp, rfl⟩ := Outcome.map_eq_ok.mp h
      exact Or.inr (Or.inl ⟨observation, p, rfl, hp, rfl⟩)
  | clearShapes =>
      cases h
      exact Or.inr (Or.inr ⟨Or.inl rfl, rfl⟩)
  | draw =>
      cases h
      exact Or.inr (Or.inr ⟨Or.inr rfl, rfl⟩)

/-- **What an event that returns has done.** -/
theorem appStep_cases {e : AppEvent K} (hstep : appStep env io a e = .ok a') :
    (∃ x direct p, e = .handler x direct ∧ step env a.panel x = .ok p ∧
      a' = { a with panel := p }) ∨
    (e = .progressWakes ∧
      (a.panel.progressBlocks = 0 ∧ a' = a ∨
        a.panel.progressBlocks ≠ 0 ∧ a' = a.post [.showProgress])) ∨
    (∃ r, e = .captureCompletes r ∧ ¬ a.delivered < a.panel.captures ∧ a' = a) ∨
    (∃ r m, e = .captureCompletes r ∧ a.delivered < a.panel.captures ∧
      m = { a with delivered := a.delivered + 1 } ∧
      (r.Arrives ∧ a' = m.detectFace r.faces r.landmarks ∨ ¬ r.Arrives ∧ a' = m)) ∨
    (∃ viewSize array prediction, e = .runMain viewSize array prediction ∧
      (a.mainQueue = [] ∧ a' = a ∨ ∃ block rest, a.mainQueue = block :: rest ∧
        runBlock io viewSize array prediction { a with mainQueue := rest } block = .ok a')) := by
  cases e with
  | handler x direct =>
      obtain ⟨p, hp, rfl⟩ := Outcome.map_eq_ok.mp hstep
      exact Or.inl ⟨x, direct, p, rfl, hp, rfl⟩
  | progressWakes =>
      refine Or.inr (Or.inl ⟨rfl, ?_⟩)
      rw [appStep] at hstep
      by_cases hblocks : a.panel.progressBlocks = 0
      · rw [if_pos hblocks] at hstep
        exact Or.inl ⟨hblocks, (Outcome.ok.inj hstep).symm⟩
      · rw [if_neg hblocks] at hstep
        exact Or.inr ⟨hblocks, (Outcome.ok.inj hstep).symm⟩
  | captureCompletes r =>
      rw [appStep] at hstep
      by_cases hdue : a.delivered < a.panel.captures
      · rw [if_pos hdue] at hstep
        refine Or.inr (Or.inr (Or.inr (Or.inl ⟨r, _, rfl, hdue, rfl, ?_⟩)))
        rcases stillImage_cases r { a with delivered := a.delivered + 1 } with
          ⟨harrives, -, heq⟩ | ⟨hnot, -, heq⟩ | ⟨-, -, heq⟩
        · exact Or.inl ⟨harrives, Outcome.ok.inj (hstep.symm.trans heq)⟩
        · exact Or.inr ⟨hnot, Outcome.ok.inj (hstep.symm.trans heq)⟩
        · cases heq.symm.trans hstep
      · rw [if_neg hdue] at hstep
        exact Or.inr (Or.inr (Or.inl ⟨r, rfl, hdue, (Outcome.ok.inj hstep).symm⟩))
  | runMain viewSize array prediction =>
      refine Or.inr (Or.inr (Or.inr (Or.inr ⟨viewSize, array, prediction, rfl, ?_⟩)))
      rw [appStep] at hstep
      cases hqueue : a.mainQueue with
      | nil =>
          rw [hqueue] at hstep
          exact Or.inl ⟨rfl, (Outcome.ok.inj hstep).symm⟩
      | cons block rest =>
          rw [hqueue] at hstep
          exact Or.inr ⟨block, rest, rfl, hstep⟩

/-- The block of an observation runs on the pipeline, and leaves the panel
    alone. -/
theorem landmarks_parts (io : Printing K) (observation : VNFaceObservation K) (viewSize : CGSize K)
    (array prediction : Bool) (a : App K) :
    (runBlock io viewSize array prediction a (.landmarks observation)).map App.asPipeline
        = landmarksBlock io observation viewSize array prediction a.asPipeline ∧
      ∀ a', runBlock io viewSize array prediction a (.landmarks observation) = .ok a' →
        a'.asPanel = a.asPanel := by
  obtain ⟨hticks, hobservations⟩ := drawBlocks_parts observation a.pipeline
  obtain ⟨hpanel, -⟩ := post_parts _ hticks hobservations a
  have hqueue : observationsOf (a.post (drawBlocks observation a.pipeline)).mainQueue
      = observationsOf a.mainQueue := by
    show observationsOf (a.mainQueue ++ _) = _
    rw [observationsOf_append, hobservations, List.append_nil]
  have hpipeline : ∀ p : Pipeline K,
      App.asPipeline { a.post (drawBlocks observation a.pipeline) with pipeline := p }
        = waitingBlocks (observationsOf a.mainQueue) p := by
    intro p
    rw [← hqueue]
    rfl
  rw [App.asPipeline, landmarksBlock_waiting, runBlock]
  cases landmarksBlock io observation viewSize array prediction a.pipeline with
  | ok p =>
      refine ⟨congrArg Outcome.ok (hpipeline p), ?_⟩
      intro a' ha'
      cases ha'
      exact hpanel
  | trap t p => exact ⟨congrArg (Outcome.trap t) (hpipeline p), fun a' ha' => nomatch ha'⟩

/-- The progress block runs on the panel, and leaves the pipeline alone. -/
theorem showProgress_parts (io : Printing K) (viewSize : CGSize K) (array prediction : Bool) (a : App K) :
    (runBlock io viewSize array prediction a .showProgress).map App.asPanel
        = showProgress a.asPanel ∧
      ∀ a', runBlock io viewSize array prediction a .showProgress = .ok a' →
        a'.asPipeline = a.asPipeline := by
  rw [App.asPanel, showProgress_waiting, runBlock]
  cases showProgress a.panel with
  | ok p =>
      refine ⟨rfl, ?_⟩
      intro a' ha'
      cases ha'
      rfl
  | trap t p => exact ⟨rfl, fun a' ha' => nomatch ha'⟩

/-- A handler is an event of the panel, and nothing to the pipeline. -/
theorem handler_acts (env : Environment) (io : Printing K) (a : App K) {e : Event}
    (direct : Direct e) :
    Acts (step env) App.asPanel a (appStep env io a (.handler e direct)) (some e) ∧
      Acts (captureStep io) App.asPipeline a (appStep env io a (.handler e direct)) none := by
  rw [appStep, Acts, Acts, App.asPanel, step_waiting direct]
  cases step env a.panel e with
  | ok p =>
      refine ⟨rfl, ?_⟩
      intro a' ha'
      cases ha'
      rfl
  | trap t p => exact ⟨rfl, fun a' ha' => nomatch ha'⟩

theorem progressWakes_acts (env : Environment) (io : Printing K) (a : App K) :
    Acts (step env) App.asPanel a (appStep env io a .progressWakes) (some .progressWakes) ∧
      Acts (captureStep io) App.asPipeline a (appStep env io a .progressWakes) none := by
  rw [appStep, Acts, Acts, step]
  by_cases hblocks : a.panel.progressBlocks = 0
  · rw [if_pos hblocks, if_pos (show a.asPanel.progressBlocks = 0 from hblocks)]
    exact ⟨rfl, fun a' ha' => Outcome.ok.inj ha' ▸ rfl⟩
  · rw [if_neg hblocks, if_neg (show a.asPanel.progressBlocks ≠ 0 from hblocks)]
    constructor
    · show Outcome.ok (waitingTicks (ticksOf a.mainQueue + 1) a.panel)
        = .ok (waitingTicks (ticksOf (a.mainQueue ++ [.showProgress])) a.panel)
      rw [ticksOf_append]
      rfl
    · intro a' ha'
      cases ha'
      show waitingBlocks (observationsOf (a.mainQueue ++ [.showProgress])) a.pipeline = _
      rw [observationsOf_append]
      exact congrArg (waitingBlocks · a.pipeline) (List.append_nil _)

/-- A delivered image is a capture of the pipeline where it arrives, and nothing
    to the panel. -/
theorem captureCompletes_acts (env : Environment) (io : Printing K) (a : App K)
    (r : StillImage K) :
    Acts (step env) App.asPanel a (appStep env io a (.captureCompletes r)) none ∧
      Acts (captureStep io) App.asPipeline a (appStep env io a (.captureCompletes r))
        (captureEvent a (.captureCompletes r)) := by
  obtain ⟨hpanel, hpipeline⟩ :=
    detectFace_parts r.faces r.landmarks { a with delivered := a.delivered + 1 }
  rw [appStep, captureEvent]
  by_cases hdue : a.delivered < a.panel.captures
  · rw [if_pos hdue]
    rcases stillImage_cases r { a with delivered := a.delivered + 1 } with
      ⟨harrives, -, heq⟩ | ⟨hnot, -, heq⟩ | ⟨hnot, -, heq⟩
    · rw [heq, if_pos ⟨hdue, harrives⟩]
      exact ⟨fun a' ha' => Outcome.ok.inj ha' ▸ hpanel, congrArg Outcome.ok hpipeline.symm⟩
    · rw [heq, if_neg fun h => hnot h.2]
      exact ⟨fun a' ha' => Outcome.ok.inj ha' ▸ rfl, fun a' ha' => Outcome.ok.inj ha' ▸ rfl⟩
    · rw [heq]
      refine ⟨fun a' ha' => (nomatch ha'), ?_⟩
      rw [if_neg fun h => hnot h.2]
      exact fun a' ha' => nomatch ha'
  · rw [if_neg hdue, if_neg fun h => hdue h.1]
    exact ⟨fun a' ha' => Outcome.ok.inj ha' ▸ rfl, fun a' ha' => Outcome.ok.inj ha' ▸ rfl⟩

/-- A block of the main queue belongs to one part at most. -/
theorem runMain_acts (env : Environment) (io : Printing K) (a : App K) (viewSize : CGSize K)
    (array prediction : Bool) :
    Acts (step env) App.asPanel a (appStep env io a (.runMain viewSize array prediction))
        (panelEvent a (.runMain viewSize array prediction)) ∧
      Acts (captureStep io) App.asPipeline a
        (appStep env io a (.runMain viewSize array prediction))
        (captureEvent a (.runMain viewSize array prediction)) := by
  rw [appStep, panelEvent, captureEvent]
  cases hqueue : a.mainQueue with
  | nil => exact ⟨fun a' ha' => Outcome.ok.inj ha' ▸ rfl, fun a' ha' => Outcome.ok.inj ha' ▸ rfl⟩
  | cons block rest =>
      obtain ⟨hpanel, hpipeline⟩ := pop_parts hqueue
      cases block with
      | showProgress =>
          obtain ⟨hown, hother⟩ :=
            showProgress_parts io viewSize array prediction { a with mainQueue := rest }
          have hticks : a.asPanel.postedTicks = ticksOf rest + 1 := by
            show ticksOf a.mainQueue = _
            rw [hqueue]
            exact List.countP_cons_of_pos rfl
          refine ⟨?_, fun a' ha' => (hother a' ha').trans (hpipeline rfl)⟩
          dsimp only
          rw [Acts, step, if_neg (by omega), hticks]
          exact hown.symm
      | landmarks observation =>
          obtain ⟨hown, hother⟩ :=
            landmarks_parts io observation viewSize array prediction
              { a with mainQueue := rest }
          have hwaits : a.asPipeline.mainQueue = observation :: observationsOf rest := by
            show observationsOf a.mainQueue = _
            rw [hqueue]
            rfl
          refine ⟨fun a' ha' => (hother a' ha').trans (hpanel rfl), ?_⟩
          dsimp only
          rw [Acts, captureStep, hwaits]
          exact hown.symm
      | clearShapes =>
          exact ⟨fun a' ha' => Outcome.ok.inj ha' ▸ hpanel rfl,
            fun a' ha' => Outcome.ok.inj ha' ▸ hpipeline rfl⟩
      | draw =>
          exact ⟨fun a' ha' => Outcome.ok.inj ha' ▸ hpanel rfl,
            fun a' ha' => Outcome.ok.inj ha' ▸ hpipeline rfl⟩

/-- **The application is a panel** to the handlers, the progress loop and its
    blocks, and to nothing else. -/
theorem hosts_panel (env : Environment) (io : Printing K) :
    Hosts (appStep env io) (step env) App.asPanel panelEvent := by
  intro a e
  cases e with
  | handler e direct => exact (handler_acts env io a direct).1
  | progressWakes => exact (progressWakes_acts env io a).1
  | captureCompletes r => exact (captureCompletes_acts env io a r).1
  | runMain viewSize array prediction => exact (runMain_acts env io a viewSize array prediction).1

/-- **The application is a pipeline** to the captures and the landmarks blocks,
    and to nothing else. -/
theorem hosts_pipeline (env : Environment) (io : Printing K) :
    Hosts (appStep env io) (captureStep io) App.asPipeline captureEvent := by
  intro a e
  cases e with
  | handler e direct => exact (handler_acts env io a direct).2
  | progressWakes => exact (progressWakes_acts env io a).2
  | captureCompletes r => exact (captureCompletes_acts env io a r).2
  | runMain viewSize array prediction => exact (runMain_acts env io a viewSize array prediction).2

/-- The part a trap of the application belongs to: one of the two, or neither,
    where a capture has delivered no image. -/
theorem trap_owner {e : AppEvent K} {t : Trap} (h : appStep env io a e = .trap t a') :
    ((panelEvent a e).isSome = true ∧ captureEvent a e = none) ∨
    (panelEvent a e = none ∧ (captureEvent a e).isSome = true) ∨
    (panelEvent a e = none ∧ captureEvent a e = none ∧ t = .unwrappedNil ∧
      ∃ r, e = .captureCompletes r ∧ ¬ r.Unwraps) := by
  cases e with
  | handler e direct => exact Or.inl ⟨rfl, rfl⟩
  | progressWakes => exact Or.inl ⟨rfl, rfl⟩
  | captureCompletes r =>
      rw [appStep] at h
      by_cases hdue : a.delivered < a.panel.captures
      · rw [if_pos hdue] at h
        rcases stillImage_cases r { a with delivered := a.delivered + 1 } with
          ⟨-, -, heq⟩ | ⟨-, -, heq⟩ | ⟨hnot, hunwraps, heq⟩
        · cases heq.symm.trans h
        · cases heq.symm.trans h
        · cases heq.symm.trans h
          exact Or.inr (Or.inr ⟨rfl, if_neg fun h => hnot h.2, rfl, r, rfl, hunwraps⟩)
      · rw [if_neg hdue] at h
        cases h
  | runMain viewSize array prediction =>
      rw [appStep] at h
      rw [panelEvent, captureEvent]
      cases hqueue : a.mainQueue with
      | nil =>
          rw [hqueue] at h
          cases h
      | cons block rest =>
          rw [hqueue] at h
          cases block with
          | showProgress => exact Or.inl ⟨rfl, rfl⟩
          | landmarks observation => exact Or.inr (Or.inl ⟨rfl, rfl⟩)
          | clearShapes => cases h
          | draw => cases h

/-- **The application is its two parts**: in every interleaving of handlers, the
    progress loop, captures and the one main queue, a run that returns is a run
    of the panel and a run of the pipeline, each on the events that are its own
    and in their order; and one that traps does so because one of these runs
    traps in the same way while the other returns, or at a capture whose image
    the handler unwraps in vain. -/
theorem app_refines (env : Environment) (io : Printing K) (contents : List String)
    (records : List Entity) (es : List (AppEvent K)) :
    (∀ a, run (appStep env io) (App.started contents records) es = .ok a →
      run (step env) (viewDidLoad contents records)
          (observed (appStep env io) panelEvent (App.started contents records) es)
        = .ok a.asPanel ∧
      run (captureStep io) .started
          (observed (appStep env io) captureEvent (App.started contents records) es)
        = .ok a.asPipeline) ∧
    ∀ t a, run (appStep env io) (App.started contents records) es = .trap t a →
      ∃ p c, run (step env) (viewDidLoad contents records)
          (observed (appStep env io) panelEvent (App.started contents records) es) = p ∧
        run (captureStep io) .started
          (observed (appStep env io) captureEvent (App.started contents records) es) = c ∧
        ((p = .trap t a.asPanel ∧ ∃ s, c = .ok s) ∨ ((∃ s, p = .ok s) ∧ c = .trap t a.asPipeline) ∨
          ((∃ s, p = .ok s) ∧ (∃ s, c = .ok s) ∧ t = .unwrappedNil ∧
            ∃ r, .captureCompletes r ∈ es ∧ ¬ r.Unwraps)) := by
  refine ⟨fun a h => ⟨run_hosted (hosts_panel env io) h, run_hosted (hosts_pipeline env io) h⟩, ?_⟩
  intro t a h
  obtain ⟨pre, e, post, m, rfl, hpre, hstep⟩ := run_trap_split h
  refine ⟨_, _, run_hosted_trap (hosts_panel env io) hpre hstep post,
    run_hosted_trap (hosts_pipeline env io) hpre hstep post, ?_⟩
  rcases trap_owner hstep with ⟨hpanel, hnone⟩ | ⟨hnone, hpipeline⟩ |
      ⟨hnone, hnone', ht, r, rfl, hunwraps⟩
  · rw [hpanel, hnone]
    exact Or.inl ⟨rfl, _, rfl⟩
  · rw [hnone, hpipeline]
    exact Or.inr (Or.inl ⟨⟨_, rfl⟩, rfl⟩)
  · rw [hnone, hnone']
    exact Or.inr (Or.inr ⟨⟨_, rfl⟩, ⟨_, rfl⟩, ht, r, by simp, hunwraps⟩)

end Hosting

end Mac3amApp
