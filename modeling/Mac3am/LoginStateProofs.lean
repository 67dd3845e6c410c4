import Mathlib.Logic.Function.Basic
import Mac3am.SwiftProofs
import Mac3am.TrapRunProofs

/-! # The saved login state

    The login window archives its authentication state into the user defaults
    whenever the state is set or changes, and reads one back when it loads.
    The writer stores under `kAuthorizerKey`, the reader asks for the key
    `"authState"`.

    * `login_saved` — after any calls the archive of the last state is stored
      under the writer's key;
    * `changeStates_reader` — under the reader's key nothing has changed;
    * `login_restored_iff` — so loading restores the last state only where the
      user defaults held it under that key from the start. -/

namespace Mac3amLogin

open Swift TrapRun

/-- Authentication states as data; what one direction writes, the other reads. -/
structure KeyedArchiver (Contents Data : Type) where
  /-- `NSKeyedArchiver.archivedData(withRootObject:requiringSecureCoding:)`,
      with `none` where it throws -/
  archivedData : Option Contents → Option Data
  /-- `NSKeyedUnarchiver.unarchiveObject(with:)`, with `none` for all that is
      not an `OIDAuthState` -/
  unarchiveObject : Data → Option Contents
  unarchive_archive : ∀ contents data, archivedData (some contents) = some data →
    unarchiveObject data = some contents

/-- What the user defaults hold under a key. -/
inductive DefaultsObject (Data : Type) where
  | data (bytes : Data)
  | other
deriving DecidableEq, Repr

/-- The controller, the authentication states in memory, and the user
    defaults.  The states are objects, equal when they are the same object. -/
structure LoginViewController (Object Contents Data : Type) where
  authState : Option Object
  contents : Object → Contents
  /-- the objects whose `stateChangeDelegate` is the controller -/
  delegateOf : Object → Bool
  userDefaults : String → Option (DefaultsObject Data)

/-- What happens to the controller. -/
inductive LoginEvent (Object Contents : Type) where
  | setAuthState (authState : Object)
  /-- an authentication state gets new contents, and tells its delegate -/
  | change (object : Object) (contents : Contents)

def kAuthorizerKey : String := "authorization"

variable {Object Contents Data : Type}

namespace LoginViewController

/-- A new controller, in front of these user defaults. -/
def fresh (contents : Object → Contents) (userDefaults : String → Option (DefaultsObject Data)) :
    LoginViewController Object Contents Data where
  authState := none
  contents := contents
  delegateOf := fun _ => false
  userDefaults := userDefaults

/-- The contents of the state held. -/
def held (s : LoginViewController Object Contents Data) : Option Contents :=
  s.authState.map s.contents

end LoginViewController

section Controller

variable [DecidableEq Object] (archiver : KeyedArchiver Contents Data)

/-- Archives the state held; the argument is not read. -/
def didChange (_state : Object) (s : LoginViewController Object Contents Data) :
    LoginViewController Object Contents Data :=
  match archiver.archivedData s.held with
  | none => s
  | some archivedAuthState =>
      { s with
        userDefaults := Function.update s.userDefaults kAuthorizerKey
          (some (.data archivedAuthState)) }

def setAuthState (authState : Object) (s : LoginViewController Object Contents Data) :
    LoginViewController Object Contents Data :=
  if s.authState = some authState then s
  else
    didChange archiver authState
      { s with
        authState := some authState
        delegateOf := Function.update s.delegateOf authState true }

/-- `restored` is the new object that comes out of the archive. -/
def loadState (restored : Object) (s : LoginViewController Object Contents Data) :
    Outcome Trap (LoginViewController Object Contents Data) :=
  match s.userDefaults "authState" with
  | some (.data archivedAuthState) =>
      match archiver.unarchiveObject archivedAuthState with
      | some contents =>
          .ok (setAuthState archiver restored
            { s with contents := Function.update s.contents restored contents })
      | none => .trap .castFailed s
  | _ => .trap .castFailed s

def loginStep (s : LoginViewController Object Contents Data) :
    LoginEvent Object Contents → LoginViewController Object Contents Data
  | .setAuthState authState => setAuthState archiver authState s
  | .change object contents =>
      let s := { s with contents := Function.update s.contents object contents }
      if s.delegateOf object then didChange archiver object s else s

/-- The controller after a sequence of calls. -/
def changeStates (s : LoginViewController Object Contents Data)
    (es : List (LoginEvent Object Contents)) : LoginViewController Object Contents Data :=
  es.foldl (loginStep archiver) s

end Controller

/-! ## The last state of a sequence -/

/-- The object set last, and the contents of all objects. -/
structure LastSet (Object Contents : Type) where
  object : Option Object
  contents : Object → Contents

/-- What an event means, whatever is stored. -/
def LastSet.next [DecidableEq Object] (l : LastSet Object Contents) :
    LoginEvent Object Contents → LastSet Object Contents
  | .setAuthState authState => { l with object := some authState }
  | .change object contents => { l with contents := Function.update l.contents object contents }

/-- The last state of a sequence: the contents of the object set last. -/
def lastState [DecidableEq Object] (contents : Object → Contents)
    (es : List (LoginEvent Object Contents)) : Option Contents :=
  let l := es.foldl LastSet.next ⟨none, contents⟩
  l.object.map l.contents

/-- The object the controller holds, and the contents of all objects. -/
def LoginViewController.lastSet (s : LoginViewController Object Contents Data) :
    LastSet Object Contents where
  object := s.authState
  contents := s.contents

section Saving

variable {archiver : KeyedArchiver Contents Data} {s : LoginViewController Object Contents Data}

/-- Archiving stores under the writer's key, and changes nothing else. -/
theorem didChange_cases (archiver : KeyedArchiver Contents Data) (object : Object)
    (s : LoginViewController Object Contents Data) :
    (archiver.archivedData s.held = none ∧ didChange archiver object s = s) ∨
    ∃ bytes, archiver.archivedData s.held = some bytes ∧
      didChange archiver object s
        = { s with
            userDefaults := Function.update s.userDefaults kAuthorizerKey
              (some (.data bytes)) } := by
  rw [didChange]
  cases archiver.archivedData s.held with
  | none => exact Or.inl ⟨rfl, rfl⟩
  | some bytes => exact Or.inr ⟨bytes, rfl, rfl⟩

/-- Archiving leaves the state held, and all states, as they are. -/
theorem didChange_lastSet (object : Object) :
    (didChange archiver object s).lastSet = s.lastSet := by
  rcases didChange_cases archiver object s with ⟨-, heq⟩ | ⟨bytes, -, heq⟩
  · rw [heq]
  · rw [heq]
    rfl

/-- The writer's key is not the reader's. -/
theorem didChange_reader (object : Object) :
    (didChange archiver object s).userDefaults "authState" = s.userDefaults "authState" := by
  rcases didChange_cases archiver object s with ⟨-, heq⟩ | ⟨bytes, -, heq⟩
  · rw [heq]
  · rw [heq]
    have hkey : "authState" ≠ kAuthorizerKey := by decide
    exact Function.update_of_ne hkey (some (.data bytes)) s.userDefaults

variable [DecidableEq Object]

theorem setAuthState_reader (object : Object) :
    (setAuthState archiver object s).userDefaults "authState" = s.userDefaults "authState" := by
  rw [setAuthState]
  by_cases hsame : s.authState = some object
  · rw [if_pos hsame]
  · rw [if_neg hsame, didChange_reader]

theorem loginStep_reader (e : LoginEvent Object Contents) :
    (loginStep archiver s e).userDefaults "authState" = s.userDefaults "authState" := by
  cases e with
  | setAuthState object => exact setAuthState_reader object
  | change object contents =>
      dsimp only [loginStep]
      by_cases hdelegate : s.delegateOf object = true
      · rw [if_pos hdelegate, didChange_reader]
      · rw [if_neg hdelegate]

/-- **No call writes what the reader reads.** -/
theorem changeStates_reader (archiver : KeyedArchiver Contents Data)
    (s : LoginViewController Object Contents Data) (es : List (LoginEvent Object Contents)) :
    (changeStates archiver s es).userDefaults "authState" = s.userDefaults "authState" := by
  induction es generalizing s with
  | nil => rfl
  | cons e es ih =>
      rw [changeStates, List.foldl_cons]
      exact (ih (loginStep archiver s e)).trans (loginStep_reader e)

/-! ## The state held, and its archive -/

theorem loginStep_lastSet (archiver : KeyedArchiver Contents Data)
    (s : LoginViewController Object Contents Data) (e : LoginEvent Object Contents) :
    s.lastSet.next e = (loginStep archiver s e).lastSet := by
  cases e with
  | setAuthState object =>
      dsimp only [loginStep, setAuthState]
      by_cases hsame : s.authState = some object
      · -- the early exit leaves the object that is held already
        rw [if_pos hsame, LastSet.next, LoginViewController.lastSet, hsame]
      · rw [if_neg hsame, didChange_lastSet]
        rfl
  | change object contents =>
      dsimp only [loginStep]
      by_cases hdelegate : s.delegateOf object = true
      · rw [if_pos hdelegate, didChange_lastSet]
        rfl
      · rw [if_neg hdelegate]
        rfl

/-- After any calls the controller holds the last state of the sequence. -/
theorem changeStates_held (archiver : KeyedArchiver Contents Data) (contents : Object → Contents)
    (userDefaults : String → Option (DefaultsObject Data))
    (es : List (LoginEvent Object Contents)) :
    (changeStates archiver (.fresh contents userDefaults) es).held = lastState contents es := by
  have hhom : es.foldl LastSet.next
        (LoginViewController.lastSet (.fresh contents userDefaults))
      = (es.foldl (loginStep archiver) (.fresh contents userDefaults)).lastSet :=
    List.foldl_hom LoginViewController.lastSet (loginStep_lastSet archiver)
  show (LoginViewController.lastSet _).object.map (LoginViewController.lastSet _).contents = _
  rw [changeStates, ← hhom]
  rfl

/-- What holds between two calls: the state held tells the controller of its
    changes, and its archive is stored. -/
structure Saved (archiver : KeyedArchiver Contents Data)
    (s : LoginViewController Object Contents Data) : Prop where
  delegate : ∀ object, s.authState = some object → s.delegateOf object = true
  archived : ∀ contents, s.held = some contents →
    ∃ bytes, archiver.archivedData (some contents) = some bytes ∧
      s.userDefaults kAuthorizerKey = some (.data bytes)

omit [DecidableEq Object] in
/-- Archiving makes up for any change of the contents. -/
theorem didChange_saved (harchive : ∀ contents, archiver.archivedData (some contents) ≠ none)
    (hdelegate : ∀ object, s.authState = some object → s.delegateOf object = true)
    (object : Object) : Saved archiver (didChange archiver object s) := by
  rcases didChange_cases archiver object s with ⟨hnone, heq⟩ | ⟨bytes, hbytes, heq⟩
  · rw [heq]
    refine ⟨hdelegate, ?_⟩
    intro contents hheld
    rw [hheld] at hnone
    exact absurd hnone (harchive contents)
  · rw [heq]
    refine ⟨hdelegate, ?_⟩
    intro contents hheld
    have hheld' : s.held = some contents := hheld
    rw [hheld'] at hbytes
    exact ⟨bytes, hbytes, Function.update_self kAuthorizerKey (some (.data bytes)) s.userDefaults⟩

theorem loginStep_saved (harchive : ∀ contents, archiver.archivedData (some contents) ≠ none)
    (e : LoginEvent Object Contents) (h : Saved archiver s) :
    Saved archiver (loginStep archiver s e) := by
  cases e with
  | setAuthState object =>
      dsimp only [loginStep, setAuthState]
      by_cases hsame : s.authState = some object
      · rw [if_pos hsame]
        exact h
      · rw [if_neg hsame]
        refine didChange_saved harchive ?_ object
        intro object' hobject
        cases hobject
        exact Function.update_self _ _ _
  | change object contents =>
      dsimp only [loginStep]
      by_cases hdelegate : s.delegateOf object = true
      · rw [if_pos hdelegate]
        refine didChange_saved harchive ?_ object
        exact h.delegate
      · rw [if_neg hdelegate]
        refine ⟨h.delegate, ?_⟩
        intro contents' hheld
        -- an object that tells nobody is not the one held
        obtain ⟨object', hobject, hcontents⟩ := Option.map_eq_some_iff.mp hheld
        have hne : object' ≠ object := by
          rintro rfl
          exact hdelegate (h.delegate object' hobject)
        refine h.archived contents' ?_
        rw [LoginViewController.held, show s.authState = some object' from hobject, Option.map_some,
          ← hcontents]
        exact congrArg some (Function.update_of_ne hne _ _).symm

/-- **The last state is saved**, under the writer's key, in a form that reads
    back. -/
theorem login_saved (archiver : KeyedArchiver Contents Data) (contents : Object → Contents)
    (userDefaults : String → Option (DefaultsObject Data))
    (harchive : ∀ contents, archiver.archivedData (some contents) ≠ none)
    {es : List (LoginEvent Object Contents)} {last : Contents}
    (hlast : lastState contents es = some last) :
    ∃ bytes, (changeStates archiver (.fresh contents userDefaults) es).userDefaults kAuthorizerKey
        = some (.data bytes) ∧ archiver.unarchiveObject bytes = some last := by
  have hsaved : Saved archiver (changeStates archiver (.fresh contents userDefaults) es) := by
    refine List.foldlRecOn es (loginStep archiver) ?_ ?_
    · refine ⟨?_, ?_⟩
      · intro object hobject
        cases hobject
      · intro contents' hheld
        cases hheld
    · intro s h e _
      exact loginStep_saved harchive e h
  obtain ⟨bytes, hbytes, hstored⟩ :=
    hsaved.archived last ((changeStates_held archiver contents userDefaults es).trans hlast)
  exact ⟨bytes, hstored, archiver.unarchive_archive last bytes hbytes⟩

end Saving

/-! ## Loading -/

section Loading

variable [DecidableEq Object]

theorem setAuthState_held (archiver : KeyedArchiver Contents Data) (object : Object)
    (s : LoginViewController Object Contents Data) :
    (setAuthState archiver object s).held = some (s.contents object) := by
  have hset : (setAuthState archiver object s).lastSet = s.lastSet.next (.setAuthState object) :=
    (loginStep_lastSet archiver s (.setAuthState object)).symm
  show (setAuthState archiver object s).lastSet.object.map
    (setAuthState archiver object s).lastSet.contents = _
  rw [hset]
  rfl

/-- A new controller loads what is stored under the reader's key. -/
theorem loadState_fresh_iff (archiver : KeyedArchiver Contents Data) (restored : Object)
    (contents : Object → Contents) (userDefaults : String → Option (DefaultsObject Data))
    (last : Contents) :
    (∃ s, loadState archiver restored (.fresh contents userDefaults) = .ok s ∧
        s.held = some last) ↔
      ∃ bytes, userDefaults "authState" = some (.data bytes) ∧
        archiver.unarchiveObject bytes = some last := by
  have hloaded : ∀ loaded, (setAuthState archiver restored
      { (LoginViewController.fresh contents userDefaults :
          LoginViewController Object Contents Data) with
        contents := Function.update contents restored loaded }).held = some loaded := by
    intro loaded
    rw [setAuthState_held]
    exact congrArg some (Function.update_self restored loaded contents)
  constructor
  · rintro ⟨s, hload, hheld⟩
    rw [loadState] at hload
    split at hload
    · rename_i bytes hbytes
      refine ⟨bytes, hbytes, ?_⟩
      split at hload
      · rename_i loaded hunarchived
        cases hload
        rw [hunarchived, ← hheld]
        exact (hloaded loaded).symm
      · cases hload
    · cases hload
  · rintro ⟨bytes, hbytes, hunarchived⟩
    refine ⟨_, ?_, hloaded last⟩
    have hstored : (LoginViewController.fresh contents userDefaults :
        LoginViewController Object Contents Data).userDefaults "authState"
          = some (.data bytes) := hbytes
    rw [loadState, hstored]
    dsimp only
    rw [hunarchived]
    rfl

/-- **Saved and loaded**: after any calls, a new controller loads the last
    state exactly where the user defaults held it under the reader's key before
    the first of them. -/
theorem login_restored_iff (archiver : KeyedArchiver Contents Data) (restored : Object)
    (contents contents' : Object → Contents)
    (userDefaults : String → Option (DefaultsObject Data))
    {es : List (LoginEvent Object Contents)} {last : Contents}
    (hlast : lastState contents es = some last) :
    (∃ s, loadState archiver restored (.fresh contents'
          (changeStates archiver (.fresh contents userDefaults) es).userDefaults) = .ok s ∧
        s.held = lastState contents es) ↔
      ∃ bytes, userDefaults "authState" = some (.data bytes) ∧
        archiver.unarchiveObject bytes = some last := by
  rw [hlast, loadState_fresh_iff, changeStates_reader]
  rfl

end Loading

/-- States that are numbers, which stand for themselves in their archives. -/
def numberArchiver : KeyedArchiver Nat Nat where
  archivedData := id
  unarchiveObject := some
  unarchive_archive _ _ h := h.symm

/-- The state that was set, changed and left, and the one set instead. -/
theorem login_saved_second_state :
    ∃ bytes, (changeStates numberArchiver (.fresh (fun _ => 3) fun _ => none)
        [.setAuthState 0, .change 0 4, .setAuthState 1, .change 0 5]).userDefaults kAuthorizerKey
        = some (.data bytes) ∧ numberArchiver.unarchiveObject bytes = some 3 :=
  login_saved numberArchiver (fun _ => 3) (fun _ => none) (fun _ h => nomatch h)
    (show lastState (fun _ => 3) [.setAuthState 0, .change 0 4, .setAuthState 1, .change 0 5]
      = some 3 from rfl)

/-- An older version of the state under the reader's key is what loading
    restores, when the state comes back to it. -/
theorem login_restored_iff_same_state :
    ∃ s, loadState numberArchiver 0 (.fresh (fun _ => 0)
        (changeStates numberArchiver (.fresh (fun _ => 3)
          fun key => if key = "authState" then some (.data 5) else none)
          [.setAuthState 0, .change 0 4, .setAuthState 0, .change 0 5]).userDefaults) = .ok s ∧
      s.held = lastState (fun _ => 3)
        [.setAuthState 0, .change 0 4, .setAuthState 0, .change 0 5] :=
  (login_restored_iff numberArchiver 0 (fun _ => 3) (fun _ => 0)
    (fun key => if key = "authState" then some (.data 5) else none)
    (show lastState (fun _ => 3) [.setAuthState 0, .change 0 4, .setAuthState 0, .change 0 5]
      = some 5 from rfl)).mpr ⟨5, rfl, rfl⟩

/-- On a new machine the state that was set is saved, and loading it ends the
    process. -/
theorem saved_login_not_found :
    let s := changeStates numberArchiver (.fresh (fun _ => 3) fun _ => none) [.setAuthState 0]
    lastState (fun _ => 3) [LoginEvent.setAuthState 0] = some 3 ∧
      s.userDefaults kAuthorizerKey = some (.data 3) ∧
      ∃ m, loadState numberArchiver 0 (.fresh (fun _ => 0) s.userDefaults)
        = .trap .castFailed m :=
  ⟨rfl, rfl, _, rfl⟩

end Mac3amLogin
