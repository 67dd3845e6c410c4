import Mac3am.LoginStateProofs

/-! # The login state over many launches

    The user defaults outlive the process.  Each launch starts a new controller
    in front of what the launches before have left there, may load a state, and
    sets and changes states as it goes; archiving may fail at any time.

    * `launchStep_restorable` — nothing a launch does reaches the reader's key;
    * `launches_restore_first` — so every load, in every launch, restores what
      was there before the first one, or ends the process where nothing was;
    * `launches_store_held` — and under the writer's key lies what was there, or
      the archive of a state that some launch has held. -/

namespace Mac3amLogin

open Swift TrapRun

variable {Object Contents Data : Type}

/-- What happens over the launches of the application. -/
inductive LaunchEvent (Object Contents : Type) where
  /-- a new process, with a new controller -/
  | launch (contents : Object → Contents)
  | loadState (restored : Object)
  | call (e : LoginEvent Object Contents)

section Launches

variable [DecidableEq Object] (archiver : KeyedArchiver Contents Data)

def launchStep (s : LoginViewController Object Contents Data) :
    LaunchEvent Object Contents → Outcome Trap (LoginViewController Object Contents Data)
  | .launch contents => .ok (.fresh contents s.userDefaults)
  | .loadState restored => loadState archiver restored s
  | .call e => .ok (loginStep archiver s e)

/-- What the user defaults have to load, if anything. -/
def restorable (userDefaults : String → Option (DefaultsObject Data)) : Option Contents :=
  match userDefaults "authState" with
  | some (.data archivedAuthState) => archiver.unarchiveObject archivedAuthState
  | _ => none

/-- The state held after an event. -/
def heldAfter (s : LoginViewController Object Contents Data)
    (e : LaunchEvent Object Contents) : Option Contents :=
  (launchStep archiver s e).state.held

end Launches

section Loading

variable {archiver : KeyedArchiver Contents Data} {s s' : LoginViewController Object Contents Data}
  {userDefaults : String → Option (DefaultsObject Data)}

theorem restorable_congr {userDefaults' : String → Option (DefaultsObject Data)}
    (h : userDefaults' "authState" = userDefaults "authState") :
    restorable archiver userDefaults' = restorable archiver userDefaults := by
  rw [restorable, h, restorable]

variable [DecidableEq Object]

/-- A load sets what there is to restore, and traps where there is nothing. -/
theorem loadState_cases (archiver : KeyedArchiver Contents Data) (restored : Object)
    (s : LoginViewController Object Contents Data) :
    (restorable archiver s.userDefaults = none ∧
      loadState archiver restored s = .trap .castFailed s) ∨
    ∃ contents, restorable archiver s.userDefaults = some contents ∧
      loadState archiver restored s = .ok (setAuthState archiver restored
        { s with contents := Function.update s.contents restored contents }) := by
  rw [restorable, loadState]
  cases s.userDefaults "authState" with
  | none => exact Or.inl ⟨rfl, rfl⟩
  | some object =>
      cases object with
      | other => exact Or.inl ⟨rfl, rfl⟩
      | data bytes =>
          dsimp only
          cases archiver.unarchiveObject bytes with
          | none => exact Or.inl ⟨rfl, rfl⟩
          | some contents => exact Or.inr ⟨contents, rfl, rfl⟩

/-- **Nothing a launch does changes what there is to restore.** -/
theorem launchStep_restorable {e : LaunchEvent Object Contents}
    (h : launchStep archiver s e = .ok s') :
    restorable archiver s'.userDefaults = restorable archiver s.userDefaults := by
  refine restorable_congr ?_
  cases e with
  | launch contents =>
      cases h
      rfl
  | loadState restored =>
      rcases loadState_cases archiver restored s with ⟨-, heq⟩ | ⟨contents, -, heq⟩
      · cases heq.symm.trans h
      · cases heq.symm.trans h
        exact setAuthState_reader restored
  | call e =>
      cases h
      exact loginStep_reader e

/-- An event must find something to restore, if it is a load. -/
def LoadsSomething (archiver : KeyedArchiver Contents Data)
    (userDefaults : String → Option (DefaultsObject Data)) (e : LaunchEvent Object Contents) :
    Prop :=
  ∀ restored, e = .loadState restored → restorable archiver userDefaults ≠ none

theorem launchStep_returns_iff (e : LaunchEvent Object Contents) :
    (∃ s', launchStep archiver s e = .ok s') ↔ LoadsSomething archiver s.userDefaults e := by
  cases e with
  | launch contents => exact iff_of_true ⟨_, rfl⟩ fun restored he => nomatch he
  | call e => exact iff_of_true ⟨_, rfl⟩ fun restored he => nomatch he
  | loadState restored =>
      rcases loadState_cases archiver restored s with ⟨hnone, heq⟩ | ⟨contents, hsome, heq⟩
      · exact iff_of_false (fun ⟨_, hs⟩ => nomatch heq.symm.trans hs)
          fun h => h restored rfl hnone
      · refine iff_of_true ⟨_, heq⟩ fun _ _ hnone => ?_
        cases hsome.symm.trans hnone

/-- What a load that returns leaves the controller with. -/
theorem loadState_held {restored : Object} (h : loadState archiver restored s = .ok s') :
    s'.held = restorable archiver s.userDefaults := by
  rcases loadState_cases archiver restored s with ⟨-, heq⟩ | ⟨contents, hsome, heq⟩
  · cases heq.symm.trans h
  · cases heq.symm.trans h
    rw [setAuthState_held, hsome]
    exact congrArg some (Function.update_self restored contents s.contents)

/-- **Every launch loads what the first one found**: over any number of
    launches, with any calls in between and whatever archiving does, the
    application gets through exactly when no state is loaded or the user
    defaults held one under the reader's key at the beginning; and every load
    that returns restores that state, whatever was set since. -/
theorem launches_restore_first (archiver : KeyedArchiver Contents Data)
    (contents : Object → Contents) (userDefaults : String → Option (DefaultsObject Data))
    (es : List (LaunchEvent Object Contents)) :
    ((∃ s, run (launchStep archiver) (.fresh contents userDefaults) es = .ok s) ↔
      ∀ e ∈ es, LoadsSomething archiver userDefaults e) ∧
    ∀ m restored s, run (launchStep archiver) (.fresh contents userDefaults) es = .ok m →
      loadState archiver restored m = .ok s → s.held = restorable archiver userDefaults := by
  have hkeeps : ∀ (m : LoginViewController Object Contents Data) e m',
      restorable archiver m.userDefaults = restorable archiver userDefaults →
      launchStep archiver m e = .ok m' →
      restorable archiver m'.userDefaults = restorable archiver userDefaults :=
    fun m e m' hm hstep => (launchStep_restorable hstep).trans hm
  constructor
  · refine run_ok_iff_forall ?_ hkeeps rfl
    intro m e hm
    rw [launchStep_returns_iff, LoadsSomething, hm]
    exact Iff.rfl
  · intro m restored s hrun hload
    exact (loadState_held hload).trans (run_invariant hkeeps rfl hrun)

end Loading

/-! ## What is stored -/

section Storing

variable {archiver : KeyedArchiver Contents Data} {s s' : LoginViewController Object Contents Data}
  {userDefaults : String → Option (DefaultsObject Data)} {seen : List Contents}

/-- What the launches keep: the other keys, and under the writer's key what was
    there or the archive of a state they have held; and no state tells a
    controller that holds none. -/
structure Launched (archiver : KeyedArchiver Contents Data)
    (userDefaults : String → Option (DefaultsObject Data)) (seen : List Contents)
    (s : LoginViewController Object Contents Data) : Prop where
  others : ∀ key, key ≠ kAuthorizerKey → s.userDefaults key = userDefaults key
  told : ∀ object, s.delegateOf object = true → s.held ≠ none
  stored : s.userDefaults kAuthorizerKey = userDefaults kAuthorizerKey ∨
    ∃ contents ∈ seen, ∃ bytes, archiver.archivedData (some contents) = some bytes ∧
      s.userDefaults kAuthorizerKey = some (.data bytes)

theorem Launched.mono (h : Launched archiver userDefaults seen s) {l : List Contents} :
    Launched archiver userDefaults (seen ++ l) s where
  others := h.others
  told := h.told
  stored := h.stored.imp_right fun ⟨contents, hmem, hbytes⟩ =>
    ⟨contents, List.mem_append_left _ hmem, hbytes⟩

theorem didChange_held (object : Object) : (didChange archiver object s).held = s.held := by
  rcases didChange_cases archiver object s with ⟨-, heq⟩ | ⟨bytes, -, heq⟩
  · rw [heq]
  · rw [heq]
    rfl

/-- Archiving the state held, which now is seen. -/
theorem didChange_launched (h : Launched archiver userDefaults seen s) (hheld : s.held ≠ none)
    (object : Object) :
    Launched archiver userDefaults (seen ++ (didChange archiver object s).held.toList)
      (didChange archiver object s) := by
  rw [didChange_held]
  rcases didChange_cases archiver object s with ⟨-, heq⟩ | ⟨bytes, hbytes, heq⟩
  · rw [heq]
    exact h.mono
  · obtain ⟨contents, hcontents⟩ := Option.ne_none_iff_exists'.mp hheld
    rw [heq, hcontents]
    refine ⟨fun key hkey => ?_, h.told, Or.inr ⟨contents, ?_, bytes, hcontents ▸ hbytes, ?_⟩⟩
    · exact (Function.update_of_ne hkey _ s.userDefaults).trans (h.others key hkey)
    · exact List.mem_append_right _ (List.mem_singleton_self contents)
    · exact Function.update_self kAuthorizerKey (some (.data bytes)) s.userDefaults

variable [DecidableEq Object]

theorem setAuthState_launched (h : Launched archiver userDefaults seen s) (object : Object) :
    Launched archiver userDefaults (seen ++ (setAuthState archiver object s).held.toList)
      (setAuthState archiver object s) := by
  rw [setAuthState]
  by_cases hsame : s.authState = some object
  · rw [if_pos hsame]
    exact h.mono
  · rw [if_neg hsame]
    have hset : Launched archiver userDefaults seen
        { s with
          authState := some object
          delegateOf := Function.update s.delegateOf object true } :=
      ⟨h.others, fun _ _ => Option.some_ne_none _, h.stored⟩
    exact didChange_launched hset (Option.some_ne_none _) object

omit [DecidableEq Object] in
/-- New contents leave the stored ones alone. -/
theorem Launched.contents (h : Launched archiver userDefaults seen s)
    (contents : Object → Contents) :
    Launched archiver userDefaults seen { s with contents := contents } where
  others := h.others
  told := by
    intro object hobject hnone
    have hheld := h.told object hobject
    exact hheld (Option.map_eq_none_iff.mpr (Option.map_eq_none_iff.mp hnone))
  stored := h.stored

theorem launchStep_launched (h : Launched archiver userDefaults seen s)
    {e : LaunchEvent Object Contents} (hstep : launchStep archiver s e = .ok s') :
    Launched archiver userDefaults (seen ++ (heldAfter archiver s e).toList) s' := by
  rw [heldAfter, hstep, Outcome.state_ok]
  cases e with
  | launch contents =>
      cases hstep
      exact ⟨h.others, fun _ hobject => (nomatch hobject), h.mono.stored⟩
  | loadState restored =>
      rcases loadState_cases archiver restored s with ⟨-, heq⟩ | ⟨contents, -, heq⟩
      · cases heq.symm.trans hstep
      · cases heq.symm.trans hstep
        exact setAuthState_launched (h.contents _) restored
  | call e =>
      cases hstep
      cases e with
      | setAuthState object => exact setAuthState_launched h object
      | change object contents =>
          have hchanged := h.contents (Function.update s.contents object contents)
          dsimp only [loginStep]
          by_cases hdelegate : s.delegateOf object = true
          · rw [if_pos hdelegate]
            exact didChange_launched hchanged (hchanged.told object hdelegate) object
          · rw [if_neg hdelegate]
            exact hchanged.mono

/-- **Only states that were held are stored**: over any number of launches,
    whatever archiving does, no key but the writer's ever changes, and under
    that one lies what was there at the beginning or an archive that reads back
    as a state some launch has held. -/
theorem launches_store_held (archiver : KeyedArchiver Contents Data)
    (contents : Object → Contents) (userDefaults : String → Option (DefaultsObject Data))
    {es : List (LaunchEvent Object Contents)} {s : LoginViewController Object Contents Data}
    (h : run (launchStep archiver) (.fresh contents userDefaults) es = .ok s) :
    (∀ key, key ≠ kAuthorizerKey → s.userDefaults key = userDefaults key) ∧
    (s.userDefaults kAuthorizerKey = userDefaults kAuthorizerKey ∨
      ∃ held ∈ observed (launchStep archiver) (heldAfter archiver)
          (.fresh contents userDefaults) es,
        ∃ bytes, s.userDefaults kAuthorizerKey = some (.data bytes) ∧
          archiver.unarchiveObject bytes = some held) := by
  have hstart : Launched archiver userDefaults []
      (.fresh contents userDefaults : LoginViewController Object Contents Data) :=
    ⟨fun _ _ => rfl, fun _ hobject => (nomatch hobject), Or.inl rfl⟩
  have hlaunched := run_observes (F := fun _ => True)
    (R := fun seen m => Launched archiver userDefaults seen m)
    (fun _ _ _ _ _ hm hstep => launchStep_launched hm hstep) (fun _ _ => trivial) hstart h
  refine ⟨hlaunched.others, hlaunched.stored.imp_right ?_⟩
  rintro ⟨held, hmem, bytes, hbytes, hstored⟩
  exact ⟨held, hmem, bytes, hstored, archiver.unarchive_archive held bytes hbytes⟩

end Storing

/-- A login of one launch is still stored in the next one. -/
theorem launches_store_held_next_launch :
    ∃ s, run (launchStep numberArchiver) (.fresh (fun _ : Nat => 3) fun _ => none)
        [.call (.setAuthState 0), .launch fun _ => 0] = .ok s ∧
      ∃ bytes, s.userDefaults kAuthorizerKey = some (.data bytes) ∧
        numberArchiver.unarchiveObject bytes = some 3 := by
  obtain ⟨-, hunchanged | ⟨held, hmem, bytes, hstored, hread⟩⟩ :=
    launches_store_held numberArchiver (fun _ : Nat => 3) (fun _ => none)
      (show run _ _ [.call (.setAuthState 0), .launch fun _ => 0] = .ok _ from rfl)
  · cases hunchanged
  · cases List.mem_singleton.mp hmem
    exact ⟨_, rfl, bytes, hstored, hread⟩

end Mac3amLogin
