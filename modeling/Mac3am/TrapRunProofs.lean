import Mathlib.Data.List.Basic

/-! # Runs of a machine whose steps may trap

    A program that is driven by events: each event runs a handler to its end,
    which either returns in a new state or traps, and a trap ends the process.
    `run` feeds a list of events to such a machine and stops at the first trap,
    keeping the state the trap happened in.

    The rules of this file are the ones a safety argument needs:

    * `run_invariant` — what every returning step keeps, every run keeps;
    * `run_simulates` — a step-by-step simulation is a simulation of runs;
      `run_agrees` — machines that agree step by step, traps included, agree on
      runs;
    * `Guarded` — every event of a run meets a condition on its own pre-state;
      `run_ok_of_guarded` and `guarded_of_run_ok` turn an exact condition for
      one step into an exact condition for a run (`run_ok_iff_guarded`,
      `run_avoids_iff_guarded`, `always_iff_guarded`, `history_iff_guarded`);
    * `observed` — what is read off the pre-states of the events of a run, and
      `run_observes`, the rule for invariants that speak about it
      (`run_observes_end` for what they come to where a run ends or traps);
    * `Hosts` — a machine with another one inside, and `run_hosted`, by which a
      run of the outer one is a run of the inner one. -/

namespace TrapRun

variable {ε σ ι τ β : Type}

/-- How a handler ends: it returns in a state, or the process traps in one. -/
inductive Outcome (ε σ : Type) where
  | ok (s : σ)
  | trap (t : ε) (s : σ)
deriving DecidableEq, Repr

namespace Outcome

/-- Go on with the next statement, unless the process is gone. -/
def andThen : Outcome ε σ → (σ → Outcome ε σ) → Outcome ε σ
  | .ok s, f => f s
  | .trap t s, _ => .trap t s

/-- A handler on a part of the state, as a handler on the whole. -/
def map (f : σ → τ) : Outcome ε σ → Outcome ε τ
  | .ok s => .ok (f s)
  | .trap t s => .trap t (f s)

/-- The state an outcome ends in. -/
def state : Outcome ε σ → σ
  | .ok s => s
  | .trap _ s => s

@[simp] theorem ok_andThen (s : σ) (f : σ → Outcome ε σ) :
    (Outcome.ok s).andThen f = f s := rfl

@[simp] theorem trap_andThen (t : ε) (s : σ) (f : σ → Outcome ε σ) :
    (Outcome.trap t s).andThen f = .trap t s := rfl

@[simp] theorem state_ok (s : σ) : (Outcome.ok s : Outcome ε σ).state = s := rfl

@[simp] theorem state_trap (t : ε) (s : σ) : (Outcome.trap t s).state = s := rfl

/-- A sequence returns only through a returning first half. -/
theorem andThen_eq_ok {o : Outcome ε σ} {f : σ → Outcome ε σ} {s' : σ} :
    o.andThen f = .ok s' ↔ ∃ m, o = .ok m ∧ f m = .ok s' := by
  cases o with
  | ok m =>
      constructor
      · intro h; exact ⟨m, rfl, h⟩
      · rintro ⟨m', hm, hf⟩
        cases hm
        exact hf
  | trap t m =>
      constructor
      · intro h; cases h
      · rintro ⟨m', hm, -⟩; cases hm

/-- A sequence traps in its first half, or in its second after the first
    returned. -/
theorem andThen_eq_trap {o : Outcome ε σ} {f : σ → Outcome ε σ} {t : ε} {s' : σ} :
    o.andThen f = .trap t s' ↔
      o = .trap t s' ∨ ∃ m, o = .ok m ∧ f m = .trap t s' := by
  cases o with
  | ok m =>
      constructor
      · intro h; exact Or.inr ⟨m, rfl, h⟩
      · rintro (h | ⟨m', hm, hf⟩)
        · cases h
        · cases hm
          exact hf
  | trap u m =>
      constructor
      · intro h; exact Or.inl h
      · rintro (h | ⟨m', hm, -⟩)
        · exact h
        · cases hm

/-- A handler on a part returns only where it returns on the part. -/
theorem map_eq_ok {o : Outcome ε σ} {f : σ → τ} {t : τ} :
    o.map f = .ok t ↔ ∃ s, o = .ok s ∧ f s = t := by
  cases o with
  | ok s =>
      constructor
      · intro h
        cases h
        exact ⟨s, rfl, rfl⟩
      · rintro ⟨s', hs, rfl⟩
        cases hs
        rfl
  | trap u s =>
      constructor
      · intro h; cases h
      · rintro ⟨s', hs, -⟩; cases hs

end Outcome

/-- Feed a list of events to a machine, up to the first trap. -/
def run (step : σ → ι → Outcome ε σ) : σ → List ι → Outcome ε σ
  | s, [] => .ok s
  | s, e :: es => (step s e).andThen fun s' => run step s' es

variable {step : σ → ι → Outcome ε σ}

theorem run_cons (s : σ) (e : ι) (es : List ι) :
    run step s (e :: es) = (step s e).andThen fun s' => run step s' es := rfl

theorem run_cons_ok {s s' : σ} {e : ι} {es : List ι} :
    run step s (e :: es) = .ok s' ↔
      ∃ m, step s e = .ok m ∧ run step m es = .ok s' :=
  Outcome.andThen_eq_ok

/-- A trapped run stops at one of its events: the ones before it all
    returned. -/
theorem run_trap_split {s s' : σ} {t : ε} {es : List ι}
    (h : run step s es = .trap t s') :
    ∃ pre e post m, es = pre ++ e :: post ∧ run step s pre = .ok m ∧
      step m e = .trap t s' := by
  induction es generalizing s with
  | nil => cases h
  | cons e es ih =>
      rcases Outcome.andThen_eq_trap.mp h with htrap | ⟨m, hm, hrest⟩
      · exact ⟨[], e, es, s, rfl, rfl, htrap⟩
      · obtain ⟨pre, e', post, m', hes, hrun, hstep⟩ := ih hrest
        refine ⟨e :: pre, e', post, m', ?_, ?_, hstep⟩
        · rw [hes, List.cons_append]
        · exact run_cons_ok.mpr ⟨m, hm, hrun⟩

/-- **The invariant rule**: what every returning step keeps, every returning
    run keeps. -/
theorem run_invariant {P : σ → Prop}
    (hstep : ∀ s e s', P s → step s e = .ok s' → P s')
    {s s' : σ} {es : List ι} (hs : P s) (h : run step s es = .ok s') : P s' := by
  induction es generalizing s with
  | nil =>
      cases h
      exact hs
  | cons e es ih =>
      obtain ⟨m, hm, hrest⟩ := run_cons_ok.mp h
      exact ih (hstep s e m hs hm) hrest

/-- **The simulation rule**: an abstract machine without traps that follows
    every returning step follows every returning run. -/
theorem run_simulates {R : τ → σ → Prop} {g : τ → ι → τ}
    (hstep : ∀ a s e s', R a s → step s e = .ok s' → R (g a e) s')
    {a : τ} {s s' : σ} {es : List ι} (hs : R a s)
    (h : run step s es = .ok s') : R (es.foldl g a) s' := by
  induction es generalizing a s with
  | nil =>
      cases h
      exact hs
  | cons e es ih =>
      obtain ⟨m, hm, hrest⟩ := run_cons_ok.mp h
      exact ih (hstep a s e m hs hm) hrest

/-- **The counting rule**: what each event raises by at most a fixed amount, if
    it is of the kind, a run raises by that for each of them. -/
theorem run_count_le {f : σ → Nat} {p : ι → Bool} {c : Nat}
    (hstep : ∀ s e s', step s e = .ok s' → f s' ≤ f s + c * if p e then 1 else 0)
    {s s' : σ} {es : List ι} (h : run step s es = .ok s') : f s' ≤ f s + c * es.countP p := by
  induction es generalizing s with
  | nil =>
      cases h
      exact Nat.le_refl _
  | cons e es ih =>
      obtain ⟨m, hm, hrest⟩ := run_cons_ok.mp h
      have hfirst := hstep s e m hm
      have hlast := ih hrest
      rw [List.countP_cons, Nat.mul_add]
      omega

/-- The same, where each of them raises it by one. -/
theorem run_count {f : σ → Nat} {p : ι → Bool}
    (hstep : ∀ s e s', step s e = .ok s' → f s' = f s + if p e then 1 else 0)
    {s s' : σ} {es : List ι} (h : run step s es = .ok s') : f s' = f s + es.countP p := by
  induction es generalizing s with
  | nil =>
      cases h
      rfl
  | cons e es ih =>
      obtain ⟨m, hm, hrest⟩ := run_cons_ok.mp h
      rw [ih hrest, hstep s e m hm, List.countP_cons]
      omega

/-- The first part of a run, and the rest from where it ends. -/
theorem run_append {s : σ} (es fs : List ι) :
    run step s (es ++ fs) = (run step s es).andThen fun m => run step m fs := by
  induction es generalizing s with
  | nil => rfl
  | cons e es ih =>
      rw [List.cons_append, run_cons, run_cons]
      cases step s e with
      | ok m => exact ih
      | trap t m => rfl

/-! ## Two machines on the same events -/

/-- Two outcomes agree: both return, or both trap in the same way, in states
    that are related. -/
def Outcome.Agree (R T : σ → τ → Prop) : Outcome ε σ → Outcome ε τ → Prop
  | .ok s, .ok s' => R s s'
  | .trap t s, .trap t' s' => t = t' ∧ T s s'
  | _, _ => False

theorem Outcome.Agree.returns_iff {R T : σ → τ → Prop} {o : Outcome ε σ} {o' : Outcome ε τ}
    (h : o.Agree R T o') : (∃ s, o = .ok s) ↔ ∃ s', o' = .ok s' := by
  cases o with
  | ok s =>
      cases o' with
      | ok s' => exact iff_of_true ⟨s, rfl⟩ ⟨s', rfl⟩
      | trap t s' => exact h.elim
  | trap t s =>
      cases o' with
      | ok s' => exact h.elim
      | trap t' s' => exact iff_of_false (fun ⟨_, hs⟩ => nomatch hs) (fun ⟨_, hs⟩ => nomatch hs)

theorem Outcome.Agree.mono {R R' T : σ → τ → Prop} {o : Outcome ε σ} {o' : Outcome ε τ}
    (h : o.Agree R T o') (hR : ∀ s s', R s s' → R' s s') : o.Agree R' T o' := by
  cases o with
  | ok s =>
      cases o' with
      | ok s' => exact hR s s' h
      | trap t s' => exact h
  | trap t s =>
      cases o' with
      | ok s' => exact h
      | trap t' s' => exact h

/-- **The agreement rule**: machines that agree on every event agree on every
    run. -/
theorem run_agrees {step' : τ → ι → Outcome ε τ} {R T : σ → τ → Prop}
    (hstep : ∀ s s' e, R s s' → (step s e).Agree R T (step' s' e)) {s : σ} {s' : τ}
    {es : List ι} (hs : R s s') : (run step s es).Agree R T (run step' s' es) := by
  induction es generalizing s s' with
  | nil => exact hs
  | cons e es ih =>
      have hagree := hstep s s' e hs
      rw [run_cons, run_cons]
      cases ho : step s e with
      | ok m =>
          cases ho' : step' s' e with
          | ok m' =>
              rw [ho, ho'] at hagree
              exact ih hagree
          | trap t m' =>
              rw [ho, ho'] at hagree
              exact hagree.elim
      | trap t m =>
          cases ho' : step' s' e with
          | ok m' =>
              rw [ho, ho'] at hagree
              exact hagree.elim
          | trap t' m' =>
              rw [ho, ho'] at hagree
              exact hagree

/-- **The realization rule**: where a machine can answer every event of another
    one with events of its own, it can answer every run. -/
theorem run_realizes {κ : Type} {inner : τ → κ → Outcome ε τ} {R T : σ → τ → Prop}
    (hstep : ∀ s t k, R s t → ∃ es, (run step s es).Agree R T (inner t k))
    {s : σ} {t : τ} (ks : List κ) (hs : R s t) :
    ∃ es, (run step s es).Agree R T (run inner t ks) := by
  induction ks generalizing s t with
  | nil => exact ⟨[], hs⟩
  | cons k ks ih =>
      obtain ⟨es, hagree⟩ := hstep s t k hs
      rw [run_cons]
      cases ho' : inner t k with
      | trap u t' =>
          rw [ho'] at hagree
          exact ⟨es, hagree⟩
      | ok t' =>
          cases ho : run step s es with
          | ok m =>
              rw [ho, ho'] at hagree
              obtain ⟨fs, hrest⟩ := ih hagree
              refine ⟨es ++ fs, ?_⟩
              rw [run_append, ho]
              exact hrest
          | trap u m =>
              rw [ho, ho'] at hagree
              exact hagree.elim

/-! ## Runs whose events all meet a condition -/

/-- Every event of the run that is reached meets `G` in the state it is
    reached in. -/
def Guarded (step : σ → ι → Outcome ε σ) (G : σ → ι → Prop) : σ → List ι → Prop
  | _, [] => True
  | s, e :: es => G s e ∧ ∀ s', step s e = .ok s' → Guarded step G s' es

variable {G : σ → ι → Prop}

/-- `Guarded`, read at one event of the run. -/
theorem guarded_iff_split {s : σ} {es : List ι} :
    Guarded step G s es ↔
      ∀ pre e post m, es = pre ++ e :: post → run step s pre = .ok m → G m e := by
  induction es generalizing s with
  | nil =>
      constructor
      · intro _ pre e post m hes
        exact absurd hes (by simp)
      · intro _; trivial
  | cons e es ih =>
      constructor
      · rintro ⟨hG, hrest⟩ pre e' post m hes hrun
        cases pre with
        | nil =>
            rw [List.nil_append, List.cons.injEq] at hes
            cases hrun
            exact hes.1 ▸ hG
        | cons p pre =>
            rw [List.cons_append, List.cons.injEq] at hes
            obtain ⟨hp, hes⟩ := hes
            subst hp
            obtain ⟨m', hm', hpre⟩ := run_cons_ok.mp hrun
            exact ih.mp (hrest m' hm') pre e' post m hes hpre
      · intro h
        refine ⟨h [] e es s rfl rfl, ?_⟩
        intro s' hs'
        refine ih.mpr ?_
        intro pre e' post m hes hrun
        refine h (e :: pre) e' post m ?_ ?_
        · rw [hes, List.cons_append]
        · exact run_cons_ok.mpr ⟨s', hs', hrun⟩

/-- A guarded run of which every guarded step returns, returns. -/
theorem run_ok_of_guarded {P : σ → Prop}
    (hstep : ∀ s e, P s → G s e → ∃ s', step s e = .ok s' ∧ P s')
    {s : σ} {es : List ι} (hs : P s) (hG : Guarded step G s es) :
    ∃ s', run step s es = .ok s' ∧ P s' := by
  induction es generalizing s with
  | nil => exact ⟨s, rfl, hs⟩
  | cons e es ih =>
      obtain ⟨m, hm, hP⟩ := hstep s e hs hG.1
      obtain ⟨s', hrun, hP'⟩ := ih hP (hG.2 m hm)
      exact ⟨s', run_cons_ok.mpr ⟨m, hm, hrun⟩, hP'⟩

/-- A run that returned was guarded, when returning steps are. -/
theorem guarded_of_run_ok {P : σ → Prop}
    (hstep : ∀ s e s', P s → step s e = .ok s' → G s e ∧ P s')
    {s s' : σ} {es : List ι} (hs : P s) (h : run step s es = .ok s') :
    Guarded step G s es := by
  induction es generalizing s with
  | nil => trivial
  | cons e es ih =>
      obtain ⟨m, hm, hrest⟩ := run_cons_ok.mp h
      obtain ⟨hG, hP⟩ := hstep s e m hs hm
      refine ⟨hG, ?_⟩
      intro m' hm'
      rw [hm] at hm'
      cases hm'
      exact ih hP hrest

/-- **Exact safety**: where a step returns exactly under its guard, a run
    returns exactly when it is guarded. -/
theorem run_ok_iff_guarded {P : σ → Prop}
    (hok : ∀ s e, P s → G s e → ∃ s', step s e = .ok s' ∧ P s')
    (hguard : ∀ s e s', P s → step s e = .ok s' → G s e)
    {s : σ} {es : List ι} (hs : P s) :
    (∃ s', run step s es = .ok s') ↔ Guarded step G s es := by
  constructor
  · rintro ⟨s', h⟩
    refine guarded_of_run_ok (P := P) ?_ hs h
    intro a e a' ha hstep
    have hG := hguard a e a' ha hstep
    obtain ⟨b, hb, hP⟩ := hok a e ha hG
    rw [hstep] at hb
    cases hb
    exact ⟨hG, hP⟩
  · intro hG
    obtain ⟨s', h, -⟩ := run_ok_of_guarded hok hs hG
    exact ⟨s', h⟩

/-- Where it is the event alone that decides whether a step returns, a run
    returns exactly when every event of it does. -/
theorem run_ok_iff_forall {P : σ → Prop} {F : ι → Prop}
    (hreturns : ∀ s e, P s → ((∃ s', step s e = .ok s') ↔ F e))
    (hkeeps : ∀ s e s', P s → step s e = .ok s' → P s')
    {s : σ} {es : List ι} (hs : P s) :
    (∃ s', run step s es = .ok s') ↔ ∀ e ∈ es, F e := by
  induction es generalizing s with
  | nil => exact iff_of_true ⟨s, rfl⟩ fun e he => nomatch he
  | cons e es ih =>
      rw [List.forall_mem_cons]
      constructor
      · rintro ⟨s', h⟩
        obtain ⟨m, hm, hrest⟩ := run_cons_ok.mp h
        exact ⟨(hreturns s e hs).mp ⟨m, hm⟩, (ih (hkeeps s e m hs hm)).mp ⟨s', hrest⟩⟩
      · rintro ⟨hfirst, hrest⟩
        obtain ⟨m, hm⟩ := (hreturns s e hs).mpr hfirst
        obtain ⟨s', h⟩ := (ih (hkeeps s e m hs hm)).mpr hrest
        exact ⟨s', run_cons_ok.mpr ⟨m, hm, h⟩⟩

/-- **Exact avoidance**: where a step traps badly exactly off its guard, a run
    avoids the bad traps exactly when it is guarded. -/
theorem run_avoids_iff_guarded {P : σ → Prop} {B : ε → Prop}
    (hgood : ∀ s e, P s → G s e →
      (∃ s', step s e = .ok s' ∧ P s') ∨ ∃ t s', step s e = .trap t s' ∧ ¬ B t)
    (hbad : ∀ s e, P s → ¬ G s e → ∃ t s', step s e = .trap t s' ∧ B t)
    {s : σ} {es : List ι} (hs : P s) :
    (∀ t s', run step s es = .trap t s' → ¬ B t) ↔ Guarded step G s es := by
  induction es generalizing s with
  | nil =>
      constructor
      · intro _; trivial
      · intro _ t s' h; cases h
  | cons e es ih =>
      by_cases hG : G s e
      · -- a run that a harmless trap ends is guarded from there on
        rcases hgood s e hs hG with ⟨m, hm, hP⟩ | ⟨t, m, hm, hok⟩
        · have hcons : run step s (e :: es) = run step m es := by
            rw [run_cons, hm, Outcome.ok_andThen]
          rw [hcons, ih hP]
          constructor
          · intro hrest
            refine ⟨hG, ?_⟩
            intro m' hm'
            rw [hm] at hm'
            cases hm'
            exact hrest
          · intro hguarded; exact hguarded.2 m hm
        · have hcons : run step s (e :: es) = .trap t m := by
            rw [run_cons, hm, Outcome.trap_andThen]
          rw [hcons]
          constructor
          · intro _
            refine ⟨hG, ?_⟩
            intro m' hm'
            rw [hm] at hm'
            cases hm'
          · intro _ t' s' h
            cases h
            exact hok
      · obtain ⟨t, m, hm, hbadt⟩ := hbad s e hs hG
        have hcons : run step s (e :: es) = .trap t m := by
          rw [run_cons, hm, Outcome.trap_andThen]
        constructor
        · intro h; exact absurd hbadt (h t m hcons)
        · intro hguarded; exact absurd hguarded.1 hG

/-- **Exact invariance with a history**: where a step keeps the relation `Q`
    between what has happened and the state exactly under its guard, `Q` holds
    of every state of a run exactly when the run is guarded. -/
theorem history_iff_guarded {P : σ → Prop} {Q : τ → σ → Prop} {g : τ → ι → τ}
    (hstep : ∀ s e s', P s → step s e = .ok s' → P s')
    (hiff : ∀ a s e, P s → Q a s → (G s e ↔ ∀ s', step s e = .ok s' → Q (g a e) s'))
    {a : τ} {s : σ} {es : List ι} (hs : P s) (hq : Q a s) :
    (∀ pre post m, es = pre ++ post → run step s pre = .ok m → Q (pre.foldl g a) m) ↔
      Guarded step G s es := by
  induction es generalizing a s with
  | nil =>
      constructor
      · intro _; trivial
      · intro _ pre post m hes hrun
        obtain ⟨rfl, -⟩ := List.append_eq_nil_iff.mp hes.symm
        cases hrun
        exact hq
  | cons e es ih =>
      constructor
      · -- the first event alone is a prefix: its guard holds, and the rest goes on
        intro h
        have hnext : ∀ s', step s e = .ok s' → Q (g a e) s' := by
          intro s' hs'
          exact h [e] es s' rfl (run_cons_ok.mpr ⟨s', hs', rfl⟩)
        refine ⟨(hiff a s e hs hq).mpr hnext, ?_⟩
        intro s' hs'
        refine (ih (hstep s e s' hs hs') (hnext s' hs')).mp ?_
        intro pre post m hes hrun
        refine h (e :: pre) post m ?_ (run_cons_ok.mpr ⟨s', hs', hrun⟩)
        rw [hes, List.cons_append]
      · rintro ⟨hG, hrest⟩ pre post m hes hrun
        cases pre with
        | nil =>
            cases hrun
            exact hq
        | cons p pre =>
            rw [List.cons_append, List.cons.injEq] at hes
            obtain ⟨rfl, hes⟩ := hes
            obtain ⟨s', hs', hpre⟩ := run_cons_ok.mp hrun
            have hq' := (hiff a s e hs hq).mp hG s' hs'
            exact (ih (hstep s e s' hs hs') hq').mpr (hrest s' hs') pre post m hes hpre

/-- **Exact invariance**: where a step keeps `Q` exactly under its guard, `Q`
    holds of every state of a run exactly when the run is guarded. -/
theorem always_iff_guarded {P Q : σ → Prop}
    (hstep : ∀ s e s', P s → step s e = .ok s' → P s')
    (hiff : ∀ s e, P s → Q s → (G s e ↔ ∀ s', step s e = .ok s' → Q s'))
    {s : σ} {es : List ι} (hs : P s) (hq : Q s) :
    (∀ pre post m, es = pre ++ post → run step s pre = .ok m → Q m) ↔ Guarded step G s es :=
  history_iff_guarded (Q := fun (_ : Unit) => Q) (g := fun a _ => a) (a := ()) hstep
    (fun _ => hiff) hs hq

/-! ## What a run shows to an observer -/

/-- The observations `f` makes of the events of a run, each in the state its
    event is reached in. -/
def observed (step : σ → ι → Outcome ε σ) (f : σ → ι → Option β) : σ → List ι → List β
  | _, [] => []
  | s, e :: es =>
      (f s e).toList ++
        match step s e with
        | .ok s' => observed step f s' es
        | .trap _ _ => []

/-- Observations of a longer run: those of its first part, then those of the
    rest. -/
theorem observed_append {f : σ → ι → Option β} {s m : σ} {es fs : List ι}
    (h : run step s es = .ok m) :
    observed step f s (es ++ fs) = observed step f s es ++ observed step f m fs := by
  induction es generalizing s with
  | nil =>
      cases h
      rfl
  | cons e es ih =>
      obtain ⟨a, ha, hrest⟩ := run_cons_ok.mp h
      show (f s e).toList ++ (match step s e with
          | .ok s' => observed step f s' (es ++ fs)
          | .trap _ _ => [])
        = ((f s e).toList ++ (match step s e with
          | .ok s' => observed step f s' es
          | .trap _ _ => [])) ++ observed step f m fs
      rw [ha, List.append_assoc]
      show (f s e).toList ++ observed step f a (es ++ fs)
        = (f s e).toList ++ (observed step f a es ++ observed step f m fs)
      rw [ih hrest]

/-- **The history rule**: an invariant that speaks about the observations made
    so far holds of those a run of events of kind `F` made. -/
theorem run_observes {f : σ → ι → Option β} {R : List β → σ → Prop} {F : ι → Prop}
    (hstep : ∀ seen s e s', F e → R seen s → step s e = .ok s' →
      R (seen ++ (f s e).toList) s')
    {seen : List β} {s s' : σ} {es : List ι} (hF : ∀ e ∈ es, F e) (hs : R seen s)
    (h : run step s es = .ok s') : R (seen ++ observed step f s es) s' := by
  induction es generalizing seen s with
  | nil =>
      cases h
      rw [observed, List.append_nil]
      exact hs
  | cons e es ih =>
      obtain ⟨m, hm, hrest⟩ := run_cons_ok.mp h
      have hsnoc := hstep seen s e m (hF e List.mem_cons_self) hs hm
      have hcons : observed step f s (e :: es) = (f s e).toList ++ observed step f m es := by
        rw [observed, hm]
      rw [hcons, ← List.append_assoc]
      exact ih (fun e' he' => hF e' (List.mem_cons_of_mem _ he')) hsnoc hrest

/-- **The history rule for every end of a run**: where each step takes a
    relation to the observations made so far into `T`, and a step that returns
    is in `T` only with that relation kept, every run ends in `T`. -/
theorem run_observes_end {f : σ → ι → Option β} {R : List β → σ → Prop}
    {T : List β → Outcome ε σ → Prop} {F : ι → Prop}
    (hstep : ∀ seen s e, F e → R seen s → T (seen ++ (f s e).toList) (step s e))
    (hok : ∀ seen s, T seen (.ok s) ↔ R seen s)
    {seen : List β} {s : σ} {es : List ι} (hF : ∀ e ∈ es, F e) (hs : R seen s) :
    T (seen ++ observed step f s es) (run step s es) := by
  induction es generalizing seen s with
  | nil =>
      rw [observed, List.append_nil]
      exact (hok seen s).mpr hs
  | cons e es ih =>
      have hnext := hstep seen s e (hF e List.mem_cons_self) hs
      rw [observed, run_cons]
      cases ho : step s e with
      | ok m =>
          rw [ho, hok] at hnext
          dsimp only
          rw [← List.append_assoc]
          exact ih (fun e' he' => hF e' (List.mem_cons_of_mem _ he')) hnext
      | trap t m =>
          rw [ho] at hnext
          dsimp only
          rw [List.append_nil]
          exact hnext

/-- The history rule for an invariant that each step keeps even where it
    traps. -/
theorem run_observes_state {f : σ → ι → Option β} {R : List β → σ → Prop} {F : ι → Prop}
    (hstep : ∀ seen s e, F e → R seen s → R (seen ++ (f s e).toList) (step s e).state)
    {seen : List β} {s : σ} {es : List ι} (hF : ∀ e ∈ es, F e) (hs : R seen s) :
    R (seen ++ observed step f s es) (run step s es).state :=
  run_observes_end (T := fun seen o => R seen o.state) hstep (fun _ _ => Iff.rfl) hF hs

/-- Every observation of a run is made of one of its events. -/
theorem mem_observed {f : σ → ι → Option β} {s : σ} {es : List ι} {b : β}
    (h : b ∈ observed step f s es) : ∃ e ∈ es, ∃ m, f m e = some b := by
  induction es generalizing s with
  | nil => cases h
  | cons e es ih =>
      rw [observed] at h
      rcases List.mem_append.mp h with hfirst | hrest
      · exact ⟨e, List.mem_cons_self, s, Option.mem_toList.mp hfirst⟩
      · cases ho : step s e with
        | ok m =>
            rw [ho] at hrest
            obtain ⟨e', he', hb⟩ := ih hrest
            exact ⟨e', List.mem_cons_of_mem _ he', hb⟩
        | trap t m =>
            rw [ho] at hrest
            cases hrest

/-- An observation made in two halves is the second one of what the first has
    seen. -/
theorem observed_bind {γ : Type} {f : σ → ι → Option β} (g : β → Option γ) (s : σ) (es : List ι) :
    observed step (fun s e => (f s e).bind g) s es = (observed step f s es).filterMap g := by
  induction es generalizing s with
  | nil => rfl
  | cons e es ih =>
      have hfirst : ((f s e).bind g).toList = (f s e).toList.filterMap g := by
        cases f s e with
        | none => rfl
        | some b =>
            rw [Option.bind_some, Option.toList_some, List.filterMap_cons, List.filterMap_nil]
            cases g b with
            | none => rfl
            | some c => rfl
      rw [observed, observed, List.filterMap_append, hfirst]
      cases step s e with
      | ok m =>
          dsimp only
          rw [ih m]
      | trap t m => rfl

/-- One more event is one more observation, whether or not it returns. -/
theorem observed_snoc {f : σ → ι → Option β} {s m : σ} {es : List ι}
    (h : run step s es = .ok m) (e : ι) :
    observed step f s (es ++ [e]) = observed step f s es ++ (f m e).toList := by
  rw [observed_append h]
  show observed step f s es ++ ((f m e).toList ++ (match step m e with
      | .ok _ => []
      | .trap _ _ => [])) = _
  cases step m e with
  | ok m' => rw [List.append_nil]
  | trap t m' => rw [List.append_nil]

/-! ## A machine inside another one -/

section Hosting

variable {κ : Type} {inner : τ → κ → Outcome ε τ} {π : σ → τ} {f : σ → ι → Option κ}

/-- What an outer event with the outcome `o` is to the inner machine, whose
    state `π` reads off the outer one: an event of its own, and then they end
    alike; or none, and then returning leaves the inner state as it was. -/
def Acts (inner : τ → κ → Outcome ε τ) (π : σ → τ) (s : σ) (o : Outcome ε σ) :
    Option κ → Prop
  | none => ∀ s', o = .ok s' → π s' = π s
  | some k => inner (π s) k = o.map π

/-- The machine `step` hosts `inner`, whose event an outer event is by `f`. -/
def Hosts (step : σ → ι → Outcome ε σ) (inner : τ → κ → Outcome ε τ) (π : σ → τ)
    (f : σ → ι → Option κ) : Prop :=
  ∀ s e, Acts inner π s (step s e) (f s e)

/-- **The hosting rule**: a run that returns is a run of the inner machine on
    the events that are its own. -/
theorem run_hosted (h : Hosts step inner π f) {s s' : σ} {es : List ι}
    (hrun : run step s es = .ok s') : run inner (π s) (observed step f s es) = .ok (π s') := by
  induction es generalizing s with
  | nil =>
      cases hrun
      rfl
  | cons e es ih =>
      obtain ⟨m, hm, hrest⟩ := run_cons_ok.mp hrun
      have hinner := ih hrest
      have hacts := h s e
      rw [observed, hm]
      dsimp only
      cases hf : f s e with
      | none =>
          rw [hf] at hacts
          rw [Option.toList_none, List.nil_append, ← hacts m hm]
          exact hinner
      | some k =>
          rw [hf, hm] at hacts
          exact run_cons_ok.mpr ⟨π m, hacts, hinner⟩

/-- A run that traps at `e` is a run of the inner machine up to there, which
    traps in the same way where the event is its own, and otherwise returns. -/
theorem run_hosted_trap (h : Hosts step inner π f) {s m s' : σ} {e : ι} {t : ε} {pre : List ι}
    (hpre : run step s pre = .ok m) (hstep : step m e = .trap t s') (post : List ι) :
    run inner (π s) (observed step f s (pre ++ e :: post))
      = if (f m e).isSome then .trap t (π s') else .ok (π m) := by
  have hseen : observed step f m (e :: post) = (f m e).toList := by
    rw [observed, hstep]
    exact List.append_nil _
  have hacts := h m e
  rw [observed_append hpre, hseen, run_append, run_hosted h hpre, Outcome.ok_andThen]
  cases hf : f m e with
  | none => rfl
  | some k =>
      rw [hf, hstep] at hacts
      rw [Option.toList_some, run_cons, show inner (π m) k = .trap t (π s') from hacts]
      rfl

/-- What the inner machine keeps, the outer one keeps of it. -/
theorem Hosts.keeps (h : Hosts step inner π f) {Q : τ → Prop}
    (hinner : ∀ s k s', Q s → inner s k = .ok s' → Q s') {s s' : σ} {e : ι} (hs : Q (π s))
    (hstep : step s e = .ok s') : Q (π s') := by
  have hacts := h s e
  cases hf : f s e with
  | none =>
      rw [hf] at hacts
      rw [hacts s' hstep]
      exact hs
  | some k =>
      rw [hf, hstep] at hacts
      exact hinner (π s) k (π s') hs hacts

/-- An event of the inner machine ends as it does there. -/
theorem Hosts.agrees (h : Hosts step inner π f) {s : σ} {e : ι} {k : κ} (hf : f s e = some k)
    {Q : σ → Prop} (hQ : ∀ s', step s e = .ok s' → Q s') :
    (run step s [e]).Agree (fun s' t => π s' = t ∧ Q s') (fun s' t => π s' = t)
      (inner (π s) k) := by
  have hacts := h s e
  rw [hf] at hacts
  rw [show inner (π s) k = (step s e).map π from hacts, run_cons]
  cases ho : step s e with
  | ok s' => exact ⟨rfl, hQ s' ho⟩
  | trap t s' => exact ⟨rfl, rfl⟩

/-- An event of the inner machine returns where it does there. -/
theorem Hosts.returns_iff (h : Hosts step inner π f) {s : σ} {e : ι} {k : κ}
    (hf : f s e = some k) : (∃ s', step s e = .ok s') ↔ ∃ m, inner (π s) k = .ok m := by
  have hacts := h s e
  rw [hf] at hacts
  rw [show inner (π s) k = (step s e).map π from hacts]
  cases step s e with
  | ok s' => exact ⟨fun _ => ⟨_, rfl⟩, fun _ => ⟨_, rfl⟩⟩
  | trap t s' =>
      constructor
      · rintro ⟨m, hm⟩
        cases hm
      · rintro ⟨m, hm⟩
        cases hm

end Hosting

end TrapRun
