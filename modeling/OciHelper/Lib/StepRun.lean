import Mathlib.Data.Option.Basic

/-!
# Runs of a partial step function

* `Run step C s es t` : the events `es` lead from `s` to `t`; every event is enabled and meets the
  condition `C` in the state it is taken in;
* `exec` : the executable run of a list of events, `execWhile` : the one that tests a condition before each event;
  `Leads` : there is a run;
* `Run.invariant`, `Run.throughout` : what one step keeps, a run keeps; `Run.invariant_events` : the same for a property
  of the events so far; `Run.length_le` : a measure bounds a run;
* `Throughout` : every state on the way satisfies a predicate; `throughout_iff_of_invariant` : it does if and only
  if every event meets the condition under which one step keeps the predicate.
-/

namespace StepRun

/-- A step function: `none` where the event is not enabled. -/
abbrev Step (σ ε : Type*) := σ → ε → Option σ

variable {σ ε : Type*} {step : Step σ ε} {C : σ → ε → Prop}

/-- The events `es` lead from the first state to the last one, each meeting `C` where it is taken. -/
inductive Run (step : Step σ ε) (C : σ → ε → Prop) : σ → List ε → σ → Prop
  | nil (s : σ) : Run step C s [] s
  | cons {s s' t : σ} {e : ε} {es : List ε} (hc : C s e) (hs : step s e = some s')
      (hr : Run step C s' es t) : Run step C s (e :: es) t

/-- The condition that every event meets. -/
def Always (σ ε : Type*) : σ → ε → Prop := fun _ _ => True

/-- Run the events in order, as long as they are enabled. -/
def exec (step : Step σ ε) : σ → List ε → Option σ
  | s, [] => some s
  | s, e :: es => (step s e).bind fun s' => exec step s' es

/-- Run the events in order, as long as they are enabled and pass the test. -/
def execWhile (step : Step σ ε) (test : σ → ε → Bool) : σ → List ε → Option σ
  | s, [] => some s
  | s, e :: es => if test s e then (step s e).bind fun s' => execWhile step test s' es else none

theorem Run.append {s t u : σ} {es fs : List ε} (h₁ : Run step C s es t) (h₂ : Run step C t fs u) :
    Run step C s (es ++ fs) u := by
  induction h₁ with
  | nil s => exact h₂
  | cons hc hs _ ih => exact .cons hc hs (ih h₂)

theorem Run.single {s t : σ} {e : ε} (hc : C s e) (hs : step s e = some t) : Run step C s [e] t :=
  .cons hc hs (.nil t)

theorem run_of_exec {s t : σ} : ∀ {es : List ε}, exec step s es = some t →
    Run step (Always σ ε) s es t := by
  intro es
  induction es generalizing s with
  | nil => intro h; cases h; exact .nil _
  | cons e es ih =>
    intro h
    obtain ⟨s', hs, hr⟩ := Option.bind_eq_some_iff.mp h
    exact .cons trivial hs (ih hr)

theorem exec_of_run {s t : σ} {es : List ε} (h : Run step C s es t) : exec step s es = some t := by
  induction h with
  | nil s => rfl
  | cons _ hs _ ih => exact Option.bind_eq_some_iff.mpr ⟨_, hs, ih⟩

/-- What a run of known events leads to is read off its evaluation. -/
theorem read_of_exec {α : Type*} {f : σ → α} {v : α} {s t : σ} {es : List ε} (h : exec step s es = some t)
    (hv : (exec step s es).map f = some v) : f t = v := by
  rw [h] at hv
  exact Option.some.inj hv

/-- A test that is enough for the condition. -/
theorem run_of_execWhile {test : σ → ε → Bool} (htest : ∀ s e, test s e = true → C s e) {s t : σ} :
    ∀ {es : List ε}, execWhile step test s es = some t → Run step C s es t := by
  intro es
  induction es generalizing s with
  | nil => intro h; cases h; exact .nil _
  | cons e es ih =>
    intro h
    rw [execWhile] at h
    split at h
    · next hc =>
      obtain ⟨s', hs, hr⟩ := Option.bind_eq_some_iff.mp h
      exact .cons (htest s e hc) hs (ih hr)
    · cases h

theorem run_of_forall {C : ε → Prop} {s t : σ} {es : List ε} (hC : ∀ e ∈ es, C e)
    (h : exec step s es = some t) : Run step (fun _ => C) s es t := by
  induction es generalizing s with
  | nil => cases h; exact .nil _
  | cons e es ih =>
    obtain ⟨s', hs, hr⟩ := Option.bind_eq_some_iff.mp h
    exact .cons (hC e (List.mem_cons_self ..)) hs (ih (fun e he => hC e (List.mem_cons_of_mem _ he)) hr)

theorem Run.imp {C' : σ → ε → Prop} (hC : ∀ s e, C s e → C' s e) {s t : σ} {es : List ε} (h : Run step C s es t) :
    Run step C' s es t := by
  induction h with
  | nil s => exact .nil s
  | cons hc hs _ ih => exact .cons (hC _ _ hc) hs ih

/-- Some run leads from the first state to the second. -/
def Leads (step : Step σ ε) (s t : σ) : Prop := ∃ es, Run step (Always σ ε) s es t

theorem Leads.refl (s : σ) : Leads step s s := ⟨[], .nil s⟩

theorem Leads.trans {s t u : σ} (h₁ : Leads step s t) (h₂ : Leads step t u) : Leads step s u := by
  obtain ⟨es, h₁⟩ := h₁
  obtain ⟨fs, h₂⟩ := h₂
  exact ⟨es ++ fs, h₁.append h₂⟩

theorem Leads.of_step {s t : σ} (e : ε) (h : step s e = some t) : Leads step s t :=
  ⟨[e], .single trivial h⟩

/-- **Invariant rule.** What every step meeting `C` keeps, every run meeting `C` keeps. -/
theorem Run.invariant {I : σ → Prop}
    (hstep : ∀ s e s', C s e → I s → step s e = some s' → I s') {s t : σ} {es : List ε}
    (h : Run step C s es t) (h0 : I s) : I t := by
  induction h with
  | nil s => exact h0
  | cons hc hs _ ih => exact ih (hstep _ _ _ hc h0 hs)

/-- **Invariant rule for the events so far.** -/
theorem Run.invariant_events {I : List ε → σ → Prop}
    (hstep : ∀ fs s e s', C s e → I fs s → step s e = some s' → I (fs ++ [e]) s') {s t : σ} {es : List ε}
    (h : Run step C s es t) (h0 : I [] s) : I es t := by
  have hall : ∀ fs, I fs s → I (fs ++ es) t := by
    clear h0
    induction h with
    | nil s => exact fun fs h0 => (List.append_nil fs).symm ▸ h0
    | cons hc hs _ ih =>
      intro fs h0
      rw [List.append_cons]
      exact ih _ (hstep _ _ _ _ hc h0 hs)
  exact hall [] h0

/-- **Measure rule.** Where every step that meets `C` makes `μ` smaller, there are only so many of them. -/
theorem Run.length_le {μ : σ → Nat} (hstep : ∀ s e s', C s e → step s e = some s' → μ s' < μ s) {s t : σ} {es : List ε}
    (h : Run step C s es t) : es.length + μ t ≤ μ s := by
  induction h with
  | nil s => simp
  | cons hc hs _ ih =>
    have hlt := hstep _ _ _ hc hs
    rw [List.length_cons]
    omega

/-- Every state on the way satisfies `I`, the first and the last one too. -/
def Throughout (step : Step σ ε) (I : σ → Prop) : σ → List ε → Prop
  | s, [] => I s
  | s, e :: es => I s ∧ ∀ s', step s e = some s' → Throughout step I s' es

theorem Throughout.head {I : σ → Prop} {s : σ} {es : List ε} (h : Throughout step I s es) : I s := by
  cases es with
  | nil => exact h
  | cons e es => exact h.1

theorem Throughout.last {I : σ → Prop} : ∀ {es : List ε} {s t : σ}, Throughout step I s es →
    exec step s es = some t → I t := by
  intro es
  induction es with
  | nil => intro s t h ht; cases ht; exact h
  | cons e es ih =>
    intro s t h ht
    obtain ⟨s', hs, hr⟩ := Option.bind_eq_some_iff.mp ht
    exact ih (h.2 s' hs) hr

theorem Throughout.imp {I J : σ → Prop} (hIJ : ∀ s, I s → J s) : ∀ {es : List ε} {s : σ},
    Throughout step I s es → Throughout step J s es := by
  intro es
  induction es with
  | nil => exact fun h => hIJ _ h
  | cons e es ih => exact fun h => ⟨hIJ _ h.1, fun s' hs => ih (h.2 s' hs)⟩

/-- What every step meeting `C` keeps holds in every state on the way. -/
theorem Run.throughout {I : σ → Prop} (hstep : ∀ s e s', C s e → I s → step s e = some s' → I s') {s t : σ}
    {es : List ε} (h : Run step C s es t) (h0 : I s) : Throughout step I s es := by
  induction h with
  | nil s => exact h0
  | cons hc hs _ ih =>
    refine ⟨h0, fun s₂ hs₂ => ?_⟩
    obtain rfl := Option.some.inj (hs.symm.trans hs₂)
    exact ih (hstep _ _ _ hc h0 hs)

/-- **Exact invariant rule.** If a step keeps `I` just when it meets `C`, and a step that meets `C` keeps `J`, a run
keeps `I` throughout just when all its events meet `C`. -/
theorem throughout_iff_of_invariant {I J : σ → Prop}
    (hstep : ∀ s e s', I s → J s → step s e = some s' → (I s' ↔ C s e))
    (hkeep : ∀ s e s', I s → J s → C s e → step s e = some s' → J s') :
    ∀ {es : List ε} {s t : σ}, I s → J s → exec step s es = some t →
      (Throughout step I s es ↔ Run step C s es t) := by
  intro es
  induction es with
  | nil =>
    intro s t h0 _ h
    cases h
    exact iff_of_true h0 (.nil _)
  | cons e es ih =>
    intro s t h0 hj h
    obtain ⟨s', hs, h'⟩ := Option.bind_eq_some_iff.mp h
    constructor
    · intro hall
      have hrest := hall.2 s' hs
      have h0' := hrest.head
      have hc := (hstep s e s' h0 hj hs).mp h0'
      exact .cons hc hs ((ih h0' (hkeep s e s' h0 hj hc hs) h').mp hrest)
    · intro hrun
      cases hrun with
      | cons hc hs₁ hr =>
        refine ⟨h0, fun s₂ hs₂ => ?_⟩
        obtain rfl := Option.some.inj (hs.symm.trans hs₂)
        obtain rfl := Option.some.inj (hs.symm.trans hs₁)
        exact (ih ((hstep s e _ h0 hj hs).mpr hc) (hkeep s e _ h0 hj hc hs) h').mpr hr

theorem throughout_iff {I : σ → Prop} (hstep : ∀ s e s', I s → step s e = some s' → (I s' ↔ C s e))
    {es : List ε} {s t : σ} (h0 : I s) (h : exec step s es = some t) :
    Throughout step I s es ↔ Run step C s es t :=
  throughout_iff_of_invariant (J := fun _ => True) (fun s e s' hi _ => hstep s e s' hi)
    (fun _ _ _ _ _ _ _ => trivial) h0 trivial h

/-- The exact rule with the first state as part of the condition. -/
theorem throughout_iff_start {I J : σ → Prop}
    (hstep : ∀ s e s', I s → J s → step s e = some s' → (I s' ↔ C s e))
    (hkeep : ∀ s e s', I s → J s → C s e → step s e = some s' → J s') {es : List ε} {s t : σ} (hj : J s)
    (h : exec step s es = some t) : Throughout step I s es ↔ I s ∧ Run step C s es t := by
  constructor
  · intro hall
    exact ⟨hall.head, (throughout_iff_of_invariant hstep hkeep hall.head hj h).mp hall⟩
  · rintro ⟨hi, hr⟩
    exact (throughout_iff_of_invariant hstep hkeep hi hj h).mpr hr

end StepRun
