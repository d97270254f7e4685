import Mathlib.Order.Defs.Unbundled
import Mathlib.Logic.Function.Basic
import OciHelper.Lib.StepRun

/-!
# Procedures that call a shared service

* `Proc` : a procedure, call after call; `Answer` : how a call ends, with its answer lost or not;
* `Upholds A R G Q x s` : in `s`, with the others moving within `R` and answers as in `A`, every call of `x` moves the
  service within `G`, and `x` ends with `Q`; `upholds_bind`, `upholds_invoke`, `upholds_attempt` : the rules;
* `Procs` : procedures over one service; `Procs.run_upholds` : what each of them upholds holds in every interleaving.
-/

namespace Calls
open StepRun

/-- How a call ends: `lost` has taken effect, but the caller does not hear of it. -/
inductive Answer
  | ok
  | refused
  | lost
  deriving DecidableEq, Repr

variable {σ ρ α β ε ι : Type}

def Answer.apply (effect : σ → σ) (s : σ) : Answer → σ
  | .refused => s
  | _ => effect s

/-- The state the caller is told about: the one before the effect. -/
def Answer.reply (s : σ) : Answer → Option σ
  | .ok => some s
  | _ => none

inductive Proc (σ ρ α : Type)
  | done (r : Except ρ α)
  | call (effect : σ → σ) (next : Option σ → Proc σ ρ α)

namespace Proc

def bind (x : Proc σ ρ α) (f : α → Proc σ ρ β) : Proc σ ρ β :=
  match x with
  | done (.ok v) => f v
  | done (.error e) => done (.error e)
  | call effect next => call effect fun r => (next r).bind f

instance : Monad (Proc σ ρ) where
  pure v := done (.ok v)
  bind := bind

/-- One call; `result` reads the state before the effect. -/
def invoke (effect : σ → σ) (result : σ → Except ρ α) (e : ρ) : Proc σ ρ α :=
  call effect fun r => done (r.elim (.error e) result)

/-- A call that changes nothing. -/
def ask (result : σ → Except ρ α) (e : ρ) : Proc σ ρ α := invoke id result e

def send (effect : σ → σ) (e : ρ) : Proc σ ρ Unit := invoke effect (fun _ => .ok ()) e

/-- The error of `x` is not passed on. -/
def attempt (x : Proc σ ρ α) : Proc σ ρ (Option α) :=
  match x with
  | done (.ok v) => done (.ok (some v))
  | done (.error _) => done (.ok none)
  | call effect next => call effect fun r => (next r).attempt

def result? : Proc σ ρ α → Option (Except ρ α)
  | done r => some r
  | call _ _ => none

theorem eq_done_of_result? {x : Proc σ ρ α} {r : Except ρ α} (h : x.result? = some r) : x = done r := by
  cases x with
  | done r' => exact congrArg done (Option.some.inj h)
  | call effect next => cases h

end Proc

/-! ## Specifications -/

def Upholds (A : Answer → Prop) (R G : σ → σ → Prop) (Q : Except ρ α → σ → Prop) : Proc σ ρ α → σ → Prop
  | .done r, s => ∀ s', R s s' → Q r s'
  | .call effect next, s => ∀ s', R s s' → ∀ a, A a →
      G s' (a.apply effect s') ∧ Upholds A R G Q (next (a.reply s')) (a.apply effect s')

section
variable {A : Answer → Prop} {R G : σ → σ → Prop} {Q Q' : Except ρ α → σ → Prop} {s s' : σ}

theorem Upholds.imp (hQ : ∀ r s, Q r s → Q' r s) : ∀ {x : Proc σ ρ α} {s : σ},
    Upholds A R G Q x s → Upholds A R G Q' x s := by
  intro x
  induction x with
  | done r => exact fun h s' hs' => hQ r s' (h s' hs')
  | call effect next ih =>
    intro s h s' hs' a ha
    obtain ⟨hG, hnext⟩ := h s' hs' a ha
    exact ⟨hG, ih _ hnext⟩

theorem Upholds.later [IsPreorder σ R] {x : Proc σ ρ α} (h : Upholds A R G Q x s) (hs : R s s') :
    Upholds A R G Q x s' := by
  cases x with
  | done r => exact fun t ht => h t (trans_of R hs ht)
  | call effect next => exact fun t ht => h t (trans_of R hs ht)

theorem upholds_done {r : Except ρ α} (h : ∀ s', R s s' → Q r s') : Upholds A R G Q (.done r) s := h

theorem upholds_pure {v : α} (h : ∀ s', R s s' → Q (.ok v) s') : Upholds A R G Q (pure v : Proc σ ρ α) s := h

/-- **Sequence rule.** -/
theorem upholds_bind [IsPreorder σ R] {Q : Except ρ β → σ → Prop} {x : Proc σ ρ α} {f : α → Proc σ ρ β} : ∀ {s : σ},
    Upholds A R G (fun r s' => match r with
      | .ok v => Upholds A R G Q (f v) s'
      | .error e => Upholds A R G Q (.done (.error e)) s') x s →
    Upholds A R G Q (x >>= f) s := by
  induction x with
  | done r =>
    intro s h
    cases r with
    | ok v => exact h s (refl_of R s)
    | error e => exact h s (refl_of R s)
  | call effect next ih =>
    intro s h s' hs' a ha
    obtain ⟨hG, hnext⟩ := h s' hs' a ha
    exact ⟨hG, ih _ hnext⟩

theorem Upholds.reached [IsPreorder σ R] {x : Proc σ ρ α} : ∀ {s : σ}, Upholds A R R Q x s →
    Upholds A R R (fun r t => R s t ∧ Q r t) x s := by
  induction x with
  | done r => exact fun h t ht => ⟨ht, h t ht⟩
  | call effect next ih =>
    intro s h s' hs' a ha
    obtain ⟨hG, hnext⟩ := h s' hs' a ha
    exact ⟨hG, (ih _ hnext).imp fun r t ht => ⟨trans_of R hs' (trans_of R hG ht.1), ht.2⟩⟩

/-- **Frame rule.** What the moves of the service and the calls keep, a procedure keeps. -/
theorem Upholds.frame {P : σ → Prop} (hR : ∀ s t, P s → R s t → P t) (hG : ∀ s t, P s → G s t → P t)
    {x : Proc σ ρ α} : ∀ {s : σ}, P s → Upholds A R G Q x s → Upholds A R G (fun r t => P t ∧ Q r t) x s := by
  induction x with
  | done r => exact fun hs h t ht => ⟨hR _ t hs ht, h t ht⟩
  | call effect next ih =>
    intro s hs h s' hs' a ha
    obtain ⟨hown, hnext⟩ := h s' hs' a ha
    exact ⟨hown, ih _ (hG s' _ (hR s s' hs hs') hown) hnext⟩

/-- Sequence rule for procedures that keep to what they rely on. -/
theorem upholds_seq [IsPreorder σ R] {Q : Except ρ β → σ → Prop} {P : Except ρ α → σ → Prop} {x : Proc σ ρ α}
    {f : α → Proc σ ρ β} (hx : Upholds A R R P x s) (hf : ∀ v s', R s s' → P (.ok v) s' → Upholds A R R Q (f v) s')
    (he : ∀ e s', R s s' → P (.error e) s' → ∀ t, R s' t → Q (.error e) t) : Upholds A R R Q (x >>= f) s := by
  refine upholds_bind (hx.reached.imp fun r s' h => ?_)
  cases r with
  | ok v => exact hf v s' h.1 h.2
  | error e => exact he e s' h.1 h.2

/-- **Call rule.** After a successful call the caller knows the state it was made in. -/
theorem upholds_invoke {effect : σ → σ} {result : σ → Except ρ α} {e : ρ}
    (h : ∀ s', R s s' → (∀ a, A a → G s' (a.apply effect s')) ∧
      (A .ok → ∀ t, R (effect s') t → Q (result s') t) ∧
      ∀ a, A a → a ≠ .ok → ∀ t, R (a.apply effect s') t → Q (.error e) t) :
    Upholds A R G Q (Proc.invoke effect result e) s := by
  intro s' hs' a ha
  obtain ⟨hG, hok, herror⟩ := h s' hs'
  refine ⟨hG a ha, ?_⟩
  cases a with
  | ok => exact fun t ht => hok ha t ht
  | refused => exact fun t ht => herror .refused ha (by decide) t ht
  | lost => exact fun t ht => herror .lost ha (by decide) t ht

theorem apply_id (a : Answer) (s : σ) : a.apply id s = s := by cases a <;> rfl

/-- A call that changes nothing is within every guarantee. -/
theorem upholds_ask [IsPreorder σ R] [IsPreorder σ G] {result : σ → Except ρ α} {e : ρ}
    (hok : A .ok → ∀ s', R s s' → ∀ t, R s' t → Q (result s') t)
    (herror : ∀ a, A a → a ≠ .ok → ∀ t, R s t → Q (.error e) t) : Upholds A R G Q (Proc.ask result e) s := by
  refine upholds_invoke fun s' hs' => ⟨fun a _ => ?_, fun ha t ht => hok ha s' hs' t ht, fun a ha hne t ht => ?_⟩
  · rw [apply_id]
    exact refl_of G s'
  · rw [apply_id] at ht
    exact herror a ha hne t (trans_of R hs' ht)

theorem upholds_send {effect : σ → σ} {e : ρ} {Q : Except ρ Unit → σ → Prop}
    (h : ∀ s', R s s' → (∀ a, A a → G s' (a.apply effect s')) ∧ (A .ok → ∀ t, R (effect s') t → Q (.ok ()) t) ∧
      ∀ a, A a → a ≠ .ok → ∀ t, R (a.apply effect s') t → Q (.error e) t) :
    Upholds A R G Q (Proc.send effect e) s := upholds_invoke h

theorem upholds_attempt {Q : Except ρ (Option α) → σ → Prop} {x : Proc σ ρ α} : ∀ {s : σ},
    Upholds A R G (fun r s' => Q (.ok r.toOption) s') x s → Upholds A R G Q x.attempt s := by
  induction x with
  | done r =>
    intro s h
    cases r with
    | ok v => exact h
    | error e => exact h
  | call effect next ih =>
    intro s h s' hs' a ha
    obtain ⟨hG, hnext⟩ := h s' hs' a ha
    exact ⟨hG, ih _ hnext⟩

end

/-! ## Assertions -/

/-- Some call may fail. -/
def Faulty (A : Answer → Prop) : Prop := ∃ a, A a ∧ a ≠ .ok

/-- A result as in `Q`, or an error as in `E`. -/
def Ends (E : ρ → Prop) (Q : α → σ → Prop) : Except ρ α → σ → Prop
  | .ok v, s => Q v s
  | .error e, _ => E e

/-- A procedure that keeps to what it relies on. -/
abbrev Spec (A : Answer → Prop) (R : σ → σ → Prop) (E : ρ → Prop) (Q : α → σ → Prop) (x : Proc σ ρ α) (s : σ) : Prop :=
  Upholds A R R (Ends E Q) x s

section
variable {A : Answer → Prop} {R : σ → σ → Prop} {E : ρ → Prop} {P : α → σ → Prop} {Q : β → σ → Prop} {s : σ}

theorem spec_pure {v : α} (h : ∀ t, R s t → P v t) : Spec A R E P (pure v : Proc σ ρ α) s := h

theorem spec_error {e : ρ} (h : E e) : Spec A R E P (.done (.error e)) s := fun _ _ => h

variable [IsPreorder σ R]

theorem spec_bind {x : Proc σ ρ α} {f : α → Proc σ ρ β} (hx : Spec A R E P x s)
    (hf : ∀ v s', R s s' → P v s' → Spec A R E Q (f v) s') : Spec A R E Q (x >>= f) s :=
  upholds_seq hx hf fun _ _ _ he _ _ => he

theorem spec_imp {P' : α → σ → Prop} {x : Proc σ ρ α} (hx : Spec A R E P x s) (h : ∀ v t, R s t → P v t → P' v t) :
    Spec A R E P' x s := by
  refine hx.reached.imp fun r t hr => ?_
  cases r with
  | ok v => exact h v t hr.1 hr.2
  | error e => exact hr.2

theorem related_apply {effect : σ → σ} (h : R s (effect s)) (a : Answer) : R s (a.apply effect s) := by
  cases a with
  | ok => exact h
  | refused => exact refl_of R s
  | lost => exact h

theorem spec_invoke {effect : σ → σ} {result : σ → Except ρ α} {e : ρ} (he : Faulty A → E e)
    (h : ∀ s', R s s' → R s' (effect s') ∧ ∀ t, R (effect s') t → Ends E P (result s') t) :
    Spec A R E P (.invoke effect result e) s :=
  upholds_invoke fun s' hs' => ⟨fun a _ => related_apply (h s' hs').1 a, fun _ => (h s' hs').2,
    fun a ha hne _ _ => he ⟨a, ha, hne⟩⟩

theorem spec_ask {result : σ → Except ρ α} {e : ρ} (he : Faulty A → E e)
    (h : ∀ s', R s s' → ∀ t, R s' t → Ends E P (result s') t) : Spec A R E P (.ask result e) s :=
  upholds_ask (fun _ s' hs' t ht => h s' hs' t ht) fun a ha hne _ _ => he ⟨a, ha, hne⟩

/-- A query whose error is not passed on. -/
theorem spec_attempt_ask {result : σ → Except ρ α} {e : ρ} {P : Option α → σ → Prop}
    (hok : ∀ s', R s s' → ∀ t, R s' t → P (result s').toOption t) (hnone : Faulty A → ∀ t, R s t → P none t) :
    Spec A R E P (Proc.ask result e).attempt s :=
  upholds_attempt (upholds_ask (fun _ s' hs' t ht => hok s' hs' t ht) fun a ha hne t ht => hnone ⟨a, ha, hne⟩ t ht)

/-- A procedure whose error is not passed on. -/
theorem spec_attempt {E' : ρ → Prop} {P' : Option α → σ → Prop} {x : Proc σ ρ α} (hx : Spec A R E' P x s)
    (hok : ∀ v t, R s t → P v t → P' (some v) t) (hnone : ∀ t, R s t → P' none t) :
    Spec A R E P' x.attempt s := by
  refine upholds_attempt (hx.reached.imp fun r t hr => ?_)
  cases r with
  | ok v => exact hok v t hr.1 hr.2
  | error e => exact hnone t hr.1

end

/-! ## Errors that tell about the state -/

/-- A result as in `Q`, or an error as in `E`. -/
def EndsIn (E : ρ → σ → Prop) (Q : α → σ → Prop) : Except ρ α → σ → Prop
  | .ok v, s => Q v s
  | .error e, s => E e s

section
variable {A : Answer → Prop} {R G : σ → σ → Prop} {E : ρ → σ → Prop} {P : α → σ → Prop} {Q : β → σ → Prop} {s : σ}

theorem upholds_then [IsPreorder σ R] (hE : ∀ e s t, E e s → R s t → E e t) {x : Proc σ ρ α} {f : α → Proc σ ρ β}
    (hx : Upholds A R G (EndsIn E P) x s) (hf : ∀ v s', P v s' → Upholds A R G (EndsIn E Q) (f v) s') :
    Upholds A R G (EndsIn E Q) (x >>= f) s := by
  refine upholds_bind (hx.imp fun r s' hr => ?_)
  cases r with
  | ok v => exact hf v s' hr
  | error e => exact fun t ht => hE e s' t hr ht

/-- A procedure whose error is not passed on. -/
theorem upholds_try {P : Option α → σ → Prop} {x : Proc σ ρ α}
    (hx : Upholds A R G (EndsIn (fun _ => P none) fun v => P (some v)) x s) :
    Upholds A R G (EndsIn E P) x.attempt s := by
  refine upholds_attempt (hx.imp fun r t hr => ?_)
  cases r with
  | ok v => exact hr
  | error e => exact hr

end

/-! ## Many procedures -/

structure Procs (ι σ ρ α : Type) where
  state : σ
  procs : ι → Proc σ ρ α

/-- The next call of a procedure, or a move of the service. -/
inductive Event (ι ε : Type)
  | call (i : ι) (a : Answer)
  | move (e : ε)
  deriving DecidableEq, Repr

section
variable [DecidableEq ι] (move : ε → σ → σ)

def Procs.step : Step (Procs ι σ ρ α) (Event ι ε)
  | p, .call i a =>
    match p.procs i with
    | .done _ => none
    | .call effect next => some ⟨a.apply effect p.state, Function.update p.procs i (next (a.reply p.state))⟩
  | p, .move e => some { p with state := move e p.state }

/-- The answers that a run may get. -/
def Answered (A : Answer → Prop) : Event ι ε → Prop
  | .call _ a => A a
  | .move _ => True

variable {move} {A : Answer → Prop} {R G : ι → σ → σ → Prop} {Q : ι → Except ρ α → σ → Prop}
  {p p' : Procs ι σ ρ α} {e : Event ι ε}

theorem Procs.step_call {i : ι} {a : Answer} (h : Procs.step move p (.call i a) = some p') :
    ∃ effect next, p.procs i = .call effect next ∧ p'.state = a.apply effect p.state ∧
      p'.procs = Function.update p.procs i (next (a.reply p.state)) := by
  cases hi : p.procs i with
  | done r => simp only [Procs.step, hi, reduceCtorEq] at h
  | call effect next =>
    simp only [Procs.step, hi, Option.some.injEq] at h
    obtain rfl := h
    exact ⟨effect, next, rfl, rfl, rfl⟩

variable [∀ i, IsPreorder σ (R i)] (hothers : ∀ i j, i ≠ j → ∀ s s', G i s s' → R j s s')
  (hmoves : ∀ e s i, R i s (move e s))
include hothers hmoves

/-- One step. -/
theorem Procs.step_upholds (hp : ∀ i, Upholds A (R i) (G i) (Q i) (p.procs i) p.state) (ha : Answered A e)
    (h : Procs.step move p e = some p') : ∀ i, Upholds A (R i) (G i) (Q i) (p'.procs i) p'.state := by
  intro j
  cases e with
  | call i a =>
    obtain ⟨effect, next, hi, hstate, hprocs⟩ := Procs.step_call h
    have hown := hp i
    rw [hi] at hown
    obtain ⟨hG, hnext⟩ := hown p.state (refl_of (R i) _) a ha
    rw [hstate, hprocs]
    by_cases hj : j = i
    · subst hj
      rw [Function.update_self]
      exact hnext
    · rw [Function.update_of_ne hj]
      exact (hp j).later (hothers i j (Ne.symm hj) _ _ hG)
  | move e =>
    cases h
    exact (hp j).later (hmoves e p.state j)

/-- **Every interleaving.** -/
theorem Procs.run_upholds {es : List (Event ι ε)} (h : Run (Procs.step move) (fun _ => Answered A) p es p')
    (hp : ∀ i, Upholds A (R i) (G i) (Q i) (p.procs i) p.state) :
    ∀ i, Upholds A (R i) (G i) (Q i) (p'.procs i) p'.state := by
  refine h.invariant (I := fun p => ∀ i, Upholds A (R i) (G i) (Q i) (p.procs i) p.state) ?_ hp
  intro q e q' ha hq hs
  exact Procs.step_upholds hothers hmoves hq ha hs

/-- A procedure that has ended has ended with what it promises. -/
theorem Procs.run_ended {es : List (Event ι ε)} (h : Run (Procs.step move) (fun _ => Answered A) p es p')
    (hp : ∀ i, Upholds A (R i) (G i) (Q i) (p.procs i) p.state) {i : ι} {r : Except ρ α} (hi : p'.procs i = .done r) :
    Q i r p'.state := by
  have hend := Procs.run_upholds hothers hmoves h hp i
  rw [hi] at hend
  exact hend p'.state (refl_of (R i) _)

/-- What every guarantee and every move of the service are within, a run is within. -/
theorem Procs.run_within {W : σ → σ → Prop} [IsPreorder σ W] (hG : ∀ i s s', G i s s' → W s s')
    (hW : ∀ e s, W s (move e s)) {es : List (Event ι ε)} (h : Run (Procs.step move) (fun _ => Answered A) p es p')
    (hp : ∀ i, Upholds A (R i) (G i) (Q i) (p.procs i) p.state) : W p.state p'.state := by
  induction h with
  | nil p => exact refl_of W _
  | @cons p p₁ p' e es ha hs hrun ih =>
    have hp₁ := Procs.step_upholds hothers hmoves hp ha hs
    refine trans_of W ?_ (ih hp₁)
    cases e with
    | call i a =>
      obtain ⟨effect, next, hi, hstate, -⟩ := Procs.step_call hs
      have hown := hp i
      rw [hi] at hown
      rw [hstate]
      exact hG i _ _ (hown p.state (refl_of (R i) _) a ha).1
    | move e =>
      cases hs
      exact hW e p.state

end

end Calls
