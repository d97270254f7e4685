import Mathlib.Logic.Basic

/-!
# Procedures that leave a trace

* `Traced ε ρ α` : the events of a procedure, and its result or why it ended;
* `ask` : a request that ends the procedure when it fails; `compensate` : what is done when it ends;
* `poll` : ask again until the answer will do;
* `Justified` : every event has before it what is due.
-/

structure Traced (ε ρ α : Type) where
  trace : List ε
  result : Except ρ α

namespace Traced

variable {ε ρ α β σ : Type}

instance : Monad (Traced ε ρ) where
  pure a := ⟨[], .ok a⟩
  bind x f :=
    match x.result with
    | .ok a => ⟨x.trace ++ (f a).trace, (f a).result⟩
    | .error r => ⟨x.trace, .error r⟩

/-- Requests whose outcomes are not looked at. -/
def emit (es : List ε) : Traced ε ρ Unit := ⟨es, .ok ()⟩

/-- The procedure ends here unless the condition holds. -/
def require (c : Bool) (r : ρ) : Traced ε ρ Unit := ⟨[], if c then .ok () else .error r⟩

def demand (value : Option α) (r : ρ) : Traced ε ρ α := ⟨[], value.elim (.error r) .ok⟩

def ask (event : Option α → ε) (answer : Option α) (r : ρ) : Traced ε ρ α :=
  ⟨[event answer], answer.elim (.error r) .ok⟩

def perform (event : Bool → ε) (ok : Bool) (r : ρ) : Traced ε ρ Unit :=
  ⟨[event ok], if ok then .ok () else .error r⟩

/-- If the procedure ends in `x`, the events of `undo` follow. -/
def compensate (x : Traced ε ρ α) (undo : List ε) : Traced ε ρ α :=
  match x.result with
  | .ok _ => x
  | .error r => ⟨x.trace ++ undo, .error r⟩

@[simp] theorem trace_pure (a : α) : (pure a : Traced ε ρ α).trace = [] := rfl

@[simp] theorem result_pure (a : α) : (pure a : Traced ε ρ α).result = .ok a := rfl

@[simp] theorem trace_emit (es : List ε) : (emit es : Traced ε ρ Unit).trace = es := rfl

@[simp] theorem result_emit (es : List ε) : (emit es : Traced ε ρ Unit).result = .ok () := rfl

@[simp] theorem trace_require (c : Bool) (r : ρ) : (require c r : Traced ε ρ Unit).trace = [] := rfl

@[simp] theorem trace_demand (value : Option α) (r : ρ) : (demand value r : Traced ε ρ α).trace = [] := rfl

@[simp] theorem trace_ask (event : Option α → ε) (answer : Option α) (r : ρ) :
    (ask event answer r).trace = [event answer] := rfl

@[simp] theorem trace_perform (event : Bool → ε) (ok : Bool) (r : ρ) :
    (perform event ok r).trace = [event ok] := rfl

@[simp] theorem require_ok {c : Bool} {r : ρ} {u : Unit} :
    (require c r : Traced ε ρ Unit).result = .ok u ↔ c = true := by
  cases c <;> simp [require]

@[simp] theorem demand_ok {value : Option α} {r : ρ} {a : α} :
    (demand value r : Traced ε ρ α).result = .ok a ↔ value = some a := by
  cases value <;> simp [demand]

@[simp] theorem ask_ok {event : Option α → ε} {answer : Option α} {r : ρ} {a : α} :
    (ask event answer r).result = .ok a ↔ answer = some a := by
  cases answer <;> simp [ask]

@[simp] theorem perform_ok {event : Bool → ε} {ok : Bool} {r : ρ} {u : Unit} :
    (perform event ok r).result = .ok u ↔ ok = true := by
  cases ok <;> simp [perform]

variable {x : Traced ε ρ α} {f : α → Traced ε ρ β}

theorem bind_of_ok {a : α} (h : x.result = .ok a) : x >>= f = ⟨x.trace ++ (f a).trace, (f a).result⟩ := by
  simp only [bind, h]

theorem bind_of_error {r : ρ} (h : x.result = .error r) : x >>= f = ⟨x.trace, .error r⟩ := by
  simp only [bind, h]

theorem bind_ok_iff {b : β} : (x >>= f).result = .ok b ↔ ∃ a, x.result = .ok a ∧ (f a).result = .ok b := by
  cases h : x.result with
  | error r =>
    rw [bind_of_error h]
    exact iff_of_false (fun h => by cases h) fun ⟨a, ha, _⟩ => by cases ha
  | ok a =>
    rw [bind_of_ok h]
    refine ⟨fun hb => ⟨a, rfl, hb⟩, fun ⟨a', ha, hb⟩ => ?_⟩
    cases ha
    exact hb

/-- An event of `x >>= f` is one of `x`, or one of what follows its result. -/
theorem mem_trace_bind {e : ε} :
    e ∈ (x >>= f).trace ↔ e ∈ x.trace ∨ ∃ a, x.result = .ok a ∧ e ∈ (f a).trace := by
  cases h : x.result with
  | error r =>
    rw [bind_of_error h]
    exact (or_iff_left fun ⟨a, ha, _⟩ => by cases ha).symm
  | ok a =>
    rw [bind_of_ok h, List.mem_append]
    refine or_congr_right ⟨fun he => ⟨a, rfl, he⟩, fun ⟨a', ha, he⟩ => ?_⟩
    cases ha
    exact he

theorem compensate_of_ok {a : α} (h : x.result = .ok a) (undo : List ε) : x.compensate undo = x := by
  simp only [compensate, h]

theorem compensate_of_error {r : ρ} (h : x.result = .error r) (undo : List ε) :
    x.compensate undo = ⟨x.trace ++ undo, .error r⟩ := by
  simp only [compensate, h]

/-! ## Events of one kind -/

def All (P : ε → Prop) (x : Traced ε ρ α) : Prop := ∀ e ∈ x.trace, P e

variable {P : ε → Prop}

@[simp] theorem all_pure (a : α) : (pure a : Traced ε ρ α).All P ↔ True := iff_of_true (fun e he => by cases he) trivial

@[simp] theorem all_emit {es : List ε} : (emit es : Traced ε ρ Unit).All P ↔ ∀ e ∈ es, P e := Iff.rfl

@[simp] theorem all_require (c : Bool) (r : ρ) : (require c r : Traced ε ρ Unit).All P ↔ True :=
  iff_of_true (fun e he => by cases he) trivial

@[simp] theorem all_demand (value : Option α) (r : ρ) : (demand value r : Traced ε ρ α).All P ↔ True :=
  iff_of_true (fun e he => by cases he) trivial

@[simp] theorem all_ask {event : Option α → ε} {answer : Option α} {r : ρ} :
    (ask event answer r).All P ↔ P (event answer) := List.forall_mem_singleton

@[simp] theorem all_perform {event : Bool → ε} {ok : Bool} {r : ρ} : (perform event ok r).All P ↔ P (event ok) :=
  List.forall_mem_singleton

@[simp] theorem all_bind : (x >>= f).All P ↔ x.All P ∧ ∀ a, x.result = .ok a → (f a).All P := by
  unfold All
  simp only [mem_trace_bind]
  refine ⟨fun h => ⟨fun e he => h e (.inl he), fun a ha e he => h e (.inr ⟨a, ha, he⟩)⟩, ?_⟩
  rintro ⟨hx, hf⟩ e (he | ⟨a, ha, he⟩)
  · exact hx e he
  · exact hf a ha e he

/-! ## What is due before an event -/

/-- Every event of the list has its due among the events before it, those of the first list included. -/
def Justified (due : List ε → ε → Prop) : List ε → List ε → Prop
  | _, [] => True
  | h, e :: t => due h e ∧ Justified due (h ++ [e]) t

variable {due : List ε → ε → Prop}

@[simp] theorem justified_nil {h : List ε} : Justified due h [] ↔ True := Iff.rfl

@[simp] theorem justified_cons {h t : List ε} {e : ε} :
    Justified due h (e :: t) ↔ due h e ∧ Justified due (h ++ [e]) t := Iff.rfl

theorem justified_iff {t : List ε} : ∀ {h : List ε},
    Justified due h t ↔ ∀ before e after, t = before ++ e :: after → due (h ++ before) e := by
  induction t with
  | nil => exact iff_of_true trivial fun before e after h => by cases before <;> cases h
  | cons e t ih =>
    intro h
    rw [justified_cons, ih]
    constructor
    · rintro ⟨he, ht⟩ before e' after heq
      cases before with
      | nil =>
        cases heq
        rwa [List.append_nil]
      | cons d before =>
        cases heq
        have := ht before e' after rfl
        rwa [List.append_assoc, List.singleton_append] at this
    · refine fun hall => ⟨?_, fun before e' after heq => ?_⟩
      · have := hall [] e t rfl
        rwa [List.append_nil] at this
      · rw [List.append_assoc, List.singleton_append]
        exact hall (e :: before) e' after (by rw [heq, List.cons_append])

theorem justified_append {t u : List ε} : ∀ {h : List ε},
    Justified due h (t ++ u) ↔ Justified due h t ∧ Justified due (h ++ t) u := by
  induction t with
  | nil => intro h; rw [List.nil_append, List.append_nil, justified_nil, true_and]
  | cons e t ih =>
    intro h
    rw [List.cons_append, justified_cons, justified_cons, ih, and_assoc, List.append_assoc, List.singleton_append]

theorem justified_of_forall {t : List ε} (ht : ∀ e ∈ t, ∀ h, due h e) : ∀ h : List ε, Justified due h t := by
  induction t with
  | nil => exact fun _ => trivial
  | cons e t ih =>
    exact fun h => ⟨ht e (List.mem_cons_self ..) h, ih (fun e' he' => ht e' (List.mem_cons_of_mem _ he')) _⟩

theorem justified_bind {h : List ε} :
    Justified due h (x >>= f).trace ↔
      Justified due h x.trace ∧ ∀ a, x.result = .ok a → Justified due (h ++ x.trace) (f a).trace := by
  cases hx : x.result with
  | error r =>
    rw [bind_of_error hx]
    exact (and_iff_left fun a ha => by cases ha).symm
  | ok a =>
    rw [bind_of_ok hx]
    exact justified_append.trans (and_congr_right fun _ => ⟨fun h a' ha => by cases ha; exact h, fun h => h a rfl⟩)

theorem justified_emit_bind {h es : List ε} {f : Unit → Traced ε ρ β} :
    Justified due h (emit es >>= f).trace ↔ Justified due h es ∧ Justified due (h ++ es) (f ()).trace := by
  rw [justified_bind]
  exact and_congr_right fun _ => ⟨fun hall => hall () rfl, fun hf () _ => hf⟩

/-! ## Polling -/

/-- One answer, `none` if the request failed, and whether the wait after it is cut off. -/
structure Poll (σ : Type) where
  answer : Option σ
  cancelled : Bool

/-- What an answer means. -/
inductive Verdict (ρ : Type)
  | ready
  | wait
  | failed (r : ρ)

variable (event : Option σ → ε) (verdict : Option σ → Verdict ρ) (cutOff : ρ)

/-- Ask until the answer will do, at most once for each poll; the result says whether one did. -/
def poll : List (Poll σ) → Traced ε ρ Bool
  | [] => pure false
  | p :: ps =>
    match verdict p.answer with
    | .ready => ⟨[event p.answer], .ok true⟩
    | .failed r => ⟨[event p.answer], .error r⟩
    | .wait =>
      if p.cancelled then ⟨[event p.answer], .error cutOff⟩
      else ⟨event p.answer :: (poll ps).trace, (poll ps).result⟩

variable {event verdict cutOff}

variable {p : Poll σ} {ps : List (Poll σ)}

theorem poll_of_ready (h : verdict p.answer = .ready) :
    poll event verdict cutOff (p :: ps) = ⟨[event p.answer], .ok true⟩ := by
  simp only [poll, h]

theorem poll_of_failed {r : ρ} (h : verdict p.answer = .failed r) :
    poll event verdict cutOff (p :: ps) = ⟨[event p.answer], .error r⟩ := by
  simp only [poll, h]

theorem poll_of_cutOff (h : verdict p.answer = .wait) (hc : p.cancelled = true) :
    poll event verdict cutOff (p :: ps) = ⟨[event p.answer], .error cutOff⟩ := by
  simp only [poll, h, hc, if_true]

theorem poll_of_wait (h : verdict p.answer = .wait) (hc : p.cancelled = false) :
    poll event verdict cutOff (p :: ps) =
      ⟨event p.answer :: (poll event verdict cutOff ps).trace, (poll event verdict cutOff ps).result⟩ := by
  simp only [poll, h, hc, Bool.false_eq_true, if_false]

variable (event verdict cutOff) in
/-- Only the first poll is asked, or the loop goes on. -/
theorem poll_cons (p : Poll σ) (ps : List (Poll σ)) :
    (∃ result, poll event verdict cutOff (p :: ps) = ⟨[event p.answer], result⟩ ∧ result ≠ .ok false ∧
        (result = .ok true → verdict p.answer = .ready) ∧ ¬(verdict p.answer = .wait ∧ p.cancelled = false)) ∨
      verdict p.answer = .wait ∧ p.cancelled = false := by
  cases hv : verdict p.answer with
  | ready => exact .inl ⟨_, poll_of_ready hv, by simp, fun _ => rfl, fun h => by cases h.1⟩
  | failed r => exact .inl ⟨_, poll_of_failed hv, by simp, fun h => (by cases h), fun h => by cases h.1⟩
  | wait =>
    cases hc : p.cancelled with
    | true => exact .inl ⟨_, poll_of_cutOff hv hc, by simp, fun h => (by cases h), fun h => by cases h.2⟩
    | false => exact .inr ⟨rfl, rfl⟩

theorem mem_trace_poll {e : ε} : ∀ {ps : List (Poll σ)}, e ∈ (poll event verdict cutOff ps).trace →
    ∃ p ∈ ps, e = event p.answer := by
  intro ps
  induction ps with
  | nil => intro he; cases he
  | cons p ps ih =>
    intro he
    have hhead : e = event p.answer ∨ e ∈ (poll event verdict cutOff ps).trace := by
      obtain ⟨result, hp, -⟩ | ⟨hv, hc⟩ := poll_cons event verdict cutOff p ps
      · rw [hp] at he
        exact .inl (List.mem_singleton.mp he)
      · rw [poll_of_wait hv hc] at he
        exact List.mem_cons.mp he
    obtain rfl | he := hhead
    · exact ⟨p, List.mem_cons_self .., rfl⟩
    · obtain ⟨q, hq, rfl⟩ := ih he
      exact ⟨q, List.mem_cons_of_mem _ hq, rfl⟩

theorem all_poll {P : ε → Prop} (h : ∀ answer, P (event answer)) : (poll event verdict cutOff ps).All P := by
  intro e he
  obtain ⟨p, _, rfl⟩ := mem_trace_poll he
  exact h _

/-- An answer that will do was seen. -/
theorem poll_ready (h : (poll event verdict cutOff ps).result = .ok true) :
    ∃ p ∈ ps, verdict p.answer = .ready ∧ event p.answer ∈ (poll event verdict cutOff ps).trace := by
  induction ps with
  | nil => cases h
  | cons p ps ih =>
    obtain ⟨result, hp, -, hready, -⟩ | ⟨hv, hc⟩ := poll_cons event verdict cutOff p ps
    · rw [hp] at h ⊢
      exact ⟨p, List.mem_cons_self .., hready h, List.mem_singleton_self _⟩
    · rw [poll_of_wait hv hc] at h ⊢
      obtain ⟨q, hq, hr, hm⟩ := ih h
      exact ⟨q, List.mem_cons_of_mem _ hq, hr, List.mem_cons_of_mem _ hm⟩

/-- The polls ran out. -/
theorem poll_exhausted :
    (poll event verdict cutOff ps).result = .ok false ↔
      ∀ p ∈ ps, verdict p.answer = .wait ∧ p.cancelled = false := by
  induction ps with
  | nil => exact iff_of_true rfl fun p hp => by cases hp
  | cons p ps ih =>
    rw [List.forall_mem_cons]
    obtain ⟨result, hp, hne, -, hnot⟩ | ⟨hv, hc⟩ := poll_cons event verdict cutOff p ps
    · rw [hp]
      exact iff_of_false hne fun h => hnot h.1
    · rw [poll_of_wait hv hc, ← ih]
      exact (and_iff_right ⟨hv, hc⟩).symm

/-- The loop was left because an answer would do, or because the polls ran out. -/
theorem poll_ok {b : Bool} (h : (poll event verdict cutOff ps).result = .ok b) :
    (∃ p ∈ ps, verdict p.answer = .ready ∧ event p.answer ∈ (poll event verdict cutOff ps).trace) ∨
      ∀ p ∈ ps, verdict p.answer = .wait ∧ p.cancelled = false := by
  cases b with
  | true => exact .inl (poll_ready h)
  | false => exact .inr (poll_exhausted.mp h)

/-- Where no answer is a failure, the loop ends in one only if a wait is cut off before an answer will do. -/
theorem poll_ok_iff (hv : ∀ answer r, verdict answer ≠ .failed r) :
    (∃ b, (poll event verdict cutOff ps).result = .ok b) ↔
      ∀ (i : Nat) (p : Poll σ), ps[i]? = some p → p.cancelled = true →
        ∃ j ≤ i, ∃ q : Poll σ, ps[j]? = some q ∧ verdict q.answer = .ready := by
  induction ps with
  | nil => exact iff_of_true ⟨false, rfl⟩ fun i p hp => by cases hp
  | cons p ps ih =>
    cases hp : verdict p.answer with
    | ready =>
      rw [poll_of_ready hp]
      exact iff_of_true ⟨true, rfl⟩ fun i q _ _ => ⟨0, Nat.zero_le i, p, rfl, hp⟩
    | failed r => exact absurd hp (hv _ r)
    | wait =>
      cases hc : p.cancelled with
      | true =>
        rw [poll_of_cutOff hp hc]
        refine iff_of_false (fun ⟨b, hb⟩ => by cases hb) fun h => ?_
        obtain ⟨j, hj, q, hq, hr⟩ := h 0 p rfl hc
        obtain rfl := Nat.le_zero.mp hj
        cases hq
        rw [hp] at hr
        cases hr
      | false =>
        rw [poll_of_wait hp hc, ih]
        constructor
        · intro h i q hq hcut
          cases i with
          | zero =>
            cases hq
            rw [hc] at hcut
            cases hcut
          | succ i =>
            obtain ⟨j, hj, q', hq', hr⟩ := h i q hq hcut
            exact ⟨j + 1, Nat.succ_le_succ hj, q', hq', hr⟩
        · intro h i q hq hcut
          obtain ⟨j, hj, q', hq', hr⟩ := h (i + 1) q hq hcut
          cases j with
          | zero =>
            cases hq'
            rw [hp] at hr
            cases hr
          | succ j => exact ⟨j, Nat.le_of_succ_le_succ hj, q', hq', hr⟩

end Traced
