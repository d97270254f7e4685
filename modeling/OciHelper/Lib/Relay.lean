import Mathlib.Data.List.Basic
import Mathlib.Logic.Function.Basic
import OciHelper.Lib.StepRun

/-!
# A relay between two connections

* `Line` : one direction, from a connection to the other one, with the copier that passes on what comes in;
* `State`, `step` : both directions, and the main thread, which waits for the first read that fails, closes the
  connections and waits for the copiers;
* `run_line` : what has been passed on is what has been sent, up to a point;
* `atRest_iff` : where the program can come to rest; `work_step` : every step of it leaves less work.
-/

namespace Relay
open StepRun

inductive Side
  | left
  | right
  deriving DecidableEq, Repr

def Side.other : Side → Side
  | .left => .right
  | .right => .left

theorem Side.forall_iff {P : Side → Prop} : (∀ d, P d) ↔ P .left ∧ P .right := by
  constructor
  · exact fun h => ⟨h .left, h .right⟩
  · rintro ⟨hleft, hright⟩ (_ | _)
    · exact hleft
    · exact hright

/-- What a read and a write come to. -/
structure Conn where
  closed : Bool := false
  readFails : Bool := false
  writeFails : Bool := false
  deriving DecidableEq, Repr

/-- `writing` has an item that may have nothing to be passed on; `stopped` says whether it was a read that failed. -/
inductive Copier (β : Type)
  | reading
  | writing (item : Option β)
  | stopped (byRead : Bool)
  deriving DecidableEq, Repr

namespace Copier
variable {β : Type}

def isStopped : Copier β → Bool
  | stopped _ => true
  | _ => false

def failedRead : Copier β → Bool
  | stopped byRead => byRead
  | _ => false

end Copier

structure Line (α β : Type) where
  pending : List α := []
  taken : List α := []
  written : List β := []
  copier : Copier β := .reading

/-- A read, that fails or not, or the write of what was read. -/
def Line.step {α β : Type} (f : α → Option β) (source sink : Conn) (fails : Bool) (l : Line α β) : Option (Line α β) :=
  match l.copier, fails with
  | .reading, true => if source.closed || source.readFails then some { l with copier := .stopped true } else none
  | .reading, false =>
    if source.closed then none
    else
      match l.pending with
      | [] => none
      | x :: xs => some { l with pending := xs, taken := l.taken ++ [x], copier := .writing (f x) }
  | .writing none, false => some { l with copier := .reading }
  | .writing (some y), false =>
    if sink.closed || sink.writeFails then some { l with copier := .stopped false }
    else some { l with written := l.written ++ [y], copier := .reading }
  | _, _ => none

/-- `closing` has the connections that are still to be closed. -/
inductive Main
  | waiting
  | closing (conns : List Side)
  | ended
  deriving DecidableEq, Repr

variable {α β : Side → Type}

structure State (α β : Side → Type) where
  lines : ∀ d, Line (α d) (β d)
  conns : Side → Conn := fun _ => {}
  done : Bool := false
  cancelled : Bool := false
  main : Main := .waiting

def start : State α β := { lines := fun _ => {} }

/-- `copy` and `main` are steps of the program, the others are what the network does. -/
inductive Event (α : Side → Type)
  | copy (d : Side) (fails : Bool)
  | main
  | send (d : Side) (item : α d)
  | failRead (d : Side)
  | failWrite (d : Side)
  | cancel

def Event.isProgram : Event α → Bool
  | .copy _ _ => true
  | .main => true
  | _ => false

def State.setLine (s : State α β) (d : Side) (l : Line (α d) (β d)) : State α β :=
  { s with lines := Function.update s.lines d l }

def State.setConn (s : State α β) (d : Side) (c : Conn) : State α β :=
  { s with conns := Function.update s.conns d c }

/-- What comes in on a side. -/
def sends (d : Side) : List (Event α) → List (α d)
  | [] => []
  | .send c item :: es => (if h : c = d then [h ▸ item] else []) ++ sends d es
  | _ :: es => sends d es

section
variable (encode : ∀ d, α d → Option (β d)) (first : Side)

/-- A failed read is told to the main thread. -/
def copyStep (s : State α β) (d : Side) (fails : Bool) : Option (State α β) :=
  ((s.lines d).step (encode d) (s.conns d) (s.conns d.other) fails).map fun l =>
    { s.setLine d l with done := s.done || l.copier.failedRead }

def mainStep (s : State α β) : Option (State α β) :=
  match s.main with
  | .waiting => if s.done || s.cancelled then some { s with main := .closing [first, first.other] } else none
  | .closing (d :: ds) => some { s.setConn d { s.conns d with closed := true } with main := .closing ds }
  | .closing [] =>
    if (s.lines .left).copier.isStopped && (s.lines .right).copier.isStopped then some { s with main := .ended }
    else none
  | .ended => none

def step : Step (State α β) (Event α)
  | s, .copy d fails => copyStep encode s d fails
  | s, .main => mainStep first s
  | s, .send d item => some (s.setLine d { s.lines d with pending := (s.lines d).pending ++ [item] })
  | s, .failRead d => some (s.setConn d { s.conns d with readFails := true })
  | s, .failWrite d => some (s.setConn d { s.conns d with writeFails := true })
  | s, .cancel => some { s with cancelled := true }

end

/-! ## One line -/

/-- What was taken has been written, but for the item that is being written or that a write failed on. -/
def Line.Faithful {α β : Type} (f : α → Option β) (l : Line α β) : Prop :=
  match l.copier with
  | .reading => l.written = l.taken.filterMap f
  | .writing item => l.written ++ item.toList = l.taken.filterMap f
  | .stopped _ => l.written <+: l.taken.filterMap f

/-- How many steps a copier can take. -/
def Line.work {α β : Type} (l : Line α β) : Nat :=
  2 * l.pending.length + match l.copier with
    | .reading => 1
    | .writing _ => 2
    | .stopped _ => 0

namespace Line
variable {α β : Type} {f : α → Option β} {source sink : Conn} {fails : Bool} {l l' : Line α β}

theorem Faithful.written_initial (h : l.Faithful f) : l.written <+: l.taken.filterMap f := by
  unfold Faithful at h
  split at h
  · exact h ▸ List.prefix_rfl
  · exact h ▸ List.prefix_append _ _
  · exact h

/-- What a step of a copier can be. -/
theorem step_cases (h : l.step f source sink fails = some l') :
    (l.copier = .reading ∧ (source.closed || source.readFails) ∧ l' = { l with copier := .stopped true }) ∨
    (l.copier = .reading ∧ source.closed = false ∧ ∃ x xs, l.pending = x :: xs ∧
      l' = { l with pending := xs, taken := l.taken ++ [x], copier := .writing (f x) }) ∨
    (l.copier = .writing none ∧ l' = { l with copier := .reading }) ∨
    (∃ y, l.copier = .writing (some y) ∧ (sink.closed || sink.writeFails) ∧ l' = { l with copier := .stopped false }) ∨
    (∃ y, l.copier = .writing (some y) ∧ (sink.closed || sink.writeFails) = false ∧
      l' = { l with written := l.written ++ [y], copier := .reading }) := by
  unfold step at h
  split at h
  · next hc =>
    split at h
    · next hfails => exact .inl ⟨hc, hfails, (Option.some.inj h).symm⟩
    · cases h
  · next hc =>
    split at h
    · cases h
    · next hopen =>
      split at h
      · cases h
      · next x xs hpending =>
        exact .inr (.inl ⟨hc, Bool.eq_false_iff.mpr hopen, x, xs, hpending, (Option.some.inj h).symm⟩)
  · next hc => exact .inr (.inr (.inl ⟨hc, (Option.some.inj h).symm⟩))
  · next y hc =>
    split at h
    · next hfails => exact .inr (.inr (.inr (.inl ⟨y, hc, hfails, (Option.some.inj h).symm⟩)))
    · next hopen => exact .inr (.inr (.inr (.inr ⟨y, hc, Bool.eq_false_iff.mpr hopen, (Option.some.inj h).symm⟩)))
  · cases h

theorem step_faithful (hl : l.Faithful f) (h : l.step f source sink fails = some l') :
    l'.Faithful f ∧ l'.taken ++ l'.pending = l.taken ++ l.pending := by
  obtain ⟨-, -, rfl⟩ | ⟨hc, -, x, xs, hpending, rfl⟩ | ⟨hc, rfl⟩ | ⟨y, -, -, rfl⟩ | ⟨y, hc, -, rfl⟩ := step_cases h
  · exact ⟨hl.written_initial, rfl⟩
  · refine ⟨?_, by rw [hpending, List.append_assoc, List.singleton_append]⟩
    simp only [Faithful, hc] at hl
    simp only [Faithful, hl, List.filterMap_append]
    cases hx : f x <;> simp [hx]
  · refine ⟨?_, rfl⟩
    simp only [Faithful, hc, Option.toList_none, List.append_nil] at hl
    exact hl
  · exact ⟨hl.written_initial, rfl⟩
  · refine ⟨?_, rfl⟩
    simp only [Faithful, hc, Option.toList_some] at hl
    exact hl

theorem step_work (h : l.step f source sink fails = some l') : l'.work < l.work := by
  obtain ⟨hc, -, rfl⟩ | ⟨hc, -, x, xs, hpending, rfl⟩ | ⟨hc, rfl⟩ | ⟨y, hc, -, rfl⟩ | ⟨y, hc, -, rfl⟩ := step_cases h
  · simp only [work, hc]
    omega
  · simp only [work, hc, hpending, List.length_cons]
    omega
  · simp only [work, hc]
    omega
  · simp only [work, hc]
    omega
  · simp only [work, hc]
    omega

/-- A copier that cannot go on waits for input, or has stopped. -/
theorem copier_of_step_eq_none (h : ∀ fails, l.step f source sink fails = none) :
    (l.copier = .reading ∧ source.closed = false ∧ source.readFails = false ∧ l.pending = []) ∨
      ∃ byRead, l.copier = .stopped byRead := by
  cases hc : l.copier with
  | reading =>
    have htrue := h true
    have hfalse := h false
    simp only [step, hc, ite_eq_right_iff, reduceCtorEq, imp_false, Bool.not_eq_true, Bool.or_eq_false_iff] at htrue
    simp only [step, hc, htrue.1, Bool.false_eq_true, if_false] at hfalse
    refine .inl ⟨rfl, htrue.1, htrue.2, ?_⟩
    split at hfalse
    · assumption
    · cases hfalse
  | writing item =>
    have hfalse := h false
    cases item with
    | none => simp [step, hc] at hfalse
    | some y =>
      simp only [step, hc] at hfalse
      split at hfalse <;> cases hfalse
  | stopped byRead => exact .inr ⟨byRead, rfl⟩

end Line

/-! ## What is passed on -/

section
variable {encode : ∀ d, α d → Option (β d)} {first : Side} {s s' : State α β} {e : Event α} {d : Side}

theorem lines_setLine_self (s : State α β) (d : Side) (l : Line (α d) (β d)) : (s.setLine d l).lines d = l :=
  Function.update_self ..

theorem lines_setLine_of_ne (s : State α β) {d c : Side} (l : Line (α d) (β d)) (h : c ≠ d) :
    (s.setLine d l).lines c = s.lines c := Function.update_of_ne h ..

/-- What a step does to a line. -/
theorem step_line (h : step encode first s e = some s') (d : Side) :
    s'.lines d = s.lines d ∧ sends d [e] = [] ∨
    (∃ fails, e = .copy d fails ∧
      (s.lines d).step (encode d) (s.conns d) (s.conns d.other) fails = some (s'.lines d) ∧ sends d [e] = []) ∨
    s'.lines d = { s.lines d with pending := (s.lines d).pending ++ sends d [e] } := by
  cases e with
  | copy c fails =>
    obtain ⟨l, hl, rfl⟩ := Option.map_eq_some_iff.mp h
    by_cases hc : d = c
    · subst hc
      refine .inr (.inl ⟨fails, rfl, ?_, rfl⟩)
      exact hl.trans (congrArg some (lines_setLine_self s d l).symm)
    · exact .inl ⟨lines_setLine_of_ne s l hc, rfl⟩
  | main =>
    refine .inl ⟨?_, rfl⟩
    simp only [step, mainStep] at h
    split at h
    · split at h
      · cases h; rfl
      · cases h
    · cases h; rfl
    · split at h
      · cases h; rfl
      · cases h
    · cases h
  | send c item =>
    cases h
    by_cases hc : c = d
    · subst hc
      refine .inr (.inr ?_)
      rw [lines_setLine_self]
      simp [sends]
    · refine .inl ⟨lines_setLine_of_ne s _ (Ne.symm hc), ?_⟩
      simp [sends, hc]
  | failRead c => cases h; exact .inl ⟨rfl, rfl⟩
  | failWrite c => cases h; exact .inl ⟨rfl, rfl⟩
  | cancel => cases h; exact .inl ⟨rfl, rfl⟩

theorem sends_cons (d : Side) (e : Event α) (es : List (Event α)) : sends d (e :: es) = sends d [e] ++ sends d es := by
  cases e <;> simp [sends]

theorem line_of_run {C : State α β → Event α → Prop} {es : List (Event α)} (h : Run (step encode first) C s es s')
    (d : Side) (hs : (s.lines d).Faithful (encode d)) : (s'.lines d).Faithful (encode d) ∧
      (s'.lines d).taken ++ (s'.lines d).pending = (s.lines d).taken ++ (s.lines d).pending ++ sends d es := by
  induction h with
  | nil s => exact ⟨hs, (List.append_nil _).symm⟩
  | @cons s s₁ t e es _ hstep _ ih =>
    rw [sends_cons, ← List.append_assoc]
    obtain ⟨hsame, hnone⟩ | ⟨fails, -, hline, hnone⟩ | hsent := step_line hstep d
    · rw [hnone, List.append_nil, ← hsame]
      exact ih (hsame ▸ hs)
    · obtain ⟨hfaithful, htaken⟩ := Line.step_faithful hs hline
      rw [hnone, List.append_nil, ← htaken]
      exact ih hfaithful
    · have hfaithful : (s₁.lines d).Faithful (encode d) := by
        rw [hsent]
        exact hs
      have htaken : (s₁.lines d).taken ++ (s₁.lines d).pending =
          (s.lines d).taken ++ (s.lines d).pending ++ sends d [e] := by
        rw [hsent, List.append_assoc]
      rw [← htaken]
      exact ih hfaithful

/-- **What is passed on.** -/
theorem run_line {C : State α β → Event α → Prop} {es : List (Event α)}
    (h : Run (step encode first) C start es s) (d : Side) :
    (s.lines d).Faithful (encode d) ∧ (s.lines d).taken ++ (s.lines d).pending = sends d es :=
  line_of_run h d rfl

theorem written_initial {C : State α β → Event α → Prop} {es : List (Event α)}
    (h : Run (step encode first) C start es s) (d : Side) :
    (s.lines d).written <+: (sends d es).filterMap (encode d) := by
  obtain ⟨hfaithful, htaken⟩ := run_line h d
  rw [← htaken, List.filterMap_append]
  exact hfaithful.written_initial.trans (List.prefix_append _ _)

end

/-! ## Where it comes to rest -/

/-- Which connections are closed, and why. -/
structure Inv (s : State α β) : Prop where
  done : s.done ↔ ∃ d, (s.lines d).copier.failedRead
  waiting : s.main = .waiting → ∀ d, (s.conns d).closed = false
  closing : ∀ ds, s.main = .closing ds → (s.done ∨ s.cancelled) ∧ ∀ d, d ∈ ds ∨ (s.conns d).closed
  ended : s.main = .ended → (s.done ∨ s.cancelled) ∧ ∀ d, (s.conns d).closed ∧ (s.lines d).copier.isStopped

/-- No step of the program is possible. -/
def AtRest (encode : ∀ d, α d → Option (β d)) (first : Side) (s : State α β) : Prop :=
  ∀ e : Event α, e.isProgram → step encode first s e = none

def State.work (s : State α β) : Nat :=
  (s.lines .left).work + (s.lines .right).work + match s.main with
    | .waiting => 4
    | .closing ds => ds.length + 1
    | .ended => 0

section
variable {encode : ∀ d, α d → Option (β d)} {first : Side} {s s' : State α β} {e : Event α} {d : Side}

theorem inv_start : Inv (start : State α β) where
  done := ⟨nofun, fun ⟨_, h⟩ => nomatch h⟩
  waiting _ _ := rfl
  closing _ h := nomatch h
  ended h := nomatch h

theorem conns_setConn (s : State α β) (d c : Side) (k : Conn) :
    (s.setConn d k).conns c = if c = d then k else s.conns c := by
  change Function.update s.conns d k c = _
  rw [Function.update_apply]

/-- A step that keeps the lines and the main thread, and what is closed. -/
theorem Inv.of_same (h : Inv s) (hlines : ∀ d, (s'.lines d).copier = (s.lines d).copier) (hdone : s'.done = s.done)
    (hcancelled : s.cancelled → s'.cancelled) (hmain : s'.main = s.main)
    (hclosed : ∀ d, (s'.conns d).closed = (s.conns d).closed) : Inv s' where
  done := by
    rw [hdone, h.done]
    exact exists_congr fun d => by rw [hlines d]
  waiting hw d := (hclosed d).trans (h.waiting (hmain ▸ hw) d)
  closing ds hds := by
    obtain ⟨hcause, hall⟩ := h.closing ds (hmain ▸ hds)
    exact ⟨hcause.imp (fun hd => hdone ▸ hd) hcancelled, fun d => (hall d).imp_right fun hd => (hclosed d).trans hd⟩
  ended he := by
    obtain ⟨hcause, hall⟩ := h.ended (hmain ▸ he)
    refine ⟨hcause.imp (fun hd => hdone ▸ hd) hcancelled, fun d => ⟨(hclosed d).trans (hall d).1, ?_⟩⟩
    rw [hlines d]
    exact (hall d).2

/-- A step of a copier. -/
theorem inv_copyStep {fails : Bool} (h : Inv s) (hs : copyStep encode s d fails = some s') : Inv s' := by
  obtain ⟨l, hl, rfl⟩ := Option.map_eq_some_iff.mp hs
  -- a copier that moves had not stopped
  have hlive : (s.lines d).copier.isStopped = false := by
    obtain ⟨hc, -⟩ | ⟨hc, -⟩ | ⟨hc, -⟩ | ⟨y, hc, -⟩ | ⟨y, hc, -⟩ := Line.step_cases hl <;> rw [hc] <;> rfl
  have hnotread : (s.lines d).copier.failedRead = false := by
    cases hc : (s.lines d).copier with
    | stopped byRead =>
      rw [hc] at hlive
      cases hlive
    | reading | writing => rfl
  refine ⟨?_, h.waiting, fun ds hds => ?_, fun he => ?_⟩
  · dsimp only
    rw [Bool.or_eq_true, h.done]
    constructor
    · rintro (⟨c, hc⟩ | hread)
      · have hne : c ≠ d := by
          rintro rfl
          rw [hnotread] at hc
          cases hc
        exact ⟨c, by rw [lines_setLine_of_ne s l hne]; exact hc⟩
      · exact ⟨d, by rw [lines_setLine_self]; exact hread⟩
    · rintro ⟨c, hc⟩
      by_cases hne : c = d
      · subst hne
        rw [lines_setLine_self] at hc
        exact .inr hc
      · rw [lines_setLine_of_ne s l hne] at hc
        exact .inl ⟨c, hc⟩
  · obtain ⟨hcause, hall⟩ := h.closing ds hds
    exact ⟨hcause.imp_left fun hd => Bool.or_eq_true_iff.mpr (.inl hd), hall⟩
  · have hstopped := ((h.ended he).2 d).2
    rw [hlive] at hstopped
    cases hstopped

theorem inv_mainStep (h : Inv s) (hs : mainStep first s = some s') : Inv s' := by
  unfold mainStep at hs
  split at hs
  · split at hs
    · next hcause =>
      cases hs
      refine ⟨h.done, nofun, fun ds hds => ?_, nofun⟩
      cases hds
      refine ⟨Bool.or_eq_true_iff.mp hcause, fun d => .inl ?_⟩
      cases d <;> cases first <;> decide
    · cases hs
  · next c ds hmain =>
    cases hs
    obtain ⟨hcause, hall⟩ := h.closing _ hmain
    refine ⟨h.done, nofun, fun ds' hds' => ?_, nofun⟩
    cases hds'
    refine ⟨hcause, fun d => ?_⟩
    by_cases hd : d = c
    · exact .inr (by rw [conns_setConn, if_pos hd])
    · refine (hall d).imp (fun hmem => (List.mem_cons.mp hmem).resolve_left hd) fun hclosed => ?_
      rw [conns_setConn, if_neg hd]
      exact hclosed
  · next hmain =>
    split at hs
    · next hstopped =>
      cases hs
      obtain ⟨hcause, hall⟩ := h.closing _ hmain
      have hboth : ∀ d, (s.lines d).copier.isStopped := Side.forall_iff.mpr (Bool.and_eq_true_iff.mp hstopped)
      exact ⟨h.done, nofun, nofun, fun _ => ⟨hcause, fun d => ⟨(hall d).resolve_left List.not_mem_nil, hboth d⟩⟩⟩
    · cases hs
  · cases hs

/-- One step. -/
theorem inv_step (h : Inv s) (hs : step encode first s e = some s') : Inv s' := by
  cases e with
  | copy d fails => exact inv_copyStep h hs
  | main => exact inv_mainStep h hs
  | send d item =>
    cases hs
    refine h.of_same (fun c => ?_) rfl (fun hc => hc) rfl fun _ => rfl
    by_cases hc : c = d
    · subst hc
      rw [lines_setLine_self]
    · rw [lines_setLine_of_ne s _ hc]
  | failRead d | failWrite d =>
    cases hs
    refine h.of_same (fun _ => rfl) rfl (fun hc => hc) rfl fun c => ?_
    rw [conns_setConn]
    split
    · next hc => rw [hc]
    · rfl
  | cancel =>
    cases hs
    exact h.of_same (fun _ => rfl) rfl (fun _ => rfl) rfl fun _ => rfl

theorem inv_run {C : State α β → Event α → Prop} {es : List (Event α)} (h : Run (step encode first) C start es s) :
    Inv s :=
  h.invariant (fun _ _ _ _ hi hs => inv_step hi hs) inv_start

theorem Copier.isStopped_iff {γ : Type} (c : Copier γ) : c.isStopped = true ↔ ∃ byRead, c = .stopped byRead := by
  cases c <;> simp [Copier.isStopped]

/-- The main thread waits, and in each direction the copier waits for input or has given up at a failed write. -/
structure Waits (s : State α β) : Prop where
  main : s.main = .waiting
  done : s.done = false
  cancelled : s.cancelled = false
  copiers : ∀ d, ((s.lines d).copier = .reading ∧ (s.conns d).readFails = false ∧ (s.lines d).pending = []) ∨
    (s.lines d).copier = .stopped false

theorem Line.step_stopped {γ δ : Type} {f : γ → Option δ} {source sink : Conn} {l : Line γ δ} {byRead : Bool}
    (h : l.copier = .stopped byRead) (fails : Bool) : l.step f source sink fails = none := by
  simp only [Line.step, h]

theorem Line.step_idle {γ δ : Type} {f : γ → Option δ} {source sink : Conn} {l : Line γ δ} (h : l.copier = .reading)
    (hopen : source.closed = false) (hok : source.readFails = false) (hpending : l.pending = []) (fails : Bool) :
    l.step f source sink fails = none := by
  cases fails <;> simp [Line.step, h, hopen, hok, hpending]

/-- **Where it comes to rest.** -/
theorem atRest_iff (h : Inv s) : AtRest encode first s ↔ s.main = .ended ∨ Waits s := by
  constructor
  · intro hrest
    have hline : ∀ d, ((s.lines d).copier = .reading ∧ (s.conns d).closed = false ∧ (s.conns d).readFails = false ∧
        (s.lines d).pending = []) ∨ ∃ byRead, (s.lines d).copier = .stopped byRead := by
      intro d
      have hnone : ∀ fails, (s.lines d).step (encode d) (s.conns d) (s.conns d.other) fails = none :=
        fun fails => Option.map_eq_none_iff.mp (hrest (.copy d fails) rfl)
      exact Line.copier_of_step_eq_none hnone
    have hmain : mainStep first s = none := hrest .main rfl
    unfold mainStep at hmain
    split at hmain
    · next hw =>
      split at hmain
      · cases hmain
      · next hcause =>
        rw [Bool.not_eq_true, Bool.or_eq_false_iff] at hcause
        refine .inr ⟨hw, hcause.1, hcause.2, fun d => ?_⟩
        refine (hline d).imp (fun hr => ⟨hr.1, hr.2.2⟩) fun ⟨byRead, hc⟩ => ?_
        cases byRead with
        | false => exact hc
        | true =>
          have hdone := h.done.mpr ⟨d, by rw [hc]; rfl⟩
          rw [hcause.1] at hdone
          cases hdone
    · cases hmain
    · next hclosing =>
      obtain ⟨-, hall⟩ := h.closing _ hclosing
      have hstopped : ∀ d, (s.lines d).copier.isStopped := by
        intro d
        obtain ⟨-, hopen, -⟩ | hc := hline d
        · have hclosed := (hall d).resolve_left List.not_mem_nil
          rw [hopen] at hclosed
          cases hclosed
        · exact (Copier.isStopped_iff _).mpr hc
      rw [if_pos (Bool.and_eq_true_iff.mpr (Side.forall_iff.mp hstopped))] at hmain
      cases hmain
    · next he => exact .inl he
  · rintro (hended | hwaits) e he
    · cases e with
      | copy d fails =>
        obtain ⟨byRead, hstopped⟩ := (Copier.isStopped_iff _).mp ((h.ended hended).2 d).2
        exact Option.map_eq_none_iff.mpr (Line.step_stopped hstopped fails)
      | main => simp only [step, mainStep, hended]
      | send | failRead | failWrite | cancel => cases he
    · cases e with
      | copy d fails =>
        obtain ⟨hreading, hok, hpending⟩ | hstopped := hwaits.copiers d
        · exact Option.map_eq_none_iff.mpr (Line.step_idle hreading (h.waiting hwaits.main d) hok hpending fails)
        · exact Option.map_eq_none_iff.mpr (Line.step_stopped hstopped fails)
      | main => simp [step, mainStep, hwaits.main, hwaits.done, hwaits.cancelled]
      | send | failRead | failWrite | cancel => cases he

/-! ## That it comes to rest -/

theorem work_setLine (s : State α β) {d : Side} {l : Line (α d) (β d)} (h : l.work < (s.lines d).work) :
    (s.setLine d l).work < s.work := by
  have hmain : (s.setLine d l).main = s.main := rfl
  unfold State.work
  rw [hmain]
  cases d with
  | left =>
    rw [lines_setLine_self, lines_setLine_of_ne s l (show Side.right ≠ .left by decide)]
    omega
  | right =>
    rw [lines_setLine_self, lines_setLine_of_ne s l (show Side.left ≠ .right by decide)]
    omega

theorem work_step (he : e.isProgram) (hs : step encode first s e = some s') : s'.work < s.work := by
  cases e with
  | copy d fails =>
    obtain ⟨l, hl, rfl⟩ := Option.map_eq_some_iff.mp hs
    exact work_setLine s (Line.step_work hl)
  | main =>
    change mainStep first s = some s' at hs
    unfold mainStep at hs
    split at hs
    · next hmain =>
      split at hs
      · cases hs
        simp only [State.work, hmain, List.length_cons, List.length_nil]
        omega
      · cases hs
    · next hmain =>
      cases hs
      simp only [State.work, State.setConn, hmain, List.length_cons]
      omega
    · next hmain =>
      split at hs
      · cases hs
        simp only [State.work, hmain, List.length_nil]
        omega
      · cases hs
    · cases hs
  | send | failRead | failWrite | cancel => cases he

end

end Relay
