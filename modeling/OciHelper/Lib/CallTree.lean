import Mathlib.Logic.Basic

/-!
# Programs as trees of calls

* `CallTree` : the calls of a program; after a call it goes on in one way or the other, as the answer is;
* `run` : the calls that are made with given answers;
* `All` : every call of the tree satisfies a predicate; `forall_run_iff` : so it is in every run.
-/

/-- `choice` is a test of something that is not a call. -/
inductive CallTree (ω : Type*)
  | done
  | call (op : ω) (failed next : CallTree ω)
  | choice (left right : CallTree ω)

namespace CallTree

variable {ω : Type*}

/-- The program ends if the call fails. -/
def required (op : ω) (next : CallTree ω) : CallTree ω := .call op .done next

/-- The outcome of the call is not looked at. -/
def ignored (op : ω) (next : CallTree ω) : CallTree ω := .call op next next

/-- The program may end here. -/
def guarded (next : CallTree ω) : CallTree ω := .choice .done next

def run : CallTree ω → (Nat → Bool) → List ω
  | .done, _ => []
  | .call op failed next, a =>
    op :: if a 0 then next.run fun n => a (n + 1) else failed.run fun n => a (n + 1)
  | .choice left right, a => if a 0 then right.run fun n => a (n + 1) else left.run fun n => a (n + 1)

def All (P : ω → Prop) : CallTree ω → Prop
  | .done => True
  | .call op failed next => P op ∧ failed.All P ∧ next.All P
  | .choice left right => left.All P ∧ right.All P

variable {P : ω → Prop} {op : ω} {failed next left right : CallTree ω}

@[simp] theorem all_done : (CallTree.done : CallTree ω).All P ↔ True := Iff.rfl

@[simp] theorem all_call : (CallTree.call op failed next).All P ↔ P op ∧ failed.All P ∧ next.All P := Iff.rfl

@[simp] theorem all_choice : (CallTree.choice left right).All P ↔ left.All P ∧ right.All P := Iff.rfl

@[simp] theorem all_required : (required op next).All P ↔ P op ∧ next.All P := by
  unfold required
  simp

@[simp] theorem all_ignored : (ignored op next).All P ↔ P op ∧ next.All P := by
  unfold ignored
  simp

@[simp] theorem all_guarded : (guarded next).All P ↔ next.All P := by
  unfold guarded
  simp

/-- Answers that begin with the given one. -/
def answers (first : Bool) (a : Nat → Bool) : Nat → Bool
  | 0 => first
  | n + 1 => a n

theorem forall_run_iff (t : CallTree ω) : (∀ a, ∀ op ∈ t.run a, P op) ↔ t.All P := by
  induction t with
  | done => exact iff_of_true (fun _ _ h => nomatch h) trivial
  | call op failed next ihf ihn =>
    rw [all_call, ← ihf, ← ihn]
    constructor
    · intro h
      refine ⟨h (fun _ => true) op (List.mem_cons_self ..), fun a o ho => ?_, fun a o ho => ?_⟩
      · exact h (answers false a) o (List.mem_cons_of_mem _ ho)
      · exact h (answers true a) o (List.mem_cons_of_mem _ ho)
    · rintro ⟨hop, hf, hn⟩ a o ho
      obtain rfl | ho := List.mem_cons.mp ho
      · exact hop
      · split at ho
        · exact hn _ o ho
        · exact hf _ o ho
  | choice left right ihl ihr =>
    rw [all_choice, ← ihl, ← ihr]
    constructor
    · exact fun h => ⟨fun a => h (answers false a), fun a => h (answers true a)⟩
    · rintro ⟨hl, hr⟩ a o ho
      unfold run at ho
      split at ho
      · exact hr _ o ho
      · exact hl _ o ho

end CallTree
