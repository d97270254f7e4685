import Mathlib.Data.List.Basic

/-!
# Repeatable statements

* `Repeatable exec strict P Done` : `exec` is `strict` where that succeeds; a statement that is done stays done, and
  `exec` does not mind it;
* `foldlM_append_ok` : a run is the run of its first statements and then of the others;
* `Repeatable.rerun` : a run that was cut off can be started again from the first statement.
-/

variable {σ δ ε : Type*}

/-- `P` is the condition on a statement under which its success means that it is done. -/
structure Repeatable (exec strict : σ → δ → Except ε σ) (P : δ → Prop) (Done : δ → σ → Prop) : Prop where
  exec_eq : ∀ {s d s'}, strict s d = .ok s' → exec s d = .ok s'
  done : ∀ {s d s'}, P d → strict s d = .ok s' → Done d s'
  kept : ∀ {s d d' s'}, Done d s → strict s d' = .ok s' → Done d s'
  again : ∀ {s d}, Done d s → exec s d = .ok s

namespace Repeatable

variable {exec strict : σ → δ → Except ε σ} {P : δ → Prop} {Done : δ → σ → Prop}

theorem bind_ok {α β : Type*} {x : Except ε α} {f : α → Except ε β} {b : β} :
    x.bind f = .ok b ↔ ∃ a, x = .ok a ∧ f a = .ok b := by
  cases x with
  | error e => exact ⟨fun h => (by cases h), fun ⟨a, h, _⟩ => (by cases h)⟩
  | ok a =>
    constructor
    · exact fun h => ⟨a, rfl, h⟩
    · rintro ⟨a', ha, h⟩
      cases ha
      exact h

theorem foldlM_cons_ok {d : δ} {l : List δ} {s t : σ} :
    (d :: l).foldlM exec s = .ok t ↔ ∃ u, exec s d = .ok u ∧ l.foldlM exec u = .ok t := by
  rw [List.foldlM_cons]
  exact bind_ok

theorem foldlM_append_ok {l l' : List δ} {s t : σ} :
    (l ++ l').foldlM exec s = .ok t ↔ ∃ u, l.foldlM exec s = .ok u ∧ l'.foldlM exec u = .ok t := by
  rw [List.foldlM_append]
  exact bind_ok

theorem foldlM_take_ok {l : List δ} {s t : σ} (h : l.foldlM exec s = .ok t) (n : Nat) :
    ∃ u, (l.take n).foldlM exec s = .ok u ∧ (l.drop n).foldlM exec u = .ok t :=
  foldlM_append_ok.mp ((List.take_append_drop n l).symm ▸ h)

theorem exec_foldlM (h : Repeatable exec strict P Done) : ∀ {l : List δ} {s t : σ}, l.foldlM strict s = .ok t →
    l.foldlM exec s = .ok t := by
  intro l
  induction l with
  | nil => exact fun ht => ht
  | cons d l ih =>
    intro s t ht
    obtain ⟨u, hu, hut⟩ := foldlM_cons_ok.mp ht
    exact foldlM_cons_ok.mpr ⟨u, h.exec_eq hu, ih hut⟩

/-- What is done stays done in a run. -/
theorem kept_foldlM (h : Repeatable exec strict P Done) {d : δ} : ∀ {l : List δ} {s t : σ}, Done d s →
    l.foldlM strict s = .ok t → Done d t := by
  intro l
  induction l with
  | nil => intro s t hd ht; cases ht; exact hd
  | cons d' l ih =>
    intro s t hd ht
    obtain ⟨u, hu, hut⟩ := foldlM_cons_ok.mp ht
    exact ih (h.kept hd hu) hut

theorem done_foldlM (h : Repeatable exec strict P Done) : ∀ {l : List δ} {s t : σ}, (∀ d ∈ l, P d) →
    l.foldlM strict s = .ok t → ∀ d ∈ l, Done d t := by
  intro l
  induction l with
  | nil => exact fun _ _ _ hd => absurd hd List.not_mem_nil
  | cons d' l ih =>
    intro s t hP ht d hd
    obtain ⟨u, hu, hut⟩ := foldlM_cons_ok.mp ht
    obtain rfl | hd := List.mem_cons.mp hd
    · exact h.kept_foldlM (h.done (hP d (List.mem_cons_self ..)) hu) hut
    · exact ih (fun d hd => hP d (List.mem_cons_of_mem _ hd)) hut d hd

theorem again_foldlM (h : Repeatable exec strict P Done) {t : σ} : ∀ {l : List δ}, (∀ d ∈ l, Done d t) →
    l.foldlM exec t = .ok t := by
  intro l
  induction l with
  | nil => exact fun _ => rfl
  | cons d l ih =>
    intro hd
    exact foldlM_cons_ok.mpr
      ⟨t, h.again (hd d (List.mem_cons_self ..)), ih fun d' h' => hd d' (List.mem_cons_of_mem _ h')⟩

/-- **Rerun.** After `j` statements, to start again leads to where the longer of the two runs leads. -/
theorem rerun (h : Repeatable exec strict P Done) {l : List δ} {s t u : σ} (ht : l.foldlM strict s = .ok t) {j : Nat}
    (hP : ∀ d ∈ l.take j, P d) (hu : (l.take j).foldlM strict s = .ok u) (n : Nat) :
    ∃ v, (l.take n).foldlM exec u = .ok v ∧ (l.take (max j n)).foldlM strict s = .ok v := by
  have hdone := h.done_foldlM hP hu
  obtain hn | hn := Nat.le_total n j
  · rw [Nat.max_eq_left hn]
    exact ⟨u, h.again_foldlM fun d hd => hdone d (List.take_subset_take_left l hn hd), hu⟩
  · rw [Nat.max_eq_right hn]
    obtain ⟨v, hv, -⟩ := foldlM_take_ok ht n
    have hsplit : l.take n = l.take j ++ (l.drop j).take (n - j) := by
      rw [← List.take_add, Nat.add_sub_cancel' hn]
    obtain ⟨u', hu', huv⟩ := foldlM_append_ok.mp (hsplit ▸ hv)
    obtain rfl : u = u' := Except.ok.inj (hu.symm.trans hu')
    refine ⟨v, ?_, hv⟩
    rw [hsplit]
    exact foldlM_append_ok.mpr ⟨u, h.again_foldlM hdone, h.exec_foldlM huv⟩

end Repeatable
