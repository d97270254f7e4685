import Mathlib.Data.List.Dedup

/-!
# Folds whose steps write at keys

* `foldl_view` : what a fold leaves at one key is the fold of the steps that write there;
* `foldl_getLast` : a fold whose steps overwrite each other is its last step;
* `filter_key_of_nodup` : among entries with different keys, one entry has the key it has.
-/

namespace KeyedFold

variable {σ α ρ κ : Type*}

/-- `v` is what a state has at the key; `p` are the steps that write there. -/
theorem foldl_view {step : σ → α → σ} {v : σ → ρ} {f : ρ → α → ρ} {p : α → Bool}
    (hit : ∀ s a, p a → v (step s a) = f (v s) a) (miss : ∀ s a, ¬ p a → v (step s a) = v s)
    (l : List α) (s : σ) : v (l.foldl step s) = (l.filter p).foldl f (v s) := by
  induction l generalizing s with
  | nil => rfl
  | cons a l ih =>
    rw [List.foldl_cons, ih]
    by_cases ha : p a
    · rw [List.filter_cons_of_pos ha, List.foldl_cons, hit s a ha]
    · rw [List.filter_cons_of_neg ha, miss s a ha]

theorem foldl_getLast {f : ρ → α → ρ} {l : List α} (h : ∀ r, ∀ a ∈ l, ∀ b ∈ l, f (f r a) b = f r b) (r : ρ) :
    l.foldl f r = l.getLast?.elim r (f r) := by
  induction l generalizing r with
  | nil => rfl
  | cons a l ih =>
    rw [List.foldl_cons, ih fun r b hb c hc => h r b (List.mem_cons_of_mem _ hb) c (List.mem_cons_of_mem _ hc)]
    cases hl : l.getLast? with
    | none =>
      obtain rfl := List.getLast?_eq_none_iff.mp hl
      rfl
    | some b =>
      rw [List.getLast?_cons, hl]
      exact h r a (List.mem_cons_self ..) b (List.mem_cons_of_mem _ (List.mem_of_getLast? hl))

theorem filter_key_of_nodup [DecidableEq κ] {key : α → κ} {l : List α} (hn : (l.map key).Nodup) {a : α}
    (ha : a ∈ l) : (l.filter fun b => key b = key a) = [a] := by
  induction l with
  | nil => cases ha
  | cons b l ih =>
    rw [List.map_cons, List.nodup_cons] at hn
    rcases List.mem_cons.mp ha with rfl | ha
    · rw [List.filter_cons_of_pos (by simp), List.filter_eq_nil_iff.mpr]
      intro c hc he
      exact hn.1 (List.mem_map.mpr ⟨c, hc, of_decide_eq_true he⟩)
    · have hne : key b ≠ key a := fun e => hn.1 (e ▸ List.mem_map_of_mem ha)
      rw [List.filter_cons_of_neg (by simpa using hne), ih hn.2 ha]

end KeyedFold
