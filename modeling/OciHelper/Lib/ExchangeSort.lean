import Mathlib.Data.List.Basic
import Mathlib.Order.Lattice

/-!
# Sorting by exchange

* `exchange`, `pass`, `sort` : two nested loops that exchange what is out of order;
* `least`, `selection` : what a pass finds and leaves, and the sort that selects the least element each time;
* `pass_eq`, `sort_eq` : the loops do what these say;
* `sort_perm`, `sort_sorted` : the sort is a sorted permutation.
-/

namespace ExchangeSort

variable {α β : Type*} [LinearOrder β] (key : α → β)

/-- `if xs[j] < xs[i] then xs[i], xs[j] = xs[j], xs[i]` -/
def exchange (i : Nat) (xs : List α) (j : Nat) : List α :=
  match xs[i]?, xs[j]? with
  | some a, some b => if key b < key a then (xs.set i b).set j a else xs
  | _, _ => xs

/-- `for j = i + 1; j < len; j++` -/
def pass (xs : List α) (i : Nat) : List α := (List.range' (i + 1) (xs.length - (i + 1))).foldl (exchange key i) xs

/-- `for i = 0; i < len - 1; i++` -/
def sort (xs : List α) : List α := (List.range' 0 (xs.length - 1)).foldl (pass key) xs

/-! ## Selection -/

/-- The first least element of `a :: xs`, and what is left in the places behind it. -/
def least (a : α) : List α → α × List α
  | [] => (a, [])
  | b :: xs => if key b < key a then ((least b xs).1, a :: (least b xs).2) else ((least a xs).1, b :: (least a xs).2)

theorem least_perm (a : α) (xs : List α) : ((least key a xs).1 :: (least key a xs).2).Perm (a :: xs) := by
  induction xs generalizing a with
  | nil => rfl
  | cons b xs ih =>
    rw [least]
    split
    · exact (List.Perm.swap _ _ _).trans ((ih b).cons a)
    · exact (List.Perm.swap _ _ _).trans (((ih a).cons b).trans (List.Perm.swap _ _ _))

theorem length_least (a : α) (xs : List α) : (least key a xs).2.length = xs.length := by
  have h := (least_perm key a xs).length_eq
  simpa using h

theorem least_le (a : α) (xs : List α) : ∀ b ∈ a :: xs, key (least key a xs).1 ≤ key b := by
  induction xs generalizing a with
  | nil => simp [least]
  | cons c xs ih =>
    rw [least]
    split
    · next hlt =>
      obtain ⟨hc, hxs⟩ := List.forall_mem_cons.mp (ih c)
      simp only [List.forall_mem_cons]
      exact ⟨hc.trans hlt.le, hc, hxs⟩
    · next hge =>
      obtain ⟨ha, hxs⟩ := List.forall_mem_cons.mp (ih a)
      simp only [List.forall_mem_cons]
      exact ⟨ha, ha.trans (not_lt.mp hge), hxs⟩

def selection : List α → List α
  | [] => []
  | a :: xs => (least key a xs).1 :: selection (least key a xs).2
termination_by xs => xs.length
decreasing_by simp [length_least]

theorem selection_perm (xs : List α) : (selection key xs).Perm xs := by
  induction xs using selection.induct key with
  | case1 => simp [selection]
  | case2 a xs ih =>
    rw [selection]
    exact (ih.cons _).trans (least_perm key a xs)

theorem selection_sorted (xs : List α) : (selection key xs).Pairwise fun a b => key a ≤ key b := by
  induction xs using selection.induct key with
  | case1 => simp [selection]
  | case2 a xs ih =>
    rw [selection]
    refine List.pairwise_cons.mpr ⟨fun b hb => ?_, ih⟩
    apply least_le key a xs
    apply (least_perm key a xs).mem_iff.mp
    exact List.mem_cons_of_mem _ ((selection_perm key _).mem_iff.mp hb)

/-! ## The loops -/

/-- The exchange of the element at `i` with the first of the elements that are left. -/
theorem exchange_eq (pre done todo : List α) (a b : α) :
    exchange key pre.length (pre ++ a :: (done ++ b :: todo)) (pre.length + 1 + done.length) =
      if key b < key a then pre ++ b :: (done ++ a :: todo) else pre ++ a :: (done ++ b :: todo) := by
  have hi : (pre ++ a :: (done ++ b :: todo))[pre.length]? = some a := by
    simp
  have hj : (pre ++ a :: (done ++ b :: todo))[pre.length + 1 + done.length]? = some b := by
    rw [List.getElem?_append_right (by omega), show pre.length + 1 + done.length - pre.length = done.length + 1 by omega]
    simp
  unfold exchange
  rw [hi, hj]
  dsimp only
  split
  · have hset : (pre ++ a :: (done ++ b :: todo)).set pre.length b = pre ++ b :: (done ++ b :: todo) := by
      simp
    rw [hset, List.set_append_right _ _ (by omega),
      show pre.length + 1 + done.length - pre.length = done.length + 1 by omega, List.set_cons_succ,
      List.set_append_right _ _ (Nat.le_refl _), Nat.sub_self, List.set_cons_zero]
  · rfl

/-- The pass over the elements that are left, `done` being behind it. -/
theorem foldl_exchange (pre : List α) (todo : List α) : ∀ (a : α) (done : List α),
    (List.range' (pre.length + 1 + done.length) todo.length).foldl (exchange key pre.length)
      (pre ++ a :: (done ++ todo)) = pre ++ (least key a todo).1 :: (done ++ (least key a todo).2) := by
  induction todo with
  | nil => intro a done; rfl
  | cons b todo ih =>
    intro a done
    rw [List.length_cons, List.range'_succ, List.foldl_cons, exchange_eq, least]
    split
    · have h := ih b (done ++ [a])
      simpa [Nat.add_assoc] using h
    · have h := ih a (done ++ [b])
      simpa [Nat.add_assoc] using h

theorem pass_eq (pre : List α) (a : α) (xs : List α) :
    pass key (pre ++ a :: xs) pre.length = pre ++ (least key a xs).1 :: (least key a xs).2 := by
  have hlen : (pre ++ a :: xs).length - (pre.length + 1) = xs.length := by
    simp
    omega
  have h := foldl_exchange key pre xs a []
  rw [pass, hlen]
  simpa using h

theorem foldl_pass (xs pre : List α) :
    (List.range' pre.length (xs.length - 1)).foldl (pass key) (pre ++ xs) = pre ++ selection key xs := by
  induction xs using selection.induct key generalizing pre with
  | case1 => simp [selection]
  | case2 a xs ih =>
    rw [selection]
    cases xs with
    | nil => simp [least, selection]
    | cons b xs =>
      have hlen := length_least key a (b :: xs)
      rw [List.length_cons] at hlen
      have h := ih (pre ++ [(least key a (b :: xs)).1])
      rw [hlen, List.length_append, List.length_singleton, List.append_assoc, List.singleton_append,
        List.append_assoc, List.singleton_append] at h
      rw [List.length_cons, List.length_cons, Nat.add_sub_cancel, List.range'_succ, List.foldl_cons, pass_eq]
      exact h

/-- **The loops select the least element each time.** -/
theorem sort_eq (xs : List α) : sort key xs = selection key xs := foldl_pass key xs []

theorem sort_perm (xs : List α) : (sort key xs).Perm xs := sort_eq key xs ▸ selection_perm key xs

theorem sort_sorted (xs : List α) : (sort key xs).Pairwise fun a b => key a ≤ key b :=
  sort_eq key xs ▸ selection_sorted key xs

end ExchangeSort
