import Mathlib.Algebra.Order.Ring.Int
import Mathlib.Data.List.Basic
import Mathlib.Data.List.OfFn

/-!
# Slices of lists indexed by machine integers

* `Slice` : a list whose length is a machine integer; `Slice.len` : that integer; `atMost` : a number cut to it;
* `toInt_add`, `toInt_sub`, `toInt_mul` : arithmetic that does not overflow; `toInt_add_neg` : a sum that does;
* `slice?`, `index?` : `xs[lo:hi]` and `xs[i]`, `none` out of range;
* `slice?_eq_some_iff` : when a slice is in range, and what it is;
* `loop?` : `xs[i]` for each `i` from `lo` to `hi`; `loop?_eq_some_iff` : when no index is out of range;
* `cut?` : `xs[lo:hi]` for literal bounds.
-/

namespace Slices

variable {α : Type*}

/-- A list with a length that fits into a machine integer. -/
abbrev Slice (α : Type*) := {xs : List α // xs.length < 2 ^ 63}

def Slice.len (xs : Slice α) : Int64 := Int64.ofNat xs.1.length

@[simp] theorem Slice.toInt_len (xs : Slice α) : xs.len.toInt = xs.1.length := Int64.toInt_ofNat_of_lt xs.2

def Slice.filter (keep : α → Bool) (xs : Slice α) : Slice α :=
  ⟨xs.1.filter keep, Nat.lt_of_le_of_lt (List.length_filter_le ..) xs.2⟩

/-- `n`, or the length if `n` is above it. -/
def atMost (xs : Slice α) (n : Int64) : Int64 := if n > xs.len then xs.len else n

theorem toInt_atMost (xs : Slice α) (n : Int64) : (atMost xs n).toInt = min n.toInt xs.1.length := by
  unfold atMost
  split
  · next h =>
    have := Int64.lt_iff_toInt_lt.mp h
    rw [xs.toInt_len] at this ⊢
    omega
  · next h =>
    have := Int64.le_iff_toInt_le.mp (Int64.not_lt.mp h)
    rw [xs.toInt_len] at this
    omega

/-! ## Arithmetic -/

theorem toInt_add {a b : Int64} (h₁ : -2 ^ 63 ≤ a.toInt + b.toInt) (h₂ : a.toInt + b.toInt < 2 ^ 63) :
    (a + b).toInt = a.toInt + b.toInt := by
  rw [Int64.toInt_add]
  exact Int.bmod_eq_of_le_mul_two (by omega) (by omega)

theorem toInt_sub {a b : Int64} (h₁ : -2 ^ 63 ≤ a.toInt - b.toInt) (h₂ : a.toInt - b.toInt < 2 ^ 63) :
    (a - b).toInt = a.toInt - b.toInt := by
  rw [Int64.toInt_sub]
  exact Int.bmod_eq_of_le_mul_two (by omega) (by omega)

theorem toInt_mul {a b : Int64} (h₁ : -2 ^ 63 ≤ a.toInt * b.toInt) (h₂ : a.toInt * b.toInt < 2 ^ 63) :
    (a * b).toInt = a.toInt * b.toInt := by
  rw [Int64.toInt_mul]
  exact Int.bmod_eq_of_le_mul_two (by omega) (by omega)

/-- A sum of two machine integers that is too large is negative. -/
theorem toInt_add_neg {a b : Int64} (h : 2 ^ 63 ≤ a.toInt + b.toInt) :
    (a + b).toInt = a.toInt + b.toInt - 2 ^ 64 := by
  have ha := a.toInt_lt
  have hb := b.toInt_lt
  rw [Int64.toInt_add, ← Int.sub_bmod_right]
  exact Int.bmod_eq_of_le_mul_two (by omega) (by omega)

/-! ## Slices -/

/-- `xs[lo:hi]` -/
def slice? (xs : List α) (lo hi : Int64) : Option (List α) :=
  if 0 ≤ lo ∧ lo ≤ hi ∧ hi.toInt ≤ xs.length then some ((xs.take hi.toInt.toNat).drop lo.toInt.toNat) else none

/-- `xs[i]` -/
def index? (xs : List α) (i : Int64) : Option α := if 0 ≤ i then xs[i.toInt.toNat]? else none

theorem nonneg_iff {a : Int64} : 0 ≤ a ↔ 0 ≤ a.toInt := Int64.le_iff_toInt_le

theorem slice?_eq_some_iff {xs ys : List α} {lo hi : Int64} : slice? xs lo hi = some ys ↔
    (0 ≤ lo.toInt ∧ lo.toInt ≤ hi.toInt ∧ hi.toInt ≤ xs.length) ∧
      ys = (xs.take hi.toInt.toNat).drop lo.toInt.toNat := by
  have hiff : (0 ≤ lo ∧ lo ≤ hi ∧ hi.toInt ≤ xs.length) ↔
      (0 ≤ lo.toInt ∧ lo.toInt ≤ hi.toInt ∧ hi.toInt ≤ xs.length) :=
    and_congr nonneg_iff (and_congr_left' Int64.le_iff_toInt_le)
  unfold slice?
  split
  · next h =>
    rw [Option.some.injEq, eq_comm]
    exact ⟨fun he => ⟨hiff.mp h, he⟩, And.right⟩
  · next h => exact iff_of_false (by simp) fun hr => h (hiff.mpr hr.1)

theorem isSome_slice?_iff {xs : List α} {lo hi : Int64} :
    (slice? xs lo hi).isSome ↔ 0 ≤ lo.toInt ∧ lo.toInt ≤ hi.toInt ∧ hi.toInt ≤ xs.length := by
  rw [Option.isSome_iff_exists]
  simp only [slice?_eq_some_iff, exists_and_left, exists_eq, and_true]

/-! ## Loops -/

/-- `xs[i]`, `xs[i + 1]`, ..., `n` of them. -/
def loopFrom? (xs : List α) (i : Int64) : Nat → Option (List α)
  | 0 => some []
  | n + 1 => do
    let x ← index? xs i
    let rest ← loopFrom? xs (i + 1) n
    return x :: rest

/-- `xs[i]` for each `i` from `lo` up to `hi`. -/
def loop? (xs : List α) (lo hi : Int64) : Option (List α) := loopFrom? xs lo (hi.toInt - lo.toInt).toNat

theorem loopFrom?_eq {xs : List α} (hlen : xs.length < 2 ^ 63) : ∀ {n : Nat} {i : Int64}, 0 ≤ i.toInt →
    i.toInt + n ≤ xs.length → loopFrom? xs i n = some ((xs.drop i.toInt.toNat).take n) := by
  intro n
  induction n with
  | zero => intro i _ _; rfl
  | succ n ih =>
    intro i h0 hn
    have hlt : i.toInt.toNat < xs.length := by omega
    have hi : index? xs i = some xs[i.toInt.toNat] := by
      rw [index?, if_pos (nonneg_iff.mpr h0), List.getElem?_eq_getElem hlt]
    have hone : (1 : Int64).toInt = 1 := rfl
    have hnext : (i + 1).toInt = i.toInt + 1 := toInt_add (by omega) (by omega)
    have hrest := ih (i := i + 1) (by omega) (by omega)
    have hnat : (i + 1).toInt.toNat = i.toInt.toNat + 1 := by omega
    rw [loopFrom?, hi, hrest, hnat, List.drop_eq_getElem_cons hlt]
    rfl

theorem loop?_of_le {xs : List α} {lo hi : Int64} (h : hi.toInt ≤ lo.toInt) : loop? xs lo hi = some [] := by
  have hn : (hi.toInt - lo.toInt).toNat = 0 := by omega
  rw [loop?, hn]
  rfl

/-- A loop that reads something up to the end of the list is out of range just when it starts below zero. -/
theorem loop?_eq_some_iff {xs ys : List α} {lo hi : Int64} (hlen : xs.length < 2 ^ 63) (hlt : lo.toInt < hi.toInt)
    (hhi : hi.toInt ≤ xs.length) : loop? xs lo hi = some ys ↔
      0 ≤ lo.toInt ∧ ys = (xs.drop lo.toInt.toNat).take (hi.toInt - lo.toInt).toNat := by
  by_cases h0 : 0 ≤ lo.toInt
  · rw [loop?, loopFrom?_eq hlen h0 (by omega), Option.some.injEq, eq_comm]
    exact ⟨fun h => ⟨h0, h⟩, And.right⟩
  · obtain ⟨n, hn⟩ : ∃ n, (hi.toInt - lo.toInt).toNat = n + 1 := ⟨(hi.toInt - lo.toInt).toNat - 1, by omega⟩
    have hi : index? xs lo = none := if_neg fun h => h0 (nonneg_iff.mp h)
    rw [loop?, hn, loopFrom?, hi]
    exact iff_of_false (by simp) fun h => h0 h.1

/-! ## Slices with literal bounds -/

/-- `xs[lo:hi]` within the length, `none` out of range. -/
def cut? (xs : List α) (lo hi : Nat) : Option (List α) :=
  if lo ≤ hi ∧ hi ≤ xs.length then some ((xs.take hi).drop lo) else none

theorem cut?_left {a b : List α} {n : Nat} (h : a.length = n) : cut? (a ++ b) 0 n = some a := by
  subst h
  simp [cut?]

theorem cut?_mid {a b c : List α} {m n : Nat} (ha : a.length = m) (hb : m + b.length = n) :
    cut? (a ++ (b ++ c)) m n = some b := by
  subst ha hb
  simp [cut?, List.take_append]

theorem cut?_right {a b : List α} {n : Nat} (h : a.length = n) : cut? (a ++ b) n (a ++ b).length = some b := by
  subst h
  rw [cut?, if_pos ⟨by simp, le_rfl⟩, List.take_length, List.drop_left]

end Slices
