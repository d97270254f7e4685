import Mathlib.Data.List.Basic

/-!
# A ring of the last elements of a stream

* `RingBuffer`, `RingBuffer.push` : a list of slots that is written in turn;
* `RingBuffer.last` : its elements from the oldest one on;
* `RingBuffer.last_foldl_push` : they are the last elements that were pushed.
-/

/-- `idx` is the slot that is written next, `total` the number of elements pushed. -/
structure RingBuffer (α : Type*) where
  slots : List α
  idx : Nat
  total : Nat

namespace RingBuffer

variable {α : Type*}

def new (n : Nat) (a : α) : RingBuffer α := ⟨List.replicate n a, 0, 0⟩

def push (r : RingBuffer α) (a : α) : RingBuffer α :=
  ⟨r.slots.set r.idx a, (r.idx + 1) % r.slots.length, r.total + 1⟩

/-- How many elements there are. -/
def count (r : RingBuffer α) : Nat := if r.total < r.slots.length then r.total else r.slots.length

def last (r : RingBuffer α) (a : α) : List α :=
  (List.range r.count).map fun i => r.slots.getD ((r.idx + i) % r.count) a

/-- The ring holds the last `n` elements of a list, each in the slot of its index modulo `n`. -/
structure Holds (r : RingBuffer α) (n : Nat) (as : List α) : Prop where
  length : r.slots.length = n
  idx : r.idx = as.length % n
  total : r.total = as.length
  slots : ∀ i < as.length, as.length ≤ i + n → r.slots[i % n]? = as[i]?

theorem holds_new (n : Nat) (a : α) : (new n a).Holds n [] where
  length := List.length_replicate
  idx := (Nat.zero_mod n).symm
  total := rfl
  slots i hi := absurd hi (Nat.not_lt_zero i)

theorem Holds.push {r : RingBuffer α} {n : Nat} {as : List α} (h : r.Holds n as) (hn : 0 < n) (a : α) :
    (r.push a).Holds n (as ++ [a]) where
  length := by rw [RingBuffer.push, List.length_set, h.length]
  idx := by rw [RingBuffer.push, h.idx, h.length, List.length_append, List.length_singleton, Nat.mod_add_mod]
  total := by rw [RingBuffer.push, h.total, List.length_append, List.length_singleton]
  slots i hi hin := by
    rw [List.length_append, List.length_singleton] at hi hin
    rw [RingBuffer.push, h.idx]
    by_cases he : i = as.length
    · have hlt : as.length % n < r.slots.length := by
        rw [h.length]
        exact Nat.mod_lt _ hn
      rw [he, List.getElem?_set_self hlt, List.getElem?_concat_length]
    · have hne : as.length % n ≠ i % n := by
        intro hmod
        have hdvd : n ∣ as.length - i := Nat.dvd_of_mod_eq_zero (Nat.sub_mod_eq_zero_of_mod_eq hmod)
        have hle := Nat.le_of_dvd (by omega) hdvd
        omega
      rw [List.getElem?_set_ne hne, List.getElem?_append_left (by omega)]
      exact h.slots i (by omega) (by omega)

theorem holds_foldl_push {n : Nat} (hn : 0 < n) (as : List α) :
    ∀ {r : RingBuffer α} {bs : List α}, r.Holds n bs → (as.foldl push r).Holds n (bs ++ as) := by
  induction as with
  | nil => intro r bs h; rwa [List.append_nil]
  | cons a as ih =>
    intro r bs h
    rw [List.foldl_cons, List.append_cons]
    exact ih (h.push hn a)

/-- From the oldest slot on, the ring has the last elements in their order. -/
theorem Holds.last_eq {r : RingBuffer α} {n : Nat} {as : List α} (h : r.Holds n as) (a : α) :
    r.last a = as.drop (as.length - n) := by
  have hcount : r.count = min as.length n := by
    unfold count
    rw [h.total, h.length]
    split <;> omega
  refine List.ext_getElem? fun i => ?_
  unfold last
  rw [hcount, List.getElem?_map, List.getElem?_drop]
  by_cases hi : i < min as.length n
  · rw [List.getElem?_range hi, Option.map_some, List.getD_eq_getElem?_getD]
    have hslot : (r.idx + i) % min as.length n = (as.length - n + i) % n := by
      rw [h.idx]
      obtain hlt | hge := Nat.lt_or_ge as.length n
      · have h0 : as.length - n = 0 := by omega
        rw [Nat.min_eq_left (Nat.le_of_lt hlt), Nat.mod_eq_of_lt hlt, Nat.add_mod_left, h0, Nat.zero_add,
          Nat.mod_eq_of_lt (by omega), Nat.mod_eq_of_lt (by omega)]
      · rw [Nat.min_eq_right hge, Nat.mod_add_mod]
        have hsum : as.length + i = as.length - n + i + n := by omega
        rw [hsum, Nat.add_mod_right]
    rw [hslot, h.slots _ (by omega) (by omega), List.getElem?_eq_getElem (by omega), Option.getD_some]
  · rw [List.getElem?_eq_none (by rw [List.length_range]; omega), Option.map_none,
      List.getElem?_eq_none (by omega)]

theorem last_foldl_push {n : Nat} (hn : 0 < n) (a : α) (as : List α) :
    (as.foldl push (new n a)).last a = as.drop (as.length - n) := by
  have h := holds_foldl_push hn as (holds_new n a)
  exact h.last_eq a

end RingBuffer
