import Mathlib.Data.List.Basic

/-!
# Concurrent workers

A pool is the list of the local states of workers that take turns; a worker is known by its place.

* `join`, `put`, `modify` : a worker joins, and one worker gets another local state;
* `get?_join`, `get?_put`, `get?_modify` : the local states after that; `forall_put_iff` : what holds of all of them;
* `countP_join`, `countP_put` : how the number of workers in some local states changes.
-/

/-- The local states of the workers. -/
structure Pool (ω : Type*) where
  workers : List ω := []

namespace Pool

variable {ω : Type*}

/-- The local state of a worker. -/
def get? (p : Pool ω) (n : Nat) : Option ω := p.workers[n]?

def join (p : Pool ω) (w : ω) : Pool ω := ⟨p.workers ++ [w]⟩

def put (p : Pool ω) (n : Nat) (w : ω) : Pool ω := ⟨p.workers.set n w⟩

def modify (p : Pool ω) (n : Nat) (f : ω → ω) : Pool ω := ⟨p.workers.modify n f⟩

/-- How many workers are in some local states. -/
def countP (q : ω → Bool) (p : Pool ω) : Nat := p.workers.countP q

theorem get?_join (p : Pool ω) (w : ω) (n : Nat) :
    (p.join w).get? n = if n = p.workers.length then some w else p.get? n := by
  unfold get? join
  rw [List.getElem?_append]
  split
  · next h => rw [if_neg (by omega)]
  · next h =>
    by_cases hn : n = p.workers.length
    · simp [hn]
    · have hlt : p.workers.length < n := by omega
      rw [if_neg hn, List.getElem?_eq_none (by simp; omega), List.getElem?_eq_none (by omega)]

theorem get?_put (p : Pool ω) {n : Nat} {w : ω} (h : p.get? n = some w) (w' : ω) (k : Nat) :
    (p.put n w').get? k = if k = n then some w' else p.get? k := by
  have hlt : n < p.workers.length := (List.getElem?_eq_some_iff.mp h).1
  unfold get? put
  rw [List.getElem?_set]
  by_cases hk : k = n
  · simp [hk, hlt]
  · rw [if_neg (Ne.symm hk), if_neg hk]

/-- What holds of all workers, after one of them got another local state. -/
theorem forall_put_iff {P : ω → Prop} (p : Pool ω) {n : Nat} {w : ω} (h : p.get? n = some w)
    (hP : ∀ k v, p.get? k = some v → P v) (w' : ω) : (∀ k v, (p.put n w').get? k = some v → P v) ↔ P w' := by
  simp only [get?_put p h]
  constructor
  · intro hall
    exact hall n w' (if_pos rfl)
  · intro hw k v hv
    split at hv
    · exact Option.some.inj hv ▸ hw
    · exact hP k v hv

theorem get?_modify (p : Pool ω) (n : Nat) (f : ω → ω) (k : Nat) :
    (p.modify n f).get? k = if k = n then (p.get? k).map f else p.get? k := by
  unfold get? modify
  rw [List.getElem?_modify]
  by_cases hk : k = n
  · simp [hk]
  · rw [if_neg hk]
    simp [Ne.symm hk]

theorem countP_join (q : ω → Bool) (p : Pool ω) (w : ω) :
    (p.join w).countP q = p.countP q + if q w then 1 else 0 := by
  unfold countP join
  rw [List.countP_append, List.countP_singleton]

theorem countP_put (q : ω → Bool) (p : Pool ω) {n : Nat} {w : ω} (h : p.get? n = some w) (w' : ω) :
    (p.put n w').countP q + (if q w then 1 else 0) = p.countP q + if q w' then 1 else 0 := by
  obtain ⟨ws⟩ := p
  change ws[n]? = some w at h
  change (ws.set n w').countP q + _ = ws.countP q + _
  induction ws generalizing n with
  | nil => cases h
  | cons v vs ih =>
    cases n with
    | zero =>
      obtain rfl := Option.some.inj h
      simp only [List.set_cons_zero, List.countP_cons]
      omega
    | succ n =>
      have hrec := ih h
      simp only [List.set_cons_succ, List.countP_cons]
      omega

end Pool
