import Mathlib.Data.List.Basic
import Mathlib.Data.List.Induction
import Mathlib.Data.List.Pairwise
import Mathlib.Data.List.Perm.Basic
import Mathlib.Tactic.Ring

/-!
# Tables with an integer primary key and an autoincrement counter

* `KeyTable α` : rows in the order of their keys, with the highest key ever given out; the order and
  the bound are fields, so a table with two rows of one key cannot be built;
* `get`, `update`, `map`, `insert`, `insertAt`, `erase`, `clear` : the statements on one table, and
  for each what `get` returns after it;
* `mem_rows_iff` : `get` and membership agree;
* `All` : every row satisfies a predicate, and when it still does after a statement;
* `insertAll`, `newest`, `newId` : one insertion after another, the rows from the highest key down, and
  the key a row gets when a table is copied in that order.
-/

/-- Rows sorted by key; `seq` is the highest key ever given out and survives deletions. -/
structure KeyTable (α : Type*) where
  rows : List (Int × α)
  seq : Nat
  sorted : rows.Pairwise fun a b => a.1 < b.1
  bounded : ∀ r ∈ rows, r.1 ≤ seq

namespace KeyTable

variable {α β : Type*}

def empty : KeyTable α := ⟨[], 0, .nil, by simp⟩

instance : Inhabited (KeyTable α) := ⟨empty⟩

theorem find?_key_cons (r : Int × α) (rs : List (Int × α)) (k : Int) :
    (r :: rs).find? (fun r => r.1 == k) = if r.1 = k then some r else rs.find? fun r => r.1 == k := by
  by_cases h : r.1 = k <;> simp [h]

/-- The row with a key. -/
def get (t : KeyTable α) (id : Int) : Option α := (t.rows.find? fun r => r.1 == id).map Prod.snd

theorem unique (t : KeyTable α) {id : Int} {v w : α} (hv : (id, v) ∈ t.rows) (hw : (id, w) ∈ t.rows) :
    v = w := by
  have hp : t.rows.Pairwise fun a b => a.1 = b.1 → a.2 = b.2 := t.sorted.imp fun h e => by omega
  have : Std.Symm fun a b : Int × α => a.1 = b.1 → a.2 = b.2 := ⟨fun _ _ h e => (h e.symm).symm⟩
  exact hp.forall_of_forall (fun _ _ _ => rfl) hv hw rfl

theorem mem_rows_iff (t : KeyTable α) {id : Int} {v : α} : (id, v) ∈ t.rows ↔ t.get id = some v := by
  unfold get
  constructor
  · intro h
    cases hf : t.rows.find? fun r => r.1 == id with
    | none => exact absurd (List.find?_eq_none.mp hf _ h) (by simp)
    | some r =>
      have hr := List.mem_of_find?_eq_some hf
      have hk : r.1 = id := by simpa using List.find?_some hf
      obtain ⟨k, w⟩ := r
      subst hk
      rw [t.unique h hr]
      rfl
  · intro h
    obtain ⟨⟨k, w⟩, hf, rfl⟩ := Option.map_eq_some_iff.mp h
    have hk : k = id := by simpa using List.find?_some hf
    exact hk ▸ List.mem_of_find?_eq_some hf

theorem get_eq_none_iff (t : KeyTable α) (id : Int) : t.get id = none ↔ id ∉ t.rows.map Prod.fst := by
  constructor
  · intro h hm
    obtain ⟨⟨k, v⟩, hr, rfl⟩ := List.mem_map.mp hm
    rw [t.mem_rows_iff, h] at hr
    cases hr
  · intro h
    cases hg : t.get id with
    | none => rfl
    | some v => exact absurd (List.mem_map_of_mem (f := Prod.fst) (t.mem_rows_iff.mpr hg)) h

theorem get_le_seq (t : KeyTable α) {id : Int} {v : α} (h : t.get id = some v) : id ≤ t.seq :=
  t.bounded _ (t.mem_rows_iff.mpr h)

theorem get_eq_none_of_seq_lt (t : KeyTable α) {id : Int} (h : (t.seq : Int) < id) : t.get id = none := by
  cases hg : t.get id with
  | none => rfl
  | some v => exact absurd (t.get_le_seq hg) (by omega)

@[simp] theorem get_empty (id : Int) : (empty : KeyTable α).get id = none := rfl

/-! ## Updates -/

/-- Change every row, by key and content. -/
def mapRows (t : KeyTable α) (f : Int → α → β) : KeyTable β where
  rows := t.rows.map fun r => (r.1, f r.1 r.2)
  seq := t.seq
  sorted := List.pairwise_map.mpr t.sorted
  bounded := by
    intro r hr
    obtain ⟨r', hr', rfl⟩ := List.mem_map.mp hr
    exact t.bounded r' hr'

/-- Change the row with a key, if there is one. -/
def update (t : KeyTable α) (id : Int) (f : α → α) : KeyTable α :=
  t.mapRows fun k v => if k = id then f v else v

/-- Change every row. -/
def map (t : KeyTable α) (f : α → α) : KeyTable α := t.mapRows fun _ v => f v

@[simp] theorem seq_mapRows (t : KeyTable α) (f : Int → α → β) : (t.mapRows f).seq = t.seq := rfl

@[simp] theorem seq_update (t : KeyTable α) (id : Int) (f : α → α) : (t.update id f).seq = t.seq := rfl

@[simp] theorem seq_map (t : KeyTable α) (f : α → α) : (t.map f).seq = t.seq := rfl

theorem get_mapRows (t : KeyTable α) (f : Int → α → β) (k : Int) :
    (t.mapRows f).get k = (t.get k).map (f k) := by
  simp only [get, mapRows]
  induction t.rows with
  | nil => rfl
  | cons r rs ih =>
    rw [List.map_cons, find?_key_cons, find?_key_cons]
    by_cases h : r.1 = k
    · simp [h]
    · rw [if_neg h, if_neg h, ih]

@[simp] theorem get_map (t : KeyTable α) (f : α → α) (k : Int) : (t.map f).get k = (t.get k).map f :=
  get_mapRows t _ k

theorem get_update (t : KeyTable α) (id : Int) (f : α → α) (k : Int) :
    (t.update id f).get k = if k = id then (t.get k).map f else t.get k := by
  rw [update, get_mapRows]
  by_cases h : k = id <;> simp [h]

@[simp] theorem get_update_self (t : KeyTable α) (id : Int) (f : α → α) :
    (t.update id f).get id = (t.get id).map f := by
  rw [get_update, if_pos rfl]

theorem get_update_of_ne (t : KeyTable α) {id k : Int} (f : α → α) (h : k ≠ id) :
    (t.update id f).get k = t.get k := by
  rw [get_update, if_neg h]

/-! ## Insertion and deletion -/

/-- The key the next insertion gives out. -/
def nextId (t : KeyTable α) : Int := t.seq + 1

/-- Insert a row under the next key. -/
def insert (t : KeyTable α) (v : α) : KeyTable α where
  rows := t.rows ++ [(t.nextId, v)]
  seq := t.seq + 1
  sorted := by
    refine List.pairwise_append.mpr ⟨t.sorted, List.pairwise_singleton _ _, ?_⟩
    intro a ha b hb
    have := t.bounded a ha
    rw [List.mem_singleton.mp hb]
    simp only [nextId]
    omega
  bounded := by
    intro r hr
    rcases List.mem_append.mp hr with h | h
    · have := t.bounded r h; omega
    · rw [List.mem_singleton.mp h]; simp [nextId]

/-- Insert a row under a given key, which must be free. -/
def insertAt (t : KeyTable α) (id : Int) (v : α) : Option (KeyTable α) :=
  if t.get id = none then
    some
      { rows := t.rows.filter (fun r => r.1 < id) ++ (id, v) :: t.rows.filter (fun r => id < r.1)
        seq := max t.seq id.toNat
        sorted := by
          refine List.pairwise_append.mpr ⟨t.sorted.filter _, ?_, ?_⟩
          · refine List.pairwise_cons.mpr ⟨fun r hr => ?_, t.sorted.filter _⟩
            simpa using (List.mem_filter.mp hr).2
          · intro a ha b hb
            have hlt : a.1 < id := by simpa using (List.mem_filter.mp ha).2
            rcases List.mem_cons.mp hb with rfl | hb
            · exact hlt
            · have : id < b.1 := by simpa using (List.mem_filter.mp hb).2
              omega
        bounded := by
          intro r hr
          have hmem : r = (id, v) ∨ r ∈ t.rows := by
            rcases List.mem_append.mp hr with h | h
            · exact .inr (List.mem_filter.mp h).1
            · exact (List.mem_cons.mp h).imp_right fun h => (List.mem_filter.mp h).1
          rcases hmem with rfl | h
          · have := Int.self_le_toNat id
            push_cast
            omega
          · have := t.bounded r h
            omega }
  else none

/-- Delete the row with a key. -/
def erase (t : KeyTable α) (id : Int) : KeyTable α where
  rows := t.rows.filter fun r => r.1 != id
  seq := t.seq
  sorted := t.sorted.filter _
  bounded := fun r hr => t.bounded r (List.mem_filter.mp hr).1

/-- Keep the rows with a content. -/
def filter (t : KeyTable α) (p : α → Bool) : KeyTable α where
  rows := t.rows.filter fun r => p r.2
  seq := t.seq
  sorted := t.sorted.filter _
  bounded := fun r hr => t.bounded r (List.mem_filter.mp hr).1

theorem mem_rows_filter (t : KeyTable α) (p : α → Bool) (r : Int × α) :
    r ∈ (t.filter p).rows ↔ r ∈ t.rows ∧ p r.2 = true := List.mem_filter

/-- Delete every row; the counter stays. -/
def clear (t : KeyTable α) : KeyTable α := ⟨[], t.seq, .nil, by simp⟩

@[simp] theorem seq_insert (t : KeyTable α) (v : α) : (t.insert v).seq = t.seq + 1 := rfl

@[simp] theorem seq_erase (t : KeyTable α) (id : Int) : (t.erase id).seq = t.seq := rfl

@[simp] theorem seq_clear (t : KeyTable α) : t.clear.seq = t.seq := rfl

@[simp] theorem rows_clear (t : KeyTable α) : t.clear.rows = [] := rfl

@[simp] theorem get_clear (t : KeyTable α) (id : Int) : t.clear.get id = none := rfl

theorem get_insert (t : KeyTable α) (v : α) (k : Int) :
    (t.insert v).get k = if k = t.nextId then some v else t.get k := by
  by_cases h : k = t.nextId
  · rw [if_pos h, ← mem_rows_iff, h]
    exact List.mem_append_right _ (List.mem_singleton_self _)
  · rw [if_neg h]
    cases hg : t.get k with
    | some w =>
      rw [← mem_rows_iff] at hg ⊢
      exact List.mem_append_left _ hg
    | none =>
      cases hg' : (t.insert v).get k with
      | none => rfl
      | some w =>
        rw [← mem_rows_iff] at hg'
        rcases List.mem_append.mp hg' with h' | h'
        · rw [mem_rows_iff, hg] at h'; cases h'
        · exact absurd (congrArg Prod.fst (List.mem_singleton.mp h')) h

@[simp] theorem get_insert_self (t : KeyTable α) (v : α) : (t.insert v).get t.nextId = some v := by
  rw [get_insert, if_pos rfl]

theorem get_insert_of_some (t : KeyTable α) (v : α) {k : Int} {w : α} (h : t.get k = some w) :
    (t.insert v).get k = some w := by
  have := t.get_le_seq h
  rw [get_insert, if_neg (by simp only [nextId]; omega), h]

@[simp] theorem get_nextId (t : KeyTable α) : t.get t.nextId = none :=
  t.get_eq_none_of_seq_lt (by simp only [nextId]; omega)

theorem insertAt_of_free (t : KeyTable α) {id : Int} (v : α) (h : t.get id = none) :
    ∃ t', t.insertAt id v = some t' ∧ t'.rows.Perm ((id, v) :: t.rows) := by
  refine ⟨_, if_pos h, ?_⟩
  have hne : ∀ r ∈ t.rows, r.1 ≠ id := by
    intro r hr e
    have hget : t.get r.1 = some r.2 := t.mem_rows_iff.mp hr
    rw [e, h] at hget
    cases hget
  have hsplit : t.rows.filter (fun r => id < r.1) = t.rows.filter fun r => !decide (r.1 < id) := by
    refine List.filter_congr fun r hr => ?_
    have := hne r hr
    by_cases hlt : r.1 < id
    · simp [hlt]; omega
    · simp [hlt]; omega
  refine List.perm_middle.trans (.cons _ ?_)
  rw [hsplit]
  exact List.filter_append_perm _ _

theorem get_of_perm {t t' : KeyTable α} (h : t'.rows.Perm t.rows) (k : Int) : t'.get k = t.get k := by
  cases hg : t.get k with
  | some v => exact t'.mem_rows_iff.mp (h.mem_iff.mpr (t.mem_rows_iff.mpr hg))
  | none =>
    cases hg' : t'.get k with
    | none => rfl
    | some v =>
      have := t.mem_rows_iff.mp (h.mem_iff.mp (t'.mem_rows_iff.mpr hg'))
      rw [hg] at this
      cases this

theorem get_erase (t : KeyTable α) (id k : Int) :
    (t.erase id).get k = if k = id then none else t.get k := by
  simp only [get, erase]
  induction t.rows with
  | nil => simp
  | cons r rs ih =>
    rw [List.filter_cons, find?_key_cons]
    by_cases hr : r.1 = id
    · rw [if_neg (by simp [hr]), ih]
      by_cases hk : k = id
      · rw [if_pos hk, if_pos hk]
      · rw [if_neg hk, if_neg hk, if_neg fun e => hk (e.symm.trans hr)]
    · rw [if_pos (by simp [hr]), find?_key_cons]
      by_cases he : r.1 = k
      · rw [if_pos he, if_pos he, if_neg fun e => hr (he.trans e)]
      · rw [if_neg he, if_neg he, ih]

@[simp] theorem get_erase_self (t : KeyTable α) (id : Int) : (t.erase id).get id = none := by
  rw [get_erase, if_pos rfl]

theorem get_erase_of_ne (t : KeyTable α) {id k : Int} (h : k ≠ id) : (t.erase id).get k = t.get k := by
  rw [get_erase, if_neg h]

theorem get_of_get_erase (t : KeyTable α) {id k : Int} {v : α} (h : (t.erase id).get k = some v) :
    t.get k = some v ∧ k ≠ id := by
  rw [get_erase] at h
  split at h
  · cases h
  · exact ⟨h, ‹_›⟩

/-! ## What all rows satisfy -/

/-- Every row has a content that satisfies `P`. -/
def All (t : KeyTable α) (P : α → Prop) : Prop := ∀ r ∈ t.rows, P r.2

variable {P : α → Prop}

theorem all_insert (t : KeyTable α) (v : α) : (t.insert v).All P ↔ t.All P ∧ P v := by
  constructor
  · intro h
    exact ⟨fun r hr => h r (List.mem_append_left _ hr), h (t.nextId, v) (List.mem_append_right _ (.head _))⟩
  · rintro ⟨h, hv⟩ r hr
    rcases List.mem_append.mp hr with hr | hr
    · exact h r hr
    · rw [List.mem_singleton.mp hr]
      exact hv

theorem all_update (t : KeyTable α) (id : Int) (f : α → α) :
    (t.update id f).All P ↔ ∀ r ∈ t.rows, P (if r.1 = id then f r.2 else r.2) :=
  List.forall_mem_map

theorem All.update {t : KeyTable α} (h : t.All P) (id : Int) {f : α → α} (hf : ∀ v, P v → P (f v)) :
    (t.update id f).All P := by
  refine (t.all_update id f).mpr fun r hr => ?_
  split
  · exact hf _ (h r hr)
  · exact h r hr

theorem All.update_iff {t : KeyTable α} (h : t.All P) {id : Int} {v : α} (hget : t.get id = some v) (f : α → α) :
    (t.update id f).All P ↔ P (f v) := by
  have hmem := t.mem_rows_iff.mpr hget
  rw [all_update]
  constructor
  · intro hall
    simpa using hall _ hmem
  · intro hv r hr
    split
    · next hid =>
      obtain ⟨k, w⟩ := r
      dsimp only at hid
      subst hid
      rw [t.unique hr hmem]
      exact hv
    · exact h r hr

theorem All.filter {t : KeyTable α} (h : t.All P) (p : α → Bool) : (t.filter p).All P :=
  fun r hr => h r ((t.mem_rows_filter p r).mp hr).1

theorem All.erase {t : KeyTable α} (h : t.All P) (id : Int) : (t.erase id).All P :=
  fun r hr => h r (List.mem_filter.mp hr).1

/-! ## Copying a table -/

/-- Insert rows one after the other. -/
def insertAll (t : KeyTable α) (vs : List α) : KeyTable α := vs.foldl insert t

@[simp] theorem insertAll_nil (t : KeyTable α) : t.insertAll [] = t := rfl

@[simp] theorem insertAll_cons (t : KeyTable α) (v : α) (vs : List α) :
    t.insertAll (v :: vs) = (t.insert v).insertAll vs := rfl

theorem values_insertAll (t : KeyTable α) (vs : List α) :
    (t.insertAll vs).rows.map Prod.snd = t.rows.map Prod.snd ++ vs := by
  induction vs generalizing t with
  | nil => simp
  | cons v vs ih =>
    rw [insertAll_cons, ih]
    simp [insert]

theorem get_insertAll_of_some (t : KeyTable α) (vs : List α) {k : Int} {w : α} (h : t.get k = some w) :
    (t.insertAll vs).get k = some w := by
  induction vs generalizing t with
  | nil => exact h
  | cons v vs ih => exact ih _ (t.get_insert_of_some v h)

/-- The rows come under consecutive keys. -/
theorem get_insertAll (t : KeyTable α) (vs : List α) (i : Nat) (v : α) (h : vs[i]? = some v) :
    (t.insertAll vs).get (t.nextId + i) = some v := by
  induction vs generalizing t i with
  | nil => simp at h
  | cons w vs ih =>
    rw [insertAll_cons]
    cases i with
    | zero =>
      have hw : w = v := by simpa using h
      rw [← hw]
      have := (t.insert w).get_insertAll_of_some vs (t.get_insert_self w)
      simpa using this
    | succ i =>
      have := ih (t.insert w) i (by simpa using h)
      have hid : (t.insert w).nextId + i = t.nextId + ((i + 1 : Nat) : Int) := by
        simp only [nextId, seq_insert]
        push_cast
        omega
      rwa [hid] at this

/-- A fold of statements, each of which inserts. -/
theorem foldlM_insert {ε ρ : Type*} (stmt : KeyTable α → ρ → Except ε (KeyTable α)) (f : ρ → α)
    (t : KeyTable α) (rs : List ρ) (h : ∀ t, ∀ r ∈ rs, stmt t r = .ok (t.insert (f r))) :
    rs.foldlM stmt t = .ok (t.insertAll (rs.map f)) := by
  induction rs generalizing t with
  | nil => rfl
  | cons r rs ih =>
    rw [List.foldlM_cons, h t r List.mem_cons_self]
    exact ih _ fun t r hr => h t r (List.mem_cons_of_mem _ hr)

/-- The rows from the highest key down. -/
def newest (t : KeyTable α) : List (Int × α) := t.rows.reverse

theorem mem_newest (t : KeyTable α) {id : Int} {v : α} : (id, v) ∈ t.newest ↔ t.get id = some v := by
  rw [newest, List.mem_reverse, mem_rows_iff]

/-- The number of rows with a higher key. -/
def above (t : KeyTable α) (id : Int) : Nat := t.rows.countP fun r => id < r.1

/-- The key that the row with key `id` gets when `copied` is inserted, in this order, into a table
whose next key is `next`. -/
def newId (next : Int) (copied : List (Int × α)) (id : Int) : Option Int :=
  (copied.findIdx? fun r => r.1 == id).map fun i : Nat => next + i

theorem findIdx?_reverse (rows : List (Int × α)) (hs : rows.Pairwise fun a b => a.1 < b.1) {id : Int}
    {v : α} (h : (id, v) ∈ rows) :
    (rows.reverse.findIdx? fun r => r.1 == id) = some (rows.countP fun r => id < r.1) := by
  induction rows using List.reverseRecOn with
  | nil => cases h
  | append_singleton rs r ih =>
    have hlt : ∀ r' ∈ rs, r'.1 < r.1 := fun r' hr' =>
      (List.pairwise_append.mp hs).2.2 r' hr' r (List.mem_singleton_self r)
    rw [List.reverse_append, List.reverse_singleton, List.singleton_append, List.findIdx?_cons,
      List.countP_append, List.countP_singleton]
    rcases List.mem_append.mp h with h | h
    · have hr : id < r.1 := hlt _ h
      have hne : (r.1 == id) = false := by
        simp only [beq_eq_false_iff_ne, ne_eq]
        omega
      rw [hne, if_neg Bool.false_ne_true, ih (List.pairwise_append.mp hs).1 h, if_pos (by simpa using hr)]
      rfl
    · have hr : r.1 = id := (congrArg Prod.fst (List.mem_singleton.mp h)).symm
      have hnone : rs.countP (fun r' => id < r'.1) = 0 := by
        refine List.countP_eq_zero.mpr fun r' hr' => ?_
        have := hlt r' hr'
        simp only [decide_eq_true_eq]
        omega
      rw [hnone]
      simp [hr]

theorem newId_newest (t : KeyTable α) (next : Int) {id : Int} {v : α} (h : t.get id = some v) :
    newId next t.newest id = some (next + t.above id) := by
  unfold newId newest above
  rw [findIdx?_reverse t.rows t.sorted (t.mem_rows_iff.mpr h)]
  rfl

theorem newId_take_newest (t : KeyTable α) (next : Int) (n : Nat) {id : Int} {v : α}
    (h : t.get id = some v) :
    newId next (t.newest.take n) id = if t.above id < n then some (next + t.above id) else none := by
  unfold newId newest
  rw [List.findIdx?_take, findIdx?_reverse t.rows t.sorted (t.mem_rows_iff.mpr h)]
  unfold above
  by_cases hn : t.rows.countP (fun r => id < r.1) < n
  · simp [Option.guard, hn]
  · simp [Option.guard, hn]

/-- A row is found under the key it was given. -/
theorem exists_of_newId (t : KeyTable β) (copied : List (Int × α)) (vs : List β) {R : α → β → Prop}
    (hvs : ∀ (i : Nat) (r : Int × α), copied[i]? = some r → ∃ w, vs[i]? = some w ∧ R r.2 w) {id id' : Int}
    (h : newId t.nextId copied id = some id') :
    ∃ v w, (id, v) ∈ copied ∧ (t.insertAll vs).get id' = some w ∧ R v w := by
  obtain ⟨i, hi, rfl⟩ := Option.map_eq_some_iff.mp h
  obtain ⟨hlt, hp, -⟩ := List.findIdx?_eq_some_iff_getElem.mp hi
  have hkey : copied[i].1 = id := by simpa using hp
  obtain ⟨w, hw, hR⟩ := hvs i copied[i] (List.getElem?_eq_getElem hlt)
  refine ⟨copied[i].2, w, ?_, t.get_insertAll vs i w hw, hR⟩
  rw [← hkey]
  exact List.getElem_mem hlt

theorem newId_isSome (next : Int) {copied : List (Int × α)} {id : Int} {v : α} (h : (id, v) ∈ copied) :
    ∃ id', newId next copied id = some id' := by
  have : (copied.findIdx? fun r => r.1 == id).isSome = true :=
    List.findIdx?_isSome.trans (List.any_eq_true.mpr ⟨(id, v), h, beq_self_eq_true id⟩)
  obtain ⟨i, hi⟩ := Option.isSome_iff_exists.mp this
  exact ⟨next + i, by rw [newId, hi]; rfl⟩

end KeyTable
