import Mathlib.Data.List.Basic
import Mathlib.Data.List.Induction
import Mathlib.Data.List.Nodup
import Mathlib.Logic.Relation

/-!
# Work lists with a durable checkpoint

A worker goes through the indices in order. It makes the call of an index, then stores the next
index; it may be cut off anywhere and starts again from the stored index.

* `Step` : one call, one store, or a cut-off; the log keeps them in order;
* `Inv` : what the log says about the stored index, kept by every step (`inv_of_reachable`);
* `Inv.calls_sorted`, `Inv.attempted`, `Inv.cut_of_repeat` : calls come in index order, every index
  below the stored one was called, and between two calls of one index there is a cut-off before any
  store;
* `Inv.calls_nodup` : without a cut-off no index is called twice.
-/

namespace Checkpoint

/-- What the log of one work list records. -/
inductive Mark
  | attempt (i : Int)
  | saved (k : Int)
  | exit
  deriving DecidableEq, Repr

/-- The stored index, whether its call was made without a store since, and the log. -/
structure State where
  index : Int
  opened : Bool
  log : List Mark

def State.start (k : Int) : State := ⟨k, false, []⟩

inductive Step : State → State → Prop
  /-- The call of the stored index. -/
  | attempt (k : Int) (l : List Mark) : Step ⟨k, false, l⟩ ⟨k, true, l ++ [.attempt k]⟩
  /-- The store that follows a call. -/
  | commit (k : Int) (l : List Mark) : Step ⟨k, true, l⟩ ⟨k + 1, false, l ++ [.saved (k + 1)]⟩
  /-- A store of the same index. -/
  | resave (k : Int) (l : List Mark) : Step ⟨k, false, l⟩ ⟨k, false, l ++ [.saved k]⟩
  /-- A cut-off: whether the call was made is forgotten. -/
  | exit (k : Int) (o : Bool) (l : List Mark) : Step ⟨k, o, l⟩ ⟨k, false, l ++ [.exit]⟩

abbrev Reachable (k : Int) (c : State) : Prop := Relation.ReflTransGen Step (.start k) c

/-! ## Logs -/

/-- The indices called, in order. -/
def calls (l : List Mark) : List Int :=
  l.filterMap fun | .attempt i => some i | _ => none

/-- A cut-off comes before any store. -/
def cut : List Mark → Bool
  | [] => false
  | .attempt _ :: b => cut b
  | .saved _ :: _ => false
  | .exit :: _ => true

/-- What was logged since the last cut-off, newest first. -/
def recent (l : List Mark) : List Mark := l.reverse.takeWhile (· ≠ .exit)

/-- No store and no cut-off. -/
def silent (l : List Mark) : Bool := l.all fun | .attempt _ => true | _ => false

@[simp] theorem calls_nil : calls [] = [] := rfl

@[simp] theorem calls_append (l l' : List Mark) : calls (l ++ l') = calls l ++ calls l' :=
  List.filterMap_append

@[simp] theorem calls_attempt (i : Int) : calls [.attempt i] = [i] := rfl

@[simp] theorem calls_saved (k : Int) : calls [.saved k] = [] := rfl

@[simp] theorem calls_exit : calls [.exit] = [] := rfl

@[simp] theorem recent_exit (l : List Mark) : recent (l ++ [.exit]) = [] := by simp [recent]

theorem recent_snoc (l : List Mark) {m : Mark} (hm : m ≠ .exit) : recent (l ++ [m]) = m :: recent l := by
  simp [recent, hm]

theorem mem_of_mem_recent {l : List Mark} {m : Mark} (h : m ∈ recent l) : m ∈ l :=
  List.mem_reverse.mp (List.takeWhile_subset _ h)

theorem mem_calls {l : List Mark} {i : Int} : i ∈ calls l ↔ .attempt i ∈ l := by
  simp only [calls, List.mem_filterMap]
  constructor
  · rintro ⟨m, hm, h⟩
    cases m <;> simp_all
  · intro h
    exact ⟨_, h, rfl⟩

theorem cut_append {b : List Mark} (h : cut b = true) (c : List Mark) : cut (b ++ c) = true := by
  induction b with
  | nil => cases h
  | cons m b ih =>
    cases m with
    | attempt i => exact ih h
    | saved k => cases h
    | exit => rfl

theorem cut_append_exit {b : List Mark} (h : silent b = true) : cut (b ++ [.exit]) = true := by
  induction b with
  | nil => rfl
  | cons m b ih =>
    cases m with
    | attempt i => exact ih (by simpa [silent] using h)
    | saved k => simp [silent] at h
    | exit => rfl

/-- A cut-off before any store, spelled out. -/
theorem cut_iff {b : List Mark} : cut b = true ↔
    ∃ b₁ b₂, b = b₁ ++ .exit :: b₂ ∧ .exit ∉ b₁ ∧ ∀ k, .saved k ∉ b₁ := by
  induction b with
  | nil => simp [cut]
  | cons m b ih =>
    constructor
    · intro h
      cases m with
      | attempt i =>
        obtain ⟨b₁, b₂, rfl, h₁, h₂⟩ := ih.mp h
        exact ⟨.attempt i :: b₁, b₂, rfl, by simpa using h₁, by simpa using h₂⟩
      | saved k => cases h
      | exit => exact ⟨[], b, rfl, by simp, by simp⟩
    · rintro ⟨b₁, b₂, hb, h₁, h₂⟩
      cases b₁ with
      | nil => cases hb; rfl
      | cons m' b₁ =>
        obtain ⟨rfl, rfl⟩ := List.cons.inj hb
        cases m with
        | attempt i =>
          exact ih.mpr ⟨b₁, b₂, rfl, fun h => h₁ (List.mem_cons_of_mem _ h),
            fun k h => h₂ k (List.mem_cons_of_mem _ h)⟩
        | saved k => exact absurd (List.mem_cons_self ..) (h₂ k)
        | exit => rfl

/-- Splitting `l ++ [m]` at an attempt: the attempt is in `l`, or it is `m`. -/
theorem split_snoc {l a b : List Mark} {m : Mark} {i : Int} (h : l ++ [m] = a ++ .attempt i :: b) :
    (∃ b', b = b' ++ [m] ∧ l = a ++ .attempt i :: b') ∨ (b = [] ∧ m = .attempt i ∧ l = a) := by
  rcases List.eq_nil_or_concat b with rfl | ⟨b', m', rfl⟩
  · obtain ⟨h₁, h₂⟩ := List.append_inj' h rfl
    exact Or.inr ⟨rfl, (List.cons.inj h₂).1, h₁⟩
  · rw [List.concat_eq_append, ← List.cons_append, ← List.append_assoc] at h
    obtain ⟨h₁, h₂⟩ := List.append_inj' h rfl
    exact Or.inl ⟨b', by rw [List.concat_eq_append, (List.cons.inj h₂).1], h₁⟩

/-! ## The invariant -/

/-- What the log says when the work began at index `k₀`. -/
structure Inv (k₀ : Int) (c : State) : Prop where
  le : ∀ i, .attempt i ∈ c.log → i ≤ c.index
  start_le : k₀ ≤ c.index
  attempted : ∀ i, k₀ ≤ i → i < c.index → .attempt i ∈ c.log
  opened : c.opened = true → .attempt c.index ∈ recent c.log
  sorted : (calls c.log).Pairwise (· ≤ ·)
  closed_cut : c.opened = false → ∀ a b, c.log = a ++ .attempt c.index :: b → cut b = true
  opened_cut : c.opened = true → ∀ a b, c.log = a ++ .attempt c.index :: b → cut b = true ∨ silent b = true
  repeated : ∀ i a b d, c.log = a ++ .attempt i :: (b ++ .attempt i :: d) → cut b = true

theorem inv_start (k : Int) : Inv k (.start k) where
  le := by simp [State.start]
  start_le := Int.le_refl k
  attempted := fun i h h' => absurd h' (Int.not_lt.mpr h)
  opened := by simp [State.start]
  sorted := List.Pairwise.nil
  closed_cut := by simp [State.start]
  opened_cut := by simp [State.start]
  repeated := by simp [State.start]

section
variable {k₀ k : Int} {l : List Mark}

theorem saved_ne_attempt (k i : Int) : Mark.saved k ≠ .attempt i := nofun

theorem attempt_mem_of_snoc {m : Mark} (hm : ∀ i, m ≠ .attempt i) {i : Int} (h : .attempt i ∈ l ++ [m]) :
    .attempt i ∈ l :=
  (List.mem_append.mp h).resolve_right fun hlast => hm i (List.mem_singleton.mp hlast).symm

/-- A mark that is no attempt is no attempt of a split. -/
theorem split_snoc_of_ne {m : Mark} (hm : ∀ i, m ≠ .attempt i) {a b : List Mark} {i : Int}
    (h : l ++ [m] = a ++ .attempt i :: b) : ∃ b', b = b' ++ [m] ∧ l = a ++ .attempt i :: b' :=
  (split_snoc h).resolve_right fun hlast => hm i hlast.2.1

/-- A mark that is no attempt makes no new pair of attempts. -/
theorem repeated_snoc {m : Mark} (hm : ∀ i, m ≠ .attempt i)
    (h : ∀ i a b d, l = a ++ .attempt i :: (b ++ .attempt i :: d) → cut b = true) :
    ∀ i a b d, l ++ [m] = a ++ .attempt i :: (b ++ .attempt i :: d) → cut b = true := by
  intro i a b d he
  obtain ⟨d', -, hl⟩ := split_snoc_of_ne (a := a ++ .attempt i :: b) (b := d) (i := i) hm (by simpa using he)
  exact h i a b d' (by simpa using hl)

theorem Inv.attempt (hi : Inv k₀ ⟨k, false, l⟩) : Inv k₀ ⟨k, true, l ++ [.attempt k]⟩ where
  le := by
    intro i h
    rcases List.mem_append.mp h with hold | hnew
    · exact hi.le i hold
    · cases List.mem_singleton.mp hnew
      exact Int.le_refl _
  start_le := hi.start_le
  attempted := fun i h h' => List.mem_append_left _ (hi.attempted i h h')
  opened := fun _ => recent_snoc l (m := .attempt k) (by simp) ▸ List.mem_cons_self ..
  sorted := by
    rw [calls_append, calls_attempt]
    refine List.pairwise_append.mpr ⟨hi.sorted, List.pairwise_singleton _ _, ?_⟩
    intro a ha b hb
    cases List.mem_singleton.mp hb
    exact hi.le a (mem_calls.mp ha)
  closed_cut := fun h => nomatch h
  opened_cut := by
    intro _ a b he
    rcases split_snoc he with ⟨b', rfl, hl⟩ | ⟨rfl, -, -⟩
    · exact Or.inl (cut_append (hi.closed_cut rfl a b' hl) _)
    · exact Or.inr rfl
  repeated := by
    intro i a b d he
    rcases split_snoc (a := a ++ .attempt i :: b) (b := d) (i := i) (by simpa using he) with
      ⟨d', rfl, hl⟩ | ⟨rfl, hm, hl⟩
    · exact hi.repeated i a b d' (by simpa using hl)
    · cases hm
      exact hi.closed_cut rfl a b hl

theorem Inv.commit (hi : Inv k₀ ⟨k, true, l⟩) : Inv k₀ ⟨k + 1, false, l ++ [.saved (k + 1)]⟩ where
  le := fun i h => Int.le_trans (hi.le i (attempt_mem_of_snoc (saved_ne_attempt _) h)) (Int.le_add_one (Int.le_refl k))
  start_le := Int.le_trans hi.start_le (Int.le_add_one (Int.le_refl k))
  attempted := by
    intro i h h'
    refine List.mem_append_left _ ?_
    rcases Int.lt_or_le i k with hlt | hge
    · exact hi.attempted i h hlt
    · have heq : i = k := by
        simp only at h'
        omega
      rw [heq]
      exact mem_of_mem_recent (hi.opened rfl)
  opened := fun h => nomatch h
  sorted := by
    rw [calls_append, calls_saved, List.append_nil]
    exact hi.sorted
  closed_cut := by
    -- the next index has not been called
    intro _ a b he
    obtain ⟨b', -, hl⟩ := split_snoc_of_ne (saved_ne_attempt _) he
    have hle := hi.le (k + 1) (show .attempt (k + 1) ∈ l from hl ▸ List.mem_append_right _ (List.mem_cons_self ..))
    simp only at hle
    omega
  opened_cut := fun h => nomatch h
  repeated := repeated_snoc (saved_ne_attempt _) hi.repeated

/-- A cut-off, or a store of the same index, leaves the calls as they were. -/
theorem Inv.forget {o : Bool} {m : Mark} (hm : ∀ i, m ≠ .attempt i) (hi : Inv k₀ ⟨k, o, l⟩)
    (hcut : ∀ a b, l = a ++ .attempt k :: b → cut (b ++ [m]) = true) : Inv k₀ ⟨k, false, l ++ [m]⟩ where
  le := fun i h => hi.le i (attempt_mem_of_snoc hm h)
  start_le := hi.start_le
  attempted := fun i h h' => List.mem_append_left _ (hi.attempted i h h')
  opened := fun h => nomatch h
  sorted := by
    have hcalls : calls [m] = [] := by
      cases m with
      | attempt i => exact absurd rfl (hm i)
      | saved k => exact calls_saved k
      | exit => exact calls_exit
    rw [calls_append, hcalls, List.append_nil]
    exact hi.sorted
  closed_cut := by
    intro _ a b he
    obtain ⟨b', rfl, hl⟩ := split_snoc_of_ne hm he
    exact hcut a b' hl
  opened_cut := fun h => nomatch h
  repeated := repeated_snoc hm hi.repeated

end

theorem Step.inv {k₀ : Int} {c c' : State} (h : Step c c') (hi : Inv k₀ c) : Inv k₀ c' := by
  cases h with
  | attempt k l => exact hi.attempt
  | commit k l => exact hi.commit
  | resave k l => exact hi.forget (saved_ne_attempt k) fun a b hl => cut_append (hi.closed_cut rfl a b hl) _
  | exit k o l =>
    refine hi.forget nofun fun a b hl => ?_
    cases o with
    | false => exact cut_append (hi.closed_cut rfl a b hl) _
    | true =>
      rcases hi.opened_cut rfl a b hl with hcut | hsilent
      · exact cut_append hcut _
      · exact cut_append_exit hsilent

theorem inv_of_reachable {k₀ : Int} {c : State} (h : Reachable k₀ c) : Inv k₀ c := by
  induction h with
  | refl => exact inv_start k₀
  | tail _ hs ih => exact hs.inv ih

theorem Step.index_le {c c' : State} (h : Step c c') : c.index ≤ c'.index := by
  cases h <;> simp only [Int.le_refl]
  exact Int.le_add_one (Int.le_refl _)

theorem index_le_of_steps {c c' : State} (h : Relation.ReflTransGen Step c c') : c.index ≤ c'.index := by
  induction h with
  | refl => exact Int.le_refl _
  | tail _ hs ih => exact Int.le_trans ih hs.index_le

/-- A log of cut-offs only. -/
theorem reachable_of_exits (k : Int) {l : List Mark} (h : ∀ m ∈ l, m = .exit) :
    Reachable k ⟨k, false, l⟩ := by
  induction l using List.reverseRecOn with
  | nil => exact .refl
  | append_singleton l m ih =>
    obtain rfl : m = .exit := h m (by simp)
    exact (ih fun m' hm' => h m' (List.mem_append_left _ hm')).tail (.exit k false l)

/-! ## What the invariant gives -/

theorem Inv.calls_sorted {k₀ : Int} {c : State} (h : Inv k₀ c) : (calls c.log).Pairwise (· ≤ ·) := h.sorted

/-- Between two calls of one index the worker was cut off before it stored anything. -/
theorem Inv.cut_of_repeat {k₀ : Int} {c : State} (h : Inv k₀ c) {i : Int} {a b d : List Mark}
    (he : c.log = a ++ .attempt i :: (b ++ .attempt i :: d)) :
    ∃ b₁ b₂, b = b₁ ++ .exit :: b₂ ∧ .exit ∉ b₁ ∧ ∀ k, .saved k ∉ b₁ :=
  cut_iff.mp (h.repeated i a b d he)

/-- A repeated call shows as two attempts in the log. -/
theorem split_of_calls_cons {l : List Mark} {i : Int} : ∀ {x : List Int}, calls l = i :: x →
    ∃ a b, l = a ++ .attempt i :: b ∧ calls b = x := by
  induction l with
  | nil => intro x h; cases h
  | cons m l ih =>
    intro x h
    cases m with
    | attempt j =>
      obtain ⟨rfl, rfl⟩ := List.cons.inj (show j :: calls l = i :: x from h)
      exact ⟨[], l, rfl, rfl⟩
    | saved k =>
      obtain ⟨a, b, rfl, hb⟩ := ih (show calls l = i :: x from h)
      exact ⟨.saved k :: a, b, rfl, hb⟩
    | exit =>
      obtain ⟨a, b, rfl, hb⟩ := ih (show calls l = i :: x from h)
      exact ⟨.exit :: a, b, rfl, hb⟩

theorem split_of_calls_append {l : List Mark} {i : Int} {x y : List Int} (h : calls l = x ++ i :: y) :
    ∃ a b, l = a ++ .attempt i :: b ∧ calls b = y := by
  induction x generalizing l with
  | nil => exact split_of_calls_cons h
  | cons j x ih =>
    obtain ⟨a, b, rfl, hb⟩ := split_of_calls_cons (i := j) h
    obtain ⟨a', b', rfl, hb'⟩ := ih hb
    exact ⟨a ++ .attempt j :: a', b', by simp, hb'⟩

/-- **Without a cut-off no index is called twice.** -/
theorem Inv.calls_nodup {k₀ : Int} {c : State} (h : Inv k₀ c) (hno : .exit ∉ c.log) :
    (calls c.log).Nodup := by
  rw [List.nodup_iff_sublist]
  intro i hs
  obtain ⟨x, y, hxy, hy⟩ : ∃ x y, calls c.log = x ++ i :: y ∧ i ∈ y := by
    obtain ⟨r₁, r₂, hr, h₁, h₂⟩ := List.cons_sublist_iff.mp hs
    obtain ⟨s, t, rfl⟩ := List.append_of_mem h₁
    exact ⟨s, t ++ r₂, by rw [hr]; simp, List.mem_append_right _ (List.singleton_sublist.mp h₂)⟩
  obtain ⟨a, b, hl, hb⟩ := split_of_calls_append hxy
  obtain ⟨y₁, y₂, rfl⟩ := List.append_of_mem hy
  obtain ⟨b₁, b₂, rfl, -⟩ := split_of_calls_append hb
  obtain ⟨e₁, e₂, rfl, -⟩ := h.cut_of_repeat (i := i) (a := a) (b := b₁) (d := b₂) hl
  exact hno (by rw [hl]; simp)

end Checkpoint
