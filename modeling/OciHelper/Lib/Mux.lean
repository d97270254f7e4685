import Mathlib.Data.List.Basic
import Mathlib.Data.List.Infix
import Mathlib.Data.List.Nodup

/-!
# A router of paths

A path is the list of its segments; one that ends in a slash has an empty last segment.

* `Pattern` : one path, or all the paths below one; `Pattern.Matches` : which;
* `find` : the most specific pattern for a path; `find_eq_some_iff` : the longest one that matches;
* `redirects` : whether a path is answered with the same path and a slash.
-/

namespace Mux

abbrev Segment := List Char

structure Pattern where
  segs : List Segment
  subtree : Bool
  deriving DecidableEq, Repr

def Pattern.Matches (p : Pattern) (path : List Segment) : Prop :=
  if p.subtree then p.segs <+: path ∧ p.segs.length < path.length else p.segs = path

/-- The segments of a text after its first slash. -/
def segments : List Char → List Segment
  | [] => [[]]
  | '/' :: cs => [] :: segments cs
  | c :: cs =>
    match segments cs with
    | [] => [[c]]
    | seg :: segs => (c :: seg) :: segs

/-- A pattern that ends in a slash is one for a subtree. -/
def Pattern.ofText (s : List Char) : Pattern :=
  let segs := segments (s.drop 1)
  if segs.getLast? = some [] then ⟨segs.dropLast, true⟩ else ⟨segs, false⟩

/-- The text of a path. -/
def text (path : List Segment) : List Char := path.flatMap fun seg => '/' :: seg

variable {γ : Type*} (routes : List (Pattern × γ)) (path : List Segment)

def lookup (p : Pattern) : Option (Pattern × γ) := routes.find? fun r => r.1 = p

/-- The longest pattern for a subtree with at most `k` segments. -/
def subtreeAt : Nat → Option (Pattern × γ)
  | 0 => lookup routes ⟨path.take 0, true⟩
  | k + 1 => (lookup routes ⟨path.take (k + 1), true⟩).or (subtreeAt k)

def find : Option (Pattern × γ) := (lookup routes ⟨path, false⟩).or (subtreeAt routes path (path.length - 1))

/-- The pattern takes up the whole path. -/
def Pattern.isExact (p : Pattern) (path : List Segment) : Bool := !p.subtree || p.segs ++ [[]] = path

/-- The path with a slash is a pattern, and nothing else is for the path itself. -/
def redirects : Bool :=
  !((find routes path).any fun r => r.1.isExact path) && path.getLast? ≠ some [] && (lookup routes ⟨path, true⟩).isSome

/-! ## The most specific pattern -/

variable {routes path} {r : Pattern × γ} {p : Pattern}

theorem lookup_eq_some_iff (hnodup : (routes.map Prod.fst).Nodup) :
    lookup routes p = some r ↔ r ∈ routes ∧ r.1 = p := by
  constructor
  · intro h
    have hp := List.find?_some h
    exact ⟨List.mem_of_find?_eq_some h, of_decide_eq_true hp⟩
  · rintro ⟨hr, rfl⟩
    unfold lookup
    induction routes with
    | nil => cases hr
    | cons q routes ih =>
      obtain ⟨hq, hnodup⟩ := List.nodup_cons.mp hnodup
      obtain rfl | hr := List.mem_cons.mp hr
      · exact List.find?_cons_of_pos (decide_eq_true rfl)
      · rw [List.find?_cons_of_neg]
        · exact ih hnodup hr
        · intro heq
          exact hq (of_decide_eq_true heq ▸ List.mem_map_of_mem hr)

theorem subtreeAt_eq_some_iff (hnodup : (routes.map Prod.fst).Nodup) {k : Nat} (hk : k < path.length) :
    subtreeAt routes path k = some r ↔ r ∈ routes ∧ ∃ j ≤ k, r.1 = ⟨path.take j, true⟩ ∧
      ∀ i ≤ k, ∀ q ∈ routes, q.1 = ⟨path.take i, true⟩ → i ≤ j := by
  induction k with
  | zero =>
    rw [subtreeAt, lookup_eq_some_iff hnodup]
    constructor
    · rintro ⟨hr, hp⟩
      exact ⟨hr, 0, le_refl 0, hp, fun i hi _ _ _ => hi⟩
    · rintro ⟨hr, j, hj, hp, -⟩
      obtain rfl := Nat.le_zero.mp hj
      exact ⟨hr, hp⟩
  | succ k ih =>
    rw [subtreeAt, Option.or_eq_some_iff, lookup_eq_some_iff hnodup, ih (by omega)]
    constructor
    · rintro (⟨hr, hp⟩ | ⟨hnone, hr, j, hj, hp, hmax⟩)
      · exact ⟨hr, k + 1, le_refl _, hp, fun i hi _ _ _ => hi⟩
      · refine ⟨hr, j, by omega, hp, fun i hi q hq hpq => ?_⟩
        by_cases hik : i = k + 1
        · subst hik
          have hsome := (lookup_eq_some_iff hnodup).mpr ⟨hq, hpq⟩
          rw [hnone] at hsome
          cases hsome
        · exact hmax i (by omega) q hq hpq
    · rintro ⟨hr, j, hj, hp, hmax⟩
      by_cases hjk : j = k + 1
      · subst hjk
        exact .inl ⟨hr, hp⟩
      · refine .inr ⟨?_, hr, j, by omega, hp, fun i hi q hq hpq => hmax i (by omega) q hq hpq⟩
        cases hl : lookup routes ⟨path.take (k + 1), true⟩ with
        | none => rfl
        | some q =>
          obtain ⟨hq, hpq⟩ := (lookup_eq_some_iff hnodup).mp hl
          have hle := hmax (k + 1) (le_refl _) q hq hpq
          omega

theorem Pattern.matches_subtree {segs : List Segment} : (Pattern.mk segs true).Matches path ↔
    ∃ j < path.length, segs = path.take j := by
  unfold Matches
  rw [if_pos rfl]
  constructor
  · rintro ⟨hinitial, hlt⟩
    exact ⟨segs.length, hlt, List.prefix_iff_eq_take.mp hinitial⟩
  · rintro ⟨j, hj, rfl⟩
    refine ⟨List.take_prefix j path, ?_⟩
    rw [List.length_take]
    omega

theorem Pattern.matches_exact {segs : List Segment} : (Pattern.mk segs false).Matches path ↔ segs = path := Iff.rfl

/-- **Which pattern is found.** The longest one that matches. -/
theorem find_eq_some_iff (hnodup : (routes.map Prod.fst).Nodup) (hpath : path ≠ []) :
    find routes path = some r ↔ r ∈ routes ∧ r.1.Matches path ∧
      ∀ q ∈ routes, q.1.Matches path → q.1.segs.length ≤ r.1.segs.length := by
  have hlen := List.length_pos_iff.mpr hpath
  have hlast : path.length - 1 < path.length := by omega
  unfold find
  rw [Option.or_eq_some_iff, lookup_eq_some_iff hnodup, subtreeAt_eq_some_iff hnodup hlast]
  obtain ⟨⟨segs, subtree⟩, c⟩ := r
  constructor
  · rintro (⟨hr, hp⟩ | ⟨hnone, hr, j, hj, hp, hmax⟩)
    · cases hp
      refine ⟨hr, rfl, fun q hq hmatch => ?_⟩
      obtain ⟨⟨segs', subtree'⟩, c'⟩ := q
      cases subtree' with
      | false => exact le_of_eq (congrArg List.length (Pattern.matches_exact.mp hmatch))
      | true =>
        obtain ⟨i, hi, rfl⟩ := Pattern.matches_subtree.mp hmatch
        exact List.length_take_le' i path
    · cases hp
      refine ⟨hr, Pattern.matches_subtree.mpr ⟨j, by omega, rfl⟩, fun q hq hmatch => ?_⟩
      obtain ⟨⟨segs', subtree'⟩, c'⟩ := q
      cases subtree' with
      | false =>
        obtain rfl := Pattern.matches_exact.mp hmatch
        have hsome := (lookup_eq_some_iff hnodup).mpr ⟨hq, rfl⟩
        rw [hnone] at hsome
        cases hsome
      | true =>
        obtain ⟨i, hi, rfl⟩ := Pattern.matches_subtree.mp hmatch
        have hle := hmax i (by omega) _ hq rfl
        dsimp only
        rw [List.length_take, List.length_take]
        omega
  · rintro ⟨hr, hmatch, hmax⟩
    cases subtree with
    | false => exact .inl ⟨hr, congrArg (Pattern.mk · false) (Pattern.matches_exact.mp hmatch)⟩
    | true =>
      obtain ⟨j, hj, rfl⟩ := Pattern.matches_subtree.mp hmatch
      have hlonger : ∀ q ∈ routes, q.1.Matches path → q.1.segs.length ≤ j := by
        intro q hq hq'
        have hle := hmax q hq hq'
        dsimp only at hle
        rw [List.length_take] at hle
        omega
      refine .inr ⟨?_, hr, j, by omega, rfl, fun i hi q hq hpq => ?_⟩
      · cases hl : lookup routes ⟨path, false⟩ with
        | none => rfl
        | some q =>
          obtain ⟨hq, hpq⟩ := (lookup_eq_some_iff hnodup).mp hl
          have hle := hlonger q hq (hpq ▸ Pattern.matches_exact.mpr rfl)
          rw [hpq] at hle
          dsimp only at hle
          omega
      · have hle := hlonger q hq (hpq ▸ Pattern.matches_subtree.mpr ⟨i, by omega, rfl⟩)
        rw [hpq] at hle
        dsimp only at hle
        rw [List.length_take] at hle
        omega

end Mux
