import Mathlib.Data.List.Forall2
import Mathlib.Data.List.Infix

/-!
# Patterns with wildcards and an escape character

* `Marks` : the two wildcards and the escape character of an alphabet;
* `Marks.tokens`, `fits` : the tokens of a pattern, and the texts that they fit;
* `Marks.escape`, `tokens_escape` : a text as a pattern of itself;
* `fits_contains_iff` : between two wildcards it fits the texts that contain it;
* `flatten_pages` : the pages of a list.
-/

namespace Like

variable {κ : Type*}

/-- `many` stands for any text, `one` for any character, and a character after `esc` for itself. -/
structure Marks (κ : Type*) where
  many : κ
  one : κ
  esc : κ
  many_ne_esc : many ≠ esc

/-- An escape character at the end of the pattern fits nothing. -/
inductive Token (κ : Type*)
  | many
  | one
  | char (c : κ)
  | never
  deriving DecidableEq, Repr

namespace Marks

variable [DecidableEq κ] (m : Marks κ)

/-- The token of a character that is not escaped. -/
def token (c : κ) : Token κ := if c = m.many then .many else if c = m.one then .one else .char c

def tokens : List κ → List (Token κ)
  | [] => []
  | c :: p =>
    if c = m.esc then
      match p with
      | [] => [.never]
      | d :: p => .char d :: tokens p
    else m.token c :: tokens p

def special (c : κ) : Bool := c = m.many ∨ c = m.one ∨ c = m.esc

def escape (s : List κ) : List κ := s.flatMap fun c => if m.special c then [m.esc, c] else [c]

end Marks

/-- Do the tokens fit the whole text? -/
def fits (same : κ → κ → Bool) : List (Token κ) → List κ → Bool
  | [], s => s.isEmpty
  | .many :: ts, s => s.tails.any (fits same ts)
  | .one :: _, [] => false
  | .one :: ts, _ :: s => fits same ts s
  | .char _ :: _, [] => false
  | .char c :: ts, d :: s => same c d && fits same ts s
  | .never :: _, _ => false

/-! ## Escaped texts -/

section Tokens
variable [DecidableEq κ] (m : Marks κ)

theorem token_of_not_special {c : κ} (h : m.special c = false) : c ≠ m.esc ∧ m.token c = .char c := by
  have hnot := of_decide_eq_false h
  push Not at hnot
  exact ⟨hnot.2.2, by rw [Marks.token, if_neg hnot.1, if_neg hnot.2.1]⟩

theorem tokens_escape (s p : List κ) : m.tokens (m.escape s ++ p) = s.map .char ++ m.tokens p := by
  induction s with
  | nil => rfl
  | cons c s ih =>
    rw [Marks.escape, List.flatMap_cons]
    cases h : m.special c with
    | true =>
      rw [if_pos rfl, List.append_assoc, List.cons_append, Marks.tokens.eq_def]
      dsimp only
      rw [if_pos rfl]
      exact congrArg _ ih
    | false =>
      obtain ⟨hne, htoken⟩ := token_of_not_special m h
      rw [if_neg Bool.false_ne_true, List.append_assoc, List.singleton_append, Marks.tokens.eq_def]
      dsimp only
      rw [if_neg hne, htoken]
      exact congrArg _ ih

theorem tokens_many (p : List κ) : m.tokens (m.many :: p) = .many :: m.tokens p := by
  rw [Marks.tokens.eq_def]
  dsimp only
  rw [if_neg m.many_ne_esc, Marks.token, if_pos rfl]

end Tokens

/-! ## Texts that contain a text -/

variable {same : κ → κ → Bool}

/-- The text begins with characters that are the same. -/
theorem fits_prefix_iff (cs s : List κ) :
    fits same (cs.map .char ++ [.many]) s ↔ ∃ pre suf, s = pre ++ suf ∧ List.Forall₂ (same · ·) cs pre := by
  induction cs generalizing s with
  | nil =>
    refine iff_of_true ?_ ⟨[], s, rfl, .nil⟩
    exact List.any_eq_true.mpr ⟨[], (List.mem_tails ..).mpr (List.nil_suffix ..), rfl⟩
  | cons c cs ih =>
    cases s with
    | nil =>
      refine iff_of_false Bool.false_ne_true ?_
      rintro ⟨pre, suf, he, hpre⟩
      obtain ⟨rfl, -⟩ := List.append_eq_nil_iff.mp he.symm
      cases hpre
    | cons d s =>
      rw [List.map_cons, List.cons_append, fits, Bool.and_eq_true, ih]
      constructor
      · rintro ⟨hd, pre, suf, rfl, hpre⟩
        exact ⟨d :: pre, suf, rfl, .cons hd hpre⟩
      · rintro ⟨pre, suf, he, hpre⟩
        cases hpre with
        | cons hd hpre =>
          cases he
          exact ⟨hd, _, suf, rfl, hpre⟩

theorem fits_contains_iff (cs s : List κ) : fits same (.many :: (cs.map .char ++ [.many])) s ↔
    ∃ front pre suf, s = front ++ (pre ++ suf) ∧ List.Forall₂ (same · ·) cs pre := by
  rw [fits, List.any_eq_true]
  simp only [List.mem_tails, fits_prefix_iff]
  constructor
  · rintro ⟨_, ⟨front, rfl⟩, pre, suf, rfl, hpre⟩
    exact ⟨front, pre, suf, rfl, hpre⟩
  · rintro ⟨front, pre, suf, rfl, hpre⟩
    exact ⟨_, ⟨front, rfl⟩, pre, suf, rfl, hpre⟩

/-- Where two characters are the same if a map takes them to one, the text contains it after that map. -/
theorem fits_infix_iff {β : Type*} {f : κ → β} (hsame : ∀ c d, same c d ↔ f c = f d) (cs s : List κ) :
    fits same (.many :: (cs.map .char ++ [.many])) s ↔ cs.map f <:+: s.map f := by
  have hmap : ∀ pre, List.Forall₂ (same · ·) cs pre ↔ cs.map f = pre.map f := by
    intro pre
    rw [← List.forall₂_eq_eq_eq, List.forall₂_map_left_iff, List.forall₂_map_right_iff]
    simp only [hsame]
  rw [fits_contains_iff]
  simp only [hmap]
  constructor
  · rintro ⟨front, pre, suf, rfl, he⟩
    exact ⟨front.map f, suf.map f, by rw [he, List.append_assoc, List.map_append, List.map_append]⟩
  · rintro ⟨front, suf, he⟩
    rw [List.append_assoc, eq_comm, List.map_eq_append_iff] at he
    obtain ⟨front', rest, rfl, rfl, he⟩ := he
    obtain ⟨pre, suf', rfl, hpre, rfl⟩ := List.map_eq_append_iff.mp he
    exact ⟨front', pre, suf', rfl, hpre.symm⟩

/-! ## Pages -/

/-- The pages up to the last one are the list. -/
theorem flatten_pages {α : Type*} (rows : List α) {size n : Nat} (hn : rows.length ≤ n * size) :
    ((List.range n).map fun k => (rows.drop (k * size)).take size).flatten = rows := by
  induction n generalizing rows with
  | zero =>
    rw [Nat.zero_mul, Nat.le_zero, List.length_eq_zero_iff] at hn
    rw [hn]
    rfl
  | succ n ih =>
    have hrest := ih (rows.drop size) (by
      rw [Nat.succ_mul] at hn
      rw [List.length_drop]
      omega)
    rw [List.range_succ_eq_map, List.map_cons, List.map_map, List.flatten_cons, Nat.zero_mul, List.drop_zero]
    refine Eq.trans (congrArg _ ?_) (List.take_append_drop size rows)
    rw [← hrest]
    congr 1
    refine List.map_congr_left fun k _ => ?_
    rw [Function.comp_apply, List.drop_drop, Nat.succ_mul, Nat.add_comm]

end Like
