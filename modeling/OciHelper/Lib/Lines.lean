import Mathlib.Data.List.Basic

/-!
# Lines of a stream

* `Lines.scan` : the lines that a separator ends, and the unfinished one after them;
* `Lines.complete_append`, `Lines.rest_append` : what was read up to the end of a line is not read again;
* `scan_of_notMem`, `scan_append_cons` : a line, and a line with what follows it.
-/

namespace Lines

variable {α : Type*} [DecidableEq α] (sep : α)

/-- `carry` is what was read of the line under way. -/
def scan : List α → List α → List (List α) × List α
  | carry, [] => ([], carry)
  | carry, a :: as => if a = sep then (carry :: (scan [] as).1, (scan [] as).2) else scan (carry ++ [a]) as

/-- The lines that are complete. -/
def complete (s : List α) : List (List α) := (scan sep [] s).1

/-- The unfinished line. -/
def rest (s : List α) : List α := (scan sep [] s).2

theorem scan_append (s t : List α) : ∀ carry : List α, scan sep carry (s ++ t) =
    ((scan sep carry s).1 ++ (scan sep (scan sep carry s).2 t).1, (scan sep (scan sep carry s).2 t).2) := by
  induction s with
  | nil => intro carry; rfl
  | cons a s ih =>
    intro carry
    rw [List.cons_append, scan, scan]
    split
    · rw [ih []]
      rfl
    · exact ih (carry ++ [a])

theorem complete_append {s : List α} (h : rest sep s = []) (t : List α) :
    complete sep (s ++ t) = complete sep s ++ complete sep t := by
  unfold rest at h
  unfold complete
  rw [scan_append, h]

theorem rest_append {s : List α} (h : rest sep s = []) (t : List α) : rest sep (s ++ t) = rest sep t := by
  unfold rest at h ⊢
  rw [scan_append, h]

theorem scan_of_notMem {l : List α} (h : sep ∉ l) (carry : List α) : scan sep carry l = ([], carry ++ l) := by
  induction l generalizing carry with
  | nil => simp [scan]
  | cons a l ih =>
    obtain ⟨ha, hl⟩ : sep ≠ a ∧ sep ∉ l := by simpa using h
    rw [scan, if_neg (Ne.symm ha), ih hl]
    simp

theorem scan_append_cons {l : List α} (h : sep ∉ l) (t : List α) :
    scan sep [] (l ++ sep :: t) = (l :: (scan sep [] t).1, (scan sep [] t).2) := by
  rw [scan_append, scan_of_notMem sep h, List.nil_append, scan, if_pos rfl]
  rfl

end Lines
