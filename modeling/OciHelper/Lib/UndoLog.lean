import Mathlib.Data.Option.Basic

/-!
# Cells with an undo log

A cell may be overwritten any number of times and later set back. The first overwrite is meant to leave
an entry for the original value in the log, and only the first.

* `Cell` : the value, the entry, and the original value, which no operation reads;
* `Sound` : without an entry the value is the original one, and an entry stands for the original one;
* `Sound.overwrite`, `Sound.write`, `Sound.restore`, `Sound.clear` : what keeps it so;
* `Sound.eq_orig` : what an entry stands for is the original value.
-/

namespace UndoLog

structure Cell (α β : Type*) where
  cur : α
  log : Option β
  orig : α

variable {α β : Type*} {enc : α → β} {c : Cell α β}

namespace Cell

def write (c : Cell α β) (v : α) : Cell α β := { c with cur := v }

/-- The first entry stays. -/
def save (c : Cell α β) (x : β) : Cell α β := { c with log := c.log.or (some x) }

def clear (c : Cell α β) : Cell α β := { c with log := none }

end Cell

/-- `enc` makes the entry for a value. -/
structure Sound (enc : α → β) (c : Cell α β) : Prop where
  clean : c.log = none → c.cur = c.orig
  entry : ∀ x, c.log = some x → x = enc c.orig

theorem Sound.start (v : α) : Sound enc ⟨v, none, v⟩ := ⟨fun _ => rfl, fun _ h => by cases h⟩

/-- An overwrite and the save of the value before it. -/
theorem Sound.overwrite (h : Sound enc c) (v : α) : Sound enc ((c.write v).save (enc c.cur)) := by
  constructor
  · intro hnone
    simp [Cell.save] at hnone
  · intro x hx
    cases hlog : c.log with
    | none =>
      simp only [Cell.save, Cell.write, hlog, Option.none_or, Option.some.injEq] at hx
      rw [← hx, h.clean hlog]
      rfl
    | some y =>
      simp only [Cell.save, Cell.write, hlog, Option.some_or, Option.some.injEq] at hx
      rw [← hx]
      exact h.entry y hlog

/-- An overwrite alone, where there is an entry or nothing changes. -/
theorem Sound.write (h : Sound enc c) {v : α} (hv : c.log = none → v = c.cur) : Sound enc (c.write v) :=
  ⟨fun hlog => (hv hlog).trans (h.clean hlog), h.entry⟩

theorem Sound.restore (h : Sound enc c) : Sound enc (c.write c.orig) := ⟨fun _ => rfl, h.entry⟩

theorem Sound.clear (h : c.cur = c.orig) : Sound enc c.clear := ⟨fun _ => h, fun _ hx => by cases hx⟩

theorem Sound.eq_orig {dec : β → Option α} (h : Sound enc c) (hdec : ∀ a b, dec (enc a) = some b → b = a)
    {x : β} {v : α} (hx : c.log = some x) (hv : dec x = some v) : v = c.orig := by
  rw [h.entry x hx] at hv
  exact hdec _ _ hv

end UndoLog
