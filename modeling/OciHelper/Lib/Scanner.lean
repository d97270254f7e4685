import Mathlib.Data.List.Basic
import Mathlib.Data.List.TakeWhile

/-!
# Reading a text line by line

* `rawLines` : what stands between the newlines of a text; `lines` : without the carriage returns at the ends;
* `scan` : the lines that a scanner with a buffer of `max` bytes returns;
* `scan_eq` : it stops before the first line that does not fit; `scan_eq_lines` : if there is none, it returns all lines.
-/

namespace Scanner

abbrev Bytes := List UInt8

def newline : UInt8 := 10

def carriageReturn : UInt8 := 13

/-- A last line without a newline counts, an empty one does not. -/
def rawLines (text : Bytes) : List Bytes :=
  let parts := text.splitOn newline
  if parts.getLast? = some [] then parts.dropLast else parts

def dropCR (line : Bytes) : Bytes := if line.getLast? = some carriageReturn then line.dropLast else line

def lines (text : Bytes) : List Bytes := (rawLines text).map dropCR

/-- `carry` is what was read of the line under way; a line that fills the buffer is an error. -/
def scanFrom (max : Nat) : Bytes → Bytes → List Bytes
  | carry, [] => if carry = [] ∨ max ≤ carry.length then [] else [dropCR carry]
  | carry, b :: rest =>
    if max ≤ carry.length then []
    else if b = newline then dropCR carry :: scanFrom max [] rest
    else scanFrom max (carry ++ [b]) rest

def scan (max : Nat) (text : Bytes) : List Bytes := scanFrom max [] text

/-! ## Lines -/

theorem rawLines_of_notMem {line : Bytes} (h : newline ∉ line) : rawLines line = if line = [] then [] else [line] := by
  unfold rawLines
  rw [List.splitOn_eq_singleton h]
  simp

theorem rawLines_append_cons {line : Bytes} (h : newline ∉ line) (text : Bytes) :
    rawLines (line ++ newline :: text) = line :: rawLines text := by
  obtain ⟨part, parts, hparts⟩ := List.exists_cons_of_ne_nil (List.splitOn_ne_nil newline text)
  unfold rawLines
  rw [List.splitOn_append_cons_self_of_not_mem h, hparts]
  simp only [List.getLast?_cons_cons, List.dropLast_cons_cons]
  split <;> rfl

/-- What was read of a line begins it. -/
theorem rawLines_append {carry : Bytes} (hne : carry ≠ []) (h : newline ∉ carry) (text : Bytes) :
    ∃ more rest, rawLines (carry ++ text) = (carry ++ more) :: rest := by
  induction text generalizing carry with
  | nil =>
    refine ⟨[], [], ?_⟩
    rw [List.append_nil, rawLines_of_notMem h, if_neg hne]
  | cons b text ih =>
    by_cases hb : b = newline
    · subst hb
      refine ⟨[], rawLines text, ?_⟩
      rw [rawLines_append_cons h, List.append_nil]
    · have hcarry : newline ∉ carry ++ [b] := by
        simp [h, Ne.symm hb]
      obtain ⟨more, rest, hmore⟩ := ih (by simp) hcarry
      refine ⟨b :: more, rest, ?_⟩
      rw [List.append_cons, hmore, List.append_assoc, List.singleton_append]

/-! ## The scanner -/

theorem scanFrom_eq (max : Nat) (text : Bytes) {carry : Bytes} (h : newline ∉ carry) :
    scanFrom max carry text = ((rawLines (carry ++ text)).takeWhile fun l => l.length < max).map dropCR := by
  induction text generalizing carry with
  | nil =>
    rw [List.append_nil, rawLines_of_notMem h, scanFrom]
    by_cases hne : carry = []
    · simp [hne]
    · by_cases hmax : max ≤ carry.length
      · simp [hne, hmax]
      · simp [hne, hmax, Nat.lt_of_not_le hmax]
  | cons b text ih =>
    rw [scanFrom]
    by_cases hmax : max ≤ carry.length
    · rw [if_pos hmax]
      -- the line under way does not fit, whatever follows
      by_cases hne : carry = []
      · have hzero : max = 0 := by
          rw [hne] at hmax
          simpa using hmax
        cases hlines : rawLines (carry ++ b :: text) <;> simp [hzero]
      · obtain ⟨more, rest, hmore⟩ := rawLines_append hne h (b :: text)
        rw [hmore, List.takeWhile_cons_of_neg (by simp; omega), List.map_nil]
    · rw [if_neg hmax]
      by_cases hb : b = newline
      · subst hb
        rw [if_pos rfl, rawLines_append_cons h, List.takeWhile_cons_of_pos (by simpa using hmax), List.map_cons,
          ih List.not_mem_nil, List.nil_append]
      · have hcarry : newline ∉ carry ++ [b] := by
          simp [h, Ne.symm hb]
        rw [if_neg hb, ih hcarry, List.append_assoc, List.singleton_append]

/-- **A scanner returns the lines before the first one that does not fit.** -/
theorem scan_eq (max : Nat) (text : Bytes) :
    scan max text = ((rawLines text).takeWhile fun l => l.length < max).map dropCR :=
  scanFrom_eq max text List.not_mem_nil

theorem scan_eq_lines {max : Nat} {text : Bytes} (h : ∀ l ∈ rawLines text, l.length < max) :
    scan max text = lines text := by
  rw [scan_eq, List.takeWhile_eq_self_iff.mpr (by simpa using h), lines]

end Scanner
