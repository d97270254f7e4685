import Mathlib.Data.List.DropRight
import OciHelper.Lib.Scanner
import OciHelper.Logs.LiveTail

/-!
# The last lines of a file

* `readLastNLines` : the lines that the ring holds, with the buffer of the scanner;
* `readLastNLines_eq_rtake` : they are the last ones that the scanner returns;
* `readLastNLines_eq` : of a file of short lines, what the live log shows first;
* `last_lines` : and its last lines.
-/

namespace OciHelper.Logs.LastLines

/-- The size of the buffer of the scanner. -/
def maxLine : Nat := 1024 * 1024

def readLastNLines (content : List Byte) (n : Int) : List Line :=
  if n ≤ 0 then []
  else
    let ring := (Scanner.scan maxLine content).foldl RingBuffer.push (RingBuffer.new n.toNat [])
    (ring.last []).filter fun line => line ≠ [] || ring.count ≤ ring.total

/-- A slot is empty only where a line is: the slots that are read are no more than the lines. -/
theorem filter_last (ring : RingBuffer Line) :
    (ring.last []).filter (fun line => line ≠ [] || ring.count ≤ ring.total) = ring.last [] := by
  have hcount : ring.count ≤ ring.total := by
    unfold RingBuffer.count
    split <;> omega
  simp [hcount]

theorem readLastNLines_eq_rtake (content : List Byte) {n : Int} (hn : 1 ≤ n) :
    readLastNLines content n = (Scanner.scan maxLine content).rtake n.toNat := by
  unfold readLastNLines
  rw [if_neg (by omega)]
  dsimp only
  rw [filter_last, RingBuffer.last_foldl_push (by omega), List.rtake]

/-! ## Lines -/

theorem scan_eq_rawLines (content : List Byte) {carry : List Byte} (h : newline ∉ carry) :
    (Lines.scan newline carry content).1 ++
      (if (Lines.scan newline carry content).2 = [] then [] else [(Lines.scan newline carry content).2]) =
      Scanner.rawLines (carry ++ content) := by
  induction content generalizing carry with
  | nil =>
    have hcarry := Scanner.rawLines_of_notMem h
    rw [List.append_nil, hcarry]
    rfl
  | cons b content ih =>
    rw [Lines.scan]
    by_cases hb : b = newline
    · subst hb
      have hlines := Scanner.rawLines_append_cons h content
      have hrest := ih List.not_mem_nil
      rw [if_pos rfl]
      simp only [List.cons_append, hrest]
      exact hlines.symm
    · have hcarry : newline ∉ carry ++ [b] := by
        simp [h, Ne.symm hb]
      rw [if_neg hb, ih hcarry, List.append_assoc, List.singleton_append]

theorem scanLines_eq (content : List Byte) : scanLines content = Scanner.lines content := by
  have h := scan_eq_rawLines content List.not_mem_nil
  rw [List.nil_append] at h
  rw [Scanner.lines, ← h, List.map_append, scanLines, completeLines]
  congr 1
  unfold unfinished Lines.rest
  split <;> rfl

/-- Every line is shorter than the buffer. -/
def Short (content : List Byte) : Prop := ∀ line ∈ Scanner.rawLines content, line.length < maxLine

theorem readLastNLines_eq {content : List Byte} (h : Short content) {n : Nat} :
    readLastNLines content n = Logs.readLastNLines content n := by
  have hscan : Scanner.scan maxLine content = scanLines content := by
    rw [scanLines_eq]
    exact Scanner.scan_eq_lines h
  unfold readLastNLines Logs.readLastNLines
  rw [hscan, Int.toNat_natCast]
  by_cases hn : n = 0
  · simp [hn]
  · rw [if_neg hn, if_neg (by omega)]

/-- **The last lines of a file, in their order.** -/
theorem last_lines {content : List Byte} (h : Short content) {n : Int} (hn : 1 ≤ n) :
    readLastNLines content n = (Scanner.lines content).rtake (min n.toNat (Scanner.lines content).length) := by
  rw [readLastNLines_eq_rtake content hn, Scanner.scan_eq_lines h]
  unfold List.rtake
  congr 1
  omega

/-- An empty line is kept, and a last line without a newline. -/
theorem last_lines_two : Scanner.lines [97, 10, 10, 98] = [[97], [], [98]] ∧
    readLastNLines [97, 10, 10, 98] 2 = (Scanner.lines [97, 10, 10, 98]).rtake 2 := by
  have hshort : Short [97, 10, 10, 98] := by
    unfold Short maxLine
    decide
  exact ⟨rfl, last_lines hshort (by decide)⟩

end OciHelper.Logs.LastLines
