import Mathlib.Data.List.DropRight
import Mathlib.Data.List.TakeWhile

/-!
# Literal blocks of YAML 1.1

* `isBreak`, `lines` : the lines of a text; `isPrintable` : the characters that a text may have;
* `literal` : the lines of a literal block and those after it;
* `Reading`, `readBlock` : the text around a literal block, by the line that opens it, and the block;
* `lines_append`, `notBreak_of_mem_lines` : how the lines of a text are found.
-/

namespace Yaml

def isBreak (c : Char) : Bool := c ∈ ['\n', '\r', '\u0085', '\u2028', '\u2029']

def isPrintable (c : Char) : Bool :=
  let n := c.toNat
  n = 0x09 ∨ n = 0x0A ∨ n = 0x0D ∨ 0x20 ≤ n ∧ n ≤ 0x7E ∨ n = 0x85 ∨ 0xA0 ≤ n ∧ n ≤ 0xFFFD ∨ 0x10000 ≤ n

/-- A carriage return and the line feed after it are one line break. -/
def lines : List Char → List (List Char)
  | [] => [[]]
  | '\r' :: '\n' :: s => [] :: lines s
  | c :: s => if isBreak c then [] :: lines s else (lines s).modifyHead (c :: ·)

def indent (l : List Char) : Nat := (l.takeWhile (· = ' ')).length

def isEmpty (l : List Char) : Bool := l.all (· = ' ')

/-- The first line that is not empty says how far the block is indented, which is further than the line that opens it.
Empty lines at its end do not belong to its value. -/
def literal (opener : Nat) (ls : List (List Char)) : List (List Char) × List (List Char) :=
  let n := ((ls.find? (!isEmpty ·)).map indent).getD 0
  if n ≤ opener then ([], ls)
  else
    let inside := ls.takeWhile fun l => isEmpty l ∨ n ≤ indent l
    ((inside.map (·.drop n)).rdropWhile (· = []), ls.drop inside.length)

structure Reading where
  before : List (List Char)
  block : List (List Char)
  after : List (List Char)
  deriving DecidableEq, Repr

/-- The first block that this line opens. -/
def readBlock (opener text : List Char) : Option Reading :=
  if ¬ text.all isPrintable then none
  else
    match (lines text).dropWhile (· ≠ opener) with
    | [] => none
    | _ :: rest => some ⟨(lines text).takeWhile (· ≠ opener), (literal (indent opener) rest).1,
        (literal (indent opener) rest).2⟩

/-! ## Lines -/

/-- A property of the characters of a list, by going through the list. -/
theorem forall_mem_of_all {P : Char → Prop} [DecidablePred P] {l : List Char} (h : l.all (fun c => P c) = true) :
    ∀ c ∈ l, P c := fun c hc => of_decide_eq_true (List.all_eq_true.mp h c hc)

theorem lines_cons_of_break {c : Char} (hc : isBreak c = true) {s : List Char}
    (h : ∀ t, c = '\r' → s = '\n' :: t → False) : lines (c :: s) = [] :: lines s := by
  rw [lines, if_pos hc]
  exact h

/-- A character that does not break the line. -/
theorem lines_cons {c : Char} (hc : isBreak c = false) (s : List Char) :
    lines (c :: s) = (lines s).modifyHead (c :: ·) := by
  rw [lines, if_neg (by rw [hc]; exact Bool.false_ne_true)]
  intro t hcr _
  rw [hcr] at hc
  exact absurd hc (by decide)

theorem exists_lines_cons (s : List Char) : ∃ l ls, lines s = l :: ls := by
  induction s using lines.induct with
  | case1 => exact ⟨_, _, rfl⟩
  | case2 s ih => exact ⟨_, _, rfl⟩
  | case3 c s hcr hc ih => exact ⟨_, _, lines_cons_of_break hc hcr⟩
  | case4 c s hcr hc ih =>
    obtain ⟨l, ls, h⟩ := ih
    exact ⟨c :: l, ls, by rw [lines_cons (Bool.eq_false_iff.mpr hc), h]; rfl⟩

theorem lines_append {a : List Char} (ha : ∀ c ∈ a, isBreak c = false) (s : List Char) :
    lines (a ++ s) = (lines s).modifyHead (a ++ ·) := by
  induction a with
  | nil =>
    obtain ⟨l, ls, h⟩ := exists_lines_cons s
    rw [List.nil_append, h]
    rfl
  | cons c a ih =>
    obtain ⟨hc, ha⟩ := List.forall_mem_cons.mp ha
    rw [List.cons_append, lines_cons hc, ih ha, List.modifyHead_modifyHead]
    rfl

/-- One line and the text after it. -/
theorem lines_line {a : List Char} (ha : ∀ c ∈ a, isBreak c = false) (s : List Char) :
    lines (a ++ '\n' :: s) = a :: lines s := by
  have hbreak : lines ('\n' :: s) = [] :: lines s :=
    lines_cons_of_break (by decide) fun _ h _ => absurd h (by decide)
  rw [lines_append ha, hbreak]
  exact congrArg (· :: lines s) (List.append_nil a)

theorem lines_unlines {ls : List (List Char)} (h : ∀ l ∈ ls, ∀ c ∈ l, isBreak c = false) (s : List Char) :
    lines (ls.flatMap (· ++ ['\n']) ++ s) = ls ++ lines s := by
  induction ls with
  | nil => rfl
  | cons l ls ih =>
    obtain ⟨hl, hls⟩ := List.forall_mem_cons.mp h
    rw [List.flatMap_cons, List.append_assoc, List.append_assoc, List.singleton_append, lines_line hl, ih hls]
    rfl

theorem notBreak_of_mem_lines {s l : List Char} (h : l ∈ lines s) : ∀ c ∈ l, isBreak c = false := by
  induction s using lines.induct generalizing l with
  | case1 =>
    obtain rfl := List.mem_singleton.mp h
    exact fun c hc => absurd hc List.not_mem_nil
  | case2 s ih =>
    obtain rfl | h := List.mem_cons.mp h
    · exact fun c hc => absurd hc List.not_mem_nil
    · exact ih h
  | case3 c s hcr hc ih =>
    rw [lines_cons_of_break hc hcr] at h
    obtain rfl | h := List.mem_cons.mp h
    · exact fun c hc => absurd hc List.not_mem_nil
    · exact ih h
  | case4 c s hcr hc ih =>
    have hc := Bool.eq_false_iff.mpr hc
    obtain ⟨first, rest, he⟩ := exists_lines_cons s
    rw [lines_cons hc, he] at h
    rw [he] at ih
    obtain rfl | h := List.mem_cons.mp h
    · exact List.forall_mem_cons.mpr ⟨hc, ih (List.mem_cons_self ..)⟩
    · exact ih (List.mem_cons_of_mem _ h)

/-! ## Blocks -/

theorem readBlock_eq {opener text : List Char} {before rest : List (List Char)} (htext : text.all isPrintable = true)
    (hlines : lines text = before ++ opener :: rest) (hbefore : opener ∉ before) :
    readBlock opener text = some ⟨before, (literal (indent opener) rest).1, (literal (indent opener) rest).2⟩ := by
  have hall : ∀ l ∈ before, decide (l ≠ opener) = true := fun l hl => decide_eq_true fun e => hbefore (e ▸ hl)
  have hstop : ¬ decide (opener ≠ opener) = true := by simp
  have hdrop : (before ++ opener :: rest).dropWhile (· ≠ opener) = opener :: rest := by
    rw [List.dropWhile_append_of_pos hall]
    exact List.dropWhile_cons_of_neg hstop
  have htake : (before ++ opener :: rest).takeWhile (· ≠ opener) = before := by
    rw [List.takeWhile_append_of_pos hall]
    refine Eq.trans (congrArg _ ?_) (List.append_nil before)
    exact List.takeWhile_cons_of_neg hstop
  unfold readBlock
  rw [if_neg (not_not.mpr htext), hlines, hdrop, htake]

theorem rdropWhile_cons {l : List Char} (hl : l ≠ []) (ls : List (List Char)) :
    ∃ rest, (l :: ls).rdropWhile (· = []) = l :: rest := by
  have hpre := List.rdropWhile_prefix (fun l : List Char => decide (l = [])) (l :: ls)
  cases hdrop : (l :: ls).rdropWhile (· = []) with
  | nil => exact absurd (of_decide_eq_true (List.rdropWhile_eq_nil_iff.mp hdrop l (List.mem_cons_self ..))) hl
  | cons first rest =>
    rw [hdrop] at hpre
    exact ⟨rest, by rw [(List.cons_prefix_cons.mp hpre).1]⟩

theorem drop_takeWhile_length {α : Type*} (p : α → Bool) (l : List α) :
    l.drop (l.takeWhile p).length = l.dropWhile p := by
  have h := @List.drop_left α (l.takeWhile p) (l.dropWhile p)
  rwa [List.takeWhile_append_dropWhile] at h

/-- The block that is indented as its first line is. -/
theorem literal_eq {opener : Nat} {l : List Char} (hl : isEmpty l = false) (hn : opener < indent l)
    (ls : List (List Char)) :
    literal opener (l :: ls) =
      (((l :: ls.takeWhile fun l' => isEmpty l' ∨ indent l ≤ indent l').map (·.drop (indent l))).rdropWhile (· = []),
        ls.dropWhile fun l' => isEmpty l' ∨ indent l ≤ indent l') := by
  have hfind : (l :: ls).find? (!isEmpty ·) = some l := List.find?_cons_of_pos (by rw [hl]; rfl)
  have htake : (l :: ls).takeWhile (fun l' => isEmpty l' ∨ indent l ≤ indent l') =
      l :: ls.takeWhile fun l' => isEmpty l' ∨ indent l ≤ indent l' :=
    List.takeWhile_cons_of_pos (decide_eq_true (.inr (Nat.le_refl _)))
  unfold literal
  rw [hfind, Option.map_some, Option.getD_some, if_neg (Nat.not_le.mpr hn), htake]
  refine congrArg (Prod.mk _) ?_
  rw [List.length_cons, List.drop_succ_cons, drop_takeWhile_length]

theorem drop_indent_ne_nil {l : List Char} (hl : isEmpty l = false) : l.drop (indent l) ≠ [] := by
  intro h
  rw [indent, drop_takeWhile_length, List.dropWhile_eq_nil_iff] at h
  exact Bool.false_ne_true (hl.symm.trans (List.all_eq_true.mpr h))

/-- A block begins with its first line. -/
theorem literal_head {opener : Nat} {l : List Char} (hl : isEmpty l = false) (hn : opener < indent l)
    (ls : List (List Char)) : ∃ rest, (literal opener (l :: ls)).1 = l.drop (indent l) :: rest := by
  rw [literal_eq hl hn]
  exact rdropWhile_cons (drop_indent_ne_nil hl) _

/-- A block of one line. -/
theorem literal_line {opener : Nat} {l next : List Char} (hl : isEmpty l = false) (hn : opener < indent l)
    (hnext : ¬ (isEmpty next ∨ indent l ≤ indent next)) (ls : List (List Char)) :
    literal opener (l :: next :: ls) = ([l.drop (indent l)], next :: ls) := by
  have hnot : ¬ decide (isEmpty next ∨ indent l ≤ indent next) = true := fun h => hnext (of_decide_eq_true h)
  have htake : (next :: ls).takeWhile (fun l' => isEmpty l' ∨ indent l ≤ indent l') = [] :=
    List.takeWhile_cons_of_neg hnot
  have hdrop : (next :: ls).dropWhile (fun l' => isEmpty l' ∨ indent l ≤ indent l') = next :: ls :=
    List.dropWhile_cons_of_neg hnot
  have hne : ¬ decide (l.drop (indent l) = []) = true := fun h => drop_indent_ne_nil hl (of_decide_eq_true h)
  rw [literal_eq hl hn, htake, hdrop, List.map_singleton, List.rdropWhile_singleton]
  exact congrArg (Prod.mk · _) (if_neg hne)

end Yaml
