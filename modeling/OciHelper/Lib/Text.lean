import Mathlib.Algebra.Order.Ring.Int
import Mathlib.Data.List.TakeWhile

/-!
# Splitting texts and reading numbers

A text is the list of its characters.

* `replaceChar`, `splitN` : replace a character, and cut a text at a separator into at most `n` parts;
* `splitN_append`, `splitN_of_notMem` : how a text with known separators is cut;
* `trimSpace`, `fields` : a text without the white space around it, and the words between white space;
* `trimSpace_append_blank`, `trimSpace_blank_append` : white space around a text does not count;
* `number?`, `parseInt`, `atoi` : the number a decimal text denotes, and its two readings in 64 bits;
* `decimal` : the text of a number; `number?_decimal`, `atoi_decimal` : it is read back.
-/

namespace Text

def replaceChar (old new : Char) (s : List Char) : List Char := s.map fun c => if c = old then new else c

theorem notMem_replaceChar {old new : Char} (h : new ≠ old) (s : List Char) : old ∉ replaceChar old new s := by
  intro hm
  obtain ⟨c, -, hc⟩ := List.mem_map.mp hm
  by_cases hco : c = old
  · rw [if_pos hco] at hc
    exact h hc
  · rw [if_neg hco] at hc
    exact hco hc

/-- At most `n` parts; the last one keeps the separators that are left. -/
def splitN (sep : Char) : Nat → List Char → List (List Char)
  | 0, _ => []
  | 1, s => [s]
  | n + 2, s =>
    match s.dropWhile (· != sep) with
    | [] => [s]
    | _ :: rest => s.takeWhile (· != sep) :: splitN sep (n + 1) rest

theorem splitN_append (sep : Char) (n : Nat) {a : List Char} (h : sep ∉ a) (b : List Char) :
    splitN sep (n + 2) (a ++ sep :: b) = a :: splitN sep (n + 1) b := by
  have hall : ∀ c ∈ a, (c != sep) = true := fun c hc => by
    have : c ≠ sep := fun e => h (e ▸ hc)
    simpa using this
  have hdrop : (a ++ sep :: b).dropWhile (· != sep) = sep :: b := by
    rw [List.dropWhile_append_of_pos hall, List.dropWhile_cons_of_neg (by simp)]
  have htake : (a ++ sep :: b).takeWhile (· != sep) = a := by
    rw [List.takeWhile_append_of_pos hall, List.takeWhile_cons_of_neg (by simp), List.append_nil]
  conv =>
    lhs
    unfold splitN
  rw [hdrop, htake]

theorem splitN_of_notMem (sep : Char) (n : Nat) {a : List Char} (h : sep ∉ a) :
    splitN sep (n + 1) a = [a] := by
  cases n with
  | zero => rfl
  | succ n =>
    have hdrop : a.dropWhile (· != sep) = [] := by
      apply List.dropWhile_eq_nil_iff.mpr
      intro c hc
      have : c ≠ sep := fun e => h (e ▸ hc)
      simpa using this
    unfold splitN
    rw [hdrop]

theorem splitN_ne_nil (sep : Char) (n : Nat) (s : List Char) : splitN sep (n + 1) s ≠ [] := by
  cases n with
  | zero => exact List.cons_ne_nil _ _
  | succ n =>
    unfold splitN
    split <;> exact List.cons_ne_nil _ _

theorem notMem_of_mem_splitOn {sep : Char} : ∀ {s l : List Char}, l ∈ s.splitOn sep → sep ∉ l := by
  intro s
  induction s with
  | nil =>
    intro l h
    obtain rfl := List.mem_singleton.mp h
    exact List.not_mem_nil
  | cons c s ih =>
    intro l h
    rw [List.splitOn_cons_eq_if_modifyHead] at h
    split at h
    · obtain rfl | h := List.mem_cons.mp h
      · exact List.not_mem_nil
      · exact ih h
    · next hc =>
      obtain ⟨first, rest, he⟩ := List.exists_cons_of_ne_nil (List.splitOn_ne_nil sep s)
      rw [he] at h ih
      obtain rfl | h := List.mem_cons.mp h
      · rw [List.mem_cons, not_or]
        exact ⟨fun e => hc (by simp [e]), ih (List.mem_cons_self ..)⟩
      · exact ih (List.mem_cons_of_mem _ h)

/-- The characters with the property White_Space. -/
def isSpace (c : Char) : Bool :=
  c ∈ ['\t', '\n', '\x0b', '\x0c', '\r', ' ', '\u0085', '\u00A0', '\u1680', '\u2028', '\u2029', '\u202F', '\u205F',
      '\u3000'] ∨ ('\u2000' ≤ c ∧ c ≤ '\u200A')

def trimSpace (s : List Char) : List Char := ((s.dropWhile isSpace).reverse.dropWhile isSpace).reverse

def fields (s : List Char) : List (List Char) := (s.splitOnP isSpace).filter (· ≠ [])

theorem fields_space {c : Char} (hc : isSpace c = true) (s : List Char) : fields (c :: s) = fields s := by
  unfold fields
  rw [List.splitOnP_cons_eq_if_modifyHead, if_pos hc, List.filter_cons_of_neg (by decide)]

theorem fields_word {w : List Char} (hne : w ≠ []) (hw : ∀ c ∈ w, isSpace c = false) : fields w = [w] := by
  unfold fields
  rw [List.splitOnP_eq_singleton hw]
  exact List.filter_cons_of_pos (decide_eq_true hne)

theorem fields_word_append {w : List Char} (hne : w ≠ []) (hw : ∀ c ∈ w, isSpace c = false) {c : Char}
    (hc : isSpace c = true) (s : List Char) : fields (w ++ c :: s) = w :: fields s := by
  unfold fields
  rw [List.splitOnP_append_cons_of_forall_mem hw c hc]
  exact List.filter_cons_of_pos (decide_eq_true hne)

/-- The number that a decimal text with an optional sign denotes. -/
def number? (s : List Char) : Option Int :=
  let (neg, digits) := match s with
    | '-' :: ds => (true, ds)
    | '+' :: ds => (false, ds)
    | ds => (false, ds)
  if digits = [] ∨ ¬ digits.all Char.isDigit then none
  else
    let abs : Int := digits.foldl (fun n c => n * 10 + (c.toNat - '0'.toNat)) 0
    some (if neg then -abs else abs)

/-- The number, if it fits into 64 bits. -/
def parseInt (s : List Char) : Option Int :=
  match number? s with
  | some n => if -2 ^ 63 ≤ n ∧ n < 2 ^ 63 then some n else none
  | none => none

/-- The value that comes with or without an error: 0 for no number, else the nearest 64-bit number. -/
def atoi (s : List Char) : Int :=
  match number? s with
  | some n => max (-2 ^ 63) (min n (2 ^ 63 - 1))
  | none => 0

/-- `%d` -/
def decimal (n : Int) : List Char := (toString n).toList

theorem decimal_natCast (n : Nat) : decimal n = Nat.toDigits 10 n := Nat.toList_repr

theorem decimal_negSucc (n : Nat) : decimal (Int.negSucc n) = '-' :: Nat.toDigits 10 (n + 1) := by
  have h : decimal (Int.negSucc n) = ("-" ++ (n + 1).repr).toList := rfl
  rw [h, String.toList_append, Nat.toList_repr]
  rfl

/-- A number begins with its sign or a digit. -/
theorem decimal_head (n : Int) : ∃ c cs, decimal n = c :: cs ∧ (c = '-' ∨ c.isDigit = true) := by
  have hdigits : ∀ m : Nat, ∃ c cs, Nat.toDigits 10 m = c :: cs ∧ c.isDigit = true := by
    intro m
    obtain ⟨c, cs, h⟩ := List.exists_cons_of_ne_nil (Nat.toDigits_ne_nil (n := m) (b := 10))
    exact ⟨c, cs, h, Nat.isDigit_of_mem_toDigits (by omega) (by omega) (h ▸ List.mem_cons_self ..)⟩
  cases n with
  | ofNat m =>
    obtain ⟨c, cs, h, hc⟩ := hdigits m
    exact ⟨c, cs, (decimal_natCast m).trans h, .inr hc⟩
  | negSucc m => exact ⟨'-', _, decimal_negSucc m, .inl rfl⟩

theorem notMem_decimal {c : Char} (hc : c.isDigit = false) (hm : c ≠ '-') (n : Int) : c ∉ decimal n := by
  have hdigits : ∀ m : Nat, c ∉ Nat.toDigits 10 m := by
    intro m h
    have hd := Nat.isDigit_of_mem_toDigits (by omega) (by omega) h
    rw [hc] at hd
    cases hd
  cases n with
  | ofNat m => exact (decimal_natCast m).symm ▸ hdigits m
  | negSucc m =>
    rw [decimal_negSucc, List.mem_cons, not_or]
    exact ⟨hm, hdigits _⟩

theorem foldl_digits {cs : List Char} (h : cs.all Char.isDigit = true) (init : Nat) :
    cs.foldl (fun (n : Int) c => n * 10 + (c.toNat - '0'.toNat)) init = (Nat.ofDigitChars 10 cs init : Nat) := by
  induction cs generalizing init with
  | nil => rw [Nat.ofDigitChars_nil]; rfl
  | cons c cs ih =>
    obtain ⟨hc, hcs⟩ : c.isDigit = true ∧ cs.all Char.isDigit = true := by simpa using h
    have hle : 48 ≤ c.toNat := by
      have hval : 48 ≤ c.val ∧ c.val ≤ 57 := by simpa [Char.isDigit] using hc
      exact UInt32.le_iff_toNat_le.mp hval.1
    rw [List.foldl_cons, Nat.ofDigitChars_cons, ← ih hcs]
    congr 1
    change (init : Int) * 10 + (c.toNat - (48 : Nat)) = ((10 * init + (c.toNat - 48) : Nat) : Int)
    omega

/-- Digits without a sign. -/
theorem number?_digits {cs : List Char} (hne : cs ≠ []) (hall : cs.all Char.isDigit = true) :
    number? cs = some ((Nat.ofDigitChars 10 cs 0 : Nat) : Int) := by
  obtain ⟨c, ds, rfl⟩ := List.exists_cons_of_ne_nil hne
  have hsign : (match c :: ds with
      | '-' :: ds => (true, ds)
      | '+' :: ds => (false, ds)
      | ds => (false, ds)) = (false, c :: ds) := by
    split
    · next he =>
      rw [he] at hall
      simp at hall
    · next he =>
      rw [he] at hall
      simp at hall
    · rfl
  have hcond : ¬ (c :: ds = [] ∨ ¬ (c :: ds).all Char.isDigit = true) := by
    rw [not_or, not_not]
    exact ⟨hne, hall⟩
  have hfold := foldl_digits hall 0
  unfold number?
  rw [hsign]
  dsimp only
  rw [if_neg hcond]
  exact congrArg some hfold

theorem all_isDigit_toDigits (m : Nat) : (Nat.toDigits 10 m).all Char.isDigit = true :=
  List.all_eq_true.mpr fun c hc => Nat.isDigit_of_mem_toDigits (by omega) (by omega) hc

theorem number?_decimal (n : Int) : number? (decimal n) = some n := by
  cases n with
  | ofNat m =>
    have hdigits := number?_digits Nat.toDigits_ne_nil (all_isDigit_toDigits m)
    rw [Nat.ofDigitChars_ten_toDigits] at hdigits
    rw [show decimal (Int.ofNat m) = Nat.toDigits 10 m from decimal_natCast m]
    exact hdigits
  | negSucc m =>
    have hsign : (match '-' :: Nat.toDigits 10 (m + 1) with
        | '-' :: ds => (true, ds)
        | '+' :: ds => (false, ds)
        | ds => (false, ds)) = (true, Nat.toDigits 10 (m + 1)) := rfl
    have hcond : ¬ (Nat.toDigits 10 (m + 1) = [] ∨ ¬ (Nat.toDigits 10 (m + 1)).all Char.isDigit = true) := by
      rw [not_or, not_not]
      exact ⟨Nat.toDigits_ne_nil, all_isDigit_toDigits _⟩
    have hfold := foldl_digits (all_isDigit_toDigits (m + 1)) 0
    rw [Nat.ofDigitChars_ten_toDigits] at hfold
    rw [decimal_negSucc]
    unfold number?
    rw [hsign]
    dsimp only
    rw [if_neg hcond, show ((0 : Int)) = ((0 : Nat) : Int) from rfl, hfold]
    rfl

theorem atoi_decimal {n : Int} (h : -2 ^ 63 ≤ n ∧ n < 2 ^ 63) : atoi (decimal n) = n := by
  unfold atoi
  rw [number?_decimal]
  dsimp only
  omega

/-! ## Texts without white space -/

theorem trimSpace_eq_self {s : List Char} (h : ∀ c ∈ s, isSpace c = false) : trimSpace s = s := by
  have hdrop : ∀ l : List Char, (∀ c ∈ l, isSpace c = false) → l.dropWhile isSpace = l := by
    intro l hl
    cases l with
    | nil => rfl
    | cons c l =>
      have hc : ¬ isSpace c = true := Bool.eq_false_iff.mp (hl c (List.mem_cons_self ..))
      exact List.dropWhile_cons_of_neg hc
  unfold trimSpace
  rw [hdrop s h, hdrop s.reverse (fun c hc => h c (List.mem_reverse.mp hc)), List.reverse_reverse]

theorem isSpace_of_isDigit {c : Char} (h : c.isDigit = true) : isSpace c = false := by
  have hall : ∀ n < 58, (Char.ofNat n).isDigit = true → isSpace (Char.ofNat n) = false := by decide +kernel
  have hlt : c.toNat < 58 := Nat.lt_of_le_of_lt (Char.isDigit_iff_toNat.mp h).2 (by decide)
  have := hall c.toNat hlt
  rw [Char.ofNat_toNat] at this
  exact this h

/-! ## Texts with white space around them -/

/-- The text without the white space at its end. -/
def trimEnd (s : List Char) : List Char := (s.reverse.dropWhile isSpace).reverse

theorem dropWhile_blank {u : List Char} (h : ∀ c ∈ u, isSpace c = true) (s : List Char) :
    (u ++ s).dropWhile isSpace = s.dropWhile isSpace :=
  List.dropWhile_append_of_pos h

theorem trimSpace_eq (s : List Char) : trimSpace s = trimEnd (s.dropWhile isSpace) := rfl

theorem trimEnd_append_blank {v : List Char} (h : ∀ c ∈ v, isSpace c = true) (s : List Char) :
    trimEnd (s ++ v) = trimEnd s := by
  unfold trimEnd
  rw [List.reverse_append, dropWhile_blank fun c hc => h c (List.mem_reverse.mp hc)]

theorem trimEnd_append_cons {d : Char} (hd : isSpace d = false) (a b : List Char) :
    trimEnd (a ++ d :: b) = a ++ d :: trimEnd b := by
  unfold trimEnd
  rw [List.reverse_append, List.reverse_cons, List.append_assoc, List.dropWhile_append]
  split
  · next h =>
    rw [List.isEmpty_iff.mp h]
    simp [hd]
  · simp

theorem trimSpace_append_blank {v : List Char} (h : ∀ c ∈ v, isSpace c = true) (s : List Char) :
    trimSpace (s ++ v) = trimSpace s := by
  rw [trimSpace_eq, trimSpace_eq, List.dropWhile_append]
  split
  · next hs =>
    rw [List.isEmpty_iff.mp hs, List.dropWhile_eq_nil_iff.mpr h]
  · exact trimEnd_append_blank h _

theorem trimSpace_blank_append {u : List Char} (h : ∀ c ∈ u, isSpace c = true) (s : List Char) :
    trimSpace (u ++ s) = trimSpace s := by
  rw [trimSpace_eq, trimSpace_eq, dropWhile_blank h]

theorem trimSpace_cons_append {c d : Char} (hc : isSpace c = false) (hd : isSpace d = false) (a b : List Char) :
    trimSpace (c :: (a ++ d :: b)) = c :: (a ++ d :: trimEnd b) := by
  rw [trimSpace_eq, List.dropWhile_cons_of_neg (by simp [hc]), ← List.cons_append, trimEnd_append_cons hd, List.cons_append]

/-- A text is what is left of it, with the white space at its end. -/
theorem exists_trimEnd_append (s : List Char) : ∃ v, (∀ c ∈ v, isSpace c = true) ∧ s = trimEnd s ++ v := by
  refine ⟨(s.reverse.takeWhile isSpace).reverse, ?_, ?_⟩
  · intro c hc
    exact List.mem_takeWhile_imp (List.mem_reverse.mp hc)
  · have h := congrArg List.reverse (List.takeWhile_append_dropWhile (p := isSpace) (l := s.reverse))
    rw [List.reverse_append, List.reverse_reverse] at h
    exact h.symm

theorem trimSpace_trimEnd (s : List Char) : trimSpace (trimEnd s) = trimSpace s := by
  obtain ⟨v, hv, hs⟩ := exists_trimEnd_append s
  conv =>
    rhs
    rw [hs]
  rw [trimSpace_append_blank hv]

end Text
