import OciHelper.Lib.KeyTable
import OciHelper.Lib.Like
import OciHelper.Lib.Slices

/-!
# Keyword search

* `escapeLike`, `pattern` : the pattern of a keyword;
* `chars` : the characters that the database reads from a text; `like` : its operator, with `\` as the escape character;
* `listAuditPaginated`, `listTenantsPaginated`, `listTasksPaginated` : the lists with a keyword and pages;
* `like_pattern` : the pattern matches the texts whose characters contain those of the keyword, up to the case of ASCII
  letters; `chars_utf8` : the characters of a text in UTF-8 are its own;
* `search_is_literal` : for such texts the search is literal, and the pages hold every row that is found once.

What a row has besides the columns that are searched is a parameter.
-/

namespace OciHelper.Db.Search
open Like Slices

abbrev Bytes := List UInt8

/-! ## The pattern -/

def percent : UInt8 := 37

def underscore : UInt8 := 95

def backslash : UInt8 := 92

def escapeLike (s : Bytes) : Bytes :=
  s.flatMap fun c => if c = percent ∨ c = underscore ∨ c = backslash then [backslash, c] else [c]

def pattern (keyword : Bytes) : Bytes := percent :: (escapeLike keyword ++ [percent])

/-! ## The operator -/

/-- A byte that goes on with a character. -/
def isTrail (b : UInt8) : Bool := 0x80 ≤ b.toNat ∧ b.toNat < 0xC0

/-- What a first byte from `0xC0` on is worth. -/
def leadValue (b : UInt8) : Nat :=
  let n := b.toNat
  if n < 0xE0 then n % 0x20
  else if n < 0xF0 then n % 0x10
  else if n < 0xF8 then n % 8
  else if n < 0xFC then n % 4
  else if n < 0xFE then n % 2
  else 0

/-- The character of several bytes; overlong forms, surrogates, U+FFFE and U+FFFF are read as U+FFFD. -/
def wide (c : Nat) : Nat :=
  if c < 0x80 ∨ c / 0x800 = 0x1B ∨ c / 2 = 0x7FFF then 0xFFFD else c

/-- The characters after a first byte, with what it and the bytes after it are worth so far. A byte that goes on with
nothing is a character, and the text ends with its first NUL. -/
def charsFrom : Option Nat → Bytes → List Nat
  | pending, [] => pending.toList.map wide
  | pending, b :: rest =>
    match pending, isTrail b with
    | some c, true => charsFrom (some ((c * 64 + b.toNat % 64) % 2 ^ 32)) rest
    | _, _ =>
      pending.toList.map wide ++
        if b = 0 then []
        else if b.toNat < 0xC0 then b.toNat :: charsFrom none rest
        else charsFrom (some (leadValue b)) rest

def chars (s : Bytes) : List Nat := charsFrom none s

def marks : Marks Nat := ⟨percent.toNat, underscore.toNat, backslash.toNat, by decide⟩

/-- ASCII letters in lower case. -/
def lower (c : Nat) : Nat := if 65 ≤ c ∧ c ≤ 90 then c + 32 else c

def same (c d : Nat) : Bool := lower c = lower d

inductive SqlError
  | tooComplex
  deriving DecidableEq, Repr

/-- `text LIKE pattern ESCAPE '\'` -/
def like (pattern text : Bytes) : Except SqlError Bool :=
  if pattern.length > 50000 then .error .tooComplex
  else .ok (fits same (marks.tokens (chars pattern)) (chars text))

/-! ## The lists -/

variable {α : Type}

/-- Is the pattern in one of two columns? -/
def found (first second : α → Bytes) (kw : Bytes) (row : α) : Except SqlError Bool := do
  return (← like kw (first row)) || (← like kw (second row))

/-- `LIMIT size OFFSET offset`; a negative limit is none. -/
def limitOffset (rows : List α) (size offset : Int64) : List α :=
  let rest := rows.drop offset.toInt.toNat
  if size < 0 then rest else rest.take size.toInt.toNat

/-- The page and the number of rows that are found, by two queries. -/
def paginated (first second : α → Bytes) (table : KeyTable α) (keyword : Bytes) (page size : Int64) :
    Except SqlError (List (Int × α) × Nat) := do
  let kw := pattern keyword
  let total ← table.rows.filterM fun r => found first second kw r.2
  let offset := (page - 1) * size
  let rows ← table.newest.filterM fun r => found first second kw r.2
  return (limitOffset rows size offset, total.length)

def listAuditPaginated (action detail : α → Bytes) (auditLogs : KeyTable α) (keyword : Bytes) (page size : Int64) :
    Except SqlError (List (Int × α) × Nat) := paginated action detail auditLogs keyword page size

def listTenantsPaginated (name region : α → Bytes) (tenants : KeyTable α) (keyword : Bytes) (page size : Int64) :
    Except SqlError (List (Int × α) × Nat) := paginated name region tenants keyword page size

def listTasksPaginated (type message : α → Bytes) (tasks : KeyTable α) (keyword : Bytes) (page size : Int64) :
    Except SqlError (List (Int × α) × Nat) := paginated type message tasks keyword page size

/-! ## The pattern matches what contains the keyword -/

theorem charsFrom_trail {b : UInt8} (h : isTrail b = true) (c : Nat) (rest : Bytes) :
    charsFrom (some c) (b :: rest) = charsFrom (some ((c * 64 + b.toNat % 64) % 2 ^ 32)) rest := by
  rw [charsFrom.eq_def]
  dsimp only
  rw [h]

theorem charsFrom_start {b : UInt8} {pending : Option Nat} (h : isTrail b = true → pending = none) (rest : Bytes) :
    charsFrom pending (b :: rest) = pending.toList.map wide ++
      if b = 0 then []
      else if b.toNat < 0xC0 then b.toNat :: charsFrom none rest
      else charsFrom (some (leadValue b)) rest := by
  rw [charsFrom.eq_def]
  dsimp only
  split
  · next htrail => cases h htrail
  · rfl

theorem charsFrom_ascii {b : UInt8} (hb : b ≠ 0) (hlt : b.toNat < 0x80) (pending : Option Nat) (rest : Bytes) :
    charsFrom pending (b :: rest) = pending.toList.map wide ++ b.toNat :: charsFrom none rest := by
  have htrail : isTrail b = false := decide_eq_false (by omega)
  rw [charsFrom_start (fun h => by rw [htrail] at h; cases h), if_neg hb, if_pos (by omega)]

theorem wide_le (c : Nat) : 0x80 ≤ wide c := by
  unfold wide
  split <;> omega

theorem special_of_le {c : Nat} (h : 0x80 ≤ c) : marks.special c = false := by
  have hmany : marks.many = 37 := rfl
  have hone : marks.one = 95 := rfl
  have hesc : marks.esc = 92 := rfl
  refine decide_eq_false ?_
  rw [hmany, hone, hesc]
  omega

theorem escape_append (s t : List Nat) : marks.escape (s ++ t) = marks.escape s ++ marks.escape t :=
  List.flatMap_append

theorem escape_cons (c : Nat) (t : List Nat) :
    marks.escape (c :: t) = (if marks.special c then [marks.esc, c] else [c]) ++ marks.escape t := List.flatMap_cons

theorem escape_pending (pending : Option Nat) :
    marks.escape (pending.toList.map wide) = pending.toList.map wide := by
  cases pending with
  | none => rfl
  | some c =>
    refine (escape_cons _ _).trans ?_
    rw [special_of_le (wide_le c)]
    rfl

/-- A byte is escaped just when its character is. -/
theorem special_toNat (b : UInt8) :
    marks.special b.toNat = decide (b = percent ∨ b = underscore ∨ b = backslash) := by
  have h : ∀ c : UInt8, b.toNat = c.toNat ↔ b = c := fun c => UInt8.toNat_inj
  simp only [Marks.special, marks, h]

theorem chars_escapeLike (keyword rest : Bytes) (h : 0 ∉ keyword) : ∀ pending : Option Nat,
    charsFrom pending (escapeLike keyword ++ percent :: rest) =
      marks.escape (charsFrom pending keyword) ++ percent.toNat :: charsFrom none rest := by
  induction keyword with
  | nil =>
    intro pending
    have hnil : charsFrom pending [] = pending.toList.map wide := by cases pending <;> rfl
    rw [hnil, escape_pending]
    exact charsFrom_ascii (by decide) (by decide) pending rest
  | cons b keyword ih =>
    intro pending
    obtain ⟨hb, hrest⟩ := not_or.mp (mt List.mem_cons.mpr h)
    have ih := ih hrest
    by_cases hspecial : b = percent ∨ b = underscore ∨ b = backslash
    · have hlt : b.toNat < 0x80 := by rcases hspecial with rfl | rfl | rfl <;> decide
      have hescape : escapeLike (b :: keyword) = backslash :: b :: escapeLike keyword := by
        rw [escapeLike, List.flatMap_cons, if_pos hspecial]
        rfl
      rw [hescape, List.cons_append, List.cons_append, charsFrom_ascii (by decide) (by decide),
        charsFrom_ascii (Ne.symm hb) hlt, charsFrom_ascii (Ne.symm hb) hlt, escape_append, escape_pending, escape_cons,
        special_toNat, decide_eq_true hspecial, ih]
      simp
      rfl
    · have hescape : escapeLike (b :: keyword) = b :: escapeLike keyword := by
        rw [escapeLike, List.flatMap_cons, if_neg hspecial]
        rfl
      rw [hescape, List.cons_append]
      by_cases htrail : isTrail b = true ∧ pending ≠ none
      · obtain ⟨htrail, hsome⟩ := htrail
        obtain ⟨c, rfl⟩ := Option.ne_none_iff_exists'.mp hsome
        rw [charsFrom_trail htrail, charsFrom_trail htrail, ih]
      · have hstart : isTrail b = true → pending = none := fun ht => by_contra fun hn => htrail ⟨ht, hn⟩
        rw [charsFrom_start hstart, charsFrom_start hstart, if_neg (Ne.symm hb), if_neg (Ne.symm hb), escape_append,
          escape_pending, List.append_assoc]
        congr 1
        split
        · rw [escape_cons, special_toNat, decide_eq_false hspecial, ih]
          rfl
        · exact ih _

/-- Up to the case of ASCII letters. -/
def Contains (text keyword : List Nat) : Prop := keyword.map lower <:+: text.map lower

instance (text keyword : List Nat) : Decidable (Contains text keyword) := inferInstanceAs (Decidable (_ <:+: _))

theorem same_iff (c d : Nat) : same c d ↔ lower c = lower d := decide_eq_true_iff

/-- The pattern of a keyword matches what contains it, in the characters that are read from both. -/
theorem like_pattern {keyword : Bytes} (h0 : 0 ∉ keyword) (hlen : (pattern keyword).length ≤ 50000) (text : Bytes) :
    like (pattern keyword) text = .ok (decide (Contains (chars text) (chars keyword))) := by
  have hchars : chars (pattern keyword) = marks.many :: (marks.escape (chars keyword) ++ [marks.many]) := by
    have hfirst := charsFrom_ascii (b := percent) (by decide) (by decide) none (escapeLike keyword ++ [percent])
    rw [chars, pattern, hfirst, chars_escapeLike keyword [] h0 none]
    rfl
  have htokens : marks.tokens (chars (pattern keyword)) = .many :: ((chars keyword).map .char ++ [.many]) := by
    rw [hchars, tokens_many, tokens_escape]
    rfl
  have hfits := fits_infix_iff same_iff (chars keyword) (chars text)
  rw [like, if_neg (by omega), htokens, ← Bool.decide_coe (fits ..)]
  exact congrArg _ (decide_eq_decide.mpr hfits)

/-! ## Texts in UTF-8 -/

def utf8 (cs : List Char) : Bytes := cs.flatMap String.utf8EncodeChar

/-- Neither NUL nor one of the two characters that are read as another one. -/
def Plain (cs : List Char) : Prop := ∀ c ∈ cs, c ≠ Char.ofNat 0 ∧ c.toNat ≠ 0xFFFE ∧ c.toNat ≠ 0xFFFF

instance (cs : List Char) : Decidable (Plain cs) := List.decidableBAll _ cs

theorem charsFrom_trailByte (c n : Nat) (rest : Bytes) :
    charsFrom (some c) (UInt8.ofNat (n % 0x40 + 0x80) :: rest) = charsFrom (some ((c * 64 + n % 64) % 2 ^ 32)) rest := by
  have hb : (UInt8.ofNat (n % 0x40 + 0x80)).toNat = n % 0x40 + 0x80 :=
    UInt8.toNat_ofNat_of_lt' (by change _ < 256; omega)
  have htrail : isTrail (UInt8.ofNat (n % 0x40 + 0x80)) = true := decide_eq_true (by omega)
  have hmod : (n % 0x40 + 0x80) % 64 = n % 64 := by omega
  rw [charsFrom_trail htrail, hb, hmod]

theorem charsFrom_leadByte {n : Nat} (hle : 0xC0 ≤ n) (hlt : n < 0xF8) (pending : Option Nat) (rest : Bytes) :
    charsFrom pending (UInt8.ofNat n :: rest) = pending.toList.map wide ++
      charsFrom (some (if n < 0xE0 then n % 0x20 else if n < 0xF0 then n % 0x10 else n % 8)) rest := by
  have hb : (UInt8.ofNat n).toNat = n := UInt8.toNat_ofNat_of_lt' (by change n < 256; omega)
  have htrail : isTrail (UInt8.ofNat n) = false := decide_eq_false (by omega)
  have hne : UInt8.ofNat n ≠ 0 := fun h => by
    rw [h] at hb
    change 0 = n at hb
    omega
  rw [charsFrom_start (fun h => by rw [htrail] at h; cases h), if_neg hne, if_neg (by omega), leadValue, hb]
  simp only [if_pos hlt]

theorem wide_toNat {c : Char} (h : 0x80 ≤ c.toNat) (h₁ : c.toNat ≠ 0xFFFE) (h₂ : c.toNat ≠ 0xFFFF) :
    wide c.toNat = c.toNat := by
  have hvalid : c.toNat < 0xD800 ∨ 0xDFFF < c.toNat ∧ c.toNat < 0x110000 := c.valid
  refine if_neg ?_
  omega

/-- A character is read as it is, after the one that was pending. -/
theorem charsFrom_encode {c : Char} (hc : c ≠ Char.ofNat 0 ∧ c.toNat ≠ 0xFFFE ∧ c.toNat ≠ 0xFFFF) (rest : Bytes)
    {cs : List Nat} (ih : ∀ pending, charsFrom pending rest = pending.toList.map wide ++ cs) (pending : Option Nat) :
    charsFrom pending (String.utf8EncodeChar c ++ rest) = pending.toList.map wide ++ c.toNat :: cs := by
  have hvalid : c.toNat < 0xD800 ∨ 0xDFFF < c.toNat ∧ c.toNat < 0x110000 := c.valid
  have hv : c.val.toNat = c.toNat := rfl
  have hsome : ∀ n, n = c.toNat → 0x80 ≤ c.toNat → charsFrom (some n) rest = c.toNat :: cs := by
    rintro _ rfl hle
    rw [ih]
    exact congrArg (· :: cs) (wide_toNat hle hc.2.1 hc.2.2)
  unfold String.utf8EncodeChar
  rw [hv]
  dsimp only
  split
  · next h1 =>
    have hb : (UInt8.ofNat c.toNat).toNat = c.toNat := UInt8.toNat_ofNat_of_lt' (by change _ < 256; omega)
    have hne : UInt8.ofNat c.toNat ≠ 0 := fun h => by
      rw [h] at hb
      exact hc.1 (Char.toNat_inj.mp hb.symm)
    rw [List.singleton_append, charsFrom_ascii hne (by omega), hb, ih none]
    rfl
  · split
    · rw [List.cons_append, List.singleton_append, charsFrom_leadByte (by omega) (by omega), charsFrom_trailByte]
      rw [hsome _ (by split <;> omega) (by omega)]
    · split
      · rw [List.cons_append, List.cons_append, List.singleton_append, charsFrom_leadByte (by omega) (by omega),
          charsFrom_trailByte, charsFrom_trailByte]
        rw [hsome _ (by split <;> [omega; (split <;> omega)]) (by omega)]
      · rw [List.cons_append, List.cons_append, List.cons_append, List.singleton_append,
          charsFrom_leadByte (by omega) (by omega), charsFrom_trailByte, charsFrom_trailByte, charsFrom_trailByte]
        rw [hsome _ (by split <;> [omega; (split <;> omega)]) (by omega)]

theorem chars_utf8 {cs : List Char} (h : Plain cs) : chars (utf8 cs) = cs.map Char.toNat := by
  have hall : ∀ pending, charsFrom pending (utf8 cs) = pending.toList.map wide ++ cs.map Char.toNat := by
    induction cs with
    | nil =>
      intro pending
      cases pending <;> rfl
    | cons c cs ih =>
      intro pending
      obtain ⟨hc, hcs⟩ := List.forall_mem_cons.mp h
      exact charsFrom_encode hc (utf8 cs) (ih hcs) pending
  exact hall none

theorem lower_toNat (c : Char) : lower c.toNat = c.toLower.toNat := by
  have hiff : (65 ≤ c.toNat ∧ c.toNat ≤ 90) ↔ c.val ≥ 'A'.val ∧ c.val ≤ 'Z'.val := by
    rw [ge_iff_le, UInt32.le_iff_toNat_le, UInt32.le_iff_toNat_le]
    rfl
  unfold lower Char.toLower
  by_cases h : c.val ≥ 'A'.val ∧ c.val ≤ 'Z'.val
  · have hle := (hiff.mpr h).2
    rw [if_pos (hiff.mpr h), dif_pos h]
    change c.toNat + 32 = (c.val + 32).toNat
    rw [UInt32.toNat_add]
    change _ = (c.toNat + 32) % 2 ^ 32
    omega
  · rw [if_neg (mt hiff.mp h), dif_neg h]

theorem contains_utf8_iff {cs ts : List Char} (hc : Plain cs) (ht : Plain ts) :
    Contains (chars (utf8 ts)) (chars (utf8 cs)) ↔ cs.map Char.toLower <:+: ts.map Char.toLower := by
  have hmap : ∀ l : List Char, (l.map Char.toNat).map lower = (l.map Char.toLower).map Char.toNat := by
    intro l
    rw [List.map_map, List.map_map]
    exact List.map_congr_left fun c _ => lower_toNat c
  have hinj : Function.Injective Char.toNat := fun c d h => Char.toNat_inj.mp h
  rw [Contains, chars_utf8 hc, chars_utf8 ht, hmap, hmap]
  refine ⟨fun h => ?_, fun h => h.map _⟩
  obtain ⟨l, hl, he⟩ := List.infix_map_iff.mp h
  rwa [List.map_injective_iff.mpr hinj he]

/-! ## The pages -/

/-- A table whose rows have ids of 64 bits. -/
abbrev Table (α : Type) := {t : KeyTable α // t.rows.length < 2 ^ 63}

/-- The first page says how many rows are found; the pages up to the last one, one after the other. -/
def allPages (list : Int64 → Except SqlError (List (Int × α) × Nat)) (size : Int64) :
    Except SqlError (List (Int × α)) := do
  let (_, total) ← list 1
  let pages ← (List.range ((total + size.toInt.toNat - 1) / size.toInt.toNat)).mapM fun k =>
    list (Int64.ofNat (k + 1))
  return pages.flatMap Prod.fst

/-- Every row with the property is there once, and nothing else; on every page the total is their number. -/
structure HoldsEach (P : α → Prop) (table : KeyTable α) (list : Int64 → Except SqlError (List (Int × α) × Nat))
    (size : Int64) : Prop where
  pages : ∃ rows, allPages list size = .ok rows ∧ (rows.map Prod.fst).Nodup ∧
    (∀ id row, (id, row) ∈ rows ↔ table.get id = some row ∧ P row) ∧
    ∀ page, ∃ shown, list page = .ok (shown, rows.length)

theorem filterAuxM_ok {β : Type} {f : β → Except SqlError Bool} {p : β → Bool} (h : ∀ b, f b = .ok (p b))
    (l acc : List β) : l.filterAuxM f acc = .ok ((l.filter p).reverse ++ acc) := by
  induction l generalizing acc with
  | nil => rfl
  | cons b l ih =>
    rw [List.filterAuxM, h]
    cases hp : p b with
    | true =>
      rw [List.filter_cons_of_pos hp, List.reverse_cons, List.append_assoc]
      exact ih (b :: acc)
    | false =>
      rw [List.filter_cons_of_neg (by rw [hp]; exact Bool.false_ne_true)]
      exact ih acc

theorem filterM_ok {β : Type} {f : β → Except SqlError Bool} {p : β → Bool} (h : ∀ b, f b = .ok (p b)) (l : List β) :
    l.filterM f = .ok (l.filter p) := by
  rw [List.filterM, filterAuxM_ok h, List.append_nil]
  exact congrArg _ (List.reverse_reverse _)

theorem mapM_ok {β γ : Type} {f : β → Except SqlError γ} {g : β → γ} {l : List β} (h : ∀ b ∈ l, f b = .ok (g b)) :
    l.mapM f = .ok (l.map g) := by
  induction l with
  | nil => rfl
  | cons b l ih =>
    obtain ⟨hb, hl⟩ := List.forall_mem_cons.mp h
    rw [List.mapM_cons, hb, ih hl]
    rfl

/-- The property that a search looks for. -/
def Found (first second : α → Bytes) (keyword : Bytes) (row : α) : Prop :=
  Contains (chars (first row)) (chars keyword) ∨ Contains (chars (second row)) (chars keyword)

instance (first second : α → Bytes) (keyword : Bytes) (row : α) : Decidable (Found first second keyword row) :=
  inferInstanceAs (Decidable (_ ∨ _))

section Pages
variable {first second : α → Bytes} {keyword : Bytes}

theorem found_pattern (h0 : 0 ∉ keyword) (hlen : (pattern keyword).length ≤ 50000) (row : α) :
    found first second (pattern keyword) row = .ok (decide (Found first second keyword row)) := by
  rw [found, like_pattern h0 hlen, like_pattern h0 hlen]
  exact congrArg _ (Bool.decide_or ..).symm

theorem paginated_eq (h0 : 0 ∉ keyword) (hlen : (pattern keyword).length ≤ 50000) (table : KeyTable α)
    (page size : Int64) : paginated first second table keyword page size =
      .ok (limitOffset (table.newest.filter fun r => Found first second keyword r.2) size ((page - 1) * size),
        (table.newest.filter fun r => Found first second keyword r.2).length) := by
  have hfilter : ∀ l : List (Int × α), (l.filterM fun r => found first second (pattern keyword) r.2) =
      .ok (l.filter fun r => Found first second keyword r.2) := by
    intro l
    apply filterM_ok
    intro r
    exact found_pattern h0 hlen r.2
  rw [paginated, hfilter, hfilter, KeyTable.newest, List.filter_reverse, List.length_reverse]
  rfl

theorem toNat_pos {size : Int64} (hs : 1 ≤ size) : 0 < size.toInt.toNat := by
  have hle := Int64.le_iff_toInt_le.mp hs
  change 1 ≤ size.toInt at hle
  omega

/-- The page `k + 1`, up to the last one. -/
theorem limitOffset_page {β : Type} {rows : List β} {size : Int64} {k : Nat} (hs : 1 ≤ size)
    (hrows : rows.length < 2 ^ 63) (hk : k < (rows.length + size.toInt.toNat - 1) / size.toInt.toNat) :
    limitOffset rows size ((Int64.ofNat (k + 1) - 1) * size) =
      (rows.drop (k * size.toInt.toNat)).take size.toInt.toNat := by
  have hone : (1 : Int64).toInt = 1 := rfl
  have hpos := toNat_pos hs
  generalize hnat : size.toInt.toNat = n at hk hpos ⊢
  have hn : size.toInt = n := by omega
  have hle : k * n < rows.length := by
    have := (Nat.le_div_iff_mul_le (by omega)).mp (Nat.succ_le_of_lt hk)
    rw [Nat.succ_mul] at this
    omega
  have hk : k ≤ k * n := Nat.le_mul_of_pos_right k (by omega)
  have hsucc : (Int64.ofNat (k + 1)).toInt = ((k + 1 : Nat) : Int) := Int64.toInt_ofNat_of_lt (by omega)
  have hpred : (Int64.ofNat (k + 1) - 1).toInt = k := by
    rw [toInt_sub (by rw [hsucc, hone]; omega) (by rw [hsucc, hone]; omega), hsucc, hone]
    omega
  have hmul : (Int64.ofNat (k + 1) - 1).toInt * size.toInt = ((k * n : Nat) : Int) := by
    rw [hpred, hn, Int.natCast_mul]
  have hoffset : ((Int64.ofNat (k + 1) - 1) * size).toInt = ((k * n : Nat) : Int) := by
    rw [toInt_mul (by rw [hmul]; omega) (by rw [hmul]; omega), hmul]
  have hnot : ¬ size < 0 := fun h => by
    have := Int64.lt_iff_toInt_lt.mp h
    change size.toInt < 0 at this
    omega
  rw [limitOffset, if_neg hnot, hoffset, hnat]
  rfl

/-- The pages that are cut from one list of rows are that list. -/
theorem allPages_eq {list : Int64 → Except SqlError (List (Int × α) × Nat)} {size : Int64} {rows : List (Int × α)}
    (hlist : ∀ page, list page = .ok (limitOffset rows size ((page - 1) * size), rows.length)) (hs : 1 ≤ size)
    (hrows : rows.length < 2 ^ 63) : allPages list size = .ok rows := by
  have hpages : ∀ k ∈ List.range ((rows.length + size.toInt.toNat - 1) / size.toInt.toNat),
      list (Int64.ofNat (k + 1)) = .ok ((rows.drop (k * size.toInt.toNat)).take size.toInt.toNat, rows.length) :=
    fun k hk => by rw [hlist, limitOffset_page hs hrows (List.mem_range.mp hk)]
  have hlast : rows.length ≤ (rows.length + size.toInt.toNat - 1) / size.toInt.toNat * size.toInt.toNat := by
    have hdiv := Nat.div_add_mod (rows.length + size.toInt.toNat - 1) size.toInt.toNat
    have hmod := Nat.mod_lt (rows.length + size.toInt.toNat - 1) (toNat_pos hs)
    rw [Nat.mul_comm] at hdiv
    omega
  have hmap := mapM_ok hpages
  unfold allPages
  rw [hlist]
  simp only [bind, Except.bind] at hmap ⊢
  rw [hmap]
  refine congrArg Except.ok ?_
  rw [List.flatMap_def, List.map_map]
  exact flatten_pages rows hlast

/-- **The pages of a search hold every row that is found once.** -/
theorem holdsEach_paginated (h0 : 0 ∉ keyword) (hlen : (pattern keyword).length ≤ 50000) (table : Table α) {size : Int64}
    (hs : 1 ≤ size) : HoldsEach (Found first second keyword) table.1
      (fun page => paginated first second table.1 keyword page size) size := by
  have hlist := @paginated_eq α first second keyword h0 hlen table.1
  generalize hrows : table.1.newest.filter (fun r => decide (Found first second keyword r.2)) = rows at hlist
  have hsub : rows.Sublist table.1.newest := hrows ▸ List.filter_sublist
  have hlt : rows.length < 2 ^ 63 := by
    have hle := hsub.length_le
    rw [KeyTable.newest, List.length_reverse] at hle
    exact Nat.lt_of_le_of_lt hle table.2
  have hkeys : (table.1.newest.map Prod.fst).Nodup := by
    refine List.pairwise_map.mpr (List.pairwise_reverse.mpr ?_)
    exact table.1.sorted.imp fun h => Int.ne_of_gt h
  refine ⟨rows, allPages_eq (fun page => hlist page size) hs hlt, (hsub.map Prod.fst).nodup hkeys, ?_,
    fun page => ⟨_, hlist page size⟩⟩
  intro id row
  rw [← hrows, List.mem_filter, KeyTable.mem_newest, decide_eq_true_iff]

end Pages

/-! ## The result -/

/-- **Keyword search is literal.** A text is found just when its characters contain those of the keyword up to the case
of ASCII letters, for texts in UTF-8 when it contains the keyword; and the pages of each list hold every row that is
found once. -/
theorem search_is_literal {keyword : Bytes} (h0 : 0 ∉ keyword) (hlen : (pattern keyword).length ≤ 50000) :
    (∀ text, like (pattern keyword) text = .ok (decide (Contains (chars text) (chars keyword)))) ∧
    (∀ cs ts, Plain cs → Plain ts → keyword = utf8 cs →
      like (pattern keyword) (utf8 ts) = .ok (decide (cs.map Char.toLower <:+: ts.map Char.toLower))) ∧
    ∀ (α : Type) (first second : α → Bytes) (table : Table α) (size : Int64), 1 ≤ size →
      HoldsEach (Found first second keyword) table.1 (listAuditPaginated first second table.1 keyword · size) size ∧
      HoldsEach (Found first second keyword) table.1 (listTenantsPaginated first second table.1 keyword · size) size ∧
      HoldsEach (Found first second keyword) table.1 (listTasksPaginated first second table.1 keyword · size) size := by
  have hlike := like_pattern h0 hlen
  refine ⟨hlike, ?_, ?_⟩
  · rintro cs ts hc ht rfl
    rw [hlike]
    exact congrArg _ (decide_eq_decide.mpr (contains_utf8_iff hc ht))
  · intro α first second table size hs
    have heach := @holdsEach_paginated α first second keyword h0 hlen table size hs
    exact ⟨heach, heach, heach⟩

/-- Two of three texts have a `%`, one of them in the second column. -/
def percentTable : Table (Bytes × Bytes) :=
  ⟨((KeyTable.empty.insert ([97, percent], [])).insert ([97], [98])).insert ([], [percent]), by decide⟩

/-- The keyword `%` finds the texts that have one: the pages of one row show two of three rows. -/
theorem percent_is_literal :
    like (pattern [percent]) [97, percent] = .ok true ∧ like (pattern [percent]) [97] = .ok false ∧
      like (pattern (utf8 ['%'])) (utf8 ['é', '%']) = .ok true ∧
      HoldsEach (Found Prod.fst Prod.snd [percent]) percentTable.1
        (listTenantsPaginated Prod.fst Prod.snd percentTable.1 [percent] · 1) 1 ∧
      listTenantsPaginated Prod.fst Prod.snd percentTable.1 [percent] 2 1 = .ok ([(1, ([97, percent], []))], 2) := by
  obtain ⟨hlike, hutf8, hpages⟩ := @search_is_literal [percent] (by decide) (by decide)
  refine ⟨(hlike _).trans rfl, (hlike _).trans rfl, ?_, (hpages _ _ _ percentTable 1 (by decide)).2.1, by decide⟩
  exact (hutf8 ['%'] ['é', '%'] (by decide) (by decide) rfl).trans (congrArg _ (by decide))

theorem length_le_escapeLike (s : Bytes) : s.length ≤ (escapeLike s).length := by
  induction s with
  | nil => exact le_refl 0
  | cons c s ih =>
    rw [escapeLike, List.flatMap_cons, List.length_append, List.length_cons]
    change s.length ≤ (s.flatMap _).length at ih
    split <;> simp only [List.length_cons, List.length_nil] <;> omega

/-- A keyword of 49999 bytes is refused. -/
theorem like_long {keyword : Bytes} (h : 49999 ≤ keyword.length) (text : Bytes) :
    like (pattern keyword) text = .error .tooComplex := by
  have hlen := length_le_escapeLike keyword
  refine if_pos ?_
  rw [pattern, List.length_cons, List.length_append, List.length_singleton]
  omega

/-- A byte in the middle of a character is part of the text, but it is not found; nor is a long text in itself. -/
theorem bytes_not_found :
    ((0 : UInt8) ∉ [(0xA9 : UInt8)] ∧ [(0xA9 : UInt8)] <:+: [0xC3, 0xA9] ∧
      like (pattern [0xA9]) [0xC3, 0xA9] = .ok false) ∧
    ∃ keyword : Bytes, 0 ∉ keyword ∧ like (pattern keyword) keyword = .error .tooComplex := by
  refine ⟨by decide, List.replicate 49999 97, fun h => ?_, like_long (le_of_eq List.length_replicate.symm) _⟩
  exact absurd (List.eq_of_mem_replicate h) (by decide)

end OciHelper.Db.Search
