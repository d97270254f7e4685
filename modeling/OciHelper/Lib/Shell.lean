import OciHelper.Lib.Text

/-!
# How a shell splits a command

* `Word` : a word as it is written and after quote removal; `step`, `finish` : it is read character by character;
* `lex` : the words of every part of a pipeline; `pipeline` : the parts that are run;
* `argv` : a program and its arguments, without what stands before them;
* `Word.plain` : a word that is written without quotes and without white space;
* `fields_of_pipeline` : the plain words that a part begins with are the first fields of a part of the text as it is.

A command is one line without expansions and without operators other than `|`, and each of its parts is a simple command.
-/

namespace Shell
open Text

@[ext] structure Word where
  text : List Char
  value : List Char
  deriving DecidableEq, Repr

inductive Quote
  | bare
  | escape
  | single
  | double
  | doubleEscape
  deriving DecidableEq, Repr

/-- One more character of the text, and what it adds to the value. -/
def Word.add (w : Word) (c : Char) (read : List Char) : Word := ⟨w.text ++ [c], w.value ++ read⟩

def step : Word × Quote → Char → Word × Quote
  | (w, .bare), c =>
    if c = '\\' then (w.add c [], .escape)
    else if c = '\'' then (w.add c [], .single)
    else if c = '"' then (w.add c [], .double)
    else (w.add c [c], .bare)
  | (w, .escape), c => (w.add c [c], .bare)
  | (w, .single), c => if c = '\'' then (w.add c [], .bare) else (w.add c [c], .single)
  | (w, .double), c =>
    if c = '"' then (w.add c [], .bare)
    else if c = '\\' then (w.add c [], .doubleEscape)
    else (w.add c [c], .double)
  | (w, .doubleEscape), c => (w.add c (if c ∈ ['"', '\\', '$', '\x60'] then [c] else ['\\', c]), .double)

/-- The end of the text in a word: a quote that is still open is an error, and a backslash stands for itself. -/
def finish : Word × Quote → Option Word
  | (w, .bare) => some w
  | (w, .escape) => some ⟨w.text, w.value ++ ['\\']⟩
  | _ => none

def isBlank (c : Char) : Bool := c = ' ' ∨ c = '\t'

abbrev Reading := Option (Word × Quote)

namespace Reading

/-- A character here may end the word. -/
def bare (r : Reading) : Bool := r.all fun r => r.2 = .bare

def word (r : Reading) : List Word := r.toList.map Prod.fst

def text (r : Reading) : List Char := r.elim [] fun r => r.1.text

def next (r : Reading) (c : Char) : Reading := some (step (r.getD (⟨[], []⟩, .bare)) c)

end Reading

/-- A comment goes to the end of the line. -/
def lex : Reading → List Char → Option (List (List Word))
  | none, [] => some [[]]
  | some r, [] => (finish r).map fun w => [[w]]
  | r, c :: rest =>
    if r.bare ∧ c = '|' then (lex none rest).map (r.word :: ·)
    else if r.bare ∧ isBlank c then (lex none rest).map (·.modifyHead (r.word ++ ·))
    else if r = none ∧ c = '#' then some [[]]
    else lex (r.next c) rest

/-! ## Programs -/

/-- `name=value` -/
def Word.isAssignment (w : Word) : Bool :=
  let isName := fun c : Char => c.isAlphanum || c = '_'
  (w.text.dropWhile isName).head? = some '=' && (w.text.takeWhile isName).head?.any fun c => !c.isDigit

def isBang (w : Word) : Bool := w.text = ['!']

def dropBang : List Word → List Word
  | [] => []
  | w :: ws => if isBang w then ws else w :: ws

/-- Only the first part may begin with `!`, and none is empty; else nothing is run. -/
def pipeline (command : List Char) : List (List Word) :=
  match lex none command with
  | none => []
  | some parts => if (parts.modifyHead dropBang).all fun ws => ws.head?.any fun w => !isBang w then parts else []

def program (ws : List Word) : List Word := (dropBang ws).dropWhile Word.isAssignment

def argv (ws : List Word) : List (List Char) := (program ws).map Word.value

/-! ## Plain words -/

def isQuote (c : Char) : Bool := c = '\\' ∨ c = '\'' ∨ c = '"'

def isPlain (s : List Char) : Bool := s.all fun c => !isQuote c && !isSpace c

def Word.plain (w : Word) : Bool := isPlain w.text

/-- What is written plainly at the beginning of a part. -/
def shown (ws : List Word) : List (List Char) := (ws.takeWhile Word.plain).map Word.text

/-- The word that is being read is not empty, and while it is plain its value is its text. -/
def Sound (r : Reading) : Prop :=
  ∀ w q, r = some (w, q) → w.text ≠ [] ∧ (w.plain = true → w.value = w.text ∧ q = .bare)

theorem text_step (r : Word × Quote) (c : Char) : (step r c).1.text = r.1.text ++ [c] := by
  obtain ⟨w, q⟩ := r
  cases q with
  | bare => simp only [step]; split_ifs <;> rfl
  | escape => rfl
  | single => simp only [step]; split_ifs <;> rfl
  | double => simp only [step]; split_ifs <;> rfl
  | doubleEscape => rfl

theorem text_next (r : Reading) (c : Char) : (r.next c).text = r.text ++ [c] := by
  cases r with
  | none => exact text_step _ c
  | some r => exact text_step r c

theorem isPlain_append (s t : List Char) : isPlain (s ++ t) = (isPlain s && isPlain t) := List.all_append

theorem step_bare {w : Word} {c : Char} (h : isQuote c = false) : step (w, .bare) c = (w.add c [c], .bare) := by
  have hnot := of_decide_eq_false h
  rw [not_or, not_or] at hnot
  rw [step, if_neg hnot.1, if_neg hnot.2.1, if_neg hnot.2.2]

theorem Sound.next {r : Reading} (h : Sound r) (c : Char) : Sound (r.next c) := by
  intro w q he
  have hw : w.text = r.text ++ [c] := by
    have := text_next r c
    rwa [he] at this
  refine ⟨by rw [hw]; exact List.append_ne_nil_of_right_ne_nil _ (List.cons_ne_nil c []), fun hplain => ?_⟩
  rw [Word.plain, hw, isPlain_append, Bool.and_eq_true] at hplain
  obtain ⟨hr, hc⟩ := hplain
  have hquote : isQuote c = false := by
    rw [isPlain, List.all_cons, Bool.and_eq_true, Bool.and_eq_true, Bool.not_eq_true'] at hc
    exact hc.1.1
  cases r with
  | none =>
    rw [Reading.next, Option.getD_none, step_bare hquote] at he
    cases he
    exact ⟨rfl, rfl⟩
  | some r =>
    obtain ⟨v, p⟩ := r
    obtain ⟨hvalue, rfl⟩ := (h v p rfl).2 hr
    rw [Reading.next, Option.getD_some, step_bare hquote] at he
    cases he
    exact ⟨congrArg (· ++ [c]) hvalue, rfl⟩

theorem text_finish {r : Word × Quote} {w : Word} (h : finish r = some w) : w.text = r.1.text := by
  obtain ⟨v, q⟩ := r
  cases q with
  | bare => cases h; rfl
  | escape => cases h; rfl
  | single => cases h
  | double => cases h
  | doubleEscape => cases h

theorem value_finish {r : Word × Quote} (hr : Sound (some r)) {w : Word} (h : finish r = some w)
    (hplain : w.plain = true) : w.value = w.text := by
  obtain ⟨v, q⟩ := r
  rw [Word.plain, text_finish h] at hplain
  obtain ⟨hvalue, rfl⟩ := (hr v q rfl).2 hplain
  cases h
  exact hvalue

theorem Sound.none : Sound none := fun _ _ h => nomatch h

/-! ## Parts and fields -/

theorem lex_ne_nil {text : List Char} : ∀ {r : Reading} {parts : List (List Word)}, lex r text = some parts →
    ∃ ws rest, parts = ws :: rest := by
  induction text with
  | nil =>
    intro r parts h
    cases r with
    | none => cases h; exact ⟨_, _, rfl⟩
    | some r =>
      obtain ⟨v, -, rfl⟩ := Option.map_eq_some_iff.mp h
      exact ⟨_, _, rfl⟩
  | cons c text ih =>
    intro r parts h
    rw [lex] at h
    split_ifs at h
    · obtain ⟨rest, -, rfl⟩ := Option.map_eq_some_iff.mp h
      exact ⟨_, _, rfl⟩
    · obtain ⟨rest, hrest, rfl⟩ := Option.map_eq_some_iff.mp h
      obtain ⟨ws, rest, rfl⟩ := ih hrest
      exact ⟨_, _, rfl⟩
    · cases h; exact ⟨_, _, rfl⟩
    · exact ih h

/-- What is read of a word stands at the beginning of the first word. -/
theorem lex_text {text : List Char} : ∀ {r : Word × Quote} {parts : List (List Word)}, lex (some r) text = some parts →
    ∃ w ws rest, parts = (w :: ws) :: rest ∧ r.1.text <+: w.text := by
  induction text with
  | nil =>
    rintro ⟨w, q⟩ parts h
    obtain ⟨v, hv, rfl⟩ := Option.map_eq_some_iff.mp h
    exact ⟨v, [], [], rfl, text_finish hv ▸ List.prefix_rfl⟩
  | cons c text ih =>
    intro r parts h
    rw [lex] at h
    split_ifs at h with hbar hblank hcomment
    · obtain ⟨rest, -, rfl⟩ := Option.map_eq_some_iff.mp h
      exact ⟨r.1, [], rest, rfl, List.prefix_rfl⟩
    · obtain ⟨parts, hparts, rfl⟩ := Option.map_eq_some_iff.mp h
      obtain ⟨ws, rest, rfl⟩ := lex_ne_nil hparts
      exact ⟨r.1, ws, rest, rfl, List.prefix_rfl⟩
    · exact nomatch hcomment.1
    · obtain ⟨w, ws, rest, rfl, hw⟩ := ih h
      have hstep : r.1.text <+: (step r c).1.text := text_step r c ▸ List.prefix_append ..
      exact ⟨w, ws, rest, rfl, hstep.trans hw⟩

/-- The plain words that a part begins with are the first fields of a text. -/
def Reads (raw : List Char) (ws : List Word) : Prop := shown ws <+: fields raw

theorem notSpace_of_plain {w : Word} (h : w.plain = true) : ∀ c ∈ w.text, isSpace c = false := by
  intro c hc
  have := List.all_eq_true.mp h c hc
  rw [Bool.and_eq_true, Bool.not_eq_true'] at this
  simpa using this.2

theorem reads_nil (raw : List Char) : Reads raw [] := List.nil_prefix

theorem reads_of_not_plain {w : Word} (h : w.plain = false) (raw : List Char) (ws : List Word) : Reads raw (w :: ws) := by
  have hshown : shown (w :: ws) = [] := by
    rw [shown, List.takeWhile_cons_of_neg (by rw [h]; exact Bool.false_ne_true)]
    rfl
  rw [Reads, hshown]
  exact List.nil_prefix

theorem shown_cons {w : Word} (h : w.plain = true) (ws : List Word) : shown (w :: ws) = w.text :: shown ws := by
  rw [shown, List.takeWhile_cons_of_pos h]
  rfl

theorem reads_cons {w : Word} (hne : w.text ≠ []) {c : Char} (hc : isSpace c = true) {raw : List Char} {ws : List Word}
    (h : Reads raw ws) : Reads (w.text ++ c :: raw) (w :: ws) := by
  cases hw : w.plain with
  | false => exact reads_of_not_plain hw ..
  | true =>
    rw [Reads, shown_cons hw, fields_word_append hne (notSpace_of_plain hw) hc]
    exact (List.prefix_cons_inj _).mpr h

theorem reads_singleton {w : Word} (hne : w.text ≠ []) : Reads w.text [w] := by
  cases hw : w.plain with
  | false => exact reads_of_not_plain hw ..
  | true =>
    rw [Reads, shown_cons hw, fields_word hne (notSpace_of_plain hw)]
    exact List.prefix_rfl

/-- A word that ends where the text ends. -/
theorem reads_word {r : Reading} (h : Sound r) : Reads (r.text ++ []) r.word := by
  cases r with
  | none => exact reads_nil _
  | some r =>
    rw [List.append_nil]
    exact reads_singleton (h r.1 r.2 rfl).1

/-- A word that ends before white space. -/
theorem reads_word_append {r : Reading} (h : Sound r) {c : Char} (hc : isSpace c = true) {raw : List Char}
    {ws : List Word} (hws : Reads raw ws) : Reads (r.text ++ c :: raw) (r.word ++ ws) := by
  cases r with
  | none =>
    unfold Reads
    rw [Reading.text, Option.elim_none, List.nil_append, fields_space hc]
    exact hws
  | some r => exact reads_cons (h r.1 r.2 rfl).1 hc hws

theorem isSpace_of_isBlank {c : Char} (h : isBlank c = true) : isSpace c = true := by
  rcases of_decide_eq_true h with rfl | rfl <;> decide

theorem not_plain_mono {s : List Char} {w : Word} (h : isPlain s = false) (hs : s <+: w.text) : w.plain = false := by
  obtain ⟨t, ht⟩ := hs
  rw [Word.plain, ← ht, isPlain_append, h, Bool.false_and]

theorem splitOn_cons_of_ne {c : Char} (hc : c ≠ '|') {text raw : List Char} {raws : List (List Char)}
    (h : text.splitOn '|' = raw :: raws) : (c :: text).splitOn '|' = (c :: raw) :: raws := by
  rw [List.splitOn_cons_eq_if_modifyHead, if_neg (by simpa using hc), h]
  rfl

/-- The parts that are read of a text: each stands where a part of the text as it is begins, the first one after
`before`. -/
def ReadsParts (before text : List Char) (parts : List (List Word)) : Prop :=
  ∃ ws rest raw raws, parts = ws :: rest ∧ text.splitOn '|' = raw :: raws ∧ Reads (before ++ raw) ws ∧
    ∀ ws' ∈ rest, ∃ raw' ∈ raws, Reads raw' ws'

namespace ReadsParts
variable {before text : List Char} {ws : List Word} {parts : List (List Word)} {c : Char}

theorem comment (before text : List Char) : ReadsParts before text [[]] := by
  obtain ⟨raw, raws, hsplit⟩ := List.exists_cons_of_ne_nil (List.splitOn_ne_nil '|' text)
  exact ⟨[], [], raw, raws, rfl, hsplit, reads_nil _, fun _ h => absurd h List.not_mem_nil⟩

theorem ends (h : Reads (before ++ []) ws) : ReadsParts before [] [ws] :=
  ⟨ws, [], [], [], rfl, rfl, h, fun _ h => absurd h List.not_mem_nil⟩

/-- A part that ends at a bar. -/
theorem bar (hws : Reads (before ++ []) ws) (h : ReadsParts [] text parts) :
    ReadsParts before ('|' :: text) (ws :: parts) := by
  obtain ⟨first, rest, raw, raws, rfl, hsplit, hfirst, hrest⟩ := h
  refine ⟨ws, first :: rest, [], raw :: raws, rfl, ?_, hws, ?_⟩
  · rw [List.splitOn_cons_eq_if_modifyHead, if_pos (beq_self_eq_true _), hsplit]
  · refine List.forall_mem_cons.mpr ⟨⟨raw, List.mem_cons_self .., hfirst⟩, fun ws' h' => ?_⟩
    obtain ⟨raw', hraw, hreads⟩ := hrest ws' h'
    exact ⟨raw', List.mem_cons_of_mem _ hraw, hreads⟩

/-- A word that ends before a blank. -/
theorem blank {r : Reading} (hr : Sound r) (hc : isBlank c = true) (h : ReadsParts [] text parts) :
    ReadsParts r.text (c :: text) (parts.modifyHead (r.word ++ ·)) := by
  obtain ⟨first, rest, raw, raws, rfl, hsplit, hfirst, hrest⟩ := h
  have hspace := isSpace_of_isBlank hc
  have hne : c ≠ '|' := by
    rintro rfl
    exact absurd hspace (by decide)
  exact ⟨r.word ++ first, rest, c :: raw, raws, rfl, splitOn_cons_of_ne hne hsplit,
    reads_word_append hr hspace hfirst, hrest⟩

theorem next (hc : c ≠ '|') (h : ReadsParts (before ++ [c]) text parts) : ReadsParts before (c :: text) parts := by
  obtain ⟨first, rest, raw, raws, rfl, hsplit, hfirst, hrest⟩ := h
  rw [List.append_assoc, List.singleton_append] at hfirst
  exact ⟨first, rest, c :: raw, raws, rfl, splitOn_cons_of_ne hc hsplit, hfirst, hrest⟩

/-- A bar inside of a quote: the text as it is ends there, and the word is not plain. -/
theorem quoted {w : Word} (hw : w.plain = false) {rest : List (List Word)} {before' : List Char}
    (h : ReadsParts before' text ((w :: ws) :: rest)) : ReadsParts before ('|' :: text) ((w :: ws) :: rest) := by
  obtain ⟨first, others, raw, raws, he, hsplit, -, hrest⟩ := h
  cases he
  refine ⟨w :: ws, rest, [], raw :: raws, rfl, ?_, reads_of_not_plain hw .., fun ws' h' => ?_⟩
  · rw [List.splitOn_cons_eq_if_modifyHead, if_pos (beq_self_eq_true _), hsplit]
  · obtain ⟨raw', hraw, hreads⟩ := hrest ws' h'
    exact ⟨raw', List.mem_cons_of_mem _ hraw, hreads⟩

end ReadsParts

/-- A bar inside of a word is quoted, so that the word is not plain. -/
theorem not_plain_of_bar {r : Reading} (hr : Sound r) (hbar : ¬(r.bare = true ∧ '|' = '|')) {text : List Char}
    {parts : List (List Word)} (h : lex (r.next '|') text = some parts) :
    ∃ w ws rest, parts = (w :: ws) :: rest ∧ w.plain = false := by
  cases r with
  | none => exact absurd ⟨rfl, rfl⟩ hbar
  | some r =>
    obtain ⟨w, q⟩ := r
    have hplain : isPlain w.text = false := Bool.eq_false_iff.mpr fun hplain =>
      hbar ⟨decide_eq_true ((hr w q rfl).2 hplain).2, rfl⟩
    obtain ⟨v, ws, rest, rfl, hv⟩ := lex_text h
    have hstep : w.text <+: v.text := (text_step (w, q) '|' ▸ List.prefix_append ..).trans hv
    exact ⟨v, ws, rest, rfl, not_plain_mono hplain hstep⟩

/-- A part is read where it begins, also if a part of the text as it is ends inside of a quote. -/
theorem lex_reads {text : List Char} : ∀ {r : Reading} {parts : List (List Word)}, Sound r → lex r text = some parts →
    ReadsParts r.text text parts := by
  induction text with
  | nil =>
    intro r parts hr h
    cases r with
    | none =>
      cases h
      exact .comment ..
    | some r =>
      obtain ⟨w, hw, rfl⟩ := Option.map_eq_some_iff.mp h
      have hne := (hr r.1 r.2 rfl).1
      apply ReadsParts.ends
      rw [List.append_nil, Reading.text, Option.elim_some, ← text_finish hw]
      exact reads_singleton (text_finish hw ▸ hne)
  | cons c text ih =>
    intro r parts hr h
    rw [lex] at h
    split_ifs at h with hbar hblank hcomment
    · obtain ⟨parts, hparts, rfl⟩ := Option.map_eq_some_iff.mp h
      obtain ⟨-, rfl⟩ := hbar
      exact .bar (reads_word hr) (ih Sound.none hparts)
    · obtain ⟨parts, hparts, rfl⟩ := Option.map_eq_some_iff.mp h
      exact .blank hr hblank.2 (ih Sound.none hparts)
    · cases h
      exact .comment ..
    · have hnext := ih (hr.next c) h
      rw [text_next] at hnext
      by_cases hc : c = '|'
      · subst hc
        obtain ⟨w, ws, rest, rfl, hw⟩ := not_plain_of_bar hr hbar h
        exact hnext.quoted hw
      · exact .next hc hnext

/-- A plain word is what it says. -/
theorem lex_value {text : List Char} : ∀ {r : Reading} {parts : List (List Word)}, Sound r → lex r text = some parts →
    ∀ ws ∈ parts, ∀ w ∈ ws, w.plain = true → w.value = w.text := by
  have hword : ∀ {r : Reading}, Sound r → ∀ w ∈ r.word, w.plain = true → w.value = w.text := by
    intro r hr w hw hplain
    cases r with
    | none => exact absurd hw List.not_mem_nil
    | some r =>
      obtain rfl := List.mem_singleton.mp hw
      exact ((hr r.1 r.2 rfl).2 hplain).1
  induction text with
  | nil =>
    intro r parts hr h
    cases r with
    | none =>
      cases h
      exact List.forall_mem_singleton.mpr fun _ h => absurd h List.not_mem_nil
    | some r =>
      obtain ⟨w, hw, rfl⟩ := Option.map_eq_some_iff.mp h
      exact List.forall_mem_singleton.mpr (List.forall_mem_singleton.mpr (value_finish hr hw))
  | cons c text ih =>
    intro r parts hr h
    rw [lex] at h
    split_ifs at h
    · obtain ⟨parts, hparts, rfl⟩ := Option.map_eq_some_iff.mp h
      exact List.forall_mem_cons.mpr ⟨hword hr, ih Sound.none hparts⟩
    · obtain ⟨parts, hparts, rfl⟩ := Option.map_eq_some_iff.mp h
      obtain ⟨ws, rest, rfl⟩ := lex_ne_nil hparts
      obtain ⟨hws, hrest⟩ := List.forall_mem_cons.mp (ih Sound.none hparts)
      exact List.forall_mem_cons.mpr ⟨List.forall_mem_append.mpr ⟨hword hr, hws⟩, hrest⟩
    · cases h
      exact List.forall_mem_singleton.mpr fun _ h => absurd h List.not_mem_nil
    · exact ih (hr.next c) h

/-! ## Pipelines -/

theorem lex_of_mem_pipeline {command : List Char} {ws : List Word} (h : ws ∈ pipeline command) :
    ∃ parts, lex none command = some parts ∧ ws ∈ parts := by
  unfold pipeline at h
  split at h
  · cases h
  · next parts hlex =>
    split at h
    · exact ⟨parts, hlex, h⟩
    · cases h

/-- **The plain words that a part of a pipeline begins with are the first fields of a part of its text.** -/
theorem fields_of_pipeline {command : List Char} {ws : List Word} (h : ws ∈ pipeline command) :
    ∃ raw ∈ command.splitOn '|', shown ws <+: fields raw := by
  obtain ⟨parts, hlex, hmem⟩ := lex_of_mem_pipeline h
  obtain ⟨first, rest, raw, raws, rfl, hsplit, hfirst, hrest⟩ := lex_reads Sound.none hlex
  rw [hsplit]
  obtain rfl | hmem := List.mem_cons.mp hmem
  · exact ⟨raw, List.mem_cons_self .., hfirst⟩
  · obtain ⟨raw', hraw, hreads⟩ := hrest ws hmem
    exact ⟨raw', List.mem_cons_of_mem _ hraw, hreads⟩

/-- A plain word of a part is what it says. -/
theorem value_of_plain {command : List Char} {ws : List Word} (h : ws ∈ pipeline command) :
    ∀ w ∈ ws, w.plain = true → w.value = w.text := by
  obtain ⟨parts, hlex, hmem⟩ := lex_of_mem_pipeline h
  exact lex_value Sound.none hlex ws hmem

end Shell
