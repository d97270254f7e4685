import Mathlib.Data.Bool.AllAny
import OciHelper.Lib.Words

/-!
# Connection strings of consoles

* `parseConsoleConnectionString`, `parseOuterTarget` : the proxy and the target of an `ssh` command;
* `Opt`, `Command`, `Dest` : the commands as `ssh` reads them, up to the destination, and the destinations;
* `Right` : the parser finds what the command says;
* `Consumed` : words that are options and their arguments in the parser's own table of options;
* `Clean`, `right_iff` : the commands that are parsed right with every destination.
-/

namespace OciHelper.Instances.Console
open Text Words

structure ConsoleProxyInfo where
  proxyHost : List Char
  proxyPort : Int
  proxyUser : List Char
  targetHost : List Char
  targetPort : Int
  deriving DecidableEq, Repr

inductive ParseError
  | noProxyCommand
  | noAt
  | noProxyHostOrUser (proxyCmd : List Char)
  deriving DecidableEq, Repr

def proxyCommand : List Char := "ProxyCommand=".toList

def localhost : List Char := "localhost".toList

/-- A blank or a quote. -/
def isDelim (c : Char) : Bool := c = ' ' ∨ c = '\'' ∨ c = '"'

/-- What stands after the last `@`. -/
def hostPart (f : List Char) : List Char := (f.reverse.takeWhile (· ≠ '@')).reverse

/-- The options besides `-p` that are known to take an argument. -/
def outerOptions : List (List Char) := ["-i", "-o", "-l", "-F", "-J", "-W"].map String.toList

def portOption : List Char := "-p".toList

/-- The port that an argument of `-p` sets. -/
def setPort (port : Int) (arg : List Char) : Int :=
  match parseInt arg with
  | some p => if p > 0 then p else port
  | none => port

/-- The loop over the fields. -/
def scanTarget (port : Int) : List (List Char) → List Char × Int
  | [] => ([], port)
  | f :: fs =>
    if f = portOption then
      match fs with
      | [] => ([], port)
      | arg :: rest => scanTarget (setPort port arg) rest
    else if f ∈ outerOptions then
      match fs with
      | [] => ([], port)
      | _ :: rest => scanTarget port rest
    else if f.head? = some '-' then scanTarget port fs
    else if hostPart f = [] then scanTarget port fs
    else (hostPart f, port)

/-- The text after a quoted value; an unfinished one is kept. -/
def skipQuoted (rest : List Char) : List Char :=
  match rest with
  | q :: tail =>
    if q = '\'' ∨ q = '"' then
      match tail.dropWhile (· ≠ q) with
      | [] => rest
      | _ :: after => after
    else rest
  | [] => rest

/-- Of the command only the text from `ProxyCommand=` on is used. -/
def parseOuterTarget (proxyCmd : List Char) : List Char × Int :=
  scanTarget 22 (fields (skipQuoted (proxyCmd.drop proxyCommand.length)))

/-- The number after the first `-p `, up to a blank or a quote. -/
def findPort (proxyCmd : List Char) : Int :=
  match from? (portOption ++ [' ']) proxyCmd with
  | none => 443
  | some found =>
    let rest := found.drop (portOption ++ [' ']).length
    if rest.all (fun c => ¬ isDelim c) then 443
    else (parseInt (rest.takeWhile fun c => ¬ isDelim c)).getD 443

def parseConsoleConnectionString (s : List Char) : Except ParseError ConsoleProxyInfo :=
  match from? proxyCommand s with
  | none => .error .noProxyCommand
  | some proxyCmd =>
    match proxyCmd.dropWhile (· ≠ '@') with
    | [] => .error .noAt
    | _ :: afterAt =>
      let beforeAt := proxyCmd.takeWhile (· ≠ '@')
      let proxyUser := trimSpace (beforeAt.reverse.takeWhile fun c => ¬ isDelim c).reverse
      let proxyHost := trimSpace (afterAt.takeWhile fun c => ¬ isDelim c)
      if proxyHost = [] ∨ proxyUser = [] then .error (.noProxyHostOrUser proxyCmd)
      else
        let outer := parseOuterTarget proxyCmd
        let target := if outer.1 ≠ [] then outer else (localhost, 22)
        .ok { proxyHost, proxyPort := findPort proxyCmd, proxyUser, targetHost := target.1, targetPort := target.2 }

/-! ## Commands -/

/-- A word without white space and quotes. -/
abbrev Plain := {w : List Char // w ≠ [] ∧ ∀ c ∈ w, isSpace c = false ∧ c ≠ '\'' ∧ c ≠ '"'}

/-- The letters of the options of `ssh` that take an argument. -/
def argLetters : List Char := "BbcDEeFIiJLlmOoPpQRSWw".toList

/-- The first letter of an option that takes an argument, and what stands after it. -/
def argOf (w : List Char) : List Char := (w.drop 1).dropWhile (· ∉ argLetters)

/-- An option, perhaps with others in one word, and with its argument as far as it is in the same word. -/
def IsOption (w : List Char) : Prop := ∃ c letters, w = '-' :: c :: letters ∧ c ≠ '-'

/-- A TCP port. -/
abbrev Port := {n : Nat // 0 < n ∧ n < 65536}

/-- An option after the value; a port is given in the form `-p PORT` only. -/
inductive Opt
  | flag (w : Plain) (option : IsOption w.1) (alone : argOf w.1 = [] ∨ (argOf w.1).head? ≠ some 'p' ∧ (argOf w.1).length ≠ 1)
  | value (w v : Plain) (option : IsOption w.1) (takes : (argOf w.1).length = 1) (other : argOf w.1 ≠ ['p'])
  | port (n : Port)

def Opt.words : Opt → List (List Char)
  | .flag w _ _ => [w.1]
  | .value w v _ _ _ => [w.1, v.1]
  | .port n => [portOption, decimal n.1]

def Opt.port? : Opt → Option Port
  | .port n => some n
  | _ => none

/-- A command up to its destination. -/
structure Command where
  before : List Plain
  doubled : Bool
  port : Option Port
  user : Plain
  host : Plain
  after : List Opt
  -- a word that begins with a dash is an option
  user_option : user.1.head? ≠ some '-'
  onePort : (after.filterMap Opt.port?).length ≤ 1

structure Dest where
  ouser : Option Plain
  target : Plain
  option : (ouser.getD target).1.head? ≠ some '-'

def Dest.word (d : Dest) : List Char :=
  match d.ouser with
  | none => d.target.1
  | some ouser => ouser.1 ++ '@' :: d.target.1

namespace Command
variable (c : Command)

def quote : Char := if c.doubled then '"' else '\''

def portWords : List (List Char) :=
  match c.port with
  | none => []
  | some n => [portOption, decimal n.1]

/-- The command of the proxy without its quotes. -/
def proxy : List Char := spaced (["ssh", "-W", "%h:%p"].map String.toList ++ c.portWords) ++ (c.user.1 ++ '@' :: c.host.1)

def afterWords : List (List Char) := c.after.flatMap Opt.words

/-- The text from `ProxyCommand=` on. -/
def value (d : Dest) : List Char :=
  proxyCommand ++ c.quote :: (c.proxy ++ c.quote :: ' ' :: (spaced c.afterWords ++ d.word))

def text (d : Dest) : List Char :=
  spaced ("ssh".toList :: (c.before.map Subtype.val ++ ["-o".toList])) ++ c.value d

/-- The port of the target. -/
def oport : Option Port := (c.after.filterMap Opt.port?).head?

/-- What the command says. -/
def info (d : Dest) : ConsoleProxyInfo where
  proxyHost := c.host.1
  proxyPort := (c.port.map fun n => (n.1 : Int)).getD 443
  proxyUser := c.user.1
  targetHost := d.target.1
  targetPort := (c.oport.map fun n => (n.1 : Int)).getD 22

def Right (d : Dest) : Prop := parseConsoleConnectionString (c.text d) = .ok (c.info d)

end Command

/-! ## The condition -/

/-- An option that the parser knows to take an argument. -/
def Valued (f : List Char) : Prop := f = portOption ∨ f ∈ outerOptions

/-- The parser takes the word for no option and no destination, or for an option without an argument. -/
def Skipped (f : List Char) : Prop := ¬ Valued f ∧ (f.head? = some '-' ∨ hostPart f = [])

/-- In the parser's table of options the words are options and their arguments. -/
inductive Consumed : List (List Char) → Prop
  | nil : Consumed []
  | valued {f arg rest} (h : Valued f) (hrest : Consumed rest) : Consumed (f :: arg :: rest)
  | skipped {f rest} (h : Skipped f) (hrest : Consumed rest) : Consumed (f :: rest)

/-- The word after the first one that ends in `-p`. -/
def afterPort (ws : List (List Char)) : Option (List Char) := (ws.dropWhile fun w => ¬ portOption <:+ w)[1]?

structure Clean (c : Command) : Prop where
  once : ∀ w ∈ c.before, ¬ proxyCommand <:+: w.1
  user : '@' ∉ c.user.1
  port : c.port = none → ∀ w, afterPort c.afterWords = some w → ∀ n, parseInt w = some n → n = 443
  options : Consumed c.afterWords

/-! ## The parts of a command -/

theorem Plain.isWord (w : Plain) : IsWord w.1 := ⟨w.2.1, fun c hc => (w.2.2 c hc).1⟩

theorem isWord_decimal (n : Nat) : IsWord (decimal n) := by
  obtain ⟨c, cs, heq, -⟩ := decimal_head n
  refine ⟨by rw [heq]; exact List.cons_ne_nil c cs, fun c hc => ?_⟩
  rw [decimal_natCast] at hc
  exact isSpace_of_isDigit (Nat.isDigit_of_mem_toDigits (by omega) (by omega) hc)

theorem isWord_portOption : IsWord portOption := by decide

theorem not_isDelim_of_plain {w : Plain} {c : Char} (hc : c ∈ w.1) : isDelim c = false := by
  obtain ⟨hspace, hsingle, hdouble⟩ := w.2.2 c hc
  have hblank : c ≠ ' ' := by
    rintro rfl
    exact absurd hspace (by decide)
  simp [isDelim, hblank, hsingle, hdouble]

theorem isDelim_of_mem_portOption : ∀ x ∈ portOption, isDelim x = false :=
  List.all_iff_forall_prop.mp (by decide)

theorem isDelim_of_mem_decimal (n : Nat) : ∀ x ∈ decimal n, isDelim x = false := by
  intro x hx
  rw [decimal_natCast] at hx
  have hdigit := Nat.isDigit_of_mem_toDigits (by omega) (by omega) hx
  have hne : ∀ y : Char, y.isDigit = false → x ≠ y := by
    rintro y hy rfl
    rw [hdigit] at hy
    cases hy
  simp [isDelim, hne ' ' rfl, hne '\'' rfl, hne '"' rfl]

namespace Command
variable (c : Command) {P : List Char → Prop}

theorem forall_mem_portWords (hoption : P portOption) (hdecimal : ∀ n : Nat, P (decimal n)) : ∀ w ∈ c.portWords, P w := by
  unfold portWords
  cases c.port with
  | none => simp
  | some n => simpa using ⟨hoption, hdecimal n.1⟩

theorem forall_mem_afterWords (hplain : ∀ w : Plain, P w.1) (hoption : P portOption) (hdecimal : ∀ n : Nat, P (decimal n)) :
    ∀ w ∈ c.afterWords, P w := by
  have hall : ∀ o : Opt, ∀ w ∈ o.words, P w := by
    intro o
    cases o with
    | flag w _ _ => simpa [Opt.words] using hplain w
    | value w v _ _ _ => simpa [Opt.words] using ⟨hplain w, hplain v⟩
    | port n => simpa [Opt.words] using ⟨hoption, hdecimal n.1⟩
  intro w hw
  obtain ⟨o, -, hmem⟩ := List.mem_flatMap.mp hw
  exact hall o w hmem

theorem isWord_afterWords : ∀ w ∈ c.afterWords, IsWord w :=
  c.forall_mem_afterWords Plain.isWord isWord_portOption isWord_decimal

theorem isDelim_of_mem_afterWords : ∀ w ∈ c.afterWords, ∀ x ∈ w, isDelim x = false :=
  c.forall_mem_afterWords (fun _ _ hx => not_isDelim_of_plain hx) isDelim_of_mem_portOption isDelim_of_mem_decimal

end Command

theorem Dest.isWord_word (d : Dest) : IsWord d.word := by
  unfold Dest.word
  cases d.ouser with
  | none => exact d.target.isWord
  | some ouser =>
    refine ⟨by simp, fun c hc => ?_⟩
    rcases List.mem_append.mp hc with hc | hc
    · exact ouser.isWord.2 c hc
    · rcases List.mem_cons.mp hc with rfl | hc
      · decide
      · exact d.target.isWord.2 c hc

theorem takeWhile_of_notMem {f : List Char} (h : '@' ∉ f) : f.takeWhile (· ≠ '@') = f :=
  List.takeWhile_eq_self_iff.mpr fun _ hc => decide_eq_true fun e => h (e ▸ hc)

/-- What is read up to a delimiter. -/
theorem takeWhile_of_not_isDelim {u : List Char} (h : ∀ x ∈ u, isDelim x = false) (t : List Char) :
    (u ++ t).takeWhile (fun x => ¬ isDelim x) = u ++ t.takeWhile fun x => ¬ isDelim x :=
  List.takeWhile_append_of_pos fun x hx => by simp [h x hx]

theorem hostPart_of_notMem {f : List Char} (h : '@' ∉ f) : hostPart f = f := by
  have hrev : '@' ∉ f.reverse := fun hmem => h (List.mem_reverse.mp hmem)
  rw [hostPart, takeWhile_of_notMem hrev, List.reverse_reverse]

theorem hostPart_append {f : List Char} (h : '@' ∉ f) (u : List Char) : hostPart (u ++ '@' :: f) = f := by
  have hall : ∀ c ∈ f.reverse, decide (c ≠ '@') = true :=
    fun c hc => decide_eq_true fun e => h (e ▸ List.mem_reverse.mp hc)
  unfold hostPart
  rw [List.reverse_append, List.reverse_cons, List.append_assoc, List.takeWhile_append_of_pos hall]
  simp

theorem notMem_hostPart (f : List Char) : '@' ∉ hostPart f := by
  intro h
  have := List.mem_takeWhile_imp (List.mem_reverse.mp h)
  simp at this

theorem Dest.hostPart_word {d : Dest} (h : '@' ∉ d.target.1) : hostPart d.word = d.target.1 := by
  unfold Dest.word
  cases d.ouser with
  | none => exact hostPart_of_notMem h
  | some ouser => exact hostPart_append h ouser.1

theorem Dest.head?_word (d : Dest) : d.word.head? ≠ some '-' := by
  have hoption := d.option
  unfold Dest.word
  cases hou : d.ouser with
  | none => simpa [hou] using hoption
  | some ouser =>
    obtain ⟨c, cs, hcs⟩ := List.exists_cons_of_ne_nil ouser.2.1
    rw [hou] at hoption
    simpa [hcs] using hoption

/-! ## The text of a command -/

namespace Command
variable (c : Command) (d : Dest)

def firstWord : List Char := proxyCommand ++ c.quote :: "ssh".toList

/-- The proxy with the closing quote. -/
def proxyWord : List Char := c.user.1 ++ '@' :: (c.host.1 ++ [c.quote])

/-- The words before the proxy. -/
def frontWords : List (List Char) := c.firstWord :: (["-W", "%h:%p"].map String.toList ++ c.portWords)

theorem value_eq : c.value d = spaced (c.frontWords ++ c.proxyWord :: c.afterWords) ++ d.word := by
  simp [value, proxy, frontWords, firstWord, proxyWord, spaced]

theorem quote_cases : c.quote = '\'' ∨ c.quote = '"' := by
  unfold quote
  cases c.doubled
  · exact .inl rfl
  · exact .inr rfl

theorem isSpace_quote : isSpace c.quote = false := by
  rcases c.quote_cases with h | h <;> rw [h] <;> decide

theorem isDelim_quote : isDelim c.quote = true := by
  rcases c.quote_cases with h | h <;> rw [h] <;> decide

theorem isWord_frontWords : ∀ w ∈ c.frontWords, IsWord w := by
  have hfirst : IsWord c.firstWord := by
    refine ⟨List.append_ne_nil_of_right_ne_nil _ (List.cons_ne_nil _ _), fun x hx => ?_⟩
    rcases List.mem_append.mp hx with hx | hx
    · have hcommand : IsWord proxyCommand := by decide
      exact hcommand.2 x hx
    · rcases List.mem_cons.mp hx with rfl | hx
      · exact c.isSpace_quote
      · have hssh : IsWord "ssh".toList := by decide
        exact hssh.2 x hx
  have hmid : ∀ w ∈ ["-W", "%h:%p"].map String.toList, IsWord w := by decide
  intro w hw
  rcases List.mem_cons.mp hw with rfl | hw
  · exact hfirst
  · rcases List.mem_append.mp hw with hw | hw
    · exact hmid w hw
    · exact c.forall_mem_portWords isWord_portOption isWord_decimal w hw

theorem isWord_proxyWord : IsWord c.proxyWord := by
  refine ⟨by simp [proxyWord], fun x hx => ?_⟩
  simp only [proxyWord, List.mem_append, List.mem_cons, List.not_mem_nil, or_false] at hx
  rcases hx with hx | rfl | hx | rfl
  · exact c.user.isWord.2 x hx
  · decide
  · exact c.host.isWord.2 x hx
  · exact c.isSpace_quote

theorem from?_text (h : ∀ w ∈ c.before, ¬ proxyCommand <:+: w.1) :
    from? proxyCommand (c.text d) = some (c.value d) := by
  have hwords : ∀ w ∈ "ssh".toList :: (c.before.map Subtype.val ++ ["-o".toList]), ¬ proxyCommand <:+: w := by
    intro w hw
    simp only [List.mem_cons, List.mem_append, List.mem_map, List.not_mem_nil, or_false] at hw
    rcases hw with rfl | ⟨w, hw, rfl⟩ | rfl
    · decide
    · exact h w hw
    · decide
  rw [text, from?_spaced (by decide) hwords]
  exact from?_of_prefix (by decide) (List.prefix_append ..)

/-! ### The proxy -/

theorem notMem_at_frontWords : ∀ w ∈ c.frontWords, '@' ∉ w := by
  have hquote : '@' ≠ c.quote := by
    rcases c.quote_cases with h | h <;> rw [h] <;> decide
  have hcommand : '@' ∉ proxyCommand := by decide
  have hmid : ∀ w ∈ ["-W", "%h:%p"].map String.toList, '@' ∉ w := by decide
  have hport : ∀ w ∈ c.portWords, '@' ∉ w :=
    c.forall_mem_portWords (by decide) fun n => notMem_decimal (by decide) (by decide) n
  intro w hw
  rcases List.mem_cons.mp hw with rfl | hw
  · unfold firstWord
    rw [List.mem_append, List.mem_cons]
    rintro (h | h | h)
    · exact hcommand h
    · exact hquote h
    · exact absurd h (by decide)
  · rcases List.mem_append.mp hw with hw | hw
    · exact hmid w hw
    · exact hport w hw

theorem frontWords_concat : ∃ ws w, c.frontWords = ws ++ [w] :=
  ⟨_, _, (List.dropLast_concat_getLast (List.cons_ne_nil _ _)).symm⟩

theorem takeWhile_at (u rest : List Char) : (u ++ '@' :: rest).takeWhile (· ≠ '@') = u.takeWhile (· ≠ '@') := by
  induction u with
  | nil => rfl
  | cons x u ih =>
    by_cases hx : x = '@'
    · simp [hx]
    · simp [hx] at ih ⊢
      exact ih

theorem beforeAt_value : (c.value d).takeWhile (· ≠ '@') = spaced c.frontWords ++ c.user.1.takeWhile (· ≠ '@') := by
  have hall : ∀ x ∈ spaced c.frontWords, decide (x ≠ '@') = true := by
    intro x hx
    obtain ⟨w, hw, hx⟩ := List.mem_flatMap.mp hx
    apply decide_eq_true
    rintro rfl
    rcases List.mem_append.mp hx with hx | hx
    · exact c.notMem_at_frontWords w hw hx
    · exact absurd hx (by decide)
  rw [value_eq, spaced_append, List.append_assoc, List.takeWhile_append_of_pos hall, spaced_cons]
  simp only [proxyWord, List.append_assoc, List.cons_append]
  rw [takeWhile_at]

/-- The text after the last blank, if there is no quote in it. -/
theorem afterBlank {u : List Char} (hu : ∀ x ∈ u, isDelim x = false) (a : List Char) :
    ((a ++ ' ' :: u).reverse.takeWhile fun x => ¬ isDelim x).reverse = u := by
  have hrev : ∀ x ∈ u.reverse, isDelim x = false := fun x hx => hu x (List.mem_reverse.mp hx)
  rw [List.reverse_append, List.reverse_cons, List.append_assoc, takeWhile_of_not_isDelim hrev]
  simp [isDelim]

theorem proxyUser_value :
    trimSpace (((c.value d).takeWhile (· ≠ '@')).reverse.takeWhile fun x => ¬ isDelim x).reverse =
      c.user.1.takeWhile (· ≠ '@') := by
  obtain ⟨ws, w, hws⟩ := c.frontWords_concat
  have hmem : ∀ x ∈ c.user.1.takeWhile (· ≠ '@'), x ∈ c.user.1 := fun x hx => (List.takeWhile_sublist _).subset hx
  have hspace : ∀ x ∈ c.user.1.takeWhile (· ≠ '@'), isSpace x = false := fun x hx => c.user.isWord.2 x (hmem x hx)
  have hdelim : ∀ x ∈ c.user.1.takeWhile (· ≠ '@'), isDelim x = false := fun x hx => not_isDelim_of_plain (hmem x hx)
  have hblank : spaced c.frontWords = spaced ws ++ w ++ [' '] := by
    simp [hws]
  rw [beforeAt_value, hblank, List.append_assoc _ [' '], List.singleton_append, afterBlank hdelim, trimSpace_eq_self hspace]

theorem afterAt_value (h : '@' ∉ c.user.1) :
    (c.value d).dropWhile (· ≠ '@') = '@' :: (c.host.1 ++ c.quote :: ' ' :: (spaced c.afterWords ++ d.word)) := by
  have htake := takeWhile_of_notMem h
  have hsplit := List.takeWhile_append_dropWhile (p := (· ≠ '@')) (l := c.value d)
  rw [beforeAt_value, htake] at hsplit
  refine @List.append_cancel_left _ (spaced c.frontWords ++ c.user.1) _ _ ?_
  rw [hsplit, value_eq]
  simp [proxyWord]

theorem proxyHost_value (rest : List Char) :
    trimSpace ((c.host.1 ++ c.quote :: rest).takeWhile fun x => ¬ isDelim x) = c.host.1 := by
  rw [takeWhile_of_not_isDelim fun x hx => not_isDelim_of_plain hx,
    List.takeWhile_cons_of_neg (by simp [c.isDelim_quote]), List.append_nil]
  exact trimSpace_eq_self c.host.isWord.2

/-! ### The port of the proxy -/

theorem not_suffix_firstWord : ¬ portOption <:+ c.firstWord := by
  rintro ⟨pre, hpre⟩
  have h := congrArg List.getLast? hpre
  simp [firstWord, portOption] at h

theorem not_suffix_proxyWord : ¬ portOption <:+ c.proxyWord := by
  rintro ⟨pre, hpre⟩
  have h := congrArg List.getLast? hpre
  have hword : c.proxyWord = (c.user.1 ++ '@' :: c.host.1) ++ [c.quote] := by
    simp [proxyWord]
  rw [hword, List.getLast?_concat, show pre ++ portOption = (pre ++ ['-']) ++ ['p'] by simp [portOption],
    List.getLast?_concat] at h
  rcases c.quote_cases with hq | hq <;> rw [hq] at h <;> exact absurd h (by decide)

theorem not_suffix_leading : ∀ w ∈ c.firstWord :: ["-W", "%h:%p"].map String.toList, ¬ portOption <:+ w := by
  have hmid : ∀ w ∈ ["-W", "%h:%p"].map String.toList, ¬ portOption <:+ w := by decide
  exact List.forall_mem_cons.mpr ⟨c.not_suffix_firstWord, hmid⟩

/-- The text of a number that ends at a blank. -/
theorem findPort_of_word {s w t : List Char} (hplain : ∀ x ∈ w, isDelim x = false)
    (h : from? (portOption ++ [' ']) s = some (portOption ++ ' ' :: (w ++ ' ' :: t))) :
    findPort s = (parseInt w).getD 443 := by
  have hdrop : (portOption ++ ' ' :: (w ++ ' ' :: t)).drop (portOption ++ [' ']).length = w ++ ' ' :: t := rfl
  have htake : (w ++ ' ' :: t).takeWhile (fun x => ¬ isDelim x) = w := by
    rw [takeWhile_of_not_isDelim hplain]
    simp [isDelim]
  have hnot : ¬ (w ++ ' ' :: t).all (fun x => ¬ isDelim x) = true := by
    simp [isDelim]
  unfold findPort
  rw [h]
  dsimp only
  rw [hdrop, if_neg hnot, htake]

theorem parseInt_port (n : Port) : parseInt (decimal n.1) = some (n.1 : Int) := by
  have := n.2
  unfold parseInt
  rw [number?_decimal]
  dsimp only
  rw [if_pos (by omega)]

theorem notMem_blank_words : ∀ w ∈ c.frontWords ++ c.proxyWord :: c.afterWords, ' ' ∉ w := by
  intro w hw
  rcases List.mem_append.mp hw with hw | hw
  · exact (c.isWord_frontWords w hw).notMem_blank
  · rcases List.mem_cons.mp hw with rfl | hw
    · exact c.isWord_proxyWord.notMem_blank
    · exact (c.isWord_afterWords w hw).notMem_blank

theorem findPort_some {n : Port} (h : c.port = some n) : findPort (c.value d) = n.1 := by
  have hfront : (c.frontWords ++ c.proxyWord :: c.afterWords).dropWhile (fun w => ¬ portOption <:+ w) =
      portOption :: decimal n.1 :: c.proxyWord :: c.afterWords := by
    have heq : c.frontWords ++ c.proxyWord :: c.afterWords =
        (c.firstWord :: ["-W", "%h:%p"].map String.toList) ++
          (portOption :: decimal n.1 :: c.proxyWord :: c.afterWords) := by
      simp [frontWords, portWords, h]
    rw [heq, List.dropWhile_append_of_pos fun w hw => decide_eq_true (c.not_suffix_leading w hw)]
    simp
  have hfound : from? (portOption ++ [' ']) (c.value d) =
      some (portOption ++ ' ' :: (decimal n.1 ++ ' ' :: (spaced (c.proxyWord :: c.afterWords) ++ d.word))) := by
    rw [value_eq, from?_spaced_blank (by decide) c.notMem_blank_words, hfront]
    simp
  rw [findPort_of_word (isDelim_of_mem_decimal n.1) hfound, parseInt_port]
  rfl

theorem isDelim_of_mem_word : ∀ x ∈ d.word, isDelim x = false := by
  unfold Dest.word
  cases d.ouser with
  | none => exact fun x hx => not_isDelim_of_plain hx
  | some ouser =>
    intro x hx
    rcases List.mem_append.mp hx with hx | hx
    · exact not_isDelim_of_plain hx
    · rcases List.mem_cons.mp hx with rfl | hx
      · decide
      · exact not_isDelim_of_plain hx

theorem findPort_none (h : c.port = none) :
    findPort (c.value d) = ((afterPort c.afterWords).bind parseInt).getD 443 := by
  have hfront : ∀ w ∈ c.frontWords ++ [c.proxyWord], decide (¬ portOption <:+ w) = true := by
    intro w hw
    apply decide_eq_true
    have hports : c.portWords = [] := by
      simp [portWords, h]
    rw [frontWords, hports, List.append_nil] at hw
    rcases List.mem_append.mp hw with hw | hw
    · exact c.not_suffix_leading w hw
    · obtain rfl := List.mem_singleton.mp hw
      exact c.not_suffix_proxyWord
  have hdrop : (c.frontWords ++ c.proxyWord :: c.afterWords).dropWhile (fun w => ¬ portOption <:+ w) =
      c.afterWords.dropWhile fun w => ¬ portOption <:+ w := by
    rw [List.append_cons, List.dropWhile_append_of_pos hfront]
  have hnone : from? (portOption ++ [' ']) d.word = none :=
    @from?_of_notMem ' ' _ _ (by simp) d.isWord_word.notMem_blank
  have hfrom := @from?_spaced_blank portOption (by decide) _ c.notMem_blank_words d.word
  rw [← value_eq, hdrop] at hfrom
  unfold afterPort
  cases hrest : c.afterWords.dropWhile (fun w => ¬ portOption <:+ w) with
  | nil =>
    rw [hrest, hnone] at hfrom
    unfold findPort
    rw [hfrom]
    rfl
  | cons w rest =>
    rw [hrest] at hfrom
    cases rest with
    | nil =>
      -- the destination is the last word, with no blank after it
      have hall : d.word.all (fun x => ¬ isDelim x) = true := by
        simpa using isDelim_of_mem_word d
      unfold findPort
      rw [hfrom]
      exact if_pos hall
    | cons w' rest =>
      have hmem : w' ∈ c.afterWords := by
        apply (List.dropWhile_sublist (fun w => decide (¬ portOption <:+ w))).subset
        rw [hrest]
        simp
      have hword := c.isDelim_of_mem_afterWords w' hmem
      dsimp only at hfrom
      rw [spaced_cons, List.append_assoc, List.cons_append] at hfrom
      exact findPort_of_word hword hfrom

/-! ### The target -/

theorem skipQuoted_quoted {q : Char} (hq : q = '\'' ∨ q = '"') {a : List Char} (ha : q ∉ a) (t : List Char) :
    skipQuoted (q :: (a ++ q :: t)) = t := by
  have hall : ∀ x ∈ a, decide (x ≠ q) = true := fun x hx => decide_eq_true fun e => ha (e ▸ hx)
  unfold skipQuoted
  simp only [if_pos hq]
  rw [List.dropWhile_append_of_pos hall]
  simp

theorem notMem_proxy : c.quote ∉ c.proxy := by
  have hplain : ∀ w : List Char, (∀ x ∈ w, isDelim x = false) → c.quote ∉ w := by
    intro w hw hmem
    have := hw _ hmem
    rw [c.isDelim_quote] at this
    cases this
  have hblank : c.quote ≠ ' ' := fun h => by
    have := c.isSpace_quote
    rw [h] at this
    exact absurd this (by decide)
  have hmid : ∀ w ∈ ["ssh", "-W", "%h:%p"].map String.toList, ∀ x ∈ w, isDelim x = false := by
    have hall : ∀ w ∈ ["ssh", "-W", "%h:%p"].map String.toList, w.all (! isDelim ·) = true := by decide
    exact fun w hw => by simpa using hall w hw
  have hport : ∀ w ∈ c.portWords, ∀ x ∈ w, isDelim x = false :=
    c.forall_mem_portWords isDelim_of_mem_portOption isDelim_of_mem_decimal
  intro hmem
  rcases List.mem_append.mp hmem with hmem | hmem
  · obtain ⟨w, hw, hmem⟩ := List.mem_flatMap.mp hmem
    rcases List.mem_append.mp hmem with hmem | hmem
    · rcases List.mem_append.mp hw with hw | hw
      · exact hplain w (hmid w hw) hmem
      · exact hplain w (hport w hw) hmem
    · exact hblank (List.mem_singleton.mp hmem)
  · rcases List.mem_append.mp hmem with hmem | hmem
    · exact hplain c.user.1 (fun x hx => not_isDelim_of_plain hx) hmem
    · rcases List.mem_cons.mp hmem with hmem | hmem
      · have := c.isDelim_quote
        rw [hmem] at this
        exact absurd this (by decide)
      · exact hplain c.host.1 (fun x hx => not_isDelim_of_plain hx) hmem

theorem skipQuoted_value : skipQuoted ((c.value d).drop proxyCommand.length) = ' ' :: (spaced c.afterWords ++ d.word) := by
  rw [value, List.drop_left]
  exact skipQuoted_quoted c.quote_cases c.notMem_proxy _

theorem parseOuterTarget_value : parseOuterTarget (c.value d) = scanTarget 22 (c.afterWords ++ [d.word]) := by
  unfold parseOuterTarget
  rw [skipQuoted_value, fields_space (by decide), fields_spaced c.isWord_afterWords, fields_word d.isWord_word.1 d.isWord_word.2]

end Command

/-! ## Reading the options -/

section Scan
variable {p : Int} {f arg : List Char} {rest ws : List (List Char)}

theorem portOption_notMem : portOption ∉ outerOptions := by
  decide

theorem scan_port : scanTarget p (portOption :: arg :: rest) = scanTarget (setPort p arg) rest :=
  if_pos rfl

theorem scan_outer (h : f ∈ outerOptions) : scanTarget p (f :: arg :: rest) = scanTarget p rest := by
  have hne : f ≠ portOption := fun e => portOption_notMem (e ▸ h)
  exact (if_neg hne).trans (if_pos h)

/-- An option that is known to take an argument passes over it. -/
theorem scan_valued (h : Valued f) (arg : List Char) (rest : List (List Char)) (p : Int) :
    ∃ p', scanTarget p (f :: arg :: rest) = scanTarget p' rest := by
  rcases h with rfl | h
  · exact ⟨_, scan_port⟩
  · exact ⟨p, scan_outer h⟩

theorem scan_valued_alone (h : Valued f) (p : Int) : (scanTarget p [f]).1 = [] := by
  rcases h with rfl | h
  · exact congrArg Prod.fst (if_pos rfl)
  · have hne : f ≠ portOption := fun e => portOption_notMem (e ▸ h)
    exact congrArg Prod.fst ((if_neg hne).trans (if_pos h))

theorem scan_of_not_valued (h : ¬ Valued f) :
    scanTarget p (f :: rest) = if f.head? = some '-' then scanTarget p rest
      else if hostPart f = [] then scanTarget p rest else (hostPart f, p) := by
  obtain ⟨hport, houter⟩ := not_or.mp h
  cases rest <;> exact (if_neg hport).trans (if_neg houter)

theorem scan_skipped (h : Skipped f) : scanTarget p (f :: rest) = scanTarget p rest := by
  obtain ⟨hvalued, hskip⟩ := h
  rw [scan_of_not_valued hvalued]
  by_cases hdash : f.head? = some '-'
  · rw [if_pos hdash]
  · rw [if_neg hdash, if_pos (hskip.resolve_left hdash)]

theorem scan_taken (hvalued : ¬ Valued f) (hskip : ¬ Skipped f) :
    scanTarget p (f :: rest) = (hostPart f, p) ∧ hostPart f ≠ [] := by
  have hnot : ¬ (f.head? = some '-' ∨ hostPart f = []) := fun h => hskip ⟨hvalued, h⟩
  obtain ⟨hdash, hhost⟩ := not_or.mp hnot
  rw [scan_of_not_valued hvalued, if_neg hdash, if_neg hhost]
  exact ⟨rfl, hhost⟩

theorem Consumed.of_valued (h : Valued f) (hc : Consumed (f :: ws)) : ∃ arg rest, ws = arg :: rest ∧ Consumed rest := by
  cases hc with
  | valued _ hrest => exact ⟨_, _, rfl, hrest⟩
  | skipped hskip _ => exact absurd h hskip.1

theorem Consumed.of_not_valued (h : ¬ Valued f) (hc : Consumed (f :: ws)) : Skipped f ∧ Consumed ws := by
  cases hc with
  | valued hvalued _ => exact absurd hvalued h
  | skipped hskip hrest => exact ⟨hskip, hrest⟩

/-- The target does not depend on the word after words that are not consumed. -/
theorem scan_of_not_consumed : ∀ {ws : List (List Char)}, ¬ Consumed ws →
    ∃ target, ∀ p w, (scanTarget p (ws ++ [w])).1 = target
  | [], h => absurd .nil h
  | [f], h => by
    by_cases hvalued : Valued f
    · refine ⟨[], fun p w => ?_⟩
      obtain ⟨p', hp⟩ := scan_valued hvalued w [] p
      rw [List.singleton_append, hp]
      rfl
    · have hskip : ¬ Skipped f := fun hskip => h (.skipped hskip .nil)
      exact ⟨hostPart f, fun p w => congrArg Prod.fst (scan_taken hvalued hskip).1⟩
  | f :: arg :: rest, h => by
    by_cases hvalued : Valued f
    · obtain ⟨target, htarget⟩ := scan_of_not_consumed fun hc : Consumed rest => h (.valued hvalued hc)
      refine ⟨target, fun p w => ?_⟩
      obtain ⟨p', hp⟩ := scan_valued hvalued arg (rest ++ [w]) p
      rw [List.cons_append, List.cons_append, hp, htarget]
    · by_cases hskip : Skipped f
      · obtain ⟨target, htarget⟩ := scan_of_not_consumed fun hc : Consumed (arg :: rest) => h (.skipped hskip hc)
        refine ⟨target, fun p w => ?_⟩
        rw [List.cons_append, scan_skipped hskip, htarget]
      · exact ⟨hostPart f, fun p w => congrArg Prod.fst (scan_taken hvalued hskip).1⟩

end Scan

/-! ## The port of the target -/

/-- A word that begins with a dash is no port. -/
theorem setPort_dash {a : List Char} (h : a.head? = some '-') (p : Int) : setPort p a = p := by
  obtain ⟨digits, rfl⟩ := List.head?_eq_some_iff.mp h
  have hnumber : number? ('-' :: digits) = if digits = [] ∨ ¬ digits.all Char.isDigit then none
      else some (-(digits.foldl (fun (n : Int) c => n * 10 + (c.toNat - '0'.toNat)) 0)) := rfl
  have hneg : ∀ n, parseInt ('-' :: digits) = some n → n ≤ 0 := by
    intro n hn
    unfold parseInt at hn
    rw [hnumber] at hn
    by_cases hd : digits = [] ∨ ¬ digits.all Char.isDigit
    · rw [if_pos hd] at hn
      cases hn
    · have hall : digits.all Char.isDigit = true := not_not.mp fun h => hd (.inr h)
      have hfold : digits.foldl (fun (n : Int) c => n * 10 + (c.toNat - '0'.toNat)) 0 =
          (Nat.ofDigitChars 10 digits 0 : Nat) := foldl_digits hall 0
      rw [if_neg hd, hfold] at hn
      dsimp only at hn
      split at hn
      · have := Option.some.inj hn
        omega
      · cases hn
  unfold setPort
  split
  · next n hn =>
    have := hneg n hn
    rw [if_neg (by omega)]
  · rfl

theorem setPort_decimal (n : Port) (p : Int) : setPort p (decimal n.1) = n.1 := by
  have := n.2.1
  unfold setPort
  rw [Command.parseInt_port]
  dsimp only
  rw [if_pos (by omega)]

theorem length_argOf_of_valued {f : List Char} (h : Valued f) : (argOf f).length = 1 := by
  have hall : ∀ f ∈ outerOptions, (argOf f).length = 1 := by decide
  rcases h with rfl | h
  · decide
  · exact hall f h

theorem head?_of_isOption {w : List Char} (h : IsOption w) : w.head? = some '-' := by
  obtain ⟨c, letters, rfl, -⟩ := h
  rfl

/-- The words of an option, the first of which begins with a dash. -/
theorem Opt.words_eq (o : Opt) : ∃ w, o.words = w :: o.words.tail ∧ w.head? = some '-' := by
  cases o with
  | flag w option _ => exact ⟨w.1, rfl, head?_of_isOption option⟩
  | value w v option _ _ => exact ⟨w.1, rfl, head?_of_isOption option⟩
  | port n => exact ⟨portOption, rfl, rfl⟩

def Opt.setPort (p : Int) : Opt → Int
  | .port n => n.1
  | _ => p

def wordsOf (os : List Opt) : List (List Char) := os.flatMap Opt.words

@[simp] theorem wordsOf_cons (o : Opt) (os : List Opt) : wordsOf (o :: os) = o.words ++ wordsOf os := rfl

/-- The port after the options, read as `ssh` reads them. -/
def lastPort (p : Int) (os : List Opt) : Int := os.foldl Opt.setPort p

/-- Both ways in which the parser can come to the options: at the first word, or with the first word taken for the
argument of what stands before it. -/
structure ReadsPort (os : List Opt) : Prop where
  whole : ∀ p more, Consumed (wordsOf os) → scanTarget p (wordsOf os ++ more) = scanTarget (lastPort p os) more
  tail : os ≠ [] → ∀ p more, Consumed (wordsOf os).tail →
    scanTarget p ((wordsOf os).tail ++ more) = scanTarget (lastPort p os) more

theorem ReadsPort.after_word {os : List Opt} (h : ReadsPort os) {v : List Char} {p : Int} (more : List (List Char))
    (hc : Consumed (v :: wordsOf os)) : scanTarget p (v :: wordsOf os ++ more) = scanTarget (lastPort p os) more := by
  by_cases hvalued : Valued v
  · obtain ⟨arg, rest, heq, hrest⟩ := hc.of_valued hvalued
    cases os with
    | nil => cases heq
    | cons o os =>
      obtain ⟨w, hwords, hdash⟩ := o.words_eq
      have hws : wordsOf (o :: os) = w :: (o.words.tail ++ wordsOf os) := by
        rw [wordsOf_cons, hwords]
        rfl
      rw [hws] at heq
      obtain ⟨rfl, rfl⟩ := List.cons.inj heq
      have htail := h.tail (List.cons_ne_nil o os) p more
      rw [hws, List.tail_cons] at htail
      rw [hws, List.cons_append, List.cons_append]
      rcases hvalued with rfl | houter
      · rw [scan_port, setPort_dash hdash, htail hrest]
      · rw [scan_outer houter, htail hrest]
  · obtain ⟨hskip, hrest⟩ := hc.of_not_valued hvalued
    rw [List.cons_append, scan_skipped hskip, h.whole p more hrest]

theorem not_consumed_decimal (n : Port) (ws : List (List Char)) : ¬ Consumed (decimal n.1 :: ws) := by
  intro hc
  obtain ⟨c, cs, heq, hdigit⟩ := decimal_head n.1
  have hdash : '-' ∉ decimal n.1 := by
    rw [decimal_natCast]
    intro hmem
    exact absurd (Nat.isDigit_of_mem_toDigits (by omega) (by omega) hmem) (by decide)
  have hvalued : ¬ Valued (decimal n.1) := by
    have hall : ∀ f ∈ outerOptions, '-' ∈ f := by decide
    rintro (h | h)
    · exact hdash (h ▸ by decide)
    · exact hdash (hall _ h)
  obtain ⟨⟨-, hhead | hhost⟩, -⟩ := hc.of_not_valued hvalued
  · exact hdash (List.mem_of_mem_head? hhead)
  · rw [hostPart_of_notMem (notMem_decimal (by decide) (by decide) _), heq] at hhost
    cases hhost

theorem readsPort (os : List Opt) : ReadsPort os := by
  induction os with
  | nil => exact ⟨fun p more _ => rfl, fun h => absurd rfl h⟩
  | cons o os ih =>
    cases o with
    | flag w option alone =>
      have hvalued : ¬ Valued w.1 := by
        intro h
        have hlen := length_argOf_of_valued h
        rcases alone with h | h
        · rw [h] at hlen
          cases hlen
        · exact h.2 hlen
      refine ⟨fun p more hc => ?_, fun _ p more hc => ih.whole p more hc⟩
      obtain ⟨hskip, hrest⟩ := hc.of_not_valued hvalued
      exact (scan_skipped hskip).trans (ih.whole p more hrest)
    | value w v option takes other =>
      refine ⟨fun p more hc => ?_, fun _ p more hc => ih.after_word more hc⟩
      by_cases hvalued : Valued w.1
      · have houter : w.1 ∈ outerOptions := hvalued.resolve_left fun h => other (by rw [h]; rfl)
        obtain ⟨arg, rest, heq, hrest⟩ := hc.of_valued hvalued
        obtain ⟨rfl, rfl⟩ := List.cons.inj heq
        exact (scan_outer houter).trans (ih.whole p more hrest)
      · obtain ⟨hskip, hrest⟩ := hc.of_not_valued hvalued
        exact (scan_skipped hskip).trans (ih.after_word more hrest)
    | port n =>
      refine ⟨fun p more hc => ?_, fun _ p more hc => absurd hc (not_consumed_decimal n _)⟩
      obtain ⟨arg, rest, heq, hrest⟩ := hc.of_valued (.inl rfl)
      obtain ⟨rfl, rfl⟩ := List.cons.inj heq
      have hscan : scanTarget p (wordsOf (.port n :: os) ++ more) = scanTarget (setPort p (decimal n.1)) (wordsOf os ++ more) :=
        scan_port
      rw [hscan, setPort_decimal, ih.whole n.1 more hrest]
      rfl

theorem lastPort_eq {os : List Opt} (h : (os.filterMap Opt.port?).length ≤ 1) (p : Int) :
    lastPort p os = ((os.filterMap Opt.port?).head?.map fun n => (n.1 : Int)).getD p := by
  induction os generalizing p with
  | nil => rfl
  | cons o os ih =>
    cases o with
    | flag w option alone => exact ih h p
    | value w v option takes other => exact ih h p
    | port n =>
      have hnone : os.filterMap Opt.port? = [] := by
        apply List.eq_nil_of_length_eq_zero
        have hlen : (os.filterMap Opt.port?).length + 1 ≤ 1 := h
        omega
      have hrest := ih (by rw [hnone]; exact Nat.zero_le 1) n.1
      rw [hnone] at hrest
      exact hrest

/-! ## An earlier `ProxyCommand=` -/

/-- Some word of the texts is taken for the destination, whatever follows them. -/
def Stuck (ws : List (List Char)) : Prop := ∃ target, target ≠ [] ∧ ∀ p more, (scanTarget p (ws ++ more)).1 = target

theorem Stuck.of_taken {f : List Char} (hvalued : ¬ Valued f) (hskip : ¬ Skipped f) (ws : List (List Char)) :
    Stuck (f :: ws) :=
  ⟨hostPart f, (@scan_taken 0 f [] hvalued hskip).2, fun _ _ => congrArg Prod.fst (scan_taken hvalued hskip).1⟩

theorem Stuck.valued {f : List Char} (h : Valued f) (arg : List Char) {ws : List (List Char)} (hs : Stuck ws) :
    Stuck (f :: arg :: ws) := by
  obtain ⟨target, hne, htarget⟩ := hs
  refine ⟨target, hne, fun p more => ?_⟩
  obtain ⟨p', hp⟩ := scan_valued h arg (ws ++ more) p
  rw [List.cons_append, List.cons_append, hp, htarget]

theorem Stuck.skipped {f : List Char} (h : Skipped f) {ws : List (List Char)} (hs : Stuck ws) : Stuck (f :: ws) := by
  obtain ⟨target, hne, htarget⟩ := hs
  refine ⟨target, hne, fun p more => ?_⟩
  rw [List.cons_append, scan_skipped h, htarget]

/-- What is stuck from a word on, and from the word after it, is stuck behind any words. -/
theorem Stuck.behind {f : List Char} {ws : List (List Char)} (h₁ : Stuck (f :: ws)) (h₂ : Stuck ws) :
    ∀ pre : List (List Char), Stuck (pre ++ f :: ws)
  | [] => h₁
  | [g] => by
    by_cases hvalued : Valued g
    · exact h₂.valued hvalued f
    · by_cases hskip : Skipped g
      · exact h₁.skipped hskip
      · exact .of_taken hvalued hskip _
  | g :: arg :: pre => by
    by_cases hvalued : Valued g
    · exact (h₁.behind h₂ pre).valued hvalued arg
    · by_cases hskip : Skipped g
      · exact (h₁.behind h₂ (arg :: pre)).skipped hskip
      · exact .of_taken hvalued hskip _

theorem dash_mem_of_valued {f : List Char} (h : Valued f) : f.head? = some '-' ∧ '@' ∉ f := by
  have hall : ∀ f ∈ outerOptions, f.head? = some '-' ∧ '@' ∉ f := by decide
  rcases h with rfl | h
  · decide
  · exact hall f h

namespace Command
variable (c : Command)

theorem stuck_proxyWord : Stuck [c.proxyWord] := by
  have hhead : c.proxyWord.head? ≠ some '-' := by
    obtain ⟨x, xs, hx⟩ := List.exists_cons_of_ne_nil c.user.2.1
    have huser := c.user_option
    rw [hx] at huser
    unfold proxyWord
    rw [hx]
    exact huser
  have hhost : hostPart c.proxyWord ≠ [] := by
    have hword : c.proxyWord = (c.user.1 ++ '@' :: c.host.1) ++ [c.quote] := by
      simp [proxyWord]
    have hquote : c.quote ≠ '@' := by
      rcases c.quote_cases with h | h <;> rw [h] <;> decide
    rw [hword, hostPart, List.reverse_append]
    simp [hquote]
  exact .of_taken (fun h => hhead (dash_mem_of_valued h).1) (fun h => h.2.elim hhead hhost) []

theorem stuck_firstWord (ws : List (List Char)) : Stuck (c.firstWord :: ws) := by
  have hhead : c.firstWord.head? ≠ some '-' := by
    simp [firstWord, show proxyCommand = 'P' :: "roxyCommand=".toList from rfl]
  have hhost : hostPart c.firstWord ≠ [] := by
    rw [hostPart_of_notMem (c.notMem_at_frontWords _ (List.mem_cons_self ..))]
    exact (c.isWord_frontWords _ (List.mem_cons_self ..)).1
  exact .of_taken (fun h => hhead (dash_mem_of_valued h).1) (fun h => h.2.elim hhead hhost) ws

/-- The words of the value end in one that is taken for the destination. -/
theorem stuck_frontWords (pre : List (List Char)) :
    Stuck (pre ++ "-o".toList :: (c.frontWords ++ [c.proxyWord])) := by
  have hmid : Valued "-W".toList := .inr (by decide)
  have hopt : Valued "-o".toList := .inr (by decide)
  have hport : Stuck (c.portWords ++ [c.proxyWord]) := by
    unfold portWords
    cases c.port with
    | none => exact c.stuck_proxyWord
    | some n => exact c.stuck_proxyWord.valued (.inl rfl) _
  have hrest : Stuck ("-W".toList :: "%h:%p".toList :: (c.portWords ++ [c.proxyWord])) := hport.valued hmid _
  exact (hrest.valued hopt c.firstWord).behind (c.stuck_firstWord _) pre

end Command

/-! ## What the parser finds -/

/-- The host of a target, with the fallback. -/
def targetHost (proxyCmd : List Char) : List Char :=
  if (parseOuterTarget proxyCmd).1 ≠ [] then (parseOuterTarget proxyCmd).1 else localhost

theorem parse_eq_ok {s : List Char} {info : ConsoleProxyInfo} (h : parseConsoleConnectionString s = .ok info) :
    ∃ proxyCmd, from? proxyCommand s = some proxyCmd ∧ info.targetHost = targetHost proxyCmd ∧
      info.proxyPort = findPort proxyCmd ∧
      info.proxyUser = trimSpace ((proxyCmd.takeWhile (· ≠ '@')).reverse.takeWhile fun x => ¬ isDelim x).reverse := by
  unfold parseConsoleConnectionString at h
  split at h
  · cases h
  · next proxyCmd hfrom =>
    split at h
    · cases h
    · dsimp only at h
      split at h
      · cases h
      · obtain rfl := Except.ok.inj h
        refine ⟨proxyCmd, hfrom, ?_, rfl, rfl⟩
        unfold targetHost
        split <;> rfl

theorem notMem_scanTarget : ∀ (fs : List (List Char)) (p : Int), '@' ∉ (scanTarget p fs).1
  | [], _ => List.not_mem_nil
  | f :: fs, p => by
    by_cases hvalued : Valued f
    · cases fs with
      | nil =>
        rw [scan_valued_alone hvalued]
        exact List.not_mem_nil
      | cons arg rest =>
        obtain ⟨p', hp⟩ := scan_valued hvalued arg rest p
        rw [hp]
        exact notMem_scanTarget rest p'
    · rw [scan_of_not_valued hvalued]
      split
      · exact notMem_scanTarget fs p
      · split
        · exact notMem_scanTarget fs p
        · exact notMem_hostPart _

theorem notMem_targetHost (proxyCmd : List Char) : '@' ∉ targetHost proxyCmd := by
  unfold targetHost parseOuterTarget
  split
  · exact notMem_scanTarget _ _
  · decide

namespace Command
variable (c : Command)

theorem skipQuoted_of_not_quote {s : List Char} (h : ∀ q, s.head? = some q → q ≠ '\'' ∧ q ≠ '"') : skipQuoted s = s := by
  unfold skipQuoted
  split
  · next q tail =>
    obtain ⟨hsingle, hdouble⟩ := h q rfl
    rw [if_neg (not_or.mpr ⟨hsingle, hdouble⟩)]
  · rfl

/-- The fields of a text that begins in the middle of a word. -/
theorem fields_append_blank {rest : List Char} (h : ∀ x ∈ rest, isSpace x = false) (t : List Char) :
    fields (rest ++ ' ' :: t) = (if rest = [] then [] else [rest]) ++ fields t := by
  by_cases hne : rest = []
  · rw [if_pos hne, hne, List.nil_append, fields_space (by decide)]
    rfl
  · rw [if_neg hne, fields_word_append hne h (by decide)]
    rfl

/-- The words that are read from a word before the value on. -/
theorem fields_before {rest : List Char} (h : ∀ x ∈ rest, isSpace x = false ∧ x ≠ '\'' ∧ x ≠ '"') (r : List Plain) (d : Dest) :
    fields (skipQuoted (rest ++ ' ' :: (spaced (r.map Subtype.val ++ ["-o".toList]) ++ c.value d))) =
      (if rest = [] then [] else [rest]) ++
        (r.map Subtype.val ++ "-o".toList :: (c.frontWords ++ c.proxyWord :: c.afterWords) ++ [d.word]) := by
  have hquote : ∀ t : List Char, skipQuoted (rest ++ ' ' :: t) = rest ++ ' ' :: t := by
    intro t
    apply skipQuoted_of_not_quote
    intro q hq
    cases rest with
    | nil =>
      obtain rfl := Option.some.inj hq
      decide
    | cons x xs =>
      obtain rfl := Option.some.inj hq
      exact (h x (List.mem_cons_self ..)).2
  have hwords : ∀ v ∈ r.map Subtype.val ++ "-o".toList :: (c.frontWords ++ c.proxyWord :: c.afterWords), IsWord v := by
    have hdash : IsWord "-o".toList := by decide
    intro v hv
    simp only [List.mem_append, List.mem_cons, List.mem_map] at hv
    rcases hv with ⟨u, -, rfl⟩ | rfl | hv | rfl | hv
    · exact Plain.isWord u
    · exact hdash
    · exact c.isWord_frontWords v hv
    · exact c.isWord_proxyWord
    · exact c.isWord_afterWords v hv
  have hspaced : spaced (r.map Subtype.val ++ ["-o".toList]) ++ c.value d =
      spaced (r.map Subtype.val ++ "-o".toList :: (c.frontWords ++ c.proxyWord :: c.afterWords)) ++ d.word := by
    rw [value_eq]
    simp
  rw [hquote, fields_append_blank (fun x hx => (h x hx).1), hspaced, fields_spaced hwords,
    fields_word d.isWord_word.1 d.isWord_word.2]

theorem exists_first_infix {before : List Plain} {w : Plain} (hw : w ∈ before) (h : proxyCommand <:+: w.1) :
    ∃ l w r, before = l ++ w :: r ∧ (∀ v ∈ l, ¬ proxyCommand <:+: v.1) ∧ proxyCommand <:+: w.1 := by
  cases hfind : before.find? fun v => proxyCommand <:+: v.1 with
  | none => exact absurd h (by simpa using List.find?_eq_none.mp hfind w hw)
  | some v =>
    obtain ⟨hv, l, r, heq, hl⟩ := List.find?_eq_some_iff_append.mp hfind
    exact ⟨l, v, r, heq, fun u hu => by simpa using hl u hu, of_decide_eq_true hv⟩

/-- With an earlier `ProxyCommand=` the target does not depend on the destination. -/
theorem targetHost_of_infix {w : Plain} (hw : w ∈ c.before) (h : proxyCommand <:+: w.1) :
    ∃ target, ∀ d proxyCmd, from? proxyCommand (c.text d) = some proxyCmd → targetHost proxyCmd = target := by
  obtain ⟨l, w, r, hbefore, hl, hw⟩ := exists_first_infix hw h
  obtain ⟨rest, hrest, hfound⟩ := from?_of_infix (by decide) hw
  have hplain : ∀ x ∈ rest, isSpace x = false ∧ x ≠ '\'' ∧ x ≠ '"' := fun x hx => w.2.2 x (hrest.subset hx)
  obtain ⟨target, hne, htarget⟩ := c.stuck_frontWords ((if rest = [] then [] else [rest]) ++ r.map Subtype.val)
  refine ⟨target, fun d proxyCmd hfrom => ?_⟩
  have hskip : ∀ v ∈ "ssh".toList :: l.map Subtype.val, ¬ proxyCommand <:+: v := by
    intro v hv
    rcases List.mem_cons.mp hv with rfl | hv
    · decide
    · obtain ⟨u, hu, rfl⟩ := List.mem_map.mp hv
      exact hl u hu
  have htext : c.text d = spaced ("ssh".toList :: l.map Subtype.val) ++
      (w.1 ++ (' ' :: (spaced (r.map Subtype.val ++ ["-o".toList]) ++ c.value d))) := by
    simp [text, hbefore]
  rw [htext, from?_spaced (by decide) hskip, hfound] at hfrom
  obtain rfl := Option.some.inj hfrom
  have houter : (parseOuterTarget (proxyCommand ++
      (rest ++ ' ' :: (spaced (r.map Subtype.val ++ ["-o".toList]) ++ c.value d)))).1 = target := by
    unfold parseOuterTarget
    rw [List.drop_left, c.fields_before hplain, ← htarget 22 (c.afterWords ++ [d.word])]
    simp
  unfold targetHost
  rw [houter, if_pos hne]

/-! ## Commands that are parsed right -/

theorem targetHost_value (d : Dest) : targetHost (c.value d) =
    if (scanTarget 22 (c.afterWords ++ [d.word])).1 ≠ [] then (scanTarget 22 (c.afterWords ++ [d.word])).1
    else localhost := by
  unfold targetHost
  rw [parseOuterTarget_value]

/-- The destination is reached with the port that the command says. -/
theorem scan_value (h : Consumed c.afterWords) {d : Dest} (hd : '@' ∉ d.target.1) :
    scanTarget 22 (c.afterWords ++ [d.word]) = (d.target.1, (c.info d).targetPort) := by
  have hhost := d.hostPart_word hd
  have hvalued : ¬ Valued d.word := fun hv => d.head?_word (dash_mem_of_valued hv).1
  have hskip : ¬ Skipped d.word := fun hs => hs.2.elim d.head?_word fun hnil => d.target.2.1 (hhost ▸ hnil)
  have hread := (readsPort c.after).whole 22 [d.word] h
  have htaken := (@scan_taken (lastPort 22 c.after) d.word [] hvalued hskip).1
  rw [hhost, lastPort_eq c.onePort] at htaken
  rw [lastPort_eq c.onePort, htaken] at hread
  exact hread

theorem findPort_value (h : c.port = none → ∀ w, afterPort c.afterWords = some w → ∀ n, parseInt w = some n → n = 443)
    (d : Dest) : findPort (c.value d) = (c.info d).proxyPort := by
  cases hport : c.port with
  | some n =>
    rw [findPort_some c d hport, info, hport]
    rfl
  | none =>
    have hword := h hport
    rw [findPort_none c d hport, info, hport]
    cases hafter : afterPort c.afterWords with
    | none => rfl
    | some w =>
      cases hn : parseInt w with
      | none => simp [hn]
      | some n => simp [hn, hword w hafter n hn]

theorem right_of_clean (h : Clean c) {d : Dest} (hd : '@' ∉ d.target.1) : c.Right d := by
  have htake := takeWhile_of_notMem h.user
  have hhost := c.proxyHost_value (' ' :: (spaced c.afterWords ++ d.word))
  have huser := c.proxyUser_value d
  rw [htake] at huser
  have hne : ¬ (c.host.1 = [] ∨ c.user.1 = []) := not_or.mpr ⟨c.host.2.1, c.user.2.1⟩
  unfold Right parseConsoleConnectionString
  rw [c.from?_text d h.once]
  simp only [c.afterAt_value d h.user, hhost, huser, if_neg hne, parseOuterTarget_value, c.scan_value h.options hd,
    c.findPort_value h.port]
  rw [if_pos d.target.2.1]
  rfl

/-! ### What is needed -/

/-- A destination for a command without more options. -/
def plainDest (letter : Char) (h : isSpace letter = false ∧ letter ≠ '\'' ∧ letter ≠ '"') (hdash : letter ≠ '-') : Dest where
  ouser := none
  target := ⟨[letter], List.cons_ne_nil _ _, by simpa using h⟩
  option := by simpa using hdash

def destA : Dest := plainDest 'a' (by decide) (by decide)

def destB : Dest := plainDest 'b' (by decide) (by decide)

variable {c}

theorem Right.parts {d : Dest} (h : c.Right d) : ∃ proxyCmd, from? proxyCommand (c.text d) = some proxyCmd ∧
    d.target.1 = targetHost proxyCmd ∧ (c.info d).proxyPort = findPort proxyCmd ∧
      c.user.1 = trimSpace ((proxyCmd.takeWhile (· ≠ '@')).reverse.takeWhile fun x => ¬ isDelim x).reverse :=
  parse_eq_ok h

theorem clean_of_right (hA : c.Right destA) (hB : c.Right destB) : Clean c := by
  obtain ⟨cmdA, hfromA, htargetA, hportA, huserA⟩ := hA.parts
  obtain ⟨cmdB, hfromB, htargetB, -, -⟩ := hB.parts
  have hne : ∀ target : List Char, destA.target.1 = target → destB.target.1 ≠ target := by
    rintro target rfl
    decide
  have honce : ∀ w ∈ c.before, ¬ proxyCommand <:+: w.1 := by
    intro w hw hocc
    obtain ⟨target, hall⟩ := c.targetHost_of_infix hw hocc
    rw [hall destA cmdA hfromA] at htargetA
    rw [hall destB cmdB hfromB] at htargetB
    exact hne target htargetA htargetB
  rw [c.from?_text _ honce] at hfromA hfromB
  obtain rfl := Option.some.inj hfromA
  obtain rfl := Option.some.inj hfromB
  refine ⟨honce, ?_, ?_, ?_⟩
  · intro hmem
    rw [proxyUser_value] at huserA
    rw [huserA] at hmem
    simpa using List.mem_takeWhile_imp hmem
  · intro hnone w hw n hn
    rw [findPort_none c destA hnone, hw] at hportA
    have hport : (c.info destA).proxyPort = 443 := by
      simp [info, hnone]
    rw [hport, Option.bind_some, hn] at hportA
    exact hportA.symm
  · by_contra hoptions
    obtain ⟨target, htarget⟩ := scan_of_not_consumed hoptions
    rw [targetHost_value, htarget] at htargetA htargetB
    exact hne _ htargetA htargetB

end Command

/-- **A command is parsed right with exactly the destinations without a further `@` if and only if it is clean.** -/
theorem right_iff (c : Command) : (∀ d : Dest, c.Right d ↔ '@' ∉ d.target.1) ↔ Clean c := by
  constructor
  · intro h
    exact Command.clean_of_right ((h Command.destA).mpr (by decide)) ((h Command.destB).mpr (by decide))
  · intro h d
    refine ⟨fun hright => ?_, c.right_of_clean h⟩
    obtain ⟨proxyCmd, -, htarget, -, -⟩ := hright.parts
    rw [htarget]
    exact notMem_targetHost proxyCmd

/-! ## A port behind the value -/

def ofText (text : String) (h : text.toList ≠ [] ∧ ∀ c ∈ text.toList, isSpace c = false ∧ c ≠ '\'' ∧ c ≠ '"') : Plain :=
  ⟨text.toList, h⟩

/-- No port of the proxy, and one of the target. -/
def portBehind : Command where
  before := []
  doubled := false
  port := none
  user := ofText "u" ⟨by decide, List.all_iff_forall_prop.mp (by decide)⟩
  host := ofText "h" ⟨by decide, List.all_iff_forall_prop.mp (by decide)⟩
  after := [.port ⟨2222, by decide⟩]
  user_option := by decide
  onePort := by decide

/-- The port of the target is taken for that of the proxy. -/
theorem port_behind_value :
    portBehind.text Command.destA = "ssh -o ProxyCommand='ssh -W %h:%p u@h' -p 2222 a".toList ∧
      parseConsoleConnectionString (portBehind.text Command.destA) =
        .ok { portBehind.info Command.destA with proxyPort := 2222 } ∧
      (portBehind.info Command.destA).proxyPort = 443 ∧ ¬ portBehind.Right Command.destA := by
  unfold Command.Right
  decide +kernel

example : parseConsoleConnectionString
    "ssh -i k.pem -o ProxyCommand='ssh -W %h:%p -p 443 ocid1.c@console.oraclecloud.com' debian@ocid1.i".toList =
      .ok ⟨"console.oraclecloud.com".toList, 443, "ocid1.c".toList, "ocid1.i".toList, 22⟩ := by
  decide +kernel

end OciHelper.Instances.Console
