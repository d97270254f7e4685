import OciHelper.Oci.Uploads

/-!
# The texts of configurations

* `Field`, `ParsedOciCfg.get`, `ParsedOciCfg.set` : the five keys and their fields;
* `Header`, `Assigns`, `Noise` : what a line of a text is;
* `Block`, `Rendered` : the lines of one configuration, and those of a list of them;
* `parseOciConfigText_rendered` : the list is read back; `rendered_render` : every list has such lines.
-/

namespace OciHelper.Oci.Uploads
open Text

inductive Field
  | user | fingerprint | tenancy | region | keyFile

def Field.key : Field → List Char
  | .user => "user".toList
  | .fingerprint => "fingerprint".toList
  | .tenancy => "tenancy".toList
  | .region => "region".toList
  | .keyFile => "key_file".toList

def ParsedOciCfg.get (c : ParsedOciCfg) : Field → List Char
  | .user => c.userOCID
  | .fingerprint => c.fingerprint
  | .tenancy => c.tenancyOCID
  | .region => c.region
  | .keyFile => c.keyFile

def ParsedOciCfg.set (c : ParsedOciCfg) (value : List Char) : Field → ParsedOciCfg
  | .user => { c with userOCID := value }
  | .fingerprint => { c with fingerprint := value }
  | .tenancy => { c with tenancyOCID := value }
  | .region => { c with region := value }
  | .keyFile => { c with keyFile := value }

@[simp] theorem name_set (c : ParsedOciCfg) (value : List Char) (f : Field) : (c.set value f).name = c.name := by
  cases f <;> rfl

@[simp] theorem get_set_self (c : ParsedOciCfg) (value : List Char) (f : Field) : (c.set value f).get f = value := by
  cases f <;> rfl

theorem get_set_of_ne (c : ParsedOciCfg) (value : List Char) {f g : Field} (h : g ≠ f) :
    (c.set value f).get g = c.get g := by
  cases f <;> cases g <;> first | rfl | exact absurd rfl h

theorem eq_of_get {c c' : ParsedOciCfg} (hname : c.name = c'.name) (hget : ∀ f, c.get f = c'.get f) : c = c' := by
  have huser := hget .user
  have hfingerprint := hget .fingerprint
  have htenancy := hget .tenancy
  have hregion := hget .region
  have hkeyFile := hget .keyFile
  cases c
  cases c'
  simp_all [ParsedOciCfg.get]

theorem setField_key (c : ParsedOciCfg) (value : List Char) (f : Field) : setField c f.key value = c.set value f := by
  cases f <;> rfl

theorem setField_of_ne (c : ParsedOciCfg) (value : List Char) {key : List Char} (h : ∀ f : Field, key ≠ f.key) :
    setField c key value = c := by
  have huser : key ≠ "user".toList := h .user
  have hfingerprint : key ≠ "fingerprint".toList := h .fingerprint
  have htenancy : key ≠ "tenancy".toList := h .tenancy
  have hregion : key ≠ "region".toList := h .region
  have hkeyFile : key ≠ "key_file".toList := h .keyFile
  unfold setField
  rw [if_neg huser, if_neg hfingerprint, if_neg htenancy, if_neg hregion, if_neg hkeyFile]

/-- A key starts and ends with a letter, and has no separator in it. -/
theorem key_eq (f : Field) : ∃ c mid d, f.key = c :: (mid ++ [d]) ∧ isSpace c = false ∧ isSpace d = false ∧ c ≠ '[' := by
  cases f
  · exact ⟨'u', "se".toList, 'r', by decide⟩
  · exact ⟨'f', "ingerprin".toList, 't', by decide⟩
  · exact ⟨'t', "enanc".toList, 'y', by decide⟩
  · exact ⟨'r', "egio".toList, 'n', by decide⟩
  · exact ⟨'k', "ey_fil".toList, 'e', by decide⟩

theorem notMem_key (f : Field) : '=' ∉ f.key := by
  cases f <;> decide

/-! ## Lines -/

def Blank (s : List Char) : Prop := ∀ c ∈ s, isSpace c = true

/-- The form of a header, without the white space around it. -/
def Bracketed (line : List Char) : Prop := line.head? = some '[' ∧ line.getLast? = some ']'

instance : DecidablePred Bracketed := fun line =>
  inferInstanceAs (Decidable (line.head? = some '[' ∧ line.getLast? = some ']'))

/-- The header of a configuration, with white space anywhere. -/
def Header (name line : List Char) : Prop :=
  ∃ u v w z, Blank u ∧ Blank v ∧ Blank w ∧ Blank z ∧ line = u ++ ('[' :: (v ++ (name ++ w)) ++ [']']) ++ z

/-- A line with a key and its value, with white space anywhere. -/
def Assigns (f : Field) (value line : List Char) : Prop :=
  ∃ u v w z, Blank u ∧ Blank v ∧ Blank w ∧ Blank z ∧ line = u ++ (f.key ++ (v ++ '=' :: (w ++ (value ++ z))))

/-- An empty line, a comment or an unknown key. -/
def Noise (line : List Char) : Prop :=
  ¬ Bracketed (trimSpace line) ∧
    ('=' ∈ trimSpace line → ∀ f : Field, trimSpace ((trimSpace line).takeWhile (· ≠ '=')) ≠ f.key)

structure ParsedOciCfg.Trimmed (c : ParsedOciCfg) : Prop where
  name : trimSpace c.name = c.name
  get : ∀ f, trimSpace (c.get f) = c.get f

/-- A header and lines in any order; a key without a line has an empty value. -/
def Block (c : ParsedOciCfg) (ls : List (List Char)) : Prop :=
  ∃ header body, ls = header :: body ∧ Header c.name header ∧
    (∀ l ∈ body, Noise l ∨ ∃ f, Assigns f (c.get f) l) ∧ ∀ f, c.get f ≠ [] → ∃ l ∈ body, Assigns f (c.get f) l

/-- The blocks one after the other, below lines that are no headers. -/
def Rendered (cs : List ParsedOciCfg) (ls : List (List Char)) : Prop :=
  ∃ above blocks, ls = above ++ blocks.flatten ∧ (∀ l ∈ above, ¬ Bracketed (trimSpace l)) ∧ List.Forall₂ Block cs blocks

theorem trimSpace_header {name line : List Char} (h : Header name line) :
    ∃ inner, trimSpace line = '[' :: (inner ++ [']']) ∧ trimSpace inner = trimSpace name := by
  obtain ⟨u, v, w, z, hu, hv, hw, hz, rfl⟩ := h
  refine ⟨v ++ (name ++ w), ?_, ?_⟩
  · rw [List.append_assoc, trimSpace_blank_append hu, trimSpace_append_blank hz, List.cons_append]
    exact trimSpace_cons_append (by decide) (by decide) _ []
  · rw [trimSpace_blank_append hv, trimSpace_append_blank hw]

theorem trimSpace_assigns {f : Field} {value line : List Char} (h : Assigns f value line) :
    ∃ v y, trimSpace line = (f.key ++ v) ++ '=' :: y ∧ Blank v ∧ trimSpace y = trimSpace value := by
  obtain ⟨u, v, w, z, hu, hv, hw, hz, rfl⟩ := h
  refine ⟨v, trimEnd (w ++ (value ++ z)), ?_, hv, ?_⟩
  · obtain ⟨c, mid, d, hkey, hc, -, -⟩ := key_eq f
    rw [trimSpace_blank_append hu, hkey]
    have htrim := trimSpace_cons_append hc (d := '=') (by decide) (mid ++ [d] ++ v) (w ++ (value ++ z))
    simpa only [List.cons_append, List.append_assoc] using htrim
  · rw [trimSpace_trimEnd, trimSpace_blank_append hw, trimSpace_append_blank hz]

/-! ## One line -/

variable {st : List ParsedOciCfg × Option ParsedOciCfg} {done : List ParsedOciCfg} {cur : ParsedOciCfg}

theorem parseLine_of_not_bracketed {line : List Char} (h : ¬ Bracketed (trimSpace line)) :
    parseLine st line =
      match st.2, splitN '=' 2 (trimSpace line) with
      | some cur, [key, value] => (st.1, some (setField cur (trimSpace key) (trimSpace value)))
      | _, _ => st := by
  unfold Bracketed at h
  unfold parseLine
  by_cases hnil : trimSpace line = []
  · obtain ⟨done, cur⟩ := st
    cases cur <;> simp [hnil, splitN]
  · exact (if_neg hnil).trans (if_neg h)

theorem parseLine_above {line : List Char} (h : ¬ Bracketed (trimSpace line)) :
    parseLine (done, none) line = (done, none) := by
  rw [parseLine_of_not_bracketed h]

theorem parseLine_noise {line : List Char} (h : Noise line) : parseLine (done, some cur) line = (done, some cur) := by
  rw [parseLine_of_not_bracketed h.1]
  by_cases hmem : '=' ∈ trimSpace line
  · obtain ⟨key, value, heq, hkey⟩ := List.eq_append_cons_of_mem hmem
    have hall : ∀ c ∈ key, decide (c ≠ '=') = true := fun c hc => decide_eq_true fun e => hkey (e ▸ hc)
    have hbefore : (trimSpace line).takeWhile (· ≠ '=') = key := by
      rw [heq, List.takeWhile_append_of_pos hall]
      simp
    have hunknown := h.2 hmem
    rw [hbefore] at hunknown
    rw [heq, splitN_append '=' 0 hkey]
    simp only [splitN, setField_of_ne cur _ hunknown]
  · rw [splitN_of_notMem '=' 1 hmem]

theorem parseLine_assigns {f : Field} {value line : List Char} (h : Assigns f value line) (hvalue : trimSpace value = value) :
    parseLine (done, some cur) line = (done, some (cur.set value f)) := by
  obtain ⟨v, y, htrim, hv, hy⟩ := trimSpace_assigns h
  obtain ⟨c, mid, d, hkey, -, -, hc⟩ := key_eq f
  have hbracket : ¬ Bracketed (trimSpace line) := by
    rintro ⟨hhead, -⟩
    rw [htrim, hkey] at hhead
    exact hc (by simpa using hhead)
  have hsep : '=' ∉ f.key ++ v := by
    rw [List.mem_append, not_or]
    exact ⟨notMem_key f, fun hmem => absurd (hv _ hmem) (by decide)⟩
  have htrimKey : trimSpace (f.key ++ v) = f.key := by
    rw [trimSpace_append_blank hv]
    cases f <;> rfl
  rw [parseLine_of_not_bracketed hbracket, htrim, splitN_append '=' 0 hsep]
  simp only [splitN, htrimKey, hy, hvalue, setField_key]

theorem parseLine_header {name line : List Char} (h : Header name line) (hname : trimSpace name = name) :
    parseLine st line = (st.1 ++ st.2.toList, some { name }) := by
  obtain ⟨inner, htrim, hinner⟩ := trimSpace_header h
  have hbracket : (trimSpace line).head? = some '[' ∧ (trimSpace line).getLast? = some ']' := by
    rw [htrim]
    exact ⟨rfl, List.getLast?_concat (l := '[' :: inner)⟩
  unfold parseLine
  rw [if_neg (by rw [htrim]; exact List.cons_ne_nil _ _), if_pos hbracket, htrim]
  simp [hinner, hname]

/-! ## One configuration -/

variable {c : ParsedOciCfg}

/-- A line of the body gives a field its value, or leaves it and does not assign it. -/
theorem parseLine_body (done : List ParsedOciCfg) (cur : ParsedOciCfg) (hc : c.Trimmed) {l : List Char}
    (h : Noise l ∨ ∃ f, Assigns f (c.get f) l) :
    ∃ cur', parseLine (done, some cur) l = (done, some cur') ∧ cur'.name = cur.name ∧
      ∀ g, cur'.get g = c.get g ∨ cur'.get g = cur.get g ∧ ¬ Assigns g (c.get g) l := by
  -- the result is the same for every field that the line assigns
  have hassign : ∀ {cur'}, parseLine (done, some cur) l = (done, some cur') → ∀ g, Assigns g (c.get g) l →
      cur'.get g = c.get g := by
    intro cur' hparse g hg
    rw [parseLine_assigns hg (hc.get g)] at hparse
    obtain rfl := Option.some.inj (Prod.mk.inj hparse).2
    exact get_set_self ..
  rcases h with hnoise | ⟨f, hf⟩
  · refine ⟨cur, parseLine_noise hnoise, rfl, fun g => ?_⟩
    by_cases hg : Assigns g (c.get g) l
    · exact .inl (hassign (parseLine_noise hnoise) g hg)
    · exact .inr ⟨rfl, hg⟩
  · refine ⟨cur.set (c.get f) f, parseLine_assigns hf (hc.get f), name_set .., fun g => ?_⟩
    by_cases hg : Assigns g (c.get g) l
    · exact .inl (hassign (parseLine_assigns hf (hc.get f)) g hg)
    · have hne : g ≠ f := by
        rintro rfl
        exact hg hf
      exact .inr ⟨get_set_of_ne _ _ hne, hg⟩

theorem foldl_body (done : List ParsedOciCfg) (cur : ParsedOciCfg) (hc : c.Trimmed) {body : List (List Char)}
    (h : ∀ l ∈ body, Noise l ∨ ∃ f, Assigns f (c.get f) l) :
    ∃ cur', body.foldl parseLine (done, some cur) = (done, some cur') ∧ cur'.name = cur.name ∧
      ∀ g, cur'.get g = c.get g ∨ cur'.get g = cur.get g ∧ ∀ l ∈ body, ¬ Assigns g (c.get g) l := by
  induction body generalizing cur with
  | nil => exact ⟨cur, rfl, rfl, fun g => .inr ⟨rfl, by simp⟩⟩
  | cons l body ih =>
    obtain ⟨hl, hbody⟩ := List.forall_mem_cons.mp h
    obtain ⟨cur₁, hparse, hname₁, hget₁⟩ := parseLine_body done cur hc hl
    obtain ⟨cur₂, hfold, hname₂, hget₂⟩ := ih cur₁ hbody
    refine ⟨cur₂, by rw [List.foldl_cons, hparse, hfold], hname₂.trans hname₁, fun g => ?_⟩
    rcases hget₂ g with hg | ⟨hg, hnone⟩
    · exact .inl hg
    · rcases hget₁ g with hg₁ | ⟨hg₁, hnone₁⟩
      · exact .inl (hg.trans hg₁)
      · exact .inr ⟨hg.trans hg₁, List.forall_mem_cons.mpr ⟨hnone₁, hnone⟩⟩

/-- After a block its configuration is the current one, and the one before it is done. -/
theorem foldl_block (hc : c.Trimmed) {ls : List (List Char)} (h : Block c ls) :
    ls.foldl parseLine st = (st.1 ++ st.2.toList, some c) := by
  obtain ⟨header, body, rfl, hheader, hbody, hall⟩ := h
  obtain ⟨cur, hfold, hname, hget⟩ := foldl_body (st.1 ++ st.2.toList) { name := c.name } hc hbody
  rw [List.foldl_cons, parseLine_header hheader hc.name, hfold]
  have heq : cur = c := by
    refine eq_of_get hname fun f => ?_
    rcases hget f with hf | ⟨hf, hnone⟩
    · exact hf
    · have hempty : ({ name := c.name } : ParsedOciCfg).get f = [] := by
        cases f <;> rfl
      by_cases hne : c.get f = []
      · rw [hf, hempty, hne]
      · obtain ⟨l, hl, hassigns⟩ := hall f hne
        exact absurd hassigns (hnone l hl)
  rw [heq]

/-! ## All lines -/

theorem foldl_above {above : List (List Char)} (h : ∀ l ∈ above, ¬ Bracketed (trimSpace l)) :
    above.foldl parseLine (done, none) = (done, none) := by
  induction above with
  | nil => rfl
  | cons l above ih =>
    obtain ⟨hl, habove⟩ := List.forall_mem_cons.mp h
    rw [List.foldl_cons, parseLine_above hl, ih habove]

theorem foldl_blocks {cs : List ParsedOciCfg} {blocks : List (List (List Char))} (hc : ∀ c ∈ cs, c.Trimmed)
    (h : List.Forall₂ Block cs blocks) :
    (blocks.flatten.foldl parseLine st).1 ++ (blocks.flatten.foldl parseLine st).2.toList =
      (st.1 ++ st.2.toList) ++ cs := by
  induction h generalizing st with
  | nil => simp
  | cons hblock _ ih =>
    obtain ⟨hfirst, hrest⟩ := List.forall_mem_cons.mp hc
    rw [List.flatten_cons, List.foldl_append, foldl_block hfirst hblock, ih hrest]
    simp

/-- The lines of a text, whether they fit into the buffer or not. -/
def unlimited (content : List Char) : List (List Char) :=
  Lines.complete '\n' content ++ if Lines.rest '\n' content = [] then [] else [Lines.rest '\n' content]

theorem unlimited_cons {l : List Char} (h : '\n' ∉ l) (content : List Char) :
    unlimited (l ++ '\n' :: content) = l :: unlimited content := by
  unfold unlimited Lines.complete Lines.rest
  rw [Lines.scan_append_cons '\n' h]
  rfl

/-- An empty last line is the end of the line before it. -/
theorem unlimited_intercalate {ls : List (List Char)} (h : ∀ l ∈ ls, '\n' ∉ l) :
    ls = unlimited (['\n'].intercalate ls) ∨ ls = unlimited (['\n'].intercalate ls) ++ [[]] := by
  induction ls with
  | nil => exact .inl rfl
  | cons l ls ih =>
    obtain ⟨hl, hls⟩ := List.forall_mem_cons.mp h
    cases ls with
    | nil =>
      rw [List.intercalate_singleton]
      unfold unlimited Lines.complete Lines.rest
      rw [Lines.scan_of_notMem '\n' hl]
      by_cases hnil : l = []
      · exact .inr (by simp [hnil])
      · exact .inl (by simp [hnil])
    | cons l' ls =>
      rw [List.intercalate_cons_cons, List.append_assoc, List.singleton_append, unlimited_cons hl]
      rcases ih hls with hrest | hrest
      · exact .inl (congrArg (List.cons l) hrest)
      · exact .inr (congrArg (List.cons l) hrest)

def Short (l : List Char) : Prop := (l.map Char.utf8Size).sum < 65536

theorem foldl_scanned {ls : List (List Char)} (h : ∀ l ∈ ls, '\n' ∉ l) (hshort : ∀ l ∈ ls, Short l) :
    (scanned (['\n'].intercalate ls)).foldl parseLine st = ls.foldl parseLine st := by
  have hall : ∀ l ∈ unlimited (['\n'].intercalate ls), Short l := by
    intro l hl
    apply hshort
    rcases unlimited_intercalate h with heq | heq
    · exact heq ▸ hl
    · rw [heq]
      exact List.mem_append_left _ hl
  have hscanned : scanned (['\n'].intercalate ls) = unlimited (['\n'].intercalate ls) :=
    List.takeWhile_eq_self_iff.mpr fun l hl => decide_eq_true (hall l hl)
  rw [hscanned]
  rcases unlimited_intercalate h with heq | heq
  · rw [← heq]
  · conv =>
      rhs
      rw [heq, List.foldl_append]
    rfl

/-- **A text of configurations is read back**, whatever stands in the names and the values. -/
theorem parseOciConfigText_rendered {cs : List ParsedOciCfg} {ls : List (List Char)} (hc : ∀ c ∈ cs, c.Trimmed)
    (hr : Rendered cs ls) (hlines : ∀ l ∈ ls, '\n' ∉ l) (hshort : ∀ l ∈ ls, Short l) :
    parseOciConfigText (['\n'].intercalate ls) = cs := by
  obtain ⟨above, blocks, rfl, habove, hblocks⟩ := hr
  unfold parseOciConfigText
  rw [foldl_scanned hlines hshort, List.foldl_append, foldl_above habove]
  exact foldl_blocks hc hblocks

/-! ## Texts for every list -/

def renderBlock (c : ParsedOciCfg) : List (List Char) :=
  ('[' :: (c.name ++ [']'])) ::
    [Field.user, .fingerprint, .tenancy, .region, .keyFile].map fun f => f.key ++ ' ' :: '=' :: ' ' :: c.get f

def render (cs : List ParsedOciCfg) : List (List Char) := (cs.map renderBlock).flatten

theorem block_renderBlock (c : ParsedOciCfg) : Block c (renderBlock c) := by
  have hblank : Blank [] := fun c hc => absurd hc List.not_mem_nil
  have hspace : Blank [' '] := by
    intro c hc
    obtain rfl := List.mem_singleton.mp hc
    rfl
  have hassigns : ∀ f : Field, Assigns f (c.get f) (f.key ++ ' ' :: '=' :: ' ' :: c.get f) := fun f =>
    ⟨[], [' '], [' '], [], hblank, hspace, hspace, hblank, by simp⟩
  refine ⟨_, _, rfl, ⟨[], [], [], [], hblank, hblank, hblank, hblank, by simp⟩, ?_, ?_⟩
  · intro l hl
    obtain ⟨f, -, rfl⟩ := List.mem_map.mp hl
    exact .inr ⟨f, hassigns f⟩
  · intro f _
    refine ⟨_, List.mem_map.mpr ⟨f, ?_, rfl⟩, hassigns f⟩
    cases f <;> simp

theorem rendered_render (cs : List ParsedOciCfg) : Rendered cs (render cs) := by
  refine ⟨[], cs.map renderBlock, rfl, by simp, ?_⟩
  induction cs with
  | nil => exact .nil
  | cons c cs ih => exact .cons (block_renderBlock c) ih

/-! ## A text by hand -/

def byHand : List ParsedOciCfg :=
  [{ name := "a]=[b".toList, userOCID := "[u]=1".toList }, { name := "c".toList, region := "eu".toList }]

def aboveByHand : List (List Char) := ["; two".toList, "user = none".toList]

def blockByHand : List (List Char) :=
  [" [ a]=[b ]\r".toList, "# user = x".toList, "passphrase=x".toList, [], "user=[u]=1 ".toList]

theorem block_blockByHand : Block { name := "a]=[b".toList, userOCID := "[u]=1".toList } blockByHand := by
  have hblank : Blank [] := fun c hc => absurd hc List.not_mem_nil
  have hspace : Blank [' '] := by simp [Blank, isSpace]
  have hreturn : Blank ['\r'] := by simp [Blank, isSpace]
  have huser : Assigns .user "[u]=1".toList "user=[u]=1 ".toList :=
    ⟨[], [], [], [' '], hblank, hblank, hblank, hspace, rfl⟩
  have hcomment : Noise "# user = x".toList :=
    ⟨by decide +kernel, fun _ f => by cases f <;> decide +kernel⟩
  have hunknown : Noise "passphrase=x".toList :=
    ⟨by decide +kernel, fun _ f => by cases f <;> decide +kernel⟩
  have hempty : Noise [] := ⟨by decide +kernel, fun h => absurd h (by decide +kernel)⟩
  refine ⟨_, _, rfl, ⟨[' '], [' '], [' '], ['\r'], hspace, hspace, hspace, hreturn, rfl⟩, ?_, ?_⟩
  · simp only [List.forall_mem_cons]
    exact ⟨.inl hcomment, .inl hunknown, .inl hempty, .inr ⟨.user, huser⟩, by simp⟩
  · intro f hf
    cases f with
    | user => exact ⟨_, by simp, huser⟩
    | fingerprint | tenancy | region | keyFile => exact absurd rfl hf

theorem byHand_read : parseOciConfigText
    (['\n'].intercalate (aboveByHand ++ (blockByHand ++ renderBlock { name := "c".toList, region := "eu".toList }))) =
      byHand := by
  have htrim : ∀ c ∈ byHand, c.Trimmed := by
    simp only [byHand, List.forall_mem_cons]
    refine ⟨⟨rfl, fun f => ?_⟩, ⟨rfl, fun f => ?_⟩, by simp⟩ <;> cases f <;> rfl
  refine parseOciConfigText_rendered htrim
    ⟨aboveByHand, [blockByHand, renderBlock { name := "c".toList, region := "eu".toList }], ?_, ?_,
      .cons block_blockByHand (.cons (block_renderBlock _) .nil)⟩ ?_ ?_
  · simp
  · decide +kernel
  · decide +kernel
  · unfold Short
    decide +kernel

end OciHelper.Oci.Uploads
