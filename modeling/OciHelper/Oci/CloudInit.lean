import OciHelper.Lib.Yaml

/-!
# The user data of a new instance

* `cloudInit`, `BuildCloudInit`, `buildCloudInit` : the text from the password, in its two copies;
* `SetsExactly` : the text gives the password to `root`, and no other password makes it say anything else;
* `block_ne` : the list of passwords never has the password as it is;
* `read_cloudInit` : what the text says for a password that breaks no line.
-/

namespace OciHelper.Oci.CloudInit
open Yaml

/-! ## The text -/

def opener : List Char := "  list: |".toList

def header : List (List Char) := ["#cloud-config".toList, "ssh_pwauth: yes".toList, "chpasswd:".toList]

/-- The lines after the list. -/
def script : List (List Char) :=
  [
    "  expire: false",
    "write_files:",
    "  - path: /tmp/setup_root_access.sh",
    "    permissions: '0700'",
    "    content: |",
    "      #!/bin/bash",
    "      if [ -f /etc/os-release ]; then",
    "        . /etc/os-release",
    "        OS=$ID",
    "      else",
    "        exit 1",
    "      fi",
    "      OS=$(echo \"$OS\" | tr '[:upper:]' '[:lower:]')",
    "      sed -i 's/^#\\?PasswordAuthentication.*/PasswordAuthentication yes/' /etc/ssh/sshd_config",
    "      sed -i 's/^#\\?PermitRootLogin.*/PermitRootLogin yes/' /etc/ssh/sshd_config",
    "      if grep -q '^#\\?PrintMotd' /etc/ssh/sshd_config; then",
    "        sed -i 's/^#\\?PrintMotd.*/PrintMotd no/' /etc/ssh/sshd_config",
    "      else",
    "        echo 'PrintMotd no' >> /etc/ssh/sshd_config",
    "      fi",
    "      if grep -q '^#\\?PrintLastLog' /etc/ssh/sshd_config; then",
    "        sed -i 's/^#\\?PrintLastLog.*/PrintLastLog no/' /etc/ssh/sshd_config",
    "      else",
    "        echo 'PrintLastLog no' >> /etc/ssh/sshd_config",
    "      fi",
    "      case $OS in",
    "        ubuntu|debian)",
    "          if grep -q '^#\\?DenyUsers' /etc/ssh/sshd_config; then",
    "            sed -i 's/^#\\?DenyUsers.*/DenyUsers ubuntu/' /etc/ssh/sshd_config",
    "          else",
    "            echo 'DenyUsers ubuntu' >> /etc/ssh/sshd_config",
    "          fi",
    "          ;;",
    "        ol|rhel|centos|almalinux|rocky)",
    "          if grep -q '^#\\?DenyUsers' /etc/ssh/sshd_config; then",
    "            sed -i 's/^#\\?DenyUsers.*/DenyUsers opc/' /etc/ssh/sshd_config",
    "          else",
    "            echo 'DenyUsers opc' >> /etc/ssh/sshd_config",
    "          fi",
    "          ;;",
    "      esac",
    "      if command -v systemctl >/dev/null 2>&1; then",
    "        systemctl restart sshd 2>/dev/null || systemctl restart ssh 2>/dev/null || true",
    "      else",
    "        service sshd restart 2>/dev/null || service ssh restart 2>/dev/null || true",
    "      fi",
    "runcmd:",
    "  - [ bash, /tmp/setup_root_access.sh ]",
    "  - echo 'Welcome to oci-helper managed instance' > /etc/motd",
    "  - rm -f /tmp/setup_root_access.sh"
  ].map String.toList

def sanitize (password : List Char) : List Char :=
  password.filter fun r => ¬ (r = '\n' ∨ r = '\r' ∨ r = '\t' ∨ r.toNat = 0) ∧ ¬ r.toNat < 32

def escapeQuotes (s : List Char) : List Char := s.flatMap fun c => if c = '\'' then ['\'', '\\', '\'', '\''] else [c]

def quotedPwd (password : List Char) : List Char := '\'' :: (escapeQuotes (sanitize password) ++ ['\''])

def root : List Char := "root:".toList

def rootLine (password : List Char) : List Char := [' ', ' ', ' ', ' '] ++ root ++ quotedPwd password

def cloudInit (password : List Char) : List Char :=
  (header ++ opener :: rootLine password :: script).flatMap (· ++ ['\n'])

def BuildCloudInit (password : List Char) : List Char := cloudInit password

def buildCloudInit (password : List Char) : List Char := cloudInit password

/-- The password in the list is the one that the program keeps, and the rest is the same for every password. -/
structure SetsExactly (build : List Char → List Char) (p : List Char) : Prop where
  list : ∃ r, readBlock opener (build p) = some r ∧ r.block = [root ++ p]
  rest : ∀ q ≠ [], ∃ r r', readBlock opener (build p) = some r ∧ readBlock opener (build q) = some r' ∧
    r'.before = r.before ∧ r'.after = r.after

/-! ## Lines of the text -/

theorem header_clean : ∀ l ∈ header ++ [opener], ∀ c ∈ l, isBreak c = false ∧ isPrintable c = true := by
  suffices h : (header ++ [opener]).all (fun l => l.all fun c => isBreak c = false ∧ isPrintable c = true) = true from
    fun l hl => forall_mem_of_all (List.all_eq_true.mp h l hl)
  unfold header opener
  repeat rw [String.toList_ofList]
  decide +kernel

theorem script_clean : ∀ l ∈ script, ∀ c ∈ l, isBreak c = false ∧ isPrintable c = true := by
  suffices h : script.all (fun l => l.all fun c => isBreak c = false ∧ isPrintable c = true) = true from
    fun l hl => forall_mem_of_all (List.all_eq_true.mp h l hl)
  simp only [script, List.map_cons, List.map_nil]
  repeat rw [String.toList_ofList]
  decide +kernel

/-- The line of the password and those after it. -/
def tail (password : List Char) : List (List Char) :=
  lines (rootLine password ++ '\n' :: script.flatMap (· ++ ['\n']))

theorem lines_cloudInit (p : List Char) : lines (cloudInit p) = header ++ opener :: tail p := by
  have hsplit : header ++ opener :: rootLine p :: script = (header ++ [opener]) ++ rootLine p :: script :=
    List.append_cons ..
  have hclean : ∀ l ∈ header ++ [opener], ∀ c ∈ l, isBreak c = false := fun l hl c hc => (header_clean l hl c hc).1
  rw [cloudInit, hsplit, List.flatMap_append, lines_unlines hclean, List.flatMap_cons, List.append_assoc,
    List.append_assoc]
  rfl

theorem opener_notMem_header : opener ∉ header := by decide +kernel

theorem indent_opener : indent opener = 2 := by decide +kernel

theorem readBlock_cloudInit {p : List Char} (h : (cloudInit p).all isPrintable = true) :
    readBlock opener (cloudInit p) = some ⟨header, (literal 2 (tail p)).1, (literal 2 (tail p)).2⟩ := by
  rw [readBlock_eq h (lines_cloudInit p) opener_notMem_header, indent_opener]

/-! ## The list of passwords -/

/-- Four blanks, the name and a quote. -/
def front : List Char := [' ', ' ', ' ', ' ', 'r', 'o', 'o', 't', ':', '\'']

theorem root_eq : root = ['r', 'o', 'o', 't', ':'] := String.toList_ofList

theorem rootLine_eq (p : List Char) : rootLine p = front ++ (escapeQuotes (sanitize p) ++ ['\'']) := by
  rw [rootLine, root_eq]
  rfl

/-- The line of the password begins with four blanks, and goes on with the name. -/
theorem tail_head (p : List Char) : ∃ s rest, tail p = (front ++ s) :: rest := by
  have hfront : ∀ c ∈ front, isBreak c = false := forall_mem_of_all (by decide)
  obtain ⟨l, rest, h⟩ := exists_lines_cons
    (escapeQuotes (sanitize p) ++ ['\''] ++ '\n' :: script.flatMap (· ++ ['\n']))
  rw [tail, rootLine_eq, List.append_assoc, lines_append hfront, h]
  exact ⟨l, rest, rfl⟩

theorem front_append (s : List Char) : isEmpty (front ++ s) = false ∧ indent (front ++ s) = 4 ∧
    (front ++ s).drop 4 = root ++ '\'' :: s := by
  refine ⟨rfl, rfl, ?_⟩
  rw [root_eq]
  rfl

/-- The characters of the line are those of the password and these. -/
theorem mem_rootLine {p : List Char} {c : Char} (h : c ∈ rootLine p) : c ∈ p ∨ c ∈ '\\' :: front := by
  have hquote : '\'' ∈ '\\' :: front := by decide
  have hescape : c ∈ escapeQuotes (sanitize p) → c ∈ p ∨ c ∈ '\\' :: front := by
    intro h
    obtain ⟨d, hd, hc⟩ := List.mem_flatMap.mp h
    split at hc
    · have hsub : ∀ c ∈ ['\'', '\\', '\'', '\''], c ∈ '\\' :: front := forall_mem_of_all (by decide)
      exact .inr (hsub c hc)
    · obtain rfl := List.mem_singleton.mp hc
      exact .inl (List.mem_of_mem_filter hd)
  rw [rootLine_eq] at h
  obtain h | h := List.mem_append.mp h
  · exact .inr (List.mem_cons_of_mem _ h)
  · obtain h | h := List.mem_append.mp h
    · exact hescape h
    · exact .inr (List.mem_singleton.mp h ▸ hquote)

theorem rootLine_notBreak {p : List Char} (h : ∀ c ∈ p, isBreak c = false) : ∀ c ∈ rootLine p, isBreak c = false := by
  have hfront : ∀ c ∈ '\\' :: front, isBreak c = false := forall_mem_of_all (by decide)
  exact fun c hc => (mem_rootLine hc).elim (h c) (hfront c)

/-- A password without line breaks is on one line. -/
theorem tail_eq {p : List Char} (h : ∀ c ∈ p, isBreak c = false) : tail p = rootLine p :: (script ++ [[]]) := by
  have hscript : ∀ l ∈ script, ∀ c ∈ l, isBreak c = false := fun l hl c hc => (script_clean l hl c hc).1
  have hlines := lines_unlines hscript []
  rw [List.append_nil] at hlines
  rw [tail, lines_line (rootLine_notBreak h), hlines]
  rfl

theorem count_quotedPwd (p : List Char) : (quotedPwd p).count '\'' = 3 * p.count '\'' + 2 := by
  have hescape : ∀ s : List Char, (escapeQuotes s).count '\'' = 3 * s.count '\'' := by
    intro s
    induction s with
    | nil => rfl
    | cons c s ih =>
      rw [escapeQuotes, List.flatMap_cons, List.count_append, ← escapeQuotes, ih, List.count_cons]
      by_cases hc : c = '\''
      · rw [if_pos hc, if_pos (beq_iff_eq.mpr hc)]
        change 3 + _ = _
        omega
      · rw [if_neg hc, if_neg (by simpa using hc), List.count_singleton, if_neg (by simpa using hc)]
        omega
  have hsanitize : (sanitize p).count '\'' = p.count '\'' := List.count_filter (by decide)
  rw [quotedPwd, List.count_cons_self, List.count_append, hescape, hsanitize]
  rfl

/-- **No password is in the list as it is.** -/
theorem block_ne {p : List Char} {r : Reading} (h : readBlock opener (cloudInit p) = some r) :
    r.block ≠ [root ++ p] := by
  have htext : (cloudInit p).all isPrintable = true := by
    by_contra hnot
    rw [readBlock, if_pos hnot] at h
    cases h
  rw [readBlock_cloudInit htext] at h
  cases h
  intro hblock
  obtain ⟨s, rest, htail⟩ := tail_head p
  obtain ⟨hempty, hindent, hdrop⟩ := front_append s
  obtain ⟨more, hhead⟩ := @literal_head 2 _ hempty (by rw [hindent]; decide) rest
  rw [htail, hhead, hindent, hdrop] at hblock
  have hp : p = '\'' :: s := (List.append_cancel_left (List.cons.inj hblock).1).symm
  -- the entry is a line of the text, so that it has no line break
  have hline : ∀ c ∈ front ++ s, isBreak c = false := notBreak_of_mem_lines (htail ▸ List.mem_cons_self ..)
  have hbreak : ∀ c ∈ p, isBreak c = false := by
    rw [hp]
    exact List.forall_mem_cons.mpr ⟨by decide, fun c hc => hline c (List.mem_append_right _ hc)⟩
  have hwhole : front ++ s = rootLine p := (List.cons.inj (htail.symm.trans (tail_eq hbreak))).1
  rw [rootLine_eq] at hwhole
  have hquoted : p = quotedPwd p := hp.trans (congrArg _ (List.append_cancel_left hwhole))
  -- the quotes are three for one, and two more
  have hcount := count_quotedPwd p
  rw [← hquoted] at hcount
  omega

/-! ## Passwords without line breaks -/

theorem all_isPrintable {p : List Char} (h : ∀ c ∈ p, isPrintable c = true) : (cloudInit p).all isPrintable = true := by
  have hfront : ∀ c ∈ '\\' :: front, isPrintable c = true := forall_mem_of_all (by decide)
  have hlines : ∀ l ∈ header ++ opener :: rootLine p :: script, ∀ c ∈ l, isPrintable c = true := by
    intro l hl c hc
    obtain hl | hl := List.mem_append.mp hl
    · exact (header_clean l (List.mem_append_left _ hl) c hc).2
    · obtain rfl | hl := List.mem_cons.mp hl
      · exact (header_clean opener (List.mem_append_right _ (List.mem_singleton_self _)) c hc).2
      · obtain rfl | hl := List.mem_cons.mp hl
        · exact (mem_rootLine hc).elim (h c) (hfront c)
        · exact (script_clean l hl c hc).2
  refine List.all_eq_true.mpr fun c hc => ?_
  obtain ⟨l, hl, hc⟩ := List.mem_flatMap.mp hc
  obtain hc | hc := List.mem_append.mp hc
  · exact hlines l hl c hc
  · rw [List.mem_singleton.mp hc]
    decide

/-- The line after the list is not in it. -/
theorem script_head : ∃ rest, script = "  expire: false".toList :: rest ∧
    ¬ (isEmpty "  expire: false".toList ∨ 4 ≤ indent "  expire: false".toList) := by
  refine ⟨_, rfl, ?_⟩
  rw [String.toList_ofList]
  decide

/-- **What the text says for a password that breaks no line: the password in quotes, and nothing else changes.** -/
theorem read_cloudInit {p : List Char} (hprint : ∀ c ∈ p, isPrintable c = true) (hbreak : ∀ c ∈ p, isBreak c = false) :
    readBlock opener (cloudInit p) = some ⟨header, [root ++ quotedPwd p], script ++ [[]]⟩ := by
  obtain ⟨hempty, hindent, hdrop⟩ := front_append (escapeQuotes (sanitize p) ++ ['\''])
  rw [← rootLine_eq] at hempty hindent hdrop
  obtain ⟨rest, hscript, hnext⟩ := script_head
  rw [← hindent] at hnext
  have hblock : literal 2 (rootLine p :: (script ++ [[]])) = ([root ++ quotedPwd p], script ++ [[]]) := by
    rw [hscript, List.cons_append, literal_line hempty (by rw [hindent]; decide) hnext, hindent, hdrop]
    rfl
  rw [readBlock_cloudInit (all_isPrintable hprint), tail_eq hbreak, hblock]

/-! ## The result -/

/-- **No password is set exactly.** -/
theorem never_set_exactly (p : List Char) : ¬ SetsExactly BuildCloudInit p ∧ ¬ SetsExactly buildCloudInit p := by
  have hne : ∀ r, readBlock opener (cloudInit p) = some r → r.block ≠ [root ++ p] := fun r h => block_ne h
  constructor
  · rintro ⟨⟨r, h, hblock⟩, -⟩
    exact hne r h hblock
  · rintro ⟨⟨r, h, hblock⟩, -⟩
    exact hne r h hblock

/-- The password `a` becomes `'a'`. -/
theorem quotes_in_password : readBlock opener (BuildCloudInit ['a']) =
    some ⟨header, [root ++ ['\'', 'a', '\'']], script ++ [[]]⟩ ∧ ¬ SetsExactly BuildCloudInit ['a'] := by
  have hread := @read_cloudInit ['a'] (forall_mem_of_all (by decide)) (forall_mem_of_all (by decide))
  refine ⟨hread, ?_⟩
  rintro ⟨⟨r, h, hblock⟩, -⟩
  exact block_ne h hblock

end OciHelper.Oci.CloudInit
