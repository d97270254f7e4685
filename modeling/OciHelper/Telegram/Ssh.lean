import Mathlib.Data.List.Infix
import OciHelper.Backup.Archive
import OciHelper.Lib.Shell

/-!
# Remote commands

* `tgSSHValidateCommand` : the check of a command, part by part; `tgSSHExec` : what is sent to the remote host;
* `blocked` : a program that should not be run, by its name or with its first argument;
* `Open` : a part of a pipeline whose program is written as the shell reads it;
* `blocked_not_run_iff` : an accepted command runs no blocked program in its open parts, and so none at all just when
  the others do not spell one;
* `hidden_by_disguise` : nothing of `Open` can be left out.

The remote host and its answer are left out.
-/

namespace OciHelper.Telegram.Ssh
open Text Shell OciHelper.Backup

/-! ## The check -/

def tgInteractiveCommands : List (List Char) :=
  ["vi", "vim", "nano", "emacs", "top", "htop", "less", "more", "tail -f", "watch", "ssh", "telnet", "ftp", "mysql",
    "psql", "python", "node", "irb", "php -a", "bash", "sh", "su", "sudo"].map String.toList

def wrappers : List (List Char) :=
  ["env", "xargs", "nohup", "time", "nice", "timeout", "stdbuf", "command", "eval", "exec", "busybox"].map String.toList

def isWrapper (base : List Char) : Bool := wrappers.any (· = base)

def operators : List (List Char) :=
  [";", "&&", "||", "\x60", "$", "\n", "\r", ">", "<", "&", "(", ")", "\x7b", "\x7d"].map String.toList

def checkSegment (seg : List Char) : Option String :=
  match fields seg with
  | [] => some "❌ 命令包含空的管道段。"
  | name :: args =>
    if isWrapper (base name) then some "❌ 不支持包装命令（env/xargs/timeout/exec 等）。"
    else if tgInteractiveCommands.any fun ic => base name = ic || args.head?.any fun arg => base name ++ ' ' :: arg = ic then
      some "❌ 不支持交互式命令（如 vi, top, tail -f 等），请使用非交互式命令。"
    else none

def tgSSHValidateCommand (command : List Char) : String :=
  if operators.any fun op => op <:+: command then
    "❌ 命令不能包含 shell 元字符（; & < > $ \x60 ( ) \x7b \x7d ||）。"
  else ((command.splitOn '|').findSome? checkSegment).getD ""

def trimPrefix (front s : List Char) : List Char := if front <+: s then s.drop front.length else s

/-- The command that is sent, or the answer to the chat. -/
def tgSSHExec (configured : Bool) (text : List Char) : Except String (List Char) :=
  if ¬ configured then .error "未配置 SSH 连接，请先使用 /ssh_config host port user pwd 配置。"
  else
    let command := trimSpace (trimPrefix "/ssh".toList text)
    if command = [] then .error "用法: /ssh <命令>，例如 /ssh ls -la"
    else if tgSSHValidateCommand command ≠ "" then .error (tgSSHValidateCommand command)
    else .ok command

/-! ## Blocked programs -/

/-- A wrapper, an entry of one word, or an entry of two words with the first argument. -/
def blocked : List (List Char) → Bool
  | [] => false
  | name :: args => isWrapper (base name) || tgInteractiveCommands.any fun ic => fields ic <+: base name :: args

/-- An entry of two words begins with the name. -/
def hasArgument (name : List Char) : Bool :=
  tgInteractiveCommands.any fun ic => (fields ic).length = 2 && (fields ic).head? = some (base name)

/-- Nothing stands before the name, and it has no quote, backslash or white space, nor has an argument that counts. -/
def Open (ws : List Shell.Word) : Prop :=
  program ws = ws ∧ ∀ w ∈ ws.head?, w.plain = true ∧
    (hasArgument w.text = true → ∀ w' ∈ ws.tail.head?, w'.plain = true)

instance (ws : List Shell.Word) : Decidable (Open ws) := inferInstanceAs (Decidable (_ ∧ _))

theorem blocked_cons_iff {name : List Char} {args : List (List Char)} : blocked (name :: args) ↔
    isWrapper (base name) ∨ ∃ ic ∈ tgInteractiveCommands, fields ic <+: base name :: args := by
  simp only [blocked, Bool.or_eq_true, decide_eq_true_eq, List.any_eq_true]

theorem blocked_mono {words words' : List (List Char)} (h : words <+: words') (hb : blocked words) :
    blocked words' := by
  cases words with
  | nil => exact absurd hb Bool.false_ne_true
  | cons name args =>
    obtain ⟨more, rfl⟩ := h
    refine blocked_cons_iff.mpr ((blocked_cons_iff.mp hb).imp_right ?_)
    rintro ⟨ic, hic, hfields⟩
    exact ⟨ic, hic, hfields.trans (List.prefix_append (base name :: args) more)⟩

/-- An entry is one word, or two with a blank between them. -/
theorem interactive_fields : ∀ ic ∈ tgInteractiveCommands,
    fields ic ≠ [] ∧ (fields ic).length ≤ 2 ∧ [' '].intercalate (fields ic) = ic := by
  decide

theorem checkSegment_of_blocked {seg : List Char} (h : blocked (fields seg)) : checkSegment seg ≠ none := by
  unfold checkSegment
  split
  · exact Option.some_ne_none _
  · next name args hseg =>
    rw [hseg] at h
    split_ifs with hwrapper hentry
    · exact Option.some_ne_none _
    · exact Option.some_ne_none _
    · obtain ⟨ic, hic, hfields⟩ := (blocked_cons_iff.mp h).resolve_left hwrapper
      obtain ⟨hne, hlen, htext⟩ := interactive_fields ic hic
      refine absurd (List.any_eq_true.mpr ⟨ic, hic, ?_⟩) hentry
      rw [← htext]
      generalize fields ic = words at hne hlen hfields
      match words, args, hfields with
      | [], _, _ => exact absurd rfl hne
      | [word], _, hfields =>
        have hname : word = base name := (List.cons_prefix_cons.mp hfields).1
        simp [hname, List.intercalate]
      | [_, _], [], hfields => exact absurd (List.cons_prefix_cons.mp hfields).2 (by simp)
      | [word, word'], arg :: _, hfields =>
        obtain ⟨hname, htail⟩ := List.cons_prefix_cons.mp hfields
        have harg : word' = arg := (List.cons_prefix_cons.mp htail).1
        simp [hname, harg, List.intercalate]
      | _ :: _ :: _ :: _, _, _ => exact absurd hlen (by simp)

theorem checkSegment_ne_empty {seg : List Char} {message : String} (h : checkSegment seg = some message) :
    message ≠ "" := by
  unfold checkSegment at h
  split at h
  · cases h; decide
  · split_ifs at h
    · cases h; decide
    · cases h; decide

/-- A command with a part that begins with a blocked program is refused. -/
theorem refused_of_blocked {command seg : List Char} (hseg : seg ∈ command.splitOn '|') (h : blocked (fields seg)) :
    tgSSHValidateCommand command ≠ "" := by
  unfold tgSSHValidateCommand
  split_ifs
  · decide
  · cases hfind : (command.splitOn '|').findSome? checkSegment with
    | none => exact absurd (List.findSome?_eq_none_iff.mp hfind seg hseg) (checkSegment_of_blocked h)
    | some message =>
      obtain ⟨seg', -, hseg'⟩ := List.exists_of_findSome?_eq_some hfind
      exact checkSegment_ne_empty hseg'

/-- The plain words of an open part show a blocked program. -/
theorem shown_of_open {command : List Char} {ws : List Shell.Word} (h : ws ∈ pipeline command) (hopen : Open ws)
    (hrun : blocked (argv ws)) : blocked (shown ws) := by
  have hvalue := value_of_plain h
  obtain ⟨hprogram, hplain⟩ := hopen
  rw [argv, hprogram] at hrun
  cases ws with
  | nil => exact absurd hrun Bool.false_ne_true
  | cons w rest =>
    obtain ⟨hw, hargument⟩ := hplain w rfl
    rw [List.map_cons, hvalue w (List.mem_cons_self ..) hw] at hrun
    rw [shown_cons hw]
    refine blocked_cons_iff.mpr ((blocked_cons_iff.mp hrun).imp_right ?_)
    rintro ⟨ic, hic, hfields⟩
    refine ⟨ic, hic, ?_⟩
    obtain ⟨hne, hlen, -⟩ := interactive_fields ic hic
    have htwo : ∀ {word word' : List Char}, fields ic = [word, word'] → word = base w.text →
        hasArgument w.text = true := by
      intro word word' he hword
      refine List.any_eq_true.mpr ⟨ic, hic, ?_⟩
      simp [he, hword]
    generalize fields ic = words at hne hlen hfields htwo
    match words, hfields with
    | [], _ => exact absurd rfl hne
    | [word], hfields =>
      rw [(List.cons_prefix_cons.mp hfields).1]
      exact List.cons_prefix_cons.mpr ⟨rfl, List.nil_prefix⟩
    | [word, word'], hfields =>
      obtain ⟨hname, htail⟩ := List.cons_prefix_cons.mp hfields
      -- the entry has an argument, and so the part has one, which is plain
      match rest, htail with
      | [], htail => exact absurd htail (by simp)
      | w' :: rest', htail =>
        have hw' := hargument (htwo rfl hname) w' rfl
        have harg : word' = w'.value := (List.cons_prefix_cons.mp htail).1
        rw [hvalue w' (List.mem_cons_of_mem _ (List.mem_cons_self ..)) hw'] at harg
        rw [shown_cons hw', hname, harg]
        exact List.cons_prefix_cons.mpr ⟨rfl, List.cons_prefix_cons.mpr ⟨rfl, List.nil_prefix⟩⟩
    | _ :: _ :: _ :: _, _ => exact absurd hlen (by simp)

/-- Only an accepted command is sent. -/
theorem exec_eq_ok_iff {configured : Bool} {text command : List Char} : tgSSHExec configured text = .ok command ↔
    configured ∧ trimSpace (trimPrefix "/ssh".toList text) = command ∧ command ≠ [] ∧
      tgSSHValidateCommand command = "" := by
  unfold tgSSHExec
  generalize trimSpace (trimPrefix "/ssh".toList text) = trimmed
  split
  · next hconfigured => exact iff_of_false (fun h => nomatch h) fun h => hconfigured h.1
  · next hconfigured =>
    dsimp only
    split
    · next hempty => exact iff_of_false (fun h => nomatch h) fun ⟨_, he, hne, _⟩ => hne (he ▸ hempty)
    · next hne =>
      split
      · next hrefused => exact iff_of_false (fun h => nomatch h) fun ⟨_, he, _, h⟩ => hrefused (he ▸ h)
      · next haccepted =>
        rw [Except.ok.injEq]
        constructor
        · rintro rfl
          exact ⟨not_not.mp hconfigured, rfl, hne, not_not.mp haccepted⟩
        · exact fun h => h.2.1

/-- **An accepted command runs no blocked program in its open parts**, and none at all just when the quotes and prefixes
of the others do not spell one. -/
theorem blocked_not_run_iff {command : List Char} (h : tgSSHValidateCommand command = "") :
    (∀ ws ∈ pipeline command, Open ws → ¬ blocked (argv ws)) ∧
    ((∀ ws ∈ pipeline command, ¬ blocked (argv ws)) ↔
      ∀ ws ∈ pipeline command, ¬ Open ws → ¬ blocked (argv ws)) := by
  have hopen : ∀ ws ∈ pipeline command, Open ws → ¬ blocked (argv ws) := by
    intro ws hws hopen hrun
    obtain ⟨seg, hseg, hfields⟩ := fields_of_pipeline hws
    exact refused_of_blocked hseg (blocked_mono hfields (shown_of_open hws hopen hrun)) h
  refine ⟨hopen, fun hnot ws hws _ => hnot ws hws, fun hnot ws hws => ?_⟩
  by_cases ho : Open ws
  · exact hopen ws hws ho
  · exact hnot ws hws ho

theorem plain_command_safe : tgSSHValidateCommand "ls -la 'my dir' | wc -l".toList = "" ∧
    ∀ ws ∈ pipeline "ls -la 'my dir' | wc -l".toList, ¬ blocked (argv ws) := by
  have haccepted : tgSSHValidateCommand "ls -la 'my dir' | wc -l".toList = "" := by decide +kernel
  have hopen : ∀ ws ∈ pipeline "ls -la 'my dir' | wc -l".toList, Open ws := by decide +kernel
  exact ⟨haccepted, fun ws hws => (blocked_not_run_iff haccepted).1 ws hws (hopen ws hws)⟩

/-- The quotes are part of the name that is compared, and the shell removes them. -/
theorem quoted_program_run : tgSSHExec true "/ssh 'vi' x".toList = .ok "'vi' x".toList ∧
    tgSSHValidateCommand "'vi' x".toList = "" ∧ ∃ ws ∈ pipeline "'vi' x".toList, blocked (argv ws) := by
  have haccepted : tgSSHValidateCommand "'vi' x".toList = "" := by decide +kernel
  have htrimmed : trimSpace (trimPrefix "/ssh".toList "/ssh 'vi' x".toList) = "'vi' x".toList := by decide +kernel
  exact ⟨exec_eq_ok_iff.mpr ⟨rfl, htrimmed, by decide, haccepted⟩, haccepted, by decide +kernel⟩

/-- A name in quotes, after a backslash, after an assignment, after `!`, and after a directory with white space in its
name that is no blank. -/
def disguises : List (List Char → List Char) :=
  [fun name => '\'' :: name ++ ['\''], fun name => '\\' :: name, fun name => "x=1 ".toList ++ name,
    fun name => "! ".toList ++ name, fun name => "/\u00a0/".toList ++ name]

/-- Under each of these every wrapper and every entry of one word is accepted and run. -/
theorem hidden_by_disguise : ∀ disguise ∈ disguises, ∀ name ∈ wrappers ++ tgInteractiveCommands.filter (' ' ∉ ·),
    tgSSHValidateCommand (disguise name) = "" ∧ ∃ ws ∈ pipeline (disguise name), blocked (argv ws) := by
  decide +kernel

end OciHelper.Telegram.Ssh
