import OciHelper.Recurring.WellFormed
import OciHelper.Telegram.Confirmations

/-!
# The dialogues of a chat

* `Chat` : the seven states that the bot keeps of a chat;
* `Chat.handler` : which of them takes the next message, `commands` if none does;
* `Chat.callback`, `Chat.message` : what a case of the switch and a message do to them;
* `run_ssh_iff` : when the name of a key is awaited;
* `cancel_clears_iff` : after `cancel` the commands take the next message, unless the name of a key is awaited;
* `Shows` : the chat of `Confirmations` is a view of this one.
-/

namespace OciHelper.Telegram.Dialogues
open Text Confirmations

structure TgVolUpdateState where
  tenantID : Int64
  volumeID : Part

inductive RestoreStep
  | password
  | data
  deriving DecidableEq, Repr

structure TgRestoreState where
  step : RestoreStep
  password : List Char := []

structure Chat where
  volUpdate : Option TgVolUpdateState := none
  create : Option Recurring.Dialogue := none
  restore : Option TgRestoreState := none
  defense : Option TgDefenseState := none
  ssh : Bool := false
  mfa : Bool := false
  ai : Bool := false

/-! ## Callbacks -/

theorem colon_notMem_nil : ':' ∉ ([] : List Char) := List.not_mem_nil

/-- No VCN is chosen yet. -/
def noPart : Part := ⟨[], colon_notMem_nil⟩

/-- What a case of the switch does to the states of the chat. -/
def Chat.callback (s : Chat) : Arm → List Arg → Chat
  | .cancel, _ =>
    { s with ai := false, create := none, restore := none, defense := none, volUpdate := none, mfa := false }
  | .ai, _ => { s with ai := true }
  | .mfaDisable, _ => { s with mfa := true }
  | .createTenant, [.num tenantID] => { s with create := some { tenantID := tenantID.toInt } }
  | .defenseTenant, [.num tenantID] => { s with defense := some { step := .vcn, tenantID, vcnID := noPart } }
  | .defenseVcn, [.num tenantID, .part vcnID] => { s with defense := some { step := .cidr, tenantID, vcnID } }
  | .defenseConfirm, _ => { s with defense := none }
  | .disableTenant, [.num tenantID] => { s with defense := some { step := .vcn, tenantID, vcnID := noPart } }
  | .disableVcn, [.num tenantID, .part vcnID] => { s with defense := some { step := .confirm, tenantID, vcnID } }
  | .sshkeysGenerate, _ => { s with ssh := true }
  | .volumeUpdate, [.num tenantID, .part volumeID] => { s with volUpdate := some { tenantID, volumeID } }
  | .backupRestore, _ => { s with restore := some { step := .password } }
  | _, _ => s

/-- A case that indexes out of range does so before it changes a state. -/
def Chat.button (s : Chat) (data : List Char) : Chat :=
  match handleTGCallback data with
  | .selected arm args => s.callback arm args
  | _ => s

/-! ## Messages -/

/-- What takes a message, in the order in which the webhook asks. -/
inductive Handler
  | volumeUpdate
  | create
  | restore
  | defense
  | sshKey
  | mfa
  | ai
  | commands
  deriving DecidableEq, Repr

def Chat.handler (s : Chat) : Handler :=
  if s.volUpdate.isSome then .volumeUpdate
  else if s.create.isSome then .create
  else if s.restore.isSome then .restore
  else if s.defense.any fun st => st.step = .cidr then .defense
  else if s.ssh then .sshKey
  else if s.mfa then .mfa
  else if s.ai then .ai
  else .commands

/-- `restored` says whether `restoreData` accepts the backup. -/
def tgRestoreRespond (st : TgRestoreState) (text : List Char) (restored : Bool) : Option TgRestoreState :=
  match st.step with
  | .password => if trimSpace text = [] then some st else some ⟨.data, trimSpace text⟩
  | .data => if restored then none else some st

variable (reading : Recurring.Reading) (validCIDR : List Char → Bool)

/-- The state of the defense dialogue after a message that it takes. -/
def TgDefenseState.enter (st : TgDefenseState) (text : List Char) : TgDefenseState :=
  if parseCIDRList validCIDR text = [] then st
  else { st with cidrs := parseCIDRList validCIDR text, step := .confirm }

def Chat.message (s : Chat) (text : List Char) (restored : Bool) : Chat :=
  match s.handler with
  | .volumeUpdate => { s with volUpdate := none }
  | .create =>
    { s with create := s.create.bind fun st => (Recurring.tgCreateRespond reading st (String.ofList text)).1 }
  | .restore => { s with restore := s.restore.bind fun st => tgRestoreRespond st text restored }
  | .defense => { s with defense := s.defense.map fun st => TgDefenseState.enter validCIDR st text }
  | .sshKey => { s with ssh := false }
  | .mfa => { s with mfa := false }
  | .ai => if trimSpace text = "/cancel".toList then { s with ai := false } else s
  | .commands => s

/-! ## Runs -/

inductive Event
  | button (data : List Char)
  | message (text : List Char) (restored : Bool)

def step (s : Chat) : Event → Chat
  | .button data => s.button data
  | .message text restored => s.message reading validCIDR text restored

/-- The chat after some callbacks and messages, from one without a dialogue. -/
def run (es : List Event) : Chat := es.foldl (step reading validCIDR) {}

/-- `parts[0]` is `cancel`. -/
def Cancels (data : List Char) : Prop := (parts data)[0]? = some Word.cancel.part

instance (data : List Char) : Decidable (Cancels data) :=
  inferInstanceAs (Decidable ((parts data)[0]? = some Word.cancel.part))

/-- The case `sshkeys:generate` is selected. -/
def Generates (data : List Char) : Prop := select (parts data) = some .sshkeysGenerate

theorem run_snoc (es : List Event) (e : Event) :
    run reading validCIDR (es ++ [e]) = step reading validCIDR (run reading validCIDR es) e := by
  simp [run]

/-! ## Cancelling -/

theorem select_of_cancels {data : List Char} (h : Cancels data) : select (parts data) = some .cancel := by
  have hne : Word.cancel.part ≠ Word.main.part := by decide
  have hmain : ¬ Arm.main.guard.holds (parts data) := by
    rw [Guard.holds, h]
    simp [Arm.guard, hne]
  have hcancel : Arm.cancel.guard.holds (parts data) := by
    rw [Guard.holds, h]
    rfl
  have hall : Arm.all = .main :: .cancel :: Arm.all.drop 2 := rfl
  rw [select, hall]
  simp only [List.find?_cons, hmain, hcancel]

theorem button_of_cancels (s : Chat) {data : List Char} (h : Cancels data) :
    s.button data = { ssh := s.ssh } := by
  unfold Chat.button handleTGCallback
  simp only [select_of_cancels h, Arm.args]
  rfl

/-- Only the name of a key is still awaited after `cancel`. -/
theorem handler_ssh_only (ssh : Bool) :
    ({ ssh := ssh } : Chat).handler = if ssh then .sshKey else .commands := by
  cases ssh <;> rfl

/-! ## When the name of a key is awaited -/

theorem ssh_callback (s : Chat) (arm : Arm) (args : List Arg) :
    (s.callback arm args).ssh = (s.ssh || arm = .sshkeysGenerate) := by
  unfold Chat.callback
  split <;> simp_all

theorem ssh_button (s : Chat) (data : List Char) :
    (s.button data).ssh = true ↔ s.ssh = true ∨ Generates data := by
  unfold Chat.button handleTGCallback Generates
  cases hsel : select (parts data) with
  | none => simp [hsel]
  | some arm =>
    cases hargs : arm.args (parts data) with
    | none =>
      have harm : arm ≠ .sshkeysGenerate := by
        rintro rfl
        cases hargs
      simp [hsel, hargs, harm]
    | some args => simp [hsel, hargs, ssh_callback]

theorem ssh_message (s : Chat) (text : List Char) (restored : Bool) :
    (s.message reading validCIDR text restored).ssh = true ↔ s.ssh = true ∧ s.handler ≠ .sshKey := by
  unfold Chat.message
  cases s.handler with
  | sshKey => simp
  | ai =>
    dsimp only
    split <;> simp
  | _ => simp

theorem step_ssh_iff (s : Chat) (e : Event) :
    (step reading validCIDR s e).ssh = true ↔ (∃ data, e = .button data ∧ Generates data) ∨
      s.ssh = true ∧ ∀ text restored, e = .message text restored → s.handler ≠ .sshKey := by
  cases e with
  | button data =>
    simp only [step, ssh_button]
    constructor
    · rintro (h | h)
      · exact .inr ⟨h, fun _ _ he => by cases he⟩
      · exact .inl ⟨data, rfl, h⟩
    · rintro (⟨data', he, h⟩ | ⟨h, -⟩)
      · cases he
        exact .inr h
      · exact .inl h
  | message text restored =>
    simp only [step, ssh_message]
    constructor
    · rintro ⟨h, hh⟩
      exact .inr ⟨h, fun _ _ _ => hh⟩
    · rintro (⟨data, he, -⟩ | ⟨h, hh⟩)
      · cases he
      · exact ⟨h, hh text restored rfl⟩

/-- A button asked for the name of a key, and no message after it was taken as the name. -/
def Awaits (es : List Event) : Prop :=
  ∃ before data after, es = before ++ .button data :: after ∧ Generates data ∧
    ∀ between text restored rest, after = between ++ .message text restored :: rest →
      (run reading validCIDR (before ++ .button data :: between)).handler ≠ .sshKey

theorem run_ssh_iff (es : List Event) : (run reading validCIDR es).ssh = true ↔ Awaits reading validCIDR es := by
  induction es using List.reverseRecOn with
  | nil =>
    refine iff_of_false (by simp [run]) ?_
    rintro ⟨before, data, after, h, -⟩
    cases before <;> cases h
  | append_singleton es e ih =>
    rw [run_snoc, step_ssh_iff, ih]
    constructor
    · rintro (⟨data, rfl, hgen⟩ | ⟨⟨before, data, after, rfl, hgen, hnone⟩, he⟩)
      · exact ⟨es, data, [], rfl, hgen, fun between _ _ _ h => by cases between <;> cases h⟩
      · refine ⟨before, data, after ++ [e], by simp, hgen, fun between text restored rest h => ?_⟩
        obtain rfl | ⟨rest, last, rfl⟩ := rest.eq_nil_or_concat
        · obtain ⟨rfl, hm⟩ := List.append_inj' h rfl
          exact he text restored (List.singleton_inj.mp hm)
        · rw [List.concat_eq_append, ← List.cons_append, ← List.append_assoc] at h
          exact hnone between text restored rest (List.append_inj' h rfl).1
    · rintro ⟨before, data, after, h, hgen, hnone⟩
      obtain rfl | ⟨after, last, rfl⟩ := after.eq_nil_or_concat
      · obtain ⟨rfl, hm⟩ := List.append_inj' h rfl
        exact .inl ⟨data, List.singleton_inj.mp hm, hgen⟩
      · rw [List.concat_eq_append, ← List.cons_append, ← List.append_assoc] at h
        obtain ⟨rfl, hm⟩ := List.append_inj' h rfl
        obtain rfl := List.singleton_inj.mp hm
        refine .inr ⟨⟨before, data, after, rfl, hgen, fun between text restored rest hr => ?_⟩, ?_⟩
        · exact hnone between text restored (rest ++ [e]) (by simp [hr, List.concat_eq_append])
        · rintro text restored rfl
          exact hnone after text restored [] (List.concat_eq_append ..)

/-! ## After `cancel` -/

/-- After a run that ends with `cancel`, the commands take the next message just when no name of a key is awaited. -/
theorem cancel_clears_iff (es : List Event) {data : List Char} (h : Cancels data) :
    (run reading validCIDR (es ++ [.button data])).handler = .commands ↔ ¬ Awaits reading validCIDR es := by
  rw [run_snoc, ← run_ssh_iff]
  simp only [step, button_of_cancels _ h, handler_ssh_only]
  cases (run reading validCIDR es).ssh <;> simp

/-- A reading that leaves letters alone and knows no floats. -/
def plainReading : Recurring.Reading := ⟨id, fun _ => 0⟩

theorem cancel_ends_create :
    (run plainReading (fun _ => true) ([.button "create:tenant:1".toList] ++ [.button "cancel".toList])).handler =
      .commands := by
  have hcancels : Cancels "cancel".toList := by decide
  refine (cancel_clears_iff plainReading (fun _ => true) _ hcancels).mpr ?_
  rw [← run_ssh_iff]
  decide

/-- The message after `cancel` becomes the name of a key. -/
theorem name_awaited_after_cancel : ¬ ∀ (reading : Recurring.Reading) (validCIDR : List Char → Bool)
    (es : List Event) (data : List Char), Cancels data →
      (run reading validCIDR (es ++ [.button data])).handler = .commands := by
  intro h
  have hcommands := h plainReading (fun _ => true) [.button "sshkeys:generate".toList] "cancel".toList (by decide)
  exact absurd hcommands (by decide)

/-! ## The view of the defense dialogue -/

structure Shows (s : Chat) (c : Confirmations.Chat) : Prop where
  volUpdate : c.volUpdate = s.volUpdate.isSome
  creating : c.creating = s.create.isSome
  restoring : c.restoring = s.restore.isSome
  defense : c.defense = s.defense

variable {reading validCIDR} {s : Chat} {c : Confirmations.Chat}

theorem eq_of_numAndPart {ps : List Part} {idx : Nat} {args : List Arg} (h : numAndPart ps idx = some args) :
    ∃ n p, args = [.num n, .part p] := by
  unfold numAndPart at h
  cases hn : ps[idx]? with
  | none => simp [hn] at h
  | some n =>
    cases hp : ps[idx + 1]? with
    | none => simp [hn, hp] at h
    | some p => exact ⟨number n, p, by simpa [hn, hp] using h.symm⟩

/-- A case of the switch other than the confirmation does the same to both. -/
theorem Shows.callback (h : Shows s c) {arm : Arm} (harm : arm ≠ .defenseConfirm) {ps : List Part} {args : List Arg}
    (hargs : arm.args ps = some args) : Shows (s.callback arm args) (c.callback arm args) := by
  obtain ⟨hv, hc, hr, hd⟩ := h
  cases arm with
  | defenseConfirm => exact absurd rfl harm
  | cancel => exact ⟨rfl, rfl, rfl, rfl⟩
  | backupRestore => exact ⟨hv, hc, rfl, hd⟩
  | createTenant | defenseTenant | disableTenant =>
    obtain ⟨p, -, rfl⟩ := Option.map_eq_some_iff.mp hargs
    constructor <;> first | rfl | assumption
  | defenseVcn | disableVcn | volumeUpdate =>
    obtain ⟨n, p, rfl⟩ := eq_of_numAndPart hargs
    constructor <;> first | rfl | assumption
  | _ => exact ⟨hv, hc, hr, hd⟩

theorem shows_button (h : Shows s c) {data : List Char}
    (hdata : ∀ args, handleTGCallback data ≠ .selected .defenseConfirm args) :
    ∃ c', Confirmations.step validCIDR c (.button data) = some c' ∧ Shows (s.button data) c' := by
  unfold Chat.button
  dsimp only [Confirmations.step]
  split
  · next args hsel => exact absurd hsel (hdata args)
  · next arm args hne hsel =>
    obtain ⟨-, hargs⟩ := handleTGCallback_eq_selected_iff.mp hsel
    rw [hsel]
    exact ⟨_, rfl, h.callback (fun harm => hne harm) hargs⟩
  · next hnone =>
    refine ⟨c, rfl, ?_⟩
    split
    · next arm args hsel => exact absurd hsel (hnone arm args)
    · exact h

/-- Pressing the button of a confirmation ends the dialogue in both. -/
theorem shows_confirm (h : Shows s c) {n : Nat} {m : Confirmation} (hm : c.messages[n]? = some m) :
    ∃ c', Confirmations.step validCIDR c (.confirm n) = some c' ∧
      Shows (s.button (confirmButton m.tenantID m.vcnID).data) c' := by
  obtain ⟨hv, hc, hr, hd⟩ := h
  have hs : s.button (confirmButton m.tenantID m.vcnID).data = { s with defense := none } := by
    unfold Chat.button
    rw [handleTGCallback_confirmButton]
    rfl
  refine ⟨c.tgDefenseEnableDo m m.tenantID m.vcnID, by rw [step_confirm, hm]; rfl, ?_⟩
  rw [hs]
  unfold Confirmations.Chat.tgDefenseEnableDo
  cases hst : c.defense with
  | none => exact ⟨hv, hc, hr, hst⟩
  | some st => exact ⟨hv, hc, hr, rfl⟩

/-- A message that none of the first four dialogues takes leaves their states alone. -/
theorem message_frame (reading : Recurring.Reading) (validCIDR : List Char → Bool) (hv : s.volUpdate = none)
    (hc : s.create = none) (hr : s.restore = none) (hd : ∀ st ∈ s.defense, st.step ≠ .cidr) (text : List Char)
    (restored : Bool) : ∃ ssh mfa ai, s.message reading validCIDR text restored = { s with ssh, mfa, ai } := by
  have hany : (s.defense.any fun st => st.step = .cidr) = false := by
    cases hs : s.defense with
    | none => rfl
    | some st => simpa using hd st hs
  have hh : s.handler = if s.ssh then .sshKey else if s.mfa then .mfa else if s.ai then .ai else .commands := by
    simp [Chat.handler, hv, hc, hr, hany]
  unfold Chat.message
  rw [hh]
  by_cases hssh : s.ssh
  · rw [if_pos hssh]
    exact ⟨_, _, _, rfl⟩
  rw [if_neg hssh]
  by_cases hmfa : s.mfa
  · rw [if_pos hmfa]
    exact ⟨_, _, _, rfl⟩
  rw [if_neg hmfa]
  by_cases hai : s.ai
  · rw [if_pos hai]
    dsimp only
    split
    · exact ⟨_, _, _, rfl⟩
    · exact ⟨s.ssh, s.mfa, s.ai, rfl⟩
  · rw [if_neg hai]
    exact ⟨s.ssh, s.mfa, s.ai, rfl⟩

/-- A message does the same to both; `ends` is whether the dialogue that takes it is over. -/
theorem shows_message (h : Shows s c) (text : List Char) (restored sent : Bool) :
    ∃ ends, Shows (s.message reading validCIDR text restored) (c.message validCIDR text ends sent) := by
  obtain ⟨cv, cc, cr, cd, messages, entered, calls⟩ := c
  obtain ⟨hv, hc, hr, hd⟩ := h
  dsimp only at hv hc hr hd
  subst hv hc hr hd
  cases hsv : s.volUpdate with
  | some v =>
    have hh : s.handler = .volumeUpdate := by simp [Chat.handler, hsv]
    refine ⟨true, ?_⟩
    constructor <;> simp [Chat.message, hh, Confirmations.Chat.message]
  | none =>
  cases hsc : s.create with
  | some d =>
    have hh : s.handler = .create := by simp [Chat.handler, hsv, hsc]
    refine ⟨(Recurring.tgCreateRespond reading d (String.ofList text)).1.isNone, ?_⟩
    constructor <;> simp [Chat.message, hh, Confirmations.Chat.message, hsv, hsc]
  | none =>
  cases hsr : s.restore with
  | some st =>
    have hh : s.handler = .restore := by simp [Chat.handler, hsv, hsc, hsr]
    refine ⟨(tgRestoreRespond st text restored).isNone, ?_⟩
    constructor <;> simp [Chat.message, hh, Confirmations.Chat.message, hsv, hsc, hsr]
  | none =>
  cases hsd : s.defense with
  | none =>
    obtain ⟨ssh, mfa, ai, he⟩ := message_frame reading validCIDR hsv hsc hsr
      (fun st hst => by rw [hsd] at hst; cases hst) text restored
    refine ⟨true, ?_⟩
    rw [he]
    constructor <;> simp [Confirmations.Chat.message, hsv, hsc, hsr, hsd]
  | some st =>
    by_cases hcidr : st.step = .cidr
    · have hh : s.handler = .defense := by simp [Chat.handler, hsv, hsc, hsr, hsd, hcidr]
      refine ⟨true, ?_⟩
      by_cases hnil : parseCIDRList validCIDR text = []
      · constructor <;> simp [Chat.message, hh, Confirmations.Chat.message, hsv, hsc, hsr, hsd, hnil, TgDefenseState.enter]
      · constructor <;>
          simp [Chat.message, hh, Confirmations.Chat.message, hsv, hsc, hsr, hsd, hnil, hcidr, TgDefenseState.enter]
    · obtain ⟨ssh, mfa, ai, he⟩ := message_frame reading validCIDR hsv hsc hsr
        (fun st' hst => by rw [hsd] at hst; cases hst; exact hcidr) text restored
      refine ⟨true, ?_⟩
      rw [he]
      constructor <;> simp [Confirmations.Chat.message, hsv, hsc, hsr, hsd, hcidr]

end OciHelper.Telegram.Dialogues
