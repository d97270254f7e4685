import OciHelper.Lib.StepRun
import OciHelper.Telegram.Callbacks

/-!
# The defense dialogue

* `Chat` : the states that the bot keeps of a chat, the confirmation messages that it sent, and what it was told;
* `step` : a button, the button of a confirmation message, or a message;
* `AppliesShown` : what the calls of `enableDefense` got is what the pressed message shows;
* `Matches` : the dialogue under way is the one whose message is pressed;
* `appliesShown_iff_matches` : a run applies what is shown if and only if each of its steps matches.

Of the dialogues that take a message before this one, only whether they go on is kept.
-/

namespace OciHelper.Telegram.Confirmations
open Text StepRun

/-! ## Chats -/

abbrev Cidr := List Char

inductive Stage
  | vcn
  | cidr
  | confirm
  deriving DecidableEq, Repr

structure TgDefenseState where
  step : Stage
  tenantID : Int64
  vcnID : Part := ⟨[], List.not_mem_nil⟩
  cidrs : List Cidr := []
  deriving DecidableEq

/-- What a confirmation message shows, and the ids in its button. -/
structure Confirmation where
  tenantID : Int64
  vcnID : Part
  cidrs : List Cidr
  deriving DecidableEq

/-- A call of `enableDefense`, the message whose button was pressed, and what was last entered for the tenant and the
VCN before it. -/
structure Call where
  tenantID : Int64
  vcnID : Part
  cidrs : List Cidr
  message : Confirmation
  last : Option (List Cidr)
  deriving DecidableEq

/-- The messages are in the order in which they were sent, the entries have the last one first. -/
structure Chat where
  volUpdate : Bool := false
  creating : Bool := false
  restoring : Bool := false
  defense : Option TgDefenseState := none
  messages : List Confirmation := []
  entered : List Confirmation := []
  calls : List Call := []
  deriving DecidableEq

namespace Chat

/-- The list that was last entered for a tenant and a VCN. -/
def last (s : Chat) (tenantID : Int64) (vcnID : Part) : Option (List Cidr) :=
  (s.entered.find? fun e => e.tenantID = tenantID && e.vcnID = vcnID).map Confirmation.cidrs

/-! ## Steps -/

/-- What a case of the switch does to the states of the chat. -/
def callback (s : Chat) : Arm → List Arg → Chat
  | .cancel, _ => { s with creating := false, restoring := false, defense := none, volUpdate := false }
  | .createTenant, _ => { s with creating := true }
  | .defenseTenant, [.num tenantID] => { s with defense := some { step := .vcn, tenantID } }
  | .defenseVcn, [.num tenantID, .part vcnID] => { s with defense := some { step := .cidr, tenantID, vcnID } }
  | .disableTenant, [.num tenantID] => { s with defense := some { step := .vcn, tenantID } }
  | .disableVcn, [.num tenantID, .part vcnID] => { s with defense := some { step := .confirm, tenantID, vcnID } }
  | .volumeUpdate, _ => { s with volUpdate := true }
  | .backupRestore, _ => { s with restoring := true }
  | _, _ => s

def tgDefenseEnableDo (s : Chat) (message : Confirmation) (tenantID : Int64) (vcnID : Part) : Chat :=
  match s.defense with
  | none => s
  | some st =>
    { s with
      defense := none
      calls := s.calls ++ [⟨tenantID, vcnID, st.cidrs, message, s.last tenantID vcnID⟩] }

end Chat

section
variable (validCIDR : List Char → Bool)

/-- `validCIDR` is `net.ParseCIDR` without an error. -/
def parseCIDRList (text : List Char) : List Cidr :=
  ((text.splitOn '\n').map trimSpace).filter fun cidr => cidr ≠ [] && validCIDR cidr

/-- `ends` says whether the dialogue that takes the message is over, `sent` whether the confirmation arrives. -/
def Chat.message (s : Chat) (text : List Char) (ends sent : Bool) : Chat :=
  if s.volUpdate then { s with volUpdate := false }
  else if s.creating then { s with creating := !ends }
  else if s.restoring then { s with restoring := !ends }
  else
    match s.defense with
    | none => s
    | some st =>
      let cidrs := parseCIDRList validCIDR text
      if st.step = .cidr ∧ cidrs ≠ [] then
        let shown : Confirmation := ⟨st.tenantID, st.vcnID, cidrs⟩
        { s with
          defense := some { st with cidrs, step := .confirm }
          messages := if sent then s.messages ++ [shown] else s.messages
          entered := shown :: s.entered }
      else s

/-- `confirm n` presses the button of the `n`-th confirmation message, `button` any other one. -/
inductive Event
  | button (data : List Char)
  | confirm (n : Nat)
  | message (text : List Char) (ends sent : Bool)

def step : Step Chat Event
  | s, .button data =>
    match handleTGCallback data with
    | .selected .defenseConfirm _ => none
    | .selected arm args => some (s.callback arm args)
    | _ => some s
  | s, .confirm n => s.messages[n]?.map fun m =>
    match handleTGCallback (confirmButton m.tenantID m.vcnID).data with
    | .selected .defenseConfirm [.num tenantID, .part vcnID] => s.tgDefenseEnableDo m tenantID vcnID
    | _ => s
  | s, .message text ends sent => some (s.message validCIDR text ends sent)

/-! ## What is applied -/

/-- The CIDRs are those of the message, and the ones last entered for the tenant and the VCN. -/
def Call.AppliesShown (c : Call) : Prop :=
  c.cidrs ≠ [] ∧ c.last = some c.cidrs ∧ c.message = ⟨c.tenantID, c.vcnID, c.cidrs⟩

def AppliesShown (s : Chat) : Prop := ∀ c ∈ s.calls, c.AppliesShown

/-- If a dialogue is under way, its CIDRs are those of the pressed message. It is for the tenant and the VCN of the
message, or these CIDRs are still the last ones entered for them. -/
def Matches (s : Chat) : Event → Prop
  | .confirm n => ∀ m ∈ s.messages[n]?, ∀ st ∈ s.defense, st.cidrs = m.cidrs ∧
      (st.tenantID = m.tenantID ∧ st.vcnID = m.vcnID ∨ s.last m.tenantID m.vcnID = some m.cidrs)
  | _ => True

/-- Messages show CIDRs, and those of the dialogue are the last ones entered for its tenant and VCN. -/
structure Inv (s : Chat) : Prop where
  messages : ∀ m ∈ s.messages, m.cidrs ≠ []
  defense : ∀ st ∈ s.defense, st.cidrs ≠ [] → s.last st.tenantID st.vcnID = some st.cidrs

theorem handleTGCallback_confirmButton (tenantID : Int64) (vcnID : Part) :
    handleTGCallback (confirmButton tenantID vcnID).data =
      .selected .defenseConfirm [.num tenantID, .part vcnID] :=
  (agrees_tgDefenseConfirm false tenantID vcnID _ List.mem_cons_self).mpr
    (by simp [confirmButton, tenantButton, missed])

theorem step_confirm (s : Chat) (n : Nat) :
    step validCIDR s (.confirm n) = s.messages[n]?.map fun m => s.tgDefenseEnableDo m m.tenantID m.vcnID := by
  unfold step
  simp only [handleTGCallback_confirmButton]

/-- A case of the switch keeps the messages, the entries and the calls, and a dialogue that it starts has no CIDRs. -/
theorem callback_cases (s : Chat) (arm : Arm) (args : List Arg) :
    ∃ v c r d, s.callback arm args = { s with volUpdate := v, creating := c, restoring := r, defense := d } ∧
      ∀ st ∈ d, st ∈ s.defense ∨ st.cidrs = [] := by
  unfold Chat.callback
  split
  · exact ⟨_, _, _, _, rfl, fun st h => by cases h⟩
  · exact ⟨_, _, _, _, rfl, fun st h => .inl h⟩
  · exact ⟨_, _, _, _, rfl, fun st h => .inr (by cases h; rfl)⟩
  · exact ⟨_, _, _, _, rfl, fun st h => .inr (by cases h; rfl)⟩
  · exact ⟨_, _, _, _, rfl, fun st h => .inr (by cases h; rfl)⟩
  · exact ⟨_, _, _, _, rfl, fun st h => .inr (by cases h; rfl)⟩
  · exact ⟨_, _, _, _, rfl, fun st h => .inl h⟩
  · exact ⟨_, _, _, _, rfl, fun st h => .inl h⟩
  · exact ⟨s.volUpdate, s.creating, s.restoring, s.defense, rfl, fun st h => .inl h⟩

/-- A message is taken by another dialogue, or it enters CIDRs for the one under way. -/
theorem message_cases (s : Chat) (text : List Char) (ends sent : Bool) :
    (∃ v c r, s.message validCIDR text ends sent = { s with volUpdate := v, creating := c, restoring := r }) ∨
      ∃ st cidrs, s.defense = some st ∧ cidrs ≠ [] ∧
        s.message validCIDR text ends sent =
          { s with
            defense := some { st with cidrs, step := .confirm }
            messages := if sent then s.messages ++ [⟨st.tenantID, st.vcnID, cidrs⟩] else s.messages
            entered := ⟨st.tenantID, st.vcnID, cidrs⟩ :: s.entered } := by
  unfold Chat.message
  split
  · exact .inl ⟨_, _, _, rfl⟩
  split
  · exact .inl ⟨_, _, _, rfl⟩
  split
  · exact .inl ⟨_, _, _, rfl⟩
  split
  · exact .inl ⟨s.volUpdate, s.creating, s.restoring, rfl⟩
  next st hst =>
    dsimp only
    split
    · next h => exact .inr ⟨st, parseCIDRList validCIDR text, hst, h.2, rfl⟩
    · exact .inl ⟨s.volUpdate, s.creating, s.restoring, rfl⟩

/-- What one step can do. -/
theorem step_cases {s s' : Chat} {e : Event} (hs : step validCIDR s e = some s') :
    (s'.calls = s.calls ∧ Matches s e ∧ (Inv s → Inv s')) ∨
      ∃ n m st, e = .confirm n ∧ s.messages[n]? = some m ∧ s.defense = some st ∧
        s' = { s with
          defense := none
          calls := s.calls ++ [⟨m.tenantID, m.vcnID, st.cidrs, m, s.last m.tenantID m.vcnID⟩] } := by
  cases e with
  | button data =>
    refine .inl ?_
    dsimp only [step] at hs
    split at hs
    · cases hs
    · next arm args _ _ =>
      obtain ⟨v, c, r, d, he, hd⟩ := callback_cases s arm args
      rw [he] at hs
      cases hs
      refine ⟨rfl, trivial, fun h => ⟨h.messages, fun st hst hne => ?_⟩⟩
      obtain hst | hnil := hd st hst
      · exact h.defense st hst hne
      · exact absurd hnil hne
    · cases hs
      exact ⟨rfl, trivial, id⟩
  | confirm n =>
    rw [step_confirm] at hs
    obtain ⟨m, hm, rfl⟩ := Option.map_eq_some_iff.mp hs
    unfold Chat.tgDefenseEnableDo
    split
    · next hnone =>
      refine .inl ⟨rfl, fun _ _ st hst => ?_, id⟩
      rw [hnone] at hst
      cases hst
    · next st hst => exact .inr ⟨n, m, st, rfl, hm, hst, rfl⟩
  | message text ends sent =>
    refine .inl ?_
    cases hs
    obtain ⟨v, c, r, he⟩ | ⟨st, cidrs, hst, hne, he⟩ := message_cases validCIDR s text ends sent
    · rw [he]
      exact ⟨rfl, trivial, fun h => ⟨h.messages, h.defense⟩⟩
    · rw [he]
      refine ⟨rfl, trivial, fun h => ⟨fun m hm => ?_, fun st' hst' _ => ?_⟩⟩
      · dsimp only at hm
        split at hm
        · obtain hm | hm := List.mem_append.mp hm
          · exact h.messages m hm
          · cases List.mem_singleton.mp hm
            exact hne
        · exact h.messages m hm
      · cases hst'
        simp [Chat.last]

theorem inv_step {s s' : Chat} {e : Event} (h : Inv s) (hs : step validCIDR s e = some s') : Inv s' := by
  obtain ⟨-, -, hinv⟩ | ⟨n, m, st, rfl, hm, hst, rfl⟩ := step_cases validCIDR hs
  · exact hinv h
  · exact ⟨h.messages, fun st hst => by cases hst⟩

theorem appliesShown_step_iff {s s' : Chat} {e : Event} (h : AppliesShown s) (hinv : Inv s)
    (hs : step validCIDR s e = some s') : AppliesShown s' ↔ Matches s e := by
  obtain ⟨hcalls, hmatch, -⟩ | ⟨n, m, st, rfl, hm, hst, rfl⟩ := step_cases validCIDR hs
  · refine iff_of_true ?_ hmatch
    unfold AppliesShown
    rwa [hcalls]
  constructor
  · intro hall m' hm' st' hst'
    obtain rfl := Option.some.inj (hm.symm.trans hm')
    obtain rfl := Option.some.inj (hst.symm.trans hst')
    obtain ⟨-, hlast, hshown⟩ := hall _ (List.mem_append_right _ (List.mem_singleton_self _))
    have hcidrs : m.cidrs = st.cidrs := congrArg Confirmation.cidrs hshown
    exact ⟨hcidrs.symm, .inr (hlast.trans (congrArg some hcidrs.symm))⟩
  · intro hmatch c hc
    obtain hc | hc := List.mem_append.mp hc
    · exact h c hc
    · cases List.mem_singleton.mp hc
      obtain ⟨hcidrs, hlast⟩ := hmatch m hm st hst
      have hne : st.cidrs ≠ [] := hcidrs ▸ hinv.messages m (List.mem_of_getElem? hm)
      refine ⟨hne, ?_, ?_⟩
      · obtain ⟨ht, hv⟩ | hlast := hlast
        · rw [← ht, ← hv]
          exact hinv.defense st hst hne
        · exact hlast.trans (congrArg some hcidrs.symm)
      · rw [hcidrs]

theorem inv_start : Inv {} where
  messages m hm := by cases hm
  defense st hst := by cases hst

/-- In a run from an empty chat, every call gets what the pressed message shows if and only if each confirmation is
pressed while there is no dialogue or the one that it is about. -/
theorem appliesShown_iff_matches {es : List Event} {s : Chat} (h : exec (step validCIDR) {} es = some s) :
    Throughout (step validCIDR) AppliesShown {} es ↔ Run (step validCIDR) Matches {} es s :=
  throughout_iff_of_invariant (fun _ _ _ hi hj hs => appliesShown_step_iff validCIDR hi hj hs)
    (fun _ _ _ _ hj _ hs => inv_step validCIDR hj hs) (fun c hc => by cases hc) inv_start h

end

/-! ## Two runs -/

def exampleVcn : Part := ⟨['v', 'c', 'n', '1'], by decide⟩

def exampleText : List Char := ['1', '0', '.', '0', '.', '0', '.', '0', '/', '8']

/-- A dialogue up to its confirmation, and the button of that after what is pressed in between. -/
def exampleRun (between : List Event) : List Event :=
  .button (tenantButton [.defense, .vcn] .defenseVcn 1 exampleVcn).data :: .message exampleText false true ::
    between ++ [.confirm 0]

/-- The state after a run whose call got `cidrs`. -/
def exampleChat (cidrs : List Cidr) : Chat :=
  let shown : Confirmation := ⟨1, exampleVcn, [exampleText]⟩
  { messages := [shown], entered := [shown], calls := [⟨1, exampleVcn, cidrs, shown, some [exampleText]⟩] }

theorem exec_exampleRun :
    exec (step fun cidr => cidr.contains '/') {} (exampleRun []) = some (exampleChat [exampleText]) := by
  decide +kernel

theorem appliesShown_iff_matches_exampleRun :
    exec (step fun cidr => cidr.contains '/') {} (exampleRun []) = some (exampleChat [exampleText]) ∧
      (Throughout (step fun cidr => cidr.contains '/') AppliesShown {} (exampleRun []) ↔
        Run (step fun cidr => cidr.contains '/') Matches {} (exampleRun []) (exampleChat [exampleText])) :=
  ⟨exec_exampleRun, appliesShown_iff_matches _ exec_exampleRun⟩

/-- After the button of another tenant the old confirmation applies no CIDRs. -/
theorem stale_confirmation_applies_nothing :
    ∃ s, exec (step fun cidr => cidr.contains '/') {}
      (exampleRun [.button (join (words [.defense, .tenant] ++ [.num 2]))]) = some s ∧ ¬AppliesShown s := by
  refine ⟨exampleChat [], by decide +kernel, fun h => ?_⟩
  exact (h _ List.mem_cons_self).1 rfl

end OciHelper.Telegram.Confirmations
