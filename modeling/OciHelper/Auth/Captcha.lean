import Mathlib.Data.List.Induction
import Mathlib.Logic.Function.Basic
import OciHelper.Lib.Text

/-!
# Codes that guard a termination

* `handleCaptchaSend` : a new code for a target; `verifyCaptcha`, `terminate` : the check of a termination;
  `captchaCleanup` : the sweep;
* `Event`, `after` : these in any order, with time passing in between;
* `LastSend` : the last thing that happened to a target is that a code was sent to it;
* `terminates_iff` : a termination passes if and only if that code was sent to that target not more than five minutes
  before, and nothing happened to the target since.

Times are in nanoseconds, texts are lists of characters.
-/

namespace OciHelper.Auth.Captcha
open Text

abbrev Target := List Char

structure Entry where
  code : List Char
  expiresAt : Nat
  deriving DecidableEq, Repr

/-- Five minutes. -/
def ttl : Nat := 5 * 60 * 10 ^ 9

structure Captchas where
  now : Nat
  store : Target → Option Entry := fun _ => none

structure SendRequest where
  recipient : List Char
  target : Target
  deriving DecidableEq, Repr

/-- What the channels answer: the token or the URL that is configured, how the target reads as a chat, and whether the
message is taken. -/
structure Channels where
  token : List Char := []
  webhook : List Char := []
  isChatID : Bool := true
  taken : Bool := true
  deriving DecidableEq, Repr

inductive SendError
  | required
  | noChannel
  | chatID
  | telegram
  | dingtalk
  | unknownRecipient (recipient : List Char)
  deriving DecidableEq, Repr

def sixDigits (codeNum : Nat) : List Char := List.replicate (6 - (decimal codeNum).length) '0' ++ decimal codeNum

def deliver (c : Channels) (recipient : List Char) : Except SendError Unit :=
  if recipient = "telegram".toList then
    if c.token = [] then .error .noChannel
    else if !c.isChatID then .error .chatID
    else if c.taken then .ok () else .error .telegram
  else if recipient = "dingtalk".toList then
    if c.webhook = [] then .error .noChannel
    else if c.taken then .ok () else .error .dingtalk
  else .error (.unknownRecipient recipient)

/-- The code is stored before it is sent. -/
def handleCaptchaSend (c : Channels) (req : SendRequest) (codeNum : Nat) (s : Captchas) :
    Captchas × Except SendError Unit :=
  if req.recipient = [] ∨ req.target = [] then (s, .error .required)
  else
    ({ s with store := Function.update s.store req.target (some ⟨sixDigits codeNum, s.now + ttl⟩) },
      deliver c req.recipient)

def verifyCaptcha (target : Target) (code : List Char) (s : Captchas) : Captchas × Bool :=
  match s.store target with
  | none => (s, false)
  | some entry =>
    ({ s with store := Function.update s.store target none }, decide (s.now ≤ entry.expiresAt) && entry.code = code)

def captchaCleanup (s : Captchas) : Captchas :=
  { s with store := fun k => (s.store k).filter fun entry => s.now ≤ entry.expiresAt }

structure TerminateRequest where
  captchaTarget : Target
  captchaCode : List Char
  deriving DecidableEq, Repr

inductive TerminateError
  | required
  | invalid
  deriving DecidableEq, Repr

/-- The branch `terminate` of `handleInstanceAction` up to the call of the service. -/
def terminate (hasChannel : Bool) (req : TerminateRequest) (s : Captchas) : Captchas × Except TerminateError Unit :=
  if hasChannel then
    if req.captchaCode = [] then (s, .error .required)
    else
      let (s, ok) := verifyCaptcha req.captchaTarget req.captchaCode s
      (s, if ok then .ok () else .error .invalid)
  else (s, .ok ())

/-! ## Any order of events -/

inductive Event
  | wait (d : Nat)
  | send (c : Channels) (req : SendRequest) (codeNum : Nat)
  | terminate (hasChannel : Bool) (req : TerminateRequest)
  | cleanup
  deriving DecidableEq, Repr

def step (s : Captchas) : Event → Captchas
  | .wait d => { s with now := s.now + d }
  | .send c req codeNum => (handleCaptchaSend c req codeNum s).1
  | .terminate hasChannel req => (Captcha.terminate hasChannel req s).1
  | .cleanup => captchaCleanup s

/-- From the start of the program. -/
def after (start : Nat) (es : List Event) : Captchas := es.foldl step { now := start }

def Event.elapsed : Event → Nat
  | .wait d => d
  | _ => 0

/-- A code is stored for the target. -/
def Event.Sends (e : Event) (target : Target) (code : List Char) : Prop :=
  ∃ c req codeNum, e = .send c req codeNum ∧ req.recipient ≠ [] ∧ target ≠ [] ∧ req.target = target ∧
    sixDigits codeNum = code

/-- A check looks the target up. -/
def Event.Looks (e : Event) (target : Target) : Prop :=
  ∃ req, e = .terminate true req ∧ req.captchaCode ≠ [] ∧ req.captchaTarget = target

def Event.Touches (e : Event) (target : Target) : Prop := (∃ code, e.Sends target code) ∨ e.Looks target

/-- The code was sent to the target, `d` before the end, and nothing happened to the target since. -/
def LastSend (es : List Event) (target : Target) (code : List Char) (d : Nat) : Prop :=
  ∃ before e rest, es = before ++ e :: rest ∧ e.Sends target code ∧ (∀ e' ∈ rest, ¬ e'.Touches target) ∧
    (rest.map Event.elapsed).sum = d

theorem not_lastSend_nil (target : Target) (code : List Char) (d : Nat) : ¬ LastSend [] target code d := by
  rintro ⟨before, e, rest, h, -⟩
  exact List.append_ne_nil_of_right_ne_nil before (List.cons_ne_nil e rest) h.symm

theorem lastSend_snoc {es : List Event} {e : Event} {target : Target} {code : List Char} {d : Nat} :
    LastSend (es ++ [e]) target code d ↔
      e.Sends target code ∧ d = 0 ∨ ¬ e.Touches target ∧ ∃ d', LastSend es target code d' ∧ d = d' + e.elapsed := by
  constructor
  · rintro ⟨before, e', rest, h, hsends, hrest, rfl⟩
    obtain rfl | ⟨rest, last, rfl⟩ := List.eq_nil_or_concat rest
    · obtain ⟨-, hlast⟩ := List.append_inj' h rfl
      cases hlast
      exact .inl ⟨hsends, rfl⟩
    · rw [List.concat_eq_append] at h hrest ⊢
      rw [← List.cons_append, ← List.append_assoc] at h
      obtain ⟨rfl, hlast⟩ := List.append_inj' h rfl
      cases hlast
      refine .inr ⟨hrest e (List.mem_append_right _ (List.mem_singleton_self e)), _,
        ⟨before, e', rest, rfl, hsends, ?_, rfl⟩, ?_⟩
      · exact fun e' he' => hrest e' (List.mem_append_left _ he')
      · rw [List.map_append, List.sum_append]
        rfl
  · rintro (⟨hsends, rfl⟩ | ⟨hnot, d', ⟨before, e', rest, rfl, hsends, hrest, rfl⟩, rfl⟩)
    · exact ⟨es, e, [], rfl, hsends, nofun, rfl⟩
    · refine ⟨before, e', rest ++ [e], by rw [List.append_assoc, List.cons_append], hsends, fun x hx => ?_, ?_⟩
      · obtain hx | hx := List.mem_append.mp hx
        · exact hrest x hx
        · rw [List.mem_singleton.mp hx]
          exact hnot
      · rw [List.map_append, List.sum_append]
        rfl

theorem lastSend_unique {es : List Event} {target : Target} {code code' : List Char} : ∀ {d d' : Nat},
    LastSend es target code d → LastSend es target code' d' → code = code' ∧ d = d' := by
  induction es using List.reverseRecOn with
  | nil => exact fun h => absurd h (not_lastSend_nil _ _ _)
  | append_singleton es e ih =>
    intro d d' h h'
    rw [lastSend_snoc] at h h'
    obtain ⟨hsends, rfl⟩ | ⟨hnot, d, h, rfl⟩ := h
    · obtain ⟨hsends', rfl⟩ | ⟨hnot', -⟩ := h'
      · obtain ⟨_, _, _, rfl, -, -, -, rfl⟩ := hsends
        obtain ⟨_, _, _, heq, -, -, -, rfl⟩ := hsends'
        cases heq
        exact ⟨rfl, rfl⟩
      · exact absurd (.inl ⟨code, hsends⟩) hnot'
    · obtain ⟨hsends', -⟩ | ⟨-, d', h', rfl⟩ := h'
      · exact absurd (.inl ⟨code', hsends'⟩) hnot
      · obtain ⟨hcode, rfl⟩ := ih h h'
        exact ⟨hcode, rfl⟩

/-! ## The store follows the events -/

structure Tracks (es : List Event) (s : Captchas) (target : Target) : Prop where
  stored : ∀ entry, s.store target = some entry →
    ∃ d, LastSend es target entry.code d ∧ entry.expiresAt + d = s.now + ttl
  kept : ∀ code d, LastSend es target code d → d ≤ ttl → ∃ entry, s.store target = some entry ∧ entry.code = code

section
variable {es : List Event} {e : Event} {s : Captchas} {target : Target}

theorem now_step (s : Captchas) (e : Event) : (step s e).now = s.now + e.elapsed := by
  cases e with
  | wait d => rfl
  | send c req codeNum =>
    dsimp only [step, handleCaptchaSend]
    split <;> rfl
  | terminate hasChannel req =>
    dsimp only [step, Captcha.terminate, verifyCaptcha]
    split
    · split
      · rfl
      · split <;> rfl
    · rfl
  | cleanup => rfl

theorem Tracks.untouched (h : Tracks es s target) (hnot : ¬ e.Touches target)
    (hstore : (step s e).store target = s.store target) : Tracks (es ++ [e]) (step s e) target := by
  constructor
  · intro entry hentry
    rw [hstore] at hentry
    obtain ⟨d, hlast, hexpires⟩ := h.stored entry hentry
    refine ⟨d + e.elapsed, lastSend_snoc.mpr (.inr ⟨hnot, d, hlast, rfl⟩), ?_⟩
    rw [now_step]
    omega
  · intro code d hlast hd
    obtain ⟨hsends, -⟩ | ⟨-, d', hlast', rfl⟩ := lastSend_snoc.mp hlast
    · exact absurd (.inl ⟨code, hsends⟩) hnot
    · rw [hstore]
      exact h.kept code d' hlast' (by omega)

/-- A target that was looked up has nothing stored and no code sent to it. -/
theorem Tracks.looked (hlooks : e.Looks target) (hstore : (step s e).store target = none) :
    Tracks (es ++ [e]) (step s e) target := by
  refine ⟨fun entry hentry => ?_, fun code d hlast => ?_⟩
  · rw [hstore] at hentry
    cases hentry
  · obtain ⟨⟨c, req, codeNum, rfl, -⟩, -⟩ | ⟨hnot, -⟩ := lastSend_snoc.mp hlast
    · obtain ⟨_, h, -⟩ := hlooks
      cases h
    · exact absurd (.inr hlooks) hnot

theorem tracks_send (h : Tracks es s target) (c : Channels) (req : SendRequest) (codeNum : Nat) :
    Tracks (es ++ [.send c req codeNum]) (step s (.send c req codeNum)) target := by
  by_cases hrefused : req.recipient = [] ∨ req.target = []
  · have hstep : step s (.send c req codeNum) = s := by
      rw [step, handleCaptchaSend, if_pos hrefused]
    refine h.untouched ?_ (congrArg (·.store target) hstep)
    rintro (⟨code, c', req', n, heq, hrecipient, htarget, hsame, -⟩ | ⟨_, heq, -⟩) <;> cases heq
    exact hrefused.elim hrecipient fun hnil => htarget (hsame.symm.trans hnil)
  · have hstore : (step s (.send c req codeNum)).store =
        Function.update s.store req.target (some ⟨sixDigits codeNum, s.now + ttl⟩) := by
      rw [step, handleCaptchaSend, if_neg hrefused]
    obtain ⟨hrecipient, htarget⟩ := not_or.mp hrefused
    by_cases hsame : target = req.target
    · subst hsame
      have hsends : ∀ code, (Event.send c req codeNum).Sends req.target code ↔ sixDigits codeNum = code := by
        refine fun code => ⟨?_, fun hcode => ⟨c, req, codeNum, rfl, hrecipient, htarget, rfl, hcode⟩⟩
        rintro ⟨_, _, _, heq, -, -, -, hcode⟩
        cases heq
        exact hcode
      constructor
      · intro entry hentry
        rw [hstore, Function.update_self] at hentry
        obtain rfl := Option.some.inj hentry
        refine ⟨0, lastSend_snoc.mpr (.inl ⟨(hsends _).mpr rfl, rfl⟩), ?_⟩
        rw [now_step, Nat.add_zero]
        exact congrArg (· + ttl) (Nat.add_zero s.now).symm
      · intro code d hlast _
        obtain ⟨hcode, -⟩ | ⟨hnot, -⟩ := lastSend_snoc.mp hlast
        · rw [hstore, Function.update_self]
          exact ⟨_, rfl, (hsends code).mp hcode⟩
        · exact absurd (.inl ⟨_, (hsends _).mpr rfl⟩) hnot
    · refine h.untouched ?_ (by rw [hstore, Function.update_of_ne hsame])
      rintro (⟨code, c', req', n, heq, -, -, htarget', -⟩ | ⟨_, heq, -⟩) <;> cases heq
      exact hsame htarget'.symm

theorem store_verifyCaptcha (target' : Target) (code : List Char) (s : Captchas) :
    (verifyCaptcha target' code s).1.store = Function.update s.store target' none := by
  unfold verifyCaptcha
  split
  · next hnone =>
    rw [← hnone, Function.update_eq_self]
  · rfl

theorem tracks_terminate (h : Tracks es s target) (hasChannel : Bool) (req : TerminateRequest) :
    Tracks (es ++ [.terminate hasChannel req]) (step s (.terminate hasChannel req)) target := by
  by_cases hlooks : hasChannel = true ∧ req.captchaCode ≠ []
  · obtain ⟨rfl, hcode⟩ := hlooks
    have hstore : (step s (.terminate true req)).store = Function.update s.store req.captchaTarget none := by
      rw [step, Captcha.terminate, if_pos rfl, if_neg hcode]
      exact store_verifyCaptcha ..
    by_cases hsame : target = req.captchaTarget
    · subst hsame
      exact .looked ⟨req, rfl, hcode, rfl⟩ (by rw [hstore, Function.update_self])
    · refine h.untouched ?_ (by rw [hstore, Function.update_of_ne hsame])
      rintro (⟨_, _, _, _, heq, -⟩ | ⟨_, heq, -, htarget⟩) <;> cases heq
      exact hsame htarget.symm
  · have hstep : step s (.terminate hasChannel req) = s := by
      rw [step, Captcha.terminate]
      split
      · next htrue => rw [if_pos (Decidable.not_not.mp fun hcode => hlooks ⟨htrue, hcode⟩)]
      · rfl
    refine h.untouched ?_ (congrArg (·.store target) hstep)
    rintro (⟨_, _, _, _, heq, -⟩ | ⟨_, heq, hcode, -⟩) <;> cases heq
    exact hlooks ⟨rfl, hcode⟩

/-- The sweep takes only codes that would be refused. -/
theorem tracks_cleanup (h : Tracks es s target) : Tracks (es ++ [.cleanup]) (step s .cleanup) target := by
  have hnot : ¬ Event.cleanup.Touches target := by
    rintro (⟨_, _, _, _, heq, -⟩ | ⟨_, heq, -⟩) <;> cases heq
  constructor
  · intro entry hentry
    obtain ⟨hentry, -⟩ := Option.filter_eq_some_iff.mp hentry
    obtain ⟨d, hlast, hexpires⟩ := h.stored entry hentry
    exact ⟨d, lastSend_snoc.mpr (.inr ⟨hnot, d, hlast, rfl⟩), hexpires⟩
  · intro code d hlast hd
    obtain ⟨hsends, -⟩ | ⟨-, d', hlast', rfl⟩ := lastSend_snoc.mp hlast
    · exact absurd (.inl ⟨code, hsends⟩) hnot
    · obtain ⟨entry, hentry, hcode⟩ := h.kept code d hlast' hd
      obtain ⟨d', hlast'', hexpires⟩ := h.stored entry hentry
      obtain ⟨-, rfl⟩ := lastSend_unique hlast' hlast''
      refine ⟨entry, Option.filter_eq_some_iff.mpr ⟨hentry, decide_eq_true ?_⟩, hcode⟩
      omega

end

theorem tracks_after (start : Nat) (target : Target) (es : List Event) : Tracks es (after start es) target := by
  induction es using List.reverseRecOn with
  | nil => exact ⟨nofun, fun code d h => absurd h (not_lastSend_nil _ _ _)⟩
  | append_singleton es e ih =>
    have hafter : after start (es ++ [e]) = step (after start es) e := by simp [after]
    rw [hafter]
    cases e with
    | wait d =>
      refine ih.untouched ?_ rfl
      rintro (⟨_, _, _, _, heq, -⟩ | ⟨_, heq, -⟩) <;> cases heq
    | send c req codeNum => exact tracks_send ih c req codeNum
    | terminate hasChannel req => exact tracks_terminate ih hasChannel req
    | cleanup => exact tracks_cleanup ih

theorem verifyCaptcha_iff (start : Nat) (es : List Event) (target : Target) (code : List Char) :
    (verifyCaptcha target code (after start es)).2 = true ↔ ∃ d ≤ ttl, LastSend es target code d := by
  have htracks := tracks_after start target es
  unfold verifyCaptcha
  cases hentry : (after start es).store target with
  | none =>
    refine iff_of_false Bool.false_ne_true ?_
    rintro ⟨d, hd, hlast⟩
    obtain ⟨entry, hsome, -⟩ := htracks.kept code d hlast hd
    rw [hentry] at hsome
    cases hsome
  | some entry =>
    obtain ⟨d, hlast, hexpires⟩ := htracks.stored entry hentry
    simp only [Bool.and_eq_true, decide_eq_true_eq]
    constructor
    · rintro ⟨hnow, rfl⟩
      exact ⟨d, by omega, hlast⟩
    · rintro ⟨d', hd', hlast'⟩
      obtain ⟨hcode, rfl⟩ := lastSend_unique hlast hlast'
      exact ⟨by omega, hcode⟩

/-- **What a termination needs.** Where a channel is configured, and after any events, a request passes just when its
code is the last thing that was sent to its target, at most five minutes before, and was not tried since. -/
theorem terminates_iff (start : Nat) (es : List Event) (req : TerminateRequest) :
    (terminate true req (after start es)).2 = .ok () ↔
      req.captchaCode ≠ [] ∧ ∃ d ≤ ttl, LastSend es req.captchaTarget req.captchaCode d := by
  rw [← verifyCaptcha_iff start, terminate, if_pos rfl]
  split
  · next hnil => exact iff_of_false (fun h => by cases h) fun h => h.1 hnil
  · next hcode =>
    generalize verifyCaptcha req.captchaTarget req.captchaCode (after start es) = r
    obtain ⟨s, ok⟩ := r
    cases ok with
    | true => exact iff_of_true rfl ⟨hcode, rfl⟩
    | false => exact iff_of_false (fun h => by cases h) fun h => absurd h.2 Bool.false_ne_true

end OciHelper.Auth.Captcha
