import OciHelper.Lib.Pool
import OciHelper.Lib.StepRun
import Mathlib.Data.Int.Order.Basic
import Mathlib.Logic.Function.Basic

/-!
# The login limiter

* `LoginRateLimiter` : the failures and the blocked addresses in memory; `allow`, `isBlocked`, ... : its critical sections;
* `Request`, `step` : concurrent login requests, one critical section or query at a time, and what clears a block;
* `guesses` : the failures counted in the window of an address and its requests that are not counted yet;
* `Bounded` : no address has more than `maxHits` of them; `Overlaps` : how many requests of an address are uncounted
  when another one is checked;
* `no_entry_while_blocked`, `no_entry_while_listed` : no request gets past a block;
* `guesses_bounded` : how far the guesses may exceed `maxHits`, and what a block stops.
-/

namespace OciHelper.Auth.Login
open StepRun

/-- Times are nanoseconds. -/
def window : Int := 15 * 60 * 1000000000

def blockTTL : Int := 24 * 3600 * 1000000000

def maxHits : Nat := 5

structure RateLimitEntry where
  count : Nat
  start : Int
  deriving DecidableEq, Repr

structure LoginRateLimiter where
  entries : String → Option RateLimitEntry := fun _ => none
  blockedIPs : String → Option Int := fun _ => none

namespace LoginRateLimiter

/-- The entry of an address, if its window is not over. -/
def current (rl : LoginRateLimiter) (now : Int) (ip : String) : Option RateLimitEntry :=
  (rl.entries ip).bind fun e => if now - e.start > window then none else some e

def allow (rl : LoginRateLimiter) (now : Int) (ip : String) : Bool × LoginRateLimiter :=
  match rl.current now ip with
  | none => (true, { rl with entries := Function.update rl.entries ip (some ⟨1, now⟩) })
  | some e =>
    let rl := { rl with entries := Function.update rl.entries ip (some { e with count := e.count + 1 }) }
    if e.count + 1 ≥ maxHits then (false, { rl with blockedIPs := Function.update rl.blockedIPs ip (some now) })
    else (true, rl)

def reset (rl : LoginRateLimiter) (ip : String) : LoginRateLimiter := { rl with entries := Function.update rl.entries ip none }

def isBlocked (rl : LoginRateLimiter) (now : Int) (ip : String) : Bool :=
  if (rl.blockedIPs ip).isSome then true
  else
    match rl.current now ip with
    | none => false
    | some e => e.count ≥ maxHits

/-- The empty address is every address. -/
def clearBlockedIP (rl : LoginRateLimiter) (ip : String) : LoginRateLimiter :=
  { rl with blockedIPs := if ip = "" then fun _ => none else Function.update rl.blockedIPs ip none }

/-- One round of `cleanupLoop`. -/
def cleanup (rl : LoginRateLimiter) (now : Int) : LoginRateLimiter where
  entries ip := rl.current now ip
  blockedIPs ip := (rl.blockedIPs ip).filter fun blockedAt => ¬ now - blockedAt > blockTTL

end LoginRateLimiter

/-! ## Requests -/

/-- How far `handleLogin` is. `validating` is past both checks; a failed request is counted next, and after that it may
put its address on the blacklist. -/
inductive Phase
  | arrived
  | checking
  | validating
  | failed
  | blocking
  | succeeded
  | rejected
  | finished
  deriving DecidableEq, Repr

/-- The credentials are or were looked at. -/
def Phase.validated : Phase → Bool
  | .arrived | .checking | .rejected => false
  | .validating | .failed | .blocking | .succeeded | .finished => true

/-- The credentials are looked at, or were wrong, and no failure has been counted. -/
def Phase.uncounted : Phase → Bool
  | .validating | .failed => true
  | .arrived | .checking | .blocking | .succeeded | .rejected | .finished => false

structure Request where
  ip : String
  phase : Phase := .arrived
  deriving DecidableEq, Repr

/-- `listed` is the table `login_blacklist`. -/
structure State where
  clock : Int := 0
  limiter : LoginRateLimiter := {}
  listed : String → Bool := fun _ => false
  requests : Pool Request := {}

/-- `ok` says whether a query succeeds. `validate` is the password and the code together. -/
inductive Op
  | arrive (ip : String)
  | readList (n : Nat) (ok : Bool)
  | check (n : Nat)
  | validate (n : Nat) (right : Bool)
  | count (n : Nat)
  | addToList (n : Nat) (ok : Bool)
  | reset (n : Nat)
  | cleanup
  | clearBlocked (ip : String)
  | removeListed (ip : String) (ok : Bool)
  | restore
  deriving DecidableEq, Repr

structure Event where
  now : Int
  op : Op
  deriving DecidableEq, Repr

namespace State

/-- The address of a request that is in a phase. -/
def ipIn (s : State) (n : Nat) (phase : Phase) : Option String :=
  (s.requests.get? n).bind fun r => if r.phase = phase then some r.ip else none

def go (s : State) (n : Nat) (ip : String) (phase : Phase) : State :=
  { s with requests := s.requests.put n ⟨ip, phase⟩ }

end State

def act (s : State) (now : Int) : Op → Option State
  | .arrive ip => some { s with requests := s.requests.join { ip } }
  | .readList n ok =>
    (s.ipIn n .arrived).map fun ip =>
      -- an error counts as not listed
      s.go n ip (if ok && s.listed ip then .rejected else .checking)
  | .check n =>
    (s.ipIn n .checking).map fun ip => s.go n ip (if s.limiter.isBlocked now ip then .rejected else .validating)
  | .validate n right => (s.ipIn n .validating).map fun ip => s.go n ip (if right then .succeeded else .failed)
  | .count n =>
    (s.ipIn n .failed).map fun ip =>
      let r := s.limiter.allow now ip
      { s.go n ip (if r.1 then .finished else .blocking) with limiter := r.2 }
  | .addToList n ok =>
    (s.ipIn n .blocking).map fun ip =>
      { s.go n ip .finished with listed := if ok then Function.update s.listed ip true else s.listed }
  | .reset n =>
    (s.ipIn n .succeeded).map fun ip => { s.go n ip .finished with limiter := s.limiter.reset ip }
  | .cleanup => some { s with limiter := s.limiter.cleanup now }
  | .clearBlocked ip => some { s with limiter := s.limiter.clearBlockedIP ip }
  | .removeListed ip ok => some { s with listed := if ok then Function.update s.listed ip false else s.listed }
  | .restore => some { s with listed := fun _ => false }

/-- The clock does not go back. -/
def step : Step State Event := fun s e =>
  if s.clock ≤ e.now then (act s e.now e.op).map fun s' => { s' with clock := e.now } else none

/-! ## Guesses -/

/-- The failures counted in the window that is open. -/
def counted (rl : LoginRateLimiter) (now : Int) (ip : String) : Nat := ((rl.current now ip).map RateLimitEntry.count).getD 0

/-- The requests of an address that are not counted yet. -/
def uncounted (p : Pool Request) (ip : String) : Nat := p.countP fun r => r.ip = ip && r.phase.uncounted

/-- The guesses of an address that belong to its window. -/
def guesses (s : State) (ip : String) : Nat := counted s.limiter s.clock ip + uncounted s.requests ip

def Bounded (s : State) : Prop := ∀ ip, guesses s ip ≤ maxHits

/-- When a request is checked, at most `k` requests of its address are past the check and not counted. -/
def Overlaps (k : Nat) (s : State) (e : Event) : Prop :=
  ∀ n ip, e.op = .check n → s.ipIn n .checking = some ip → uncounted s.requests ip ≤ k

/-! ## What an operation does to the guesses -/

theorem step_eq_some {s s' : State} {e : Event} (h : step s e = some s') :
    s.clock ≤ e.now ∧ ∃ s₁, act s e.now e.op = some s₁ ∧ s' = { s₁ with clock := e.now } := by
  unfold step at h
  split at h
  · next hle =>
    obtain ⟨s₁, h₁, rfl⟩ := Option.map_eq_some_iff.mp h
    exact ⟨hle, s₁, h₁, rfl⟩
  · cases h

theorem ipIn_eq_some {s : State} {n : Nat} {phase : Phase} {ip : String} (h : s.ipIn n phase = some ip) :
    s.requests.get? n = some ⟨ip, phase⟩ := by
  obtain ⟨⟨ip', phase'⟩, hget, hr⟩ := Option.bind_eq_some_iff.mp h
  dsimp only at hr
  split at hr
  · next hphase =>
    cases hr
    rw [hget, hphase]
  · cases hr

/-- The requests of one address change when one of them changes its phase. -/
theorem uncounted_go {s : State} {n : Nat} {phase : Phase} {ip : String} (h : s.ipIn n phase = some ip)
    (phase' : Phase) (ip' : String) :
    uncounted (s.go n ip phase').requests ip' + (if ip = ip' ∧ phase.uncounted then 1 else 0) =
      uncounted s.requests ip' + if ip = ip' ∧ phase'.uncounted then 1 else 0 := by
  have := Pool.countP_put (fun r : Request => r.ip = ip' && r.phase.uncounted) s.requests (ipIn_eq_some h) ⟨ip, phase'⟩
  simp only [Bool.and_eq_true, decide_eq_true_eq] at this
  exact this

theorem uncounted_go_le {s : State} {n : Nat} {phase : Phase} {ip : String} (h : s.ipIn n phase = some ip)
    (phase' : Phase) (hphase : phase'.uncounted → phase.uncounted) (ip' : String) :
    uncounted (s.go n ip phase').requests ip' ≤ uncounted s.requests ip' := by
  have hgo := uncounted_go h phase' ip'
  by_cases hip : ip = ip' ∧ phase'.uncounted
  · rw [if_pos hip, if_pos ⟨hip.1, hphase hip.2⟩] at hgo
    omega
  · rw [if_neg hip] at hgo
    omega

theorem uncounted_join (p : Pool Request) (ip ip' : String) : uncounted (p.join { ip }) ip' = uncounted p ip' := by
  unfold uncounted
  rw [Pool.countP_join]
  simp [Phase.uncounted]

/-- Time only ends windows. -/
theorem counted_le (rl : LoginRateLimiter) {now now' : Int} (h : now ≤ now') (ip : String) :
    counted rl now' ip ≤ counted rl now ip := by
  unfold counted LoginRateLimiter.current
  cases rl.entries ip with
  | none => exact Nat.le_refl _
  | some e =>
    by_cases hnew : now' - e.start > window
    · simp [hnew]
    · have hold : ¬ now - e.start > window := by omega
      simp [hnew, hold]

theorem not_over_of_current {rl : LoginRateLimiter} {now : Int} {ip : String} {e : RateLimitEntry}
    (h : rl.current now ip = some e) : ¬ now - e.start > window := by
  obtain ⟨e', -, h⟩ := Option.bind_eq_some_iff.mp h
  split at h
  · cases h
  · next hnot =>
    cases h
    exact hnot

theorem counted_allow (rl : LoginRateLimiter) (now : Int) (ip ip' : String) :
    counted (rl.allow now ip).2 now ip' = counted rl now ip' + if ip = ip' then 1 else 0 := by
  have hfresh : ¬ window < 0 := by decide
  unfold LoginRateLimiter.allow
  cases hcur : rl.current now ip with
  | none =>
    by_cases hip : ip = ip'
    · subst hip
      have hnone : counted rl now ip = 0 := by
        rw [counted, hcur]
        rfl
      rw [hnone]
      simp [counted, LoginRateLimiter.current, hfresh]
    · simp [counted, LoginRateLimiter.current, Function.update_of_ne (Ne.symm hip), hip]
  | some e =>
    have hnot : ¬ now - e.start > window := not_over_of_current hcur
    have hentries : counted { rl with entries := Function.update rl.entries ip (some { e with count := e.count + 1 }) }
        now ip' = counted rl now ip' + if ip = ip' then 1 else 0 := by
      by_cases hip : ip = ip'
      · subst hip
        have hsome : counted rl now ip = e.count := by
          rw [counted, hcur]
          rfl
        rw [hsome]
        simp [counted, LoginRateLimiter.current, hnot]
      · simp [counted, LoginRateLimiter.current, Function.update_of_ne (Ne.symm hip), hip]
    dsimp only
    split <;> exact hentries

theorem counted_reset_le (rl : LoginRateLimiter) (now : Int) (ip ip' : String) :
    counted (rl.reset ip) now ip' ≤ counted rl now ip' := by
  unfold counted LoginRateLimiter.reset LoginRateLimiter.current
  by_cases hip : ip' = ip
  · subst hip
    simp
  · simp [Function.update_of_ne hip]

theorem counted_cleanup (rl : LoginRateLimiter) (now : Int) (ip : String) :
    counted (rl.cleanup now) now ip = counted rl now ip := by
  unfold counted LoginRateLimiter.cleanup LoginRateLimiter.current
  cases h : rl.entries ip with
  | none => simp [h]
  | some e => by_cases hover : now - e.start > window <;> simp [h, hover]

/-! ## The bound -/

/-- An operation that lets no request through does not add to the guesses. -/
theorem guesses_act_le {s s₁ : State} {now : Int} {op : Op} (hnow : s.clock ≤ now) (h : act s now op = some s₁)
    (hcheck : ∀ n ip, op = .check n → s.ipIn n .checking = some ip → s.limiter.isBlocked now ip = true) (ip : String) :
    counted s₁.limiter now ip + uncounted s₁.requests ip ≤ guesses s ip := by
  have hclock := counted_le s.limiter hnow ip
  unfold guesses
  cases op with
  | arrive ip' =>
    cases h
    dsimp only
    rw [uncounted_join]
    omega
  | readList n ok =>
    obtain ⟨ip', hin, rfl⟩ := Option.map_eq_some_iff.mp h
    exact Nat.add_le_add hclock (uncounted_go_le hin _ (by split <;> exact fun h => h) ip)
  | check n =>
    obtain ⟨ip', hin, rfl⟩ := Option.map_eq_some_iff.mp h
    rw [hcheck n ip' rfl hin, if_pos rfl]
    exact Nat.add_le_add hclock (uncounted_go_le hin .rejected (fun h => h) ip)
  | validate n right =>
    obtain ⟨ip', hin, rfl⟩ := Option.map_eq_some_iff.mp h
    exact Nat.add_le_add hclock (uncounted_go_le hin _ (fun _ => rfl) ip)
  | count n =>
    obtain ⟨ip', hin, rfl⟩ := Option.map_eq_some_iff.mp h
    have hgo := uncounted_go hin (if (s.limiter.allow now ip').1 then .finished else .blocking) ip
    have hphase : ((if (s.limiter.allow now ip').1 then .finished else .blocking : Phase).uncounted) = false := by
      split <;> rfl
    have hcount := counted_allow s.limiter now ip' ip
    dsimp only at hgo ⊢
    rw [hphase] at hgo
    by_cases hip : ip' = ip <;> simp [hip, Phase.uncounted] at hgo hcount ⊢ <;> omega
  | addToList n ok =>
    obtain ⟨ip', hin, rfl⟩ := Option.map_eq_some_iff.mp h
    exact Nat.add_le_add hclock (uncounted_go_le hin .finished (fun h => h) ip)
  | reset n =>
    obtain ⟨ip', hin, rfl⟩ := Option.map_eq_some_iff.mp h
    have := counted_reset_le s.limiter now ip' ip
    exact Nat.add_le_add (Nat.le_trans this hclock) (uncounted_go_le hin .finished (fun h => by cases h) ip)
  | cleanup =>
    cases h
    dsimp only
    rw [counted_cleanup]
    omega
  | clearBlocked ip' => cases h; exact Nat.add_le_add_right hclock _
  | removeListed ip' ok => cases h; exact Nat.add_le_add_right hclock _
  | restore => cases h; exact Nat.add_le_add_right hclock _

/-- The check lets nobody through once `maxHits` failures are counted. -/
theorem counted_lt_of_isBlocked {rl : LoginRateLimiter} {now : Int} {ip : String} (h : rl.isBlocked now ip = false) :
    counted rl now ip < maxHits := by
  unfold LoginRateLimiter.isBlocked at h
  unfold counted
  split at h
  · cases h
  · cases hcur : rl.current now ip with
    | none => exact Nat.succ_pos 4
    | some e =>
      rw [hcur] at h
      simpa using h

/-- **One step.** A request that passes the check adds one to the guesses, which the counted failures and the overlap
bound. -/
theorem guesses_step {k : Nat} {s s' : State} {e : Event} (hoverlap : Overlaps k s e)
    (hb : ∀ ip, guesses s ip ≤ maxHits + k) (h : step s e = some s') : ∀ ip, guesses s' ip ≤ maxHits + k := by
  obtain ⟨hnow, s₁, hact, rfl⟩ := step_eq_some h
  by_cases hpass : ∃ n ip, e.op = .check n ∧ s.ipIn n .checking = some ip ∧ s.limiter.isBlocked e.now ip = false
  · obtain ⟨n, ip, hop, hin, hfree⟩ := hpass
    have hle := hoverlap n ip hop hin
    have hlt := counted_lt_of_isBlocked hfree
    rw [hop] at hact
    obtain ⟨ip₁, hin₁, rfl⟩ := Option.map_eq_some_iff.mp hact
    obtain rfl := Option.some.inj (hin₁.symm.trans hin)
    rw [hfree, if_neg Bool.false_ne_true]
    intro ip'
    have hgo := uncounted_go hin .validating ip'
    have hclock := counted_le s.limiter hnow ip'
    have hold := hb ip'
    unfold guesses at hold ⊢
    simp only [Phase.uncounted, State.go] at hgo ⊢
    by_cases hip : ip₁ = ip'
    · subst hip
      simp at hgo
      omega
    · simp [hip] at hgo
      omega
  · have hall : ∀ n ip, e.op = .check n → s.ipIn n .checking = some ip → s.limiter.isBlocked e.now ip = true :=
      fun n ip hop hin => by
        by_contra hfree
        exact hpass ⟨n, ip, hop, hin, by simpa using hfree⟩
    exact fun ip => Nat.le_trans (guesses_act_le hnow hact hall ip) (hb ip)

/-! ## Blocks -/

/-- How a request comes to be in its phase. -/
theorem act_get? {s s₁ : State} {now : Int} {op : Op} (h : act s now op = some s₁) {n : Nat} {r : Request}
    (hr : s₁.requests.get? n = some r) :
    s.requests.get? n = some r ∨ r.phase = .arrived ∨
      ∃ phase, s.requests.get? n = some ⟨r.ip, phase⟩ ∧
        (phase.validated = true ∨
          (∃ ok, op = .readList n ok ∧ r.phase = if ok && s.listed r.ip then .rejected else .checking) ∨
          (phase = .checking ∧ op = .check n ∧
            r.phase = if s.limiter.isBlocked now r.ip then .rejected else .validating)) := by
  have hgo : ∀ {k ip phase phase'}, s.ipIn k phase = some ip → (s.go k ip phase').requests.get? n = some r →
      s.requests.get? n = some r ∨ (n = k ∧ r = ⟨ip, phase'⟩ ∧ s.requests.get? n = some ⟨ip, phase⟩) := by
    intro k ip phase phase' hin hget
    have hold := ipIn_eq_some hin
    rw [State.go, Pool.get?_put _ hold] at hget
    split at hget
    · next hk => exact .inr ⟨hk, (Option.some.inj hget).symm, hk ▸ hold⟩
    · exact .inl hget
  cases op with
  | arrive ip =>
    cases h
    dsimp only at hr
    rw [Pool.get?_join] at hr
    split at hr
    · cases hr
      exact .inr (.inl rfl)
    · exact .inl hr
  | readList k ok =>
    obtain ⟨ip, hin, rfl⟩ := Option.map_eq_some_iff.mp h
    rcases hgo hin hr with hsame | ⟨rfl, rfl, hold⟩
    · exact .inl hsame
    · exact .inr (.inr ⟨_, hold, .inr (.inl ⟨ok, rfl, rfl⟩)⟩)
  | check k =>
    obtain ⟨ip, hin, rfl⟩ := Option.map_eq_some_iff.mp h
    rcases hgo hin hr with hsame | ⟨rfl, rfl, hold⟩
    · exact .inl hsame
    · exact .inr (.inr ⟨_, hold, .inr (.inr ⟨rfl, rfl, rfl⟩)⟩)
  | validate k right =>
    obtain ⟨ip, hin, rfl⟩ := Option.map_eq_some_iff.mp h
    rcases hgo hin hr with hsame | ⟨rfl, rfl, hold⟩
    · exact .inl hsame
    · exact .inr (.inr ⟨_, hold, .inl rfl⟩)
  | count k =>
    obtain ⟨ip, hin, rfl⟩ := Option.map_eq_some_iff.mp h
    rcases hgo hin hr with hsame | ⟨rfl, rfl, hold⟩
    · exact .inl hsame
    · exact .inr (.inr ⟨_, hold, .inl rfl⟩)
  | addToList k ok =>
    obtain ⟨ip, hin, rfl⟩ := Option.map_eq_some_iff.mp h
    rcases hgo hin hr with hsame | ⟨rfl, rfl, hold⟩
    · exact .inl hsame
    · exact .inr (.inr ⟨_, hold, .inl rfl⟩)
  | reset k =>
    obtain ⟨ip, hin, rfl⟩ := Option.map_eq_some_iff.mp h
    rcases hgo hin hr with hsame | ⟨rfl, rfl, hold⟩
    · exact .inl hsame
    · exact .inr (.inr ⟨_, hold, .inl rfl⟩)
  | cleanup | clearBlocked | removeListed | restore => cases h; exact .inl hr

/-- The event neither clears the block of an address nor finds it expired. -/
def KeepsBlock (ip : String) (s : State) (e : Event) : Prop :=
  e.op ≠ .clearBlocked ip ∧ e.op ≠ .clearBlocked "" ∧
    (e.op = .cleanup → ∀ blockedAt, s.limiter.blockedIPs ip = some blockedAt → ¬ e.now - blockedAt > blockTTL)

/-- The event does not take an address from the blacklist, and no read of the blacklist fails. -/
def KeepsListed (ip : String) (_ : State) (e : Event) : Prop :=
  e.op ≠ .removeListed ip true ∧ e.op ≠ .restore ∧ ∀ n, e.op ≠ .readList n false

/-- The request is one of the address and its credentials are or were looked at. -/
def Entered (s : State) (ip : String) (n : Nat) : Prop :=
  ∃ phase, s.requests.get? n = some ⟨ip, phase⟩ ∧ phase.validated = true

theorem blockedIPs_act {s s₁ : State} {now : Int} {op : Op} {ip : String} (h : act s now op = some s₁)
    (hkeeps : KeepsBlock ip s ⟨now, op⟩) (hb : (s.limiter.blockedIPs ip).isSome) :
    (s₁.limiter.blockedIPs ip).isSome := by
  cases op with
  | arrive | removeListed | restore => cases h; exact hb
  | readList | check | validate | addToList | reset =>
    obtain ⟨ip', -, rfl⟩ := Option.map_eq_some_iff.mp h
    exact hb
  | count n =>
    obtain ⟨ip', -, rfl⟩ := Option.map_eq_some_iff.mp h
    dsimp only
    unfold LoginRateLimiter.allow
    split
    · exact hb
    · dsimp only
      split
      · by_cases hip : ip = ip'
        · subst hip
          simp
        · simpa [Function.update_of_ne hip] using hb
      · exact hb
  | cleanup =>
    cases h
    obtain ⟨blockedAt, hat⟩ := Option.isSome_iff_exists.mp hb
    have hnot := hkeeps.2.2 rfl blockedAt hat
    refine Option.isSome_iff_exists.mpr ⟨blockedAt, Option.filter_eq_some_iff.mpr ⟨hat, ?_⟩⟩
    simpa using hnot
  | clearBlocked ip' =>
    cases h
    have hne : ip ≠ ip' := fun e => hkeeps.1 (e ▸ rfl)
    have hall : ip' ≠ "" := fun e => hkeeps.2.1 (e ▸ rfl)
    simp only [LoginRateLimiter.clearBlockedIP, if_neg hall]
    rwa [Function.update_of_ne hne]

/-- **No request gets past a block in memory.** -/
theorem no_entry_while_blocked {s t : State} {es : List Event} {ip : String} (h : Run step (KeepsBlock ip) s es t)
    (hb : (s.limiter.blockedIPs ip).isSome) :
    (t.limiter.blockedIPs ip).isSome ∧ ∀ n, Entered t ip n → Entered s ip n := by
  refine h.invariant (I := fun t => (t.limiter.blockedIPs ip).isSome ∧ ∀ n, Entered t ip n → Entered s ip n)
    (fun s₀ e s' hkeeps hi hs => ?_) ⟨hb, fun _ hn => hn⟩
  obtain ⟨-, s₁, hact, rfl⟩ := step_eq_some hs
  have hb₁ : (s₁.limiter.blockedIPs ip).isSome := blockedIPs_act hact hkeeps hi.1
  refine ⟨hb₁, fun n hn => hi.2 n ?_⟩
  obtain ⟨phase, hget, hv⟩ := hn
  rcases act_get? hact hget with hsame | harrived | ⟨phase', hold, hv' | ⟨ok, -, hphase⟩ | ⟨-, -, hphase⟩⟩
  · exact ⟨phase, hsame, hv⟩
  · rw [show phase = .arrived from harrived] at hv
    cases hv
  · exact ⟨phase', hold, hv'⟩
  · dsimp only at hphase
    split at hphase <;> (rw [hphase] at hv; cases hv)
  · have hblocked : s₀.limiter.isBlocked e.now ip = true := by
      unfold LoginRateLimiter.isBlocked
      rw [if_pos hi.1]
    dsimp only at hphase
    rw [hblocked, if_pos rfl] at hphase
    rw [hphase] at hv
    cases hv

/-- The request is one of the address and has found it not listed. -/
def PassedList (s : State) (ip : String) (n : Nat) : Prop :=
  ∃ phase, s.requests.get? n = some ⟨ip, phase⟩ ∧ (phase = .checking ∨ phase.validated = true)

theorem listed_act {s s₁ : State} {now : Int} {op : Op} {ip : String} (h : act s now op = some s₁)
    (hkeeps : KeepsListed ip s ⟨now, op⟩) (hl : s.listed ip = true) : s₁.listed ip = true := by
  cases op with
  | arrive | cleanup | clearBlocked => cases h; exact hl
  | readList | check | validate | count | reset =>
    obtain ⟨ip', -, rfl⟩ := Option.map_eq_some_iff.mp h
    exact hl
  | addToList n ok =>
    obtain ⟨ip', -, rfl⟩ := Option.map_eq_some_iff.mp h
    dsimp only
    split
    · by_cases hip : ip = ip'
      · subst hip
        simp
      · simpa [Function.update_of_ne hip] using hl
    · exact hl
  | removeListed ip' ok =>
    cases h
    dsimp only
    split
    · next hok =>
      have hne : ip ≠ ip' := fun e => hkeeps.1 (by rw [e, hok])
      rwa [Function.update_of_ne hne]
    · exact hl
  | restore => exact absurd rfl hkeeps.2.1

/-- **No request gets past the blacklist**, as long as it can be read. -/
theorem no_entry_while_listed {s t : State} {es : List Event} {ip : String} (h : Run step (KeepsListed ip) s es t)
    (hl : s.listed ip = true) : t.listed ip = true ∧ ∀ n, PassedList t ip n → PassedList s ip n := by
  refine h.invariant (I := fun t => t.listed ip = true ∧ ∀ n, PassedList t ip n → PassedList s ip n)
    (fun s₀ e s' hkeeps hi hs => ?_) ⟨hl, fun _ hn => hn⟩
  obtain ⟨-, s₁, hact, rfl⟩ := step_eq_some hs
  have hl₁ : s₁.listed ip = true := listed_act hact hkeeps hi.1
  refine ⟨hl₁, fun n hn => hi.2 n ?_⟩
  obtain ⟨phase, hget, hv⟩ := hn
  rcases act_get? hact hget with hsame | harrived | ⟨phase', hold, hv' | ⟨ok, hop, hphase⟩ | ⟨hchecking, -, -⟩⟩
  · exact ⟨phase, hsame, hv⟩
  · rw [show phase = .arrived from harrived] at hv
    rcases hv with hv | hv <;> cases hv
  · exact ⟨phase', hold, .inr hv'⟩
  · have hok : ok = true := by
      cases ok with
      | true => rfl
      | false => exact absurd hop (hkeeps.2.2 n)
    dsimp only at hphase
    rw [hi.1, hok, Bool.and_self, if_pos rfl] at hphase
    rw [hphase] at hv
    rcases hv with hv | hv <;> cases hv
  · exact ⟨phase', hold, .inl hchecking⟩

/-! ## The limit -/

/-- The tests of the conditions. -/
def overlaps (k : Nat) (s : State) (e : Event) : Bool :=
  match e.op with
  | .check n => (s.ipIn n .checking).all fun ip => uncounted s.requests ip ≤ k
  | _ => true

def keepsBlock (_ : State) (e : Event) : Bool :=
  match e.op with
  | .clearBlocked _ | .cleanup => false
  | _ => true

theorem overlaps_of_test {k : Nat} {s : State} {e : Event} (h : overlaps k s e = true) : Overlaps k s e := by
  intro n ip hop hin
  unfold overlaps at h
  rw [hop] at h
  dsimp only at h
  rw [hin] at h
  exact of_decide_eq_true h

theorem keepsBlock_of_test {ip : String} {s : State} {e : Event} (h : keepsBlock s e = true) : KeepsBlock ip s e := by
  obtain ⟨now, op⟩ := e
  cases op <;> first | exact absurd h Bool.false_ne_true | simp [KeepsBlock]

/-- One request after the other, until its failure is counted. -/
def serial (ip : String) (n : Nat) : List Event :=
  [⟨0, .arrive ip⟩, ⟨0, .readList n true⟩, ⟨0, .check n⟩, ⟨0, .validate n false⟩, ⟨0, .count n⟩]

/-- Four failures, then two requests at once. -/
def lastTwoAtOnce : List Event :=
  (List.range 4).flatMap (serial "203.0.113.7") ++
    [⟨0, .arrive "203.0.113.7"⟩, ⟨0, .arrive "203.0.113.7"⟩, ⟨0, .readList 4 true⟩, ⟨0, .readList 5 true⟩,
      ⟨0, .check 4⟩, ⟨0, .check 5⟩]

/-- **Guesses are bounded.** If at every check at most `k` requests of the address are past it and not counted, no
window ever has more than `maxHits + k` guesses; `maxHits` itself is a bound for `k = 0` only. A blocked address gets
no request through in any run. -/
theorem guesses_bounded (k : Nat) :
    (∀ listed clock es t, Run step (Overlaps k) { clock, listed } es t →
      Throughout step (fun s => ∀ ip, guesses s ip ≤ maxHits + k) { clock, listed } es) ∧
    ((∀ es t, Run step (Overlaps k) {} es t → Throughout step Bounded {} es) ↔ k = 0) ∧
    (∀ s ip es t, (s.limiter.blockedIPs ip).isSome → Run step (KeepsBlock ip) s es t →
      ∀ n, Entered t ip n → Entered s ip n) ∧
    (∀ s ip es t, s.listed ip = true → Run step (KeepsListed ip) s es t →
      ∀ n, PassedList t ip n → PassedList s ip n) := by
  have hbound : ∀ listed clock es t, Run step (Overlaps k) { clock, listed } es t →
      Throughout step (fun s => ∀ ip, guesses s ip ≤ maxHits + k) { clock, listed } es := by
    intro listed clock es t hr
    exact hr.throughout (fun _ _ _ hc hb hs => guesses_step hc hb hs) fun ip => Nat.zero_le _
  refine ⟨hbound, ⟨fun hall => ?_, ?_⟩, fun s ip es t hb hr => (no_entry_while_blocked hr hb).2,
    fun s ip es t hl hr => (no_entry_while_listed hr hl).2⟩
  · by_contra hk
    obtain ⟨t, ht⟩ : ∃ t, execWhile step (overlaps 1) {} lastTwoAtOnce = some t :=
      Option.isSome_iff_exists.mp (by decide +kernel)
    have hr : Run step (Overlaps k) {} lastTwoAtOnce t :=
      (run_of_execWhile (C := Overlaps 1) (fun _ _ => overlaps_of_test) ht).imp fun s e hone n ip hop hin =>
        Nat.le_trans (hone n ip hop hin) (Nat.one_le_iff_ne_zero.mpr hk)
    have hguesses : guesses t "203.0.113.7" = 6 :=
      read_of_exec (f := fun t => guesses t "203.0.113.7") (exec_of_run hr) (by decide +kernel)
    have hle := (hall _ t hr).last (exec_of_run hr) "203.0.113.7"
    rw [hguesses] at hle
    exact absurd hle (by decide)
  · rintro rfl es t hr
    exact (hbound _ _ es t hr).imp fun s hs => hs

/-- Five failures block the address. -/
def fiveFailures : List Event := (List.range 5).flatMap (serial "203.0.113.7")

/-- A request that has found the address not listed is stopped by the block, a later one by the list. -/
def twoMore : List Event :=
  [⟨1, .arrive "203.0.113.7"⟩, ⟨1, .readList 5 true⟩, ⟨1, .addToList 4 true⟩, ⟨1, .check 5⟩,
    ⟨2, .arrive "203.0.113.7"⟩, ⟨2, .readList 6 true⟩]

theorem guesses_bounded_fiveFailures : ∃ s t, Run step (Overlaps 0) {} fiveFailures s ∧
    s.limiter.entries "203.0.113.7" = some ⟨5, 0⟩ ∧ s.limiter.blockedIPs "203.0.113.7" = some 0 ∧
    Throughout step (fun s => ∀ ip, guesses s ip ≤ maxHits + 0) {} fiveFailures ∧
    exec step s twoMore = some t ∧ t.listed "203.0.113.7" = true ∧
    [5, 6].map t.requests.get? = List.replicate 2 (some ⟨"203.0.113.7", .rejected⟩) ∧
    ∀ n, Entered t "203.0.113.7" n → Entered s "203.0.113.7" n := by
  obtain ⟨s, hs⟩ : ∃ s, execWhile step (overlaps 0) {} fiveFailures = some s :=
    Option.isSome_iff_exists.mp (by decide +kernel)
  have hr := run_of_execWhile (C := Overlaps 0) (fun _ _ => overlaps_of_test) hs
  have hexec := exec_of_run hr
  have hblocked : s.limiter.blockedIPs "203.0.113.7" = some 0 :=
    read_of_exec (f := fun s => s.limiter.blockedIPs "203.0.113.7") hexec (by decide +kernel)
  have hmore : (execWhile step keepsBlock s twoMore).isSome = true :=
    read_of_exec (f := fun s => (execWhile step keepsBlock s twoMore).isSome) hexec (by decide +kernel)
  obtain ⟨t, ht⟩ := Option.isSome_iff_exists.mp hmore
  have hr' := run_of_execWhile (C := KeepsBlock "203.0.113.7") (fun _ _ => keepsBlock_of_test) ht
  have hall : exec step {} (fiveFailures ++ twoMore) = some t := exec_of_run (C := Always _ _)
    (Run.append (run_of_exec hexec) (run_of_exec (exec_of_run hr')))
  exact ⟨s, t, hr, read_of_exec (f := fun s => s.limiter.entries "203.0.113.7") hexec (by decide +kernel), hblocked,
    (guesses_bounded 0).1 _ _ _ _ hr, exec_of_run hr',
    read_of_exec (f := fun t => t.listed "203.0.113.7") hall (by decide +kernel),
    read_of_exec (f := fun t => [5, 6].map t.requests.get?) hall (by decide +kernel),
    (guesses_bounded 0).2.2.1 s _ _ t (hblocked ▸ rfl) hr'⟩

/-- Six requests, each checked before any is counted. -/
def sixAtOnce : List Event :=
  (List.replicate 6 ⟨0, .arrive "203.0.113.7"⟩) ++ (List.range 6).map (fun n => ⟨0, .readList n true⟩) ++
    (List.range 6).map (fun n => ⟨0, .check n⟩) ++ (List.range 6).map (fun n => ⟨0, .validate n false⟩) ++
    (List.range 6).map fun n => ⟨0, .count n⟩

def sixState : State := (exec step {} sixAtOnce).get (by decide)

/-- All six passwords are tried, and counted in one window. -/
theorem six_guesses :
    exec step {} sixAtOnce = some sixState ∧ sixState.limiter.current sixState.clock "203.0.113.7" = some ⟨6, 0⟩ ∧
      ¬ Bounded sixState :=
  ⟨(Option.some_get _).symm, by decide, fun h => absurd (h "203.0.113.7") (by decide)⟩

end OciHelper.Auth.Login
