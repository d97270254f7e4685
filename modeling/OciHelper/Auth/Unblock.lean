import OciHelper.Auth.Limiter

/-!
# Unblocking an address

* `handleAdminBlacklistClear` : what an administrator clears, in memory and in the table;
* `Elsewhere` : the server goes on, but not with the requests of an address;
* `Unblocked` : the next login of the address gets past the checks, and one wrong password does not block it again;
* `Quiet` : what the checks read about the address; `unblocked_iff` : which of it an unblocked address has;
* `clear_takes_effect_iff` : which states a successful clear unblocks.
-/

namespace OciHelper.Auth.Login
open StepRun

/-- The limiter, and the addresses of the table `login_blacklist` as a read lists them. -/
structure Access where
  limiter : LoginRateLimiter := {}
  blacklist : List String := []

/-- The server with some requests in progress. -/
def Access.state (s : Access) (clock : Int) (requests : Pool Request) : State where
  clock := clock
  limiter := s.limiter
  listed ip := decide (ip ∈ s.blacklist)
  requests := requests

/-- `list` is the number of rows that the read returns before it fails, if it fails. -/
structure Answers where
  list : Option Nat := none
  remove : String → Bool := fun _ => true

def listLoginBlacklist (a : Answers) (rows : List String) : List String :=
  match a.list with
  | none => rows
  | some n => rows.take n

def removeLoginBlacklist (a : Answers) (rows : List String) (ip : String) : Bool × List String :=
  if a.remove ip then (decide (ip ∈ rows), rows.filter (· ≠ ip)) else (false, rows)

/-- `body` is the field `ip` of a body that can be decoded. -/
structure ClearRequest where
  post : Bool := true
  body : Option String

inductive Response
  | error (status : Nat) (text : String)
  | json (fields : List (String × String))
  deriving DecidableEq, Repr

def Response.success (r : Response) : Prop := ∃ fields, r = .json fields ∧ ("status", "ok") ∈ fields

structure Cleared where
  response : Response
  access : Access
  audit : Option (String × String) := none

def handleAdminBlacklistClear (a : Answers) (s : Access) (r : ClearRequest) : Cleared :=
  if ¬ r.post then ⟨.error 405 "Method Not Allowed", s, none⟩
  else
    match r.body with
    | none => ⟨.error 400 "invalid body", s, none⟩
    | some ip =>
      let limiter := s.limiter.clearBlockedIP ip
      if ip = "" then
        let entries := listLoginBlacklist a s.blacklist
        let rows := entries.foldl (fun rows e => (removeLoginBlacklist a rows e).2) s.blacklist
        ⟨.json [("status", "ok"), ("cleared", "all")], ⟨limiter, rows⟩,
          some ("blacklist:clear-all", "all blocked IPs cleared")⟩
      else
        let removed := removeLoginBlacklist a s.blacklist ip
        if (s.limiter.blockedIPs ip).isSome || removed.1 then
          ⟨.json [("status", "ok"), ("ip", ip)], ⟨limiter, removed.2⟩, some ("blacklist:clear", ip)⟩
        else ⟨.json [("status", "not_found"), ("ip", ip)], ⟨limiter, removed.2⟩, none⟩

/-- The addresses that a request is about. -/
def ClearRequest.Concerns (r : ClearRequest) (ip : String) : Prop := r.body = some "" ∨ r.body = some ip

/-! ## The next login -/

/-- The request that an operation goes on with. -/
def Op.request : Op → Option Nat
  | .readList n _ | .check n | .validate n _ | .count n | .addToList n _ | .reset n => some n
  | .arrive _ | .cleanup | .clearBlocked _ | .removeListed _ _ | .restore => none

/-- The event is not about a request of the address. -/
def Elsewhere (ip : String) (s : State) (e : Event) : Prop :=
  e.op ≠ .arrive ip ∧ ∀ n ∈ e.op.request, ∀ r ∈ s.requests.get? n, r.ip ≠ ip

/-- When each part of a login is done. -/
structure Times where
  arrive : Int
  read : Int
  check : Int
  validate : Int
  count : Int

/-- A login up to the read of the blacklist. -/
def arrival (n : Nat) (ip : String) (τ : Times) (readOk : Bool) : List Event :=
  [⟨τ.arrive, .arrive ip⟩, ⟨τ.read, .readList n readOk⟩]

def wrongPassword (n : Nat) (τ : Times) : List Event := [⟨τ.validate, .validate n false⟩, ⟨τ.count, .count n⟩]

/-- The next login of the address is rejected neither by the blacklist nor by the limiter, and a wrong password neither
blocks the address nor puts it on the blacklist. -/
def NextLogin (t : State) (ip : String) : Prop :=
  ∀ τ readOk u, exec step t (arrival t.requests.workers.length ip τ readOk) = some u →
    u.ipIn t.requests.workers.length .checking = some ip ∧
    ∀ v, step u ⟨τ.check, .check t.requests.workers.length⟩ = some v →
      v.ipIn t.requests.workers.length .validating = some ip ∧
      ∀ w, exec step v (wrongPassword t.requests.workers.length τ) = some w →
        w.ipIn t.requests.workers.length .finished = some ip ∧ w.limiter.isBlocked w.clock ip = false

/-- Whatever goes on elsewhere before it, the next login of the address is as it should be. -/
def Unblocked (s : Access) (clock : Int) (ip : String) : Prop :=
  ∀ requests es t, Run step (Elsewhere ip) (s.state clock requests) es t → NextLogin t ip

/-! ## What the checks read -/

/-- The address is not on the blacklist nor blocked, and a failure more is not too many. -/
structure Quiet (s : State) (ip : String) : Prop where
  notListed : s.listed ip = false
  notBlocked : s.limiter.blockedIPs ip = none
  few : counted s.limiter s.clock ip + 1 < maxHits

theorem counted_of_none {rl : LoginRateLimiter} {now : Int} {ip : String} (h : rl.current now ip = none) :
    counted rl now ip = 0 := by
  unfold counted
  rw [h]
  rfl

theorem counted_of_some {rl : LoginRateLimiter} {now : Int} {ip : String} {e : RateLimitEntry}
    (h : rl.current now ip = some e) : counted rl now ip = e.count := by
  unfold counted
  rw [h]
  rfl

/-- An address is blocked by its mark or by its failures. -/
theorem isBlocked_eq_false_iff (rl : LoginRateLimiter) (now : Int) (ip : String) :
    rl.isBlocked now ip = false ↔ rl.blockedIPs ip = none ∧ counted rl now ip < maxHits := by
  unfold LoginRateLimiter.isBlocked
  cases hmark : rl.blockedIPs ip with
  | some at_ => simp
  | none =>
    cases hcur : rl.current now ip with
    | none =>
      have hzero := counted_of_none hcur
      simp [hzero, maxHits]
    | some e =>
      have hcount := counted_of_some hcur
      simp [hcount]

/-- A failure is one too many if the count reaches the limit. -/
theorem allow_fst (rl : LoginRateLimiter) (now : Int) (ip : String) :
    (rl.allow now ip).1 = true ↔ counted rl now ip + 1 < maxHits := by
  unfold LoginRateLimiter.allow
  cases hcur : rl.current now ip with
  | none =>
    have hzero := counted_of_none hcur
    simp [hzero, maxHits]
  | some e =>
    have hcount := counted_of_some hcur
    rw [hcount]
    dsimp only
    split
    · next hge => exact iff_of_false Bool.false_ne_true (by omega)
    · next hlt => exact iff_of_true rfl (by omega)

/-- Only a failure too many marks an address. -/
theorem blockedIPs_allow (rl : LoginRateLimiter) (now : Int) (ip ip' : String)
    (h : ip' ≠ ip ∨ (rl.allow now ip).1 = true) : (rl.allow now ip).2.blockedIPs ip' = rl.blockedIPs ip' := by
  revert h
  unfold LoginRateLimiter.allow
  split
  · exact fun _ => rfl
  · dsimp only
    split
    · intro h
      rcases h with hne | hfalse
      · exact Function.update_of_ne hne _ _
      · cases hfalse
    · exact fun _ => rfl

/-! ## Elsewhere -/

theorem Elsewhere.ne {s : State} {e : Event} {ip ip' : String} {n : Nat} {phase : Phase} (h : Elsewhere ip s e)
    (hn : n ∈ e.op.request) (hin : s.ipIn n phase = some ip') : ip ≠ ip' :=
  fun heq => h.2 n hn _ (ipIn_eq_some hin) heq.symm

/-- **What goes on elsewhere leaves an address quiet.** -/
theorem Quiet.elsewhere {s s' : State} {e : Event} {ip : String} (h : Quiet s ip) (he : Elsewhere ip s e)
    (hs : step s e = some s') : Quiet s' ip := by
  obtain ⟨hnow, s₁, hact, rfl⟩ := step_eq_some hs
  obtain ⟨hlisted, hmark, hfew⟩ := h
  obtain ⟨now, op⟩ := e
  have hless := counted_le s.limiter hnow ip
  have hfew' : counted s.limiter now ip + 1 < maxHits := by
    dsimp only at hless
    omega
  cases op with
  | arrive ip' =>
    cases hact
    exact ⟨hlisted, hmark, hfew'⟩
  | readList n ok =>
    obtain ⟨ip', -, rfl⟩ := Option.map_eq_some_iff.mp hact
    exact ⟨hlisted, hmark, hfew'⟩
  | check n =>
    obtain ⟨ip', -, rfl⟩ := Option.map_eq_some_iff.mp hact
    exact ⟨hlisted, hmark, hfew'⟩
  | validate n right =>
    obtain ⟨ip', -, rfl⟩ := Option.map_eq_some_iff.mp hact
    exact ⟨hlisted, hmark, hfew'⟩
  | count n =>
    obtain ⟨ip', hin, rfl⟩ := Option.map_eq_some_iff.mp hact
    have hne : ip ≠ ip' := he.ne rfl hin
    refine ⟨hlisted, ?_, ?_⟩
    · exact (blockedIPs_allow s.limiter now ip' ip (.inl hne)).trans hmark
    · have hcount := counted_allow s.limiter now ip' ip
      rw [if_neg hne.symm] at hcount
      dsimp only
      omega
  | addToList n ok =>
    obtain ⟨ip', hin, rfl⟩ := Option.map_eq_some_iff.mp hact
    have hne : ip ≠ ip' := he.ne rfl hin
    refine ⟨?_, hmark, hfew'⟩
    dsimp only
    split
    · rwa [Function.update_of_ne hne]
    · exact hlisted
  | reset n =>
    obtain ⟨ip', -, rfl⟩ := Option.map_eq_some_iff.mp hact
    have hreset := counted_reset_le s.limiter now ip' ip
    refine ⟨hlisted, hmark, ?_⟩
    dsimp only
    omega
  | cleanup =>
    cases hact
    refine ⟨hlisted, ?_, ?_⟩
    · change (s.limiter.blockedIPs ip).filter _ = none
      rw [hmark]
      rfl
    · dsimp only
      rwa [counted_cleanup]
  | clearBlocked ip' =>
    cases hact
    refine ⟨hlisted, ?_, hfew'⟩
    change (if ip' = "" then fun _ => none else Function.update s.limiter.blockedIPs ip' none) ip = none
    split
    · rfl
    · rw [Function.update_apply]
      split
      · rfl
      · exact hmark
  | removeListed ip' ok =>
    cases hact
    refine ⟨?_, hmark, hfew'⟩
    dsimp only
    split
    · rw [Function.update_apply]
      split
      · rfl
      · exact hlisted
    · exact hlisted
  | restore =>
    cases hact
    exact ⟨rfl, hmark, hfew'⟩

theorem Quiet.run {s t : State} {es : List Event} {ip : String} (h : Quiet s ip)
    (hrun : Run step (Elsewhere ip) s es t) : Quiet t ip :=
  hrun.invariant (I := fun t => Quiet t ip) (fun _ _ _ he hq hs => hq.elsewhere he hs) h

/-! ## One login -/

/-- A request that has just joined, after it went on. -/
theorem ipIn_go_last {s : State} {n : Nat} {ip : String} {phase : Phase} (h : s.ipIn n phase = some ip)
    (ip' : String) (phase' : Phase) : (s.go n ip' phase').ipIn n phase' = some ip' := by
  unfold State.ipIn State.go
  dsimp only
  rw [Pool.get?_put _ (ipIn_eq_some h), if_pos rfl]
  simp

theorem exec_pair {s t : State} {e f : Event} (h : exec step s [e, f] = some t) :
    ∃ s', step s e = some s' ∧ step s' f = some t := by
  obtain ⟨s', he, h⟩ := Option.bind_eq_some_iff.mp h
  obtain ⟨s'', hf, h⟩ := Option.bind_eq_some_iff.mp h
  cases h
  exact ⟨s', he, hf⟩

/-- A login up to the read of the blacklist changes neither the blacklist nor the limiter. -/
theorem arrival_spec {t u : State} {ip : String} {τ : Times} {readOk : Bool}
    (h : exec step t (arrival t.requests.workers.length ip τ readOk) = some u) :
    t.clock ≤ u.clock ∧ u.clock = τ.read ∧ u.limiter = t.limiter ∧
      u.ipIn t.requests.workers.length (if readOk && t.listed ip then .rejected else .checking) = some ip := by
  obtain ⟨t₁, harrive, hread⟩ := exec_pair h
  obtain ⟨hle₁, s₁, hact₁, rfl⟩ := step_eq_some harrive
  obtain ⟨hle₂, s₂, hact₂, rfl⟩ := step_eq_some hread
  cases hact₁
  obtain ⟨ip', hin, rfl⟩ := Option.map_eq_some_iff.mp hact₂
  have hip : ip' = ip := by
    have hget := ipIn_eq_some hin
    dsimp only at hget
    rw [Pool.get?_join, if_pos rfl] at hget
    exact (congrArg Request.ip (Option.some.inj hget)).symm
  rw [hip] at hin ⊢
  refine ⟨?_, rfl, rfl, ?_⟩
  · dsimp only at hle₁ hle₂ ⊢
    omega
  · exact ipIn_go_last hin ip _

theorem check_spec {u v : State} {n : Nat} {ip : String} {now : Int} (hin : u.ipIn n .checking = some ip)
    (h : step u ⟨now, .check n⟩ = some v) :
    u.clock ≤ v.clock ∧ v.clock = now ∧ v.limiter = u.limiter ∧
      v.ipIn n (if u.limiter.isBlocked v.clock ip then .rejected else .validating) = some ip := by
  obtain ⟨hle, s₁, hact, rfl⟩ := step_eq_some h
  obtain ⟨ip', hin', rfl⟩ := Option.map_eq_some_iff.mp hact
  obtain rfl := Option.some.inj (hin.symm.trans hin')
  exact ⟨hle, rfl, rfl, ipIn_go_last hin ip _⟩

theorem wrongPassword_spec {v w : State} {n : Nat} {ip : String} {τ : Times} (hin : v.ipIn n .validating = some ip)
    (h : exec step v (wrongPassword n τ) = some w) :
    v.clock ≤ w.clock ∧ w.clock = τ.count ∧ w.limiter = (v.limiter.allow w.clock ip).2 ∧
      w.ipIn n (if (v.limiter.allow w.clock ip).1 then .finished else .blocking) = some ip := by
  obtain ⟨v₁, hvalidate, hcount⟩ := exec_pair h
  obtain ⟨hle₁, s₁, hact₁, rfl⟩ := step_eq_some hvalidate
  obtain ⟨hle₂, s₂, hact₂, rfl⟩ := step_eq_some hcount
  obtain ⟨ip₁, hin₁, rfl⟩ := Option.map_eq_some_iff.mp hact₁
  obtain rfl := Option.some.inj (hin.symm.trans hin₁)
  have hfailed := ipIn_go_last hin ip .failed
  obtain ⟨ip₂, hin₂, rfl⟩ := Option.map_eq_some_iff.mp hact₂
  have hip : ip₂ = ip := Option.some.inj (hin₂.symm.trans hfailed)
  rw [hip] at hin₂ ⊢
  refine ⟨?_, rfl, rfl, ?_⟩
  · dsimp only at hle₁ hle₂ ⊢
    omega
  · exact ipIn_go_last hin₂ ip _

theorem Quiet.nextLogin {t : State} {ip : String} (h : Quiet t ip) : NextLogin t ip := by
  obtain ⟨hlisted, hmark, hfew⟩ := h
  intro τ readOk u hu
  obtain ⟨hle, -, hlimiter, hin⟩ := arrival_spec hu
  rw [hlisted, Bool.and_false, if_neg Bool.false_ne_true] at hin
  refine ⟨hin, fun v hv => ?_⟩
  obtain ⟨hle', -, hlimiter', hin'⟩ := check_spec hin hv
  have hcount := counted_le t.limiter (Int.le_trans hle hle') ip
  have hfree : u.limiter.isBlocked v.clock ip = false := by
    rw [hlimiter]
    exact (isBlocked_eq_false_iff ..).mpr ⟨hmark, by omega⟩
  rw [hfree, if_neg Bool.false_ne_true] at hin'
  refine ⟨hin', fun w hw => ?_⟩
  obtain ⟨hle'', -, hlimiter'', hin''⟩ := wrongPassword_spec hin' hw
  rw [hlimiter', hlimiter] at hlimiter'' hin''
  have hcount' := counted_le t.limiter (Int.le_trans (Int.le_trans hle hle') hle'') ip
  have hallow : (t.limiter.allow w.clock ip).1 = true := (allow_fst ..).mpr (by omega)
  rw [hallow, if_pos rfl] at hin''
  refine ⟨hin'', ?_⟩
  rw [hlimiter'']
  refine (isBlocked_eq_false_iff ..).mpr ⟨?_, ?_⟩
  · exact (blockedIPs_allow _ _ _ _ (.inr hallow)).trans hmark
  · rw [counted_allow, if_pos rfl]
    omega

/-- Everything at once. -/
def Times.at (now : Int) : Times := ⟨now, now, now, now, now⟩

theorem step_now {s : State} {op : Op} (h : (act s s.clock op).isSome) : ∃ s', step s ⟨s.clock, op⟩ = some s' := by
  obtain ⟨s₁, hact⟩ := Option.isSome_iff_exists.mp h
  refine ⟨{ s₁ with clock := s.clock }, ?_⟩
  unfold step
  rw [if_pos (Int.le_refl _), hact]
  rfl

theorem exec_pair_now {s : State} {op op' : Op} (h : (act s s.clock op).isSome)
    (h' : ∀ s', step s ⟨s.clock, op⟩ = some s' → (act s' s'.clock op').isSome) :
    ∃ t, exec step s [⟨s.clock, op⟩, ⟨s.clock, op'⟩] = some t := by
  obtain ⟨s', hs⟩ := step_now h
  have hclock : s'.clock = s.clock := by
    obtain ⟨-, s₁, -, rfl⟩ := step_eq_some hs
    rfl
  obtain ⟨t, ht⟩ := step_now (h' s' hs)
  rw [hclock] at ht
  exact ⟨t, Option.bind_eq_some_iff.mpr ⟨s', hs, Option.bind_eq_some_iff.mpr ⟨t, ht, rfl⟩⟩⟩

theorem exists_arrival (t : State) (ip : String) :
    ∃ u, exec step t (arrival t.requests.workers.length ip (.at t.clock) true) = some u := by
  refine exec_pair_now rfl fun s' hs => ?_
  obtain ⟨-, s₁, hact, rfl⟩ := step_eq_some hs
  cases hact
  simp [act, State.ipIn, Pool.get?_join]

theorem exists_check {u : State} {n : Nat} {ip : String} (h : u.ipIn n .checking = some ip) :
    ∃ v, step u ⟨u.clock, .check n⟩ = some v := by
  refine step_now ?_
  simp [act, h]

theorem exists_wrongPassword {v : State} {n : Nat} {ip : String} (h : v.ipIn n .validating = some ip) :
    ∃ w, exec step v (wrongPassword n (.at v.clock)) = some w := by
  refine exec_pair_now ?_ fun s' hs => ?_
  · simp [act, h]
  · obtain ⟨-, s₁, hact, rfl⟩ := step_eq_some hs
    obtain ⟨ip', hin, rfl⟩ := Option.map_eq_some_iff.mp hact
    have hfailed := ipIn_go_last hin ip' .failed
    unfold State.ipIn at hfailed
    simp [act, State.ipIn, hfailed]

theorem ipIn_inj {s : State} {n : Nat} {phase phase' : Phase} {ip : String} (h : s.ipIn n phase = some ip)
    (h' : s.ipIn n phase' = some ip) : phase = phase' :=
  congrArg Request.phase (Option.some.inj ((ipIn_eq_some h).symm.trans (ipIn_eq_some h')))

/-- A request in the second of two phases took the second branch. -/
theorem branch_of_ipIn {s : State} {n : Nat} {b : Bool} {phase phase' : Phase} {ip : String} (hne : phase ≠ phase')
    (h : s.ipIn n (if b then phase else phase') = some ip) (h' : s.ipIn n phase' = some ip) : b = false := by
  cases b with
  | false => rfl
  | true => exact absurd (ipIn_inj h h') hne

/-- The login comes at once. -/
theorem NextLogin.quiet {t : State} {ip : String} (h : NextLogin t ip) : Quiet t ip := by
  obtain ⟨u, hu⟩ := exists_arrival t ip
  obtain ⟨hchecking, hu'⟩ := h _ _ _ hu
  obtain ⟨-, hclock, hlimiter, hin⟩ := arrival_spec hu
  have hlisted : t.listed ip = false := branch_of_ipIn (by decide) hin hchecking
  obtain ⟨v, hv⟩ := exists_check hchecking
  rw [show u.clock = t.clock from hclock] at hv
  obtain ⟨hvalidating, hv'⟩ := hu' v hv
  obtain ⟨-, hclock', hlimiter', hin'⟩ := check_spec hchecking hv
  have hfree : u.limiter.isBlocked v.clock ip = false := branch_of_ipIn (by decide) hin' hvalidating
  rw [hclock', hlimiter] at hfree
  obtain ⟨w, hw⟩ := exists_wrongPassword hvalidating
  rw [hclock'] at hw
  obtain ⟨hfinished, -⟩ := hv' w hw
  obtain ⟨-, hclock'', -, hin''⟩ := wrongPassword_spec hvalidating hw
  have hallow : (v.limiter.allow w.clock ip).1 = true := by
    cases ha : (v.limiter.allow w.clock ip).1 with
    | true => rfl
    | false =>
      rw [ha] at hin''
      cases ipIn_inj hin'' hfinished
  rw [hlimiter', hlimiter, show w.clock = t.clock from hclock''] at hallow
  exact ⟨hlisted, ((isBlocked_eq_false_iff ..).mp hfree).1, (allow_fst ..).mp hallow⟩

/-- An unblocked address is one that the checks know nothing against. -/
theorem unblocked_iff (s : Access) (clock : Int) (ip : String) :
    Unblocked s clock ip ↔
      ip ∉ s.blacklist ∧ s.limiter.blockedIPs ip = none ∧ counted s.limiter clock ip + 1 < maxHits := by
  constructor
  · intro h
    obtain ⟨hlisted, hmark, hfew⟩ := (h {} [] _ (.nil _)).quiet
    exact ⟨of_decide_eq_false hlisted, hmark, hfew⟩
  · rintro ⟨hlisted, hmark, hfew⟩ requests es t hrun
    have hquiet : Quiet (s.state clock requests) ip := ⟨decide_eq_false hlisted, hmark, hfew⟩
    exact (hquiet.run hrun).nextLogin

/-! ## What a clear leaves -/

theorem counted_clearBlockedIP (rl : LoginRateLimiter) (now : Int) (ip ip' : String) :
    counted (rl.clearBlockedIP ip') now ip = counted rl now ip := rfl

theorem blockedIPs_clearBlockedIP {rl : LoginRateLimiter} {ip ip' : String} (h : ip' = "" ∨ ip' = ip) :
    (rl.clearBlockedIP ip').blockedIPs ip = none := by
  unfold LoginRateLimiter.clearBlockedIP
  rcases h with rfl | rfl
  · rfl
  · dsimp only
    split
    · rfl
    · exact Function.update_self ..

theorem mem_removeLoginBlacklist (a : Answers) (rows : List String) (ip ip' : String) :
    ip ∈ (removeLoginBlacklist a rows ip').2 ↔ ip ∈ rows ∧ (ip = ip' → a.remove ip = false) := by
  unfold removeLoginBlacklist
  split
  · next hok =>
    simp only [List.mem_filter, decide_eq_true_eq]
    refine and_congr_right fun _ => ⟨fun hne heq => absurd heq hne, fun hfail heq => ?_⟩
    rw [heq, hok] at hfail
    exact Bool.noConfusion (hfail rfl)
  · next hfail =>
    exact ⟨fun h => ⟨h, fun heq => by rw [heq]; exact Bool.eq_false_iff.mpr hfail⟩, fun h => h.1⟩

/-- The rows that the deletes leave. -/
theorem mem_foldl_remove (a : Answers) (ip : String) : ∀ (entries rows : List String),
    ip ∈ entries.foldl (fun rows e => (removeLoginBlacklist a rows e).2) rows ↔
      ip ∈ rows ∧ (ip ∈ entries → a.remove ip = false) := by
  intro entries
  induction entries with
  | nil => simp
  | cons e entries ih =>
    intro rows
    rw [List.foldl_cons, ih, mem_removeLoginBlacklist, List.mem_cons]
    tauto

/-- The request deletes the row of an address, if there is one. -/
def Deletes (a : Answers) (rows : List String) (r : ClearRequest) (ip : String) : Prop :=
  a.remove ip = true ∧ (r.body = some "" → ip ∈ listLoginBlacklist a rows)

/-- Both kinds of request. -/
theorem handleAdminBlacklistClear_spec {a : Answers} {s : Access} {r : ClearRequest}
    (h : (handleAdminBlacklistClear a s r).response.success) :
    ∃ ip, r.body = some ip ∧
      (handleAdminBlacklistClear a s r).access.limiter = s.limiter.clearBlockedIP ip ∧
      (handleAdminBlacklistClear a s r).access.blacklist =
        if ip = "" then
          (listLoginBlacklist a s.blacklist).foldl (fun rows e => (removeLoginBlacklist a rows e).2) s.blacklist
        else (removeLoginBlacklist a s.blacklist ip).2 := by
  revert h
  unfold handleAdminBlacklistClear
  split
  · rintro ⟨fields, h, -⟩
    cases h
  · split
    · rintro ⟨fields, h, -⟩
      cases h
    · next ip hbody =>
      intro _
      refine ⟨ip, hbody, ?_⟩
      dsimp only
      split
      · exact ⟨rfl, rfl⟩
      · split <;> exact ⟨rfl, rfl⟩

theorem mem_blacklist_of_success {a : Answers} {s : Access} {r : ClearRequest} {ip : String}
    (h : (handleAdminBlacklistClear a s r).response.success) (hc : r.Concerns ip) :
    ip ∈ (handleAdminBlacklistClear a s r).access.blacklist ↔ ip ∈ s.blacklist ∧ ¬ Deletes a s.blacklist r ip := by
  obtain ⟨ip', hbody, -, hrows⟩ := handleAdminBlacklistClear_spec h
  rw [hrows]
  unfold Deletes
  split
  · next hall =>
    rw [mem_foldl_remove, hbody, hall]
    cases a.remove ip <;> simp
  · next hone =>
    have hip : ip' = ip := by
      rcases hc with hc | hc
      · exact absurd (Option.some.inj (hbody.symm.trans hc)) hone
      · exact Option.some.inj (hbody.symm.trans hc)
    rw [mem_removeLoginBlacklist, hbody, hip]
    rw [hip] at hone
    simp [hone]

/-- **What a successful clear unblocks.** An address it is about is unblocked just when fewer failures are counted than
make the next one too many, and its row, if it has one, is deleted. -/
theorem clear_takes_effect_iff (a : Answers) (s : Access) (r : ClearRequest) (clock : Int)
    (h : (handleAdminBlacklistClear a s r).response.success) :
    ∀ ip, r.Concerns ip → (Unblocked (handleAdminBlacklistClear a s r).access clock ip ↔
      counted s.limiter clock ip + 1 < maxHits ∧ (ip ∈ s.blacklist → Deletes a s.blacklist r ip)) := by
  intro ip hc
  obtain ⟨ip', hbody, hlimiter, -⟩ := handleAdminBlacklistClear_spec h
  have habout : ip' = "" ∨ ip' = ip := by
    rcases hc with hc | hc
    · exact .inl (Option.some.inj (hbody.symm.trans hc))
    · exact .inr (Option.some.inj (hbody.symm.trans hc))
  rw [unblocked_iff, mem_blacklist_of_success h hc, hlimiter, counted_clearBlockedIP, blockedIPs_clearBlockedIP habout]
  tauto

/-- An address after five wrong passwords. -/
def afterFive : Access where
  limiter := (List.range 5).foldl (fun rl n => (rl.allow n "203.0.113.7").2) {}
  blacklist := ["203.0.113.7"]

/-- The clear is reported as done, and the failures still count. -/
theorem five_still_blocked :
    (handleAdminBlacklistClear {} afterFive { body := some "203.0.113.7" }).response.success ∧
      ¬ Unblocked (handleAdminBlacklistClear {} afterFive { body := some "203.0.113.7" }).access 10 "203.0.113.7" := by
  refine ⟨⟨_, rfl, by decide⟩, fun h => ?_⟩
  have hfew := ((unblocked_iff ..).mp h).2.2
  revert hfew
  decide

/-- A row without failures in memory, as after a restart. -/
theorem listed_unblocked :
    (handleAdminBlacklistClear {} ⟨{}, ["203.0.113.7"]⟩ { body := some "203.0.113.7" }).response.success ∧
      Unblocked (handleAdminBlacklistClear {} ⟨{}, ["203.0.113.7"]⟩ { body := some "203.0.113.7" }).access 0
        "203.0.113.7" := by
  have h : (handleAdminBlacklistClear {} ⟨{}, ["203.0.113.7"]⟩ { body := some "203.0.113.7" }).response.success :=
    ⟨_, rfl, by decide⟩
  exact ⟨h, (clear_takes_effect_iff _ _ _ 0 h _ (.inr rfl)).mpr ⟨by decide, fun _ => ⟨rfl, by simp⟩⟩⟩

end OciHelper.Auth.Login
