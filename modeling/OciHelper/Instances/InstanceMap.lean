import Mathlib.Data.List.Perm.Subperm
import OciHelper.Db.Tables
import OciHelper.Lib.Pool
import OciHelper.Lib.StepRun
import OciHelper.Lib.Text

/-!
# The map of the instances

* `GeoEntry.fresh`, `addresses`, `missing` : which addresses are to be looked up;
* `step` : concurrent requests for the map, with their lookups, whose answers may come late, in any order or never;
* `lastAnswer` : what the last lookup of an address said; `unresolved` : how many addresses have no answer;
* `Loads` : requests one after the other whose lookups were answered, with anything else in between;
* `map_completes` : after `k` of them, eight times `k` addresses less are unresolved, as long as no entry expires.

Times are in nanoseconds.
-/

namespace OciHelper.Instances.InstanceMap
open StepRun Text

abbrev IP := List Char

/-- An instance under its id. -/
abbrev Row := Sigma fun _ : String => Db.Instance

def geoCacheTTL : Nat := 24 * 3600 * 10 ^ 9

def geoCacheNegTTL : Nat := 30 * 60 * 10 ^ 9

def geoFillPerRequest : Nat := 8

def geoFillBudget : Nat := 3 * 10 ^ 9

/-- A lookup that failed has no information. -/
structure GeoEntry (Info : Type) where
  info : Option Info
  time : Nat

def GeoEntry.ttl {Info : Type} (e : GeoEntry Info) : Nat := if e.info.isSome then geoCacheTTL else geoCacheNegTTL

def GeoEntry.fresh {Info : Type} (e : GeoEntry Info) (now : Nat) : Bool := now < e.time + e.ttl

structure MapPoint (Info : Type) where
  id : String
  name : String
  tenantID : Int
  state : String
  region : String
  publicIP : String
  info : Option Info

structure Lookup where
  ip : IP
  answered : Bool := false
  deriving DecidableEq, Repr

/-- The clock is read before the lock is taken, both times. -/
inductive Phase (Info : Type)
  | opened (time : Nat)
  | waiting (deadline : Nat)
  | woken (time : Nat)
  | counted (pending : Nat)
  | replied (points : List (MapPoint Info)) (pending : Nat)

structure Request (Info : Type) where
  instances : List Row
  lookups : List Lookup := []
  phase : Phase Info

/-- `log` has what the lookups said, for the statements only. -/
structure State (Info : Type) where
  now : Nat
  cache : IP → Option (GeoEntry Info) := fun _ => none
  requests : Pool (Request Info) := {}
  log : List (IP × Option Info) := []

inductive Event (Info : Type)
  | request (instances : List Row)
  | gather (n : Nat)
  | answer (n j : Nat) (info : Option Info)
  | wake (n : Nat)
  | count (n : Nat)
  | reply (n : Nat)
  | pass (time : Nat)

def address (inst : Row) : IP := trimSpace inst.2.publicIP.toList

/-- Each address once. -/
def addresses (instances : List Row) : List IP := ((instances.map address).filter (· ≠ [])).eraseDups

section
variable {Info : Type}

def point (inst : Row) (info : Option Info) : MapPoint Info :=
  { id := inst.1
    name := inst.2.name
    tenantID := inst.2.tenantID
    state := inst.2.state
    region := inst.2.region
    publicIP := inst.2.publicIP
    info }

/-- There is no fresh entry. -/
def stale (cache : IP → Option (GeoEntry Info)) (now : Nat) (ip : IP) : Bool := !(cache ip).any fun e => e.fresh now

def missing (cache : IP → Option (GeoEntry Info)) (now : Nat) (instances : List Row) : List IP :=
  (addresses instances).filter (stale cache now)

def step : Step (State Info) (Event Info)
  | s, .request instances => some { s with requests := s.requests.join { instances, phase := .opened s.now } }
  | s, .gather n =>
    (s.requests.get? n).bind fun r =>
      match r.phase with
      | .opened now =>
        let todo := (missing s.cache now r.instances).take geoFillPerRequest
        some
          { s with
            requests := s.requests.put n
              { r with lookups := todo.map fun ip => ⟨ip, false⟩, phase := .waiting (s.now + geoFillBudget) } }
      | _ => none
  | s, .answer n j info =>
    (s.requests.get? n).bind fun r =>
      match r.lookups[j]? with
      | some ⟨ip, false⟩ =>
        some
          { s with
            cache := Function.update s.cache ip (some ⟨info, s.now⟩)
            requests := s.requests.put n { r with lookups := r.lookups.set j ⟨ip, true⟩ }
            log := s.log ++ [(ip, info)] }
      | _ => none
  | s, .wake n =>
    (s.requests.get? n).bind fun r =>
      match r.phase with
      | .waiting deadline =>
        if r.lookups.all Lookup.answered || deadline ≤ s.now then
          some { s with requests := s.requests.put n { r with phase := .woken s.now } }
        else none
      | _ => none
  | s, .count n =>
    (s.requests.get? n).bind fun r =>
      match r.phase with
      | .woken now =>
        let pending := (addresses r.instances).countP (stale s.cache now)
        some { s with requests := s.requests.put n { r with phase := .counted pending } }
      | _ => none
  | s, .reply n =>
    (s.requests.get? n).bind fun r =>
      match r.phase with
      | .counted pending =>
        let points := r.instances.map fun inst => point inst ((s.cache (address inst)).bind GeoEntry.info)
        some { s with requests := s.requests.put n { r with phase := .replied points pending } }
      | _ => none
  | s, .pass time => some { s with now := s.now + time }

/-- The last answer to a lookup of the address. -/
def lastAnswer (log : List (IP × Option Info)) (ip : IP) : Option (Option Info) :=
  ((log.filter fun a => a.1 = ip).getLast?).map Prod.snd

/-- The addresses of which no lookup was answered. -/
def unresolved (log : List (IP × Option Info)) (instances : List Row) : Nat :=
  (addresses instances).countP fun ip => (lastAnswer log ip).isNone

/-- The request has its lookups, all of them answered. -/
def Request.Settled (r : Request Info) : Prop := (∀ now, r.phase ≠ .opened now) ∧ ∀ l ∈ r.lookups, l.answered = true

/-- So many requests for the instances one after the other, each settled before the next one comes. Whatever else
there is, other requests and late answers, may come at any time. -/
inductive Loads (instances : List Row) : Nat → State Info → State Info → Prop
  | none {s t : State Info} (h : Leads step s t) : Loads instances 0 s t
  | load {k : Nat} {s a b c t : State Info} {r : Request Info} (ha : Leads step s a)
      (hb : step a (.request instances) = some b) (hc : Leads step b c)
      (hr : c.requests.get? a.requests.workers.length = some r) (hsettled : r.Settled) (ht : Loads instances k c t) :
      Loads instances (k + 1) s t

/-! ## Lists -/

theorem nodup_eraseDups {α : Type} [BEq α] [LawfulBEq α] : ∀ {n : Nat} {xs : List α}, xs.length ≤ n →
    xs.eraseDups.Nodup := by
  intro n
  induction n with
  | zero =>
    intro xs h
    rw [List.length_eq_zero_iff.mp (Nat.le_zero.mp h)]
    exact List.nodup_nil
  | succ n ih =>
    intro xs h
    cases xs with
    | nil => exact List.nodup_nil
    | cons x xs =>
      rw [List.eraseDups_cons, List.nodup_cons]
      refine ⟨fun hmem => ?_, ih ?_⟩
      · rw [List.mem_eraseDups, List.mem_filter] at hmem
        simp at hmem
      · have hle := List.length_filter_le (fun b => !b == x) xs
        rw [List.length_cons] at h
        omega

theorem nodup_addresses (instances : List Row) : (addresses instances).Nodup := by
  unfold addresses
  exact nodup_eraseDups (le_refl _)

/-- Without the first `m` that were left, at least `m` less are left. -/
theorem countP_le_of_take {α : Type} {xs : List α} (hxs : xs.Nodup) {p q : α → Bool} (m : Nat)
    (hmono : ∀ x ∈ xs, q x = true → p x = true) (htake : ∀ x ∈ (xs.filter p).take m, q x = false) :
    xs.countP q ≤ xs.countP p - m := by
  have hsubset : xs.filter q ⊆ (xs.filter p).drop m := by
    intro x hx
    obtain ⟨hmem, hq⟩ := List.mem_filter.mp hx
    have hp : x ∈ (xs.filter p).take m ++ (xs.filter p).drop m := by
      rw [List.take_append_drop]
      exact List.mem_filter.mpr ⟨hmem, hmono x hmem hq⟩
    refine (List.mem_append.mp hp).resolve_left fun h => ?_
    rw [htake x h] at hq
    cases hq
  have hle := ((hxs.filter q).subperm hsubset).length_le
  rw [List.length_drop] at hle
  rwa [List.countP_eq_length_filter, List.countP_eq_length_filter]

/-! ## What a step does -/

theorem lastAnswer_append (log : List (IP × Option Info)) (ip : IP) (info : Option Info) (ip' : IP) :
    lastAnswer (log ++ [(ip, info)]) ip' = if ip = ip' then some info else lastAnswer log ip' := by
  unfold lastAnswer
  rw [List.filter_append]
  by_cases h : ip = ip'
  · simp [h]
  · simp [h]

theorem step_cases {s s' : State Info} {e : Event Info} (h : step s e = some s') :
    (∃ L, s' = { s with requests := s.requests.join { instances := L, phase := .opened s.now } }) ∨
    (∃ n r now, s.requests.get? n = some r ∧ r.phase = .opened now ∧
      s' = { s with
        requests := s.requests.put n
          { r with
            lookups := ((missing s.cache now r.instances).take geoFillPerRequest).map fun ip => ⟨ip, false⟩
            phase := .waiting (s.now + geoFillBudget) } }) ∨
    (∃ n r j ip info, s.requests.get? n = some r ∧ r.lookups[j]? = some ⟨ip, false⟩ ∧
      s' = { s with
        cache := Function.update s.cache ip (some ⟨info, s.now⟩)
        requests := s.requests.put n { r with lookups := r.lookups.set j ⟨ip, true⟩ }
        log := s.log ++ [(ip, info)] }) ∨
    (∃ n r phase, s.requests.get? n = some r ∧ (∀ now, r.phase ≠ .opened now) ∧ (∀ now, phase ≠ .opened now) ∧
      (∀ now, phase = .woken now → now = s.now) ∧ s' = { s with requests := s.requests.put n { r with phase } }) ∨
    ∃ time, s' = { s with now := s.now + time } := by
  cases e with
  | request L => exact .inl ⟨L, (Option.some.inj h).symm⟩
  | gather n =>
    obtain ⟨r, hr, h⟩ := Option.bind_eq_some_iff.mp h
    split at h
    · next now hphase => exact .inr (.inl ⟨n, r, now, hr, hphase, (Option.some.inj h).symm⟩)
    · cases h
  | answer n j info =>
    obtain ⟨r, hr, h⟩ := Option.bind_eq_some_iff.mp h
    split at h
    · next ip hj => exact .inr (.inr (.inl ⟨n, r, j, ip, info, hr, hj, (Option.some.inj h).symm⟩))
    · cases h
  | wake n =>
    obtain ⟨r, hr, h⟩ := Option.bind_eq_some_iff.mp h
    split at h
    · next deadline hphase =>
      split at h
      · refine .inr (.inr (.inr (.inl ⟨n, r, .woken s.now, hr, ?_, ?_, ?_, (Option.some.inj h).symm⟩)))
        · simp [hphase]
        · simp
        · simp
      · cases h
    · cases h
  | count n =>
    obtain ⟨r, hr, h⟩ := Option.bind_eq_some_iff.mp h
    split at h
    · next now hphase =>
      refine .inr (.inr (.inr (.inl ⟨n, r, _, hr, ?_, ?_, ?_, (Option.some.inj h).symm⟩)))
      · simp [hphase]
      · simp
      · simp
    · cases h
  | reply n =>
    obtain ⟨r, hr, h⟩ := Option.bind_eq_some_iff.mp h
    split at h
    · next pending hphase =>
      refine .inr (.inr (.inr (.inl ⟨n, r, _, hr, ?_, ?_, ?_, (Option.some.inj h).symm⟩)))
      · simp [hphase]
      · simp
      · simp
    · cases h
  | pass time => exact .inr (.inr (.inr (.inr ⟨time, (Option.some.inj h).symm⟩)))

/-- Time passes, and what was answered stays answered. -/
structure Grows (s s' : State Info) : Prop where
  now : s.now ≤ s'.now
  answered : ∀ ip, (lastAnswer s.log ip).isSome → (lastAnswer s'.log ip).isSome

theorem Grows.refl (s : State Info) : Grows s s := ⟨le_refl _, fun _ h => h⟩

theorem Grows.trans {s s' t : State Info} (h₁ : Grows s s') (h₂ : Grows s' t) : Grows s t :=
  ⟨h₁.now.trans h₂.now, fun ip h => h₂.answered ip (h₁.answered ip h)⟩

theorem isSome_lastAnswer_append {log : List (IP × Option Info)} {ip' : IP} (h : (lastAnswer log ip').isSome) (ip : IP)
    (info : Option Info) : (lastAnswer (log ++ [(ip, info)]) ip').isSome := by
  rw [lastAnswer_append]
  split
  · rfl
  · exact h

theorem grows_step {s s' : State Info} {e : Event Info} (h : step s e = some s') : Grows s s' := by
  obtain ⟨L, rfl⟩ | ⟨n, r, now, -, -, rfl⟩ | ⟨n, r, j, ip, info, -, -, rfl⟩ | ⟨n, r, phase, -, -, -, -, rfl⟩ |
    ⟨time, rfl⟩ := step_cases h
  · exact ⟨le_refl _, fun _ h => h⟩
  · exact ⟨le_refl _, fun _ h => h⟩
  · exact ⟨le_refl _, fun ip' h => isSome_lastAnswer_append h ip info⟩
  · exact ⟨le_refl _, fun _ h => h⟩
  · exact ⟨Nat.le_add_right _ _, fun _ h => h⟩

theorem grows_run {s t : State Info} (h : Leads step s t) : Grows s t := by
  obtain ⟨es, h⟩ := h
  exact h.invariant (I := Grows s) (fun _ _ _ _ hg hs => hg.trans (grows_step hs)) (Grows.refl s)

theorem unresolved_le {s t : State Info} (h : Grows s t) (L : List Row) : unresolved t.log L ≤ unresolved s.log L := by
  refine List.countP_mono_left fun ip _ hip => ?_
  rw [Option.isNone_iff_eq_none] at hip ⊢
  by_contra hne
  have hsome := h.answered ip (Option.isSome_iff_ne_none.mpr hne)
  rw [hip] at hsome
  cases hsome

/-! ## The cache has the answers -/

/-- The cache has the last answers. -/
structure Inv (s : State Info) : Prop where
  last : ∀ ip, (s.cache ip).map GeoEntry.info = lastAnswer s.log ip
  answered : ∀ n r, s.requests.get? n = some r → ∀ l ∈ r.lookups, l.answered = true → (lastAnswer s.log l.ip).isSome
  past : ∀ n r, s.requests.get? n = some r → ∀ now, r.phase = .woken now → now ≤ s.now

theorem inv_start (now : Nat) : Inv ({ now } : State Info) where
  last _ := rfl
  answered n r h := by simp [Pool.get?] at h
  past n r h := by simp [Pool.get?] at h

theorem Inv.step {s s' : State Info} {e : Event Info} (hi : Inv s) (h : step s e = some s') : Inv s' := by
  obtain ⟨L, rfl⟩ | ⟨n, r, now, hr, -, rfl⟩ | ⟨n, r, j, ip, info, hr, -, rfl⟩ | ⟨n, r, phase, hr, -, -, hwoken, rfl⟩ |
    ⟨time, rfl⟩ := step_cases h
  · refine ⟨hi.last, fun k r hk => ?_, fun k r hk => ?_⟩ <;> simp only [Pool.get?_join] at hk
    · split at hk
      · obtain rfl := Option.some.inj hk
        simp
      · exact hi.answered k r hk
    · split at hk
      · obtain rfl := Option.some.inj hk
        simp
      · exact hi.past k r hk
  · refine ⟨hi.last, ?_, ?_⟩
    · refine (Pool.forall_put_iff _ hr hi.answered _).mpr fun l hl ha => ?_
      obtain ⟨ip, -, rfl⟩ := List.mem_map.mp hl
      cases ha
    · exact (Pool.forall_put_iff _ hr hi.past _).mpr fun now hnow => by cases hnow
  · have hkeep : ∀ k r, s.requests.get? k = some r → ∀ l ∈ r.lookups, l.answered = true →
        (lastAnswer (s.log ++ [(ip, info)]) l.ip).isSome := fun k r hk l hl ha =>
      isSome_lastAnswer_append (hi.answered k r hk l hl ha) ip info
    refine ⟨fun ip' => ?_, ?_, ?_⟩
    · change (Function.update s.cache ip (some ⟨info, s.now⟩) ip').map GeoEntry.info =
        lastAnswer (s.log ++ [(ip, info)]) ip'
      rw [lastAnswer_append, Function.update_apply]
      by_cases hip : ip' = ip
      · rw [if_pos hip, if_pos hip.symm]
        rfl
      · rw [if_neg hip, if_neg (Ne.symm hip)]
        exact hi.last ip'
    · refine (Pool.forall_put_iff _ hr hkeep _).mpr fun l hl ha => ?_
      rcases List.mem_or_eq_of_mem_set hl with hl | rfl
      · exact hkeep n r hr l hl ha
      · simp [lastAnswer_append]
    · exact (Pool.forall_put_iff _ hr hi.past _).mpr (hi.past n r hr)
  · refine ⟨hi.last, ?_, ?_⟩
    · exact (Pool.forall_put_iff _ hr hi.answered _).mpr (hi.answered n r hr)
    · exact (Pool.forall_put_iff _ hr hi.past _).mpr fun now hnow => (hwoken now hnow).le
  · exact ⟨hi.last, hi.answered, fun k r hk now hnow => (hi.past k r hk now hnow).trans (Nat.le_add_right _ _)⟩

theorem Inv.run {s t : State Info} (hi : Inv s) (h : Leads InstanceMap.step s t) : Inv t := by
  obtain ⟨es, h⟩ := h
  exact h.invariant (fun _ _ _ _ hi hs => hi.step hs) hi

/-- Nothing expires up to the time. -/
structure Kept (T : Nat) (s : State Info) : Prop where
  now : T < s.now + geoCacheNegTTL
  cache : ∀ ip e, s.cache ip = some e → T < e.time + e.ttl

theorem le_ttl (e : GeoEntry Info) : geoCacheNegTTL ≤ e.ttl := by
  unfold GeoEntry.ttl
  split <;> decide

theorem Kept.step {T : Nat} {s s' : State Info} {e : Event Info} (hk : Kept T s) (h : step s e = some s') :
    Kept T s' := by
  refine ⟨hk.now.trans_le (Nat.add_le_add_right (grows_step h).now _), ?_⟩
  obtain ⟨L, rfl⟩ | ⟨n, r, now, -, -, rfl⟩ | ⟨n, r, j, ip, info, -, -, rfl⟩ | ⟨n, r, phase, -, -, -, -, rfl⟩ |
    ⟨time, rfl⟩ := step_cases h
  · exact hk.cache
  · exact hk.cache
  · intro ip' e he
    change Function.update s.cache ip (some ⟨info, s.now⟩) ip' = some e at he
    rw [Function.update_apply] at he
    split at he
    · obtain rfl := Option.some.inj he
      exact hk.now.trans_le (Nat.add_le_add_left (le_ttl _) _)
    · exact hk.cache ip' e he
  · exact hk.cache
  · exact hk.cache

theorem Kept.run {T : Nat} {s t : State Info} (hk : Kept T s) (h : Leads InstanceMap.step s t) : Kept T t := by
  obtain ⟨es, h⟩ := h
  exact h.invariant (fun _ _ _ _ hk hs => hk.step hs) hk

/-- As long as nothing expires, the addresses that are not fresh are those without an answer. -/
theorem stale_iff {T now : Nat} {s : State Info} (hi : Inv s) (hk : Kept T s) (hnow : now ≤ T) (ip : IP) :
    stale s.cache now ip = (lastAnswer s.log ip).isNone := by
  unfold stale
  rw [← hi.last ip]
  cases he : s.cache ip with
  | none => rfl
  | some e =>
    have hfresh := hnow.trans_lt (hk.cache ip e he)
    simpa [GeoEntry.fresh] using hfresh

/-! ## The requests for the map -/

/-- The addresses without an answer that are not looked up for the request. -/
def rest (log : List (IP × Option Info)) (r : Request Info) : Nat :=
  (addresses r.instances).countP fun ip => (lastAnswer log ip).isNone && !(r.lookups.map Lookup.ip).contains ip

/-- The request for the instances has not begun, or it leaves eight addresses less. -/
def Tracks (L : List Row) (now u n : Nat) (s : State Info) : Prop :=
  unresolved s.log L ≤ u ∧ ∃ r, s.requests.get? n = some r ∧ r.instances = L ∧
    (r.phase = .opened now ∨ (∀ t, r.phase ≠ .opened t) ∧ rest s.log r ≤ u - geoFillPerRequest)

theorem rest_le {log log' : List (IP × Option Info)} {r r' : Request Info}
    (hlog : ∀ ip, (lastAnswer log ip).isSome → (lastAnswer log' ip).isSome) (hinst : r'.instances = r.instances)
    (hlookups : r'.lookups.map Lookup.ip = r.lookups.map Lookup.ip) : rest log' r' ≤ rest log r := by
  unfold rest
  rw [hinst, hlookups]
  refine List.countP_mono_left fun ip _ hip => ?_
  rw [Bool.and_eq_true] at hip ⊢
  refine ⟨?_, hip.2⟩
  by_contra hne
  have hsome := hlog ip (by simpa [Option.isSome_iff_ne_none] using hne)
  rw [Option.isNone_iff_eq_none.mp hip.1] at hsome
  cases hsome

/-- The lookups of a request are for the first eight addresses without an answer. -/
theorem rest_gather {T now : Nat} {s : State Info} (hi : Inv s) (hk : Kept T s) (hnow : now ≤ T) (r : Request Info)
    (phase : Phase Info) :
    rest s.log
        { r with
          lookups := ((missing s.cache now r.instances).take geoFillPerRequest).map fun ip => ⟨ip, false⟩
          phase } ≤
      unresolved s.log r.instances - geoFillPerRequest := by
  have hstale : missing s.cache now r.instances =
      (addresses r.instances).filter fun ip => (lastAnswer s.log ip).isNone := by
    unfold missing
    exact List.filter_congr fun ip _ => stale_iff hi hk hnow ip
  unfold rest
  rw [hstale, List.map_map]
  refine countP_le_of_take (nodup_addresses _) geoFillPerRequest ?_ ?_
  · intro ip _ hip
    exact (Bool.and_eq_true_iff.mp hip).1
  · intro ip hip
    have hmem : ip ∈
        (((addresses r.instances).filter fun ip => (lastAnswer s.log ip).isNone).take geoFillPerRequest).map
          (Lookup.ip ∘ fun ip => ⟨ip, false⟩) := List.mem_map.mpr ⟨ip, hip, rfl⟩
    rw [List.contains_iff_mem.mpr hmem]
    simp

theorem Tracks.step {L : List Row} {now u n T : Nat} {s s' : State Info} {e : Event Info} (ht : Tracks L now u n s)
    (hi : Inv s) (hk : Kept T s) (hnow : now ≤ T) (h : step s e = some s') : Tracks L now u n s' := by
  have hgrows := grows_step h
  obtain ⟨hu, r, hr, rfl, hphase⟩ := ht
  refine ⟨(unresolved_le hgrows _).trans hu, ?_⟩
  obtain ⟨L, rfl⟩ | ⟨k, r', t, hr', hopened, rfl⟩ | ⟨k, r', j, ip, info, hr', hj, rfl⟩ |
    ⟨k, r', phase, hr', hbefore, hafter, -, rfl⟩ | ⟨time, rfl⟩ := step_cases h
  · have hlt : n < s.requests.workers.length := (List.getElem?_eq_some_iff.mp hr).1
    refine ⟨r, ?_, rfl, hphase⟩
    change (s.requests.join _).get? n = some r
    rw [Pool.get?_join, if_neg (by omega)]
    exact hr
  · simp only [Pool.get?_put _ hr']
    by_cases hn : n = k
    · subst hn
      obtain rfl := Option.some.inj (hr.symm.trans hr')
      refine ⟨_, if_pos rfl, rfl, .inr ⟨fun t ht => (by cases ht), ?_⟩⟩
      rcases hphase with hphase | ⟨hne, -⟩
      · obtain rfl : t = now := by
          rw [hopened] at hphase
          exact Phase.opened.inj hphase
        exact (rest_gather hi hk hnow r _).trans (Nat.sub_le_sub_right hu _)
      · exact absurd hopened (hne t)
    · exact ⟨r, by rw [if_neg hn, hr], rfl, hphase⟩
  · simp only [Pool.get?_put _ hr']
    by_cases hn : n = k
    · subst hn
      obtain rfl := Option.some.inj (hr.symm.trans hr')
      have hsame : (r.lookups.set j ⟨ip, true⟩).map Lookup.ip = r.lookups.map Lookup.ip := by
        obtain ⟨hlt, hget⟩ := List.getElem?_eq_some_iff.mp hj
        have hlt' : j < (r.lookups.map Lookup.ip).length := by rwa [List.length_map]
        have hip : ip = (r.lookups.map Lookup.ip)[j] := by simp [hget]
        rw [List.map_set, hip, List.set_getElem_self]
      have hle : rest (s.log ++ [(ip, info)]) { r with lookups := r.lookups.set j ⟨ip, true⟩ } ≤ rest s.log r :=
        rest_le hgrows.answered rfl hsame
      exact ⟨_, if_pos rfl, rfl, hphase.imp_right fun ⟨hne, hrest⟩ => ⟨hne, hle.trans hrest⟩⟩
    · refine ⟨r, by rw [if_neg hn, hr], rfl, hphase.imp_right fun ⟨hne, hrest⟩ => ⟨hne, ?_⟩⟩
      exact (rest_le hgrows.answered rfl rfl).trans hrest
  · simp only [Pool.get?_put _ hr']
    by_cases hn : n = k
    · subst hn
      obtain rfl := Option.some.inj (hr.symm.trans hr')
      refine ⟨_, if_pos rfl, rfl, .inr ⟨hafter, ?_⟩⟩
      rcases hphase with hphase | ⟨-, hrest⟩
      · exact absurd hphase (hbefore now)
      · exact hrest
    · exact ⟨r, by rw [if_neg hn, hr], rfl, hphase⟩
  · exact ⟨r, hr, rfl, hphase⟩

/-- A settled request has left eight addresses less. -/
theorem unresolved_of_settled {L : List Row} {now u n : Nat} {s : State Info} {r : Request Info}
    (ht : Tracks L now u n s) (hi : Inv s) (hr : s.requests.get? n = some r) (hsettled : r.Settled) :
    unresolved s.log L ≤ u - geoFillPerRequest := by
  obtain ⟨-, r', hr', rfl, hphase⟩ := ht
  obtain rfl := Option.some.inj (hr.symm.trans hr')
  rcases hphase with hphase | ⟨-, hrest⟩
  · exact absurd hphase (hsettled.1 now)
  · refine le_trans (List.countP_mono_left fun ip _ hip => ?_) hrest
    rw [Bool.and_eq_true]
    refine ⟨hip, ?_⟩
    rw [Bool.not_eq_true', ← Bool.not_eq_true, List.contains_iff_mem]
    intro hmem
    obtain ⟨l, hl, rfl⟩ := List.mem_map.mp hmem
    have hsome := hi.answered n r hr l hl (hsettled.2 l hl)
    rw [Option.isNone_iff_eq_none.mp hip] at hsome
    cases hsome

theorem Loads.grows {L : List Row} {k : Nat} {s t : State Info} (h : Loads L k s t) : Grows s t := by
  induction h with
  | none h => exact grows_run h
  | load ha hb hc _ _ _ ih => exact (grows_run ha).trans ((grows_step hb).trans ((grows_run hc).trans ih))

/-- The invariants after so many requests, and what they have left. -/
theorem unresolved_of_loads {L : List Row} {k T : Nat} {s t : State Info} (h : Loads L k s t) (hi : Inv s)
    (hk : Kept T s)
    (hT : t.now ≤ T) : Inv t ∧ Kept T t ∧ unresolved t.log L ≤ unresolved s.log L - geoFillPerRequest * k := by
  induction h with
  | none h => exact ⟨hi.run h, hk.run h, unresolved_le (grows_run h) L⟩
  | @load k s a b c t r ha hb hc hr hsettled ht ih =>
    have hia := hi.run ha
    have hka := hk.run ha
    have hib := hia.step hb
    have hkb := hka.step hb
    have hnow : a.now ≤ T := (grows_step hb).now.trans ((grows_run hc).now.trans (ht.grows.now.trans hT))
    have hbegun : Tracks L a.now (unresolved a.log L) a.requests.workers.length b := by
      obtain rfl := Option.some.inj hb
      refine ⟨le_refl _, { instances := L, phase := .opened a.now }, ?_, rfl, .inl rfl⟩
      change (a.requests.join _).get? _ = some _
      rw [Pool.get?_join, if_pos rfl]
    obtain ⟨es, hrun⟩ := hc
    have hall : Inv c ∧ Kept T c ∧ Tracks L a.now (unresolved a.log L) a.requests.workers.length c :=
      hrun.invariant
        (I := fun s => Inv s ∧ Kept T s ∧ Tracks L a.now (unresolved a.log L) a.requests.workers.length s)
        (fun _ _ _ _ ⟨hi, hk, ht⟩ hs => ⟨hi.step hs, hk.step hs, ht.step hi hk hnow hs⟩) ⟨hib, hkb, hbegun⟩
    obtain ⟨hic, hkc, htc⟩ := hall
    obtain ⟨hi', hk', hle⟩ := ih hic hkc hT
    refine ⟨hi', hk', hle.trans ?_⟩
    have hone := unresolved_of_settled htc hic hr hsettled
    have hbefore := unresolved_le (grows_run ha) L
    rw [Nat.mul_succ]
    omega

/-- Within half an hour in which nothing from before it expires, every request for the instances whose lookups are
answered leaves eight addresses less without an answer. A request that wakes then tells just how many these are, and
shows for every instance what the last lookup of its address said. -/
theorem map_completes {L : List Row} {k start : Nat} {s₀ s : State Info} (h₀ : Leads step { now := start } s₀)
    (h : Loads L k s₀ s) (hcache : ∀ ip e, s₀.cache ip = some e → s.now < e.time + e.ttl)
    (hnow : s.now < s₀.now + geoCacheNegTTL) :
    unresolved s.log L ≤ unresolved s₀.log L - 8 * k ∧
      (∀ n r now, s.requests.get? n = some r → r.phase = .woken now →
        step s (.count n) = some
          { s with requests := s.requests.put n { r with phase := .counted (unresolved s.log r.instances) } }) ∧
      ∀ n r pending, s.requests.get? n = some r → r.phase = .counted pending →
        step s (.reply n) = some
          { s with
            requests := s.requests.put n
              { r with
                phase := .replied
                  (r.instances.map fun inst => point inst (lastAnswer s.log (address inst)).join) pending } } := by
  obtain ⟨hi, hk, hle⟩ := unresolved_of_loads h ((inv_start start).run h₀) ⟨hnow, hcache⟩ (le_refl _)
  refine ⟨hle, fun n r now hr hphase => ?_, fun n r pending hr hphase => ?_⟩
  · have hcount : (addresses r.instances).countP (stale s.cache now) = unresolved s.log r.instances :=
      List.countP_congr fun ip _ => by rw [stale_iff hi hk (hi.past n r hr now hphase) ip]
    simp only [step, hr, Option.bind_some, hphase, hcount]
  · have hinfo : ∀ ip, (s.cache ip).bind GeoEntry.info = (lastAnswer s.log ip).join := by
      intro ip
      rw [← hi.last ip]
      cases s.cache ip <;> rfl
    simp only [step, hr, Option.bind_some, hphase, hinfo]

end

def exampleInstances : List Row :=
  [⟨"a", { tenantID := 1, publicIP := "203.0.113.7" }⟩, ⟨"b", { tenantID := 1, publicIP := "203.0.113.8 " }⟩,
    ⟨"c", { tenantID := 2, publicIP := "203.0.113.7" }⟩]

def exampleFirst : List (Event Nat) :=
  [.request exampleInstances, .gather 0, .answer 0 1 none, .pass 5, .answer 0 0 (some 7)]

def exampleSecond : List (Event Nat) := [.request exampleInstances, .gather 1, .wake 1]

theorem map_completes_example : ∃ s s' : State Nat, exec step { now := 0 } (exampleFirst ++ exampleSecond) = some s ∧
    step s (.count 1) = some s' ∧ (s'.requests.get? 1).map Request.phase = some (.counted 0) := by
  have h₀ : Leads step ({ now := 0 } : State Nat) { now := 0 } := Leads.refl _
  have hsettled : Request.Settled
      { instances := exampleInstances
        lookups := [⟨"203.0.113.7".toList, true⟩, ⟨"203.0.113.8".toList, true⟩]
        phase := (.waiting geoFillBudget : Phase Nat) } := by
    constructor
    · simp
    · simp
  have h : Loads exampleInstances 1 ({ now := 0 } : State Nat) _ :=
    .load (Leads.refl _) rfl ⟨exampleFirst.tail, run_of_exec rfl⟩ rfl hsettled (.none ⟨exampleSecond, run_of_exec rfl⟩)
  obtain ⟨-, hcount, -⟩ := map_completes h₀ h (by simp) (by decide)
  exact ⟨_, _, rfl, hcount 1 _ 5 rfl rfl, rfl⟩

end OciHelper.Instances.InstanceMap
