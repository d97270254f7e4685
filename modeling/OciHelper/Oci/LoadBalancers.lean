import OciHelper.Lib.StepRun
import OciHelper.Oci.NatCleanup

/-!
# The load balancers of repeated enables

* `Compartment` : the load balancers in the order of the listing, and how far the call is that is under way;
* `step` : the listing of a call, an attempt at a creation, a look at the work request, and what becomes of a load
  balancer in the meantime;
* `AtMostOne` : no two load balancers of these calls for the instance, unless they failed;
* `Clear` : a creation finds those that failed only, of this call or behind the first page;
* `enable_at_most_one_iff` : when a run keeps to one.
-/

namespace OciHelper.Oci.Nat
open StepRun

inductive Lifecycle
  | creating
  | active
  | failed
  deriving DecidableEq, Repr

/-- `call` is the call that created it, if one of these did. -/
structure LoadBalancer extends NetworkLoadBalancer where
  state : Lifecycle
  call : Option Nat := none
  deriving DecidableEq, Repr

/-- `unlisted` are those that the call's listing did not return. -/
inductive Phase
  | idle
  | creating (attempt : Nat) (unlisted : List ID)
  | polling (attempt : Nat) (unlisted : List ID)
  deriving DecidableEq, Repr

def Phase.unlisted : Phase → List ID
  | .idle => []
  | .creating _ unlisted => unlisted
  | .polling _ unlisted => unlisted

structure Compartment where
  nlbs : List LoadBalancer
  calls : Nat := 0
  phase : Phase := .idle
  deriving DecidableEq, Repr

/-- `findInstanceNLB`: it does not look at the state. -/
def Compartment.find (s : Compartment) (instanceID : ID) : Option LoadBalancer :=
  (s.nlbs.take 100).find? fun nlb => nlb.instanceTag = some instanceID

/-- A creation that was accepted may come back without a work request. -/
inductive Creation
  | refused
  | accepted (id : ID) (position : Nat) (workRequest : Bool)

inductive Poll
  | error
  | pending
  | succeeded
  | failed
  | timeout

/-- `prepared` says that the VNIC and the NAT gateway are in place; `complete` and `fail` are the service's own. -/
inductive Event
  | call (list prepared : Bool)
  | create (c : Creation)
  | poll (p : Poll)
  | cancel
  | complete (id : ID)
  | fail (id : ID)

/-- There are three attempts. -/
def nextAttempt (attempt : Nat) (unlisted : List ID) : Phase :=
  if attempt < 3 then .creating (attempt + 1) unlisted else .idle

def insertAt (nlbs : List LoadBalancer) (position : Nat) (nlb : LoadBalancer) : List LoadBalancer :=
  nlbs.take position ++ nlb :: nlbs.drop position

def LoadBalancer.settle (id : ID) (state : Lifecycle) (nlb : LoadBalancer) : LoadBalancer :=
  if nlb.id = id ∧ nlb.state = .creating then { nlb with state := state } else nlb

variable (instanceID : ID)

/-- A call lists before it creates. -/
def beginCall (list prepared : Bool) (s : Compartment) : Phase :=
  if list = false ∨ (s.find instanceID).isSome ∨ prepared = false then .idle
  else .creating 1 ((s.nlbs.drop 100).map fun nlb => nlb.id)

def afterCreate (c : Creation) (attempt : Nat) (unlisted : List ID) (s : Compartment) : Compartment :=
  match c with
  | .refused => { s with phase := nextAttempt attempt unlisted }
  | .accepted id position workRequest =>
    { s with
      nlbs := insertAt s.nlbs position
        { id := id, instanceTag := some instanceID, state := .creating, call := some s.calls }
      phase := if workRequest then .polling attempt unlisted else nextAttempt attempt unlisted }

def afterPoll (p : Poll) (attempt : Nat) (unlisted : List ID) : Phase :=
  match p with
  | .pending => .polling attempt unlisted
  | .succeeded => .idle
  | .error | .failed | .timeout => nextAttempt attempt unlisted

/-- The calls do not overlap, and the context is looked at between two attempts and two looks. -/
def step : Step Compartment Event
  | s, .call list prepared =>
    match s.phase with
    | .idle => some { s with calls := s.calls + 1, phase := beginCall instanceID list prepared s }
    | _ => none
  | s, .create c =>
    match s.phase with
    | .creating attempt unlisted => some (afterCreate instanceID c attempt unlisted s)
    | _ => none
  | s, .poll p =>
    match s.phase with
    | .polling attempt unlisted => some { s with phase := afterPoll p attempt unlisted }
    | _ => none
  | s, .cancel =>
    match s.phase with
    | .creating (_ + 2) _ | .polling _ _ => some { s with phase := .idle }
    | _ => none
  | s, .complete id => some { s with nlbs := s.nlbs.map (LoadBalancer.settle id .active) }
  | s, .fail id => some { s with nlbs := s.nlbs.map (LoadBalancer.settle id .failed) }

/-! ## What it should do -/

/-- Created by these calls. -/
def LoadBalancer.Own (nlb : LoadBalancer) : Prop := nlb.call.isSome

/-- A load balancer of the instance from these calls that has not failed. -/
def LoadBalancer.Live (nlb : LoadBalancer) : Prop :=
  nlb.instanceTag = some instanceID ∧ nlb.Own ∧ nlb.state ≠ .failed

instance (nlb : LoadBalancer) : Decidable nlb.Own := inferInstanceAs (Decidable (_ = true))

instance (nlb : LoadBalancer) : Decidable (nlb.Live instanceID) := inferInstanceAs (Decidable (_ ∧ _ ∧ _))

def Compartment.live (s : Compartment) : Nat := s.nlbs.countP fun nlb => nlb.Live instanceID

/-- At most one is alive, and a call that finds one creates nothing. -/
structure AtMostOne (s : Compartment) : Prop where
  single : s.live instanceID ≤ 1
  found : ∀ list prepared s', (s.find instanceID).isSome → step instanceID s (.call list prepared) = some s' →
    s'.nlbs = s.nlbs ∧ s'.phase = .idle

/-- When a creation is accepted, those of this call's earlier attempts have failed, and those of earlier calls that
its listing did not return. -/
def Clear : Compartment → Event → Prop
  | s, .create (.accepted _ _ _) =>
    ∀ nlb ∈ s.nlbs, nlb.Own → nlb.call = some s.calls ∨ nlb.id ∈ s.phase.unlisted → nlb.state = .failed
  | _, _ => True

/-! ## One event -/

variable {instanceID}

theorem unlisted_nextAttempt (attempt : Nat) (unlisted : List ID) :
    nextAttempt attempt unlisted = .idle ∨ (nextAttempt attempt unlisted).unlisted = unlisted := by
  unfold nextAttempt
  split
  · exact Or.inr rfl
  · exact Or.inl rfl

theorem unlisted_afterPoll (p : Poll) (attempt : Nat) (unlisted : List ID) :
    afterPoll p attempt unlisted = .idle ∨ (afterPoll p attempt unlisted).unlisted = unlisted := by
  cases p with
  | pending => exact Or.inr rfl
  | succeeded => exact Or.inl rfl
  | error | failed | timeout => exact unlisted_nextAttempt attempt unlisted

/-- **What an event does**: a call begins, a creation is answered, the call goes on or ends, or a load balancer
settles. -/
theorem step_cases {s s' : Compartment} {e : Event} (h : step instanceID s e = some s') :
    (∃ list prepared, e = .call list prepared ∧ s.phase = .idle ∧
      s' = { s with calls := s.calls + 1, phase := beginCall instanceID list prepared s }) ∨
    (∃ c attempt unlisted, e = .create c ∧ s.phase = .creating attempt unlisted ∧
      s' = afterCreate instanceID c attempt unlisted s) ∨
    (∃ phase, (∀ c, e ≠ .create c) ∧ (phase = .idle ∨ s.phase ≠ .idle ∧ phase.unlisted = s.phase.unlisted) ∧
      s' = { s with phase := phase }) ∨
    ∃ id state, (e = .complete id ∨ e = .fail id) ∧
      s' = { s with nlbs := s.nlbs.map (LoadBalancer.settle id state) } := by
  unfold step at h
  cases e with
  | call list prepared =>
    dsimp only at h
    split at h
    · next hphase => exact Or.inl ⟨list, prepared, rfl, hphase, (Option.some.inj h).symm⟩
    · cases h
  | create c =>
    dsimp only at h
    split at h
    · next attempt unlisted hphase =>
      exact Or.inr (Or.inl ⟨c, attempt, unlisted, rfl, hphase, (Option.some.inj h).symm⟩)
    · cases h
  | poll p =>
    dsimp only at h
    split at h
    · next attempt unlisted hphase =>
      refine Or.inr (Or.inr (Or.inl ⟨_, nofun, ?_, (Option.some.inj h).symm⟩))
      rw [hphase]
      exact (unlisted_afterPoll p attempt unlisted).imp_right fun hu => ⟨nofun, hu⟩
    · cases h
  | cancel =>
    dsimp only at h
    split at h
    · exact Or.inr (Or.inr (Or.inl ⟨_, nofun, Or.inl rfl, (Option.some.inj h).symm⟩))
    · exact Or.inr (Or.inr (Or.inl ⟨_, nofun, Or.inl rfl, (Option.some.inj h).symm⟩))
    · cases h
  | complete id => exact Or.inr (Or.inr (Or.inr ⟨id, _, Or.inl rfl, (Option.some.inj h).symm⟩))
  | fail id => exact Or.inr (Or.inr (Or.inr ⟨id, _, Or.inr rfl, (Option.some.inj h).symm⟩))

/-- A call that finds one ends at once. -/
theorem call_of_found {s s' : Compartment} {list prepared : Bool} (hfound : (s.find instanceID).isSome)
    (h : step instanceID s (.call list prepared) = some s') : s'.nlbs = s.nlbs ∧ s'.phase = .idle := by
  unfold step at h
  dsimp only at h
  split at h
  · obtain rfl := Option.some.inj h
    exact ⟨rfl, if_pos (Or.inr (Or.inl hfound))⟩
  · cases h

theorem atMostOne_iff {s : Compartment} : AtMostOne instanceID s ↔ s.live instanceID ≤ 1 :=
  ⟨AtMostOne.single, fun h => ⟨h, fun _ _ _ => call_of_found⟩⟩

/-! ## The load balancers -/

theorem live_insertAt (nlbs : List LoadBalancer) (position : Nat) {nlb : LoadBalancer} (h : nlb.Live instanceID) :
    (insertAt nlbs position nlb).countP (fun nlb => nlb.Live instanceID) =
      nlbs.countP (fun nlb => nlb.Live instanceID) + 1 := by
  have hcons : (nlb :: nlbs.drop position).countP (fun nlb => nlb.Live instanceID) =
      (nlbs.drop position).countP (fun nlb => nlb.Live instanceID) + 1 :=
    List.countP_cons_of_pos (decide_eq_true h)
  unfold insertAt
  rw [List.countP_append, hcons, ← Nat.add_assoc, ← List.countP_append, List.take_append_drop]

theorem mem_insertAt {nlbs : List LoadBalancer} {position : Nat} {nlb nlb' : LoadBalancer} :
    nlb' ∈ insertAt nlbs position nlb ↔ nlb' = nlb ∨ nlb' ∈ nlbs := by
  unfold insertAt
  rw [List.mem_append, List.mem_cons, or_left_comm, ← List.mem_append, List.take_append_drop]

/-- A load balancer keeps its name and its tag, and one that failed stays so. -/
theorem settle_spec (id : ID) (state : Lifecycle) (nlb : LoadBalancer) :
    (nlb.settle id state).id = nlb.id ∧ (nlb.settle id state).instanceTag = nlb.instanceTag ∧
      (nlb.settle id state).call = nlb.call ∧ (nlb.state = .failed → (nlb.settle id state).state = .failed) := by
  unfold LoadBalancer.settle
  split
  · next h =>
    refine ⟨rfl, rfl, rfl, fun hfailed => ?_⟩
    rw [hfailed] at h
    cases h.2
  · exact ⟨rfl, rfl, rfl, fun hfailed => hfailed⟩

theorem live_of_live_settle {id : ID} {state : Lifecycle} {nlb : LoadBalancer}
    (h : (nlb.settle id state).Live instanceID) : nlb.Live instanceID := by
  obtain ⟨-, htag, hcall, hfailed⟩ := settle_spec id state nlb
  obtain ⟨htag', hown, hstate⟩ := h
  exact ⟨htag ▸ htag', show nlb.call.isSome from hcall ▸ hown, fun hf => hstate (hfailed hf)⟩

theorem live_map_settle_le (id : ID) (state : Lifecycle) (nlbs : List LoadBalancer) :
    (nlbs.map (LoadBalancer.settle id state)).countP (fun nlb => nlb.Live instanceID) ≤
      nlbs.countP fun nlb => nlb.Live instanceID := by
  rw [List.countP_map]
  refine List.countP_mono_left fun nlb _ h => ?_
  exact decide_eq_true (live_of_live_settle (of_decide_eq_true h))

/-! ## A run -/

variable (instanceID)

/-- Those of these calls have the tag, and during a call they are of this call or were not listed, or have failed. -/
structure Known (s : Compartment) : Prop where
  tag : ∀ nlb ∈ s.nlbs, nlb.Own → nlb.instanceTag = some instanceID
  seen : s.phase = .idle ∨
    ∀ nlb ∈ s.nlbs, nlb.Own → nlb.call = some s.calls ∨ nlb.id ∈ s.phase.unlisted

variable {instanceID}

theorem live_eq_zero_iff {s : Compartment} (hknown : Known instanceID s) (hphase : s.phase ≠ .idle) :
    s.live instanceID = 0 ↔
      ∀ nlb ∈ s.nlbs, nlb.Own → nlb.call = some s.calls ∨ nlb.id ∈ s.phase.unlisted → nlb.state = .failed := by
  unfold Compartment.live
  rw [List.countP_eq_zero]
  constructor
  · intro h nlb hmem hown _
    by_contra hstate
    exact h nlb hmem (decide_eq_true ⟨hknown.tag nlb hmem hown, hown, hstate⟩)
  · intro h nlb hmem hlive
    obtain ⟨-, hown, hstate⟩ := of_decide_eq_true hlive
    exact hstate (h nlb hmem hown (hknown.seen.resolve_left hphase nlb hmem hown))

/-- **What one event does to the number.** -/
theorem atMostOne_step {s s' : Compartment} {e : Event} (hone : AtMostOne instanceID s) (hknown : Known instanceID s)
    (h : step instanceID s e = some s') : AtMostOne instanceID s' ↔ Clear s e := by
  rw [atMostOne_iff] at hone ⊢
  obtain ⟨list, prepared, rfl, -, rfl⟩ | ⟨c, attempt, unlisted, rfl, hphase, rfl⟩ |
    ⟨phase, hcreate, -, rfl⟩ | ⟨id, state, he, rfl⟩ := step_cases h
  · exact iff_of_true hone trivial
  · cases c with
    | refused => exact iff_of_true hone trivial
    | accepted id position workRequest =>
      have hnew : (afterCreate instanceID (.accepted id position workRequest) attempt unlisted s).live instanceID =
          s.live instanceID + 1 := live_insertAt s.nlbs position ⟨rfl, rfl, nofun⟩
      have hzero := live_eq_zero_iff hknown (by rw [hphase]; exact nofun)
      rw [hnew]
      show _ ↔ ∀ nlb ∈ s.nlbs, _
      rw [← hzero]
      omega
  · refine iff_of_true hone ?_
    cases e with
    | create c => exact absurd rfl (hcreate c)
    | _ => trivial
  · refine iff_of_true (Nat.le_trans (live_map_settle_le id state s.nlbs) hone) ?_
    rcases he with rfl | rfl <;> trivial

theorem known_of_phase {s : Compartment} (h : Known instanceID s) {phase : Phase}
    (hphase : phase = .idle ∨ s.phase ≠ .idle ∧ phase.unlisted = s.phase.unlisted) :
    Known instanceID { s with phase := phase } := by
  refine ⟨h.tag, hphase.imp_right ?_⟩
  rintro ⟨hne, hunlisted⟩ nlb hmem hown
  show _ ∨ nlb.id ∈ phase.unlisted
  rw [hunlisted]
  exact h.seen.resolve_left hne nlb hmem hown

/-- The listing of a call returns none of the instance's, if it is to create one. -/
theorem known_beginCall {s : Compartment} (h : Known instanceID s) (list prepared : Bool) :
    Known instanceID { s with calls := s.calls + 1, phase := beginCall instanceID list prepared s } := by
  refine ⟨h.tag, ?_⟩
  show beginCall instanceID list prepared s = .idle ∨ _
  unfold beginCall
  split
  · exact Or.inl rfl
  next hgo =>
    refine Or.inr fun nlb hmem hown => Or.inr ?_
    have hnone : s.find instanceID = none := by
      rw [← Option.not_isSome_iff_eq_none]
      exact fun hfound => hgo (Or.inr (Or.inl hfound))
    rw [← List.take_append_drop 100 s.nlbs] at hmem
    rcases List.mem_append.mp hmem with hpage | hrest
    · have hother := List.find?_eq_none.mp hnone nlb hpage
      exact absurd (decide_eq_true (h.tag nlb (List.mem_of_mem_take hpage) hown)) hother
    · exact List.mem_map_of_mem hrest

theorem known_step {s s' : Compartment} {e : Event} (h : step instanceID s e = some s') (hknown : Known instanceID s) :
    Known instanceID s' := by
  obtain ⟨list, prepared, -, -, rfl⟩ | ⟨c, attempt, unlisted, -, hphase, rfl⟩ |
    ⟨phase, -, hkeep, rfl⟩ | ⟨id, state, -, rfl⟩ := step_cases h
  · exact known_beginCall hknown list prepared
  · have hnext : nextAttempt attempt unlisted = .idle ∨
        s.phase ≠ .idle ∧ (nextAttempt attempt unlisted).unlisted = s.phase.unlisted := by
      rw [hphase]
      exact (unlisted_nextAttempt attempt unlisted).imp_right fun hu => ⟨nofun, hu⟩
    cases c with
    | refused => exact known_of_phase hknown hnext
    | accepted id position workRequest =>
      have hsame : Known instanceID { s with
          phase := if workRequest then .polling attempt unlisted else nextAttempt attempt unlisted } := by
        refine known_of_phase hknown ?_
        split
        · rw [hphase]
          exact Or.inr ⟨nofun, rfl⟩
        · exact hnext
      refine ⟨fun nlb hmem hown => ?_, hsame.seen.imp_right fun hseen nlb hmem hown => ?_⟩
      · rcases mem_insertAt.mp hmem with rfl | hold
        · rfl
        · exact hsame.tag nlb hold hown
      · rcases mem_insertAt.mp hmem with rfl | hold
        · exact Or.inl rfl
        · exact hseen nlb hold hown
  · exact known_of_phase hknown hkeep
  · refine ⟨fun nlb' hmem hown => ?_, hknown.seen.imp_right fun hseen nlb' hmem hown => ?_⟩
    all_goals
      obtain ⟨nlb, hnlb, rfl⟩ := List.mem_map.mp hmem
      obtain ⟨hid, htag, hcall, -⟩ := settle_spec id state nlb
      have hown' : nlb.Own := show nlb.call.isSome from hcall ▸ hown
    · rw [htag]
      exact hknown.tag nlb hnlb hown'
    · rw [hid, hcall]
      exact hseen nlb hnlb hown'

/-- **A run keeps to one load balancer if and only if every creation that is accepted finds the earlier ones of its
call failed, and those that its listing did not return.** -/
theorem enable_at_most_one_iff (instanceID : ID) {s t : Compartment} {es : List Event} (hphase : s.phase = .idle)
    (hfresh : ∀ nlb ∈ s.nlbs, nlb.call = none) (h : exec (step instanceID) s es = some t) :
    Throughout (step instanceID) (AtMostOne instanceID) s es ↔ Run (step instanceID) Clear s es t := by
  have hnone : ∀ nlb ∈ s.nlbs, ¬ nlb.Own := by
    intro nlb hmem hown
    unfold LoadBalancer.Own at hown
    rw [hfresh nlb hmem] at hown
    cases hown
  have hzero : s.live instanceID = 0 :=
    List.countP_eq_zero.mpr fun nlb hmem hlive => hnone nlb hmem (of_decide_eq_true hlive).2.1
  refine throughout_iff_of_invariant (J := Known instanceID)
    (fun s e s' hone hknown hs => atMostOne_step hone hknown hs)
    (fun s e s' _ hknown _ hs => known_step hs hknown) (atMostOne_iff.mpr (by omega)) ?_ h
  exact ⟨fun nlb hmem hown => absurd hown (hnone nlb hmem), Or.inl hphase⟩

/-! ## A compartment without load balancers -/

private def noNlbs : Compartment := { nlbs := [] }

/-- The work request cannot be read while the load balancer is being created. -/
private def pollFails : List Event :=
  [.call true true, .create (.accepted "a".toList 0 true), .poll .error, .create (.accepted "b".toList 0 true)]

private def creationFails : List Event :=
  [.call true true, .create (.accepted "a".toList 0 true), .fail "a".toList, .poll .failed,
    .create (.accepted "b".toList 0 true), .complete "b".toList, .poll .succeeded, .call true true]

/-- The next attempt creates a second one. -/
theorem poll_error_creates_two :
    ¬ ∀ (instanceID : ID) (s t : Compartment) (es : List Event), s.phase = .idle → (∀ nlb ∈ s.nlbs, nlb.call = none) →
      exec (step instanceID) s es = some t → Throughout (step instanceID) (AtMostOne instanceID) s es := by
  intro h
  obtain ⟨t, ht⟩ : ∃ t, exec (step "i".toList) noNlbs pollFails = some t := Option.isSome_iff_exists.mp (by decide)
  have hall := h "i".toList noNlbs t pollFails rfl (List.forall_mem_nil _) ht
  have hlast := (((hall.2 _ rfl).2 _ rfl).2 _ rfl).2 _ rfl
  exact absurd hlast.head.single (by decide)

theorem failed_creation_is_replaced :
    Throughout (step "i".toList) (AtMostOne "i".toList) noNlbs creationFails := by
  obtain ⟨t, hrun⟩ : ∃ t, Run (step "i".toList) Clear noNlbs creationFails t :=
    ⟨_, .cons trivial rfl <| .cons (List.forall_mem_nil _) rfl <| .cons trivial rfl <| .cons trivial rfl <|
      .cons (show ∀ nlb ∈ _, _ by decide) rfl <| .cons trivial rfl <| .cons trivial rfl <| .cons trivial rfl <| .nil _⟩
  exact (enable_at_most_one_iff "i".toList rfl (List.forall_mem_nil _) (exec_of_run hrun)).mpr hrun

end OciHelper.Oci.Nat
