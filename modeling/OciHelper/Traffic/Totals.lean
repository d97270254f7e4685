import Mathlib.Data.List.ReduceOption
import Mathlib.Data.Rat.Defs

/-!
# Traffic totals

* `RegionCalls` : the instances and VNICs of a region, with what each call about them answers;
* `getInstanceVNICs`, `fetchInstancesTrafficDetail`, `collectRegionTraffic`, `collectTrafficStats` : the five
  levels at which a failure is caught;
* `Marks`, `Loses` : the answers that mark a region, and those with which a VNIC is left out;
* `totals_surface_iff` : when a response without a mark has all the traffic.

A float is the rational number it stands for. The goroutines write slots of their own, which are the places of a
list here; a worker that panics leaves its slot as it was made.
-/

namespace OciHelper.Traffic

/-! ## What the service answers -/

inductive Metric
  | vnicFromNetworkBytes
  | vnicToNetworkBytes
  deriving DecidableEq, Repr

inductive GetVnic
  | error
  | noID (displayName : Option String)
  | found (displayName : Option String)
  deriving DecidableEq, Repr

def GetVnic.isFound : GetVnic → Bool
  | .found _ => true
  | _ => false

/-- An attachment with its VNIC: the data points are those that the service has, `measured` says whether it
gives them. -/
structure Attachment where
  vnicID : Option String
  getVnic : GetVnic
  datapoints : Metric → List (List (Option Rat))
  measured : Metric → Bool

/-- An instance as `ListInstances` gives it, with the answer of `ListVnicAttachments` for it. -/
structure ListedInstance where
  id : Option String
  displayName : Option String
  listAttachments : Bool
  attachments : List Attachment

/-- A requested region; `need` is how far back the window reaches when the queries are made, in nanoseconds. -/
structure RegionCalls where
  region : String
  panics : Bool
  client : Bool
  listInstances : Bool
  instances : List ListedInstance
  need : Int
  timedOut : Bool

/-! ## One VNIC -/

def day : Int := 24 * 3600 * 1000000000

/-- The step in minutes. -/
def monitoringInterval (need : Int) : Option Nat :=
  if need ≤ 7 * day then some 1
  else if need ≤ 30 * day then some 5
  else if need ≤ 90 * day then some 60
  else none

/-- A loop that adds up. -/
def total (values : List Rat) : Rat := values.foldl (· + ·) 0

/-- The traffic of a VNIC: data points are rates per minute. -/
def Attachment.traffic (a : Attachment) (step : Nat) (metric : Metric) : Rat :=
  total ((a.datapoints metric).flatten.reduceOption.map fun value => value * step)

def sumVnicMetric (a : Attachment) (step : Nat) (metric : Metric) : Option Rat :=
  if a.measured metric then some (a.traffic step metric) else none

structure Vnic where
  id : Option String
  displayName : Option String
  deriving DecidableEq, Repr

/-- The VNIC that is asked for, if it is given. -/
def getVnic (a : Attachment) (vnicID : String) : Option Vnic :=
  match a.getVnic with
  | .error => none
  | .noID displayName => some ⟨none, displayName⟩
  | .found displayName => some ⟨some vnicID, displayName⟩

/-! ## One instance -/

/-- Each VNIC with its attachment. -/
def getInstanceVNICs (i : ListedInstance) : Option (List (Attachment × Vnic)) :=
  if i.listAttachments = false then none
  else
    let vnics := i.attachments.filterMap fun a =>
      -- a single failure is logged only
      a.vnicID.bind fun vnicID => (getVnic a vnicID).map fun v => (a, v)
    if vnics = [] ∧ i.attachments ≠ [] then none else some vnics

structure VnicTrafficStat where
  vnicID : String
  vnicName : String
  inbound : Rat
  outbound : Rat
  deriving DecidableEq, Repr

structure InstanceTrafficStat where
  instanceID : String
  instanceName : String
  region : String
  inbound : Rat
  outbound : Rat
  vnics : List VnicTrafficStat
  deriving DecidableEq, Repr

structure InstanceTrafficRef where
  ocid : String
  name : String
  listed : ListedInstance

/-- The VNICs of the first phase; an instance that is not readable has none. -/
def resolved (i : ListedInstance) : List (Attachment × Vnic) :=
  ((getInstanceVNICs i).getD []).filter fun v => v.2.id.isSome

def vnicStat (step : Nat) (v : Attachment × Vnic) : VnicTrafficStat where
  vnicID := v.2.id.getD ""
  vnicName := v.2.displayName.getD "<nil>"
  inbound := (sumVnicMetric v.1 step .vnicFromNetworkBytes).getD 0
  outbound := (sumVnicMetric v.1 step .vnicToNetworkBytes).getD 0

def instanceStat (region : String) (step : Nat) (ref : InstanceTrafficRef) : InstanceTrafficStat :=
  let vnics := (resolved ref.listed).map (vnicStat step)
  { instanceID := ref.ocid
    instanceName := ref.name
    region := region
    inbound := total (vnics.map VnicTrafficStat.inbound)
    outbound := total (vnics.map VnicTrafficStat.outbound)
    vnics := vnics }

structure InstancesTrafficDetail where
  stats : List InstanceTrafficStat
  unreadableVNICs : Nat
  failedMetrics : Nat

/-- The queries of the second phase. -/
def metricTasks (refs : List InstanceTrafficRef) : List (Attachment × Metric) :=
  (refs.flatMap fun ref => resolved ref.listed).flatMap fun v =>
    [(v.1, .vnicFromNetworkBytes), (v.1, .vnicToNetworkBytes)]

def fetchInstancesTrafficDetail (region : String) (refs : List InstanceTrafficRef) (need : Int) :
    Option InstancesTrafficDetail :=
  (monitoringInterval need).map fun step =>
    { stats := refs.map (instanceStat region step)
      unreadableVNICs := refs.countP fun ref => (getInstanceVNICs ref.listed).isNone
      failedMetrics := (metricTasks refs).countP fun task => (sumVnicMetric task.1 step task.2).isNone }

/-! ## One region -/

def isLetter (c : Char) : Bool := 'a' ≤ c ∧ c ≤ 'z'

/-- `^[a-z]{2,}-[a-z]+-\d+$` -/
def validRegion (region : String) : Bool :=
  match region.toList.splitOn '-' with
  | [area, city, number] =>
    2 ≤ area.length ∧ area.all isLetter ∧ city ≠ [] ∧ city.all isLetter ∧ number ≠ [] ∧ number.all Char.isDigit
  | _ => false

structure TrafficRegionStat where
  region : String := ""
  instanceCount : Nat := 0
  inboundBytes : Rat := 0
  outboundBytes : Rat := 0
  instances : List InstanceTrafficStat := []
  error : String := ""
  partialData : Bool := false
  unreadableInstances : Nat := 0
  failedMeasurements : Nat := 0
  deriving DecidableEq, Repr

def trafficRefs (instances : List ListedInstance) : List InstanceTrafficRef :=
  instances.filterMap fun i => i.id.map fun ocid => ⟨ocid, i.displayName.getD "", i⟩

def collectRegionTraffic (r : RegionCalls) : TrafficRegionStat :=
  if validRegion r.region = false then { region := r.region, error := "invalid region" }
  else if r.client = false then { region := r.region, error := "client init failed" }
  else if r.listInstances = false then { region := r.region, error := "list instances failed" }
  else
    match fetchInstancesTrafficDetail r.region (trafficRefs r.instances) r.need with
    | none => { region := r.region, error := "fetch traffic failed" }
    | some detail =>
      { region := r.region
        instanceCount := detail.stats.length
        inboundBytes := total (detail.stats.map InstanceTrafficStat.inbound)
        outboundBytes := total (detail.stats.map InstanceTrafficStat.outbound)
        instances := detail.stats
        partialData := 0 < detail.unreadableVNICs ∨ 0 < detail.failedMetrics ∨
          (r.timedOut = true ∧ 0 < detail.stats.length)
        unreadableInstances := detail.unreadableVNICs
        failedMeasurements := detail.failedMetrics }

/-! ## All regions -/

structure TrafficStatsResponse where
  regions : List TrafficRegionStat
  instanceCount : Nat
  regionCount : Nat
  inboundBytes : Rat
  outboundBytes : Rat
  quotaBytes : Rat
  quotaPercent : Rat
  exceeded : Bool
  partialData : Bool
  errors : List String

/-- The slot of a worker. -/
def slot (r : RegionCalls) : TrafficRegionStat :=
  if r.panics then {} else collectRegionTraffic r

def regionErrors (rs : TrafficRegionStat) : List String :=
  if rs.error ≠ "" then [rs.region ++ ": " ++ rs.error]
  else if rs.partialData then
    [rs.region ++ ": partial data (" ++ toString rs.unreadableInstances ++ " unreadable instance(s), " ++
      toString rs.failedMeasurements ++ " failed measurement(s))"]
  else []

def collectTrafficStats (quotaBytes : Rat) (regions : List RegionCalls) : TrafficStatsResponse :=
  let results := regions.map slot
  let read := results.filter fun rs => rs.error = ""
  let outbound := total (read.map TrafficRegionStat.outboundBytes)
  { regions := results.mergeSort fun a b => b.outboundBytes ≤ a.outboundBytes
    instanceCount := read.foldl (fun n rs => n + rs.instanceCount) 0
    regionCount := read.length
    inboundBytes := total (read.map TrafficRegionStat.inboundBytes)
    outboundBytes := outbound
    quotaBytes := quotaBytes
    quotaPercent := if 0 < quotaBytes then outbound / quotaBytes * 100 else 0
    exceeded := 0 < quotaBytes ∧ quotaBytes < outbound
    partialData := read.any TrafficRegionStat.partialData
    errors := results.flatMap regionErrors }

/-! ## What is in the totals -/

/-- A VNIC and its traffic. -/
structure Entry where
  vnicID : String
  inbound : Rat
  outbound : Rat
  deriving DecidableEq, Repr

def VnicTrafficStat.entry (v : VnicTrafficStat) : Entry := ⟨v.vnicID, v.inbound, v.outbound⟩

/-- The VNICs that a region's totals count. -/
def TrafficRegionStat.entries (rs : TrafficRegionStat) : List Entry :=
  rs.instances.flatMap fun st => st.vnics.map VnicTrafficStat.entry

/-- The VNIC of an attachment, if it has one, with its traffic. -/
def Attachment.entry (step : Nat) (a : Attachment) : Option Entry :=
  a.vnicID.map fun vnicID => ⟨vnicID, a.traffic step .vnicFromNetworkBytes, a.traffic step .vnicToNetworkBytes⟩

/-- The VNICs of the instances of a region. -/
def RegionCalls.entries (r : RegionCalls) : List Entry :=
  r.instances.flatMap fun i => i.attachments.filterMap (Attachment.entry ((monitoringInterval r.need).getD 0))

def Marked (resp : TrafficStatsResponse) : Prop := resp.partialData = true ∨ resp.errors ≠ []

/-- No region and no VNIC is missing, and the totals are the sums over all VNICs. -/
structure Complete (resp : TrafficStatsResponse) (regions : List RegionCalls) : Prop where
  counted : ∀ r ∈ regions, r.panics = false ∧ (slot r).entries = r.entries
  inbound : resp.inboundBytes = total ((regions.flatMap RegionCalls.entries).map Entry.inbound)
  outbound : resp.outboundBytes = total ((regions.flatMap RegionCalls.entries).map Entry.outbound)

/-- No VNIC list, or none of its VNICs. -/
def ListedInstance.Unreadable (i : ListedInstance) : Prop :=
  i.listAttachments = false ∨ (i.attachments ≠ [] ∧ ∀ a ∈ i.attachments, a.vnicID = none ∨ a.getVnic = .error)

def ListedInstance.MetricFails (i : ListedInstance) : Prop :=
  i.listAttachments = true ∧ ∃ a ∈ i.attachments, a.vnicID ≠ none ∧ a.getVnic.isFound = true ∧
    ∃ metric, a.measured metric = false

/-- A failure that is recorded. -/
def RegionCalls.Marks (r : RegionCalls) : Prop :=
  r.panics = false ∧ (validRegion r.region = false ∨ r.client = false ∨ r.listInstances = false ∨
    monitoringInterval r.need = none ∨
    (∃ i ∈ r.instances, i.id ≠ none ∧ (i.Unreadable ∨ i.MetricFails)) ∨
    (r.timedOut = true ∧ ∃ i ∈ r.instances, i.id ≠ none))

/-- A panic, or a VNIC that is not given or whose instance has no id. -/
def RegionCalls.Loses (r : RegionCalls) : Prop :=
  r.panics = true ∨ ∃ i ∈ r.instances, ∃ a ∈ i.attachments, a.vnicID ≠ none ∧ (i.id = none ∨ a.getVnic.isFound = false)

/-- Every call succeeds. -/
structure RegionCalls.Succeeds (r : RegionCalls) : Prop where
  panics : r.panics = false
  valid : validRegion r.region = true
  client : r.client = true
  listInstances : r.listInstances = true
  interval : monitoringInterval r.need ≠ none
  ids : ∀ i ∈ r.instances, i.id ≠ none
  listAttachments : ∀ i ∈ r.instances, i.listAttachments = true
  found : ∀ i ∈ r.instances, ∀ a ∈ i.attachments, a.getVnic.isFound = true
  measured : ∀ i ∈ r.instances, ∀ a ∈ i.attachments, ∀ metric, a.measured metric = true

/-! ## One instance -/

/-- An attachment whose VNIC is given. -/
def Attachment.given (a : Attachment) : Option (Attachment × Vnic) :=
  match a.vnicID, a.getVnic with
  | some vnicID, .found displayName => some (a, ⟨some vnicID, displayName⟩)
  | _, _ => none

theorem getVnic_id (a : Attachment) :
    ((a.vnicID.bind fun vnicID => (getVnic a vnicID).map fun v => (a, v)).filter fun v => v.2.id.isSome) =
      a.given := by
  unfold getVnic Attachment.given
  cases a.vnicID with
  | none => rfl
  | some vnicID => cases a.getVnic <;> rfl

theorem getInstanceVNICs_isNone (i : ListedInstance) :
    (getInstanceVNICs i).isNone = true ↔ i.Unreadable := by
  unfold getInstanceVNICs ListedInstance.Unreadable
  by_cases hlist : i.listAttachments = false
  · simp [hlist]
  · rw [if_neg hlist]
    have hnil : (i.attachments.filterMap fun a => a.vnicID.bind fun vnicID => (getVnic a vnicID).map fun v => (a, v))
        = [] ↔ ∀ a ∈ i.attachments, a.vnicID = none ∨ a.getVnic = .error := by
      rw [List.filterMap_eq_nil_iff]
      refine forall₂_congr fun a _ => ?_
      unfold getVnic
      cases a.vnicID with
      | none => simp
      | some vnicID => cases a.getVnic <;> simp
    dsimp only
    split <;> rename_i h
    · exact iff_of_true rfl (Or.inr ⟨h.2, hnil.mp h.1⟩)
    · refine iff_of_false Bool.false_ne_true ?_
      rintro (hno | ⟨hne, hall⟩)
      · exact hlist hno
      · exact h ⟨hnil.mpr hall, hne⟩

theorem resolved_of_listed {i : ListedInstance} (h : i.listAttachments = true) :
    resolved i = i.attachments.filterMap Attachment.given := by
  unfold resolved getInstanceVNICs
  rw [if_neg (by simp [h])]
  dsimp only
  have hfilter : (i.attachments.filterMap fun a =>
      a.vnicID.bind fun vnicID => (getVnic a vnicID).map fun v => (a, v)).filter (fun v => v.2.id.isSome) =
      i.attachments.filterMap Attachment.given := by
    rw [List.filter_filterMap]
    exact congrArg (List.filterMap · i.attachments) (funext getVnic_id)
  split <;> rename_i hno
  · rw [← hfilter, hno.1]
    rfl
  · exact hfilter

theorem mem_given {a : Attachment} {v : Attachment × Vnic} : a.given = some v ↔
    v.1 = a ∧ v.2.id = a.vnicID ∧ a.vnicID ≠ none ∧ a.getVnic = .found v.2.displayName := by
  obtain ⟨a', id, name⟩ := v
  unfold Attachment.given
  cases hid : a.vnicID with
  | none => simp
  | some vnicID =>
    cases hv : a.getVnic with
    | error => simp
    | noID d => simp
    | found d => simp [eq_comm]

/-- The entry that is counted for an attachment, if its queries succeed. -/
theorem entry_vnicStat {a : Attachment} (step : Nat)
    (hm : a.vnicID ≠ none → a.getVnic.isFound = true → ∀ metric, a.measured metric = true) :
    a.given.map (fun v => (vnicStat step v).entry) = if a.getVnic.isFound then a.entry step else none := by
  unfold Attachment.given Attachment.entry
  cases hid : a.vnicID with
  | none => cases a.getVnic <;> rfl
  | some vnicID =>
    cases hv : a.getVnic with
    | error => rfl
    | noID d => rfl
    | found d =>
      have hall := hm (by simp [hid]) (by rw [hv]; rfl)
      simp [vnicStat, VnicTrafficStat.entry, sumVnicMetric, hall, GetVnic.isFound]

theorem resolved_entries {i : ListedInstance} (step : Nat) (hlist : i.listAttachments = true)
    (hm : ¬ i.MetricFails) : (resolved i).map (fun v => (vnicStat step v).entry) =
      i.attachments.filterMap fun a => if a.getVnic.isFound then a.entry step else none := by
  rw [resolved_of_listed hlist, List.map_filterMap]
  refine List.filterMap_congr fun a ha => entry_vnicStat step fun hid hfound metric => ?_
  by_contra hno
  exact hm ⟨hlist, a, ha, hid, hfound, metric, Bool.not_eq_true _ ▸ hno⟩

/-! ## One region -/

theorem mem_trafficRefs {instances : List ListedInstance} {ref : InstanceTrafficRef} :
    ref ∈ trafficRefs instances → ref.listed ∈ instances ∧ ref.listed.id = some ref.ocid := by
  intro h
  obtain ⟨i, hi, heq⟩ := List.mem_filterMap.mp h
  obtain ⟨ocid, hid, rfl⟩ := Option.map_eq_some_iff.mp heq
  exact ⟨hi, hid⟩

theorem exists_trafficRef (instances : List ListedInstance) (P : ListedInstance → Prop) :
    (∃ ref ∈ trafficRefs instances, P ref.listed) ↔ ∃ i ∈ instances, i.id ≠ none ∧ P i := by
  constructor
  · rintro ⟨ref, href, hp⟩
    obtain ⟨hi, hid⟩ := mem_trafficRefs href
    exact ⟨ref.listed, hi, by rw [hid]; exact Option.some_ne_none _, hp⟩
  · rintro ⟨i, hi, hid, hp⟩
    obtain ⟨ocid, hid⟩ := Option.ne_none_iff_exists'.mp hid
    exact ⟨⟨ocid, i.displayName.getD "", i⟩, List.mem_filterMap.mpr ⟨i, hi, by rw [hid]; rfl⟩, hp⟩

/-- Some query of the instance fails. -/
theorem exists_metricTask {i : ListedInstance} (hread : ¬ i.Unreadable) :
    (∃ v ∈ resolved i, ∃ metric, v.1.measured metric = false) ↔ i.MetricFails := by
  have hlist : i.listAttachments = true := by
    by_contra hno
    exact hread (Or.inl (Bool.not_eq_true _ ▸ hno))
  rw [resolved_of_listed hlist]
  unfold ListedInstance.MetricFails
  constructor
  · rintro ⟨v, hv, metric, hmetric⟩
    obtain ⟨a, ha, hgiven⟩ := List.mem_filterMap.mp hv
    obtain ⟨rfl, -, hid, hfound⟩ := mem_given.mp hgiven
    exact ⟨hlist, v.1, ha, hid, by rw [hfound]; rfl, metric, hmetric⟩
  · rintro ⟨-, a, ha, hid, hfound, metric, hmetric⟩
    obtain ⟨d, hd⟩ : ∃ d, a.getVnic = .found d := by
      cases hv : a.getVnic with
      | found d => exact ⟨d, rfl⟩
      | error => rw [hv] at hfound; cases hfound
      | noID d => rw [hv] at hfound; cases hfound
    exact ⟨(a, ⟨a.vnicID, d⟩), List.mem_filterMap.mpr ⟨a, ha, mem_given.mpr ⟨rfl, rfl, hid, hd⟩⟩, metric, hmetric⟩

theorem unreadable_pos (refs : List InstanceTrafficRef) :
    0 < (refs.countP fun ref => (getInstanceVNICs ref.listed).isNone) ↔ ∃ ref ∈ refs, ref.listed.Unreadable := by
  rw [List.countP_pos_iff]
  simp only [getInstanceVNICs_isNone]

theorem sumVnicMetric_isNone (a : Attachment) (step : Nat) (metric : Metric) :
    (sumVnicMetric a step metric).isNone = true ↔ a.measured metric = false := by
  unfold sumVnicMetric
  cases a.measured metric <;> simp

theorem failed_pos (refs : List InstanceTrafficRef) (step : Nat) :
    0 < ((metricTasks refs).countP fun task => (sumVnicMetric task.1 step task.2).isNone) ↔
      ∃ ref ∈ refs, ∃ v ∈ resolved ref.listed, ∃ metric, v.1.measured metric = false := by
  rw [List.countP_pos_iff]
  simp only [sumVnicMetric_isNone]
  constructor
  · rintro ⟨task, htask, hno⟩
    obtain ⟨v, hv, htask⟩ := List.mem_flatMap.mp htask
    obtain ⟨ref, href, hv⟩ := List.mem_flatMap.mp hv
    refine ⟨ref, href, v, hv, task.2, ?_⟩
    have htask : task = (v.1, .vnicFromNetworkBytes) ∨ task = (v.1, .vnicToNetworkBytes) := by simpa using htask
    obtain rfl | rfl := htask <;> exact hno
  · rintro ⟨ref, href, v, hv, metric, hno⟩
    refine ⟨(v.1, metric), List.mem_flatMap.mpr ⟨v, List.mem_flatMap.mpr ⟨ref, href, hv⟩, ?_⟩, hno⟩
    cases metric <;> simp

/-- A region is read when every call before the VNICs succeeds. -/
structure RegionCalls.Read (r : RegionCalls) (step : Nat) : Prop where
  panics : r.panics = false
  valid : validRegion r.region = true
  client : r.client = true
  listInstances : r.listInstances = true
  interval : monitoringInterval r.need = some step

/-- The slot of a region that is read. -/
theorem RegionCalls.Read.slot_eq {r : RegionCalls} {step : Nat} (h : r.Read step) :
    (slot r).error = "" ∧
      (slot r).instances = (trafficRefs r.instances).map (instanceStat r.region step) ∧
      ((slot r).partialData = true ↔ (∃ i ∈ r.instances, i.id ≠ none ∧ (i.Unreadable ∨ i.MetricFails)) ∨
        (r.timedOut = true ∧ ∃ i ∈ r.instances, i.id ≠ none)) := by
  unfold slot collectRegionTraffic fetchInstancesTrafficDetail
  rw [h.panics, if_neg Bool.false_ne_true, h.valid, if_neg (by decide), h.client, if_neg (by decide),
    h.listInstances, if_neg (by decide), h.interval, Option.map_some]
  refine ⟨rfl, rfl, ?_⟩
  dsimp only
  rw [decide_eq_true_eq, unreadable_pos, failed_pos, List.length_map, List.length_pos_iff_exists_mem]
  have hrefs : (∃ ref, ref ∈ trafficRefs r.instances) ↔ ∃ i ∈ r.instances, i.id ≠ none := by
    simpa using exists_trafficRef r.instances fun _ => True
  rw [hrefs, ← or_assoc]
  refine or_congr ?_ Iff.rfl
  rw [← exists_trafficRef r.instances fun i => i.Unreadable ∨ i.MetricFails, ← exists_or]
  refine exists_congr fun ref => ?_
  rw [← and_or_left]
  refine and_congr_right fun _ => ?_
  by_cases hread : ref.listed.Unreadable
  · exact iff_of_true (Or.inl hread) (Or.inl hread)
  · rw [exists_metricTask hread]

/-- The slot of a region that is not read. -/
theorem slot_of_not_read {r : RegionCalls} (h : ∀ step, ¬ r.Read step) :
    (slot r).instances = [] ∧ (slot r).inboundBytes = 0 ∧ (slot r).outboundBytes = 0 ∧
      ((slot r).error ≠ "" ∨ (slot r).partialData = true ↔ r.panics = false) := by
  unfold slot
  by_cases hp : r.panics = true
  · rw [if_pos hp]
    exact ⟨rfl, rfl, rfl, by simp [hp]⟩
  rw [if_neg hp]
  have hp := Bool.not_eq_true _ ▸ hp
  have herror : ∀ (rs : TrafficRegionStat) (e : String), e ≠ "" → rs = { region := r.region, error := e } →
      rs.instances = [] ∧ rs.inboundBytes = 0 ∧ rs.outboundBytes = 0 ∧
        (rs.error ≠ "" ∨ rs.partialData = true ↔ r.panics = false) := by
    rintro _ e he rfl
    exact ⟨rfl, rfl, rfl, iff_of_true (Or.inl he) hp⟩
  unfold collectRegionTraffic
  by_cases hv : validRegion r.region = false
  · rw [if_pos hv]
    exact herror _ _ (by decide) rfl
  rw [if_neg hv]
  by_cases hc : r.client = false
  · rw [if_pos hc]
    exact herror _ _ (by decide) rfl
  rw [if_neg hc]
  by_cases hl : r.listInstances = false
  · rw [if_pos hl]
    exact herror _ _ (by decide) rfl
  rw [if_neg hl]
  unfold fetchInstancesTrafficDetail
  cases hi : monitoringInterval r.need with
  | none => exact herror _ "fetch traffic failed" (by decide) rfl
  | some step =>
    exact absurd ⟨hp, Bool.not_eq_false _ ▸ hv, Bool.not_eq_false _ ▸ hc, Bool.not_eq_false _ ▸ hl, hi⟩ (h step)

theorem not_read_iff {r : RegionCalls} : (∀ step, ¬ r.Read step) ↔ r.panics = true ∨
    validRegion r.region = false ∨ r.client = false ∨ r.listInstances = false ∨
      monitoringInterval r.need = none := by
  constructor
  · intro h
    by_contra hno
    simp only [not_or, Bool.not_eq_true, Bool.not_eq_false] at hno
    obtain ⟨hp, hv, hc, hl, hi⟩ := hno
    obtain ⟨step, hi⟩ := Option.ne_none_iff_exists'.mp hi
    exact h step ⟨hp, hv, hc, hl, hi⟩
  · rintro h step ⟨hp, hv, hc, hl, hi⟩
    simp [hp, hv, hc, hl, hi] at h

theorem slot_marks_iff (r : RegionCalls) :
    (slot r).error ≠ "" ∨ (slot r).partialData = true ↔ r.Marks := by
  unfold RegionCalls.Marks
  by_cases hread : ∃ step, r.Read step
  · obtain ⟨step, hread⟩ := hread
    obtain ⟨herr, -, hmarked⟩ := hread.slot_eq
    rw [hmarked, herr]
    simp [hread.panics, hread.valid, hread.client, hread.listInstances, hread.interval]
  · have hread := not_exists.mp hread
    rw [(slot_of_not_read hread).2.2.2]
    have := not_read_iff.mp hread
    constructor
    · intro hp
      refine ⟨hp, ?_⟩
      simp only [hp, Bool.false_eq_true, false_or] at this
      obtain hv | hc | hl | hi := this
      · exact Or.inl hv
      · exact Or.inr (Or.inl hc)
      · exact Or.inr (Or.inr (Or.inl hl))
      · exact Or.inr (Or.inr (Or.inr (Or.inl hi)))
    · exact And.left

theorem total_cons (v : Rat) (values : List Rat) : total (v :: values) = v + total values := by
  have hfrom : ∀ (l : List Rat) (a : Rat), l.foldl (· + ·) a = a + total l := by
    intro l
    induction l with
    | nil => exact fun a => (Rat.add_zero a).symm
    | cons b l ih =>
      intro a
      unfold total
      rw [List.foldl_cons, List.foldl_cons, ih, ih (0 + b), Rat.zero_add, Rat.add_assoc]
  show values.foldl (· + ·) (0 + v) = _
  rw [hfrom, Rat.zero_add]

theorem total_append (l m : List Rat) : total (l ++ m) = total l + total m := by
  induction l with
  | nil => exact (Rat.zero_add _).symm
  | cons v l ih => rw [List.cons_append, total_cons, total_cons, ih, Rat.add_assoc]

/-- A loop that adds up what the loops inside it have added up. -/
theorem total_flatMap {α β : Type} (l : List α) (g : α → List β) (f : β → Rat) :
    total ((l.flatMap g).map f) = total (l.map fun a => total ((g a).map f)) := by
  induction l with
  | nil => rfl
  | cons a l ih => rw [List.flatMap_cons, List.map_append, total_append, ih, List.map_cons, total_cons]

/-- The sums of a region are over the VNICs that it counts. -/
theorem slot_bytes (r : RegionCalls) :
    (slot r).inboundBytes = total ((slot r).entries.map Entry.inbound) ∧
      (slot r).outboundBytes = total ((slot r).entries.map Entry.outbound) := by
  by_cases hread : ∃ step, r.Read step
  · obtain ⟨step, h⟩ := hread
    unfold slot collectRegionTraffic fetchInstancesTrafficDetail
    rw [h.panics, if_neg Bool.false_ne_true, h.valid, if_neg (by decide), h.client, if_neg (by decide),
      h.listInstances, if_neg (by decide), h.interval, Option.map_some]
    unfold TrafficRegionStat.entries
    dsimp only
    rw [total_flatMap, total_flatMap, List.map_map, List.map_map, List.map_map, List.map_map]
    constructor
    · refine congrArg total (List.map_congr_left fun ref _ => ?_)
      show total ((instanceStat r.region step ref).vnics.map _) = _
      rw [Function.comp_apply, List.map_map]
      rfl
    · refine congrArg total (List.map_congr_left fun ref _ => ?_)
      show total ((instanceStat r.region step ref).vnics.map _) = _
      rw [Function.comp_apply, List.map_map]
      rfl
  · obtain ⟨hnil, hin, hout, -⟩ := slot_of_not_read (not_exists.mp hread)
    unfold TrafficRegionStat.entries
    rw [hnil, hin, hout]
    exact ⟨rfl, rfl⟩

/-- The attachments of a region with their instances. -/
def RegionCalls.attached (r : RegionCalls) : List (ListedInstance × Attachment) :=
  r.instances.flatMap fun i => i.attachments.map fun a => (i, a)

theorem filterMap_attached (r : RegionCalls) (f : ListedInstance → Attachment → Option Entry) :
    (r.attached.filterMap fun p => f p.1 p.2) = r.instances.flatMap fun i => i.attachments.filterMap (f i) := by
  unfold RegionCalls.attached
  rw [List.filterMap_flatMap]
  refine congrArg (List.flatMap · r.instances) (funext fun i => ?_)
  rw [List.filterMap_map]
  rfl

theorem flatMap_trafficRefs (instances : List ListedInstance) (g : ListedInstance → List Entry) :
    ((trafficRefs instances).flatMap fun ref => g ref.listed) =
      instances.flatMap fun i => if i.id.isSome then g i else [] := by
  unfold trafficRefs
  induction instances with
  | nil => rfl
  | cons i is ih =>
    rw [List.flatMap_cons]
    cases hid : i.id with
    | none =>
      rw [List.filterMap_cons_none (by rw [hid]; rfl), ih]
      rfl
    | some ocid =>
      rw [List.filterMap_cons_some (by rw [hid]; rfl), List.flatMap_cons, ih]
      rfl

/-- What a slot counts when the VNICs of its instances are listed and no query fails. -/
theorem RegionCalls.Read.entries_eq {r : RegionCalls} {step : Nat} (h : r.Read step)
    (hall : ∀ i ∈ r.instances, i.id ≠ none → i.listAttachments = true ∧ ¬ i.MetricFails) :
    (slot r).entries = r.attached.filterMap fun p =>
      if p.1.id.isSome ∧ p.2.getVnic.isFound = true then p.2.entry step else none := by
  have hslot : (slot r).entries = (trafficRefs r.instances).flatMap fun ref =>
      (resolved ref.listed).map fun v => (vnicStat step v).entry := by
    unfold TrafficRegionStat.entries
    rw [h.slot_eq.2.1, List.flatMap_map]
    refine congrArg (List.flatMap · (trafficRefs r.instances)) (funext fun ref => ?_)
    show ((resolved ref.listed).map (vnicStat step)).map _ = _
    rw [List.map_map]
    rfl
  rw [hslot, flatMap_trafficRefs r.instances fun i => (resolved i).map fun v => (vnicStat step v).entry,
    filterMap_attached r fun i a => if i.id.isSome ∧ a.getVnic.isFound = true then a.entry step else none]
  refine List.flatMap_congr fun i hi => ?_
  by_cases hid : i.id = none
  · simp [hid]
  · obtain ⟨hlist, hm⟩ := hall i hi hid
    have hsome : i.id.isSome = true := Option.isSome_iff_ne_none.mpr hid
    simp only [hsome, if_true, true_and]
    exact resolved_entries step hlist hm

/-- A filter that drops something of what is mapped leaves a shorter list. -/
theorem filterMap_guard_iff {α β : Type} (l : List α) (keep : α → Prop) [DecidablePred keep] (f : α → Option β) :
    (l.filterMap fun a => if keep a then f a else none) = l.filterMap f ↔
      ∀ a ∈ l, f a ≠ none → keep a := by
  constructor
  · intro h
    induction l with
    | nil => simp
    | cons a l ih =>
      rw [List.filterMap_cons, List.filterMap_cons] at h
      cases hf : f a with
      | none =>
        rw [hf, ite_self] at h
        exact List.forall_mem_cons.mpr ⟨fun hne => absurd hf hne, ih h⟩
      | some b =>
        by_cases hk : keep a
        · rw [if_pos hk, hf] at h
          exact List.forall_mem_cons.mpr ⟨fun _ => hk, ih (List.tail_eq_of_cons_eq h)⟩
        · exfalso
          rw [if_neg hk, hf] at h
          dsimp only at h
          have hle : (l.filterMap fun a => if keep a then f a else none).length ≤ (l.filterMap f).length := by
            have hfilter := List.filterMap_filter (p := fun a => decide (keep a)) (f := f) (l := l)
            simp only [decide_eq_true_eq] at hfilter
            rw [← hfilter]
            exact (List.filter_sublist.filterMap f).length_le
          have hlen := congrArg List.length h
          rw [List.length_cons] at hlen
          omega
  · intro h
    refine List.filterMap_congr fun a ha => ?_
    by_cases hf : f a = none
    · rw [hf, ite_self]
    · rw [if_pos (h a ha hf)]

theorem RegionCalls.Read.counted_iff {r : RegionCalls} {step : Nat} (h : r.Read step)
    (hall : ∀ i ∈ r.instances, i.id ≠ none → i.listAttachments = true ∧ ¬ i.MetricFails) :
    (slot r).entries = r.entries ↔ ¬ r.Loses := by
  have htruth : r.entries = r.attached.filterMap fun p => p.2.entry step := by
    unfold RegionCalls.entries
    rw [h.interval, filterMap_attached r fun _ a => a.entry step]
    rfl
  rw [h.entries_eq hall, htruth, filterMap_guard_iff]
  have hentry : ∀ a : Attachment, a.entry step ≠ none ↔ a.vnicID ≠ none := fun a => by
    unfold Attachment.entry
    rw [ne_eq, Option.map_eq_none_iff]
  simp only [hentry]
  unfold RegionCalls.Loses RegionCalls.attached
  constructor
  · rintro hkeep (hp | ⟨i, hi, a, ha, hid, hlost⟩)
    · cases h.panics.symm.trans hp
    · obtain ⟨hsome, hfound⟩ := hkeep (i, a) (List.mem_flatMap.mpr ⟨i, hi, List.mem_map.mpr ⟨a, ha, rfl⟩⟩) hid
      obtain hno | hno := hlost
      · rw [hno] at hsome
        cases hsome
      · cases hno.symm.trans hfound
  · rintro hno p hp hid
    obtain ⟨i, hi, hp⟩ := List.mem_flatMap.mp hp
    obtain ⟨a, ha, rfl⟩ := List.mem_map.mp hp
    constructor
    · by_contra hnone
      exact hno (Or.inr ⟨i, hi, a, ha, hid, Or.inl (by simpa using hnone)⟩)
    · by_contra hmiss
      exact hno (Or.inr ⟨i, hi, a, ha, hid, Or.inr (by simpa using hmiss)⟩)

/-- A region without a mark counts all its VNICs if and only if none is lost. -/
theorem counted_of_unmarked {r : RegionCalls} (h : ¬ r.Marks) :
    (r.panics = false ∧ (slot r).entries = r.entries) ↔ ¬ r.Loses := by
  by_cases hp : r.panics = true
  · refine iff_of_false (fun hc => ?_) (fun hno => hno (Or.inl hp))
    cases hp.symm.trans hc.1
  have hp := Bool.not_eq_true _ ▸ hp
  have hread : ∃ step, r.Read step := by
    by_contra hno
    exact h ((slot_marks_iff r).mp ((slot_of_not_read (not_exists.mp hno)).2.2.2.mpr hp))
  obtain ⟨step, hread⟩ := hread
  rw [and_iff_right hp]
  refine hread.counted_iff fun i hi hid => ?_
  have hi : ¬ (i.Unreadable ∨ i.MetricFails) := fun hbad =>
    h ⟨hp, Or.inr (Or.inr (Or.inr (Or.inr (Or.inl ⟨i, hi, hid, hbad⟩))))⟩
  exact ⟨Bool.not_eq_false _ ▸ fun hno => hi (Or.inl (Or.inl hno)), fun hm => hi (Or.inr hm)⟩

/-! ## All regions -/

theorem regionErrors_ne_nil (rs : TrafficRegionStat) :
    regionErrors rs ≠ [] ↔ rs.error ≠ "" ∨ rs.partialData = true := by
  unfold regionErrors
  by_cases he : rs.error ≠ ""
  · simp [he]
  · rw [if_neg he]
    cases rs.partialData <;> simp [he]

theorem marked_iff (quotaBytes : Rat) (regions : List RegionCalls) :
    Marked (collectTrafficStats quotaBytes regions) ↔ ∃ r ∈ regions, r.Marks := by
  have herrors : (collectTrafficStats quotaBytes regions).errors ≠ [] ↔ ∃ r ∈ regions, r.Marks := by
    show (regions.map slot).flatMap regionErrors ≠ [] ↔ _
    rw [ne_eq, List.flatMap_eq_nil_iff]
    simp only [List.mem_map, forall_exists_index, and_imp, forall_apply_eq_imp_iff₂, not_forall, exists_prop]
    refine exists_congr fun r => and_congr_right fun _ => ?_
    exact (regionErrors_ne_nil (slot r)).trans (slot_marks_iff r)
  unfold Marked
  rw [herrors, or_iff_right_iff_imp]
  intro hmarked
  obtain ⟨rs, hrs, hp⟩ := List.any_eq_true.mp hmarked
  obtain ⟨r, hr, rfl⟩ := List.mem_map.mp (List.mem_filter.mp hrs).1
  exact ⟨r, hr, (slot_marks_iff r).mp (Or.inr hp)⟩

/-- A slot with an error counts nothing. -/
theorem entries_of_error {r : RegionCalls} (h : (slot r).error ≠ "") : (slot r).entries = [] := by
  by_cases hread : ∃ step, r.Read step
  · obtain ⟨step, hread⟩ := hread
    exact absurd hread.slot_eq.1 h
  · unfold TrafficRegionStat.entries
    rw [(slot_of_not_read (not_exists.mp hread)).1]
    rfl

/-- The slots that are added up are those that count something. -/
theorem total_read (regions : List RegionCalls) (f : Entry → Rat) (g : TrafficRegionStat → Rat)
    (hg : ∀ r, g (slot r) = total ((slot r).entries.map f)) :
    total (((regions.map slot).filter fun rs => rs.error = "").map g) =
      total ((regions.flatMap fun r => (slot r).entries).map f) := by
  induction regions with
  | nil => rfl
  | cons r rs ih =>
    rw [List.map_cons, List.flatMap_cons, List.map_append, total_append, ← ih, List.filter_cons]
    split <;> rename_i herr
    · rw [List.map_cons, total_cons, hg r]
    · rw [entries_of_error (by simpa using herr)]
      exact (Rat.zero_add _).symm

/-- The totals are the sums over the VNICs that the slots count. -/
theorem totals_eq (quotaBytes : Rat) (regions : List RegionCalls) :
    (collectTrafficStats quotaBytes regions).inboundBytes =
        total ((regions.flatMap fun r => (slot r).entries).map Entry.inbound) ∧
      (collectTrafficStats quotaBytes regions).outboundBytes =
        total ((regions.flatMap fun r => (slot r).entries).map Entry.outbound) :=
  ⟨total_read regions _ _ fun r => (slot_bytes r).1, total_read regions _ _ fun r => (slot_bytes r).2⟩

theorem complete_iff (quotaBytes : Rat) (regions : List RegionCalls) :
    Complete (collectTrafficStats quotaBytes regions) regions ↔
      ∀ r ∈ regions, r.panics = false ∧ (slot r).entries = r.entries := by
  refine ⟨Complete.counted, fun h => ?_⟩
  have hentries : (regions.flatMap fun r => (slot r).entries) = regions.flatMap RegionCalls.entries :=
    List.flatMap_congr fun r hr => (h r hr).2
  obtain ⟨hin, hout⟩ := totals_eq quotaBytes regions
  rw [hentries] at hin hout
  exact ⟨h, hin, hout⟩

theorem RegionCalls.Succeeds.counted {r : RegionCalls} (h : r.Succeeds) :
    r.panics = false ∧ (slot r).entries = r.entries := by
  obtain ⟨step, hstep⟩ := Option.ne_none_iff_exists'.mp h.interval
  have hread : r.Read step := ⟨h.panics, h.valid, h.client, h.listInstances, hstep⟩
  refine ⟨h.panics, (hread.counted_iff fun i hi _ => ⟨h.listAttachments i hi, ?_⟩).mpr ?_⟩
  · rintro ⟨-, a, ha, -, -, metric, hno⟩
    cases hno.symm.trans (h.measured i hi a ha metric)
  · rintro (hp | ⟨i, hi, a, ha, -, hid | hmiss⟩)
    · cases hp.symm.trans h.panics
    · exact h.ids i hi hid
    · cases hmiss.symm.trans (h.found i hi a ha)

/-- A response is marked or complete if and only if some failure is recorded or no VNIC is lost; and it is complete
when every call succeeds. -/
theorem totals_surface_iff (quotaBytes : Rat) (regions : List RegionCalls) :
    ((Marked (collectTrafficStats quotaBytes regions) ∨
        Complete (collectTrafficStats quotaBytes regions) regions) ↔
      (∃ r ∈ regions, r.Marks) ∨ ∀ r ∈ regions, ¬ r.Loses) ∧
    ((∀ r ∈ regions, r.Succeeds) → Complete (collectTrafficStats quotaBytes regions) regions) := by
  constructor
  · rw [marked_iff, complete_iff]
    by_cases hmarks : ∃ r ∈ regions, r.Marks
    · exact iff_of_true (Or.inl hmarks) (Or.inl hmarks)
    · rw [or_iff_right hmarks, or_iff_right hmarks]
      refine forall₂_congr fun r hr => counted_of_unmarked fun hm => hmarks ⟨r, hr, hm⟩
  · intro h
    exact (complete_iff quotaBytes regions).mpr fun r hr => (h r hr).counted

/-! ## Two VNICs -/

/-- One data point of 1000 bytes a minute in each direction. -/
def attachment (vnicID : String) (getVnic : GetVnic) : Attachment where
  vnicID := some vnicID
  getVnic := getVnic
  datapoints := fun _ => [[some 1000]]
  measured := fun _ => true

def twoVnics (second : GetVnic) : RegionCalls where
  region := "eu-frankfurt-1"
  panics := false
  client := true
  listInstances := true
  instances := [⟨some "ocid", some "web", true, [attachment "vnic1" (.found none), attachment "vnic2" second]⟩]
  need := 0
  timedOut := false

theorem twoVnics_complete : Complete (collectTrafficStats 0 [twoVnics (.found none)]) [twoVnics (.found none)] := by
  refine (totals_surface_iff 0 [twoVnics (.found none)]).2 fun r hr => ?_
  obtain rfl := List.mem_singleton.mp hr
  refine ⟨rfl, by decide, rfl, rfl, by decide, by decide, by decide, by decide, fun i hi a ha metric => ?_⟩
  obtain rfl := List.mem_singleton.mp hi
  obtain rfl | ha := List.mem_cons.mp ha
  · rfl
  · obtain rfl := List.mem_singleton.mp ha
    rfl

/-- One of the two cannot be read, and the response is not marked. -/
theorem vnic_lost : ¬ Marked (collectTrafficStats 0 [twoVnics .error]) ∧
    ¬ Complete (collectTrafficStats 0 [twoVnics .error]) [twoVnics .error] := by
  constructor
  · rintro (h | h)
    · revert h
      decide
    · revert h
      decide
  · intro h
    have hlen := congrArg List.length (h.counted _ (List.mem_singleton.mpr rfl)).2
    revert hlen
    decide

end OciHelper.Traffic
