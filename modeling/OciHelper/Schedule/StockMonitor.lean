import Mathlib.Data.List.Destutter
import OciHelper.Lib.KeyTable
import OciHelper.Lib.StepRun
import OciHelper.Lib.Text

/-!
# The stock monitor

* `checkInstanceStock`, `checkOneStockAlert` : whether a shape can be had;
* `Monitor`, `step` : the cycles of the monitor, each over the alerts as they were listed, one goroutine for each of
  them, with the requests that create, edit and delete alerts at any time;
* `observations` : what the checks of an alert found; `due` : the changes among them, as far as they are stored;
* `log_eq_due` : the changes that are logged are the due ones, whatever runs in between; `outbox_eq` : they are sent
  where the alert has a chat and the cycle a token;
* `changes_told` : with every status stored, each change is told once, and only a change.

Texts are lists of characters.
-/

namespace OciHelper.Stock
open StepRun

abbrev ID := List Char

inductive Status
  | available
  | outOfStock
  deriving DecidableEq, Repr

def Status.text : Status → List Char
  | .available => "available".toList
  | .outOfStock => "out_of_stock".toList

/-- A row of `stock_alerts`. -/
structure Alert where
  tenantID : Int
  region : List Char
  shape : List Char
  availabilityDomain : List Char := []
  chatID : Int := 0
  enabled : Bool := true
  lastStockStatus : List Char := []
  deriving DecidableEq, Repr

/-- What a check is told: whether there is a client for the tenant, the images with and without the filter, the shapes
for an image, and what is left of the quota of a domain. -/
structure Answers where
  client : Bool := true
  images : Option (List ID)
  anyImages : Option (List ID) := none
  shapes : ID → Option (List (List Char))
  quota : Option Int := none

def checkInstanceStock (a : Answers) (shape ad : List Char) : Option Status :=
  let images := if a.images.getD [] = [] then a.anyImages.getD [] else a.images.getD []
  match images with
  | [] => none
  | imageID :: _ =>
    (a.shapes imageID).map fun shapes =>
      if shapes.any (· = shape) then
        if ad ≠ [] ∧ a.quota.any (· ≤ 0) then .outOfStock else .available
      else .outOfStock

/-- Without a result, an error. -/
def checkOneStockAlert (a : Answers) (alert : Alert) : Option Status :=
  if a.client then checkInstanceStock a alert.shape alert.availabilityDomain else none

def buildStockAlertMessage (region shape ad : List Char) (status : Status) : List Char :=
  let emoji := match status with
    | .available => "✅".toList
    | .outOfStock => "❌".toList
  let adText := if ad = [] then [] else " (AD: ".toList ++ ad ++ ")".toList
  let label := match status with
    | .available => "AVAILABLE".toList
    | .outOfStock => "OUT OF STOCK".toList
  emoji ++ " Stock Alert: ".toList ++ region ++ '/' :: shape ++ adText ++ " is now **".toList ++ label ++ "**".toList

/-! ## The table -/

abbrev Table := KeyTable Alert

def createStockAlert (a : Alert) (t : Table) : Table := t.insert { a with lastStockStatus := [] }

/-- The status stays. -/
def updateStockAlert (id : Int) (a : Alert) (t : Table) : Table :=
  t.update id fun row => { a with lastStockStatus := row.lastStockStatus }

def deleteStockAlert (id : Int) (t : Table) : Table := t.erase id

def listEnabledStockAlerts (t : Table) : List (Int × Alert) := t.rows.filter fun r => r.2.enabled

def updateStockAlertStatus (id : Int) (status : Status) (t : Table) : Table :=
  t.update id fun row => { row with lastStockStatus := status.text }

/-! ## The monitor -/

/-- A line of the log: the alert as it was listed, the token of the cycle, and the new status. -/
structure Change where
  id : Int
  alert : Alert
  token : List Char
  status : Status
  deriving DecidableEq, Repr

structure Message where
  chatID : Int
  text : List Char
  deriving DecidableEq, Repr

def Change.message (c : Change) : Option Message :=
  if c.alert.chatID ≠ 0 ∧ c.token ≠ [] then
    some ⟨c.alert.chatID, buildStockAlertMessage c.alert.region c.alert.shape c.alert.availabilityDomain c.status⟩
  else none

/-- `pending` are the alerts of the cycle whose goroutine has not ended. -/
structure Monitor where
  alerts : Table
  token : List Char := []
  pending : List (Int × Alert) := []
  log : List Change := []
  outbox : List Message := []

/-- `tick` comes with what the reads of the token and of the alerts give; `finish` with the answers to the check, and
whether the new status is stored; `skip` is an alert that the cycle has no time for. -/
inductive Event
  | tick (token : Option (List Char)) (listed : Bool)
  | finish (id : Int) (answers : Answers) (stored : Bool)
  | skip (id : Int)
  | create (a : Alert)
  | update (id : Int) (a : Alert)
  | delete (id : Int)

def lookup (pending : List (Int × Alert)) (id : Int) : Option Alert := (pending.find? fun r => r.1 == id).map Prod.snd

def Monitor.done (s : Monitor) (id : Int) : Monitor := { s with pending := s.pending.filter fun r => r.1 ≠ id }

def Monitor.write (s : Monitor) (id : Int) (status : Status) (stored : Bool) : Monitor :=
  { s with alerts := if stored then updateStockAlertStatus id status s.alerts else s.alerts }

def Monitor.tell (s : Monitor) (change : Change) : Monitor :=
  { s with log := s.log ++ [change], outbox := s.outbox ++ change.message.toList }

/-- The end of a goroutine. -/
def Monitor.finish (s : Monitor) (id : Int) (alert : Alert) (status : Status) (stored : Bool) : Monitor :=
  if status.text ≠ alert.lastStockStatus then (s.write id status stored).tell ⟨id, alert, s.token, status⟩
  else s.write id status stored

/-- A cycle begins when the one before has ended. -/
def step : Step Monitor Event
  | s, .tick token listed =>
    if s.pending = [] then
      some { s with
        token := token.getD s.token
        pending := if listed then listEnabledStockAlerts s.alerts else [] }
    else none
  | s, .finish id answers stored =>
    (lookup s.pending id).map fun alert =>
      match checkOneStockAlert answers alert with
      | none => s.done id
      | some status => (s.done id).finish id alert status stored
  | s, .skip id => (lookup s.pending id).map fun _ => s.done id
  | s, .create a => some { s with alerts := createStockAlert a s.alerts }
  | s, .update id a => some { s with alerts := updateStockAlert id a s.alerts }
  | s, .delete id => some { s with alerts := deleteStockAlert id s.alerts }

/-! ## What the checks find -/

/-- The status that a check of the alert finds, and whether it is stored. -/
def observation (id : Int) (s : Monitor) : Event → Option (Status × Bool)
  | .finish id' answers stored =>
    if id' = id then ((lookup s.pending id).bind (checkOneStockAlert answers)).map (·, stored) else none
  | _ => none

def observations (id : Int) : Monitor → List Event → List (Status × Bool)
  | _, [] => []
  | s, e :: es => (observation id s e).toList ++ ((step s e).map fun s' => observations id s' es).getD []

/-- The changes, against the status that was stored last. -/
def due : List Char → List (Status × Bool) → List Status
  | _, [] => []
  | last, (status, stored) :: rest =>
    (if status.text ≠ last then [status] else []) ++ due (if stored then status.text else last) rest

def lastStored (last : List Char) : Option (Status × Bool) → List Char
  | some (status, true) => status.text
  | _ => last

def changes (id : Int) (s : Monitor) : List Status := (s.log.filter fun c => c.id = id).map Change.status

/-- The status that is stored for an alert. -/
def stored (id : Int) (s : Monitor) : List Char := ((s.alerts.get id).map Alert.lastStockStatus).getD []

/-- The status of the alert is `last`, in the table and in the cycle. -/
structure Holds (id : Int) (last : List Char) (s : Monitor) : Prop where
  row : ∀ a, s.alerts.get id = some a → a.lastStockStatus = last
  snapshot : ∀ a, (id, a) ∈ s.pending → a.lastStockStatus = last
  nodup : (s.pending.map Prod.fst).Nodup
  known : ∀ r ∈ s.pending, r.1 ≤ s.alerts.seq
  fresh : s.alerts.seq < id → last = []

/-! ## One step -/

theorem lookup_eq_some {pending : List (Int × Alert)} {id : Int} {a : Alert} (h : lookup pending id = some a) :
    (id, a) ∈ pending := by
  obtain ⟨r, hr, rfl⟩ := Option.map_eq_some_iff.mp h
  have hid : r.1 = id := by
    have := List.find?_some hr
    exact beq_iff_eq.mp this
  subst hid
  exact List.mem_of_find?_eq_some hr

section
variable {id : Int} {last : List Char} {s : Monitor}

theorem Holds.done (h : Holds id last s) (id' : Int) : Holds id last (s.done id') where
  row := h.row
  snapshot a ha := h.snapshot a (List.mem_filter.mp ha).1
  nodup := h.nodup.sublist (List.filter_sublist.map _)
  known r hr := h.known r (List.mem_filter.mp hr).1
  fresh := h.fresh

theorem Holds.alerts (h : Holds id last s) {t : Table} (hseq : s.alerts.seq ≤ t.seq)
    (hrow : ∀ a, t.get id = some a → a.lastStockStatus = last) : Holds id last { s with alerts := t } where
  row := hrow
  snapshot := h.snapshot
  nodup := h.nodup
  known r hr := (h.known r hr).trans (Int.ofNat_le.mpr hseq)
  fresh hlt := h.fresh (lt_of_le_of_lt (Int.ofNat_le.mpr hseq) hlt)

/-- Writing the status of another alert leaves this one alone; writing its own makes that its status. -/
theorem holds_finish {id' : Int} (a : Alert) (status : Status) (written : Bool) (h : Holds id last s)
    (hid' : id' ≤ s.alerts.seq) (hnone : id' = id → ∀ b, (id, b) ∉ s.pending) :
    Holds id (if id' = id then lastStored last (some (status, written)) else last) (s.finish id' a status written) := by
  have hfield : ∀ t : Monitor, (t.finish id' a status written).alerts =
      (if written then updateStockAlertStatus id' status t.alerts else t.alerts) ∧
      (t.finish id' a status written).pending = t.pending := by
    intro t
    unfold Monitor.finish
    split <;> exact ⟨rfl, rfl⟩
  obtain ⟨halerts, hpending⟩ := hfield s
  have hseq : (s.finish id' a status written).alerts.seq = s.alerts.seq := by
    rw [halerts]
    split <;> rfl
  refine ⟨fun b hb => ?_, fun b hb => ?_, ?_, ?_, fun hlt => ?_⟩
  · rw [halerts] at hb
    cases written with
    | false =>
      rw [if_neg Bool.false_ne_true] at hb
      have := h.row b hb
      split
      · exact this
      · exact this
    | true =>
      rw [if_pos rfl, updateStockAlertStatus, KeyTable.get_update] at hb
      by_cases hid : id' = id
      · rw [if_pos hid]
        rw [if_pos hid.symm] at hb
        obtain ⟨b', -, rfl⟩ := Option.map_eq_some_iff.mp hb
        rfl
      · rw [if_neg hid]
        rw [if_neg (Ne.symm hid)] at hb
        exact h.row b hb
  · rw [hpending] at hb
    by_cases hid : id' = id
    · exact absurd hb (hnone hid b)
    · rw [if_neg hid]
      exact h.snapshot b hb
  · rw [hpending]
    exact h.nodup
  · rw [hpending, hseq]
    exact h.known
  · rw [hseq] at hlt
    rw [if_neg (by omega)]
    exact h.fresh hlt

theorem changes_finish (id : Int) (s : Monitor) (id' : Int) (a : Alert) (status : Status) (written : Bool) :
    changes id (s.finish id' a status written) =
      changes id s ++ if id' = id ∧ status.text ≠ a.lastStockStatus then [status] else [] := by
  have hlog : (s.finish id' a status written).log =
      s.log ++ if status.text ≠ a.lastStockStatus then [⟨id', a, s.token, status⟩] else [] := by
    unfold Monitor.finish
    split
    · rfl
    · exact (List.append_nil _).symm
  unfold changes
  rw [hlog, List.filter_append, List.map_append]
  congr 1
  by_cases hchanged : status.text ≠ a.lastStockStatus
  · by_cases hid : id' = id
    · simp [hchanged, hid]
    · simp [hchanged, hid]
  · simp [hchanged]

theorem holds_tick (h : Holds id last s) (token : List Char) (listed : Bool) :
    Holds id last { s with token := token, pending := if listed then listEnabledStockAlerts s.alerts else [] } := by
  have hmem : ∀ r ∈ (if listed then listEnabledStockAlerts s.alerts else []), r ∈ s.alerts.rows := by
    intro r hr
    split at hr
    · exact (List.mem_filter.mp hr).1
    · cases hr
  refine ⟨h.row, fun a ha => h.row a (s.alerts.mem_rows_iff.mp (hmem _ ha)), ?_, ?_, h.fresh⟩
  · dsimp only
    split
    · refine List.Nodup.sublist (List.filter_sublist.map Prod.fst) ?_
      refine List.pairwise_map.mpr (s.alerts.sorted.imp fun hlt => ?_)
      omega
    · exact List.nodup_nil
  · exact fun r hr => s.alerts.bounded r (hmem r hr)

theorem observation_finish {id' : Int} {alert : Alert} (hlookup : lookup s.pending id' = some alert) (answers : Answers)
    (written : Bool) : observation id s (.finish id' answers written) =
      if id' = id then (checkOneStockAlert answers alert).map (·, written) else none := by
  change (if id' = id then _ else none) = _
  by_cases hid : id' = id
  · rw [if_pos hid, if_pos hid, ← hid, hlookup, Option.bind_some]
  · rw [if_neg hid, if_neg hid]

/-- **One step.** A check is the only step that moves the status, and it logs a change just when there is one. -/
theorem holds_step {s' : Monitor} {e : Event} (h : Holds id last s) (hs : step s e = some s') :
    Holds id (lastStored last (observation id s e)) s' ∧
      changes id s' = changes id s ++ due last (observation id s e).toList := by
  cases e with
  | tick token listed =>
    simp only [step] at hs
    split at hs
    · cases hs
      exact ⟨holds_tick h _ listed, (List.append_nil _).symm⟩
    · cases hs
  | finish id' answers written =>
    obtain ⟨alert, hlookup, rfl⟩ := Option.map_eq_some_iff.mp hs
    have hmem := lookup_eq_some hlookup
    rw [observation_finish hlookup]
    cases hcheck : checkOneStockAlert answers alert with
    | none =>
      rw [Option.map_none, ite_self]
      exact ⟨h.done id', (List.append_nil _).symm⟩
    | some status =>
      rw [Option.map_some]
      have hfinish := holds_finish alert status written (h.done id') (h.known _ hmem)
        fun hid b hb => of_decide_eq_true (List.mem_filter.mp hb).2 hid.symm
      have hchanges := changes_finish id (s.done id') id' alert status written
      by_cases hid : id' = id
      · rw [if_pos hid] at hfinish
        have hlast : alert.lastStockStatus = last := h.snapshot alert (hid ▸ hmem)
        refine ⟨by rw [if_pos hid]; exact hfinish, hchanges.trans (congrArg (changes id s ++ ·) ?_)⟩
        rw [if_pos hid, hlast]
        simp [due, hid]
      · rw [if_neg hid] at hfinish
        refine ⟨by rw [if_neg hid]; exact hfinish, hchanges.trans (congrArg (changes id s ++ ·) ?_)⟩
        rw [if_neg hid, if_neg fun hboth => hid hboth.1]
        rfl
  | skip id' =>
    obtain ⟨alert, -, rfl⟩ := Option.map_eq_some_iff.mp hs
    exact ⟨h.done id', (List.append_nil _).symm⟩
  | create a =>
    cases hs
    refine ⟨h.alerts (Nat.le_succ _) fun b hb => ?_, (List.append_nil _).symm⟩
    rw [createStockAlert, KeyTable.get_insert] at hb
    split at hb
    · next hid =>
      obtain rfl := Option.some.inj hb
      refine (h.fresh ?_).symm
      rw [hid, KeyTable.nextId]
      omega
    · exact h.row b hb
  | update id' a =>
    cases hs
    refine ⟨h.alerts (Nat.le_refl _) fun b hb => ?_, (List.append_nil _).symm⟩
    rw [updateStockAlert, KeyTable.get_update] at hb
    split at hb
    · obtain ⟨b', hb', rfl⟩ := Option.map_eq_some_iff.mp hb
      exact h.row b' hb'
    · exact h.row b hb
  | delete id' =>
    cases hs
    exact ⟨h.alerts (Nat.le_refl _) fun b hb => h.row b (s.alerts.get_of_get_erase hb).1, (List.append_nil _).symm⟩

end

/-! ## Every run -/

theorem due_append (last : List Char) (o : Option (Status × Bool)) (rest : List (Status × Bool)) :
    due last (o.toList ++ rest) = due last o.toList ++ due (lastStored last o) rest := by
  cases o with
  | none => rfl
  | some o =>
    obtain ⟨status, written⟩ := o
    cases written <;> simp [due, lastStored]

theorem holds_stored {s : Monitor} (hpending : s.pending = []) (id : Int) : Holds id (stored id s) s where
  row a ha := by rw [stored, ha]; rfl
  snapshot a ha := by rw [hpending] at ha; cases ha
  nodup := by rw [hpending]; exact List.nodup_nil
  known r hr := by rw [hpending] at hr; cases hr
  fresh hlt := by rw [stored, s.alerts.get_eq_none_of_seq_lt hlt]; rfl

theorem log_of_holds {id : Int} : ∀ {es : List Event} {last : List Char} {s t : Monitor}, Holds id last s →
    exec step s es = some t → changes id t = changes id s ++ due last (observations id s es) := by
  intro es
  induction es with
  | nil =>
    intro last s t _ hrun
    cases hrun
    exact (List.append_nil _).symm
  | cons e es ih =>
    intro last s t h hrun
    obtain ⟨s', hs, hrun⟩ := Option.bind_eq_some_iff.mp hrun
    obtain ⟨h', hchanges⟩ := holds_step h hs
    rw [ih h' hrun, hchanges, List.append_assoc, observations, hs, due_append]
    rfl

/-- In every run from the end of a cycle, the changes that are logged for an alert are those among
what its checks found, against the status that was stored last. -/
theorem log_eq_due (id : Int) {s t : Monitor} {es : List Event} (hpending : s.pending = [])
    (hrun : exec step s es = some t) :
    changes id t = changes id s ++ due (stored id s) (observations id s es) :=
  log_of_holds (holds_stored hpending id) hrun

theorem due_eq_destutter : ∀ {last : List Char} {observed : List (Status × Bool)}, (∀ o ∈ observed, o.2 = true) →
    last :: (due last observed).map Status.text = (observed.map fun o => o.1.text).destutter' (· ≠ ·) last := by
  intro last observed
  induction observed generalizing last with
  | nil => exact fun _ => rfl
  | cons o observed ih =>
    obtain ⟨status, written⟩ := o
    intro h
    obtain ⟨hwritten, hrest⟩ := List.forall_mem_cons.mp h
    dsimp only at hwritten
    subst hwritten
    rw [due, if_pos rfl, List.map_cons]
    by_cases hchanged : status.text ≠ last
    · rw [if_pos hchanged, List.destutter'_cons_pos _ (Ne.symm hchanged), ← ih hrest]
      rfl
    · rw [if_neg hchanged, List.destutter'_cons_neg _ (not_not.mpr (not_not.mp hchanged).symm), ← ih hrest,
        not_not.mp hchanged]
      rfl

theorem filterMap_singleton (c : Change) : [c].filterMap Change.message = c.message.toList := by
  cases h : c.message <;> simp [h]

theorem outbox_finish {s : Monitor} (h : s.outbox = s.log.filterMap Change.message) (id : Int) (a : Alert)
    (status : Status) (written : Bool) :
    (s.finish id a status written).outbox = (s.finish id a status written).log.filterMap Change.message := by
  have hsent : ∀ c : Change, s.outbox ++ c.message.toList = (s.log ++ [c]).filterMap Change.message := by
    intro c
    rw [List.filterMap_append, filterMap_singleton, h]
  unfold Monitor.finish
  split
  · exact hsent ⟨id, a, s.token, status⟩
  · exact h

/-- A change is sent where there is a chat and a token. -/
theorem outbox_eq {s t : Monitor} {es : List Event} (h : s.outbox = s.log.filterMap Change.message)
    (hrun : exec step s es = some t) : t.outbox = t.log.filterMap Change.message := by
  refine Run.invariant (I := fun s => s.outbox = s.log.filterMap Change.message) ?_ (run_of_exec hrun) h
  intro s e s' _ h hs
  cases e with
  | tick token listed =>
    simp only [step] at hs
    split at hs
    · cases hs
      exact h
    · cases hs
  | finish id answers written =>
    obtain ⟨alert, -, rfl⟩ := Option.map_eq_some_iff.mp hs
    split
    · exact h
    · next status _ => exact outbox_finish (s := s.done id) h id alert status written
  | skip id =>
    obtain ⟨alert, -, rfl⟩ := Option.map_eq_some_iff.mp hs
    exact h
  | create a => cases hs; exact h
  | update id a => cases hs; exact h
  | delete id => cases hs; exact h

/-- **Each change once.** In every run from the end of a cycle, an alert is told the changes among what its checks
found, against the status that was stored last; if every status is stored, these are the statuses with repetitions left
out. A message is sent for each of them where there is a chat and a token. -/
theorem changes_told (id : Int) {s t : Monitor} {es : List Event} (hpending : s.pending = [])
    (houtbox : s.outbox = s.log.filterMap Change.message) (hrun : exec step s es = some t) :
    changes id t = changes id s ++ due (stored id s) (observations id s es) ∧
      ((∀ o ∈ observations id s es, o.2 = true) →
        stored id s :: (due (stored id s) (observations id s es)).map Status.text =
          ((observations id s es).map fun o => o.1.text).destutter' (· ≠ ·) (stored id s)) ∧
      t.outbox = t.log.filterMap Change.message :=
  ⟨log_eq_due id hpending hrun, due_eq_destutter, outbox_eq houtbox hrun⟩

def exampleAlert : Alert where
  tenantID := 1
  region := "r".toList
  shape := "s".toList
  chatID := 7

def exampleMonitor : Monitor := { alerts := KeyTable.empty.insert exampleAlert }

def exampleAnswers (shapes : List (List Char)) : Answers where
  images := some ["image".toList]
  shapes _ := some shapes

/-- The shape is there, an edit comes between, it is there again, and then it is gone. -/
def exampleEvents : List Event :=
  [.tick (some "t".toList) true, .finish 1 (exampleAnswers ["s".toList]) true, .tick none true, .update 1 exampleAlert,
    .finish 1 (exampleAnswers ["s".toList]) true, .tick none true, .finish 1 (exampleAnswers []) true]

theorem example_told : ∃ t, exec step exampleMonitor exampleEvents = some t ∧
    changes 1 t = [.available, .outOfStock] ∧ t.outbox = t.log.filterMap Change.message := by
  have hresult : (exec step exampleMonitor exampleEvents).isSome := by decide
  obtain ⟨t, ht⟩ := Option.isSome_iff_exists.mp hresult
  obtain ⟨hchanges, -, houtbox⟩ := changes_told 1 (s := exampleMonitor) rfl rfl ht
  refine ⟨t, ht, hchanges.trans ?_, houtbox⟩
  decide

end OciHelper.Stock
