import OciHelper.Defense.Mode
import OciHelper.Lib.UndoLog

/-!
# When defense mode is reversible

* `Reversible` : a disable that is about to succeed has put every list's rules back, and no list has got
  a rule that allows everything;
* `Kept` : the condition on the events: no list is overwritten for good before its originals are saved,
  and no disable falls back to the rule that allows everything;
* `Sound` : the invariant, over one cell with an undo log for each list;
* `reversible_of_kept` : runs of such events are reversible.
-/

namespace OciHelper.Defense
open Oci

/-! ## The rules of an update -/

theorem sent_subset (sdk : Sdk) {old : List Rule} {rules : Slice Rule} (h : rules.getD [] ⊆ old) :
    sdk.sent old rules ⊆ old := by
  cases rules with
  | some rules => exact h
  | none =>
    unfold Sdk.sent
    by_cases hk : sdk.keepNil = true
    · simp [hk]
    · simp [hk]

theorem getD_appended {α : Type} (kept : List α) : (appended kept).getD [] = kept := by
  unfold appended
  by_cases h : kept = []
  · rw [if_pos h, h]
    rfl
  · rw [if_neg h]
    rfl

theorem filteredRules_subset (blacklist : List (List Char)) (ingress : Slice Rule) :
    (filteredRules blacklist ingress).getD [] ⊆ ingress.getD [] := by
  rw [filteredRules, getD_appended]
  exact fun r hr => (List.mem_filter.mp hr).1

/-! ## Saved originals -/

/-- The entry for the rules of a list. -/
def entry (sdk : Sdk) (rules : List Rule) : Value := .json (sdk.returned rules)

/-- The rules that an entry stands for. -/
def Value.rules : Value → Option (List Rule)
  | .json rules => rules
  | .text _ => none

def Value.saved (v : Value) : Option Value := if v = .text [] then none else some v

@[simp] theorem Value.saved_eq_none_iff (v : Value) : v.saved = none ↔ v = .text [] := by
  unfold Value.saved
  by_cases h : v = .text [] <;> simp [h]

@[simp] theorem Value.saved_json (rules : Slice Rule) : (Value.json rules).saved = some (.json rules) := rfl

theorem rules_entry (sdk : Sdk) (a b : List Rule) (h : (entry sdk a).rules = some b) : b = a := by
  simp only [entry, Value.rules, Sdk.returned] at h
  by_cases hnil : a = [] ∧ sdk.emptyNil = true
  · rw [if_pos hnil] at h
    cases h
  · rw [if_neg hnil] at h
    exact (Option.some.inj h).symm

theorem loadOriginals_eq_some {read : Bool} {v : Value} {rules : List Rule}
    (h : loadOriginals read v = some rules) : v.saved = some v ∧ v.rules = some rules := by
  unfold loadOriginals at h
  by_cases hv : read = true ∧ v ≠ .text []
  · rw [if_pos hv] at h
    refine ⟨if_neg hv.2, ?_⟩
    cases v with
    | text s => cases h
    | json rules' => exact h
  · rw [if_neg hv] at h
    cases h

namespace Firewall

/-! ## The property and the condition -/

/-- Every list but those with the given ids has the rules it had. -/
def RestoredBut (f : Firewall) (ids : List Int) : Prop :=
  ∀ id row b, f.rows.get id = some row → row.before = some b → id ∉ ids → row.ingress = b

/-- `writing true []` is a disable that has only to return. -/
structure Reversible (f : Firewall) : Prop where
  restored : f.call = some (.writing true []) →
    ∀ id row b, f.rows.get id = some row → row.before = some b → row.ingress = b
  closed : ∀ id row b, f.rows.get id = some row → row.before = some b →
    ∀ r ∈ row.ingress, Rule.AllowsAll r → r ∈ b

/-- The blacklist leaves the list as it is. -/
def Unblocked (sdk : Sdk) (blacklist : List (List Char)) (sl : Listed) : Prop :=
  sdk.sent (sl.ingress.getD []) (filteredRules blacklist sl.ingress) = sl.ingress.getD []

/-- No update takes effect on a list without saved originals, unless it changes nothing or they are saved
next; no saved originals are overwritten; no disable, after the first enable, falls back to the rule that
allows everything or misses a list that differs from its saved originals. -/
def Kept (sdk : Sdk) (f : Firewall) : Event → Prop
  | .block a => ∀ blacklist sl todo, f.call = some (.enabling blacklist (sl :: todo)) → a = .lost →
      f.config (.originalRules sl.id) = .text [] → Unblocked sdk blacklist sl
  | .save read ok => ∀ blacklist sl todo, f.call = some (.saving blacklist sl todo) →
      if f.config (.originalRules sl.id) = .text [] then ok = true ∨ Unblocked sdk blacklist sl
      else read = true ∨ ok = false
  | .cut => ∀ blacklist sl todo, f.call = some (.saving blacklist sl todo) →
      f.config (.originalRules sl.id) = .text [] → Unblocked sdk blacklist sl
  | .restore read a => f.begun = true → a ≠ .refused →
      ∀ items sl todo, f.call = some (.disabling items (sl :: todo)) →
        loadOriginals read (f.config (.originalRules sl.id)) ≠ none ∨
          f.config (.originalRules sl.id) = .text [] ∧ hasAllowAll (sl.ingress.getD []) = true
  | .disable page => f.begun = true → ∀ id row rules, f.rows.get id = some row → id ∉ page →
      f.config (.originalRules id) = .json (some rules) → row.ingress = rules
  | _ => True

/-! ## The invariant -/

/-- The cell of a list. -/
def cell (f : Firewall) (id : Int) (ingress b : List Rule) : UndoLog.Cell (List Rule) Value :=
  ⟨ingress, (f.config (.originalRules id)).saved, b⟩

/-- The copies are those of lists as they are, each of another. -/
structure Current (sdk : Sdk) (f : Firewall) (todo : List Listed) : Prop where
  nodup : (todo.map Listed.id).Nodup
  listed : ∀ sl ∈ todo, ∃ row, f.rows.get sl.id = some row ∧ sl = row.listed sdk sl.id

/-- The list that has been updated and whose originals are not saved yet. -/
def opened (f : Firewall) : List Int :=
  match f.call with
  | some (.saving _ sl _) => [sl.id]
  | _ => []

/-- What a call that is under way has done. -/
def CallSound (sdk : Sdk) (f : Firewall) : Call → Prop
  | .enabling _ todo => f.begun = true ∧ f.Current sdk todo
  | .saving blacklist sl todo => f.begun = true ∧ sl.id ∉ todo.map Listed.id ∧ f.Current sdk todo ∧
      ∃ row old, f.rows.get sl.id = some row ∧ sl.ingress = sdk.returned old ∧
        row.ingress = sdk.sent old (filteredRules blacklist sl.ingress) ∧
        ∀ b, row.before = some b → UndoLog.Sound (entry sdk) (f.cell sl.id old b)
  | .disabling _ todo => f.Current sdk todo ∧ f.RestoredBut (todo.map Listed.id)
  | .writing disable writes => (disable = true → f.RestoredBut []) ∧
      ∀ w ∈ writes, ∀ id, w.1 = .originalRules id → w.2 = .text [] ∧ disable = true

/-- What the config table says of the lists, those with the given ids left out. -/
structure Held (sdk : Sdk) (f : Firewall) (ids : List Int) : Prop where
  fresh : f.begun = false → (∀ id row, f.rows.get id = some row → row.before = none) ∧
    ∀ id, f.config (.originalRules id) = .text []
  known : ∀ id, f.config (.originalRules id) ≠ .text [] → ∃ row, f.rows.get id = some row
  subset : ∀ id row b, f.rows.get id = some row → row.before = some b → row.ingress ⊆ b
  cells : ∀ id row b, f.rows.get id = some row → row.before = some b → id ∉ ids →
    UndoLog.Sound (entry sdk) (f.cell id row.ingress b)

structure Sound (sdk : Sdk) (f : Firewall) : Prop where
  held : f.Held sdk f.opened
  call : ∀ c, f.call = some c → f.CallSound sdk c

/-! ## Parts of a step -/

variable {sdk : Sdk} {f : Firewall}

@[simp] theorem rows_setCall (call : Option Call) : (f.setCall call).rows = f.rows := rfl

@[simp] theorem config_setCall (call : Option Call) : (f.setCall call).config = f.config := rfl

@[simp] theorem begun_setCall (call : Option Call) : (f.setCall call).begun = f.begun := rfl

@[simp] theorem rows_setConfig (ok : Bool) (k : Key) (v : Value) : (f.setConfig ok k v).rows = f.rows := by
  cases ok <;> rfl

@[simp] theorem begun_setConfig (ok : Bool) (k : Key) (v : Value) :
    (f.setConfig ok k v).begun = f.begun := by
  cases ok <;> rfl

theorem config_setConfig_of_ne (ok : Bool) {k k' : Key} (v : Value) (h : k' ≠ k) :
    (f.setConfig ok k v).config k' = f.config k' := by
  cases ok with
  | false => rfl
  | true => exact Function.update_of_ne h _ _

@[simp] theorem config_setConfig_self (k : Key) (v : Value) : (f.setConfig true k v).config k = v :=
  Function.update_self ..

@[simp] theorem config_updateSecurityList (a : Answer) (id : Int) (ingress egress : Slice Rule) :
    (f.updateSecurityList sdk a id ingress egress).config = f.config := by
  unfold updateSecurityList
  by_cases h : a = .refused
  · rw [if_pos h]
  · rw [if_neg h]

@[simp] theorem begun_updateSecurityList (a : Answer) (id : Int) (ingress egress : Slice Rule) :
    (f.updateSecurityList sdk a id ingress egress).begun = f.begun := by
  unfold updateSecurityList
  by_cases h : a = .refused
  · rw [if_pos h]
  · rw [if_neg h]

theorem get_updateSecurityList_of_ne (a : Answer) {id k : Int} (ingress egress : Slice Rule) (h : k ≠ id) :
    (f.updateSecurityList sdk a id ingress egress).rows.get k = f.rows.get k := by
  unfold updateSecurityList
  by_cases ha : a = .refused
  · rw [if_pos ha]
  · rw [if_neg ha]
    exact KeyTable.get_update_of_ne _ _ h

/-- An update leaves what a list had before as it is. -/
theorem get_updateSecurityList {a : Answer} {id : Int} {ingress egress : Slice Rule} {k : Int} {row : Row}
    (h : (f.updateSecurityList sdk a id ingress egress).rows.get k = some row) :
    ∃ old, f.rows.get k = some old ∧ row.before = old.before ∧
      (row = old ∨ a ≠ .refused ∧ k = id ∧ row = old.update sdk ingress egress) := by
  by_cases ha : a = .refused
  · rw [updateSecurityList, if_pos ha] at h
    exact ⟨row, h, rfl, Or.inl rfl⟩
  · by_cases hk : k = id
    · subst hk
      rw [updateSecurityList, if_neg ha, KeyTable.get_update_self] at h
      obtain ⟨old, hold, rfl⟩ := Option.map_eq_some_iff.mp h
      exact ⟨old, hold, rfl, Or.inr ⟨ha, rfl, rfl⟩⟩
    · rw [get_updateSecurityList_of_ne a ingress egress hk] at h
      exact ⟨row, h, rfl, Or.inl rfl⟩

theorem get_updateSecurityList_self {a : Answer} (ha : a ≠ .refused) {id : Int} {row : Row}
    (ingress egress : Slice Rule) (h : f.rows.get id = some row) :
    (f.updateSecurityList sdk a id ingress egress).rows.get id = some (row.update sdk ingress egress) := by
  rw [updateSecurityList, if_neg ha, KeyTable.get_update_self, h]
  rfl

theorem exists_get_updateSecurityList (a : Answer) (id : Int) (ingress egress : Slice Rule) {k : Int}
    (h : ∃ row, f.rows.get k = some row) :
    ∃ row, (f.updateSecurityList sdk a id ingress egress).rows.get k = some row := by
  obtain ⟨row, h⟩ := h
  by_cases hk : k = id
  · subst hk
    by_cases ha : a = .refused
    · rw [updateSecurityList, if_pos ha]
      exact ⟨row, h⟩
    · exact ⟨_, get_updateSecurityList_self ha ingress egress h⟩
  · rw [get_updateSecurityList_of_ne a ingress egress hk]
    exact ⟨row, h⟩

/-! ## Copies -/

theorem Current.tail {sl : Listed} {todo : List Listed} (h : f.Current sdk (sl :: todo)) :
    sl.id ∉ todo.map Listed.id ∧ f.Current sdk todo := by
  obtain ⟨hne, hnodup⟩ := List.nodup_cons.mp h.nodup
  exact ⟨hne, hnodup, fun c hc => h.listed c (List.mem_cons_of_mem _ hc)⟩

theorem Current.mono {g : Firewall} {todo : List Listed} (h : f.Current sdk todo)
    (hg : ∀ id ∈ todo.map Listed.id, ∀ row, f.rows.get id = some row → g.rows.get id = some row) :
    g.Current sdk todo := by
  refine ⟨h.nodup, fun c hc => ?_⟩
  obtain ⟨row, hrow, hlisted⟩ := h.listed c hc
  exact ⟨row, hg _ (List.mem_map_of_mem hc) row hrow, hlisted⟩

theorem Current.setCall {todo : List Listed} (h : f.Current sdk todo) (call : Option Call) :
    (f.setCall call).Current sdk todo := ⟨h.nodup, h.listed⟩

theorem Current.setConfig {todo : List Listed} (h : f.Current sdk todo) (ok : Bool) (k : Key) (v : Value) :
    (f.setConfig ok k v).Current sdk todo :=
  h.mono fun _ _ _ hrow => by rwa [rows_setConfig]

theorem Current.updateSecurityList {todo : List Listed} (h : f.Current sdk todo) (a : Answer) {id : Int}
    (ingress egress : Slice Rule) (hid : id ∉ todo.map Listed.id) :
    (f.updateSecurityList sdk a id ingress egress).Current sdk todo := by
  refine h.mono fun k hk row hrow => ?_
  have hne : k ≠ id := fun he => hid (he ▸ hk)
  rw [get_updateSecurityList_of_ne a ingress egress hne]
  exact hrow

theorem current_of_listSecurityLists {page : List Int} {items : List Listed}
    (h : f.listSecurityLists sdk page = some items) : items.map Listed.id = page ∧ f.Current sdk items := by
  obtain ⟨⟨-, hnodup, -⟩, hmap⟩ := Option.ite_none_right_eq_some.mp h
  have hall : items.map Listed.id = page ∧
      ∀ sl ∈ items, ∃ row, f.rows.get sl.id = some row ∧ sl = row.listed sdk sl.id := by
    clear hnodup h
    induction page generalizing items with
    | nil =>
      cases hmap
      exact ⟨rfl, fun _ hsl => absurd hsl List.not_mem_nil⟩
    | cons id page ih =>
      rw [List.mapM_cons] at hmap
      obtain ⟨sl, hsl, hmap⟩ := Option.bind_eq_some_iff.mp hmap
      obtain ⟨rest, hrest, hmap⟩ := Option.bind_eq_some_iff.mp hmap
      obtain ⟨row, hrow, rfl⟩ := Option.map_eq_some_iff.mp hsl
      obtain ⟨hids, hlisted⟩ := ih hrest
      cases hmap
      refine ⟨congrArg (id :: ·) hids, fun c hc => ?_⟩
      rcases List.mem_cons.mp hc with rfl | hc
      · exact ⟨row, hrow, rfl⟩
      · exact hlisted c hc
  exact ⟨hall.1, hall.1 ▸ hnodup, hall.2⟩

/-! ## The config table and the lists -/

theorem Held.mono {ids ids' : List Int} (h : f.Held sdk ids) (hsub : ids ⊆ ids') : f.Held sdk ids' :=
  ⟨h.fresh, h.known, h.subset, fun id row b hrow hb hid => h.cells id row b hrow hb fun hm => hid (hsub hm)⟩

theorem Held.setCall {ids : List Int} (h : f.Held sdk ids) (call : Option Call) :
    (f.setCall call).Held sdk ids :=
  ⟨h.fresh, h.known, h.subset, h.cells⟩

theorem Held.close {id : Int} (h : f.Held sdk [id])
    (hcell : ∀ row b, f.rows.get id = some row → row.before = some b →
      UndoLog.Sound (entry sdk) (f.cell id row.ingress b)) : f.Held sdk [] := by
  refine ⟨h.fresh, h.known, h.subset, fun k row b hrow hb _ => ?_⟩
  by_cases hk : k = id
  · subst hk
    exact hcell row b hrow hb
  · exact h.cells k row b hrow hb fun hm => hk (List.mem_singleton.mp hm)

theorem Held.updateSecurityList (h : f.Held sdk []) (a : Answer) {id : Int} {ingress : Slice Rule}
    (egress : Slice Rule) (hsub : a ≠ .refused → ∀ row b, f.rows.get id = some row → row.before = some b →
      sdk.sent row.ingress ingress ⊆ b) :
    (f.updateSecurityList sdk a id ingress egress).Held sdk [id] := by
  constructor
  · intro hbegun
    rw [begun_updateSecurityList] at hbegun
    obtain ⟨hnone, hunset⟩ := h.fresh hbegun
    refine ⟨fun k row hrow => ?_, fun k => ?_⟩
    · obtain ⟨old, hold, hb, -⟩ := get_updateSecurityList hrow
      exact hb.trans (hnone k old hold)
    · rw [config_updateSecurityList]
      exact hunset k
  · intro k hk
    rw [config_updateSecurityList] at hk
    exact exists_get_updateSecurityList a id ingress egress (h.known k hk)
  · intro k row b hrow hb
    obtain ⟨old, hold, hbefore, rfl | ⟨ha, rfl, rfl⟩⟩ := get_updateSecurityList hrow
    · exact h.subset k row b hold hb
    · exact hsub ha old b hold hb
  · intro k row b hrow hb hk
    rw [get_updateSecurityList_of_ne a ingress egress fun he => hk (List.mem_singleton.mpr he)] at hrow
    rw [cell, config_updateSecurityList]
    exact h.cells k row b hrow hb List.not_mem_nil

theorem Held.setConfig {ids : List Int} (h : f.Held sdk ids) (ok : Bool) {k : Key} (v : Value)
    (hk : ∀ id, k ≠ .originalRules id) : (f.setConfig ok k v).Held sdk ids := by
  have hconfig : ∀ id, (f.setConfig ok k v).config (.originalRules id) = f.config (.originalRules id) :=
    fun id => config_setConfig_of_ne ok v (hk id).symm
  constructor
  · intro hbegun
    rw [begun_setConfig] at hbegun
    rw [rows_setConfig]
    simpa only [hconfig] using h.fresh hbegun
  · intro id hid
    rw [hconfig] at hid
    rw [rows_setConfig]
    exact h.known id hid
  · rw [rows_setConfig]
    exact h.subset
  · intro id row b hrow hb hid
    rw [rows_setConfig] at hrow
    rw [cell, hconfig]
    exact h.cells id row b hrow hb hid

theorem Held.setOriginals {ids : List Int} (h : f.Held sdk ids) {id : Int} (v : Value) (hid : ids ⊆ [id])
    (hbegun : f.begun = true ∨ v = .text []) (hrow : v ≠ .text [] → ∃ row, f.rows.get id = some row) :
    (f.setConfig true (.originalRules id) v).Held sdk [id] := by
  have hconfig : ∀ k, k ≠ id → (f.setConfig true (.originalRules id) v).config (.originalRules k) =
      f.config (.originalRules k) := by
    intro k hk
    exact config_setConfig_of_ne true v fun he => hk (Key.originalRules.inj he)
  constructor
  · intro hfalse
    rw [begun_setConfig] at hfalse
    refine ⟨(h.fresh hfalse).1, fun k => ?_⟩
    by_cases hk : k = id
    · subst hk
      rw [config_setConfig_self]
      exact hbegun.resolve_left (by simp [hfalse])
    · rw [hconfig k hk]
      exact (h.fresh hfalse).2 k
  · intro k hset
    by_cases hk : k = id
    · subst hk
      rw [config_setConfig_self] at hset
      exact hrow hset
    · rw [hconfig k hk] at hset
      exact h.known k hset
  · exact h.subset
  · intro k row b hrow' hb hk
    have hne : k ≠ id := fun he => hk (List.mem_singleton.mpr he)
    rw [cell, hconfig k hne]
    exact h.cells k row b hrow' hb fun hm => hk (hid hm)

/-! ## Steps -/

theorem get_create {ingress egress : List Rule} {k : Int} {row : Row}
    (h : (f.create ingress egress).rows.get k = some row) :
    (k = f.rows.nextId ∧ row.before = (if f.begun then some ingress else none) ∧
      ∀ b, row.before = some b → row.ingress = b) ∨ f.rows.get k = some row := by
  simp only [Firewall.create, KeyTable.get_insert] at h
  by_cases hk : k = f.rows.nextId
  · rw [if_pos hk, Option.some.injEq] at h
    subst h
    exact Or.inl ⟨hk, rfl, fun b hb => Option.some.inj (Option.ite_none_right_eq_some.mp hb).2⟩
  · rw [if_neg hk] at h
    exact Or.inr h

theorem get_create_of_some (ingress egress : List Rule) {k : Int} {row : Row} (h : f.rows.get k = some row) :
    (f.create ingress egress).rows.get k = some row :=
  KeyTable.get_insert_of_some _ _ h

/-- A new list has what it was created with. -/
theorem RestoredBut.create {ids : List Int} (h : f.RestoredBut ids) (ingress egress : List Rule) :
    (f.create ingress egress).RestoredBut ids := by
  intro k row b hrow hb hk
  rcases get_create hrow with ⟨-, -, hnew⟩ | hrow
  · exact hnew b hb
  · exact h k row b hrow hb hk

theorem Held.create {ids : List Int} (h : f.Held sdk ids) (ingress egress : List Rule) :
    (f.create ingress egress).Held sdk ids := by
  constructor
  · intro hbegun
    have hbegun : f.begun = false := hbegun
    refine ⟨fun k row hrow => ?_, (h.fresh hbegun).2⟩
    rcases get_create hrow with ⟨-, hnone, -⟩ | hrow
    · rw [hnone, hbegun]
      rfl
    · exact (h.fresh hbegun).1 k row hrow
  · intro k hk
    obtain ⟨row, hrow⟩ := h.known k hk
    exact ⟨row, get_create_of_some ingress egress hrow⟩
  · intro k row b hrow hb
    rcases get_create hrow with ⟨-, -, hnew⟩ | hrow
    · exact hnew b hb ▸ List.Subset.refl _
    · exact h.subset k row b hrow hb
  · intro k row b hrow hb hk
    rcases get_create hrow with ⟨rfl, -, hnew⟩ | hrow
    · have hunset : (f.config (.originalRules f.rows.nextId)).saved = none := by
        rw [Value.saved_eq_none_iff]
        by_contra hset
        obtain ⟨row, hrow⟩ := h.known _ hset
        rw [KeyTable.get_nextId] at hrow
        cases hrow
      rw [cell, hnew b hb, show (f.create ingress egress).config = f.config from rfl, hunset]
      exact .start b
    · exact h.cells k row b hrow hb hk

theorem Sound.create (h : f.Sound sdk) (ingress egress : List Rule) :
    (f.create ingress egress).Sound sdk := by
  have hkeep : ∀ k row, f.rows.get k = some row → (f.create ingress egress).rows.get k = some row :=
    fun k row hrow => get_create_of_some ingress egress hrow
  refine ⟨h.held.create ingress egress, fun c hc => ?_⟩
  have hsound := h.call c hc
  cases c with
  | enabling blacklist todo => exact ⟨hsound.1, hsound.2.mono fun k _ => hkeep k⟩
  | saving blacklist sl todo =>
    obtain ⟨hbegun, hsl, htodo, row, old, hrow, hrest⟩ := hsound
    exact ⟨hbegun, hsl, htodo.mono fun k _ => hkeep k, row, old, hkeep _ row hrow, hrest⟩
  | disabling items todo => exact ⟨hsound.1.mono fun k _ => hkeep k, hsound.2.create ingress egress⟩
  | writing disable writes => exact ⟨fun hd => (hsound.1 hd).create ingress egress, hsound.2⟩

/-- A call that is not between an update and the save that follows it. -/
theorem Sound.held_nil (h : f.Sound sdk) (ho : f.opened = []) : f.Held sdk [] := ho ▸ h.held

theorem get_begin {k : Int} {row : Row} (h : f.begin.rows.get k = some row) :
    ∃ old, f.rows.get k = some old ∧ row.ingress = old.ingress ∧
      row.before = if f.begun then old.before else some old.ingress := by
  simp only [Firewall.begin, KeyTable.get_map] at h
  obtain ⟨old, hold, rfl⟩ := Option.map_eq_some_iff.mp h
  exact ⟨old, hold, rfl, rfl⟩

theorem Held.begin (h : f.Held sdk []) : f.begin.Held sdk [] := by
  constructor
  · intro hbegun
    cases hbegun
  · intro k hk
    obtain ⟨row, hrow⟩ := h.known k hk
    simp only [Firewall.begin, KeyTable.get_map, hrow]
    exact ⟨_, rfl⟩
  · intro k row b hrow hb
    obtain ⟨old, hold, hingress, hbefore⟩ := get_begin hrow
    rw [hb] at hbefore
    rw [hingress]
    cases hbegun : f.begun with
    | true =>
      rw [if_pos hbegun] at hbefore
      exact h.subset k old b hold hbefore.symm
    | false =>
      rw [if_neg (by simp [hbegun])] at hbefore
      exact Option.some.inj hbefore ▸ List.Subset.refl _
  · intro k row b hrow hb _
    obtain ⟨old, hold, hingress, hbefore⟩ := get_begin hrow
    rw [hb] at hbefore
    rw [hingress]
    cases hbegun : f.begun with
    | true =>
      rw [if_pos hbegun] at hbefore
      exact h.cells k old b hold hbefore.symm List.not_mem_nil
    | false =>
      rw [if_neg (by simp [hbegun])] at hbefore
      have hunset : (f.begin.config (.originalRules k)).saved = none :=
        (Value.saved_eq_none_iff _).mpr ((h.fresh hbegun).2 k)
      rw [cell, hunset, Option.some.inj hbefore]
      exact .start _

theorem Current.begin {todo : List Listed} (h : f.Current sdk todo) : f.begin.Current sdk todo := by
  refine ⟨h.nodup, fun sl hsl => ?_⟩
  obtain ⟨row, hrow, hlisted⟩ := h.listed sl hsl
  refine ⟨{ row with before := if f.begun then row.before else some row.ingress }, ?_, hlisted⟩
  simp only [Firewall.begin, KeyTable.get_map, hrow, Option.map_some]

theorem Sound.enable (h : f.Sound sdk) (hcall : f.call = none) {blacklist : List (List Char)}
    {page : List Int} {items : List Listed} (hlist : f.listSecurityLists sdk page = some items) :
    (f.begin.setCall (some (.enabling blacklist items))).Sound sdk := by
  have hheld : f.Held sdk [] := h.held_nil (by rw [opened, hcall])
  refine ⟨hheld.begin.setCall _, fun c hc => ?_⟩
  cases hc
  have hitems := (current_of_listSecurityLists hlist).2.begin
  exact ⟨rfl, hitems.setCall _⟩

theorem Sound.disable (h : f.Sound sdk) (hcall : f.call = none) {page : List Int} {items : List Listed}
    (hc : Kept sdk f (.disable page)) (hlist : f.listSecurityLists sdk page = some items) :
    (f.setCall (some (.disabling items items))).Sound sdk := by
  have hheld : f.Held sdk [] := h.held_nil (by rw [opened, hcall])
  obtain ⟨hids, hitems⟩ := current_of_listSecurityLists hlist
  refine ⟨hheld.setCall _, fun c hc' => ?_⟩
  cases hc'
  refine ⟨hitems.setCall _, fun k row b hrow hb hk => ?_⟩
  rw [hids] at hk
  have hrow : f.rows.get k = some row := hrow
  have hbegun : f.begun = true := by
    by_contra hfalse
    rw [(hheld.fresh (by simpa using hfalse)).1 k row hrow] at hb
    cases hb
  have hcell := hheld.cells k row b hrow hb List.not_mem_nil
  by_cases hset : f.config (.originalRules k) = .text []
  · exact hcell.clean ((Value.saved_eq_none_iff _).mpr hset)
  · have hentry : f.config (.originalRules k) = entry sdk b := hcell.entry _ (if_neg hset)
    by_cases hnil : b = [] ∧ sdk.emptyNil = true
    · have hsub := hheld.subset k row b hrow hb
      rw [hnil.1] at hsub ⊢
      exact List.subset_nil.mp hsub
    · rw [entry, Sdk.returned, if_neg hnil] at hentry
      exact hc hbegun k row b hrow hk hentry

theorem Sound.block (h : f.Sound sdk) {blacklist : List (List Char)} {sl : Listed} {todo : List Listed}
    (hcall : f.call = some (.enabling blacklist (sl :: todo))) {a : Answer} (hc : Kept sdk f (.block a)) :
    ((f.updateSecurityList sdk a sl.id (filteredRules blacklist sl.ingress) sl.egress).setCall
      (if a = .ok then some (.saving blacklist sl todo) else none)).Sound sdk := by
  have hheld : f.Held sdk [] := h.held_nil (by rw [opened, hcall])
  obtain ⟨hbegun, hcurrent⟩ := h.call _ hcall
  obtain ⟨hsl, htodo⟩ := hcurrent.tail
  obtain ⟨row, hrow, hlisted⟩ := hcurrent.listed sl (List.mem_cons_self ..)
  have hingress : sl.ingress = sdk.returned row.ingress := congrArg Listed.ingress hlisted
  have hupdated : (f.updateSecurityList sdk a sl.id (filteredRules blacklist sl.ingress) sl.egress).Held sdk
      [sl.id] := by
    refine hheld.updateSecurityList a sl.egress fun _ row' b hrow' hb => ?_
    obtain rfl := Option.some.inj (hrow.symm.trans hrow')
    refine List.Subset.trans (sent_subset sdk ?_) (hheld.subset sl.id row b hrow hb)
    rw [hingress]
    exact List.Subset.trans (filteredRules_subset _ _) (by rw [Sdk.getD_returned]; exact List.Subset.refl _)
  have hcell : ∀ b, row.before = some b → UndoLog.Sound (entry sdk) (f.cell sl.id row.ingress b) :=
    fun b hb => hheld.cells sl.id row b hrow hb List.not_mem_nil
  cases a with
  | ok =>
    refine ⟨hupdated.setCall _, fun c hc' => ?_⟩
    cases hc'
    refine ⟨hbegun, hsl, (htodo.updateSecurityList .ok _ _ hsl).setCall _, _, row.ingress,
      get_updateSecurityList_self (by decide) _ sl.egress hrow, hingress, rfl, hcell⟩
  | lost =>
    refine ⟨(hupdated.close fun row' b hrow' hb => ?_).setCall none, fun c hc' => by cases hc'⟩
    rw [get_updateSecurityList_self (by decide) _ sl.egress hrow] at hrow'
    obtain rfl := Option.some.inj hrow'
    refine (hcell b hb).write fun hlog => ?_
    have hsame : Unblocked sdk blacklist sl :=
      hc blacklist sl todo hcall rfl ((Value.saved_eq_none_iff _).mp hlog)
    rw [Unblocked, hingress, Sdk.getD_returned] at hsame
    rw [hingress]
    exact hsame
  | refused =>
    exact ⟨hheld.setCall none, fun c hc' => by cases hc'⟩

/-- The list under way is sound again when it has saved originals, or was not changed. -/
theorem Sound.held_of_saving (h : f.Sound sdk) {blacklist : List (List Char)} {sl : Listed}
    {todo : List Listed} (hcall : f.call = some (.saving blacklist sl todo))
    (hc : f.config (.originalRules sl.id) = .text [] → Unblocked sdk blacklist sl) : f.Held sdk [] := by
  have hheld : f.Held sdk [sl.id] := by
    have := h.held
    rwa [opened, hcall] at this
  obtain ⟨-, -, -, row, old, hrow, hold, hingress, hcell⟩ := h.call _ hcall
  refine hheld.close fun row' b hrow' hb => ?_
  obtain rfl := Option.some.inj (hrow.symm.trans hrow')
  refine (hcell b hb).write fun hlog => ?_
  have hsame := hc ((Value.saved_eq_none_iff _).mp hlog)
  rw [Unblocked, hold, Sdk.getD_returned] at hsame
  rw [hingress, hold]
  exact hsame

theorem Sound.save (h : f.Sound sdk) {blacklist : List (List Char)} {sl : Listed} {todo : List Listed}
    (hcall : f.call = some (.saving blacklist sl todo)) {read ok : Bool} (hc : Kept sdk f (.save read ok)) :
    ((f.saveOriginals read ok sl).setCall (some (.enabling blacklist todo))).Sound sdk := by
  have hheld : f.Held sdk [sl.id] := by
    have := h.held
    rwa [opened, hcall] at this
  obtain ⟨hbegun, hsl, htodo, row, old, hrow, hold, hingress, hcell⟩ := h.call _ hcall
  have hc := hc blacklist sl todo hcall
  have hsame : (f.config (.originalRules sl.id) = .text [] → Unblocked sdk blacklist sl) →
      (f.setCall (some (.enabling blacklist todo))).Sound sdk := by
    intro hun
    refine ⟨(h.held_of_saving hcall hun).setCall _, fun c hc' => ?_⟩
    cases hc'
    exact ⟨hbegun, htodo.setCall _⟩
  by_cases hset : f.config (.originalRules sl.id) = .text []
  · rw [if_pos hset] at hc
    rw [saveOriginals, if_neg (by simp [hset])]
    cases ok with
    | false => exact hsame fun _ => hc.resolve_left (by decide)
    | true =>
      have hsaved := hheld.setOriginals (v := .json sl.ingress) (List.Subset.refl _) (Or.inl hbegun)
        fun _ => ⟨row, hrow⟩
      refine ⟨(hsaved.close fun row' b hrow' hb => ?_).setCall _, fun c hc' => ?_⟩
      · obtain rfl := Option.some.inj (hrow.symm.trans hrow')
        have hover := (hcell b hb).overwrite row.ingress
        have hlog : (f.cell sl.id old b).log = none := (Value.saved_eq_none_iff _).mpr hset
        rw [UndoLog.Cell.save, UndoLog.Cell.write, hlog, Option.none_or] at hover
        rw [cell, config_setConfig_self, Value.saved_json, hold]
        exact hover
      · cases hc'
        exact ⟨hbegun, (htodo.setConfig _ _ _).setCall _⟩
  · rw [if_neg hset] at hc
    have hkept : f.saveOriginals read ok sl = f := by
      rcases hc with rfl | rfl
      · exact if_pos ⟨rfl, hset⟩
      · unfold saveOriginals setConfig
        simp
    rw [hkept]
    exact hsame fun hun => absurd hun hset

theorem Sound.restore (h : f.Sound sdk) {items : List Listed} {sl : Listed} {todo : List Listed}
    (hcall : f.call = some (.disabling items (sl :: todo))) {read : Bool} {a : Answer}
    (hc : Kept sdk f (.restore read a)) :
    ((f.updateSecurityList sdk a sl.id
        (restoredRules (loadOriginals read (f.config (.originalRules sl.id))) sl.ingress) sl.egress).setCall
      (if a = .ok then some (.disabling items todo) else none)).Sound sdk := by
  have hheld : f.Held sdk [] := h.held_nil (by rw [opened, hcall])
  obtain ⟨hcurrent, hrestored⟩ := h.call _ hcall
  obtain ⟨hsl, htodo⟩ := hcurrent.tail
  obtain ⟨row, hrow, hlisted⟩ := hcurrent.listed sl (List.mem_cons_self ..)
  have hingress : sl.ingress = sdk.returned row.ingress := congrArg Listed.ingress hlisted
  set originals := loadOriginals read (f.config (.originalRules sl.id)) with horiginals
  -- what is sent is what the list had
  have hsent : a ≠ .refused → ∀ b, row.before = some b →
      sdk.sent row.ingress (restoredRules originals sl.ingress) = b := by
    intro ha b hb
    have hbegun : f.begun = true := by
      by_contra hfalse
      rw [(hheld.fresh (by simpa using hfalse)).1 sl.id row hrow] at hb
      cases hb
    have hcell := hheld.cells sl.id row b hrow hb List.not_mem_nil
    cases ho : originals with
    | some rules =>
      obtain ⟨hsaved, hrules⟩ := loadOriginals_eq_some (horiginals.symm.trans ho)
      exact hcell.eq_orig (rules_entry sdk) hsaved hrules
    | none =>
      obtain ⟨hunset, hall⟩ := (hc hbegun ha items sl todo hcall).resolve_left fun hne => hne ho
      rw [restoredRules, if_pos hall, hingress, Sdk.sent_returned_self]
      exact hcell.clean ((Value.saved_eq_none_iff _).mpr hunset)
  have hupdated : (f.updateSecurityList sdk a sl.id (restoredRules originals sl.ingress) sl.egress).Held sdk
      [sl.id] := by
    refine hheld.updateSecurityList a sl.egress fun ha row' b hrow' hb => ?_
    obtain rfl := Option.some.inj (hrow.symm.trans hrow')
    rw [hsent ha b hb]
    exact List.Subset.refl _
  have hgot : ∀ k row' b,
      (f.updateSecurityList sdk a sl.id (restoredRules originals sl.ingress) sl.egress).rows.get k = some row' →
      row'.before = some b → k = sl.id → a ≠ .refused → row'.ingress = b := by
    rintro k row' b hrow' hb rfl ha
    rw [get_updateSecurityList_self ha _ sl.egress hrow] at hrow'
    obtain rfl := Option.some.inj hrow'
    exact hsent ha b hb
  have hclosed : (f.updateSecurityList sdk a sl.id (restoredRules originals sl.ingress) sl.egress).Held sdk
      [] := by
    by_cases ha : a = .refused
    · rw [Firewall.updateSecurityList, if_pos ha]
      exact hheld
    · refine hupdated.close fun row' b hrow' hb => ?_
      rw [hgot sl.id row' b hrow' hb rfl ha, cell, config_updateSecurityList]
      obtain ⟨old, hold, hbefore, -⟩ := get_updateSecurityList hrow'
      exact (hheld.cells sl.id old b hold (hbefore ▸ hb) List.not_mem_nil).restore
  by_cases ha : a = .ok
  · subst ha
    refine ⟨hclosed.setCall _, fun c hc' => ?_⟩
    cases hc'
    refine ⟨(htodo.updateSecurityList .ok _ _ hsl).setCall _, fun k row' b hrow' hb hk => ?_⟩
    by_cases hkid : k = sl.id
    · exact hgot k row' b hrow' hb hkid (by decide)
    · have hrow' := (get_updateSecurityList_of_ne .ok _ _ hkid).symm.trans hrow'
      refine hrestored k row' b hrow' hb ?_
      rw [List.map_cons, List.mem_cons]
      exact not_or.mpr ⟨hkid, hk⟩
  · rw [if_neg ha]
    exact ⟨hclosed.setCall none, fun c hc' => by cases hc'⟩

theorem Sound.write (h : f.Sound sdk) {disable : Bool} {k : Key} {v : Value} {writes : List (Key × Value)}
    (hcall : f.call = some (.writing disable ((k, v) :: writes))) (ok : Bool) :
    ((f.setConfig ok k v).setCall (some (.writing disable writes))).Sound sdk := by
  have hheld : f.Held sdk [] := h.held_nil (by rw [opened, hcall])
  obtain ⟨hrestored, hwrites⟩ := h.call _ hcall
  have hset : (f.setConfig ok k v).Held sdk [] := by
    by_cases hk : ∃ id, k = .originalRules id
    · obtain ⟨id, rfl⟩ := hk
      obtain ⟨hv, hd⟩ := hwrites _ (List.mem_cons_self ..) id rfl
      obtain rfl : v = .text [] := hv
      cases ok with
      | false => exact hheld
      | true =>
        have hcleared : (f.setConfig true (.originalRules id) (.text [])).Held sdk [id] :=
          hheld.setOriginals (.text []) (List.nil_subset _) (Or.inr rfl) fun hne => absurd rfl hne
        refine hcleared.close fun row b hrow hb => ?_
        have hclear : UndoLog.Sound (entry sdk) (f.cell id row.ingress b).clear :=
          .clear (hrestored hd id row b hrow hb List.not_mem_nil)
        rw [cell, config_setConfig_self]
        exact hclear
    · exact hheld.setConfig ok v fun id he => hk ⟨id, he⟩
  refine ⟨hset.setCall _, fun c hc => ?_⟩
  cases hc
  refine ⟨fun hd id row b hrow => ?_, fun w hw => hwrites w (List.mem_cons_of_mem _ hw)⟩
  rw [rows_setCall, rows_setConfig] at hrow
  exact hrestored hd id row b hrow

theorem Sound.finish_enabling (h : f.Sound sdk) {blacklist : List (List Char)}
    (hcall : f.call = some (.enabling blacklist [])) :
    (f.setCall (some (.writing false (enableWrites f.tenantID f.vcnID blacklist)))).Sound sdk := by
  have hheld : f.Held sdk [] := h.held_nil (by rw [opened, hcall])
  refine ⟨hheld.setCall _, fun c hc => ?_⟩
  cases hc
  refine ⟨fun hd => absurd hd (by decide), fun w hw id he => ?_⟩
  simp only [enableWrites, List.mem_cons, List.not_mem_nil, or_false] at hw
  rcases hw with rfl | rfl | rfl | rfl <;> cases he

theorem Sound.finish_disabling (h : f.Sound sdk) {items : List Listed}
    (hcall : f.call = some (.disabling items [])) :
    (f.setCall (some (.writing true (disableWrites items)))).Sound sdk := by
  have hheld : f.Held sdk [] := h.held_nil (by rw [opened, hcall])
  refine ⟨hheld.setCall _, fun c hc => ?_⟩
  cases hc
  refine ⟨fun _ => (h.call _ hcall).2, fun w hw id he => ⟨?_, rfl⟩⟩
  rcases List.mem_append.mp hw with hw | hw
  · simp only [List.mem_cons, List.not_mem_nil, or_false] at hw
    rcases hw with rfl | rfl | rfl | rfl <;> cases he
  · obtain ⟨sl, -, rfl⟩ := List.mem_map.mp hw
    rfl

/-- A call that returns or is cut off. -/
theorem Sound.stop (h : f.Sound sdk) (hc : Kept sdk f .cut) : (f.setCall none).Sound sdk := by
  have hheld : f.Held sdk [] := by
    cases hcall : f.call with
    | none => exact h.held_nil (by rw [opened, hcall])
    | some c =>
      cases c with
      | saving blacklist sl todo => exact h.held_of_saving hcall (hc blacklist sl todo hcall)
      | _ => exact h.held_nil (by rw [opened, hcall])
  exact ⟨hheld.setCall none, fun c hc => by cases hc⟩

theorem Sound.step (h : f.Sound sdk) {e : Event} (hc : Kept sdk f e) {g : Firewall}
    (hs : step sdk f e = some g) : g.Sound sdk := by
  unfold Firewall.step at hs
  split at hs
  · cases hs
    exact h.create _ _
  · obtain ⟨items, hlist, rfl⟩ := Option.map_eq_some_iff.mp hs
    exact h.enable ‹_› hlist
  · obtain ⟨items, hlist, rfl⟩ := Option.map_eq_some_iff.mp hs
    exact h.disable ‹_› hc hlist
  · cases hs
    exact h.block ‹_› hc
  · cases hs
    exact h.save ‹_› hc
  · cases hs
    exact h.restore ‹_› hc
  · cases hs
    exact h.write ‹_› _
  · cases hs
    exact h.finish_enabling ‹_›
  · cases hs
    exact h.finish_disabling ‹_›
  · rename_i hcall
    cases hs
    exact h.stop fun _ _ _ he => by cases hcall.symm.trans he
  · cases hs
    exact h.stop hc
  · cases hs

theorem sound_boot (sdk : Sdk) (tenantID : Int) (vcnID : List Char)
    (lists : KeyTable (List Rule × List Rule)) : (boot tenantID vcnID lists).Sound sdk := by
  have hnone : ∀ id row, (boot tenantID vcnID lists).rows.get id = some row → row.before = none := by
    intro id row hrow
    rw [boot, KeyTable.get_mapRows] at hrow
    obtain ⟨l, -, rfl⟩ := Option.map_eq_some_iff.mp hrow
    rfl
  refine ⟨⟨fun _ => ⟨hnone, fun _ => rfl⟩, fun id hid => absurd rfl hid, ?_, ?_⟩, fun c hc => by cases hc⟩
  · intro id row b hrow hb
    rw [hnone id row hrow] at hb
    cases hb
  · intro id row b hrow hb
    rw [hnone id row hrow] at hb
    cases hb

theorem Sound.reversible (h : f.Sound sdk) : f.Reversible := by
  refine ⟨fun hcall id row b hrow hb => ?_, fun id row b hrow hb r hr _ => h.held.subset id row b hrow hb hr⟩
  exact (h.call _ hcall).1 rfl id row b hrow hb List.not_mem_nil

/-- **Defense mode is reversible.** In every run of enables, disables and creations of lists whose events
meet the condition, a disable that succeeds leaves every list with the rules it had, and no list ever gets
a rule that allows everything. -/
theorem reversible_of_kept (sdk : Sdk) (tenantID : Int) (vcnID : List Char)
    (lists : KeyTable (List Rule × List Rule)) {es : List Event} {f : Firewall}
    (hr : StepRun.Run (step sdk) (Kept sdk) (boot tenantID vcnID lists) es f) : f.Reversible :=
  (hr.invariant (fun _ _ _ hc h hs => h.step hc hs) (sound_boot sdk tenantID vcnID lists)).reversible

/-! ## One list -/

def tcpFrom (cidr : String) : Rule := { protocol := some "6".toList, cidr := some cidr.toList }

/-- A VCN with one list, open for TCP from two networks. -/
def oneList : Firewall :=
  boot 1 "v".toList (KeyTable.empty.insert ([tcpFrom "10.0.0.0/8", tcpFrom "192.168.0.0/16"], []))

/-- An enable that is not cut off. -/
def enableRun : List Event :=
  [.enable ["10.0.0.0/8".toList] [1], .block .ok, .save true true, .finish, .write true, .write true,
    .write true, .write true, .finish]

/-- A disable up to its return. -/
def disableRun : List Event :=
  [.disable [1], .restore true .ok, .finish, .write true, .write true, .write true, .write true, .write true]

theorem reversible_of_kept_oneList : ∃ f, StepRun.exec (step ⟨true, true⟩) oneList (enableRun ++ disableRun) =
    some f ∧ f.Reversible := by
  have hr : StepRun.Run (step ⟨true, true⟩) (Kept ⟨true, true⟩) oneList (enableRun ++ disableRun) _ :=
    .cons trivial rfl (.cons (fun _ _ _ _ h => (by cases h)) rfl
      (.cons (fun _ _ _ _ => (by split <;> exact Or.inl rfl)) rfl
      (.cons trivial rfl (.cons trivial rfl (.cons trivial rfl (.cons trivial rfl (.cons trivial rfl
      (.cons trivial rfl (.cons (fun _ id row rules hrow hid he => ?_) rfl
      (.cons (fun _ _ items sl todo hcall => ?_) rfl
      (.cons trivial rfl (.cons trivial rfl (.cons trivial rfl (.cons trivial rfl (.cons trivial rfl
      (.cons trivial rfl (.nil _)))))))))))))))))
  · exact ⟨_, StepRun.exec_of_run hr, reversible_of_kept _ _ _ _ hr⟩
  · have hne : Key.originalRules id ≠ .originalRules 1 := by simpa using hid
    have hunset : Value.text [] = .json (some rules) :=
      (Function.update_of_ne hne _ _).symm.trans he
    cases hunset
  · cases hcall
    exact Or.inl (by decide)

/-- An enable that is cut off between the update and the save makes the next one save the wrong rules. -/
theorem cut_loses_originals : ∃ f, StepRun.Run (step ⟨true, true⟩) (StepRun.Always Firewall Event) oneList
    ([.enable ["10.0.0.0/8".toList] [1], .block .ok, .cut] ++ enableRun ++ disableRun) f ∧ ¬ f.Reversible := by
  obtain ⟨f, hf⟩ : ∃ f, StepRun.exec (step ⟨true, true⟩) oneList
      ([.enable ["10.0.0.0/8".toList] [1], .block .ok, .cut] ++ enableRun ++ disableRun) = some f :=
    Option.isSome_iff_exists.mp rfl
  have hcall : f.call = some (.writing true []) :=
    Option.some.inj ((congrArg (Option.map call) hf).symm.trans rfl)
  have hrow : f.rows.get 1 = some ⟨[tcpFrom "192.168.0.0/16"], [],
      some [tcpFrom "10.0.0.0/8", tcpFrom "192.168.0.0/16"]⟩ :=
    Option.some.inj ((congrArg (Option.map fun g : Firewall => g.rows.get 1) hf).symm.trans rfl)
  refine ⟨f, StepRun.run_of_exec hf, fun h => ?_⟩
  have := h.restored hcall 1 _ _ hrow rfl
  exact absurd this (by decide)

end Firewall

end OciHelper.Defense
