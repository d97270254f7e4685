import OciHelper.Dns.Bindings
import OciHelper.Dns.Writes

/-!
# The record of a binding while its address changes

* `Origin` : a zone's own name; `qualify` : a name as the zone stores it; `Under` : a name that is complete;
* `syncBinding` : `syncBindingToDNS` against a zone that stores names so and refuses duplicates;
* `Written`, `Converged` : one record, with the address and the settings of the binding, and no write that is left;
* `Reconciled` : the name is complete and the settings get to the record;
* `sync_converges_iff` : when a run of address changes ends with one record.
-/

namespace OciHelper.Dns
open Db StepRun

/-- `unicode.ToLower` -/
structure Lowering where
  lower : Char → Char
  idem : ∀ c, lower (lower c) = lower c
  dot : ∀ c, lower c = '.' ↔ c = '.'

/-- The name of a zone has no dot at its end. -/
structure Origin (L : Lowering) where
  name : Name
  isLower : name.map L.lower = name
  last : ∃ front c, name = front ++ [c] ∧ c ≠ '.'

variable {L : Lowering} (O : Origin L)

/-- The name of the zone or a name in it. -/
def Under (n : Name) : Prop := n = O.name ∨ '.' :: O.name <:+ n

instance (n : Name) : Decidable (Under O n) := inferInstanceAs (Decidable (_ ∨ _))

/-- A name that is not complete is completed. -/
def qualify (n : Name) : Name :=
  let n := normalize L.lower n
  if Under O n then n else if n = ['@'] then O.name else n ++ '.' :: O.name

/-- A name in lower case that is complete. -/
def Stored (n : Name) : Prop := n.map L.lower = n ∧ Under O n

def AsStored (z : Zone) : Prop := ∀ r ∈ z.records, Stored O r.name

def qualifyRecord (r : DNSRecord) : DNSRecord := { r with name := qualify O r.name }

def Zone.qualified (z : Zone) : Zone where
  records := z.records.map (qualifyRecord O)
  nodup := by
    rw [List.map_map]
    exact z.nodup

/-- A write that would make an exact duplicate is refused. The record that it would replace has another content. -/
def refuseDuplicates (z : Zone) (record : DNSRecord) (a : SyncAnswers) : SyncAnswers :=
  if ∃ r ∈ z.records, r.type = record.type ∧ r.name = qualify O record.name ∧ r.content = record.content then
    { a with update := fun _ => false, create := fun _ => none }
  else a

def syncBinding (b : InstanceDNSBinding) (a : SyncAnswers) (ip : List Char) (z : Zone) : Zone × Report :=
  let name := b.name.toList
  let a := refuseDuplicates O z (bindingRecord name b.proxied b.ttl ip) a
  let (z, report) := syncBindingToDNS L.lower a name b.proxied b.ttl ip z
  (z.qualified O, report)

/-- An instance has a new address; one without an address is skipped. -/
structure IpChange where
  answers : SyncAnswers
  ip : List Char
  ip_ne : ip ≠ []

/-- A sync that succeeds. -/
def syncStep (b : InstanceDNSBinding) : Step Zone IpChange := fun z e =>
  match syncBinding O b e.answers e.ip z with
  | (_, .error) => none
  | (z, _) => some z

/-! ## What it should do -/

def Zone.named (z : Zone) (n : Name) : List DNSRecord := z.records.filter fun r => r.name = n

def Zone.others (z : Zone) (n : Name) : List DNSRecord := z.records.filter fun r => r.name ≠ n

/-- The settings of the binding: a record that is proxied has the automatic TTL. -/
def HasSettings (b : InstanceDNSBinding) (r : DNSRecord) : Prop :=
  r.proxied = some b.proxied ∧ r.ttl = if b.proxied then 1 else if b.ttl = 0 then 120 else b.ttl

/-- One record has the address and the settings, and the others are as before. -/
structure Written (b : InstanceDNSBinding) (ip : List Char) (z z' : Zone) : Prop where
  one : ∃ r, z'.named (qualify O b.name.toList) = [r] ∧ r.type = .a ∧ r.content = ip ∧ HasSettings b r
  others : z'.others (qualify O b.name.toList) = z.others (qualify O b.name.toList)

structure Converged (b : InstanceDNSBinding) (ip : List Char) (z z' : Zone) : Prop extends Written O b ip z z' where
  repeats : ∀ a : SyncAnswers, a.client = true → a.list = true → syncBinding O b a ip z' = (z', .skip)

/-- The zone has no record of the name, or one for an address. -/
structure Own (b : InstanceDNSBinding) (z : Zone) : Prop where
  stored : AsStored O z
  single : (z.named (qualify O b.name.toList)).length ≤ 1
  type : ∀ r ∈ z.named (qualify O b.name.toList), r.type = .a

/-- The name is complete, and a record that is there has the settings already or another address. -/
def Reconciled (b : InstanceDNSBinding) (z : Zone) (es : List IpChange) : Prop :=
  Under O (normalize L.lower b.name.toList) ∧
    ∀ r ∈ z.named (qualify O b.name.toList), HasSettings b r ∨ ∃ e ∈ es, e.ip ≠ r.content

/-! ## Names -/

variable {O}

theorem trimRight_append_singleton (n : Name) {c : Char} (h : c ≠ '.') : trimRight (n ++ [c]) = n ++ [c] := by
  unfold trimRight
  rw [List.reverse_append, List.reverse_singleton, List.singleton_append,
    List.dropWhile_cons_of_neg (by simpa using h), List.reverse_cons, List.reverse_reverse]

theorem Under.trimRight_eq {n : Name} (h : Under O n) : trimRight n = n := by
  obtain ⟨front, c, hname, hc⟩ := O.last
  rcases h with rfl | ⟨m, rfl⟩
  · rw [hname]
    exact trimRight_append_singleton front hc
  · rw [hname, show m ++ '.' :: (front ++ [c]) = (m ++ '.' :: front) ++ [c] by simp]
    exact trimRight_append_singleton _ hc

theorem Stored.normalize_eq {n : Name} (h : Stored O n) : normalize L.lower n = n := by
  unfold normalize
  rw [h.2.trimRight_eq, h.1]

theorem map_lower_normalize (n : Name) : (normalize L.lower n).map L.lower = normalize L.lower n := by
  unfold normalize
  rw [List.map_map]
  exact List.map_congr_left fun c _ => L.idem c

theorem qualify_of_under {n : Name} (h : Under O (normalize L.lower n)) : qualify O n = normalize L.lower n := if_pos h

theorem Stored.qualify_eq {n : Name} (h : Stored O n) : qualify O n = n := by
  have hn := h.normalize_eq
  rw [qualify_of_under (by rw [hn]; exact h.2), hn]

theorem stored_qualify (n : Name) : Stored O (qualify O n) := by
  unfold qualify
  dsimp only
  split
  · next h => exact ⟨map_lower_normalize n, h⟩
  split
  · exact ⟨O.isLower, Or.inl rfl⟩
  · refine ⟨?_, Or.inr (List.suffix_append _ _)⟩
    rw [List.map_append, List.map_cons, map_lower_normalize, O.isLower, (L.dot '.').mpr rfl]

/-! ## The zone -/

theorem qualifyRecord_of_stored {r : DNSRecord} (h : Stored O r.name) : qualifyRecord O r = r := by
  unfold qualifyRecord
  rw [h.qualify_eq]

theorem map_qualifyRecord {rs : List DNSRecord} (h : ∀ r ∈ rs, Stored O r.name) : rs.map (qualifyRecord O) = rs :=
  (List.map_congr_left fun r hr => qualifyRecord_of_stored (h r hr)).trans (List.map_id rs)

theorem AsStored.qualified_eq {z : Zone} (h : AsStored O z) : z.qualified O = z := by
  have hrecords : (z.qualified O).records = z.records := map_qualifyRecord h
  cases z
  unfold Zone.qualified at hrecords ⊢
  congr

theorem asStored_qualified (z : Zone) : AsStored O (z.qualified O) := by
  intro r hr
  obtain ⟨r₀, -, rfl⟩ := List.mem_map.mp hr
  exact stored_qualify r₀.name

theorem update_ok {z z₁ : Zone} {accepts : Bool} {id : RecordID} {body : DNSRecord}
    (h : z.update accepts id body = (z₁, true)) :
    z₁.records = z.records.map fun r => if r.id = id then r.patched body else r := by
  unfold Zone.update at h
  split at h
  · rw [← (Prod.mk.inj h).1]
  · cases (Prod.mk.inj h).2

theorem create_ok {z z₁ : Zone} {newID : Option RecordID} {body : DNSRecord} (h : z.create newID body = (z₁, true)) :
    ∃ id, z₁.records = z.records ++ [{ body with id := id }] := by
  unfold Zone.create at h
  cases newID with
  | none => cases (Prod.mk.inj h).2
  | some id =>
    dsimp only at h
    split at h
    · rw [← (Prod.mk.inj h).1]
      exact ⟨id, rfl⟩
    · cases (Prod.mk.inj h).2

/-! ## One sync -/

theorem bindingWrite_failed {a : SyncAnswers} {existing : Option DNSRecord} {record : DNSRecord} {attempt : Fin 2}
    {z : Zone} (h : (bindingWrite a existing record attempt z).2 = false) :
    (bindingWrite a existing record attempt z).1 = z := by
  unfold bindingWrite at h ⊢
  cases existing with
  | none => exact create_failed z _ _ h
  | some r => exact update_failed z _ _ _ h

/-- A sync that succeeds finds the address in place, or writes it in one of its attempts. -/
theorem syncBindingToDNS_ok {lower : Char → Char} {a : SyncAnswers} {name : Name} {proxied : Bool} {ttl : Int}
    {ip : List Char} {z z₁ : Zone} {rep : Report} (h : syncBindingToDNS lower a name proxied ttl ip z = (z₁, rep))
    (hok : rep ≠ .error) :
    ∃ existing, findBindingTarget lower z.records name = (existing, none) ∧
      ((existing.map DNSRecord.content = some ip ∧ z₁ = z) ∨
        (existing.map DNSRecord.content ≠ some ip ∧
          ∃ attempt, bindingWrite a existing (bindingRecord name proxied ttl ip) attempt z = (z₁, true))) := by
  unfold syncBindingToDNS at h
  split at h
  · exact absurd (Prod.mk.inj h).2.symm hok
  cases hf : findBindingTarget lower z.records name with
  | mk existing conflict =>
    rw [hf] at h
    cases conflict with
    | some t => exact absurd (Prod.mk.inj h).2.symm hok
    | none =>
      refine ⟨existing, rfl, ?_⟩
      dsimp only at h
      split at h
      · next hsame => exact Or.inl ⟨hsame, (Prod.mk.inj h).1.symm⟩
      next hother =>
        refine Or.inr ⟨hother, ?_⟩
        have hfailed : (bindingWrite a existing (bindingRecord name proxied ttl ip) 0 z).2 = false →
            (bindingWrite a existing (bindingRecord name proxied ttl ip) 0 z).1 = z := bindingWrite_failed
        cases hw : bindingWrite a existing (bindingRecord name proxied ttl ip) 0 z with
        | mk z₂ ok =>
          rw [hw] at h hfailed
          cases ok with
          | true =>
            refine ⟨0, ?_⟩
            rw [hw, ← (Prod.mk.inj h).1]
          | false =>
            obtain rfl := hfailed rfl
            refine ⟨1, ?_⟩
            dsimp only [report] at h
            cases hw₁ : bindingWrite a existing (bindingRecord name proxied ttl ip) 1 z₂ with
            | mk z₃ ok₁ =>
              rw [hw₁] at h
              cases ok₁ with
              | true =>
                obtain rfl : z₃ = z₁ := (Prod.mk.inj h).1
                rfl
              | false => exact absurd (Prod.mk.inj h).2.symm hok

theorem findBindingTarget_of_named_nil {z : Zone} (hz : AsStored O z) {name : Name}
    (h : z.named (normalize L.lower name) = []) : findBindingTarget L.lower z.records name = (none, none) := by
  have hnone : (z.records.filter fun r => decide (normalize L.lower r.name = normalize L.lower name)) = [] := by
    rw [← h]
    exact List.filter_congr fun r hr => by rw [(hz r hr).normalize_eq]
  unfold findBindingTarget
  dsimp only
  rw [hnone]
  rfl

theorem findBindingTarget_of_named_single {z : Zone} (hz : AsStored O z) {name : Name} {r : DNSRecord}
    (h : z.named (normalize L.lower name) = [r]) (htype : r.type = .a) :
    findBindingTarget L.lower z.records name = (some r, none) := by
  have hone : (z.records.filter fun r => decide (normalize L.lower r.name = normalize L.lower name)) = [r] := by
    rw [← h]
    exact List.filter_congr fun r hr => by rw [(hz r hr).normalize_eq]
  unfold findBindingTarget
  dsimp only
  rw [hone]
  simp [htype]

/-- A name that is not complete is found nowhere. -/
theorem named_nil_of_not_under {z : Zone} (hz : AsStored O z) {n : Name} (h : ¬ Under O n) : z.named n = [] := by
  apply List.filter_eq_nil_iff.mpr
  intro r hr hname
  apply h
  rw [← of_decide_eq_true hname]
  exact (hz r hr).2

/-- A binding with a complete name whose record has the address needs no write. -/
theorem syncBinding_skip {b : InstanceDNSBinding} {z : Zone} (hz : AsStored O z)
    (hunder : Under O (normalize L.lower b.name.toList)) {r : DNSRecord}
    (hnamed : z.named (qualify O b.name.toList) = [r]) (htype : r.type = .a) {a : SyncAnswers}
    (hclient : a.client = true) (hlist : a.list = true) : syncBinding O b a r.content z = (z, .skip) := by
  rw [qualify_of_under hunder] at hnamed
  have hskip : ∀ a : SyncAnswers, a.client = true → a.list = true →
      syncBindingToDNS L.lower a b.name.toList b.proxied b.ttl r.content z = (z, .skip) := by
    intro a hclient hlist
    unfold syncBindingToDNS
    rw [if_neg (by simp [hclient, hlist]), findBindingTarget_of_named_single hz hnamed htype]
    exact if_pos rfl
  unfold syncBinding
  dsimp only
  rw [hskip _ (by unfold refuseDuplicates; split <;> exact hclient) (by unfold refuseDuplicates; split <;> exact hlist)]
  exact congrArg (·, Report.skip) hz.qualified_eq

/-- A binding whose name is not complete is always written. -/
theorem syncBinding_ne_skip {b : InstanceDNSBinding} {z : Zone} (hz : AsStored O z)
    (hunder : ¬ Under O (normalize L.lower b.name.toList)) (a : SyncAnswers) (ip : List Char) :
    (syncBinding O b a ip z).2 ≠ .skip := by
  unfold syncBinding
  generalize refuseDuplicates O z _ a = a
  unfold syncBindingToDNS
  dsimp only
  split
  · exact nofun
  rw [findBindingTarget_of_named_nil hz (named_nil_of_not_under hz hunder)]
  dsimp only
  rw [if_neg (by simp)]
  split
  · exact nofun
  · unfold report
    dsimp only
    split <;> exact nofun

theorem ne_nil_of_validDNSName {s : String} (h : validDNSName s = true) : s.toList ≠ [] := by
  intro hnil
  unfold validDNSName at h
  simp [hnil] at h

theorem filter_map_of_keeps {rs : List DNSRecord} {p : DNSRecord → Bool} {f : DNSRecord → DNSRecord}
    (hp : ∀ r ∈ rs, p (f r) = p r) : (rs.map f).filter p = (rs.filter p).map f := by
  rw [List.filter_map]
  exact congrArg (List.map f) (List.filter_congr hp)

theorem created_record {b : InstanceDNSBinding} {ip : List Char} {newID : Option RecordID} {z z₁ : Zone}
    (hz : AsStored O z) (hnamed : z.named (qualify O b.name.toList) = [])
    (h : z.create newID (bindingRecord b.name.toList b.proxied b.ttl ip) = (z₁, true)) :
    Written O b ip z (z₁.qualified O) := by
  obtain ⟨id, hrecords⟩ := create_ok h
  let new : DNSRecord := qualifyRecord O { bindingRecord b.name.toList b.proxied b.ttl ip with id := id }
  have hname : new.name = qualify O b.name.toList := rfl
  have hq : (z₁.qualified O).records = z.records ++ [new] := by
    show z₁.records.map (qualifyRecord O) = _
    rw [hrecords, List.map_append, map_qualifyRecord hz, List.map_singleton]
  refine ⟨⟨new, ?_, rfl, rfl, rfl, rfl⟩, ?_⟩
  · show (z₁.qualified O).records.filter _ = _
    rw [hq, List.filter_append]
    change z.named _ ++ _ = _
    rw [hnamed, List.nil_append]
    exact List.filter_cons_of_pos (decide_eq_true hname)
  · show (z₁.qualified O).records.filter _ = z.records.filter _
    rw [hq, List.filter_append, List.filter_cons_of_neg (by simp [hname]), List.filter_nil, List.append_nil]

/-- What a partial update makes of the record of a binding. -/
theorem patched_record {b : InstanceDNSBinding} {ip : List Char} (hname : b.name.toList ≠ []) (hip : ip ≠ [])
    (r : DNSRecord) :
    let r' := r.patched (bindingRecord b.name.toList b.proxied b.ttl ip)
    r'.name = b.name.toList ∧ r'.type = .a ∧ r'.content = ip ∧ HasSettings b r' := by
  refine ⟨if_neg hname, rfl, if_neg hip, rfl, if_neg ?_⟩
  show ¬ (if b.proxied = true then 1 else if b.ttl = 0 then 120 else b.ttl) = 0
  split
  · decide
  split
  · decide
  · assumption

theorem updated_record {b : InstanceDNSBinding} (hname : b.name.toList ≠ []) {ip : List Char} (hip : ip ≠ [])
    {accepts : Bool} {z z₁ : Zone} (hz : AsStored O z) {r : DNSRecord}
    (hnamed : z.named (qualify O b.name.toList) = [r])
    (h : z.update accepts r.id (bindingRecord b.name.toList b.proxied b.ttl ip) = (z₁, true)) :
    Written O b ip z (z₁.qualified O) := by
  have hr : r ∈ z.records ∧ r.name = qualify O b.name.toList := by
    have hmem : r ∈ z.named (qualify O b.name.toList) := by
      rw [hnamed]
      exact List.mem_singleton_self r
    exact ⟨(List.mem_filter.mp hmem).1, of_decide_eq_true (List.mem_filter.mp hmem).2⟩
  obtain ⟨hpname, hptype, hpcontent, hpsettings⟩ := patched_record hname hip r
  let new := qualifyRecord O (r.patched (bindingRecord b.name.toList b.proxied b.ttl ip))
  let f := fun r' : DNSRecord => qualifyRecord O
    (if r'.id = r.id then r'.patched (bindingRecord b.name.toList b.proxied b.ttl ip) else r')
  have hq : (z₁.qualified O).records = z.records.map f := by
    show z₁.records.map (qualifyRecord O) = _
    rw [update_ok h, List.map_map]
    rfl
  have hf : f r = new := congrArg (qualifyRecord O) (if_pos rfl)
  have hfother : ∀ r' ∈ z.records, r' ≠ r → f r' = r' := by
    intro r' hr' hne
    show qualifyRecord O (if r'.id = r.id then _ else r') = r'
    rw [if_neg fun hid => hne (z.eq_of_id hr' hr.1 hid)]
    exact qualifyRecord_of_stored (hz r' hr')
  -- the name of a record that is written is the one that it was found by
  have hkeeps : ∀ r' ∈ z.records, (f r').name = qualify O b.name.toList ↔ r'.name = qualify O b.name.toList := by
    intro r' hr'
    by_cases heq : r' = r
    · rw [heq, hf]
      exact iff_of_true (congrArg (qualify O) hpname) hr.2
    · rw [hfother r' hr' heq]
  refine ⟨⟨new, ?_, hptype, hpcontent, hpsettings⟩, ?_⟩
  · show (z₁.qualified O).records.filter _ = _
    rw [hq, filter_map_of_keeps fun r' hr' => decide_eq_decide.mpr (hkeeps r' hr')]
    exact (congrArg (List.map f) hnamed).trans (congrArg (fun r => [r]) hf)
  · show (z₁.qualified O).records.filter _ = z.records.filter _
    rw [hq, filter_map_of_keeps fun r' hr' => decide_eq_decide.mpr (not_congr (hkeeps r' hr'))]
    refine (List.map_congr_left fun r' hr' => ?_).trans (List.map_id _)
    obtain ⟨hmem, hne⟩ := List.mem_filter.mp hr'
    exact hfother r' hmem fun heq => of_decide_eq_true hne (heq ▸ hr.2)

theorem Own.named_cases {b : InstanceDNSBinding} {z : Zone} (h : Own O b z) :
    z.named (qualify O b.name.toList) = [] ∨ ∃ r, z.named (qualify O b.name.toList) = [r] ∧ r.type = .a := by
  have hsingle := h.single
  have htype := h.type
  cases hnamed : z.named (qualify O b.name.toList) with
  | nil => exact Or.inl rfl
  | cons r rest =>
    rw [hnamed] at hsingle htype
    obtain rfl : rest = [] := List.length_eq_zero_iff.mp (by simpa using hsingle)
    exact Or.inr ⟨r, rfl, htype r List.mem_cons_self⟩

/-- **One sync of a binding with a complete name.** It leaves one record, which it has found or has written. -/
theorem syncStep_of_under {b : InstanceDNSBinding} (hvalid : validDNSName b.name = true)
    (hunder : Under O (normalize L.lower b.name.toList)) {z z' : Zone} (hown : Own O b z) {e : IpChange}
    (h : syncStep O b z e = some z') :
    AsStored O z' ∧ z'.others (qualify O b.name.toList) = z.others (qualify O b.name.toList) ∧
      ∃ r, z'.named (qualify O b.name.toList) = [r] ∧ r.type = .a ∧ r.content = e.ip ∧
        (z.named (qualify O b.name.toList) = [r] ∨
          (HasSettings b r ∧ ∀ r₀ ∈ z.named (qualify O b.name.toList), e.ip ≠ r₀.content)) := by
  have hname := ne_nil_of_validDNSName hvalid
  have hq := qualify_of_under hunder
  unfold syncStep at h
  split at h
  · cases h
  next z₂ rep hrep hsync =>
    obtain rfl := Option.some.inj h
    unfold syncBinding at hsync
    dsimp only at hsync
    generalize refuseDuplicates O z _ e.answers = a at hsync
    cases hdns : syncBindingToDNS L.lower a b.name.toList b.proxied b.ttl e.ip z with
    | mk z₁ rep₁ =>
      rw [hdns] at hsync
      obtain ⟨rfl, rfl⟩ := Prod.mk.inj hsync
      obtain ⟨existing, hfind, hcases⟩ := syncBindingToDNS_ok hdns hrep
      refine ⟨asStored_qualified z₁, ?_⟩
      rcases hown.named_cases with hnamed | ⟨r, hnamed, htype⟩
      · rw [findBindingTarget_of_named_nil hown.stored (hq ▸ hnamed)] at hfind
        obtain rfl := (Prod.mk.inj hfind).1
        rcases hcases with ⟨hsame, -⟩ | ⟨-, attempt, hwrite⟩
        · cases hsame
        · obtain ⟨⟨r, hone, htype, hcontent, hsettings⟩, hothers⟩ := created_record hown.stored hnamed hwrite
          exact ⟨hothers, r, hone, htype, hcontent, Or.inr ⟨hsettings, by simp [hnamed]⟩⟩
      · rw [findBindingTarget_of_named_single hown.stored (hq ▸ hnamed) htype] at hfind
        obtain rfl := (Prod.mk.inj hfind).1
        rcases hcases with ⟨hsame, rfl⟩ | ⟨hother, attempt, hwrite⟩
        · rw [hown.stored.qualified_eq]
          exact ⟨rfl, r, hnamed, htype, Option.some.inj hsame, Or.inl hnamed⟩
        · obtain ⟨⟨r', hone, htype', hcontent, hsettings⟩, hothers⟩ :=
            updated_record hname e.ip_ne hown.stored hnamed hwrite
          refine ⟨hothers, r', hone, htype', hcontent, Or.inr ⟨hsettings, fun r₀ hr₀ heq => hother ?_⟩⟩
          rw [hnamed] at hr₀
          rw [List.mem_singleton.mp hr₀] at heq
          exact congrArg some heq.symm

theorem Own.of_single {b : InstanceDNSBinding} {z : Zone} (hz : AsStored O z) {r : DNSRecord}
    (hnamed : z.named (qualify O b.name.toList) = [r]) (htype : r.type = .a) : Own O b z := by
  refine ⟨hz, by rw [hnamed]; exact Nat.le_refl 1, fun r' hr' => ?_⟩
  rw [hnamed] at hr'
  rw [List.mem_singleton.mp hr']
  exact htype

/-- With one record that has the address, only the settings are left to check. -/
theorem converged_iff_of_single {b : InstanceDNSBinding} {ip : List Char} {z z' : Zone}
    (hunder : Under O (normalize L.lower b.name.toList)) (hz : AsStored O z') {r : DNSRecord}
    (hnamed : z'.named (qualify O b.name.toList) = [r]) (htype : r.type = .a) (hcontent : r.content = ip)
    (hothers : z'.others (qualify O b.name.toList) = z.others (qualify O b.name.toList)) :
    Converged O b ip z z' ↔ HasSettings b r := by
  constructor
  · rintro ⟨⟨⟨r', hone, -, -, hsettings⟩, -⟩, -⟩
    rw [hnamed] at hone
    rwa [List.singleton_inj.mp hone]
  · intro hsettings
    refine ⟨⟨⟨r, hnamed, htype, hcontent, hsettings⟩, hothers⟩, fun a hclient hlist => ?_⟩
    rw [← hcontent]
    exact syncBinding_skip hz hunder hnamed htype hclient hlist

theorem converged_congr {b : InstanceDNSBinding} {ip : List Char} {z z₁ z' : Zone}
    (h : z₁.others (qualify O b.name.toList) = z.others (qualify O b.name.toList)) :
    Converged O b ip z₁ z' ↔ Converged O b ip z z' :=
  ⟨fun hc => ⟨⟨hc.one, hc.others.trans h⟩, hc.repeats⟩, fun hc => ⟨⟨hc.one, hc.others.trans h.symm⟩, hc.repeats⟩⟩

theorem converged_iff_of_under {b : InstanceDNSBinding} (hvalid : validDNSName b.name = true)
    (hunder : Under O (normalize L.lower b.name.toList)) {e : IpChange} : ∀ {es : List IpChange} {z z' : Zone},
    Own O b z → Run (syncStep O b) (Always _ _) z (es ++ [e]) z' →
      (Converged O b e.ip z z' ↔
        ∀ r ∈ z.named (qualify O b.name.toList), HasSettings b r ∨ ∃ e' ∈ es ++ [e], e'.ip ≠ r.content) := by
  intro es
  induction es with
  | nil =>
    intro z z' hown hrun
    cases hrun with
    | cons _ hs hr =>
      cases hr
      obtain ⟨hz, hothers, r, hnamed, htype, hcontent, hcases⟩ := syncStep_of_under hvalid hunder hown hs
      rw [converged_iff_of_single hunder hz hnamed htype hcontent hothers]
      rcases hcases with hfound | ⟨hsettings, hother⟩
      · simp [hfound, hcontent]
      · exact iff_of_true hsettings fun r₀ hr₀ => Or.inr ⟨e, by simp, hother r₀ hr₀⟩
  | cons e₀ es ih =>
    intro z z' hown hrun
    cases hrun with
    | cons _ hs hr =>
      obtain ⟨hz, hothers, r, hnamed, htype, hcontent, hcases⟩ := syncStep_of_under hvalid hunder hown hs
      rw [← converged_congr hothers, ih (.of_single hz hnamed htype) hr]
      rcases hcases with hfound | ⟨hsettings, hother⟩
      · simp [hfound, hnamed, hcontent]
      · refine iff_of_true (fun r' hr' => ?_) fun r₀ hr₀ => Or.inr ⟨e₀, List.mem_cons_self, hother r₀ hr₀⟩
        rw [hnamed] at hr'
        rw [List.mem_singleton.mp hr']
        exact Or.inl hsettings

theorem asStored_of_run {b : InstanceDNSBinding} {es : List IpChange} {z z' : Zone}
    (h : Run (syncStep O b) (Always _ _) z es z') (hz : AsStored O z) : AsStored O z' := by
  refine h.invariant (fun z e z' _ _ hs => ?_) hz
  unfold syncStep at hs
  split at hs
  · cases hs
  next z₂ rep _ hsync =>
    obtain rfl := Option.some.inj hs
    rw [← (Prod.mk.inj hsync).1]
    exact asStored_qualified _

/-- **A binding ends with one record if and only if its name is complete and its settings get to the record.** -/
theorem sync_converges_iff (O : Origin L) (b : InstanceDNSBinding) (hvalid : validDNSName b.name = true)
    {es : List IpChange} {e : IpChange} {z z' : Zone} (hown : Own O b z)
    (hrun : Run (syncStep O b) (Always _ _) z (es ++ [e]) z') :
    Converged O b e.ip z z' ↔ Reconciled O b z (es ++ [e]) := by
  by_cases hunder : Under O (normalize L.lower b.name.toList)
  · exact (converged_iff_of_under hvalid hunder hown hrun).trans (and_iff_right hunder).symm
  · refine iff_of_false (fun hc => ?_) fun h => hunder h.1
    have hskip := hc.repeats ⟨true, true, fun _ => true, fun _ => none⟩ rfl rfl
    exact syncBinding_ne_skip (asStored_of_run hrun hown.stored) hunder _ _ (congrArg Prod.snd hskip)

/-! ## A zone without records -/

/-- All names of the example are in lower case. -/
private def plain : Lowering := ⟨id, fun _ => rfl, fun _ => Iff.rfl⟩

private def exampleOrg : Origin plain where
  name := "example.org".toList
  isLower := List.map_id _
  last := ⟨"example.or".toList, 'g', by decide, by decide⟩

private def emptyZone : Zone := ⟨[], List.nodup_nil⟩

private def apex : InstanceDNSBinding := { instanceID := "i", name := "@" }

private def web : InstanceDNSBinding := { instanceID := "i", name := "web.example.org", proxied := true }

private def firstIP : IpChange := ⟨⟨true, true, fun _ => true, fun _ => some ['1']⟩, "192.0.2.1".toList, by decide⟩

private def secondIP : IpChange := ⟨⟨true, true, fun _ => true, fun _ => some ['2']⟩, "192.0.2.2".toList, by decide⟩

theorem own_emptyZone (b : InstanceDNSBinding) : Own exampleOrg b emptyZone :=
  ⟨nofun, Nat.zero_le 1, nofun⟩

/-- The record of the zone itself is not found again: the second address gets a second record. -/
theorem apex_is_added_twice :
    ¬ ∀ (L : Lowering) (O : Origin L) (b : InstanceDNSBinding) (es : List IpChange) (e : IpChange) (z z' : Zone),
      validDNSName b.name = true → Own O b z → Run (syncStep O b) (Always _ _) z (es ++ [e]) z' →
        Converged O b e.ip z z' := by
  intro h
  obtain ⟨z', hz'⟩ : ∃ z', exec (syncStep exampleOrg apex) emptyZone [firstIP, secondIP] = some z' :=
    Option.isSome_iff_exists.mp (by decide)
  obtain ⟨⟨⟨r, hone, -⟩, -⟩, -⟩ := h plain exampleOrg apex [firstIP] secondIP emptyZone z' (by decide)
    (own_emptyZone apex) (run_of_exec hz')
  have htwo : ((exec (syncStep exampleOrg apex) emptyZone [firstIP, secondIP]).map fun z =>
      (z.named (qualify exampleOrg apex.name.toList)).length) = some 2 := by decide
  rw [hz', Option.map_some, hone] at htwo
  cases htwo

theorem web_has_one_record : ∃ z', exec (syncStep exampleOrg web) emptyZone [firstIP, secondIP] = some z' ∧
    Converged exampleOrg web secondIP.ip emptyZone z' := by
  obtain ⟨z', hz'⟩ : ∃ z', exec (syncStep exampleOrg web) emptyZone [firstIP, secondIP] = some z' :=
    Option.isSome_iff_exists.mp (by decide)
  exact ⟨z', hz', (sync_converges_iff exampleOrg web (by decide) (own_emptyZone web)
    (show Run _ _ _ ([firstIP] ++ [secondIP]) _ from run_of_exec hz')).mpr ⟨by decide, nofun⟩⟩

end OciHelper.Dns
