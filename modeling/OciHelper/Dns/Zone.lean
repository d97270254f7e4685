import Mathlib.Data.List.Nodup

/-!
# The records of a zone

* `DNSRecord`, `Zone` : the records, whose ids differ; `patched` : what a partial update makes of a record;
* `Zone.update`, `Zone.delete`, `Zone.create` : the three writes; each may fail, and then changes nothing;
* `InFrame`, `KeepsA` : which records a path has left alone, and the `A` records that are still there;
* `findBindingTarget` : the record that a binding manages.

Go's `strings.ToLower` and `strings.EqualFold` work on single characters: `lower` is the one mapping, and two
texts are equal under the other if `fold` maps them to one text.
-/

namespace OciHelper.Dns

abbrev RecordID := List Char

abbrev Name := List Char

inductive RecordType
  | a
  | aaaa
  | cname
  | mx
  | txt
  | other (name : Name)
  deriving DecidableEq, Repr

structure DNSRecord where
  id : RecordID
  type : RecordType
  name : Name
  content : List Char
  proxied : Option Bool := none
  ttl : Int := 0
  comment : List Char := []
  deriving DecidableEq, Repr

/-- `PATCH`: the fields that are empty in the body are omitted. -/
def DNSRecord.patched (r body : DNSRecord) : DNSRecord where
  id := r.id
  type := body.type
  name := if body.name = [] then r.name else body.name
  content := if body.content = [] then r.content else body.content
  proxied := body.proxied.or r.proxied
  ttl := if body.ttl = 0 then r.ttl else body.ttl
  comment := if body.comment = [] then r.comment else body.comment

structure Zone where
  records : List DNSRecord
  nodup : (records.map DNSRecord.id).Nodup

namespace Zone

theorem patch_ids (id : RecordID) (body : DNSRecord) (rs : List DNSRecord) :
    (rs.map fun r => if r.id = id then r.patched body else r).map DNSRecord.id = rs.map DNSRecord.id := by
  rw [List.map_map]
  refine List.map_congr_left fun r _ => ?_
  show (if r.id = id then r.patched body else r).id = r.id
  split <;> rfl

/-- The flag says whether the call succeeded. -/
def update (z : Zone) (accepts : Bool) (id : RecordID) (body : DNSRecord) : Zone × Bool :=
  if accepts = true ∧ ∃ r ∈ z.records, r.id = id then
    ({ records := z.records.map fun r => if r.id = id then r.patched body else r
       nodup := by rw [patch_ids]; exact z.nodup }, true)
  else (z, false)

def delete (z : Zone) (accepts : Bool) (id : RecordID) : Zone × Bool :=
  if accepts = true ∧ ∃ r ∈ z.records, r.id = id then
    ({ records := z.records.filter fun r => r.id ≠ id
       nodup := z.nodup.sublist (List.filter_sublist.map _) }, true)
  else (z, false)

/-- The service gives a new id, or it fails. -/
def create (z : Zone) (newID : Option RecordID) (body : DNSRecord) : Zone × Bool :=
  match newID with
  | none => (z, false)
  | some id =>
    if h : id ∉ z.records.map DNSRecord.id then
      ({ records := z.records ++ [{ body with id := id }]
         nodup := by
          rw [List.map_append]
          exact List.nodup_append_comm.mp (List.nodup_cons.mpr ⟨h, z.nodup⟩) }, true)
    else (z, false)

theorem eq_of_id {z : Zone} {r r' : DNSRecord} (h : r ∈ z.records) (h' : r' ∈ z.records) (hid : r.id = r'.id) :
    r = r' := List.inj_on_of_nodup_map z.nodup h h' hid

theorem mem_update_of_ne {z : Zone} {r : DNSRecord} (h : r ∈ z.records) (accepts : Bool) {id : RecordID}
    (body : DNSRecord) (hne : r.id ≠ id) : r ∈ (z.update accepts id body).1.records := by
  unfold update
  split
  · exact List.mem_map.mpr ⟨r, h, if_neg hne⟩
  · exact h

theorem patched_mem_update {z : Zone} {r : DNSRecord} (h : r ∈ z.records) (body : DNSRecord) :
    r.patched body ∈ (z.update true r.id body).1.records := by
  unfold update
  rw [if_pos ⟨rfl, r, h, rfl⟩]
  exact List.mem_map.mpr ⟨r, h, if_pos rfl⟩

theorem update_refused (z : Zone) (id : RecordID) (body : DNSRecord) : z.update false id body = (z, false) := by
  unfold update
  rw [if_neg fun h => Bool.false_ne_true h.1]

theorem delete_refused (z : Zone) (id : RecordID) : z.delete false id = (z, false) := by
  unfold delete
  rw [if_neg fun h => Bool.false_ne_true h.1]

theorem delete_accepted {z : Zone} {r : DNSRecord} (h : r ∈ z.records) : (z.delete true r.id).2 = true := by
  unfold delete
  rw [if_pos ⟨rfl, r, h, rfl⟩]

theorem mem_delete_iff {z : Zone} {r r' : DNSRecord} (h : r ∈ z.records) :
    r' ∈ (z.delete true r.id).1.records ↔ r' ∈ z.records ∧ r' ≠ r := by
  unfold delete
  rw [if_pos ⟨rfl, r, h, rfl⟩, List.mem_filter]
  refine and_congr_right fun h' => ?_
  rw [decide_eq_true_eq]
  exact not_congr ⟨fun hid => eq_of_id h' h hid, fun heq => congrArg DNSRecord.id heq⟩

theorem mem_create {z : Zone} {r : DNSRecord} (h : r ∈ z.records) (newID : Option RecordID) (body : DNSRecord) :
    r ∈ (z.create newID body).1.records := by
  unfold create
  split
  · exact h
  · split
    · exact List.mem_append_left _ h
    · exact h

/-- The id is a new one. -/
def Fresh (z : Zone) (newID : Option RecordID) : Prop := ∃ id, newID = some id ∧ ∀ r ∈ z.records, r.id ≠ id

theorem create_fresh_iff (z : Zone) (newID : Option RecordID) (body : DNSRecord) :
    (z.create newID body).2 = true ↔ z.Fresh newID := by
  unfold create Fresh
  cases newID with
  | none => simp
  | some id =>
    dsimp only
    by_cases h : id ∉ z.records.map DNSRecord.id
    · rw [dif_pos h]
      refine iff_of_true rfl ⟨id, rfl, fun r hr hid => h ?_⟩
      exact List.mem_map.mpr ⟨r, hr, hid⟩
    · rw [dif_neg h]
      refine iff_of_false Bool.false_ne_true ?_
      rintro ⟨id', heq, hno⟩
      obtain rfl := Option.some.inj heq
      obtain ⟨r, hr, hid⟩ := List.mem_map.mp (not_not.mp h)
      exact hno r hr hid

theorem mem_of_mem_create {z : Zone} {newID : Option RecordID} {body r : DNSRecord}
    (h : r ∈ (z.create newID body).1.records) : r ∈ z.records ∨ ∃ id, newID = some id ∧ r = { body with id := id } := by
  unfold create at h
  cases newID with
  | none => exact Or.inl h
  | some id =>
    dsimp only at h
    split at h
    · obtain h | h := List.mem_append.mp h
      · exact Or.inl h
      · exact Or.inr ⟨id, rfl, List.mem_singleton.mp h⟩
    · exact Or.inl h

end Zone

/-! ## Names -/

/-- `strings.TrimRight(s, ".")` -/
def trimRight (n : Name) : Name := (n.reverse.dropWhile (· = '.')).reverse

def normalize (lower : Char → Char) (n : Name) : Name := (trimRight n).map lower

def equalFold (fold : Char → Char) (m n : Name) : Bool := (trimRight m).map fold = (trimRight n).map fold

/-! ## What a path may touch -/

/-- The `A` record of a name, as a path compares names. -/
def DNSRecord.IsTarget (names : Name → Bool) (r : DNSRecord) : Prop := r.type = .a ∧ names r.name = true

/-- Other records are as before. -/
def InFrame (names : Name → Bool) (z z' : Zone) : Prop :=
  ∀ r ∈ z.records, r ∉ z'.records → r.IsTarget names

/-- The `A` records of the name are still there. -/
def KeepsA (names : Name → Bool) (z z' : Zone) : Prop :=
  ∀ r ∈ z.records, r.IsTarget names → ∃ r' ∈ z'.records, r'.id = r.id ∧ r'.IsTarget names

theorem InFrame.of_subset {names : Name → Bool} {z z' : Zone} (h : ∀ r ∈ z.records, r ∈ z'.records) :
    InFrame names z z' := fun r hr hn => absurd (h r hr) hn

theorem KeepsA.of_subset {names : Name → Bool} {z z' : Zone} (h : ∀ r ∈ z.records, r ∈ z'.records) :
    KeepsA names z z' := fun r hr ht => ⟨r, h r hr, rfl, ht⟩

theorem InFrame.refl (names : Name → Bool) (z : Zone) : InFrame names z z := .of_subset fun _ h => h

theorem KeepsA.refl (names : Name → Bool) (z : Zone) : KeepsA names z z := .of_subset fun _ h => h

theorem InFrame.create (names : Name → Bool) (z : Zone) (newID : Option RecordID) (body : DNSRecord) :
    InFrame names z (z.create newID body).1 := .of_subset fun _ h => z.mem_create h newID body

theorem KeepsA.create (names : Name → Bool) (z : Zone) (newID : Option RecordID) (body : DNSRecord) :
    KeepsA names z (z.create newID body).1 := .of_subset fun _ h => z.mem_create h newID body

/-- An update of an `A` record of the name that keeps its type and its name. -/
theorem InFrame.update {names : Name → Bool} {z : Zone} {r : DNSRecord} (hr : r ∈ z.records)
    (ht : r.IsTarget names) (accepts : Bool) (body : DNSRecord) :
    InFrame names z (z.update accepts r.id body).1 := fun r' hr' hgone => by
  by_cases hid : r'.id = r.id
  · rw [z.eq_of_id hr' hr hid]
    exact ht
  · exact absurd (z.mem_update_of_ne hr' accepts body hid) hgone

theorem KeepsA.update {names : Name → Bool} {z : Zone} {r : DNSRecord} (hr : r ∈ z.records) (accepts : Bool)
    {body : DNSRecord} (hbody : (r.patched body).IsTarget names) :
    KeepsA names z (z.update accepts r.id body).1 := fun r' hr' ht => by
  by_cases hid : r'.id = r.id
  · obtain rfl := z.eq_of_id hr' hr hid
    cases accepts with
    | true => exact ⟨_, z.patched_mem_update hr' body, rfl, hbody⟩
    | false =>
      rw [z.update_refused]
      exact ⟨r', hr', rfl, ht⟩
  · exact ⟨r', z.mem_update_of_ne hr' accepts body hid, rfl, ht⟩

/-- What an update of any record leaves in the frame. -/
theorem inFrame_update_iff {names : Name → Bool} {z : Zone} {r : DNSRecord} (hr : r ∈ z.records) (accepts : Bool)
    (body : DNSRecord) : InFrame names z (z.update accepts r.id body).1 ↔
      accepts = true → r.patched body ≠ r → r.IsTarget names := by
  constructor
  · rintro h rfl hne
    refine h r hr fun hmem => ?_
    unfold Zone.update at hmem
    rw [if_pos ⟨rfl, r, hr, rfl⟩] at hmem
    obtain ⟨r₀, hr₀, heq⟩ := List.mem_map.mp hmem
    by_cases hid : r₀.id = r.id
    · rw [if_pos hid, z.eq_of_id hr₀ hr hid] at heq
      exact hne heq
    · rw [if_neg hid] at heq
      exact hid (congrArg DNSRecord.id heq)
  · intro h r' hr' hgone
    by_cases hid : r'.id = r.id
    · obtain rfl := z.eq_of_id hr' hr hid
      cases accepts with
      | false =>
        rw [z.update_refused] at hgone
        exact absurd hr' hgone
      | true =>
        refine h rfl fun heq => hgone ?_
        have hmem := z.patched_mem_update hr' body
        rwa [heq] at hmem
    · exact absurd (z.mem_update_of_ne hr' accepts body hid) hgone

/-- What a deletion leaves in the frame. -/
theorem inFrame_delete_iff {names : Name → Bool} {z : Zone} {r : DNSRecord} (hr : r ∈ z.records) (accepts : Bool) :
    InFrame names z (z.delete accepts r.id).1 ↔ accepts = true → r.IsTarget names := by
  cases accepts with
  | false =>
    rw [z.delete_refused]
    exact iff_of_true (.refl names z) fun h => nomatch h
  | true =>
    constructor
    · exact fun h _ => h r hr fun hmem => ((z.mem_delete_iff hr).mp hmem).2 rfl
    · intro h r' hr' hgone
      have heq : r' = r := by
        by_contra hne
        exact hgone ((z.mem_delete_iff hr).mpr ⟨hr', hne⟩)
      rw [heq]
      exact h rfl

/-! ## The record of a binding -/

/-- The first `A` record of the name, or the type of the first other record. -/
def findBindingTarget (lower : Char → Char) (records : List DNSRecord) (name : Name) :
    Option DNSRecord × Option RecordType :=
  let named := records.filter fun r => normalize lower r.name = normalize lower name
  match named.find? fun r => r.type ≠ .a with
  | some r => (none, some r.type)
  | none => (named.find? fun r => r.type = .a, none)

theorem findBindingTarget_existing {lower : Char → Char} {records : List DNSRecord} {name : Name} {r : DNSRecord}
    {conflict : Option RecordType} (h : findBindingTarget lower records name = (some r, conflict)) :
    r ∈ records ∧ r.type = .a ∧ normalize lower r.name = normalize lower name := by
  unfold findBindingTarget at h
  dsimp only at h
  split at h
  · cases h
  · have hf := (Prod.mk.inj h).1
    have hmem := List.mem_filter.mp (List.mem_of_find?_eq_some hf)
    have htype := List.find?_some hf
    exact ⟨hmem.1, by simpa using htype, by simpa using hmem.2⟩

end OciHelper.Dns
