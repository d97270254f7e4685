import OciHelper.Lib.Lines
import OciHelper.Lib.Text
import OciHelper.Oci.KeyPaths

/-!
# Importing tenants

* `State` : the files and the rows; `Attempt` : what the file system, the cloud and the table answer during an import;
* `handleTenantUpload`, `importOne` : an import of a form and one of a configuration;
* `parseOciConfigText`, `steps` : a batch of configurations, one after the other;
* `Atomic` : what an import that fails leaves, and where the key of one that succeeds is;
* `UploadMeets`, `Step.Meets` : the conditions under which an import is atomic;
* `imports_atomic_iff` : they are exact, for a batch with the files and the rows that it leaves at its end.

A directory is no file: the names `.`, `..` and `/` are directories, and cannot be written.
-/

namespace OciHelper.Oci.Uploads
open Backup (base)
open Path Text

abbrev Bytes := List UInt8

/-! ## One import -/

structure Tenant where
  name : List Char
  tenancyOCID : List Char
  userOCID : List Char
  fingerprint : List Char
  region : List Char
  keyFile : List Char
  id : Int := 0

/-- The files, by their absolute paths, and the rows. -/
structure State where
  files : List Char → Option Bytes
  tenants : KeyTable Tenant

/-- A file with this content, or none. -/
def State.put (s : State) (path : List Char) (content : Option Bytes) : State :=
  { s with files := Function.update s.files path content }

@[simp] theorem State.tenants_put (s : State) (path : List Char) (content : Option Bytes) :
    (s.put path content).tenants = s.tenants := rfl

@[simp] theorem State.files_put_self (s : State) (path : List Char) (content : Option Bytes) :
    (s.put path content).files path = content := Function.update_self ..

theorem State.files_put_of_ne (s : State) {path path' : List Char} (h : path' ≠ path) (content : Option Bytes) :
    (s.put path content).files path' = s.files path' := Function.update_of_ne h ..

/-- A file that is opened is emptied first, so that a write can leave a part of the content. -/
inductive Write
  | refused
  | short (left : Bytes)
  | done

/-- `accepted` : a client is built from a key, and its credentials are valid; `background` : the plan type, if a client is
built once more in the background. -/
structure Attempt where
  mkdirAll : Bool
  write : Write
  accepted : Bytes → Bool
  created : Bool
  removed : Bool
  background : Option (List Char)

/-- What is recorded in the background. -/
inductive Record
  | accountStatus (id : Int) (status : List Char)
  | planType (id : Int) (plan : List Char)
  deriving DecidableEq

def Record.id : Record → Int
  | .accountStatus id _ | .planType id _ => id

/-- `row` : the row that was inserted, if the import is reported as successful. -/
structure Outcome where
  state : State
  row : Option Int
  records : List Record

def failed (s : State) : Outcome := ⟨s, none, []⟩

/-- The current directory and the key directory. -/
structure Dirs where
  cwd : List Char
  keysDir : List Char

variable (d : Dirs)

def Dirs.file (path : List Char) : List Char := absolute d.cwd path

/-- The file of a key. -/
def Dirs.keyFile (name : List Char) : List Char := d.file (join d.keysDir name)

/-- `os.WriteFile` of a key, and whether it succeeds. -/
def writeKey (a : Attempt) (name : List Char) (content : Bytes) (s : State) : State × Bool :=
  if ¬ Name name then (s, false)
  else
    match a.write with
    | .refused => (s, false)
    | .short left => (s.put (d.keyFile name) (some left), false)
    | .done => (s.put (d.keyFile name) (some content), true)

/-- `NewClient` and `ValidateCredentials`, with the key at this path. -/
def connects (a : Attempt) (path : List Char) (s : State) : Bool := (s.files (d.file path)).any a.accepted

/-- The id of the new row is not read back. -/
def createTenant (a : Attempt) (t : Tenant) (s : State) : Option State :=
  if a.created then some { s with tenants := s.tenants.insert t } else none

structure UploadForm where
  filename : List Char
  content : Option Bytes
  name : List Char
  tenancyOCID : List Char
  userOCID : List Char
  fingerprint : List Char
  region : List Char
  now : Nat

def UploadForm.complete (f : UploadForm) : Bool :=
  ¬ (f.name = [] ∨ f.tenancyOCID = [] ∨ f.userOCID = [] ∨ f.fingerprint = [] ∨ f.region = [])

/-- The name under which the key is kept. -/
def UploadForm.stored (f : UploadForm) : List Char :=
  if base f.filename = [] then "upload_".toList ++ decimal f.now ++ ".pem".toList else base f.filename

def UploadForm.tenant (f : UploadForm) : Tenant :=
  { name := f.name, tenancyOCID := f.tenancyOCID, userOCID := f.userOCID, fingerprint := f.fingerprint,
    region := f.region, keyFile := f.stored }

/-- `os.Remove` of a key. -/
def removeKey (a : Attempt) (name : List Char) (s : State) : State :=
  if a.removed then s.put (d.keyFile name) none else s

def handleTenantUpload (a : Attempt) (f : UploadForm) (s : State) : Outcome :=
  match f.content with
  | none => failed s
  | some buf =>
    match writeKey d a f.stored buf s with
    | (s, false) => failed s
    | (s, true) =>
      if ¬ f.complete then failed (removeKey d a f.stored s)
      else if ¬ connects d a (join d.keysDir f.stored) s then failed (removeKey d a f.stored s)
      else
        match createTenant a f.tenant s with
        | none => failed (removeKey d a f.stored s)
        | some s' => ⟨s', some s.tenants.nextId, []⟩

/-! ## Batches -/

structure ParsedOciCfg where
  name : List Char
  userOCID : List Char := []
  tenancyOCID : List Char := []
  fingerprint : List Char := []
  region : List Char := []
  keyFile : List Char := []
  deriving DecidableEq

/-- The lines that the scanner gives, up to the first one that does not fit into its buffer. -/
def scanned (content : List Char) : List (List Char) :=
  let lines := Lines.complete '\n' content ++ if Lines.rest '\n' content = [] then [] else [Lines.rest '\n' content]
  lines.takeWhile fun l => (l.map Char.utf8Size).sum < 65536

def setField (cur : ParsedOciCfg) (key value : List Char) : ParsedOciCfg :=
  if key = "user".toList then { cur with userOCID := value }
  else if key = "fingerprint".toList then { cur with fingerprint := value }
  else if key = "tenancy".toList then { cur with tenancyOCID := value }
  else if key = "region".toList then { cur with region := value }
  else if key = "key_file".toList then { cur with keyFile := value }
  else cur

/-- One line, with the configurations before the current one. -/
def parseLine (st : List ParsedOciCfg × Option ParsedOciCfg) (text : List Char) :
    List ParsedOciCfg × Option ParsedOciCfg :=
  let line := trimSpace text
  if line = [] then st
  else if line.head? = some '[' ∧ line.getLast? = some ']' then
    (st.1 ++ st.2.toList, some { name := trimSpace (line.drop 1).dropLast })
  else
    match st.2, splitN '=' 2 line with
    | some cur, [key, value] => (st.1, some (setField cur (trimSpace key) (trimSpace value)))
    | _, _ => st

def parseOciConfigText (content : List Char) : List ParsedOciCfg :=
  let st := (scanned content).foldl parseLine ([], none)
  st.1 ++ st.2.toList

def ParsedOciCfg.complete (c : ParsedOciCfg) : Bool :=
  ¬ (c.name = [] ∨ c.userOCID = [] ∨ c.tenancyOCID = [] ∨ c.fingerprint = [] ∨ c.region = [] ∨ c.keyFile = [])

def ParsedOciCfg.keyName (c : ParsedOciCfg) : List Char := base c.keyFile

def ParsedOciCfg.tenant (c : ParsedOciCfg) : Tenant :=
  { name := c.name, tenancyOCID := c.tenancyOCID, userOCID := c.userOCID, fingerprint := c.fingerprint,
    region := c.region, keyFile := c.keyName }

/-- The uploaded keys by their base names; one that is not read is left out, and the last of a name counts. -/
def keyFiles (headers : List (List Char × Option Bytes)) (name : List Char) : Option Bytes :=
  let read := headers.filterMap fun h => h.2.map fun content => (base h.1, content)
  (read.reverse.find? fun h => h.1 = name).map Prod.snd

/-- The goroutine; a client is built for the tenant as it is in memory. -/
def background (a : Attempt) (t : Tenant) : List Record :=
  match a.background with
  | none => []
  | some plan => .accountStatus t.id "ACTIVE".toList :: if plan = [] then [] else [.planType t.id plan]

/-- The key of a configuration, if it was uploaded. -/
def placeKey (keys : List Char → Option Bytes) (a : Attempt) (name : List Char) (s : State) : State × Bool :=
  match keys name with
  | none => (s, true)
  | some content => if ¬ a.mkdirAll then (s, false) else writeKey d a name content s

/-- What follows once the key is there; the client is built with its bare name. -/
def importPlaced (a : Attempt) (c : ParsedOciCfg) (s : State) : Outcome :=
  if ¬ connects d a c.keyName s then failed s
  else
    match createTenant a c.tenant s with
    | none => failed s
    | some s' => ⟨s', some s.tenants.nextId, background a c.tenant⟩

def importOne (keys : List Char → Option Bytes) (a : Attempt) (c : ParsedOciCfg) (s : State) : Outcome :=
  match placeKey d keys a c.keyName s with
  | (s, false) => failed s
  | (s, true) => importPlaced d a c s

/-- A file that is not read, or a configuration of one that is. -/
inductive Item
  | unread (filename : List Char)
  | config (c : ParsedOciCfg)

def items (files : List (List Char × Option (List Char))) : List Item :=
  files.flatMap fun f =>
    match f.2 with
    | none => [.unread f.1]
    | some text => (parseOciConfigText text).map .config

/-- Is the item imported at all? -/
def Item.fresh (seen : List (List Char)) : Item → Bool
  | .unread _ => false
  | .config c => c.complete && !seen.any (· = c.name)

/-- One item of a batch: what it starts from, and what the attempt gives. -/
structure Step where
  before : State
  seen : List (List Char)
  item : Item
  attempt : Attempt

def Step.outcome (keys : List Char → Option Bytes) (st : Step) : Outcome :=
  match st.item with
  | .unread _ => failed st.before
  | .config c => if st.item.fresh st.seen then importOne d keys st.attempt c st.before else failed st.before

def Step.seenAfter (st : Step) : List (List Char) :=
  match st.item with
  | .unread _ => st.seen
  | .config c => if st.item.fresh st.seen then c.name :: st.seen else st.seen

/-- The loop, with the state at its end. -/
def steps (keys : List Char → Option Bytes) : State → List (List Char) → List (Item × Attempt) → List Step × State
  | s, _, [] => ([], s)
  | s, seen, (item, a) :: rest =>
    let st : Step := ⟨s, seen, item, a⟩
    let (sts, last) := steps keys (st.outcome d keys).state st.seenAfter rest
    (st :: sts, last)

def handleTenantUploadBatch (headers : List (List Char × Option Bytes))
    (files : List (List Char × Option (List Char))) (attempts : Nat → Attempt) (s : State) : List Step × State :=
  steps d (keyFiles headers) s [] ((items files).zipIdx.map fun (item, n) => (item, attempts n))

/-! ## What should hold -/

/-- What `clientForTenant` asks the file system. -/
def Dirs.world (s : State) : KeyPaths.World := ⟨fun _ => true, fun path => (s.files (d.file path)).isSome, true⟩

/-- No row is left, and every file is as it was. -/
structure Kept (s s' : State) : Prop where
  tenants : s'.tenants = s.tenants
  files : ∀ path content, s.files path = some content → s'.files path = some content

/-- The row is stored, and its client gets a key inside the directory, the one that was uploaded if there is one. -/
def Resolves (s : State) (id : Int) (key : Option Bytes) : Prop :=
  ∃ t path content, s.tenants.get id = some t ∧
    KeyPaths.clientForTenant (d.world s) d.keysDir (String.ofList t.keyFile) = [.client path] ∧
    Inside d.keysDir path ∧ s.files (d.file path) = some content ∧ ∀ c ∈ key, content = c

/-- An import that is reported as failed changes nothing that was there. For one that is reported as successful `last` has
its row and its key, and what is recorded is recorded under the id of the row. -/
def Atomic (key : Option Bytes) (s : State) (o : Outcome) (last : State) : Prop :=
  match o.row with
  | none => Kept s o.state
  | some id => Resolves d last id key ∧ ∀ r ∈ o.records, r.id = id

def Step.key (keys : List Char → Option Bytes) (st : Step) : Option Bytes :=
  match st.item with
  | .unread _ => none
  | .config c => keys c.keyName

/-- Every import of a batch is atomic, with the files and rows at the end of the batch. -/
def BatchAtomic (keys : List Char → Option Bytes) (run : List Step × State) : Prop :=
  ∀ st ∈ run.1, Atomic d (st.key keys) st.before (st.outcome d keys) run.2

/-! ## The conditions -/

/-- `clientForTenant` takes the name to be inside the directory. -/
def Dirs.Accepts (name : List Char) : Prop := Name name ∧ clean d.keysDir ++ ['/'] <+: clean (join d.keysDir name)

/-- A file of this name has this content, if there is one. -/
def Same (s : State) (name : List Char) (content : Bytes) : Prop :=
  ∀ old, s.files (d.keyFile name) = some old → old = content

/-- A key that is written without success does not change what was there. -/
def WriteMeets (a : Attempt) (name : List Char) (s : State) (done : Prop) : Prop :=
  Name name →
    match a.write with
    | .refused => True
    | .short left => Same d s name left
    | .done => done

def UploadMeets (a : Attempt) (f : UploadForm) (s : State) : Prop :=
  ∀ buf, f.content = some buf → WriteMeets d a f.stored s
    (if f.complete ∧ a.accepted buf ∧ a.created then d.Accepts f.stored
    else s.files (d.keyFile f.stored) = none ∨ ¬ a.removed ∧ Same d s f.stored buf)

/-- The key that a client with the bare name finds, when the key in the directory is this one. -/
def here (name : List Char) (content : Bytes) (s : State) : Option Bytes :=
  if d.file name = d.keyFile name then some content else s.files (d.file name)

def ImportMeets (keys : List Char → Option Bytes) (a : Attempt) (c : ParsedOciCfg) (s : State) : Prop :=
  match keys c.keyName with
  | none => (s.files (d.file c.keyName)).any a.accepted ∧ a.created →
      d.Accepts c.keyName ∧ s.files (d.keyFile c.keyName) ≠ none ∧ a.background = none
  | some content => a.mkdirAll → WriteMeets d a c.keyName s
      (if (here d c.keyName content s).any a.accepted ∧ a.created then d.Accepts c.keyName ∧ a.background = none
      else Same d s c.keyName content)

def Step.Meets (keys : List Char → Option Bytes) (st : Step) : Prop :=
  match st.item with
  | .unread _ => True
  | .config c => st.item.fresh st.seen → ImportMeets d keys st.attempt c st.before

/-! ## One import -/

variable {d}

theorem kept_refl (s : State) : Kept s s := ⟨rfl, fun _ _ h => h⟩

/-- A key that is written keeps the other files. -/
theorem kept_put_iff {s : State} {name : List Char} {content : Bytes} :
    Kept s (s.put (d.keyFile name) (some content)) ↔ Same d s name content := by
  constructor
  · intro h old hold
    have hkept := h.files _ _ hold
    rw [State.files_put_self] at hkept
    exact (Option.some.inj hkept).symm
  · intro h
    refine ⟨rfl, fun path old hold => ?_⟩
    by_cases hp : path = d.keyFile name
    · rw [hp] at hold ⊢
      rw [h old hold]
      exact State.files_put_self ..
    · rwa [State.files_put_of_ne _ hp]

/-- A key that is deleted after it was written is as if it had never been there. -/
theorem kept_remove_iff {a : Attempt} {s : State} {name : List Char} {content : Bytes} :
    Kept s (removeKey d a name (s.put (d.keyFile name) (some content))) ↔
      s.files (d.keyFile name) = none ∨ ¬ a.removed ∧ Same d s name content := by
  unfold removeKey
  split
  · next hremoved =>
    constructor
    · intro h
      left
      cases hold : s.files (d.keyFile name) with
      | none => rfl
      | some old =>
        have hkept := h.files _ _ hold
        rw [State.files_put_self] at hkept
        exact nomatch hkept
    · rintro (hnone | ⟨hnot, -⟩)
      · refine ⟨rfl, fun path old hold => ?_⟩
        have hp : path ≠ d.keyFile name := fun e => by rw [e, hnone] at hold; cases hold
        rwa [State.files_put_of_ne _ hp, State.files_put_of_ne _ hp]
      · exact absurd hremoved hnot
  · next hremoved =>
    rw [kept_put_iff]
    constructor
    · exact fun h => .inr ⟨hremoved, h⟩
    · rintro (hnone | ⟨-, h⟩)
      · exact fun old hold => by rw [hnone] at hold; cases hold
      · exact h

theorem resolve_base {file : List Char} (h : Name (base file)) :
    KeyPaths.resolve d.keysDir (base file) = join d.keysDir (base file) := by
  have habs : ¬ isAbs (base file) = true := fun habs => h.2.1 (List.mem_of_head? (by simpa [isAbs] using habs))
  exact if_pos ⟨h.1, habs⟩

/-- Only a name leads into the directory. -/
theorem name_of_inside {file : List Char} (h : Inside d.keysDir (KeyPaths.resolve d.keysDir (base file))) :
    Name (base file) := by
  rcases KeyPaths.base_single file with hslash | hslash
  · have habs : ¬ isAbs (base file) = true := fun habs =>
      hslash (List.mem_of_head? (by simpa [isAbs] using habs))
    rw [KeyPaths.resolve, if_pos ⟨KeyPaths.base_ne_nil file, habs⟩] at h
    exact (KeyPaths.inside_base_iff file).mp h
  · rw [hslash] at h
    exact absurd h (not_inside_of_length (Nat.zero_le _))

/-- The client of a stored row gets the key of its name. -/
theorem resolves_iff {s : State} {id : Int} {t : Tenant} {file : List Char} {key : Option Bytes}
    (ht : s.tenants.get id = some t) (hfile : t.keyFile = base file) : Resolves d s id key ↔
      d.Accepts (base file) ∧ ∃ content, s.files (d.keyFile (base file)) = some content ∧ ∀ c ∈ key, content = c := by
  have hclient : ∀ path, KeyPaths.clientForTenant (d.world s) d.keysDir (String.ofList t.keyFile) = [.client path] ↔
      clean d.keysDir ++ ['/'] <+: clean (KeyPaths.resolve d.keysDir (base file)) ∧
        (s.files (d.file (KeyPaths.resolve d.keysDir (base file)))).isSome ∧
          KeyPaths.resolve d.keysDir (base file) = path := by
    intro path
    unfold KeyPaths.clientForTenant
    rw [String.toList_ofList, hfile]
    dsimp only
    rw [if_pos (KeyPaths.resolve_ne_nil (KeyPaths.base_ne_nil file))]
    by_cases hbegins : clean d.keysDir ++ ['/'] <+: clean (KeyPaths.resolve d.keysDir (base file))
    · rw [if_neg (not_not.mpr hbegins)]
      by_cases hstat : (d.world s).stat (KeyPaths.resolve d.keysDir (base file)) = true
      · rw [if_neg (not_not.mpr hstat), List.singleton_inj, KeyPaths.Use.client.injEq]
        exact ⟨fun h => ⟨hbegins, hstat, h⟩, fun h => h.2.2⟩
      · rw [if_pos hstat]
        exact iff_of_false (fun h => nomatch h) fun h => hstat h.2.1
    · rw [if_pos hbegins]
      exact iff_of_false (fun h => nomatch h) fun h => hbegins h.1
  constructor
  · rintro ⟨t', path, content, ht', hc, hinside, hcontent, hkey⟩
    obtain rfl := Option.some.inj (ht.symm.trans ht')
    obtain ⟨hbegins, -, rfl⟩ := (hclient path).mp hc
    have hname := name_of_inside hinside
    rw [resolve_base hname] at hbegins hcontent
    exact ⟨⟨hname, hbegins⟩, content, hcontent, hkey⟩
  · rintro ⟨⟨hname, hbegins⟩, content, hcontent, hkey⟩
    have hresolve := resolve_base (d := d) hname
    refine ⟨t, join d.keysDir (base file), content, ht, (hclient _).mpr ?_, (KeyPaths.inside_base_iff file).mpr hname,
      hcontent, hkey⟩
    rw [hresolve]
    exact ⟨hbegins, Option.isSome_of_mem hcontent, rfl⟩

/-! ## Forms -/

/-- The name of an uploaded key is always the base name of its file. -/
theorem stored_eq (f : UploadForm) : f.stored = base f.filename := if_neg (KeyPaths.base_ne_nil _)

theorem connects_put (a : Attempt) (name : List Char) (content : Bytes) (s : State) :
    connects d a (join d.keysDir name) (s.put (d.keyFile name) (some content)) = a.accepted content := by
  have hfile : (s.put (d.keyFile name) (some content)).files (d.file (join d.keysDir name)) = some content :=
    State.files_put_self ..
  rw [connects, hfile]
  rfl

/-- **An import of a form is atomic just when its condition holds.** -/
theorem upload_atomic_iff (a : Attempt) (f : UploadForm) (s : State) :
    Atomic d f.content s (handleTenantUpload d a f s) (handleTenantUpload d a f s).state ↔ UploadMeets d a f s := by
  unfold handleTenantUpload UploadMeets
  cases hcontent : f.content with
  | none => exact iff_of_true (kept_refl s) fun _ h => nomatch h
  | some buf =>
    simp only [Option.some.injEq, forall_eq']
    unfold writeKey WriteMeets
    by_cases hname : Name f.stored
    · simp only [hname, not_true_eq_false, if_false, forall_const]
      cases a.write with
      | refused => exact iff_of_true (kept_refl s) trivial
      | short left => exact kept_put_iff
      | done =>
        dsimp only
        rw [connects_put]
        by_cases hcomplete : f.complete = true
        · by_cases haccepted : a.accepted buf = true
          · rw [if_neg (not_not.mpr hcomplete), if_neg (not_not.mpr haccepted), createTenant]
            by_cases hcreated : a.created = true
            · rw [if_pos hcreated, if_pos ⟨hcomplete, haccepted, hcreated⟩]
              have hrow := (s.put (d.keyFile f.stored) (some buf)).tenants.get_insert_self f.tenant
              refine (and_iff_left fun r hr => absurd hr List.not_mem_nil).trans ((resolves_iff hrow (stored_eq f)).trans ?_)
              rw [← stored_eq]
              exact and_iff_left ⟨buf, State.files_put_self .., fun c hc => Option.some.inj hc⟩
            · rw [if_neg hcreated, if_neg fun h => hcreated h.2.2]
              exact kept_remove_iff
          · rw [if_neg (not_not.mpr hcomplete), if_pos haccepted, if_neg fun h => haccepted h.2.1]
            exact kept_remove_iff
        · rw [if_pos hcomplete, if_neg fun h => hcomplete h.1]
          exact kept_remove_iff
    · rw [if_pos hname]
      exact iff_of_true (kept_refl s) fun h => absurd h hname

/-! ## Configurations -/

variable {keys : List Char → Option Bytes}

/-- A key is there when the import goes on. -/
theorem placeKey_true {a : Attempt} {name : List Char} {s : State} (h : (placeKey d keys a name s).2 = true) :
    keys name = none ∧ (placeKey d keys a name s).1 = s ∨ ∃ content, keys name = some content ∧ Name name ∧
      (placeKey d keys a name s).1 = s.put (d.keyFile name) (some content) := by
  unfold placeKey writeKey at h ⊢
  cases hkey : keys name with
  | none => exact .inl ⟨rfl, rfl⟩
  | some content =>
    rw [hkey] at h
    dsimp only at h ⊢
    refine .inr ⟨content, rfl, ?_⟩
    split at h
    · cases h
    · next hdir =>
      split at h
      · cases h
      · next hname =>
        rw [if_neg hdir, if_neg hname]
        cases hw : a.write with
        | refused => rw [hw] at h; cases h
        | short left => rw [hw] at h; cases h
        | done => exact ⟨not_not.mp hname, rfl⟩

/-- Only the file of an uploaded key is written. -/
theorem placeKey_frame (a : Attempt) (name : List Char) (s : State) : (placeKey d keys a name s).1.tenants = s.tenants ∧
    ∀ path, (placeKey d keys a name s).1.files path ≠ s.files path →
      (keys name).isSome ∧ Name name ∧ path = d.keyFile name := by
  have hput : ∀ (content : Bytes) (path : List Char),
      (s.put (d.keyFile name) (some content)).files path ≠ s.files path → path = d.keyFile name :=
    fun content path h => by_contra fun hp => h (State.files_put_of_ne s hp _)
  unfold placeKey writeKey
  cases hkey : keys name with
  | none => exact ⟨rfl, fun _ h => absurd rfl h⟩
  | some content =>
    dsimp only
    split
    · exact ⟨rfl, fun _ h => absurd rfl h⟩
    · split
      · exact ⟨rfl, fun _ h => absurd rfl h⟩
      · next hname =>
        cases a.write with
        | refused => exact ⟨rfl, fun _ h => absurd rfl h⟩
        | short left => exact ⟨rfl, fun path h => ⟨rfl, not_not.mp hname, hput left path h⟩⟩
        | done => exact ⟨rfl, fun path h => ⟨rfl, not_not.mp hname, hput content path h⟩⟩

/-- An import fails with the files that its key left, or it inserts a row. -/
theorem importOne_cases (a : Attempt) (c : ParsedOciCfg) (s : State) :
    importOne d keys a c s = failed (placeKey d keys a c.keyName s).1 ∨
    (placeKey d keys a c.keyName s).2 = true ∧ importOne d keys a c s =
      ⟨{ (placeKey d keys a c.keyName s).1 with tenants := s.tenants.insert c.tenant }, some s.tenants.nextId,
        background a c.tenant⟩ := by
  have htenants := (@placeKey_frame d keys a c.keyName s).1
  unfold importOne importPlaced createTenant
  generalize placeKey d keys a c.keyName s = placed at htenants
  obtain ⟨s', ok⟩ := placed
  cases ok with
  | false => exact .inl rfl
  | true =>
    dsimp only at htenants ⊢
    split
    · exact .inl rfl
    · split
      · next hcreated =>
        split at hcreated
        · cases hcreated
        · exact .inl rfl
      · next hcreated =>
        split at hcreated
        · cases hcreated
          exact .inr ⟨rfl, by rw [htenants]⟩
        · cases hcreated

/-- The tenant in memory has no id. -/
theorem background_iff (a : Attempt) (c : ParsedOciCfg) (t : KeyTable Tenant) :
    (∀ r ∈ background a c.tenant, r.id = t.nextId) ↔ a.background = none := by
  unfold background
  cases a.background with
  | none => exact iff_of_true (fun _ hr => absurd hr List.not_mem_nil) rfl
  | some plan =>
    refine iff_of_false (fun h => ?_) fun h => nomatch h
    have hid : (0 : Int) = t.nextId := h _ (List.mem_cons_self ..)
    simp only [KeyTable.nextId] at hid
    omega

theorem importPlaced_atomic_iff {a : Attempt} {c : ParsedOciCfg} {key : Option Bytes} {s s' : State} :
    Atomic d key s (importPlaced d a c s') (importPlaced d a c s').state ↔
      if connects d a c.keyName s' ∧ a.created then
        (d.Accepts c.keyName ∧ ∃ content, s'.files (d.keyFile c.keyName) = some content ∧ ∀ k ∈ key, content = k) ∧
          a.background = none
      else Kept s s' := by
  unfold importPlaced createTenant
  by_cases hconnects : connects d a c.keyName s' = true
  · rw [if_neg (not_not.mpr hconnects)]
    by_cases hcreated : a.created = true
    · rw [if_pos hcreated, if_pos ⟨hconnects, hcreated⟩]
      exact and_congr (resolves_iff (s'.tenants.get_insert_self c.tenant) rfl) (background_iff a c s'.tenants)
    · rw [if_neg hcreated, if_neg fun h => hcreated h.2]
      exact Iff.rfl
  · rw [if_pos hconnects, if_neg fun h => hconnects h.1]
    exact Iff.rfl

theorem connects_here (a : Attempt) (name : List Char) (content : Bytes) (s : State) :
    connects d a name (s.put (d.keyFile name) (some content)) = (here d name content s).any a.accepted := by
  unfold connects here
  split
  · next he => rw [he, State.files_put_self]
  · next hne => rw [State.files_put_of_ne _ hne]

/-- **An import of a configuration is atomic just when its condition holds.** -/
theorem import_atomic_iff {a : Attempt} {c : ParsedOciCfg} {s : State} :
    Atomic d (keys c.keyName) s (importOne d keys a c s) (importOne d keys a c s).state ↔ ImportMeets d keys a c s := by
  unfold importOne placeKey ImportMeets
  cases hkey : keys c.keyName with
  | none =>
    dsimp only
    rw [importPlaced_atomic_iff]
    have hconnects : connects d a c.keyName s = (s.files (d.file c.keyName)).any a.accepted := rfl
    split
    · next h =>
      rw [hconnects] at h
      rw [forall_prop_of_true h, and_assoc]
      refine and_congr_right' (and_congr_left' ?_)
      rw [Option.ne_none_iff_exists']
      exact ⟨fun ⟨content, hcontent, _⟩ => ⟨content, hcontent⟩, fun ⟨content, hcontent⟩ => ⟨content, hcontent, nofun⟩⟩
    · next h =>
      rw [hconnects] at h
      exact iff_of_true (kept_refl s) fun h' => absurd h' h
  | some content =>
    dsimp only
    by_cases hdir : a.mkdirAll = true
    · rw [if_neg (not_not.mpr hdir)]
      unfold writeKey WriteMeets
      by_cases hname : Name c.keyName
      · rw [if_neg (not_not.mpr hname)]
        simp only [hdir, hname, forall_const]
        cases a.write with
        | refused => exact iff_of_true (kept_refl s) trivial
        | short left => exact kept_put_iff
        | done =>
          dsimp only
          rw [importPlaced_atomic_iff, connects_here]
          split
          · exact and_congr_left' (and_iff_left ⟨content, State.files_put_self .., fun k hk => Option.some.inj hk⟩)
          · exact kept_put_iff
      · rw [if_pos hname]
        exact iff_of_true (kept_refl s) fun _ h => absurd h hname
    · rw [if_pos hdir]
      exact iff_of_true (kept_refl s) fun h => absurd h hdir

/-! ## Batches -/

/-- A step keeps the rows, and writes only files of uploaded keys. -/
structure Frame (d : Dirs) (keys : List Char → Option Bytes) (s s' : State) : Prop where
  rows : ∀ id t, s.tenants.get id = some t → s'.tenants.get id = some t
  files : ∀ path, s'.files path ≠ s.files path → ∃ name, (keys name).isSome ∧ Name name ∧ path = d.keyFile name

/-- A file that has the content of its uploaded key keeps it. -/
def KeepsKeys (d : Dirs) (keys : List Char → Option Bytes) (s s' : State) : Prop :=
  ∀ name content, keys name = some content → Name name → s.files (d.keyFile name) = some content →
    s'.files (d.keyFile name) = some content

theorem KeepsKeys.refl (s : State) : KeepsKeys d keys s s := fun _ _ _ _ hcontent => hcontent

theorem KeepsKeys.trans {s₁ s₂ s₃ : State} (h₁ : KeepsKeys d keys s₁ s₂) (h₂ : KeepsKeys d keys s₂ s₃) :
    KeepsKeys d keys s₁ s₃ := by
  intro name content hkey hname hcontent
  exact h₂ name content hkey hname (h₁ name content hkey hname hcontent)

theorem Frame.refl (s : State) : Frame d keys s s := ⟨fun _ _ h => h, fun _ h => absurd rfl h⟩

theorem Frame.trans {s₁ s₂ s₃ : State} (h₁ : Frame d keys s₁ s₂) (h₂ : Frame d keys s₂ s₃) : Frame d keys s₁ s₃ :=
  ⟨fun id t h => h₂.rows id t (h₁.rows id t h), fun path h => by
    by_cases he : s₂.files path = s₁.files path
    · exact h₂.files path fun h' => h (h'.trans he)
    · exact h₁.files path he⟩

theorem frame_importOne (a : Attempt) (c : ParsedOciCfg) (s : State) : Frame d keys s (importOne d keys a c s).state := by
  obtain ⟨htenants, hfiles⟩ := @placeKey_frame d keys a c.keyName s
  have hwritten : ∀ path, (placeKey d keys a c.keyName s).1.files path ≠ s.files path →
      ∃ name, (keys name).isSome ∧ Name name ∧ path = d.keyFile name := fun path h => ⟨_, hfiles path h⟩
  rcases @importOne_cases d keys a c s with h | ⟨-, h⟩
  · rw [h]
    exact ⟨fun id t ht => htenants ▸ ht, hwritten⟩
  · rw [h]
    exact ⟨fun id t ht => s.tenants.get_insert_of_some _ ht, hwritten⟩

/-- An import that is atomic keeps the keys, whether it fails or writes its own. -/
theorem keepsKeys_importOne {a : Attempt} {c : ParsedOciCfg} {s : State} (hmeets : ImportMeets d keys a c s) :
    KeepsKeys d keys s (importOne d keys a c s).state := by
  intro name content hkey hname hcontent
  have hatomic := import_atomic_iff.mpr hmeets
  rcases @importOne_cases d keys a c s with h | ⟨hplaced, h⟩
  · rw [h] at hatomic ⊢
    exact hatomic.files _ _ hcontent
  · rw [h]
    change (placeKey d keys a c.keyName s).1.files _ = _
    rcases placeKey_true hplaced with ⟨-, hsame⟩ | ⟨content', hkey', hname', hput⟩
    · rw [hsame]
      exact hcontent
    · rw [hput]
      by_cases hp : d.keyFile name = d.keyFile c.keyName
      · have he : name = c.keyName := absolute_join_inj hname hname' hp
        rw [hp, State.files_put_self, ← hkey', ← he, hkey]
      · rwa [State.files_put_of_ne _ hp]

theorem frame_outcome (st : Step) : Frame d keys st.before (st.outcome d keys).state := by
  unfold Step.outcome
  split
  · exact Frame.refl _
  · split
    · exact frame_importOne _ _ _
    · exact Frame.refl _

theorem step_atomic_iff (st : Step) :
    Atomic d (st.key keys) st.before (st.outcome d keys) (st.outcome d keys).state ↔ st.Meets d keys := by
  obtain ⟨s, seen, item, a⟩ := st
  cases item with
  | unread filename => exact iff_of_true (kept_refl s) trivial
  | config c =>
    unfold Step.outcome Step.key Step.Meets
    dsimp only
    by_cases hfresh : (Item.config c).fresh seen = true
    · rw [if_pos hfresh, forall_prop_of_true hfresh]
      exact import_atomic_iff
    · rw [if_neg hfresh]
      exact iff_of_true (kept_refl s) fun h => absurd h hfresh

theorem keepsKeys_outcome {st : Step} (h : st.Meets d keys) : KeepsKeys d keys st.before (st.outcome d keys).state := by
  obtain ⟨s, seen, item, a⟩ := st
  cases item with
  | unread filename => exact .refl s
  | config c =>
    unfold Step.outcome
    dsimp only
    split
    · next hfresh => exact keepsKeys_importOne (h hfresh)
    · exact .refl s

/-- What a step that succeeds has placed. -/
theorem step_row {st : Step} {id : Int} (h : (st.outcome d keys).row = some id) : ∃ t file,
    (st.outcome d keys).state.tenants.get id = some t ∧ t.keyFile = base file ∧ st.key keys = keys (base file) ∧
      ∀ content, keys (base file) = some content →
        Name (base file) ∧ (st.outcome d keys).state.files (d.keyFile (base file)) = some content := by
  obtain ⟨s, seen, item, a⟩ := st
  cases item with
  | unread filename => cases h
  | config c =>
    unfold Step.outcome at h ⊢
    dsimp only at h ⊢
    split at h
    · next hfresh =>
      rw [if_pos hfresh]
      rcases @importOne_cases d keys a c s with hcase | ⟨hplaced, hcase⟩
      · rw [hcase] at h
        cases h
      · rw [hcase] at h ⊢
        cases h
        refine ⟨c.tenant, c.keyFile, s.tenants.get_insert_self _, rfl, rfl, fun content hkey => ?_⟩
        rcases placeKey_true hplaced with ⟨hnone, -⟩ | ⟨content', hkey', hname, hput⟩
        · exact nomatch hkey.symm.trans hnone
        · obtain rfl := Option.some.inj (hkey.symm.trans hkey')
          refine ⟨hname, ?_⟩
          change (placeKey d keys a c.keyName s).1.files _ = _
          rw [hput]
          exact State.files_put_self ..
    · cases h

/-- What comes after a step, and keeps the rows and the keys, leaves it as atomic as it was. -/
theorem atomic_last_iff {st : Step} {last : State} (hframe : Frame d keys (st.outcome d keys).state last)
    (hkeeps : KeepsKeys d keys (st.outcome d keys).state last) :
    Atomic d (st.key keys) st.before (st.outcome d keys) last ↔
      Atomic d (st.key keys) st.before (st.outcome d keys) (st.outcome d keys).state := by
  unfold Atomic
  cases hrow : (st.outcome d keys).row with
  | none => exact Iff.rfl
  | some id =>
    obtain ⟨t, file, ht, hfile, hkey, hplaced⟩ := step_row hrow
    dsimp only
    rw [resolves_iff (hframe.rows id t ht) hfile, resolves_iff ht hfile, hkey]
    refine and_congr_left' (and_congr_right fun haccepts => ?_)
    cases hcontent : keys (base file) with
    | none =>
      -- no import of the batch writes the file of a key that was not uploaded
      have hsame : last.files (d.keyFile (base file)) = (st.outcome d keys).state.files (d.keyFile (base file)) := by
        by_contra hne
        obtain ⟨name, hsome, hname, hp⟩ := hframe.files _ hne
        rw [← absolute_join_inj haccepts.1 hname hp, hcontent] at hsome
        cases hsome
      rw [hsame]
    | some content =>
      obtain ⟨hname, hwritten⟩ := hplaced content hcontent
      have hlast := hkeeps _ content hcontent hname hwritten
      exact iff_of_true ⟨content, hlast, fun k hk => Option.some.inj hk⟩
        ⟨content, hwritten, fun k hk => Option.some.inj hk⟩

theorem steps_frame (l : List (Item × Attempt)) (s : State) (seen : List (List Char)) :
    Frame d keys s (steps d keys s seen l).2 ∧
      ((∀ st ∈ (steps d keys s seen l).1, st.Meets d keys) → KeepsKeys d keys s (steps d keys s seen l).2) := by
  induction l generalizing s seen with
  | nil => exact ⟨Frame.refl s, fun _ => .refl s⟩
  | cons x l ih =>
    obtain ⟨item, a⟩ := x
    obtain ⟨hframe, hkeeps⟩ := ih ((Step.mk s seen item a).outcome d keys).state (Step.mk s seen item a).seenAfter
    refine ⟨(frame_outcome (Step.mk s seen item a)).trans hframe, fun h => ?_⟩
    obtain ⟨hhead, hrest⟩ := List.forall_mem_cons.mp h
    exact (keepsKeys_outcome hhead).trans (hkeeps hrest)

theorem steps_atomic_iff (l : List (Item × Attempt)) (s : State) (seen : List (List Char)) :
    BatchAtomic d keys (steps d keys s seen l) ↔ ∀ st ∈ (steps d keys s seen l).1, st.Meets d keys := by
  induction l generalizing s seen with
  | nil => exact iff_of_true (fun _ h => absurd h List.not_mem_nil) fun _ h => absurd h List.not_mem_nil
  | cons x l ih =>
    obtain ⟨item, a⟩ := x
    have ih := ih ((Step.mk s seen item a).outcome d keys).state (Step.mk s seen item a).seenAfter
    have hrest := @steps_frame d keys l ((Step.mk s seen item a).outcome d keys).state
      (Step.mk s seen item a).seenAfter
    unfold BatchAtomic at ih ⊢
    rw [steps]
    dsimp only
    rw [List.forall_mem_cons, List.forall_mem_cons, ih]
    refine and_congr_left fun hmeets => ?_
    exact (atomic_last_iff hrest.1 (hrest.2 hmeets)).trans (step_atomic_iff _)

/-- **Imports are atomic just when their conditions hold**, a form by itself and all configurations of a batch. -/
theorem imports_atomic_iff (d : Dirs) :
    (∀ a f s, Atomic d f.content s (handleTenantUpload d a f s) (handleTenantUpload d a f s).state ↔
      UploadMeets d a f s) ∧
    ∀ headers files attempts s,
      BatchAtomic d (keyFiles headers) (handleTenantUploadBatch d headers files attempts s) ↔
        ∀ st ∈ (handleTenantUploadBatch d headers files attempts s).1, st.Meets d (keyFiles headers) :=
  ⟨fun a f s => upload_atomic_iff a f s, fun _ files attempts s =>
    steps_atomic_iff ((items files).zipIdx.map fun (item, n) => (item, attempts n)) s []⟩

/-! ## A form without a name -/

def smallDirs : Dirs := ⟨['/'], ['/', 'k']⟩

def oneKey : State := ⟨fun path => if path = ['/', 'k', '/', 'a'] then some [1] else none, .empty⟩

def easy : Attempt := ⟨true, .done, fun _ => true, true, true, none⟩

def unnamed : UploadForm := ⟨['a'], some [2], [], ['t'], ['u'], ['f'], ['r'], 0⟩

/-- The key that was there is overwritten, and deleted when the form is refused. -/
theorem refused_form_deletes_key : oneKey.files ['/', 'k', '/', 'a'] = some [1] ∧
    (handleTenantUpload smallDirs easy unnamed oneKey).row = none ∧
    (handleTenantUpload smallDirs easy unnamed oneKey).state.files ['/', 'k', '/', 'a'] = none ∧
    ¬ Atomic smallDirs unnamed.content oneKey (handleTenantUpload smallDirs easy unnamed oneKey)
      (handleTenantUpload smallDirs easy unnamed oneKey).state := by
  have hrow : (handleTenantUpload smallDirs easy unnamed oneKey).row = none := by decide
  have hgone : (handleTenantUpload smallDirs easy unnamed oneKey).state.files ['/', 'k', '/', 'a'] = none := by decide
  refine ⟨rfl, hrow, hgone, fun h => ?_⟩
  unfold Atomic at h
  rw [hrow] at h
  have hkept := h.files ['/', 'k', '/', 'a'] [1] rfl
  rw [hgone] at hkept
  cases hkept

end OciHelper.Oci.Uploads
