import OciHelper.Backup.Archive
import OciHelper.Lib.Path
import Mathlib.Data.List.TakeWhile

/-!
# Where key files are

* `Use` : a path that is passed to the client constructor, written as a key file or deleted;
* `clientForTenant`, `createTenant`, `handleTenantUpload`, ... : the uses of each entry point, in order;
* `Request`, `uses` : all of them;
* `Confined` : the condition under which every use is inside the key directory.

A write is one that opens the file; a directory cannot be opened.
-/

namespace OciHelper.Oci.KeyPaths
open Backup (base)
open Path

inductive Use
  | client (path : List Char)
  | write (path : List Char)
  | remove (path : List Char)
  deriving DecidableEq

def Use.path : Use → List Char
  | .client path | .write path | .remove path => path

/-- Answers of the file system: what can be opened for writing, what exists, and whether the key directory can be
made. -/
structure World where
  opens : List Char → Bool
  stat : List Char → Bool
  mkdirAll : Bool

variable (w : World) (keysDir : List Char)

/-! ## Tenants -/

/-- A relative path is one in the key directory. -/
def resolve (keyFile : List Char) : List Char :=
  if keyFile ≠ [] ∧ ¬ isAbs keyFile then join keysDir keyFile else keyFile

/-- `clientForTenant`, on the key file of a stored row. -/
def clientForTenant (keyFile : String) : List Use :=
  let keyPath := resolve keysDir keyFile.toList
  if keyPath ≠ [] then
    if ¬ clean keysDir ++ ['/'] <+: clean keyPath then []
    else if ¬ w.stat keyPath then []
    else [.client keyPath]
  else [.client keyPath]

/-- The fields of `db.Tenant` that `POST /api/tenants` looks at. -/
structure TenantBody where
  name : String
  tenancyOCID : String
  region : String
  keyFile : String

/-- `POST /api/tenants` -/
def createTenant (t : TenantBody) : List Use :=
  if t.name = "" ∨ t.tenancyOCID = "" ∨ t.region = "" ∨ t.keyFile = "" then []
  else [.client (if ¬ isAbs t.keyFile.toList then join keysDir t.keyFile.toList else t.keyFile.toList)]

/-- A multipart form with one key; `accepted` says that the credentials are valid and the tenant is stored. -/
structure UploadForm where
  filename : String
  name : String
  tenancyOCID : String
  userOCID : String
  fingerprint : String
  region : String
  accepted : Bool
  now : Nat

def UploadForm.complete (f : UploadForm) : Bool :=
  f.name ≠ "" ∧ f.tenancyOCID ≠ "" ∧ f.userOCID ≠ "" ∧ f.fingerprint ≠ "" ∧ f.region ≠ ""

/-- The name under which an uploaded key is kept. -/
def UploadForm.stored (f : UploadForm) : List Char :=
  if base f.filename.toList = [] then ("upload_" ++ toString f.now ++ ".pem").toList else base f.filename.toList

def handleTenantUpload (f : UploadForm) : List Use :=
  let keyPath := join keysDir f.stored
  if ¬ w.opens keyPath then []
  else if ¬ f.complete then [.write keyPath, .remove keyPath]
  else if ¬ f.accepted then [.write keyPath, .client keyPath, .remove keyPath]
  else [.write keyPath, .client keyPath]

/-- `parsedOciCfg`, with what becomes of its credentials. -/
structure OciCfg where
  name : String
  userOCID : String
  tenancyOCID : String
  fingerprint : String
  region : String
  keyFile : String
  accepted : Bool

def OciCfg.complete (c : OciCfg) : Bool :=
  c.name ≠ "" ∧ c.userOCID ≠ "" ∧ c.tenancyOCID ≠ "" ∧ c.fingerprint ≠ "" ∧ c.region ≠ "" ∧ c.keyFile ≠ ""

/-- The key of the configuration was not uploaded, or its file is written. -/
def OciCfg.keyWritten (uploaded : List String) (c : OciCfg) : Bool :=
  (¬ uploaded.any fun f => base f.toList = base c.keyFile.toList) ∨
    (w.mkdirAll ∧ w.opens (join keysDir (base c.keyFile.toList)))

/-- One configuration; the constructor gets the bare name. -/
def importOne (uploaded : List String) (c : OciCfg) : List Use :=
  let keyName := base c.keyFile.toList
  let rest : List Use :=
    .client keyName :: if c.accepted then clientForTenant w keysDir (String.ofList keyName) else []
  if ¬ c.keyWritten w keysDir uploaded then []
  else if uploaded.any fun f => base f.toList = keyName then .write (join keysDir keyName) :: rest
  else rest

/-- `handleTenantUploadBatch`, on the parsed configurations. -/
def handleTenantUploadBatch (uploaded : List String) : (seen : List String) → List OciCfg → List Use
  | _, [] => []
  | seen, c :: cs =>
    if ¬ c.complete ∨ c.name ∈ seen then handleTenantUploadBatch uploaded seen cs
    else importOne w keysDir uploaded c ++ handleTenantUploadBatch uploaded (c.name :: seen) cs

/-! ## Key files -/

/-- The loop at the end of `restoreData`. -/
def writeKeyFiles : List String → List Use
  | [] => []
  | name :: names =>
    if name = "" then writeKeyFiles names
    else if base name.toList ≠ name.toList then []
    else if ¬ w.opens (join keysDir name.toList) then []
    else .write (join keysDir name.toList) :: writeKeyFiles names

def restoreKeyFiles (names : List String) : List Use :=
  if ¬ w.mkdirAll then [] else writeKeyFiles w keysDir names

def isPem (filename : String) : Bool := ".pem".toList <:+ filename.toList.map Char.toLower

/-- `POST /api/keys` -/
def handleKeys : List String → List Use
  | [] => []
  | filename :: filenames =>
    let dst := join keysDir (base filename.toList)
    if ¬ isPem filename then []
    else if ¬ w.opens dst then []
    else .write dst :: handleKeys filenames

/-- What follows `/api/keys/` in a path that the router serves: it redirects empty elements, `.` and `..`. -/
structure Served where
  elems : List (List Char)
  named : ∀ e ∈ elems, Name e
  slash : Bool

def Served.text (s : Served) : List Char :=
  ['/'].intercalate s.elems ++ if s.elems ≠ [] ∧ s.slash then ['/'] else []

def trimSlash (s : List Char) : List Char := if s.getLast? = some '/' then s.dropLast else s

/-- `DELETE /api/keys/{name}` -/
def handleKeyByID (rest : List Char) : List Use :=
  let name := base (trimSlash rest)
  if name = [] ∨ name = ['.'] then [] else [.remove (join keysDir name)]

/-! ## Entry points -/

inductive Request
  | client (keyFile : String)
  | createTenant (t : TenantBody)
  | upload (f : UploadForm)
  | uploadBatch (uploaded : List String) (cfgs : List OciCfg)
  | restore (names : List String)
  | uploadKeys (filenames : List String)
  | deleteKey (rest : Served)

def uses : Request → List Use
  | .client keyFile => clientForTenant w keysDir keyFile
  | .createTenant t => createTenant keysDir t
  | .upload f => handleTenantUpload w keysDir f
  | .uploadBatch uploaded cfgs => handleTenantUploadBatch w keysDir uploaded [] cfgs
  | .restore names => restoreKeyFiles w keysDir names
  | .uploadKeys filenames => handleKeys w keysDir filenames
  | .deleteKey rest => handleKeyByID keysDir rest.text

/-! ## The condition -/

/-- A stored row names a key file; the test of its prefix means little for a directory that is only steps upwards. -/
def Guarded (keyFile : String) : Prop :=
  keyFile ≠ "" ∧
    (Upward keysDir ∧ clean keysDir ++ ['/'] <+: clean (resolve keysDir keyFile.toList) ∧
        w.stat (resolve keysDir keyFile.toList) →
      Inside keysDir (resolve keysDir keyFile.toList))

/-- The configurations that a batch goes on with: complete, and the first of their name. -/
def fresh : (seen : List String) → List OciCfg → List OciCfg
  | _, [] => []
  | seen, c :: cs => if ¬ c.complete ∨ c.name ∈ seen then fresh seen cs else c :: fresh (c.name :: seen) cs

/-- A restored file that does not stop the restore. -/
def restored (name : String) : Bool :=
  name = "" ∨ (base name.toList = name.toList ∧ w.opens (join keysDir name.toList))

theorem base_single (s : List Char) : '/' ∉ base s ∨ base s = ['/'] := by
  unfold base
  split
  · exact Or.inl (by decide)
  · dsimp only
    split
    · exact Or.inr rfl
    · left
      intro hm
      have := List.mem_takeWhile_imp (List.mem_reverse.mp hm)
      simp at this

theorem base_ne_nil (s : List Char) : base s ≠ [] := by
  unfold base
  split
  · exact List.cons_ne_nil _ _
  · dsimp only
    split
    · exact List.cons_ne_nil _ _
    · assumption

/-! ## Entry points one by one -/

variable {w keysDir}

theorem inside_base_iff (s : List Char) : Inside keysDir (join keysDir (base s)) ↔ Name (base s) :=
  inside_join_iff keysDir (base_single s)

theorem resolve_ne_nil {keyFile : List Char} (h : keyFile ≠ []) : resolve keysDir keyFile ≠ [] := by
  unfold resolve join
  split
  · split
    · exact render_ne_nil _
    · exact render_ne_nil _
  · exact h

theorem stored_eq (f : UploadForm) : f.stored = base f.filename.toList := if_neg (base_ne_nil _)

end OciHelper.Oci.KeyPaths
