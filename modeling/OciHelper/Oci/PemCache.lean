import Mathlib.Logic.Function.Basic
import OciHelper.Lib.Pool
import OciHelper.Lib.StepRun

/-!
# The cache of the private keys

* `Load` : a call of `loadPEM`, with the contents that the key file has had since it began;
* `step` : concurrent loads, one lock or one look at the file at a time, with key files written and removed at any time;
* `Current` : what a load returns is a content that the file had during the load;
* `Quiet` : no file gets another content between the read and the second look of a load;
* `rotation_detected_iff` : these are the rotations that are detected.
-/

namespace OciHelper.Oci.PemCache
open StepRun

abbrev KeyFile := List Char

/-- A key file, or an entry of the cache. -/
structure File where
  data : List UInt8
  modTime : Int
  deriving DecidableEq, Repr

/-- `checking`, `waiting`, `locked`, `reading` and `stamping` come before the first look at the file, the lock, the look
under the lock, the read and the look after it. -/
inductive Phase
  | arrived
  | checking (entry : File)
  | waiting
  | locked
  | reading
  | stamping (data : List UInt8)
  | finished (result : Option (List UInt8))
  deriving DecidableEq, Repr

/-- `seen` is for the statements only. -/
structure Load where
  keyFile : KeyFile
  phase : Phase := .arrived
  seen : List (List UInt8)
  deriving DecidableEq, Repr

def Phase.isFinished : Phase → Bool
  | .finished _ => true
  | _ => false

def Load.see (keyFile : KeyFile) (data : List UInt8) (l : Load) : Load :=
  if l.keyFile = keyFile ∧ ¬ l.phase.isFinished then { l with seen := data :: l.seen } else l

/-- `versions` are the files that there have been, for the statements only. -/
structure State where
  files : KeyFile → Option File
  versions : KeyFile → List File
  cache : KeyFile → Option File := fun _ => none
  holder : Option Nat := none
  loads : Pool Load := {}

def start (files : KeyFile → Option File) : State := { files, versions := fun p => (files p).toList }

/-- `ok` says whether the look at the file or its read succeeds. -/
inductive Event
  | load (keyFile : KeyFile)
  | turn (n : Nat) (ok : Bool)
  | write (keyFile : KeyFile) (file : File)
  | remove (keyFile : KeyFile)

def State.put (s : State) (n : Nat) (l : Load) (phase : Phase) : State :=
  { s with loads := s.loads.put n { l with phase } }

def State.unlock (s : State) : State := { s with holder := none }

/-- `os.Stat` and `os.ReadFile` -/
def State.look (s : State) (ok : Bool) (keyFile : KeyFile) : Option File := if ok then s.files keyFile else none

/-- The entry is that of the file as it is. -/
def hit (entry file : Option File) : Option (List UInt8) :=
  match entry, file with
  | some entry, some file => if file.modTime = entry.modTime then some entry.data else none
  | _, _ => none

/-- The next step of a load. -/
def turn (s : State) (n : Nat) (ok : Bool) (l : Load) : Option State :=
  match l.phase with
  | .arrived =>
    if s.holder = none then
      some (s.put n l ((s.cache l.keyFile).elim .waiting .checking))
    else none
  | .checking entry =>
    some (s.put n l ((hit (some entry) (s.look ok l.keyFile)).elim .waiting fun data => .finished (some data)))
  | .waiting => if s.holder = none then some ({ s with holder := some n }.put n l .locked) else none
  | .locked =>
    match hit (s.cache l.keyFile) (s.look ok l.keyFile) with
    | some data => some (s.unlock.put n l (.finished (some data)))
    | none => some (s.put n l .reading)
  | .reading =>
    match s.look ok l.keyFile with
    | some file => some (s.put n l (.stamping file.data))
    | none => some (s.unlock.put n l (.finished none))
  | .stamping data =>
    match s.look ok l.keyFile with
    | some file =>
      some ({ s.unlock with cache := Function.update s.cache l.keyFile (some ⟨data, file.modTime⟩) }.put n l
        (.finished (some data)))
    | none => some (s.unlock.put n l (.finished none))
  | .finished _ => none

def step : Step State Event
  | s, .load keyFile =>
    some { s with loads := s.loads.join { keyFile, seen := ((s.files keyFile).map File.data).toList } }
  | s, .turn n ok => (s.loads.get? n).bind (turn s n ok)
  | s, .write keyFile file =>
    some
      { s with
        files := Function.update s.files keyFile (some file)
        versions := Function.update s.versions keyFile (file :: s.versions keyFile)
        loads := ⟨s.loads.workers.map (Load.see keyFile file.data)⟩ }
  | s, .remove keyFile => some { s with files := Function.update s.files keyFile none }

/-! ## The property -/

def Current (s : State) : Prop :=
  ∀ n l data, s.loads.get? n = some l → l.phase = .finished (some data) → data ∈ l.seen

/-- A file never gets a time that it had before. -/
def Fresh (s : State) : Event → Prop
  | .write keyFile file => ∀ f ∈ s.versions keyFile, f.modTime ≠ file.modTime
  | _ => True

def Quiet (s : State) : Event → Prop
  | .write keyFile file =>
    ∀ n l data, s.loads.get? n = some l → l.keyFile = keyFile → l.phase = .stamping data → data = file.data
  | _ => True

/-! ## The invariant -/

/-- What a load knows. -/
def Phase.Holds (s : State) (n : Nat) (l : Load) : Phase → Prop
  | .arrived => True
  | .checking entry => entry ∈ s.versions l.keyFile
  | .waiting => True
  | .locked => s.holder = some n
  | .reading => s.holder = some n
  | .stamping data => s.holder = some n ∧ data ∈ l.seen ∧ ∀ f, s.files l.keyFile = some f → f.data = data
  | .finished result => ∀ data, result = some data → data ∈ l.seen

structure Load.Inv (s : State) (n : Nat) (l : Load) : Prop where
  phase : l.phase.Holds s n l
  seen : l.phase.isFinished = false → ∀ f, s.files l.keyFile = some f → f.data ∈ l.seen

structure Inv (s : State) : Prop where
  current : ∀ p f, s.files p = some f → f ∈ s.versions p
  distinct : ∀ p, ∀ f ∈ s.versions p, ∀ g ∈ s.versions p, f.modTime = g.modTime → f = g
  cached : ∀ p e, s.cache p = some e → e ∈ s.versions p
  loads : ∀ n l, s.loads.get? n = some l → l.Inv s n

theorem inv_start (files : KeyFile → Option File) : Inv (start files) where
  current _ _ h := Option.mem_toList.mpr h
  distinct _ _ hf _ hg _ := Option.some.inj ((Option.mem_toList.mp hf).symm.trans (Option.mem_toList.mp hg))
  cached _ _ h := nomatch h
  loads _ _ h := nomatch h

theorem Inv.current_of_inv {s : State} (h : Inv s) : Current s := by
  intro n l data hget hphase
  have hholds := (h.loads n l hget).phase
  rw [hphase] at hholds
  exact hholds data rfl

section
variable {s s' : State} {n : Nat} {l : Load}

theorem look_eq_some {ok : Bool} {p : KeyFile} {f : File} (h : s.look ok p = some f) : s.files p = some f := by
  unfold State.look at h
  split at h
  · exact h
  · cases h

/-- A hit is the content of the file. -/
theorem Inv.hit_data (h : Inv s) {p : KeyFile} {entry : Option File} {ok : Bool} {data : List UInt8}
    (hentry : ∀ e, entry = some e → e ∈ s.versions p) (hhit : hit entry (s.look ok p) = some data) :
    ∃ f, s.files p = some f ∧ f.data = data := by
  unfold hit at hhit
  split at hhit
  · next e f hlook =>
    split at hhit
    · next htime =>
      cases hhit
      have hf := look_eq_some hlook
      exact ⟨f, hf, congrArg File.data (h.distinct p f (h.current p f hf) e (hentry e rfl) htime)⟩
    · cases hhit
  · cases hhit

/-- The load has moved on; who holds the lock changes only for it. -/
theorem Inv.put (h : Inv s) (hget : s.loads.get? n = some l) {t : State} {phase : Phase} (hfiles : t.files = s.files)
    (hversions : t.versions = s.versions) (hcached : ∀ p e, t.cache p = some e → e ∈ s.versions p)
    (hloads : t.loads = s.loads) (hholder : ∀ m, m ≠ n → s.holder = some m → t.holder = some m)
    (hphase : phase.Holds t n l) (hlive : phase.isFinished = true ∨ l.phase.isFinished = false) :
    Inv (t.put n l phase) where
  current p f hf := by
    change f ∈ t.versions p
    rw [hversions]
    exact h.current p f (hfiles ▸ hf)
  distinct p f hf g hg := by
    change f ∈ t.versions p at hf
    change g ∈ t.versions p at hg
    rw [hversions] at hf hg
    exact h.distinct p f hf g hg
  cached p e he := by
    change e ∈ t.versions p
    rw [hversions]
    exact hcached p e he
  loads m k hk := by
    change (t.loads.put n { l with phase }).get? m = some k at hk
    rw [hloads, Pool.get?_put _ hget] at hk
    split at hk
    · next hm =>
      subst hm
      cases hk
      refine ⟨?_, fun hfin f hf => ?_⟩
      · cases phase <;> exact hphase
      · obtain hfinished | hnot := hlive
        · exact absurd (hfinished.symm.trans hfin) (by decide)
        · exact (h.loads m l hget).seen hnot f (hfiles ▸ hf)
    · next hm =>
      obtain ⟨hown, hseen⟩ := h.loads m k hk
      refine ⟨?_, fun hfin f hf => hseen hfin f (hfiles ▸ hf)⟩
      cases hp : k.phase with
      | arrived | waiting => trivial
      | checking entry =>
        rw [hp] at hown
        change entry ∈ t.versions k.keyFile
        rw [hversions]
        exact hown
      | locked | reading =>
        rw [hp] at hown
        exact hholder m hm hown
      | stamping data =>
        rw [hp] at hown
        exact ⟨hholder m hm hown.1, hown.2.1, fun f hf => hown.2.2 f (hfiles ▸ hf)⟩
      | finished result =>
        rw [hp] at hown
        exact hown

/-- One step of a load. -/
theorem inv_turn (h : Inv s) (hget : s.loads.get? n = some l) {ok : Bool} (ht : turn s n ok l = some s') : Inv s' := by
  obtain ⟨hown, hseen⟩ := h.loads n l hget
  unfold turn at ht
  cases hp : l.phase with
  | arrived =>
    simp only [hp] at ht
    split at ht
    · cases ht
      refine h.put hget rfl rfl h.cached rfl (fun _ _ hm => hm) ?_ (.inr (hp ▸ rfl))
      cases hc : s.cache l.keyFile with
      | none => trivial
      | some entry => exact h.cached _ _ hc
    · cases ht
  | checking entry =>
    simp only [hp] at ht
    cases ht
    refine h.put hget rfl rfl h.cached rfl (fun _ _ hm => hm) ?_ (.inr (hp ▸ rfl))
    cases hhit : hit (some entry) (s.look ok l.keyFile) with
    | none => trivial
    | some data =>
      rw [hp] at hown
      obtain ⟨f, hf, rfl⟩ := h.hit_data (fun e he => Option.some.inj he ▸ hown) hhit
      intro data hdata
      exact Option.some.inj hdata ▸ hseen (hp ▸ rfl) f hf
  | waiting =>
    simp only [hp] at ht
    split at ht
    · next hnone =>
      cases ht
      refine h.put (t := { s with holder := some n }) hget rfl rfl h.cached rfl (fun m _ hm => ?_) rfl (.inr (hp ▸ rfl))
      rw [hnone] at hm
      cases hm
    · cases ht
  | locked =>
    rw [hp] at hown
    have hother : ∀ m, m ≠ n → s.holder = some m → s.unlock.holder = some m :=
      fun m hm hheld => absurd (Option.some.inj (hheld.symm.trans hown)) hm
    simp only [hp] at ht
    split at ht
    · next data hhit =>
      cases ht
      obtain ⟨f, hf, rfl⟩ := h.hit_data (fun e he => h.cached _ _ he) hhit
      refine h.put hget rfl rfl h.cached rfl hother (fun data hdata => ?_) (.inl rfl)
      exact Option.some.inj hdata ▸ hseen (hp ▸ rfl) f hf
    · cases ht
      exact h.put hget rfl rfl h.cached rfl (fun _ _ hm => hm) hown (.inr (hp ▸ rfl))
  | reading =>
    rw [hp] at hown
    have hother : ∀ m, m ≠ n → s.holder = some m → s.unlock.holder = some m :=
      fun m hm hheld => absurd (Option.some.inj (hheld.symm.trans hown)) hm
    simp only [hp] at ht
    split at ht
    · next file hlook =>
      cases ht
      have hf := look_eq_some hlook
      refine h.put hget rfl rfl h.cached rfl (fun _ _ hm => hm) ⟨hown, hseen (hp ▸ rfl) file hf, fun g hg => ?_⟩
        (.inr (hp ▸ rfl))
      exact congrArg File.data (Option.some.inj (hg.symm.trans hf))
    · cases ht
      exact h.put hget rfl rfl h.cached rfl hother nofun (.inl rfl)
  | stamping data =>
    rw [hp] at hown
    obtain ⟨hheld, hdata, hsame⟩ := hown
    have hother : ∀ m, m ≠ n → s.holder = some m → s.unlock.holder = some m :=
      fun m hm hm' => absurd (Option.some.inj (hm'.symm.trans hheld)) hm
    simp only [hp] at ht
    split at ht
    · next file hlook =>
      cases ht
      have hf := look_eq_some hlook
      refine h.put (t := { s.unlock with cache := Function.update s.cache l.keyFile (some ⟨data, file.modTime⟩) })
        hget rfl rfl (fun p e he => ?_) rfl hother (fun d hd => Option.some.inj hd ▸ hdata) (.inl rfl)
      -- the entry that is stored is the file as it is
      change Function.update s.cache l.keyFile (some ⟨data, file.modTime⟩) p = some e at he
      by_cases hkey : p = l.keyFile
      · subst hkey
        rw [Function.update_self] at he
        obtain rfl := Option.some.inj he
        have hfile := hsame file hf
        subst hfile
        exact h.current _ file hf
      · rw [Function.update_of_ne hkey] at he
        exact h.cached p e he
    · cases ht
      exact h.put hget rfl rfl h.cached rfl hother nofun (.inl rfl)
  | finished result =>
    simp only [hp] at ht
    cases ht

theorem see_phase (p : KeyFile) (data : List UInt8) (l : Load) :
    (l.see p data).phase = l.phase ∧ (l.see p data).keyFile = l.keyFile ∧ l.seen ⊆ (l.see p data).seen := by
  unfold Load.see
  split
  · exact ⟨rfl, rfl, List.subset_cons_self _ _⟩
  · exact ⟨rfl, rfl, List.Subset.refl _⟩

/-- A file is written. -/
theorem inv_write (h : Inv s) {p : KeyFile} {file : File} (hfresh : Fresh s (.write p file))
    (hquiet : Quiet s (.write p file)) (hs : step s (.write p file) = some s') : Inv s' := by
  cases hs
  refine ⟨fun q f hf => ?_, fun q f hf g hg htime => ?_, fun q e he => ?_, fun n k hk => ?_⟩
  · change Function.update s.files p (some file) q = some f at hf
    change f ∈ Function.update s.versions p (file :: s.versions p) q
    by_cases hq : q = p
    · subst hq
      rw [Function.update_self] at hf ⊢
      exact Option.some.inj hf ▸ List.mem_cons_self
    · rw [Function.update_of_ne hq] at hf ⊢
      exact h.current q f hf
  · change f ∈ Function.update s.versions p (file :: s.versions p) q at hf
    change g ∈ Function.update s.versions p (file :: s.versions p) q at hg
    by_cases hq : q = p
    · subst hq
      rw [Function.update_self] at hf hg
      obtain rfl | hf := List.mem_cons.mp hf
      · obtain rfl | hg := List.mem_cons.mp hg
        · rfl
        · exact absurd htime.symm (hfresh g hg)
      · obtain heq | hg := List.mem_cons.mp hg
        · exact absurd (heq ▸ htime) (hfresh f hf)
        · exact h.distinct q f hf g hg htime
    · rw [Function.update_of_ne hq] at hf hg
      exact h.distinct q f hf g hg htime
  · change e ∈ Function.update s.versions p (file :: s.versions p) q
    by_cases hq : q = p
    · subst hq
      rw [Function.update_self]
      exact List.mem_cons_of_mem _ (h.cached q e he)
    · rw [Function.update_of_ne hq]
      exact h.cached q e he
  · change (s.loads.workers.map (Load.see p file.data))[n]? = some k at hk
    rw [List.getElem?_map] at hk
    obtain ⟨l, hget, rfl⟩ := Option.map_eq_some_iff.mp hk
    obtain ⟨hphase, hkey, hsub⟩ := see_phase p file.data l
    obtain ⟨hown, hseen⟩ := h.loads n l hget
    refine ⟨?_, fun hfin f hf => ?_⟩
    · rw [hphase]
      cases hp : l.phase with
      | arrived | waiting => trivial
      | checking entry =>
        rw [hp] at hown
        change entry ∈ Function.update s.versions p (file :: s.versions p) (l.see p file.data).keyFile
        rw [hkey]
        by_cases hq : l.keyFile = p
        · rw [hq, Function.update_self]
          exact List.mem_cons_of_mem _ (hq ▸ hown)
        · rw [Function.update_of_ne hq]
          exact hown
      | locked | reading =>
        rw [hp] at hown
        exact hown
      | stamping data =>
        rw [hp] at hown
        refine ⟨hown.1, hsub hown.2.1, fun f hf => ?_⟩
        change Function.update s.files p (some file) (l.see p file.data).keyFile = some f at hf
        rw [hkey] at hf
        by_cases hq : l.keyFile = p
        · rw [hq, Function.update_self] at hf
          obtain rfl := Option.some.inj hf
          exact (hquiet n l data hget hq hp).symm
        · rw [Function.update_of_ne hq] at hf
          exact hown.2.2 f hf
      | finished result =>
        rw [hp] at hown
        exact fun data hdata => hsub (hown data hdata)
    · rw [hphase] at hfin
      change Function.update s.files p (some file) (l.see p file.data).keyFile = some f at hf
      rw [hkey] at hf
      by_cases hq : l.keyFile = p
      · rw [hq, Function.update_self] at hf
        obtain rfl := Option.some.inj hf
        rw [Load.see, if_pos ⟨hq, by rw [hfin]; decide⟩]
        exact List.mem_cons_self
      · rw [Function.update_of_ne hq] at hf
        exact hsub (hseen hfin f hf)

/-- One step. -/
theorem inv_step {e : Event} (h : Inv s) (hfresh : Fresh s e) (hquiet : Quiet s e) (hs : step s e = some s') :
    Inv s' := by
  cases e with
  | load keyFile =>
    cases hs
    refine ⟨h.current, h.distinct, h.cached, fun n l hl => ?_⟩
    change (s.loads.join _).get? n = some l at hl
    rw [Pool.get?_join] at hl
    split at hl
    · cases hl
      exact ⟨trivial, fun _ f hf => Option.mem_toList.mpr (congrArg (Option.map File.data) hf)⟩
    · obtain ⟨hown, hseen⟩ := h.loads n l hl
      refine ⟨?_, hseen⟩
      cases hp : l.phase <;> rw [hp] at hown <;> exact hown
  | turn n ok =>
    obtain ⟨l, hget, ht⟩ := Option.bind_eq_some_iff.mp hs
    exact inv_turn h hget ht
  | write keyFile file => exact inv_write h hfresh hquiet hs
  | remove keyFile =>
    cases hs
    have hleft : ∀ p f, Function.update s.files keyFile none p = some f → s.files p = some f := by
      intro p f hf
      by_cases hp : p = keyFile
      · subst hp
        rw [Function.update_self] at hf
        cases hf
      · rwa [Function.update_of_ne hp] at hf
    refine ⟨fun p f hf => h.current p f (hleft p f hf), h.distinct, h.cached, fun n l hl => ?_⟩
    obtain ⟨hown, hseen⟩ := h.loads n l hl
    refine ⟨?_, fun hfin f hf => hseen hfin f (hleft _ f hf)⟩
    cases hp : l.phase with
    | stamping data =>
      rw [hp] at hown
      exact ⟨hown.1, hown.2.1, fun f hf => hown.2.2 f (hleft _ f hf)⟩
    | arrived | checking | waiting | locked | reading | finished =>
      rw [hp] at hown
      exact hown

end

theorem inv_run {files : KeyFile → Option File} {es : List Event} {s : State}
    (h : Run step (fun s e => Fresh s e ∧ Quiet s e) (start files) es s) : Inv s :=
  h.invariant (fun _ _ _ hc hi hs => inv_step hi hc.1 hc.2 hs) (inv_start files)

/-! ## The other rotations -/

theorem step_turn {s : State} {n : Nat} {l : Load} (hget : s.loads.get? n = some l) (ok : Bool) :
    step s (.turn n ok) = turn s n ok l := congrArg (Option.bind · (turn s n ok)) hget

theorem quiet_turn (s : State) (n : Nat) (ok : Bool) : Fresh s (.turn n ok) ∧ Quiet s (.turn n ok) := ⟨trivial, trivial⟩

/-- An entry with another content than the file is returned. -/
theorem exists_stale_of_entry {s : State} {p : KeyFile} {entry file : File} (hholder : s.holder = none)
    (hentry : s.cache p = some entry) (hfile : s.files p = some file) (htime : file.modTime = entry.modTime)
    (hne : entry.data ≠ file.data) :
    ∃ es t, Run step (fun s e => Fresh s e ∧ Quiet s e) s es t ∧ ¬ Current t := by
  let m := s.loads.workers.length
  let l : Load := { keyFile := p, seen := [file.data] }
  let s₁ : State := { s with loads := s.loads.join l }
  let s₂ := s₁.put m l (.checking entry)
  let s₃ := s₂.put m { l with phase := .checking entry } (.finished (some entry.data))
  have hload : step s (.load p) = some s₁ := by
    simp only [step, hfile]
    rfl
  have hget₁ : s₁.loads.get? m = some l := by rw [Pool.get?_join, if_pos rfl]
  have hlookup : step s₁ (.turn m true) = some s₂ := by
    have hcache : s₁.cache l.keyFile = some entry := hentry
    rw [step_turn hget₁]
    simp only [turn, l, show s₁.holder = none from hholder, if_true, hcache, Option.elim_some, s₂]
  have hget₂ : s₂.loads.get? m = some { l with phase := .checking entry } := by
    change (s₁.loads.put m _).get? m = _
    rw [Pool.get?_put _ hget₁, if_pos rfl]
  have hcheck : step s₂ (.turn m true) = some s₃ := by
    have hhit : hit (some entry) (s₂.look true p) = some entry.data := by
      rw [State.look, if_pos rfl, show s₂.files p = some file from hfile, hit, if_pos htime]
    rw [step_turn hget₂]
    simp only [turn, l, hhit, Option.elim_some, s₃]
  have hturns : Run step (fun s e => Fresh s e ∧ Quiet s e) s₁ [.turn m true, .turn m true] s₃ :=
    .cons (quiet_turn s₁ m true) hlookup (.single (quiet_turn s₂ m true) hcheck)
  have hc : Fresh s (.load p) ∧ Quiet s (.load p) := ⟨trivial, trivial⟩
  refine ⟨_, s₃, .cons hc hload hturns, fun hcurrent => ?_⟩
  have hget₃ : s₃.loads.get? m = some { l with phase := .finished (some entry.data) } := by
    change (s₂.loads.put m _).get? m = _
    rw [Pool.get?_put _ hget₂, if_pos rfl]
  exact hne (List.mem_singleton.mp (hcurrent m _ entry.data hget₃ rfl))

/-- A content that the file does not have any more is stored under its new time. -/
theorem exists_stale {s : State} {n : Nat} {l : Load} {data : List UInt8} {file : File} (hget : s.loads.get? n = some l)
    (hphase : l.phase = .stamping data) (hne : data ≠ file.data) :
    ∃ s' es t, step s (.write l.keyFile file) = some s' ∧ Run step (fun s e => Fresh s e ∧ Quiet s e) s' es t ∧
      ¬ Current t := by
  obtain ⟨s₁, hwrite⟩ : ∃ s₁, step s (.write l.keyFile file) = some s₁ := ⟨_, rfl⟩
  have hfiles : s₁.files l.keyFile = some file := by
    cases hwrite
    exact Function.update_self ..
  obtain ⟨k, hget₁, hkey, hphase₁⟩ :
      ∃ k, s₁.loads.get? n = some k ∧ k.keyFile = l.keyFile ∧ k.phase = .stamping data := by
    cases hwrite
    obtain ⟨hsame, hkey, -⟩ := see_phase l.keyFile file.data l
    refine ⟨l.see l.keyFile file.data, ?_, hkey, hsame.trans hphase⟩
    change (s.loads.workers.map _)[n]? = _
    rw [List.getElem?_map, show s.loads.workers[n]? = some l from hget, Option.map_some]
  let s₂ := { s₁.unlock with cache := Function.update s₁.cache k.keyFile (some ⟨data, file.modTime⟩) }.put n k
    (.finished (some data))
  have hstamp : step s₁ (.turn n true) = some s₂ := by
    rw [step_turn hget₁]
    simp only [turn, hphase₁, State.look, if_true, hkey, hfiles, s₂]
  have hentry : s₂.cache l.keyFile = some ⟨data, file.modTime⟩ := hkey ▸ Function.update_self ..
  obtain ⟨es, t, hrun, hstale⟩ := exists_stale_of_entry (s := s₂) rfl hentry hfiles rfl hne
  exact ⟨s₁, _, t, hwrite, .cons (quiet_turn s₁ n true) hstamp hrun, hstale⟩

/-- **What the modification time detects.** Under concurrent loads, and as long as every write of a file has a time of
its own: while no file gets another content between the read and the second look of a load, each load returns a content
that the file had during the load; after any other write, a load can return one that it did not have. -/
theorem rotation_detected_iff {files : KeyFile → Option File} {es : List Event} {s : State}
    (h : Run step (fun s e => Fresh s e ∧ Quiet s e) (start files) es s) :
    Current s ∧ ∀ e, Fresh s e →
      ((∀ s' es' t, step s e = some s' → Run step (fun s e => Fresh s e ∧ Quiet s e) s' es' t → Current t) ↔
        Quiet s e) := by
  have hinv := inv_run h
  refine ⟨hinv.current_of_inv, fun e hfresh => ⟨fun hall => ?_, fun hquiet s' es' t hs hrun => ?_⟩⟩
  · cases e with
    | write keyFile file =>
      rintro n l data hget rfl hphase
      by_contra hne
      obtain ⟨s', es', t, hs, hrun, hstale⟩ := exists_stale hget hphase hne
      exact hstale (hall s' es' t hs hrun)
    | load | turn | remove => trivial
  · have hinv' := inv_step hinv hfresh hquiet hs
    exact (hrun.invariant (fun _ _ _ hc hi hs => inv_step hi hc.1 hc.2 hs) hinv').current_of_inv

def exampleFiles : KeyFile → Option File := fun _ => some ⟨[1], 0⟩

/-- A key is rotated and then read by a load. -/
def exampleEvents : List Event :=
  [.write [] ⟨[2], 1⟩, .load [], .turn 0 true, .turn 0 true, .turn 0 true, .turn 0 true]

theorem rotation_detected_example : ∃ s, exec step (start exampleFiles) exampleEvents = some s ∧ Current s ∧
    ∃ s' es t, step s (.write [] ⟨[3], 2⟩) = some s' ∧ Run step (fun s e => Fresh s e ∧ Quiet s e) s' es t ∧
      ¬ Current t := by
  have hresult : (exec step (start exampleFiles) exampleEvents).map (fun s => (s.versions [], s.loads.workers)) =
      some ([⟨[2], 1⟩, ⟨[1], 0⟩], [⟨[], .stamping [2], [[2]]⟩]) := by decide
  obtain ⟨s, hs, heq⟩ := Option.map_eq_some_iff.mp hresult
  obtain ⟨hversions, hworkers⟩ := Prod.mk.inj heq
  have hrun : Run step (fun s e => Fresh s e ∧ Quiet s e) (start exampleFiles) exampleEvents s := by
    obtain ⟨s₁, hs₁, hrest⟩ := Option.bind_eq_some_iff.mp hs
    refine .cons ⟨fun f hf => ?_, fun n l data hget => nomatch hget⟩ hs₁ ?_
    · obtain rfl := List.mem_singleton.mp hf
      decide
    · refine (run_of_forall (C := fun e => ∀ p f, e ≠ .write p f) (by simp) hrest).imp fun s e he => ?_
      cases e with
      | write p f => exact absurd rfl (he p f)
      | load | turn | remove => exact ⟨trivial, trivial⟩
  obtain ⟨hcurrent, hiff⟩ := rotation_detected_iff hrun
  refine ⟨s, hs, hcurrent, ?_⟩
  have hfresh : Fresh s (.write [] ⟨[3], 2⟩) := by
    change ∀ f ∈ s.versions [], _
    rw [hversions]
    decide
  have hloud : ¬ Quiet s (.write [] ⟨[3], 2⟩) := by
    intro hquiet
    have hget : s.loads.get? 0 = some ⟨[], .stamping [2], [[2]]⟩ := congrArg (·[0]?) hworkers
    exact absurd (hquiet 0 _ [2] hget rfl rfl) (by decide)
  have hnot := mt (hiff _ hfresh).mp hloud
  simp only [not_forall] at hnot
  obtain ⟨s', es, t, hs', hrun', hstale⟩ := hnot
  exact ⟨s', es, t, hs', hrun', hstale⟩

end OciHelper.Oci.PemCache
