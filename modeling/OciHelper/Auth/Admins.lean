import OciHelper.Db.Tables
import OciHelper.Lib.Pool
import OciHelper.Lib.StepRun

/-!
# The last administrator

* `refused` : the guard of a user deletion, on the users that it read;
* `step` : concurrent deletions, the read and the delete of each one apart;
* `Safe` : however the deletions that are let through end, an administrator is left;
* `Spared` : some administrator is not about to be deleted; `safe_iff` : this is the same;
* `LetThrough` : the condition on a guard.
-/

namespace OciHelper.Auth.Admins
open Db StepRun

def isAdmin (u : User) : Bool := u.role = "admin"

/-- A read that fails after some rows has returned these. -/
def readUsers (db : Tables) : (failsAfter : Option Nat) → List (Int × User)
  | none => listUsers db
  | some rows => (listUsers db).take rows

/-- The guard of `handleUserByID`. -/
def refused (users : List (Int × User)) (id : Int) : Bool :=
  let adminCount := users.countP fun u => isAdmin u.2
  adminCount ≤ 1 && users.any fun u => u.1 = id && isAdmin u.2

inductive Phase
  | arrived
  | deleting
  | finished
  deriving DecidableEq, Repr

/-- A request to delete the user with an id. -/
structure Request where
  id : Int
  phase : Phase := .arrived
  deriving DecidableEq, Repr

structure State where
  db : Tables
  requests : Pool Request := {}

inductive Event
  | arrive (id : Int)
  | readUsers (n : Nat) (failsAfter : Option Nat)
  | delete (n : Nat) (ok : Bool)
  deriving DecidableEq, Repr

def step : Step State Event
  | s, .arrive id => some { s with requests := s.requests.join { id } }
  | s, .readUsers n failsAfter =>
    match s.requests.get? n with
    | some ⟨id, .arrived⟩ =>
      let phase := if refused (readUsers s.db failsAfter) id then .finished else .deleting
      some { s with requests := s.requests.put n ⟨id, phase⟩ }
    | _ => none
  | s, .delete n ok =>
    match s.requests.get? n with
    | some ⟨id, .deleting⟩ =>
      some
        { db := if ok then { s.db with users := s.db.users.erase id } else s.db
          requests := s.requests.put n ⟨id, .finished⟩ }
    | _ => none

/-! ## Administrators -/

def AdminAt (db : Tables) (id : Int) : Prop := ∃ u, db.users.get id = some u ∧ isAdmin u = true

def HasAdmin (db : Tables) : Prop := ∃ id, AdminAt db id

/-- A request that is let through is about to delete the user. -/
def Targeted (s : State) (id : Int) : Prop := ∃ n, s.requests.get? n = some ⟨id, .deleting⟩

def Spared (s : State) : Prop := ∃ id, AdminAt s.db id ∧ ¬ Targeted s id

/-- The deletions that are let through, in any order. -/
def Finish (es : List Event) : Prop := ∀ e ∈ es, ∃ n ok, e = .delete n ok

def Safe (s : State) : Prop := ∀ es t, Finish es → exec step s es = some t → HasAdmin t.db

/-- A guard that lets the deletion of an administrator through leaves another one who is not about to be deleted. -/
def LetThrough (s : State) (e : Event) : Prop :=
  ∀ n failsAfter id, e = .readUsers n failsAfter → s.requests.get? n = some ⟨id, .arrived⟩ →
    refused (readUsers s.db failsAfter) id = false → AdminAt s.db id →
      ∃ other, other ≠ id ∧ AdminAt s.db other ∧ ¬ Targeted s other

theorem Safe.hasAdmin {s : State} (h : Safe s) : HasAdmin s.db := h [] s (fun _ he => absurd he List.not_mem_nil) rfl

theorem adminAt_erase (db : Tables) (id k : Int) :
    AdminAt { db with users := db.users.erase id } k ↔ k ≠ id ∧ AdminAt db k := by
  unfold AdminAt
  dsimp only
  rw [KeyTable.get_erase]
  by_cases hk : k = id <;> simp [hk]

/-- The requests after one of them got another phase. -/
theorem targeted_put {s : State} {n : Nat} {id : Int} {phase : Phase} (h : s.requests.get? n = some ⟨id, phase⟩)
    (db : Tables) (phase' : Phase) (k : Int) :
    Targeted ⟨db, s.requests.put n ⟨id, phase'⟩⟩ k ↔
      (phase' = .deleting ∧ k = id) ∨ ∃ m, m ≠ n ∧ s.requests.get? m = some ⟨k, .deleting⟩ := by
  constructor
  · rintro ⟨m, hm⟩
    dsimp only at hm
    rw [Pool.get?_put _ h] at hm
    by_cases hmn : m = n
    · rw [if_pos hmn] at hm
      cases hm
      exact .inl ⟨rfl, rfl⟩
    · rw [if_neg hmn] at hm
      exact .inr ⟨m, hmn, hm⟩
  · rintro (⟨rfl, rfl⟩ | ⟨m, hmn, hm⟩)
    · exact ⟨n, by dsimp only; rw [Pool.get?_put _ h, if_pos rfl]⟩
    · exact ⟨m, by dsimp only; rw [Pool.get?_put _ h, if_neg hmn, hm]⟩

theorem spared_delete {s s' : State} {n : Nat} {ok : Bool} (hs : step s (.delete n ok) = some s') (h : Spared s) :
    Spared s' := by
  unfold step at hs
  dsimp only at hs
  split at hs
  · next id hget =>
    cases hs
    obtain ⟨k, hadmin, hnot⟩ := h
    have hne : k ≠ id := fun e => hnot (e ▸ ⟨n, hget⟩)
    refine ⟨k, ?_, ?_⟩
    · dsimp only
      split
      · exact (adminAt_erase s.db id k).mpr ⟨hne, hadmin⟩
      · exact hadmin
    · rw [targeted_put hget]
      rintro (⟨hphase, -⟩ | ⟨m, -, hm⟩)
      · cases hphase
      · exact hnot ⟨m, hm⟩
  · cases hs

/-- If every administrator is about to be deleted, the deletions can all succeed. -/
theorem exists_finish : ∀ (pending : Nat) (s : State), s.requests.countP (fun r => r.phase = .deleting) = pending →
    ¬ Spared s → ∃ es t, Finish es ∧ exec step s es = some t ∧ ¬ HasAdmin t.db := by
  intro pending
  induction pending with
  | zero =>
    intro s hcount h
    refine ⟨[], s, fun _ he => absurd he List.not_mem_nil, rfl, ?_⟩
    rintro ⟨k, hk⟩
    refine h ⟨k, hk, ?_⟩
    rintro ⟨n, hn⟩
    have hput := Pool.countP_put (fun r : Request => r.phase = .deleting) s.requests hn ⟨k, .finished⟩
    simp [hcount] at hput
  | succ pending ih =>
    intro s hcount h
    by_cases hadmin : HasAdmin s.db
    · obtain ⟨k, hk⟩ := hadmin
      have htargeted : Targeted s k := by
        by_contra hnot
        exact h ⟨k, hk, hnot⟩
      obtain ⟨n, hn⟩ := htargeted
      let s' : State := ⟨{ s.db with users := s.db.users.erase k }, s.requests.put n ⟨k, .finished⟩⟩
      have hs : step s (.delete n true) = some s' := by
        unfold step
        dsimp only
        rw [hn]
        rfl
      have hput := Pool.countP_put (fun r : Request => r.phase = .deleting) s.requests hn ⟨k, .finished⟩
      have hcount' : s'.requests.countP (fun r => r.phase = .deleting) = pending := by
        simp [hcount] at hput
        exact hput
      have hnot : ¬ Spared s' := by
        rintro ⟨k', hk', hfree⟩
        obtain ⟨hne, hold⟩ := (adminAt_erase s.db k k').mp hk'
        refine h ⟨k', hold, fun ⟨m, hm⟩ => hfree ?_⟩
        refine (targeted_put hn _ .finished k').mpr (.inr ⟨m, ?_, hm⟩)
        rintro rfl
        rw [hn] at hm
        cases hm
        exact hne rfl
      obtain ⟨es, t, hes, hexec, hnone⟩ := ih s' hcount' hnot
      refine ⟨.delete n true :: es, t, ?_, Option.bind_eq_some_iff.mpr ⟨s', hs, hexec⟩, hnone⟩
      exact List.forall_mem_cons.mpr ⟨⟨n, true, rfl⟩, hes⟩
    · exact ⟨[], s, fun _ he => absurd he List.not_mem_nil, rfl, hadmin⟩

theorem safe_iff (s : State) : Safe s ↔ Spared s := by
  constructor
  · intro h
    by_contra hnot
    obtain ⟨es, t, hes, hexec, hnone⟩ := exists_finish _ s rfl hnot
    exact hnone (h es t hes hexec)
  · intro h es t hes hexec
    have hrun := run_of_forall hes hexec
    have ht : Spared t := hrun.invariant
      (fun s e s' he hi hs => by obtain ⟨n, ok, rfl⟩ := he; exact spared_delete hs hi) h
    obtain ⟨id, hadmin, -⟩ := ht
    exact ⟨id, hadmin⟩

theorem spared_step_iff {s s' : State} {e : Event} (h : Spared s) (hs : step s e = some s') :
    Spared s' ↔ LetThrough s e := by
  cases e with
  | arrive id =>
    cases hs
    refine iff_of_true ?_ fun n failsAfter id he => by cases he
    obtain ⟨k, hadmin, hnot⟩ := h
    refine ⟨k, hadmin, ?_⟩
    rintro ⟨n, hn⟩
    dsimp only at hn
    rw [Pool.get?_join] at hn
    split at hn
    · cases hn
    · exact hnot ⟨n, hn⟩
  | delete n ok => exact iff_of_true (spared_delete hs h) fun n failsAfter id he => by cases he
  | readUsers n failsAfter =>
    unfold step at hs
    dsimp only at hs
    split at hs
    · next id hget =>
      cases hs
      have hothers : ∀ k, (∃ m, m ≠ n ∧ s.requests.get? m = some ⟨k, .deleting⟩) ↔ Targeted s k := by
        intro k
        refine ⟨fun ⟨m, _, hm⟩ => ⟨m, hm⟩, fun ⟨m, hm⟩ => ⟨m, ?_, hm⟩⟩
        rintro rfl
        rw [hget] at hm
        cases hm
      unfold Spared
      simp only [targeted_put hget, hothers]
      constructor
      · intro hspared n' failsAfter' id' he hget' hfree hadmin
        cases he
        rw [hget] at hget'
        cases hget'
        rw [hfree, if_neg Bool.false_ne_true] at hspared
        obtain ⟨k, hk, hnot⟩ := hspared
        rw [not_or] at hnot
        exact ⟨k, fun e => hnot.1 ⟨rfl, e⟩, hk, hnot.2⟩
      · intro hlet
        by_cases hfree : refused (readUsers s.db failsAfter) id = false
        · by_cases hadmin : AdminAt s.db id
          · obtain ⟨k, hne, hk, hnot⟩ := hlet n failsAfter id rfl hget hfree hadmin
            exact ⟨k, hk, fun hor => hor.elim (fun e => hne e.2) hnot⟩
          · obtain ⟨k, hk, hnot⟩ := h
            exact ⟨k, hk, fun hor => hor.elim (fun e => hadmin (e.2 ▸ hk)) hnot⟩
        · obtain ⟨k, hk, hnot⟩ := h
          rw [if_pos (by simpa using hfree)]
          exact ⟨k, hk, fun hor => hor.elim (fun e => by cases e.1) hnot⟩
    · cases hs

theorem mem_listUsers (db : Tables) {id : Int} (h : AdminAt db id) : ∃ u, (id, u) ∈ listUsers db ∧ isAdmin u = true := by
  obtain ⟨u, hget, hadmin⟩ := h
  exact ⟨_, List.mem_map.mpr ⟨(id, u), db.users.mem_rows_iff.mpr hget, rfl⟩, hadmin⟩

/-- A guard that reads all the users while no other administrator is about to be deleted. -/
theorem letThrough_of_complete {s : State} (halone : ∀ k, ¬ Targeted s k) (n : Nat) :
    LetThrough s (.readUsers n none) := by
  intro n' failsAfter id he _ hfree hadmin
  cases he
  obtain ⟨u, hmem, hu⟩ := mem_listUsers s.db hadmin
  have hany : (listUsers s.db).any (fun u => u.1 = id && isAdmin u.2) = true :=
    List.any_eq_true.mpr ⟨(id, u), hmem, by simpa using hu⟩
  have hcount : ¬ (listUsers s.db).countP (fun u => isAdmin u.2) ≤ 1 := by
    intro hle
    simp [refused, readUsers, hany, hle] at hfree
  by_contra hnone
  -- every administrator would have the one key
  have hkeys : ((listUsers s.db).map Prod.fst).Nodup := by
    have hmap : (listUsers s.db).map Prod.fst = s.db.users.rows.map Prod.fst := by simp [listUsers]
    rw [hmap, List.Nodup, List.pairwise_map]
    exact s.db.users.sorted.imp fun hlt => hlt.ne
  have hsub : (listUsers s.db).countP (fun u => isAdmin u.2) ≤ ((listUsers s.db).map Prod.fst).count id := by
    rw [List.count, List.countP_map]
    refine List.countP_mono_left fun r hr hr' => ?_
    obtain ⟨r₀, hr₀, rfl⟩ := List.mem_map.mp hr
    by_contra hne
    exact hnone ⟨r₀.1, by simpa using hne, ⟨r₀.2, s.db.users.mem_rows_iff.mp hr₀, hr'⟩, halone _⟩
  have hone := List.nodup_iff_count_le_one.mp hkeys id
  omega

/-- **There is always an administrator**, and however the deletions that are let through end there will be, just when
every guard leaves one. -/
theorem admin_left_iff {db : Tables} (h : HasAdmin db) {es : List Event} {t : State}
    (hexec : exec step { db } es = some t) :
    (Throughout step Safe { db } es ↔ Run step LetThrough { db } es t) ∧
      (Run step LetThrough { db } es t → HasAdmin t.db) := by
  have hstart : Spared { db } := by
    obtain ⟨id, hadmin⟩ := h
    exact ⟨id, hadmin, fun ⟨n, hn⟩ => by cases hn⟩
  have hrun : Run step LetThrough { db } es t → Spared t := fun hrun =>
    hrun.invariant (fun s e s' hc hi hs => (spared_step_iff hi hs).mpr hc) hstart
  refine ⟨?_, fun h => ((safe_iff t).mpr (hrun h)).hasAdmin⟩
  refine throughout_iff (fun s e s' hi hs => ?_) ((safe_iff _).mpr hstart) hexec
  rw [safe_iff]
  exact spared_step_iff ((safe_iff s).mp hi) hs

/-- One administrator. -/
def exampleDb : Tables := { users := KeyTable.empty.insert { username := "admin", role := "admin" } }

theorem exampleDb_hasAdmin : HasAdmin exampleDb := ⟨1, _, rfl, rfl⟩

/-- A deletion of the administrator that is refused. -/
theorem admin_left_refused : HasAdmin exampleDb ∧
    Throughout step Safe { db := exampleDb } [.arrive 1, .readUsers 0 none] := by
  have hstart : ∀ k, ¬ Targeted (State.mk exampleDb ⟨[⟨1, .arrived⟩]⟩) k := by
    rintro k ⟨n, hn⟩
    cases n <;> cases hn
  refine ⟨exampleDb_hasAdmin, (admin_left_iff exampleDb_hasAdmin rfl).1.mpr ?_⟩
  exact .cons (fun n failsAfter id he => by cases he) rfl (.cons (letThrough_of_complete hstart 0) rfl (.nil _))

/-- The read fails, so the guard counts no administrator and does not find the one there is. -/
theorem last_admin_deleted :
    HasAdmin exampleDb ∧ ∃ t, exec step { db := exampleDb } [.arrive 1, .readUsers 0 (some 0), .delete 0 true] = some t ∧
      t.db.users.rows = [] ∧ ¬ HasAdmin t.db := by
  refine ⟨exampleDb_hasAdmin, _, rfl, rfl, ?_⟩
  rintro ⟨id, u, hget, -⟩
  cases hget

end OciHelper.Auth.Admins
