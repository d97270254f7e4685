import OciHelper.Worker.Resume

/-!
# User updates of a payload

`saveCheckpoint` stores the whole payload of a runner, as the runner decoded it when it began. A user may
store another one in between.

* `Phase.copy`, `Phase.atStore`, `Phase.launching` : the copy a runner holds, the store it is about to
  make, the launch it is about to send;
* `World.Typed` : the copies of a task have the kind of its row;
* `Touch` : what a step does to the payload and to the log of one task;
* `Watched`, `watch` : a run with the payload text the user stored last;
* `updates_kept_iff` : when the user's fields are kept, and when the index covers the launches;
* `fields_kept_of_apart` : they are kept when no update comes while a copy of the row is held.
-/

namespace OciHelper.Worker
open OciHelper.Db StepRun

/-! ## What a runner is about to do -/

/-- The call that launches or starts the instance of an index. -/
def Kind.launch : Kind → Call
  | .batchStart => .startInstance
  | .batchCreate => .launchInstance

/-- Everything in a payload text but its checkpoint index. -/
def fields (k : Kind) (text : PayloadText) : Except String Job := (Job.decode k text).map (Job.setIndex 0)

/-- The request of the call was sent. -/
def Answer.sent : Answer → Bool
  | .oci _ => true
  | .panic sent _ => sent
  | _ => false

namespace Phase

/-- The payload in memory. -/
def copy : Phase → Option Job
  | .loop job _ _ => some job
  | _ => none

/-- The copy and the index of the store that comes next. -/
def atStore : Phase → Option (Job × Int)
  | .loop job _ (.park i _) => some (job, i)
  | .loop job _ (.save i _) => some (job, i + 1)
  | _ => none

/-- The launch is next, and its request is sent. -/
def launching : Phase → Answer → Bool
  | .loop _ _ (.launch _), a => a.sent
  | _, _ => false

theorem launching_of_atStore {phase : Phase} {ji : Job × Int} (h : phase.atStore = some ji) (a : Answer) :
    phase.launching a = false := by
  unfold atStore at h
  split at h
  · rfl
  · rfl
  · cases h

theorem copy_of_atStore {phase : Phase} {job : Job} {i : Int} (h : phase.atStore = some (job, i)) :
    phase.copy = some job := by
  unfold atStore at h
  split at h
  · cases h; rfl
  · cases h; rfl
  · cases h

end Phase

/-- The copy of a runner keeps its kind; apart from the index it is the one it decoded. -/
theorem Turn.copy {k : Kind} {text : PayloadText} {phase p : Phase} {eff : Effect} {next : Option Phase}
    {job : Job} (h : Turn k text phase eff next) (hn : next = some p) (hc : p.copy = some job) :
    (phase = .begin ∧ Job.decode k text = .ok job) ∨
      ∃ job₀, phase.copy = some job₀ ∧ (job = job₀ ∨ ∃ i, job = job₀.setIndex i) := by
  have parent : ∀ pid, enterParent pid = some p → p.copy = none := by
    intro pid he
    unfold enterParent at he
    split at he <;> cases he
    rfl
  cases h with
  | enter job' tenant hd => cases hn; cases hc; exact Or.inl ⟨rfl, hd⟩
  | abort msg pid => rw [parent _ hn] at hc; cases hc
  | loop job' tenant pt _ _ hl =>
    refine Or.inr ⟨job', rfl, ?_⟩
    cases hl with
    | probe i next' _ hx =>
      cases hn
      rcases hx with ⟨msg, rfl⟩ | ⟨msg, ok, rfl⟩ | rfl
      · cases hc
      · cases hc; exact Or.inl rfl
      · cases hc; exact Or.inl rfl
    | start i next' _ hx =>
      cases hn
      rcases hx with ⟨msg, rfl⟩ | ⟨msg, ok, rfl⟩ | ⟨ok, rfl⟩
      · cases hc
      · cases hc; exact Or.inl rfl
      · cases hc; exact Or.inl rfl
    | launch i next' _ hx =>
      cases hn
      rcases hx with ⟨msg, rfl⟩ | ⟨msg, ok, rfl⟩
      · cases hc
      · cases hc; exact Or.inl rfl
    | finish msg _ hx =>
      rcases hx with rfl | ⟨pid, rfl⟩
      · cases hn
      · rw [parent _ hn] at hc; cases hc
    | park i why => cases hn; cases hc; exact Or.inr ⟨_, rfl⟩
    | save i ok pt' _ => cases hn; cases hc; exact Or.inr ⟨_, rfl⟩
    | requeue why => cases hn
    | crash i pt' msg _ => cases hn; cases hc
    | _ => cases hn; cases hc; exact Or.inl rfl
  | parent pid _ hx =>
    rcases hx with rfl | ⟨s, progress, msg, rfl⟩
    · cases hn
    · cases hn; cases hc
  | parentWrite => cases hn
  | recover => cases hn
  | _ => cases hn; cases hc

/-- A runner stores just when it is at a store. -/
theorem Turn.store_iff {k : Kind} {text : PayloadText} {phase : Phase} {eff : Effect}
    {next : Option Phase} (h : Turn k text phase eff next) (job' : Job) :
    eff = .save job' ↔ ∃ job i, phase.atStore = some (job, i) ∧ job' = job.setIndex i := by
  constructor
  · rintro rfl
    cases h with
    | loop job tenant pt _ _ hl =>
      cases hl with
      | park i why => exact ⟨_, _, rfl, rfl⟩
      | save i ok pt' _ => exact ⟨_, _, rfl, rfl⟩
  · rintro ⟨job, i, hp, rfl⟩
    cases h with
    | loop job' tenant pt _ _ hl =>
      cases hl with
      | park j why => cases hp; rfl
      | save j ok pt' _ => cases hp; rfl
      | crash j pt' msg hpt => rcases hpt with rfl | rfl | rfl <;> cases hp
      | _ => cases hp
    | _ => cases hp

theorem runBatchStart_launch {ctx : Ctx} {task : Int} {p : BatchStartPayload} {tenant : String} {i : Int}
    {a : Answer} {eff : Effect} {next : Option Phase}
    (h : runBatchStart ctx task p tenant (.launch i) a = some (eff, next)) :
    eff = if a.sent then .call .startInstance i else .none := by
  cases a with
  | oci err => cases h; rfl
  | panic sent msg => cases sent <;> cases h <;> rfl
  | _ => cases h

theorem runBatchCreate_launch {ctx : Ctx} {task : Int} {p : BatchCreatePayload} {tenant : String} {i : Int}
    {a : Answer} {eff : Effect} {next : Option Phase}
    (h : runBatchCreate ctx task p tenant (.launch i) a = some (eff, next)) :
    eff = if a.sent then .call .launchInstance i else .none := by
  cases a with
  | oci err => cases h; rfl
  | panic sent msg => cases sent <;> cases h <;> rfl
  | _ => cases h

/-- A runner launches just when it is at a launch and the request is sent. -/
theorem Runner.launch_iff {ctx : Ctx} {r : Runner} {a : Answer} {eff : Effect} {next : Option Phase}
    {k : Kind} (h : r.step ctx a = some (eff, next)) (hk : ∀ job, r.phase.copy = some job → job.kind = k) :
    (∃ i, eff = .call k.launch i) ↔ r.phase.launching a = true := by
  have hturn := Runner.turn h
  generalize hp : r.phase = phase at hturn hk
  cases hturn with
  | loop job tenant pt _ _ hl =>
    obtain rfl : job.kind = k := hk job rfl
    by_cases hpt : ∃ i, pt = .launch i
    · obtain ⟨i, rfl⟩ := hpt
      have heff : eff = if a.sent then .call job.kind.launch i else .none := by
        unfold Runner.step at h
        rw [hp] at h
        cases job with
        | start p => exact runBatchStart_launch h
        | create p => exact runBatchCreate_launch h
      rw [heff]
      cases hs : a.sent <;> simp [Phase.launching, hs]
    · have hno : Phase.launching (.loop job tenant pt) a = false := by
        cases pt with
        | launch i => exact absurd ⟨i, rfl⟩ hpt
        | _ => rfl
      rw [hno]
      refine iff_of_false ?_ Bool.false_ne_true
      rintro ⟨i, hi⟩
      cases hl with
      | probe j next' hj _ => rw [hj] at hi; cases hi
      | start j next' _ _ => exact hpt ⟨_, rfl⟩
      | launch j next' _ _ => exact hpt ⟨_, rfl⟩
      | _ => cases hi
  | _ => exact iff_of_false (fun ⟨i, hi⟩ => by cases hi) Bool.false_ne_true

namespace World

/-! ## The copies of a task -/

/-- Every listed copy has the type of its row, and every runner its kind. -/
structure Typed (t : Int) (w : World) : Prop where
  listed : ∀ u, (t, u) ∈ w.loop.held → ∃ row, w.tasks.get t = some row ∧ row.type = u.type
  live : ∀ rid r, w.runners.get rid = some r → r.task = t →
    (∃ row, w.tasks.get t = some row ∧ Kind.ofType row.type = some r.kind) ∧
      ∀ job, r.phase.copy = some job → job.kind = r.kind

theorem typed_off (t : Int) (tasks : Tasks) : Typed t (off tasks) where
  listed := fun u hm => absurd hm List.not_mem_nil
  live := fun rid r hr => by simp [off] at hr

/-- A listed copy was listed before, or it is the row itself. -/
theorem Moves.held {t : Int} {w w' : World} {e : Event} (h : Moves w e w') {u : Task}
    (hu : (t, u) ∈ w'.loop.held) : (t, u) ∈ w.loop.held ∨ w.tasks.get t = some u := by
  by_cases hf : Event.Foreign t w e
  · exact Or.inl ((h.frame hf).held.subset hu)
  · cases h with
    | poll hl => exact Or.inr (mem_listPendingTasks hu).1
    | exit => exact absurd hu List.not_mem_nil
    | edit id text _ => exact Or.inl hu
    | spawned id u' todo k hl _ =>
      left
      rw [hl]
      exact List.mem_cons_of_mem _ hu
    | marked id u' todo s msg hl _ _ =>
      left
      rw [hl]
      exact List.mem_cons_of_mem _ hu
    | runner rid a r eff next _ _ =>
      rw [loop_setPhase, loop_apply] at hu
      exact Or.inl hu
    | rejected _ _ => exact Or.inl hu
    | _ => exact absurd trivial hf

/-- A runner of the task was there before, or it starts from a listed copy, or it has taken a turn. -/
theorem Moves.runners {t : Int} {w w' : World} {e : Event} (h : Moves w e w') {rid : Int} {r' : Runner}
    (hr' : w'.runners.get rid = some r') (ht : r'.task = t) :
    w.runners.get rid = some r' ∨
      (∃ u k, (t, u) ∈ w.loop.held ∧ Kind.ofType u.type = some k ∧ r' = ⟨t, k, u.payload, .acquire⟩) ∨
      ∃ r eff phase, w.runners.get rid = some r ∧ Turn r.kind r.text r.phase eff (some phase) ∧
        r' = { r with phase := phase } := by
  cases h with
  | spawned id u todo k hl hk =>
    rcases get_spawn hr' with ⟨-, rfl⟩ | hr
    · cases ht
      exact Or.inr (Or.inl ⟨u, k, by rw [hl]; exact List.mem_cons_self .., hk, rfl⟩)
    · exact Or.inl hr
  | runner rid' a r eff next hr hs =>
    rcases get_setPhase hr' with ⟨-, h⟩ | ⟨r₀, phase, rfl, h₀, rfl, rfl⟩
    · rw [runners_apply] at h
      exact Or.inl h
    · rw [runners_apply] at h₀
      obtain rfl := Option.some.inj (hr.symm.trans h₀)
      exact Or.inr (Or.inr ⟨r, eff, phase, hr, Runner.turn hs, rfl⟩)
  | exit => simp at hr'
  | _ => exact Or.inl hr'

theorem Typed.step {t : Int} {w w' : World} {e : Event} (h : Moves w e w') (hT : Typed t w) :
    Typed t w' where
  listed := by
    intro u hu
    have hrow : ∃ row, w.tasks.get t = some row ∧ row.type = u.type := by
      rcases h.held hu with hu | hu
      · exact hT.listed u hu
      · exact ⟨u, hu, rfl⟩
    obtain ⟨row, hg, ht⟩ := hrow
    obtain ⟨row', hg', ht'⟩ := h.type hg
    exact ⟨row', hg', ht'.trans ht⟩
  live := by
    intro rid r' hr' ht
    have hold : (∃ row, w.tasks.get t = some row ∧ Kind.ofType row.type = some r'.kind) ∧
        ∀ job, r'.phase.copy = some job → job.kind = r'.kind := by
      rcases h.runners hr' ht with hr | ⟨u, k, hu, hk, rfl⟩ | ⟨r, eff, phase, hr, hturn, rfl⟩
      · exact hT.live rid r' hr ht
      · obtain ⟨row, hg, htype⟩ := hT.listed u hu
        exact ⟨⟨row, hg, htype ▸ hk⟩, fun job hc => by cases hc⟩
      · obtain ⟨hrow, hcopy⟩ := hT.live rid r hr ht
        refine ⟨hrow, fun job hc => ?_⟩
        rcases hturn.copy rfl hc with ⟨-, hd⟩ | ⟨job₀, hc₀, rfl | ⟨i, rfl⟩⟩
        · exact Job.kind_of_decode hd
        · exact hcopy job hc₀
        · exact (Job.kind_setIndex i job₀).trans (hcopy job₀ hc₀)
    obtain ⟨⟨row, hg, hk⟩, hc⟩ := hold
    obtain ⟨row', hg', ht'⟩ := h.type hg
    exact ⟨⟨row', hg', ht' ▸ hk⟩, hc⟩

theorem typed_of_run {t : Int} {tasks : Tasks} {es : List Event} {w : World}
    (h : StepRun.Run step (Always World Event) (off tasks) es w) : Typed t w :=
  h.invariant (fun _ _ _ _ hT hs => hT.step (moves hs)) (typed_off t tasks)

/-! ## Launches and stores in the log -/

def launchOf (t : Int) (k : Kind) : Entry → Bool
  | .call id c _ => id = t ∧ c = k.launch
  | _ => false

def storeOf (t : Int) : Entry → Bool
  | .saved id _ => id = t
  | _ => false

/-- The launches of the task. -/
def launches (t : Int) (k : Kind) (l : List Entry) : Nat := l.countP (launchOf t k)

/-- The launches up to the last stored checkpoint of the task: those that have had their store. -/
def settled (t : Int) (k : Kind) (l : List Entry) : Nat :=
  launches t k (l.reverse.dropWhile fun x => !storeOf t x)

theorem launches_snoc (t : Int) (k : Kind) (l : List Entry) (x : Entry) :
    launches t k (l ++ [x]) = launches t k l + if launchOf t k x then 1 else 0 := by
  simp [launches, List.countP_append, List.countP_singleton]

theorem settled_snoc (t : Int) (k : Kind) (l : List Entry) (x : Entry) :
    settled t k (l ++ [x]) = if storeOf t x then launches t k (l ++ [x]) else settled t k l := by
  unfold settled
  rw [List.reverse_append, List.reverse_singleton, List.singleton_append, List.dropWhile_cons]
  cases h : storeOf t x with
  | false => simp
  | true => simp [launches, List.countP_cons, List.countP_append]

@[simp] theorem launches_saved (t : Int) (k : Kind) (l : List Entry) (i : Int) :
    launches t k (l ++ [.saved t i]) = launches t k l := by
  rw [launches_snoc]; rfl

@[simp] theorem launches_call (t : Int) (k : Kind) (l : List Entry) (i : Int) :
    launches t k (l ++ [.call t k.launch i]) = launches t k l + 1 := by
  rw [launches_snoc, if_pos (by simp [launchOf])]

@[simp] theorem settled_saved (t : Int) (k : Kind) (l : List Entry) (i : Int) :
    settled t k (l ++ [.saved t i]) = launches t k l := by
  rw [settled_snoc, if_pos (by simp [storeOf]), launches_saved]

@[simp] theorem settled_call (t : Int) (k : Kind) (l : List Entry) (i : Int) :
    settled t k (l ++ [.call t k.launch i]) = settled t k l := by
  rw [settled_snoc]; rfl

/-! ## What a step does to one task -/

/-- The stored payload of the task. -/
def payload (t : Int) (w : World) : Option PayloadText := (w.tasks.get t).map Task.payload

theorem payload_of_sameWork {t : Int} {w w' : World} (h : SameWork t w.tasks w'.tasks) {text : PayloadText}
    (hp : w.payload t = some text) : w'.payload t = some text := by
  obtain ⟨row, hr, rfl⟩ := Option.map_eq_some_iff.mp hp
  obtain ⟨row', hr', -, hp'⟩ := h row hr
  exact Option.map_eq_some_iff.mpr ⟨row', hr', hp'⟩

/-- An update, a store, a launch, or none of them. -/
inductive Touch (t : Int) (k : Kind) (w : World) : Event → World → Prop
  | update (text : PayloadText) (w' : World) (hp : w'.payload t = some text) (hl : w'.log = w.log) :
      Touch t k w (.edit t text) w'
  | store (rid : Int) (a : Answer) (r : Runner) (job : Job) (i : Int) (w' : World)
      (hr : w.runners.get rid = some r) (ht : r.task = t) (hs : r.phase.atStore = some (job, i))
      (hk : job.kind = k) (hp : w'.payload t = some (job.setIndex i).marshal)
      (hl : w'.log = w.log ++ [.saved t i]) : Touch t k w (.runner rid a) w'
  | launch (rid : Int) (a : Answer) (r : Runner) (i : Int) (w' : World) (hr : w.runners.get rid = some r)
      (ht : r.task = t) (hs : r.phase.launching a = true) (hn : r.phase.atStore = none)
      (hp : w'.payload t = w.payload t) (hl : w'.log = w.log ++ [.call t k.launch i]) :
      Touch t k w (.runner rid a) w'
  | other (e : Event) (w' : World) (he : ∀ text, e ≠ .edit t text)
      (hr : ∀ rid a r, e = .runner rid a → w.runners.get rid = some r → r.task = t →
        r.phase.atStore = none ∧ r.phase.launching a = false)
      (hp : w'.payload t = w.payload t)
      (hl : w'.log = w.log ∨ ∃ x, w'.log = w.log ++ [x] ∧ launchOf t k x = false ∧ storeOf t x = false) :
      Touch t k w e w'

/-- A runner of another task touches neither the payload nor the counts. -/
theorem touch_of_ne {t : Int} {k : Kind} {w : World} {rid : Int} {a : Answer} {r : Runner} {eff : Effect}
    {next : Option Phase} {text : PayloadText} (hr : w.runners.get rid = some r) (ht : r.task ≠ t)
    (hp : w.payload t = some text) : Touch t k w (.runner rid a) ((w.apply r.task eff).setPhase rid next) := by
  refine .other _ _ (fun _ he => by cases he) ?_ ?_ ?_
  · intro rid' a' r' he hr' ht'
    cases he
    rw [hr] at hr'
    cases hr'
    exact absurd ht' ht
  · refine (payload_of_sameWork ?_ hp).trans hp.symm
    rw [tasks_setPhase]
    exact sameWork_apply fun h => absurd h ht
  · rw [log_setPhase]
    cases eff with
    | save job => exact Or.inr ⟨_, rfl, rfl, by simp [storeOf, ht]⟩
    | call c i => exact Or.inr ⟨_, rfl, by simp [launchOf, ht], rfl⟩
    | _ => exact Or.inl rfl

/-- A runner of the task. -/
theorem touch_of_eq {t : Int} {k : Kind} {w : World} {rid : Int} {a : Answer} {r : Runner} {eff : Effect}
    {next : Option Phase} {row : Task} (hr : w.runners.get rid = some r) (ht : r.task = t)
    (hs : r.step w.ctx a = some (eff, next)) (hrow : w.tasks.get t = some row)
    (hk : ∀ job, r.phase.copy = some job → job.kind = k) :
    Touch t k w (.runner rid a) ((w.apply r.task eff).setPhase rid next) := by
  subst ht
  have hstore := (Runner.turn hs).store_iff
  have hlaunch := Runner.launch_iff hs hk
  have hnone : (∀ job, eff ≠ .save job) → r.phase.atStore = none := by
    intro hno
    cases hst : r.phase.atStore with
    | none => rfl
    | some ji => exact absurd ((hstore _).mpr ⟨ji.1, ji.2, hst, rfl⟩) (hno _)
  by_cases hsave : ∃ job, eff = .save job
  · obtain ⟨job', rfl⟩ := hsave
    obtain ⟨job, i, hst, rfl⟩ := (hstore job').mp rfl
    refine .store rid a r job i _ hr rfl hst (hk job (Phase.copy_of_atStore hst)) ?_ ?_
    · simp [payload, apply, get_updateTaskPayload, hrow]
    · simp [apply]
  · have hno : ∀ job, eff ≠ .save job := fun job he => hsave ⟨job, he⟩
    have hp : ((w.apply r.task eff).setPhase rid next).payload r.task = w.payload r.task := by
      have hp₀ : w.payload r.task = some row.payload := Option.map_eq_some_iff.mpr ⟨row, hrow, rfl⟩
      rw [hp₀]
      refine payload_of_sameWork ?_ hp₀
      rw [tasks_setPhase]
      exact sameWork_apply fun _ => hno
    cases hl : r.phase.launching a with
    | true =>
      obtain ⟨i, rfl⟩ := hlaunch.mpr hl
      exact .launch rid a r i _ hr rfl hl (hnone hno) hp (log_setPhase ..)
    | false =>
      have hncall : ∀ i, eff ≠ .call k.launch i := fun i he => by
        rw [hlaunch.mp ⟨i, he⟩] at hl
        cases hl
      refine .other _ _ (fun _ he => by cases he) ?_ hp ?_
      · intro rid' a' r' he hr' _
        cases he
        rw [hr] at hr'
        cases hr'
        exact ⟨hnone hno, hl⟩
      · rw [log_setPhase]
        cases eff with
        | save job => exact absurd rfl (hno job)
        | call c i =>
          refine Or.inr ⟨_, rfl, ?_, rfl⟩
          have hc : c ≠ k.launch := fun hc => hncall i (by rw [hc])
          simp [launchOf, hc]
        | _ => exact Or.inl rfl

/-- A step that is neither an update nor a step of a runner. -/
theorem touch_of_moves {t : Int} {k : Kind} {w w' : World} {e : Event} {text : PayloadText}
    (h : Moves w e w') (he : ∀ id text, e ≠ .edit id text) (hr : ∀ rid a, e ≠ .runner rid a)
    (hp : w.payload t = some text) : Touch t k w e w' := by
  have hwork : SameWork t w.tasks w'.tasks := by
    by_cases hf : Event.Foreign t w e
    · exact (h.frame hf).work
    · cases h with
      | edit id text hu => exact absurd rfl (he id text)
      | runner rid a r eff next _ _ => exact absurd rfl (hr rid a)
      | marked id u todo s msg hl hk hs => exact sameWork_updateTaskStatus
      | poll _ => exact .refl
      | exit => exact .refl
      | spawned id u todo k hl hk => exact .refl
      | rejected _ _ => exact .refl
      | _ => exact absurd trivial hf
  refine .other e w' (he t) (fun rid a r heq => absurd heq (hr rid a)) ?_ ?_
  · exact (payload_of_sameWork hwork hp).trans hp.symm
  · cases h with
    | runner rid a r eff next _ _ => exact absurd rfl (hr rid a)
    | exit => exact Or.inr ⟨_, rfl, rfl, rfl⟩
    | _ => exact Or.inl rfl

/-- **Every step is an update, a store or a launch of the task, or none of them.** -/
theorem touch {t : Int} {k : Kind} {w w' : World} {e : Event} {row : Task} (h : step w e = some w')
    (hT : Typed t w) (hrow : w.tasks.get t = some row) (hk : Kind.ofType row.type = some k) :
    Touch t k w e w' := by
  have hp : w.payload t = some row.payload := Option.map_eq_some_iff.mpr ⟨row, hrow, rfl⟩
  cases e with
  | edit id text =>
    have hw : w' = { w with tasks := updateTaskPayload w.tasks id text } := by
      simp only [step] at h
      split at h
      · exact (Option.some.inj h).symm
      · cases h
    subst hw
    by_cases hid : id = t
    · subst hid
      exact .update text _ (by simp [payload, get_updateTaskPayload, hrow]) rfl
    · refine .other _ _ (fun _ he => hid (by cases he; rfl)) (fun _ _ _ he => by cases he) ?_ (Or.inl rfl)
      exact (payload_of_sameWork (sameWork_update fun h => absurd h hid) hp).trans hp.symm
  | runner rid a =>
    cases moves h with
    | runner _ _ r eff next hr hs =>
      by_cases ht : r.task = t
      · obtain ⟨⟨row', hrow', hk'⟩, hc⟩ := hT.live rid r hr ht
        obtain rfl : row = row' := Option.some.inj (hrow.symm.trans hrow')
        obtain rfl : k = r.kind := Option.some.inj (hk.symm.trans hk')
        exact touch_of_eq hr ht hs hrow hc
      · exact touch_of_ne hr ht hp
    | rejected _ he => cases he
  | _ => exact touch_of_moves (moves h) (fun _ _ he => by cases he) (fun _ _ he => by cases he) hp

/-! ## A watched run -/

/-- A world with the payload text that the user stored last for the task. -/
structure Watched where
  world : World
  user : PayloadText

def latest (t : Int) (user : PayloadText) : Event → PayloadText
  | .edit id text => if id = t then text else user
  | _ => user

def watch (t : Int) : StepRun.Step Watched Event := fun s e =>
  (step s.world e).map fun w => ⟨w, latest t s.user e⟩

/-- The stored payload has the fields of the user's latest one. -/
def FieldsKept (t : Int) (k : Kind) (s : Watched) : Prop :=
  ∀ text, s.world.payload t = some text → fields k text = fields k s.user

/-- The stored index is at least a count over the log. -/
def Covers (count : List Entry → Nat) (t : Int) (k : Kind) (s : Watched) : Prop :=
  ∀ text job, s.world.payload t = some text → Job.decode k text = .ok job →
    (count s.world.log : Int) ≤ job.completedIndex

/-- A runner that comes to a store holds the fields of the latest update. -/
def StoresLatest (t : Int) (k : Kind) (s : Watched) : Event → Prop
  | .runner rid _ => ∀ r job i, s.world.runners.get rid = some r → r.task = t →
      r.phase.atStore = some (job, i) → fields k s.user = .ok (job.setIndex 0)
  | _ => True

/-- An update brings an index that covers the stored launches, and a runner that comes to a store is past
all launches. -/
def IndexCovers (t : Int) (k : Kind) (s : Watched) : Event → Prop
  | .edit id text => id = t → ∀ job, Job.decode k text = .ok job →
      (settled t k s.world.log : Int) ≤ job.completedIndex
  | .runner rid _ => ∀ r job i, s.world.runners.get rid = some r → r.task = t →
      r.phase.atStore = some (job, i) → (launches t k s.world.log : Int) ≤ i
  | _ => True

/-- So it is for every launch, and a launch is sent only below the stored index. -/
def IndexAhead (t : Int) (k : Kind) (s : Watched) : Event → Prop
  | .edit id text => id = t → ∀ job, Job.decode k text = .ok job →
      (launches t k s.world.log : Int) ≤ job.completedIndex
  | .runner rid a => ∀ r, s.world.runners.get rid = some r → r.task = t →
      (∀ job i, r.phase.atStore = some (job, i) → (launches t k s.world.log : Int) ≤ i) ∧
        (r.phase.launching a = true → ∀ text job, s.world.payload t = some text →
          Job.decode k text = .ok job → (launches t k s.world.log : Int) < job.completedIndex)
  | _ => True

/-- The task has a row of kind `k`, and its copies have the kind of the row. -/
def OfKind (t : Int) (k : Kind) (w : World) : Prop :=
  Typed t w ∧ ∃ row, w.tasks.get t = some row ∧ Kind.ofType row.type = some k

theorem OfKind.step {t : Int} {k : Kind} {w w' : World} {e : Event} (h : OfKind t k w)
    (hs : step w e = some w') : OfKind t k w' := by
  obtain ⟨hT, row, hrow, hk⟩ := h
  obtain ⟨row', hrow', ht⟩ := (moves hs).type hrow
  exact ⟨hT.step (moves hs), row', hrow', ht ▸ hk⟩

theorem OfKind.kind_eq {t : Int} {k : Kind} {w : World} {rid : Int} {r : Runner} (h : OfKind t k w)
    (hr : w.runners.get rid = some r) (ht : r.task = t) : k = r.kind := by
  obtain ⟨hT, row, hrow, hk⟩ := h
  obtain ⟨⟨row', hrow', hk'⟩, -⟩ := hT.live rid r hr ht
  obtain rfl : row = row' := Option.some.inj (hrow.symm.trans hrow')
  exact Option.some.inj (hk.symm.trans hk')

theorem latest_of_ne {t : Int} {user : PayloadText} {e : Event} (he : ∀ text, e ≠ .edit t text) :
    latest t user e = user := by
  cases e with
  | edit id text => exact if_neg fun h => he text (by rw [h])
  | _ => rfl

/-- A watched step, by what it does to the task. -/
theorem watch_touch {t : Int} {k : Kind} {s s' : Watched} {e : Event} (h : watch t s e = some s')
    (hk : OfKind t k s.world) : Touch t k s.world e s'.world ∧ s'.user = latest t s.user e := by
  obtain ⟨w', hs, rfl⟩ := Option.map_eq_some_iff.mp h
  obtain ⟨hT, row, hrow, hkind⟩ := hk
  exact ⟨touch hs hT hrow hkind, rfl⟩

theorem fields_marshal {k : Kind} {job : Job} (hk : job.kind = k) (i : Int) :
    fields k (job.setIndex i).marshal = .ok (job.setIndex 0) := by
  subst hk
  cases job <;> rfl

/-- **Exact step, fields.** -/
theorem fieldsKept_step {t : Int} {k : Kind} {s s' : Watched} {e : Event} (hI : FieldsKept t k s)
    (hk : OfKind t k s.world) (h : watch t s e = some s') : FieldsKept t k s' ↔ StoresLatest t k s e := by
  obtain ⟨htouch, huser⟩ := watch_touch h hk
  obtain ⟨w', user'⟩ := s'
  subst huser
  cases htouch with
  | update text _ hp hl =>
    refine iff_of_true (fun text' hp' => ?_) trivial
    obtain rfl := Option.some.inj (hp.symm.trans hp')
    rw [show latest t s.user (.edit t text) = text from if_pos rfl]
  | store rid a r job i _ hr ht hs hkind hp hl =>
    constructor
    · intro hI' r' job' i' hr' _ hs'
      obtain rfl := Option.some.inj (hr.symm.trans hr')
      cases hs.symm.trans hs'
      rw [← fields_marshal hkind i]
      exact (hI' _ hp).symm
    · intro hC text hp'
      obtain rfl := Option.some.inj (hp.symm.trans hp')
      rw [fields_marshal hkind i]
      exact (hC r job i hr ht hs).symm
  | launch rid a r i _ hr ht hs hn hp hl =>
    refine iff_of_true (fun text hp' => hI text (hp ▸ hp')) fun r' job' i' hr' _ hs' => ?_
    obtain rfl := Option.some.inj (hr.symm.trans hr')
    rw [hn] at hs'
    cases hs'
  | other _ _ he hr hp hl =>
    rw [latest_of_ne he]
    refine iff_of_true (fun text hp' => hI text (hp ▸ hp')) ?_
    cases e with
    | runner rid a =>
      intro r job i hr' ht hs'
      rw [(hr rid a r rfl hr' ht).1] at hs'
      cases hs'
    | _ => trivial

theorem decode_setIndex {k : Kind} {job : Job} (hk : job.kind = k) (i : Int) :
    Job.decode k (job.setIndex i).marshal = .ok (job.setIndex i) := by
  subst hk
  rw [← Job.kind_setIndex i job]
  exact Job.decode_marshal _

theorem covers_iff {count : List Entry → Nat} {t : Int} {k : Kind} {w : World} {user text : PayloadText}
    (hp : w.payload t = some text) :
    Covers count t k ⟨w, user⟩ ↔ ∀ job, Job.decode k text = .ok job → (count w.log : Int) ≤ job.completedIndex := by
  constructor
  · exact fun h job hd => h text job hp hd
  · intro h text' job hp' hd
    obtain rfl := Option.some.inj (hp.symm.trans hp')
    exact h job hd

/-- What a store leaves covers a count just when the index of the store does. -/
theorem covers_store_iff {count : List Entry → Nat} {t : Int} {k : Kind} {w : World} {user : PayloadText}
    {job : Job} {i : Int} (hk : job.kind = k) (hp : w.payload t = some (job.setIndex i).marshal) :
    Covers count t k ⟨w, user⟩ ↔ (count w.log : Int) ≤ i := by
  simp only [covers_iff hp, decode_setIndex hk, Except.ok.injEq, forall_eq', Job.completedIndex_setIndex]

theorem Covers.of_eq {count : List Entry → Nat} {t : Int} {k : Kind} {s : Watched} {w : World}
    {user : PayloadText} (hI : Covers count t k s) (hp : w.payload t = s.world.payload t)
    (hc : count w.log = count s.world.log) : Covers count t k ⟨w, user⟩ := by
  intro text job hp' hd
  rw [show (⟨w, user⟩ : Watched).world.log = w.log from rfl, hc]
  exact hI text job (hp ▸ hp') hd

/-- An entry that is neither a launch nor a store of the task changes no count. -/
theorem counts_of_other {t : Int} {k : Kind} {l l' : List Entry}
    (h : l' = l ∨ ∃ x, l' = l ++ [x] ∧ launchOf t k x = false ∧ storeOf t x = false) :
    launches t k l' = launches t k l ∧ settled t k l' = settled t k l := by
  rcases h with rfl | ⟨x, rfl, hlaunch, hstore⟩
  · exact ⟨rfl, rfl⟩
  · rw [launches_snoc, settled_snoc, hlaunch, hstore]
    exact ⟨rfl, rfl⟩

/-- **Exact step, index.** -/
theorem covers_settled_step {t : Int} {k : Kind} {s s' : Watched} {e : Event}
    (hI : Covers (settled t k) t k s) (hk : OfKind t k s.world) (h : watch t s e = some s') :
    Covers (settled t k) t k s' ↔ IndexCovers t k s e := by
  obtain ⟨htouch, -⟩ := watch_touch h hk
  obtain ⟨w', user'⟩ := s'
  replace htouch : Touch t k s.world e w' := htouch
  cases htouch with
  | update text _ hp hl =>
    rw [covers_iff hp, hl]
    exact ⟨fun h _ => h, fun h => h rfl⟩
  | store rid a r job i _ hr ht hs hkind hp hl =>
    rw [covers_store_iff hkind hp, hl, settled_saved]
    constructor
    · intro hle r' job' i' hr' _ hs'
      obtain rfl := Option.some.inj (hr.symm.trans hr')
      cases hs.symm.trans hs'
      exact hle
    · exact fun hC => hC r job i hr ht hs
  | launch rid a r i _ hr ht hs hn hp hl =>
    refine iff_of_true (hI.of_eq hp (by rw [hl, settled_call])) fun r' job' i' hr' _ hs' => ?_
    obtain rfl := Option.some.inj (hr.symm.trans hr')
    rw [hn] at hs'
    cases hs'
  | other _ _ he hr hp hl =>
    refine iff_of_true (hI.of_eq hp (counts_of_other hl).2) ?_
    cases e with
    | edit id text => exact fun hid => absurd (by rw [hid]) (he text)
    | runner rid a =>
      intro r job i hr' ht hs'
      rw [(hr rid a r rfl hr' ht).1] at hs'
      cases hs'
    | _ => trivial

theorem covers_launches_step {t : Int} {k : Kind} {s s' : Watched} {e : Event}
    (hI : Covers (launches t k) t k s) (hk : OfKind t k s.world) (h : watch t s e = some s') :
    Covers (launches t k) t k s' ↔ IndexAhead t k s e := by
  obtain ⟨htouch, -⟩ := watch_touch h hk
  obtain ⟨w', user'⟩ := s'
  replace htouch : Touch t k s.world e w' := htouch
  cases htouch with
  | update text _ hp hl =>
    rw [covers_iff hp, hl]
    exact ⟨fun h _ => h, fun h => h rfl⟩
  | store rid a r job i _ hr ht hs hkind hp hl =>
    rw [covers_store_iff hkind hp, hl, launches_saved]
    constructor
    · intro hle r' hr' _
      obtain rfl := Option.some.inj (hr.symm.trans hr')
      refine ⟨fun job' i' hs' => ?_, fun hl' => ?_⟩
      · cases hs.symm.trans hs'
        exact hle
      · rw [Phase.launching_of_atStore hs a] at hl'
        cases hl'
    · exact fun hC => (hC r hr ht).1 job i hs
  | launch rid a r i _ hr ht hs hn hp hl =>
    simp only [Covers, hp, hl, launches_call, Nat.cast_add, Nat.cast_one, Int.add_one_le_iff]
    constructor
    · intro hlt r' hr' _
      obtain rfl := Option.some.inj (hr.symm.trans hr')
      refine ⟨fun job' i' hs' => ?_, fun _ => hlt⟩
      rw [hn] at hs'
      cases hs'
    · exact fun hC => (hC r hr ht).2 hs
  | other _ _ he hr hp hl =>
    refine iff_of_true (hI.of_eq hp (counts_of_other hl).1) ?_
    cases e with
    | edit id text => exact fun hid => absurd (by rw [hid]) (he text)
    | runner rid a =>
      intro r hr' ht
      obtain ⟨hst, hla⟩ := hr rid a r rfl hr' ht
      rw [hst, hla]
      exact ⟨fun job i hs' => absurd hs' (by simp), fun hl' => absurd hl' (by simp)⟩
    | _ => trivial

/-- **The stored payload and the user's updates.** From any state the system can reach, along any run: the
fields of the latest update are kept throughout just when every store comes from a copy that has them; the
index covers the stored launches throughout, or all launches with the one in hand, just when every update
and every store brings such an index, and in the second case no launch is sent at the stored index. -/
theorem updates_kept_iff {tasks : Tasks} {es₀ es : List Event} {w₀ : World} {s : Watched} {t : Int}
    {k : Kind} {row : Task} (h₀ : StepRun.Run step (Always World Event) (off tasks) es₀ w₀)
    (hrow : w₀.tasks.get t = some row) (hk : Kind.ofType row.type = some k)
    (h : exec (watch t) ⟨w₀, row.payload⟩ es = some s) :
    (Throughout (watch t) (FieldsKept t k) ⟨w₀, row.payload⟩ es ↔
      StepRun.Run (watch t) (StoresLatest t k) ⟨w₀, row.payload⟩ es s) ∧
    (Throughout (watch t) (Covers (settled t k) t k) ⟨w₀, row.payload⟩ es ↔
      Covers (settled t k) t k ⟨w₀, row.payload⟩ ∧
        StepRun.Run (watch t) (IndexCovers t k) ⟨w₀, row.payload⟩ es s) ∧
    (Throughout (watch t) (Covers (launches t k) t k) ⟨w₀, row.payload⟩ es ↔
      Covers (launches t k) t k ⟨w₀, row.payload⟩ ∧
        StepRun.Run (watch t) (IndexAhead t k) ⟨w₀, row.payload⟩ es s) := by
  have hkind : OfKind t k w₀ := ⟨typed_of_run h₀, row, hrow, hk⟩
  have keep : ∀ (C : Watched → Event → Prop) (v : Watched) e v', OfKind t k v.world → C v e →
      watch t v e = some v' → OfKind t k v'.world := by
    intro C v e v' hv _ hs
    obtain ⟨w', hs', rfl⟩ := Option.map_eq_some_iff.mp hs
    exact hv.step hs'
  refine ⟨?_, ?_, ?_⟩
  · refine throughout_iff_of_invariant (J := fun v => OfKind t k v.world)
      (fun v e v' hi hj hs => fieldsKept_step hi hj hs) (fun v e v' _ => keep _ v e v') ?_ hkind h
    intro text hp
    rw [show (⟨w₀, row.payload⟩ : Watched).world.payload t = some row.payload from
      Option.map_eq_some_iff.mpr ⟨row, hrow, rfl⟩] at hp
    rw [Option.some.inj hp]
  · exact throughout_iff_start (J := fun v => OfKind t k v.world)
      (fun v e v' hi hj hs => covers_settled_step hi hj hs) (fun v e v' _ => keep _ v e v') hkind h
  · exact throughout_iff_start (J := fun v => OfKind t k v.world)
      (fun v e v' hi hj hs => covers_launches_step hi hj hs) (fun v e v' _ => keep _ v e v') hkind h

/-- The start of a process on `oneTask`, with the payload its user gave it. -/
def oneWatched : Watched where
  world := off oneTask
  user := ({ tenantID := 1, instancesPerTenant := 2 } : BatchCreatePayload).marshal

/-- From the start of the process to the store after the first launch. -/
def untilSave : List Event := untilSpawn ++ untilLaunch 1 ++ [.runner 1 .none, .runner 1 .none]

theorem updates_kept_untilSave : ∃ s, exec (watch 1) oneWatched untilSave = some s ∧
    (Throughout (watch 1) (FieldsKept 1 .batchCreate) oneWatched untilSave ↔
      StepRun.Run (watch 1) (StoresLatest 1 .batchCreate) oneWatched untilSave s) ∧
    (Throughout (watch 1) (Covers (settled 1 .batchCreate) 1 .batchCreate) oneWatched untilSave ↔
      Covers (settled 1 .batchCreate) 1 .batchCreate oneWatched ∧
        StepRun.Run (watch 1) (IndexCovers 1 .batchCreate) oneWatched untilSave s) ∧
    (Throughout (watch 1) (Covers (launches 1 .batchCreate) 1 .batchCreate) oneWatched untilSave ↔
      Covers (launches 1 .batchCreate) 1 .batchCreate oneWatched ∧
        StepRun.Run (watch 1) (IndexAhead 1 .batchCreate) oneWatched untilSave s) := by
  obtain ⟨s, hs⟩ : ∃ s, exec (watch 1) oneWatched untilSave = some s :=
    Option.isSome_iff_exists.mp rfl
  have hrow : (off oneTask).tasks.get 1 =
      some { type := .batchCreate, status := .pending, payload := oneWatched.user } := rfl
  exact ⟨s, hs, updates_kept_iff (.nil (off oneTask)) hrow rfl hs⟩

/-! ## An update that is lost -/

/-- The user moves the task to another region; the form sends no index. -/
def moved : BatchCreatePayload where
  tenantID := 1
  instancesPerTenant := 2
  region := "eu-frankfurt-1"

/-- The update comes after the first store, then the runner launches and stores once more. -/
def lateUpdate : List Event :=
  [.runner 1 .none, .runner 1 .none, .runner 1 .none, .runner 1 .none, .runner 1 (.oci none),
    .runner 1 .none, .runner 1 .none]

/-- The update sets the index back below the launch; the next store drops the update. -/
theorem update_lost : ∃ s₁ s₂, exec (watch 1) oneWatched (untilSave ++ [.edit 1 moved.marshal]) = some s₁ ∧
    ¬ Covers (settled 1 .batchCreate) 1 .batchCreate s₁ ∧
    exec (watch 1) oneWatched (untilSave ++ [.edit 1 moved.marshal] ++ lateUpdate) = some s₂ ∧
    ¬ FieldsKept 1 .batchCreate s₂ := by
  obtain ⟨s₁, h₁⟩ : ∃ s, exec (watch 1) oneWatched (untilSave ++ [.edit 1 moved.marshal]) = some s :=
    Option.isSome_iff_exists.mp rfl
  obtain ⟨s₂, h₂⟩ : ∃ s, exec (watch 1) oneWatched (untilSave ++ [.edit 1 moved.marshal] ++ lateUpdate) =
      some s := Option.isSome_iff_exists.mp rfl
  have hpay₁ : s₁.world.payload 1 = some moved.marshal :=
    Option.some.inj ((congrArg (Option.map fun v : Watched => v.world.payload 1) h₁).symm.trans rfl)
  have hcount : settled 1 .batchCreate s₁.world.log = 1 :=
    Option.some.inj
      ((congrArg (Option.map fun v : Watched => settled 1 .batchCreate v.world.log) h₁).symm.trans rfl)
  have hpay₂ : s₂.world.payload 1 =
      some ({ tenantID := 1, instancesPerTenant := 2, completedIndex := 2 } : BatchCreatePayload).marshal :=
    Option.some.inj ((congrArg (Option.map fun v : Watched => v.world.payload 1) h₂).symm.trans rfl)
  have huser : s₂.user = moved.marshal :=
    Option.some.inj ((congrArg (Option.map Watched.user) h₂).symm.trans rfl)
  refine ⟨s₁, s₂, h₁, fun hI => ?_, h₂, fun hI => ?_⟩
  · have := hI moved.marshal (.create moved) hpay₁ rfl
    rw [hcount] at this
    exact absurd this (by decide)
  · have := hI _ hpay₂
    rw [huser] at this
    exact absurd (Job.create.inj (Except.ok.inj this)) (by decide)

/-! ## Updates apart from the runners -/

/-- An update of the task comes when no copy of its row is listed or held. -/
def Apart (t : Int) (s : Watched) : Event → Prop
  | .edit id _ => id = t → s.world.NoRunner t ∧ ∀ u, (t, u) ∉ s.world.loop.held
  | _ => True

/-- Every copy of the row has the fields of the latest update. -/
structure Carries (t : Int) (k : Kind) (s : Watched) : Prop where
  stored : FieldsKept t k s
  listed : ∀ u, (t, u) ∈ s.world.loop.held → fields k u.payload = fields k s.user
  text : ∀ rid r, s.world.runners.get rid = some r → r.task = t → fields k r.text = fields k s.user
  copy : ∀ rid r job, s.world.runners.get rid = some r → r.task = t → r.phase.copy = some job →
    fields k s.user = .ok (job.setIndex 0)

theorem Carries.storesLatest {t : Int} {k : Kind} {s : Watched} (hc : Carries t k s) (e : Event) :
    StoresLatest t k s e := by
  cases e with
  | runner rid a => exact fun r job i hr ht hs => hc.copy rid r job hr ht (Phase.copy_of_atStore hs)
  | _ => trivial

theorem setIndex_setIndex (job : Job) (i j : Int) : (job.setIndex i).setIndex j = job.setIndex j := by
  cases job <;> rfl

theorem Carries.step {t : Int} {k : Kind} {s s' : Watched} {e : Event} (hc : Carries t k s)
    (hk : OfKind t k s.world) (ha : Apart t s e) (h : watch t s e = some s') : Carries t k s' := by
  have hI : FieldsKept t k s' := (fieldsKept_step hc.stored hk h).mpr (hc.storesLatest e)
  obtain ⟨w', hs, rfl⟩ := Option.map_eq_some_iff.mp h
  have hm := moves hs
  by_cases he : ∃ text, e = .edit t text
  · -- no copy is out
    obtain ⟨text, rfl⟩ := he
    obtain ⟨hno, hun⟩ := ha rfl
    have hsame : w'.loop = s.world.loop ∧ w'.runners = s.world.runners := by
      cases hm with
      | edit _ _ _ => exact ⟨rfl, rfl⟩
      | rejected _ _ => exact ⟨rfl, rfl⟩
    refine ⟨hI, fun u hu => ?_, fun rid r hr ht => ?_, fun rid r job hr ht => ?_⟩
    · exact absurd (hsame.1 ▸ hu) (hun u)
    · exact absurd ht (hno rid r (hsame.2 ▸ hr))
    · exact absurd ht (hno rid r (hsame.2 ▸ hr))
  · have huser : latest t s.user e = s.user := latest_of_ne fun text h => he ⟨text, h⟩
    rw [huser] at hI ⊢
    refine ⟨hI, fun u hu => ?_, fun rid r' hr' ht => ?_, fun rid r' job hr' ht hj => ?_⟩
    · rcases hm.held hu with hu | hu
      · exact hc.listed u hu
      · exact hc.stored _ (Option.map_eq_some_iff.mpr ⟨u, hu, rfl⟩)
    · rcases hm.runners hr' ht with hr | ⟨u, k', hu, -, rfl⟩ | ⟨r, eff, phase, hr, -, rfl⟩
      · exact hc.text rid r' hr ht
      · exact hc.listed u hu
      · exact hc.text rid r hr ht
    · rcases hm.runners hr' ht with hr | ⟨u, k', hu, -, rfl⟩ | ⟨r, eff, phase, hr, hturn, rfl⟩
      · exact hc.copy rid r' job hr ht hj
      · cases hj
      · rcases hturn.copy rfl hj with ⟨-, hd⟩ | ⟨job₀, hj₀, rfl | ⟨i, rfl⟩⟩
        · obtain rfl := hk.kind_eq hr ht
          rw [← hc.text rid r hr ht, fields, hd]
          rfl
        · exact hc.copy rid r job hr ht hj₀
        · rw [setIndex_setIndex]
          exact hc.copy rid r job₀ hr ht hj₀

/-- **Updates while no copy is out are kept.** -/
theorem fields_kept_of_apart {tasks : Tasks} {es : List Event} {s : Watched} {t : Int} {k : Kind}
    {row : Task} (hrow : tasks.get t = some row) (hk : Kind.ofType row.type = some k)
    (hr : StepRun.Run (watch t) (Apart t) ⟨off tasks, row.payload⟩ es s) : FieldsKept t k s := by
  have hstart : Carries t k ⟨off tasks, row.payload⟩ := by
    refine ⟨fun text hp => ?_, fun u hu => absurd hu List.not_mem_nil, ?_, ?_⟩
    · obtain ⟨row', hrow', rfl⟩ := Option.map_eq_some_iff.mp hp
      obtain rfl : row = row' := Option.some.inj (hrow.symm.trans hrow')
      rfl
    · exact fun rid r hr => by simp [off] at hr
    · exact fun rid r job hr => by simp [off] at hr
  have hinv : Carries t k s ∧ OfKind t k s.world := by
    refine hr.invariant (I := fun v => Carries t k v ∧ OfKind t k v.world) ?_
      ⟨hstart, typed_off t tasks, row, hrow, hk⟩
    rintro v e v' ha ⟨hc, hkind⟩ hs
    refine ⟨hc.step hkind ha hs, ?_⟩
    obtain ⟨w', hs', rfl⟩ := Option.map_eq_some_iff.mp hs
    exact hkind.step hs'
  exact hinv.1.stored

end World

end OciHelper.Worker
