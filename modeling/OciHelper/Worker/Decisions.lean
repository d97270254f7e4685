import OciHelper.Worker.World

/-!
# Decisions of the user and terminal statuses

A task is decided when it is paused, cancelled, completed or failed. A runner past its tests writes the
status of its task without reading it again, so a request on a busy task is overwritten.

* `World.Orderly` : no decision falls on a busy task, and no runner starts beside a busy one;
* `World.Calm` : what every such run keeps; `Calm.step`;
* `decisions_final` : in such a run a decided row stays as it is until a user asks for a change;
* `paused_task_turns_pending` : a pause that the task's runner overwrites.
-/

namespace OciHelper.Db

/-- A status the user or the work itself has settled. -/
def TaskStatus.decided : TaskStatus → Bool
  | .pending => false
  | .running => false
  | _ => true

end OciHelper.Db

namespace OciHelper.Worker
open OciHelper.Db

/-- The runner still has its own task to write. -/
def Phase.busy : Phase → Bool
  | .parent _ => false
  | .parentWrite .. => false
  | _ => true

theorem not_busy_enterParent {pid : Int} {phase : Phase} (h : enterParent pid = some phase) :
    phase.busy = false := by
  unfold enterParent at h
  split at h
  · cases h
  · cases h; rfl

/-- A write of the runner's own status: the runner is busy, and stays so only if it wrote "running". -/
theorem Turn.status {k : Kind} {text : PayloadText} {phase : Phase} {s : TaskStatus} {progress : Int}
    {msg : String} {next : Option Phase} (h : Turn k text phase (.status s progress msg) next) :
    phase.busy = true ∧ (s = .running ∨ ∀ p, next = some p → p.busy = false) := by
  cases h with
  | abort _ pid => exact ⟨rfl, Or.inr fun p hp => not_busy_enterParent hp⟩
  | recover => exact ⟨rfl, Or.inr fun p hp => by cases hp⟩
  | loop job tenant pt _ _ hl =>
    cases hl with
    | requeue => exact ⟨rfl, Or.inr fun p hp => by cases hp⟩
    | announce => exact ⟨rfl, Or.inl rfl⟩
    | report => exact ⟨rfl, Or.inl rfl⟩
    | finish _ _ hn =>
      refine ⟨rfl, Or.inr fun p hp => ?_⟩
      rcases hn with rfl | ⟨pid, rfl⟩
      · cases hp
      · exact not_busy_enterParent hp

theorem Turn.busy_of_save {k : Kind} {text : PayloadText} {phase : Phase} {job : Job}
    {next : Option Phase} (h : Turn k text phase (.save job) next) : phase.busy = true := by
  cases h with
  | loop => rfl

/-- A runner that is not busy does not become so. -/
theorem Turn.busy {k : Kind} {text : PayloadText} {phase p : Phase} {eff : Effect} {next : Option Phase}
    (h : Turn k text phase eff next) (hn : next = some p) (hp : p.busy = true) : phase.busy = true := by
  cases h with
  | parent pid _ ho =>
    rcases ho with rfl | ⟨s, progress, msg, rfl⟩ <;> cases hn
    cases hp
  | parentWrite => cases hn
  | _ => rfl

namespace World

/-- No runner works on the task and the loop is not about to start one. -/
structure Free (t : Int) (w : World) : Prop where
  runner : ∀ rid r, w.runners.get rid = some r → r.task = t → r.phase.busy = false
  dispatch : ∀ row todo, w.loop ≠ .dispatch t row todo

/-- **The condition.** Pause, stop and delete fall on free tasks only; the loop claims free tasks only;
and no runner writes a parent that is decided, or completes one that is not free. -/
def Orderly (w : World) : Event → Prop
  | .request id op => op.decides = true → Free id w
  | .claim => ∀ id t todo, w.loop = .scanning ((id, t) :: todo) →
      ∀ row, w.tasks.get id = some row → row.status = .pending → Free id w
  | .runner rid _ => ∀ r, w.runners.get rid = some r → ∀ pid s progress msg,
      r.phase = .parentWrite pid s progress msg →
        (∀ row, w.tasks.get pid = some row → row.status.decided = false) ∧ (s = .running ∨ Free pid w)
  | _ => True

/-- A task at work is undecided, and only one runner works on it. -/
structure Calm (w : World) : Prop where
  busy : ∀ rid r row, w.runners.get rid = some r → r.phase.busy = true →
    w.tasks.get r.task = some row → row.status.decided = false
  unique : ∀ rid rid' r r', w.runners.get rid = some r → w.runners.get rid' = some r' →
    r.phase.busy = true → r'.phase.busy = true → r.task = r'.task → rid = rid'
  claimed : ∀ id t todo, w.loop = .dispatch id t todo →
    (∀ row, w.tasks.get id = some row → row.status.decided = false) ∧
      ∀ rid r, w.runners.get rid = some r → r.task = id → r.phase.busy = false

/-! ## Statuses after a statement -/

/-- A statement that leaves the undecided rows of `t` undecided. -/
def KeepsOpen (t : Int) (tasks tasks' : Tasks) : Prop :=
  (∀ row, tasks.get t = some row → row.status.decided = false) →
    ∀ row, tasks'.get t = some row → row.status.decided = false

theorem KeepsOpen.refl {t : Int} {tasks : Tasks} : KeepsOpen t tasks tasks := id

theorem keepsOpen_updateTaskStatus {t id : Int} {tasks : Tasks} {now : Nat} {s : TaskStatus}
    {progress : Int} {msg : String} (h : id = t → s.decided = false) :
    KeepsOpen t tasks (updateTaskStatus tasks now id s progress msg) := by
  intro hopen row hr
  rw [get_updateTaskStatus] at hr
  split at hr
  · obtain ⟨row', -, rfl⟩ := Option.map_eq_some_iff.mp hr
    exact h (by omega)
  · exact hopen row hr

theorem keepsOpen_updateTaskPayload {t id : Int} {tasks : Tasks} {text : PayloadText} :
    KeepsOpen t tasks (updateTaskPayload tasks id text) := by
  intro hopen row hr
  rw [get_updateTaskPayload] at hr
  split at hr
  · obtain ⟨row', hr', rfl⟩ := Option.map_eq_some_iff.mp hr
    exact hopen row' hr'
  · exact hopen row hr

theorem keepsOpen_resetRunningTasks {t : Int} {tasks : Tasks} :
    KeepsOpen t tasks (resetRunningTasks tasks) := by
  intro hopen row hr
  rw [get_resetRunningTasks] at hr
  obtain ⟨row', hr', rfl⟩ := Option.map_eq_some_iff.mp hr
  split
  · rfl
  · exact hopen row' hr'

theorem keepsOpen_insert {t : Int} {tasks : Tasks} {row : Task} (hf : row.Fresh) :
    KeepsOpen t tasks (tasks.insert row) := by
  intro hopen row' hr
  rw [KeyTable.get_insert] at hr
  split at hr
  · cases hr
    rcases hf.status with h | ⟨h, -⟩ <;> rw [h] <;> rfl
  · exact hopen row' hr

theorem keepsOpen_claim {t id : Int} {tasks : Tasks} {now : Nat} :
    KeepsOpen t tasks (tasks.update id fun t => { t with status := .running, startedAt := some now }) := by
  intro hopen row hr
  rw [KeyTable.get_update] at hr
  split at hr
  · obtain ⟨row', -, rfl⟩ := Option.map_eq_some_iff.mp hr
    rfl
  · exact hopen row hr

/-! ## The invariant -/

/-- A step after which the tasks at work are among those at work before. -/
theorem Calm.of_sub {w w' : World} (h : Calm w)
    (hrun : ∀ rid r', w'.runners.get rid = some r' → r'.phase.busy = true →
      ∃ r, w.runners.get rid = some r ∧ r.phase.busy = true ∧ r.task = r'.task)
    (hloop : ∀ id t todo, w'.loop = .dispatch id t todo → w.loop = .dispatch id t todo)
    (hopen : ∀ t, ¬ Free t w' → KeepsOpen t w.tasks w'.tasks) : Calm w' where
  busy := by
    intro rid r' row hr' hb hrow
    obtain ⟨r, hr, hb', ht⟩ := hrun rid r' hr' hb
    refine hopen r'.task ?_ (fun row hrow => h.busy rid r row hr hb' (ht ▸ hrow)) row hrow
    intro hfree
    rw [hfree.runner rid r' hr' rfl] at hb
    cases hb
  unique := by
    intro rid rid' r r' hr hr' hb hb' ht
    obtain ⟨s, hs, hsb, hst⟩ := hrun rid r hr hb
    obtain ⟨s', hs', hsb', hst'⟩ := hrun rid' r' hr' hb'
    exact h.unique rid rid' s s' hs hs' hsb hsb' (hst.trans (ht.trans hst'.symm))
  claimed := by
    intro id t todo hl
    obtain ⟨hrow, hno⟩ := h.claimed id t todo (hloop id t todo hl)
    refine ⟨hopen id (fun hfree => hfree.dispatch t todo hl) hrow, fun rid r' hr' ht => ?_⟩
    cases hb : r'.phase.busy with
    | false => rfl
    | true =>
      obtain ⟨r, hr, hb', ht'⟩ := hrun rid r' hr' hb
      rw [hno rid r hr (ht'.trans ht)] at hb'
      cases hb'

/-- A step that changes neither the runners nor the loop's claim. -/
theorem Calm.of_same {w w' : World} (h : Calm w) (hr : w'.runners = w.runners)
    (hloop : ∀ id t todo, w'.loop = .dispatch id t todo → w.loop = .dispatch id t todo)
    (hopen : ∀ t, ¬ Free t w' → KeepsOpen t w.tasks w'.tasks) : Calm w' :=
  h.of_sub (fun _ r' hr' hb => ⟨r', hr ▸ hr', hb, rfl⟩) hloop hopen

theorem calm_spawned {w : World} {id : Int} {t : Task} {todo : List (Int × Task)} {k : Kind} (h : Calm w)
    (hl : w.loop = .dispatch id t todo) : Calm { w.spawn id t k with loop := .scanning todo } := by
  obtain ⟨hopen, hno⟩ := h.claimed id t todo hl
  have other : ∀ rid r, w.runners.get rid = some r → r.phase.busy = true → r.task ≠ id := by
    intro rid r hr hb ht
    rw [hno rid r hr ht] at hb
    cases hb
  refine ⟨?_, ?_, fun id' t' todo' hl' => by cases hl'⟩
  · intro rid r row hr hb hrow
    rcases get_spawn hr with ⟨-, rfl⟩ | hr
    · exact hopen row hrow
    · exact h.busy rid r row hr hb hrow
  · intro rid rid' r r' hr hr' hb hb' ht
    rcases get_spawn hr with ⟨rfl, rfl⟩ | hr
    · rcases get_spawn hr' with ⟨rfl, -⟩ | hr'
      · rfl
      · exact absurd ht.symm (other rid' r' hr' hb')
    · rcases get_spawn hr' with ⟨-, rfl⟩ | hr'
      · exact absurd ht (other rid r hr hb)
      · exact h.unique rid rid' r r' hr hr' hb hb' ht

theorem calm_runner {w : World} {rid : Int} {a : Answer} {r : Runner} {eff : Effect}
    {next : Option Phase} (h : Calm w) (hc : Orderly w (.runner rid a)) (hr : w.runners.get rid = some r)
    (hs : r.step w.ctx a = some (eff, next)) : Calm ((w.apply r.task eff).setPhase rid next) := by
  have hturn := Runner.turn hs
  -- a busy runner after the step was busy before it
  have hrun : ∀ rid' r', ((w.apply r.task eff).setPhase rid next).runners.get rid' = some r' →
      r'.phase.busy = true → ∃ r₀, w.runners.get rid' = some r₀ ∧ r₀.phase.busy = true ∧ r₀.task = r'.task := by
    intro rid' r' hr' hb
    rcases get_setPhase hr' with ⟨-, h'⟩ | ⟨r₀, phase, rfl, h', hn, rfl⟩
    · exact ⟨r', by simpa using h', hb, rfl⟩
    · rw [runners_apply, hr] at h'
      cases h'
      exact ⟨r, hr, hturn.busy hn hb, rfl⟩
  refine h.of_sub hrun (fun id t todo hl => by simpa using hl) fun t hfree => ?_
  rw [tasks_setPhase]
  cases eff with
  | none => exact KeepsOpen.refl
  | call c i => exact KeepsOpen.refl
  | save job => exact keepsOpen_updateTaskPayload
  | status s progress msg =>
    obtain ⟨hb, hs'⟩ := hturn.status
    refine keepsOpen_updateTaskStatus fun ht => ?_
    subst ht
    rcases hs' with rfl | hn
    · rfl
    · -- the runner is done with its task, so the task is free
      refine absurd ⟨?_, ?_⟩ hfree
      · intro rid' r' hr' ht'
        rcases get_setPhase hr' with ⟨hne, h'⟩ | ⟨r₀, phase, rfl, h', hn', rfl⟩
        · rw [runners_apply] at h'
          cases hb' : r'.phase.busy with
          | false => rfl
          | true => exact absurd (h.unique rid' rid r' r h' hr hb' hb ht') hne
        · exact hn phase hn'
      · intro row todo hl
        rw [loop_setPhase, loop_apply] at hl
        rw [(h.claimed r.task row todo hl).2 rid r hr rfl] at hb
        cases hb
  | parent pid s progress msg =>
    obtain ⟨hp, rfl⟩ := hturn.phase_of_parent
    refine keepsOpen_updateTaskStatus fun ht => ?_
    subst ht
    rcases (hc r hr pid s progress msg hp).2 with rfl | hfree'
    · rfl
    · refine absurd ⟨?_, ?_⟩ hfree
      · intro rid' r' hr' ht'
        rcases get_setPhase hr' with ⟨-, h'⟩ | ⟨r₀, phase, rfl, h', hn', rfl⟩
        · exact hfree'.runner rid' r' (by simpa using h') ht'
        · cases hn'
      · intro row todo hl
        rw [loop_setPhase, loop_apply] at hl
        exact hfree'.dispatch row todo hl

theorem Calm.step {w w' : World} {e : Event} (hm : Moves w e w') (hc : Orderly w e) (h : Calm w) :
    Calm w' := by
  cases hm with
  | tick => exact h.of_same rfl (fun _ _ _ hl => hl) fun _ _ => .refl
  | boot _ => exact h.of_same rfl (fun _ _ _ hl => by cases hl) fun _ _ => .refl
  | reset _ =>
    exact h.of_same rfl (fun _ _ _ hl => by cases hl) fun _ _ => keepsOpen_resetRunningTasks
  | poll _ => exact h.of_same rfl (fun _ _ _ hl => by cases hl) fun _ _ => .refl
  | listed _ => exact h.of_same rfl (fun _ _ _ hl => by cases hl) fun _ _ => .refl
  | claimed id u row todo hl hr hp =>
    have hfree := hc id u todo hl row hr hp
    have hrun : ∀ t, KeepsOpen t w.tasks (w.tasks.update id fun t =>
        { t with status := .running, startedAt := some w.clock }) := fun t => keepsOpen_claim
    refine ⟨?_, h.unique, ?_⟩
    · intro rid r row' hr' hb hrow
      exact hrun r.task (fun row hrow => h.busy rid r row hr' hb hrow) row' hrow
    · intro id' t' todo' hl'
      cases hl'
      refine ⟨fun row' hrow => ?_, hfree.runner⟩
      rw [KeyTable.get_update_self, hr] at hrow
      cases hrow
      rfl
  | lost id u todo _ _ => exact h.of_same rfl (fun _ _ _ hl => by cases hl) fun _ _ => .refl
  | spawned id u todo k hl _ => exact calm_spawned h hl
  | marked id u todo s msg hl _ _ =>
    refine h.of_same rfl (fun _ _ _ hl => by cases hl) fun t hfree => ?_
    refine keepsOpen_updateTaskStatus fun ht => ?_
    subst ht
    refine absurd ⟨(h.claimed id u todo hl).2, fun row todo' hl' => by cases hl'⟩ hfree
  | loopPanic _ => exact h.of_same rfl (fun _ _ _ hl => by cases hl) fun _ _ => .refl
  | loopStop _ _ => exact h.of_same rfl (fun _ _ _ hl => by cases hl) fun _ _ => .refl
  | runner rid a r eff next hr hs => exact calm_runner h hc hr hs
  | request id op _ =>
    refine h.of_same rfl (fun _ _ _ hl => hl) fun t hfree => keepsOpen_updateTaskStatus fun ht => ?_
    subst ht
    cases hd : op.decides with
    | false => cases op <;> first | rfl | cases hd
    | true => exact absurd ⟨(hc hd).runner, (hc hd).dispatch⟩ hfree
  | edit id payload _ =>
    exact h.of_same rfl (fun _ _ _ hl => hl) fun _ _ => keepsOpen_updateTaskPayload
  | rejected _ _ => exact h
  | submit req b => exact h.of_same rfl (fun _ _ _ hl => hl) fun _ _ => .refl
  | insert bid b row hf =>
    exact h.of_same rfl (fun _ _ _ hl => hl) fun _ _ => keepsOpen_insert hf
  | batchStart tid ids row hf =>
    exact h.of_same rfl (fun _ _ _ hl => hl) fun _ _ => keepsOpen_insert hf
  | closeStop => exact h.of_same rfl (fun _ _ _ hl => hl) fun _ _ => .refl
  | shutdownReset =>
    exact h.of_same rfl (fun _ _ _ hl => hl) fun _ _ => keepsOpen_resetRunningTasks
  | exit =>
    refine ⟨?_, ?_, fun id t todo hl => by cases hl⟩
    · intro rid r row hr
      simp at hr
    · intro rid rid' r r' hr
      simp at hr

theorem calm_off (tasks : Tasks) : Calm (off tasks) where
  busy := fun _ _ _ hr => by simp [off] at hr
  unique := fun _ _ _ _ hr => by simp [off] at hr
  claimed := fun _ _ _ hl => by cases hl

/-! ## Decided rows -/

theorem get_updateTaskStatus_of_ne {tasks : Tasks} {now : Nat} {id t : Int} {s : TaskStatus} {progress : Int}
    {msg : String} (h : t ≠ id) : (updateTaskStatus tasks now id s progress msg).get t = tasks.get t := by
  rw [get_updateTaskStatus, if_neg h]

theorem get_resetRunningTasks_of_decided {tasks : Tasks} {t : Int} {row : Task} (hr : tasks.get t = some row)
    (hd : row.status.decided = true) : (resetRunningTasks tasks).get t = some row := by
  rw [get_resetRunningTasks, hr, Option.map_some, if_neg]
  intro h
  rw [h] at hd
  cases hd

/-- A decided row changes by a request on its task only. -/
theorem Calm.keeps {w w' : World} {e : Event} {t : Int} {row : Task} (h : Calm w) (hm : Moves w e w')
    (hc : Orderly w e) (hu : Untouched t e) (hr : w.tasks.get t = some row)
    (hd : row.status.decided = true) : w'.tasks.get t = some row := by
  have open_ne : ∀ id, (∀ r, w.tasks.get id = some r → r.status.decided = false) → t ≠ id := by
    rintro id hopen rfl
    rw [hopen row hr] at hd
    cases hd
  cases hm with
  | reset _ => exact get_resetRunningTasks_of_decided hr hd
  | shutdownReset => exact get_resetRunningTasks_of_decided hr hd
  | claimed id u row' todo _ hr' hp =>
    have hne : t ≠ id := open_ne id fun r h => by
      rw [hr'] at h
      cases h
      rw [hp]
      rfl
    exact (w.tasks.get_update_of_ne _ hne).trans hr
  | marked id u todo s msg hl _ _ =>
    exact (get_updateTaskStatus_of_ne (open_ne id (h.claimed id u todo hl).1)).trans hr
  | request id op _ => exact (get_updateTaskStatus_of_ne fun h => hu h.symm).trans hr
  | edit id payload _ => exact (w.tasks.get_update_of_ne _ fun h => hu h.symm).trans hr
  | insert bid b row' _ => exact w.tasks.get_insert_of_some row' hr
  | batchStart tid ids row' _ => exact w.tasks.get_insert_of_some row' hr
  | runner rid a r eff next hrun hs =>
    have hturn := Runner.turn hs
    have busy_ne : r.phase.busy = true → t ≠ r.task := fun hb =>
      open_ne r.task fun row' hrow => h.busy rid r row' hrun hb hrow
    rw [tasks_setPhase]
    cases eff with
    | none => exact hr
    | call c i => exact hr
    | save job => exact (w.tasks.get_update_of_ne _ (busy_ne hturn.busy_of_save)).trans hr
    | status s progress msg => exact (get_updateTaskStatus_of_ne (busy_ne hturn.status.1)).trans hr
    | parent pid s progress msg =>
      have hp := (hc r hrun pid s progress msg hturn.phase_of_parent.1).1
      exact (get_updateTaskStatus_of_ne (open_ne pid hp)).trans hr
  | _ => exact hr

/-- **Decisions are final.** In every run that meets the condition, from any state in which a task is
paused, cancelled, completed or failed, its row stays as it is until the next request on that task. -/
theorem decisions_final {tasks : Tasks} {es₁ es₂ : List Event} {w₁ w₂ : World} {t : Int} {row : Task}
    (h₁ : StepRun.Run step Orderly (off tasks) es₁ w₁)
    (h₂ : StepRun.Run step (fun w e => Orderly w e ∧ Untouched t e) w₁ es₂ w₂)
    (hr : w₁.tasks.get t = some row) (hd : row.status.decided = true) : w₂.tasks.get t = some row := by
  have hcalm : Calm w₁ := h₁.invariant (fun w e w' hc h hs => h.step (moves hs) hc) (calm_off tasks)
  have hstep : ∀ w e w', Orderly w e ∧ Untouched t e → Calm w ∧ w.tasks.get t = some row →
      step w e = some w' → Calm w' ∧ w'.tasks.get t = some row := fun w e w' hc h hs =>
    ⟨h.1.step (moves hs) hc.1, h.1.keeps (moves hs) hc.1 hc.2 h.2 hd⟩
  exact (h₂.invariant hstep ⟨hcalm, hr⟩).2

/-- A task paused before the loop looks at it. -/
theorem decisions_final_oneTask : ∃ w₁ w₂ row,
    StepRun.exec step (off oneTask) [.boot, .request 1 .pause] = some w₁ ∧
    StepRun.exec step w₁ [.reset, .poll, .claim] = some w₂ ∧
    w₁.tasks.get 1 = some row ∧ row.status = .paused ∧ w₂.tasks.get 1 = some row := by
  obtain ⟨w₁, hw₁⟩ : ∃ w, StepRun.exec step (off oneTask) [.boot, .request 1 .pause] = some w := ⟨_, rfl⟩
  obtain ⟨w₂, hw₂⟩ : ∃ w, StepRun.exec step w₁ [.reset, .poll, .claim] = some w := by
    cases hw₁
    exact ⟨_, rfl⟩
  have h₁ : StepRun.Run step Orderly (off oneTask) [.boot, .request 1 .pause] w₁ := by
    cases hw₁
    exact .cons trivial rfl (.cons (fun _ => ⟨fun rid r hr => (by cases hr), fun row todo hl => by cases hl⟩)
      rfl (.nil _))
  have h₂ : StepRun.Run step (fun w e => Orderly w e ∧ Untouched 1 e) w₁ [.reset, .poll, .claim] w₂ := by
    cases hw₁
    cases hw₂
    exact .cons ⟨trivial, trivial⟩ rfl (.cons ⟨trivial, trivial⟩ rfl
      (.cons ⟨fun id t todo hl => (by cases hl), trivial⟩ rfl (.nil _)))
  obtain ⟨row, hr, hp⟩ : ∃ row, w₁.tasks.get 1 = some row ∧ row.status = .paused := by
    cases hw₁
    exact ⟨_, rfl, rfl⟩
  exact ⟨w₁, w₂, row, hw₁, hw₂, hr, hp, decisions_final h₁ h₂ hr (by rw [hp]; rfl)⟩

/-! ## A run that undoes a decision -/

/-- The user pauses while the runner stands at its status test. -/
def latePause : List Event := untilSpawn ++ (untilLaunch 1).take 3 ++ [.request 1 .pause]

theorem paused_task_turns_pending : ∃ w₁ w₂ row row',
    StepRun.exec step (off oneTask) latePause = some w₁ ∧
    StepRun.Run step (fun _ => Untouched 1) w₁ [.runner 1 .none, .runner 1 .none, .runner 1 .none] w₂ ∧
    w₁.tasks.get 1 = some row ∧ row.status = .paused ∧
    w₂.tasks.get 1 = some row' ∧ row'.status = .pending := by
  obtain ⟨w₁, hw₁⟩ : ∃ w, StepRun.exec step (off oneTask) latePause = some w := ⟨_, rfl⟩
  obtain ⟨w₂, hw₂⟩ : ∃ w, StepRun.exec step w₁ [.runner 1 .none, .runner 1 .none, .runner 1 .none] = some w := by
    cases hw₁
    exact ⟨_, rfl⟩
  have hrun := StepRun.run_of_forall (C := Untouched 1) (by
    intro e he
    cases e <;> trivial) hw₂
  cases hw₁
  cases hw₂
  exact ⟨_, _, _, _, rfl, hrun, rfl, rfl, rfl, rfl⟩

end World

end OciHelper.Worker
