import OciHelper.Worker.Resume

/-!
# One runner a task, one launch an index

* `World.Exclusive` : no task has two live runners, and no index of a `batch_create` task is launched
  twice;
* `exclusive_of_safe` : so it is in every run without an exit in which every poll finds the tasks it
  lists quiet;
* `resume_launches_twice` : a resume request turns a task pending while its runner is in its first
  launch; the next poll starts a second runner from the same index.
-/

namespace OciHelper.Worker
open OciHelper.Db Checkpoint

namespace World

structure Exclusive (w : World) : Prop where
  runner : ∀ rid rid' r r', w.runners.get rid = some r → w.runners.get rid' = some r' →
    r.task = r'.task → rid = rid'
  launch : ∀ t row i, w.tasks.get t = some row → row.type = .batchCreate →
    w.log.count (.call t .launchInstance i) ≤ 1

/-- The process stays up and nobody edits a payload. -/
def InProcess : Event → Prop
  | .exit => False
  | .edit .. => False
  | _ => True

theorem count_calls (t : Int) (k : Kind) (i : Int) (l : List Entry) :
    l.count (.call t k.opening i) = (calls (marks t k l)).count i := by
  induction l with
  | nil => rfl
  | cons e l ih =>
    cases e with
    | call id c j =>
      by_cases h : id = t ∧ c = k.opening
      · obtain ⟨rfl, rfl⟩ := h
        by_cases hj : j = i
        · subst hj
          simp [marks, mark, calls, ih]
        · simp [marks, mark, calls, ih, hj]
      · have hne : Entry.call id c j ≠ .call t k.opening i := fun he => by cases he; exact h ⟨rfl, rfl⟩
        rw [List.count_cons_of_ne hne, ih]
        simp [marks, mark, h]
    | saved id j =>
      rw [List.count_cons_of_ne (by simp), ih]
      by_cases h : id = t <;> simp [marks, mark, calls, h]
    | exit =>
      rw [List.count_cons_of_ne (by simp), ih]
      simp [marks, mark, calls]

/-- A step other than an exit adds no exit to the log. -/
theorem Moves.exit_not_mem {w w' : World} {e : Event} (h : Moves w e w') (he : e ≠ .exit)
    (hl : .exit ∉ w.log) : .exit ∉ w'.log := by
  cases h with
  | exit => exact absurd rfl he
  | runner rid a r eff next _ _ =>
    rw [log_setPhase]
    cases eff <;> simpa [apply] using hl
  | _ => exact hl

theorem InProcess.ne_exit {e : Event} (h : InProcess e) : e ≠ .exit := by
  rintro rfl
  exact h

theorem InProcess.no_edit {e : Event} (h : InProcess e) (t : Int) (payload : PayloadText) :
    e ≠ .edit t payload := by
  rintro rfl
  exact h

/-- **Exclusion.** For any number of tasks and any requests, a run whose polls find the tasks they list
quiet never has two runners of one task, and launches no index twice. -/
theorem exclusive_of_safe {tasks : Tasks} {es : List Event} {w : World}
    (hr : StepRun.Run step (fun w e => InProcess e ∧ ∀ t, Safe t w e) (off tasks) es w) : Exclusive w := by
  have hexit : .exit ∉ w.log :=
    hr.invariant (fun w e w' hc hl hs => (moves hs).exit_not_mem hc.1.ne_exit hl) List.not_mem_nil
  have halone : ∀ t, Alone t w := fun t =>
    hr.invariant (fun w e w' hc ha hs => ha.step (moves hs) (hc.2 t)) (idle_off t tasks).alone
  have hfollow : ∀ t, Follows t (fun _ => True) (fun _ _ _ => True) w := by
    intro t
    refine hr.invariant (fun w e w' hc hI hs => ?_) ?_
    · exact hI.step hs (hc.2 t) (hc.1.no_edit t) trivial (fun _ _ _ _ _ => trivial)
        fun _ _ _ _ _ _ _ => trivial
    · refine follows_of_idle (idle_off t tasks) fun row k _ _ => ?_
      obtain ⟨n, idx, hd⟩ := exists_reads k row.payload
      exact ⟨idx, n, trivial, hd, fun _ => trivial⟩
  refine ⟨fun rid rid' r r' h h' ht => (halone r'.task).unique rid rid' r r' h h' ht rfl, ?_⟩
  intro t row i hrow ht
  rcases hfollow t with ⟨hn, -⟩ | ⟨row', hrow', h⟩
  · rw [hn] at hrow; cases hrow
  · obtain rfl : row = row' := Option.some.inj (hrow.symm.trans hrow')
    obtain ⟨k₀, n, c, -, hc, hsim, -⟩ := h .batchCreate (by rw [ht]; rfl)
    have hno : .exit ∉ c.log := by
      intro hm
      rw [← hsim.log, marks] at hm
      obtain ⟨e, he, hme⟩ := List.mem_filterMap.mp hm
      cases e with
      | exit => exact hexit he
      | call id c i => simp only [mark] at hme; split at hme <;> cases hme
      | saved id i => simp only [mark] at hme; split at hme <;> cases hme
    rw [show Call.launchInstance = Kind.batchCreate.opening from rfl, count_calls, hsim.log]
    exact List.nodup_iff_count_le_one.mp ((inv_of_reachable hc).calls_nodup hno) i

/-- Two tasks with two instances each. -/
def twoTasks : Tasks :=
  oneTask.insert
    { type := .batchCreate, status := .pending,
      payload := ({ tenantID := 2, instancesPerTenant := 2 } : BatchCreatePayload).marshal }

/-- The user pauses the first task after its first launch and resumes it once its runner has ended; the runner that
the next poll starts goes on with the second instance while the second task is at work. -/
def pausedBetween : List Event :=
  untilSpawn ++ [.claim, .dispatch, .claim] ++ untilLaunch 1 ++
    [.runner 1 .none, .runner 1 .none, .runner 1 .none, .runner 1 .none, .request 1 .pause] ++
    untilLaunch 2 ++
    [.runner 1 .none, .runner 1 .none, .runner 1 .none, .request 1 .resume, .poll, .claim, .dispatch] ++
    untilLaunch 3

theorem exclusive_of_safe_pausedBetween : ∃ w,
    StepRun.Run step (fun w e => InProcess e ∧ ∀ t, Safe t w e) (off twoTasks) pausedBetween w ∧
    w.runners.rows.map (fun r => (r.1, r.2.task)) = [(2, 2), (3, 1)] ∧
    w.log = [.call 1 .launchInstance 0, .saved 1 1, .call 2 .launchInstance 0, .saved 1 1,
      .call 1 .launchInstance 1] ∧
    Exclusive w := by
  let test : World → Event → Bool := fun w e => (match e with | .exit | .edit .. => false | _ => true) && w.safe e
  have htest : ∀ w e, test w e = true → InProcess e ∧ ∀ t, Safe t w e := by
    intro w e h
    obtain ⟨hin, hsafe⟩ := (Bool.and_eq_true _ _).mp h
    refine ⟨?_, safe_of_test hsafe⟩
    cases e <;> trivial
  obtain ⟨w, hw⟩ : ∃ w, StepRun.execWhile step test (off twoTasks) pausedBetween = some w :=
    Option.isSome_iff_exists.mp rfl
  have hr := StepRun.run_of_execWhile htest hw
  have hexec := StepRun.exec_of_run hr
  exact ⟨w, hr, StepRun.read_of_exec (f := fun w => w.runners.rows.map fun r => (r.1, r.2.task)) hexec rfl,
    StepRun.read_of_exec (f := log) hexec rfl, exclusive_of_safe hr⟩

/-! ## A run that launches an index twice -/

/-- Pause and resume while the first runner is about to launch; then both runners launch index 0. -/
def quickResume : List Event :=
  untilSpawn ++ (untilLaunch 1).take 5 ++
    [.request 1 .pause, .request 1 .resume, .claim, .poll, .claim, .dispatch, .runner 1 (.oci none)] ++
    untilLaunch 2

theorem resume_launches_twice : ∃ w,
    StepRun.Run step (fun _ => InProcess) (off oneTask) quickResume w ∧ ¬ Exclusive w := by
  obtain ⟨w, hw⟩ : ∃ w, StepRun.exec step (off oneTask) quickResume = some w :=
    Option.isSome_iff_exists.mp rfl
  have hlog : w.log = [.call 1 .launchInstance 0, .call 1 .launchInstance 0] :=
    Option.some.inj ((congrArg (Option.map log) hw).symm.trans rfl)
  have hrow : (w.tasks.get 1).map Task.type = some .batchCreate :=
    Option.some.inj ((congrArg (Option.map fun v : World => (v.tasks.get 1).map Task.type) hw).symm.trans rfl)
  obtain ⟨row, hr, ht⟩ := Option.map_eq_some_iff.mp hrow
  refine ⟨w, StepRun.run_of_forall ?_ hw, fun h => ?_⟩
  · intro e he
    cases e <;> first | trivial | simp [quickResume, untilSpawn, untilLaunch] at he
  · have := h.launch 1 row 0 hr ht
    rw [hlog] at this
    exact absurd this (by decide)

end World

end OciHelper.Worker
