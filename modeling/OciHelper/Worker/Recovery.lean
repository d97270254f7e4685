import OciHelper.Worker.Resume

/-!
# Checkpoint resume over shutdowns, crashes and restarts

* `World.WorkExact` : a completed task made every call, calls came in index order, and a call was
  repeated only after an exit that came before any store;
* `World.Resumable` : the condition under which a run has this property;
* `recovery_exact` : every run that meets the condition has it;
* `lost_checkpoint` : a poll after the reset of `Shutdown` lists a task whose runner is still live; the
  second runner stores its old index over the newer one.
-/

namespace OciHelper.Worker
open OciHelper.Db Checkpoint

namespace World

structure WorkExact (t : Int) (w : World) : Prop where
  complete : ∀ row k job, w.tasks.get t = some row → Kind.ofType row.type = some k →
    Job.decode k row.payload = .ok job → row.status = .completed →
    ∀ i, 0 ≤ i → i < job.total → .call t k.opening i ∈ w.log
  ordered : ∀ row k, w.tasks.get t = some row → Kind.ofType row.type = some k →
    (calls (marks t k w.log)).Pairwise (· ≤ ·)
  repeated : ∀ row k, w.tasks.get t = some row → Kind.ofType row.type = some k →
    ∀ i a b d, w.log = a ++ .call t k.opening i :: (b ++ .call t k.opening i :: d) →
      ∃ b₁ b₂, b = b₁ ++ .exit :: b₂ ∧ ∀ j, .saved t j ∉ b₁

/-- **The condition.** A poll that finds the task pending finds it quiet (`Safe`); no user edits its
payload, and no runner writes it as its parent. -/
def Resumable (t : Int) (w : World) : Event → Prop
  | .edit id _ => id ≠ t
  | .runner rid _ => ∀ r, w.runners.get rid = some r → ∀ s progress msg, r.phase ≠ .parentWrite t s progress msg
  | e => Safe t w e

theorem Resumable.safe {t : Int} {w : World} {e : Event} (h : Resumable t w e) : Safe t w e := by
  cases e <;> first | exact h | trivial

theorem Resumable.no_edit {t : Int} {w : World} {e : Event} (h : Resumable t w e) (payload : PayloadText) :
    e ≠ .edit t payload := by
  rintro rfl
  exact h rfl

end World

theorem Turn.completed {k : Kind} {text : PayloadText} {phase : Phase} {progress : Int} {msg : String}
    {next : Option Phase} (h : Turn k text phase (.status .completed progress msg) next) :
    ∃ job tenant, phase = .loop job tenant .finish := by
  cases h with
  | loop job tenant pt _ _ hl =>
    cases hl
    exact ⟨job, tenant, rfl⟩

namespace World

theorem not_completed_updateTaskStatus {tasks : Tasks} {now : Nat} {id t : Int} {s : TaskStatus}
    {progress : Int} {msg : String} {row' : Task} (hs : s ≠ .completed)
    (hr : (updateTaskStatus tasks now id s progress msg).get t = some row') (hc : row'.status = .completed) :
    ∃ row, tasks.get t = some row ∧ row.status = .completed := by
  rw [get_updateTaskStatus] at hr
  split at hr
  · obtain ⟨row, -, rfl⟩ := Option.map_eq_some_iff.mp hr
    exact absurd hc hs
  · exact ⟨row', hr, hc⟩

theorem not_completed_resetRunningTasks {tasks : Tasks} {t : Int} {row' : Task}
    (hr : (resetRunningTasks tasks).get t = some row') (hc : row'.status = .completed) :
    ∃ row, tasks.get t = some row ∧ row.status = .completed := by
  rw [get_resetRunningTasks] at hr
  obtain ⟨row, hrow, rfl⟩ := Option.map_eq_some_iff.mp hr
  refine ⟨row, hrow, ?_⟩
  by_cases h : row.status = .running
  · simp [h] at hc
  · simpa [h] using hc

theorem not_completed_updateTaskPayload {tasks : Tasks} {id t : Int} {text : PayloadText} {row' : Task}
    (hr : (updateTaskPayload tasks id text).get t = some row') (hc : row'.status = .completed) :
    ∃ row, tasks.get t = some row ∧ row.status = .completed := by
  rw [get_updateTaskPayload] at hr
  split at hr
  · obtain ⟨row, hrow, rfl⟩ := Option.map_eq_some_iff.mp hr
    exact ⟨row, hrow, hc⟩
  · exact ⟨row', hr, hc⟩

theorem not_completed_insert {tasks : Tasks} {t : Int} {row row' : Task} (hf : row.Fresh)
    (hr : (tasks.insert row).get t = some row') (hc : row'.status = .completed) :
    ∃ row, tasks.get t = some row ∧ row.status = .completed := by
  simp only [KeyTable.get_insert] at hr
  split at hr
  · cases hr
    rcases hf.status with h | ⟨h, -⟩ <;> rw [h] at hc <;> cases hc
  · exact ⟨row', hr, hc⟩

/-- A task becomes completed by a step of its own runner, or when some runner writes it as its parent. -/
theorem Moves.completed {t : Int} {w w' : World} {e : Event} {row' : Task} (h : Moves w e w')
    (hr' : w'.tasks.get t = some row') (hc : row'.status = .completed) :
    (∃ row, w.tasks.get t = some row ∧ row.status = .completed) ∨
    (∃ rid r next progress msg, w.runners.get rid = some r ∧ r.task = t ∧
      Turn r.kind r.text r.phase (.status .completed progress msg) next) ∨
    ∃ rid a r s progress msg, e = .runner rid a ∧ w.runners.get rid = some r ∧
      r.phase = .parentWrite t s progress msg := by
  have same : w'.tasks = w.tasks → ∃ row, w.tasks.get t = some row ∧ row.status = .completed :=
    fun h => ⟨row', h ▸ hr', hc⟩
  cases h with
  | reset _ => exact Or.inl (not_completed_resetRunningTasks hr' hc)
  | shutdownReset => exact Or.inl (not_completed_resetRunningTasks hr' hc)
  | claimed id u row todo _ _ _ =>
    refine Or.inl ?_
    simp only [KeyTable.get_update] at hr'
    split at hr'
    · obtain ⟨row, -, rfl⟩ := Option.map_eq_some_iff.mp hr'
      cases hc
    · exact ⟨row', hr', hc⟩
  | marked id u todo s msg _ _ hs =>
    refine Or.inl (not_completed_updateTaskStatus ?_ hr' hc)
    rcases hs with rfl | rfl <;> decide
  | request id op _ =>
    refine Or.inl (not_completed_updateTaskStatus ?_ hr' hc)
    cases op <;> decide
  | edit id payload _ => exact Or.inl (not_completed_updateTaskPayload hr' hc)
  | insert bid b row hf => exact Or.inl (not_completed_insert hf hr' hc)
  | batchStart tid ids row hf => exact Or.inl (not_completed_insert hf hr' hc)
  | runner rid a r eff next hr hs =>
    have hturn := Runner.turn hs
    rw [tasks_setPhase] at hr' same
    cases eff with
    | none => exact Or.inl (same rfl)
    | call c i => exact Or.inl (same rfl)
    | status s progress msg =>
      by_cases hsc : s = .completed
      · subst hsc
        by_cases ht : r.task = t
        · exact Or.inr (Or.inl ⟨rid, r, next, progress, msg, hr, ht, hturn⟩)
        · rw [apply, get_updateTaskStatus, if_neg fun h => ht h.symm] at hr'
          exact Or.inl ⟨row', hr', hc⟩
      · exact Or.inl (not_completed_updateTaskStatus hsc hr' hc)
    | save job => exact Or.inl (not_completed_updateTaskPayload hr' hc)
    | parent pid s progress msg =>
      by_cases hp : pid = t
      · subst hp
        exact Or.inr (Or.inr ⟨rid, a, r, s, progress, msg, rfl, hr, hturn.phase_of_parent.1⟩)
      · rw [apply, get_updateTaskStatus, if_neg fun h => hp h.symm] at hr'
        exact Or.inl ⟨row', hr', hc⟩
  | _ => exact Or.inl (same rfl)

/-- A completed task has gone through its whole list. -/
def Done (t : Int) (n : Int) (w : World) (c : State) : Prop :=
  ∀ row, w.tasks.get t = some row → row.status = .completed → n ≤ c.index

theorem Done.step {t : Int} {k : Kind} {n : Int} {w w' : World} {c c' : State} {e : Event}
    (hm : Moves w e w') (hcond : Resumable t w e) (hsim : Sim t k n w c)
    (hcc : Relation.ReflTransGen Step c c') (hd : Done t n w c) : Done t n w' c' := by
  intro row' hr' hc
  have hle := index_le_of_steps hcc
  rcases hm.completed hr' hc with ⟨row, hr, hc₀⟩ | ⟨rid, r, next, progress, msg, hr, ht, hturn⟩ |
    ⟨rid, a, r, s, progress, msg, rfl, hr, hp⟩
  · exact le_trans (hd row hr hc₀) hle
  · obtain ⟨job, tenant, hphase⟩ := hturn.completed
    obtain ⟨-, hfit⟩ := hsim.live rid r hr ht
    rw [hphase] at hfit
    exact le_trans hfit.2.2.2 hle
  · exact absurd hp (hcond r hr s progress msg)

theorem cut_marks {t : Int} {k : Kind} {b : List Entry} (h : cut (marks t k b) = true) :
    ∃ b₁ b₂, b = b₁ ++ .exit :: b₂ ∧ ∀ j, .saved t j ∉ b₁ := by
  induction b with
  | nil => cases h
  | cons e b ih =>
    have skip : cut (marks t k b) = true → (∀ j, e ≠ .saved t j) →
        ∃ b₁ b₂, e :: b = b₁ ++ .exit :: b₂ ∧ ∀ j, .saved t j ∉ b₁ := by
      intro hb he
      obtain ⟨b₁, b₂, rfl, hs⟩ := ih hb
      refine ⟨e :: b₁, b₂, rfl, fun j hj => ?_⟩
      rcases List.mem_cons.mp hj with hj | hj
      · exact he j hj.symm
      · exact hs j hj
    cases e with
    | call id c i =>
      refine skip ?_ fun j hj => by cases hj
      by_cases hc : id = t ∧ c = k.opening
      · simpa [marks, mark, hc, cut] using h
      · simpa [marks, mark, hc] using h
    | saved id i =>
      by_cases hid : id = t
      · simp [marks, mark, hid, cut] at h
      · exact skip (by simpa [marks, mark, hid] using h) fun j hj => hid (by cases hj; rfl)
    | exit => exact ⟨[], b, rfl, fun j => List.not_mem_nil⟩

/-- What a followed work list says of the log. -/
theorem workExact_of_follows {t : Int} {w : World} (h : Follows t (· = 0) (Done t) w) : WorkExact t w := by
  have known : ∀ row k, w.tasks.get t = some row → Kind.ofType row.type = some k →
      ∃ n c, Reachable 0 c ∧ Sim t k n w c ∧ Done t n w c := by
    intro row k hr hk
    rcases h with ⟨hn, -⟩ | ⟨row', hr', h⟩
    · rw [hn] at hr; cases hr
    · obtain rfl : row = row' := Option.some.inj (hr.symm.trans hr')
      obtain ⟨k₀, n, c, rfl, hc, hsim, hd⟩ := h k hk
      exact ⟨n, c, hc, hsim, hd⟩
  refine ⟨?_, ?_, ?_⟩
  · intro row k job hr hk hj hc i hi hlt
    obtain ⟨n, c, hreach, hsim, hd⟩ := known row k hr hk
    obtain ⟨row', hr', -, hreads⟩ := hsim.row
    obtain rfl : row = row' := Option.some.inj (hr.symm.trans hr')
    have hle : n ≤ c.index := hd row hr hc
    have hn : job.total = n := (hreads job hj).1
    have hmem := (inv_of_reachable hreach).attempted i hi (by omega)
    rw [← hsim.log] at hmem
    exact mem_marks_attempt.mp hmem
  · intro row k hr hk
    obtain ⟨n, c, hreach, hsim, -⟩ := known row k hr hk
    rw [hsim.log]
    exact (inv_of_reachable hreach).calls_sorted
  · intro row k hr hk i a b d hl
    obtain ⟨n, c, hreach, hsim, -⟩ := known row k hr hk
    refine cut_marks (k := k) ((inv_of_reachable hreach).repeated i (marks t k a) _ (marks t k d) ?_)
    rw [← hsim.log, hl]
    simp [marks, mark]

/-- **Recovery.** Whatever shutdowns, crashes and restarts happen, in a run where every poll finds the
task quiet its work is exact. -/
theorem recovery_exact {tasks : Tasks} {t : Int} {es : List Event} {w : World}
    (h0 : ∀ row, tasks.get t = some row → row.Fresh)
    (hr : StepRun.Run step (Resumable t) (off tasks) es w) : WorkExact t w := by
  have hstart : Follows t (· = 0) (Done t) (off tasks) := by
    refine follows_of_idle (idle_off t tasks) fun row k hrow _ => ?_
    obtain ⟨n, hd⟩ := reads_of_fresh (h0 row hrow) k
    refine ⟨0, n, rfl, hd, fun c row' hrow' hc => ?_⟩
    rcases (h0 row' hrow').status with h | ⟨h, -⟩ <;> rw [h] at hc <;> cases hc
  refine workExact_of_follows (hr.invariant (fun w e w' hcond hI hs => ?_) hstart)
  refine hI.step hs hcond.safe hcond.no_edit rfl ?_ ?_
  · intro row n c hrow hf row' hrow' hc
    obtain rfl : row' = row := Option.some.inj (hrow'.symm.trans hrow)
    rcases hf.status with h | ⟨h, -⟩ <;> rw [h] at hc <;> cases hc
  · exact fun k n c c' hsim hcc hd => hd.step (moves hs) hcond hsim hcc

/-- The test of the condition. -/
def resumable (t : Int) (w : World) (e : Event) : Bool :=
  w.safe e && match e with
    | .edit id _ => decide (id ≠ t)
    | .runner rid _ =>
      match (w.runners.get rid).map Runner.phase with
      | some (.parentWrite pid _ _ _) => decide (pid ≠ t)
      | _ => true
    | _ => true

theorem resumable_of_test {t : Int} {w : World} {e : Event} (h : resumable t w e = true) : Resumable t w e := by
  obtain ⟨hsafe, he⟩ := (Bool.and_eq_true _ _).mp h
  cases e with
  | edit id payload =>
    have hne : id ≠ t := by simpa using he
    exact hne
  | runner rid a =>
    intro r hr s progress msg hp
    simp [hr, hp] at he
  | _ => exact safe_of_test hsafe t

/-- The process dies between the first launch and its checkpoint, is shut down after the second one's, and
completes the task after the next restart. -/
def threeProcesses : List Event :=
  untilSpawn ++ untilLaunch 1 ++ [.exit] ++
    untilSpawn ++ untilLaunch 2 ++ [.runner 2 .none, .runner 2 .none, .closeStop, .runner 2 .none, .runner 2 .none,
      .runner 2 .none, .shutdownReset, .exit] ++
    untilSpawn ++ untilLaunch 3 ++
    [.runner 3 .none, .runner 3 .none, .runner 3 .none, .runner 3 .none, .runner 3 .none]

theorem recovery_exact_threeProcesses : ∃ w,
    StepRun.Run step (Resumable 1) (off oneTask) threeProcesses w ∧
    (w.tasks.get 1).map Task.status = some .completed ∧
    w.log = [.call 1 .launchInstance 0, .exit, .call 1 .launchInstance 0, .saved 1 1, .saved 1 1, .exit,
      .call 1 .launchInstance 1, .saved 1 2] ∧
    WorkExact 1 w := by
  obtain ⟨w, hw⟩ : ∃ w, StepRun.execWhile step (resumable 1) (off oneTask) threeProcesses = some w :=
    Option.isSome_iff_exists.mp rfl
  have hr := StepRun.run_of_execWhile (fun _ _ => resumable_of_test) hw
  have hexec := StepRun.exec_of_run hr
  exact ⟨w, hr, StepRun.read_of_exec (f := fun w => (w.tasks.get 1).map Task.status) hexec rfl,
    StepRun.read_of_exec (f := log) hexec rfl, recovery_exact fresh_oneTask hr⟩

/-! ## A run that loses a checkpoint -/

/-- `Shutdown` resets the task while its runner is in its first launch; the loop polls once more before
it looks at the stop channel. -/
def lateShutdown : List Event :=
  untilSpawn ++ untilLaunch 1 ++ [.closeStop, .shutdownReset, .claim, .poll, .claim, .dispatch] ++
    -- the first runner stores index 1, then the second one stores index 0 and stops
    [.runner 1 .none, .runner 1 .none, .runner 2 .none, .runner 2 (.tenant (some "t") none),
      .runner 2 .none, .runner 2 .none, .exit] ++
    untilSpawn ++ untilLaunch 3

theorem lost_checkpoint : ∃ w,
    StepRun.Run step (fun _ => Untouched 1) (off oneTask) lateShutdown w ∧ ¬ WorkExact 1 w := by
  obtain ⟨w, hw⟩ : ∃ w, StepRun.exec step (off oneTask) lateShutdown = some w :=
    Option.isSome_iff_exists.mp rfl
  have hlog : w.log = [.call 1 .launchInstance 0, .saved 1 1, .saved 1 0, .exit, .call 1 .launchInstance 0] :=
    Option.some.inj ((congrArg (Option.map log) hw).symm.trans rfl)
  have hrow : (w.tasks.get 1).map Task.type = some .batchCreate :=
    Option.some.inj ((congrArg (Option.map fun v : World => (v.tasks.get 1).map Task.type) hw).symm.trans rfl)
  obtain ⟨row, hr, ht⟩ := Option.map_eq_some_iff.mp hrow
  refine ⟨w, StepRun.run_of_forall ?_ hw, fun h => ?_⟩
  · intro e he
    cases e <;> first | trivial | simp [lateShutdown, untilSpawn, untilLaunch] at he
  · obtain ⟨b₁, b₂, hb, hs⟩ := h.repeated row .batchCreate hr (by rw [ht]; rfl) 0 []
      [.saved 1 1, .saved 1 0, .exit] [] hlog
    cases b₁ with
    | nil => cases hb
    | cons e b₁ =>
      obtain ⟨rfl, -⟩ := List.cons.inj hb
      exact hs 1 (List.mem_cons_self ..)

end World

end OciHelper.Worker
