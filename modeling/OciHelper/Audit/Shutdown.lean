import OciHelper.Lib.StepRun
import OciHelper.Lib.Text

/-!
# The audit channel at shutdown

* `State`, `step` : the signal goroutine, `Server.Shutdown`, `main`, the pieces of work that call `audit` and the
  goroutine that writes the entries, each with steps of its own;
* `Clean` : nothing is sent on the closed channel, and at the exit each entry that was accepted is in the database;
* `Orderly` : who still runs when the channel is closed and when `main` ends;
* `Sound`, `sound_step` : the invariant; `clean_of_orderly` : every orderly run is clean throughout.

What the other statements of `Shutdown` do is left out.
-/

namespace OciHelper.Audit
open Text StepRun

/-! ## The parties -/

structure AuditLog where
  tenantID : Int64
  action : List Char
  detail : List Char
  ip : List Char
  deriving DecidableEq

/-- The statements of `Shutdown`. -/
inductive Stmt
  | closeStopping
  | workerShutdown
  | ratelimitStop
  | authClose
  | closeAuditCh
  deriving DecidableEq, Repr

def shutdown : List Stmt := [.closeStopping, .workerShutdown, .ratelimitStop, .authClose, .closeAuditCh]

/-- `returned` from `ListenAndServe`, with the deferred `store.Close` to come. -/
inductive Main
  | serving
  | returned
  | storeClosed
  | exited
  deriving DecidableEq, Repr

/-- `callers` are the requests and the pieces of background work under way, `shutdown` has the statements to come,
`writing` is the entry that the goroutine has taken out of the channel, and `flushed` says that it has returned. Which
entries were accepted, and for which `AddAudit` failed, is kept for the statements only. -/
structure State where
  signalled : Bool := false
  shutdown : List Stmt := Audit.shutdown
  closed : Bool := false
  httpDown : Bool := false
  main : Main := .serving
  callers : Nat := 0
  queue : List AuditLog := []
  writing : Option AuditLog := none
  flushed : Bool := false
  rows : List AuditLog := []
  accepted : List AuditLog := []
  failed : List AuditLog := []
  sentOnClosed : Bool := false
  deriving DecidableEq

/-- The capacity of the channel. -/
def auditCap : Nat := 1000

/-- `ip` is that of the request, if there is one. -/
def auditLog (tenantID : Int64) (action detail : List Char) (ip : Option (List Char)) : AuditLog :=
  { tenantID, action, detail, ip := trimSpace (ip.getD []) }

/-- A send on a closed channel panics, and one on a full channel drops the entry. -/
def State.audit (s : State) (log : AuditLog) : State :=
  if s.closed then { s with sentOnClosed := true }
  else if s.queue.length < auditCap then { s with queue := s.queue ++ [log], accepted := s.accepted ++ [log] }
  else s

/-- A request or a piece of background work begins, calls `audit` any number of times, and ends. -/
inductive Event
  | signal
  | shutdown
  | httpShutdown (timedOut : Bool)
  | listenReturns
  | listenFails
  | closeStore
  | exit
  | begins
  | audit (tenantID : Int64) (action detail : List Char) (ip : Option (List Char))
  | ends
  | receive
  | write (ok : Bool)
  | flushReturns

/-- What a party that is still alive does. -/
def act (s : State) : Event → Option State
  | .signal => if s.signalled then none else some { s with signalled := true }
  | .shutdown =>
    match s.signalled, s.shutdown with
    | true, stmt :: rest => some { s with shutdown := rest, closed := s.closed || stmt = .closeAuditCh }
    | _, _ => none
  | .httpShutdown timedOut =>
    if s.signalled ∧ ¬s.httpDown ∧ (timedOut ∨ s.shutdown = []) then some { s with httpDown := true } else none
  -- `srv.Shutdown` makes it return at once, while the requests go on
  | .listenReturns => if s.main = .serving ∧ s.httpDown then some { s with main := .returned } else none
  | .listenFails => if s.main = .serving ∧ ¬s.httpDown then some { s with main := .exited } else none
  | .closeStore => if s.main = .returned then some { s with main := .storeClosed } else none
  | .exit => if s.main = .storeClosed then some { s with main := .exited } else none
  | .begins => some { s with callers := s.callers + 1 }
  | .audit tenantID action detail ip =>
    if s.callers = 0 then none else some (s.audit (auditLog tenantID action detail ip))
  | .ends => if s.callers = 0 then none else some { s with callers := s.callers - 1 }
  | .receive =>
    match s.writing, s.queue with
    | none, log :: queue => some { s with writing := some log, queue }
    | _, _ => none
  | .write ok =>
    match s.writing with
    | none => none
    | some log =>
      if ¬ok then some { s with writing := none, failed := s.failed ++ [log] }
      else if s.main = .storeClosed then none
      else some { s with writing := none, rows := s.rows ++ [log] }
  -- the loop over the channel ends when it is closed and empty
  | .flushReturns =>
    if s.closed ∧ s.queue = [] ∧ s.writing = none ∧ ¬s.flushed then some { s with flushed := true } else none

def step : Step State Event := fun s e => if s.main = .exited then none else act s e

/-! ## Clean runs -/

structure Clean (s : State) : Prop where
  open_at_send : s.sentOnClosed = false
  written_at_exit : s.main = .exited → s.rows = s.accepted

/-- **The condition.** When the channel is closed nothing that calls `audit` is under way, and nothing of the kind
begins afterwards; every write succeeds; `main` ends after the writing goroutine has returned, and `ListenAndServe`
fails only before the first entry. -/
def Orderly (s : State) : Event → Prop
  | .shutdown => s.shutdown.head? = some .closeAuditCh → s.callers = 0
  | .begins => s.closed = false
  | .write ok => ok = true
  | .exit => s.flushed = true
  | .listenFails => s.accepted = []
  | _ => True

instance (s : State) (e : Event) : Decidable (Orderly s e) := by
  cases e <;> unfold Orderly <;> infer_instance

/-- Every accepted entry is written, failed, being written or in the channel. -/
structure Inv (s : State) : Prop where
  length : s.accepted.length = s.rows.length + s.failed.length + s.writing.toList.length + s.queue.length
  order : s.failed = [] → s.accepted = s.rows ++ s.writing.toList ++ s.queue

theorem Inv.rows_eq_iff {s : State} (h : Inv s) :
    s.rows = s.accepted ↔ s.queue = [] ∧ s.writing = none ∧ s.failed = [] := by
  constructor
  · intro he
    have hlen := h.length
    rw [← he] at hlen
    refine ⟨List.eq_nil_of_length_eq_zero (by omega), ?_, List.eq_nil_of_length_eq_zero (by omega)⟩
    exact Option.toList_eq_nil_iff.mp (List.eq_nil_of_length_eq_zero (by omega))
  · rintro ⟨hq, hw, hf⟩
    have ho := h.order hf
    rw [hq, hw] at ho
    simpa using ho.symm

theorem Inv.audit {s : State} (h : Inv s) (log : AuditLog) : Inv (s.audit log) := by
  unfold State.audit
  split
  · exact ⟨h.length, h.order⟩
  split
  · refine ⟨?_, fun hf => ?_⟩
    · have hlen := h.length
      simp only [List.length_append, List.length_singleton]
      omega
    · rw [h.order hf, List.append_assoc _ s.queue]
  · exact h

/-- The invariant of an orderly run. -/
structure Sound (s : State) : Prop extends Inv s, Clean s where
  quiet : s.closed = true → s.callers = 0
  drained : s.flushed = true → s.closed = true ∧ s.queue = [] ∧ s.writing = none
  unfailed : s.failed = []

theorem sound_start : Sound {} := ⟨⟨rfl, fun _ => rfl⟩, ⟨rfl, Main.noConfusion⟩, nofun, nofun, rfl⟩

/-! ## One step -/

theorem act_of_step {s s' : State} {e : Event} (hs : step s e = some s') : s.main ≠ .exited ∧ act s e = some s' := by
  unfold step at hs
  split at hs
  · cases hs
  · next hne => exact ⟨hne, hs⟩

/-- An entry is sent while something is under way, so the channel is open. -/
theorem sound_audit {s : State} (h : Sound s) (hmain : s.main ≠ .exited) (hcallers : s.callers ≠ 0) (log : AuditLog) :
    Sound (s.audit log) := by
  have hopen : s.closed = false := Bool.eq_false_iff.mpr fun hc => hcallers (h.quiet hc)
  have hinv := h.toInv.audit log
  unfold State.audit at hinv ⊢
  rw [hopen, if_neg Bool.false_ne_true] at hinv ⊢
  split at hinv
  · next hcap =>
    rw [if_pos hcap]
    refine ⟨hinv, ⟨h.open_at_send, fun he => absurd he hmain⟩, nofun, fun hf => ?_, h.unfailed⟩
    exact Bool.noConfusion (hopen.symm.trans (h.drained hf).1)
  · next hcap =>
    rw [if_neg hcap]
    exact h

theorem sound_receive {s : State} (h : Sound s) (hmain : s.main ≠ .exited) {log : AuditLog} {queue : List AuditLog}
    (hw : s.writing = none) (hq : s.queue = log :: queue) : Sound { s with writing := some log, queue } := by
  have hlen := h.length
  rw [hw, hq] at hlen
  refine ⟨⟨?_, fun hf => ?_⟩, ⟨h.open_at_send, fun he => absurd he hmain⟩, h.quiet, fun hf => ?_, h.unfailed⟩
  · simp only [Option.toList_none, Option.toList_some, List.length_cons, List.length_nil] at hlen ⊢
    omega
  · rw [h.order hf, hw, hq]
    simp
  · have hempty := (h.drained hf).2.1
    rw [hq] at hempty
    cases hempty

theorem sound_write {s : State} (h : Sound s) (hmain : s.main ≠ .exited) {log : AuditLog} (hw : s.writing = some log) :
    Sound { s with writing := none, rows := s.rows ++ [log] } := by
  have hlen := h.length
  rw [hw] at hlen
  refine ⟨⟨?_, fun hf => ?_⟩, ⟨h.open_at_send, fun he => absurd he hmain⟩, h.quiet, fun hf => ?_, h.unfailed⟩
  · simp only [List.length_append, List.length_singleton, Option.toList_some, Option.toList_none, List.length_nil]
      at hlen ⊢
    omega
  · rw [h.order hf, hw]
    simp
  · exact ⟨(h.drained hf).1, (h.drained hf).2.1, rfl⟩

/-- At the exit every accepted entry is in the database. -/
theorem sound_exit {s : State} (h : Sound s) (hrows : s.rows = s.accepted) : Sound { s with main := .exited } :=
  ⟨⟨h.length, h.order⟩, ⟨h.open_at_send, fun _ => hrows⟩, h.quiet, h.drained, h.unfailed⟩

theorem sound_step {s s' : State} {e : Event} (ho : Orderly s e) (h : Sound s) (hs : step s e = some s') :
    Sound s' := by
  obtain ⟨hmain, hact⟩ := act_of_step hs
  cases e with
  | begins =>
    cases hact
    exact ⟨⟨h.length, h.order⟩, ⟨h.open_at_send, h.written_at_exit⟩, fun hc => Bool.noConfusion (hc.symm.trans ho),
      h.drained, h.unfailed⟩
  | audit tenantID action detail ip =>
    dsimp only [act] at hact
    split at hact
    · cases hact
    · next hcallers =>
      cases hact
      exact sound_audit h hmain hcallers _
  | ends =>
    dsimp only [act] at hact
    split at hact <;> cases hact
    exact ⟨⟨h.length, h.order⟩, ⟨h.open_at_send, h.written_at_exit⟩, fun hc => by simp [h.quiet hc], h.drained,
      h.unfailed⟩
  | receive =>
    dsimp only [act] at hact
    split at hact
    · next log queue hw hq =>
      cases hact
      exact sound_receive h hmain hw hq
    · cases hact
  | write ok =>
    obtain rfl : ok = true := ho
    dsimp only [act] at hact
    split at hact
    · cases hact
    · next log hw =>
      rw [if_neg (not_not.mpr rfl)] at hact
      split at hact <;> cases hact
      exact sound_write h hmain hw
  | flushReturns =>
    dsimp only [act] at hact
    split at hact
    · next hdone =>
      cases hact
      exact ⟨⟨h.length, h.order⟩, ⟨h.open_at_send, h.written_at_exit⟩, h.quiet,
        fun _ => ⟨hdone.1, hdone.2.1, hdone.2.2.1⟩, h.unfailed⟩
    · cases hact
  | shutdown =>
    dsimp only [act] at hact
    split at hact
    · next stmt rest _ hst =>
      cases hact
      refine ⟨⟨h.length, h.order⟩, ⟨h.open_at_send, h.written_at_exit⟩, fun hc => ?_, fun hf => ?_, h.unfailed⟩
      · obtain hold | hnow := (Bool.or_eq_true _ _).mp hc
        · exact h.quiet hold
        · exact ho (by rw [hst, of_decide_eq_true hnow]; rfl)
      · exact ⟨by rw [(h.drained hf).1]; rfl, (h.drained hf).2⟩
    · cases hact
  | exit =>
    dsimp only [act] at hact
    split at hact <;> cases hact
    obtain ⟨-, hq, hw⟩ := h.drained ho
    exact sound_exit h (h.rows_eq_iff.mpr ⟨hq, hw, h.unfailed⟩)
  | listenFails =>
    dsimp only [act] at hact
    split at hact <;> cases hact
    have hrows : s.rows = [] := by
      have hlen := h.length
      rw [show s.accepted = [] from ho, List.length_nil] at hlen
      exact List.eq_nil_of_length_eq_zero (by omega)
    exact sound_exit h (hrows.trans (show s.accepted = [] from ho).symm)
  | listenReturns | closeStore =>
    dsimp only [act] at hact
    split at hact <;> cases hact
    exact ⟨⟨h.length, h.order⟩, ⟨h.open_at_send, Main.noConfusion⟩, h.quiet, h.drained, h.unfailed⟩
  | signal | httpShutdown _ =>
    dsimp only [act] at hact
    split at hact <;> cases hact
    exact ⟨⟨h.length, h.order⟩, ⟨h.open_at_send, h.written_at_exit⟩, h.quiet, h.drained, h.unfailed⟩

/-- **Shutdown is clean in every orderly run.** -/
theorem clean_of_orderly {es : List Event} {s : State} (h : Run step Orderly {} es s) : Throughout step Clean {} es :=
  (h.throughout (fun _ _ _ => sound_step) sound_start).imp fun _ hs => hs.toClean

/-- The signal, all of `Shutdown`, and what comes before `srv.Shutdown`. -/
def shutdownRun (between : List Event) : List Event :=
  .signal :: List.replicate 5 .shutdown ++ between ++ [.httpShutdown false, .listenReturns, .closeStore, .exit]

/-- A request and a piece of background work overlap; the last entry is written after the channel is closed. -/
def twoCallers : List Event :=
  [.begins, .audit 1 [] [] none, .begins, .receive, .audit 2 [] [] none, .ends, .write true, .ends] ++
    shutdownRun [.receive, .write true, .flushReturns]

theorem clean_of_orderly_twoCallers : ∃ s, Run step Orderly {} twoCallers s ∧ s.main = .exited ∧
    s.rows = [auditLog 1 [] [] none, auditLog 2 [] [] none] ∧ Throughout step Clean {} twoCallers := by
  obtain ⟨s, hs⟩ : ∃ s, execWhile step (fun s e => decide (Orderly s e)) {} twoCallers = some s :=
    Option.isSome_iff_exists.mp (by decide)
  have hrun := run_of_execWhile (fun _ _ => of_decide_eq_true) hs
  have hexec := exec_of_run hrun
  exact ⟨s, hrun, read_of_exec (f := State.main) hexec (by decide), read_of_exec (f := State.rows) hexec (by decide),
    clean_of_orderly hrun⟩

/-- A request after `Shutdown` sends on the closed channel, and an entry that a request left in the channel is lost
when `main` returns. -/
theorem shutdown_not_clean :
    (∃ s, exec step {} (shutdownRun [.begins, .audit 1 [] [] none]) = some s ∧ s.sentOnClosed = true) ∧
      ∃ s, exec step {} ([.begins, .audit 1 [] [] none, .ends] ++ shutdownRun []) = some s ∧ s.main = .exited ∧
        s.accepted = [auditLog 1 [] [] none] ∧ s.rows = [] :=
  ⟨⟨_, rfl, rfl⟩, _, rfl, rfl, rfl, rfl⟩

end OciHelper.Audit
