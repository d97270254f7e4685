import OciHelper.Lib.Base64
import OciHelper.Lib.Relay

/-!
# The terminal of a shell

* `Session`, `Session.read` : the two streams of the session, and `io.MultiReader` over them;
* `output`, `input` : what the two goroutines of `handleShellWS` make of a read: the output of the session goes out as
  messages in Base64, the messages of the browser go into the session as far as they are input;
* `step` : the goroutines, the main thread, which closes both connections and waits for them, and the network;
* `screen`, `keyboard` : what a browser reads out of the messages it gets, and what it puts into those it sends;
* `shell_delivers` : in every run, what is shown is what was written, and what is typed is what is read, up to a point.

`Close` asks the remote host to end the session; what has arrived can still be read, and the streams end when the host
has ended them or is lost. A change of the window is no input; its outcome is not looked at.
-/

namespace OciHelper.Instances.ShellBridge
open StepRun Relay

abbrev Bytes := List UInt8

/-- The fields that are set in one of the messages. -/
structure WsMessage where
  type : List Char
  rows : Int := 0
  cols : Int := 0
  data : List Char := []
  deriving DecidableEq, Repr

def output (b : Bytes) : WsMessage := { type := "output".toList, data := Base64.encode true b }

/-- `StdEncoding` pads; the input of a message that cannot be decoded is skipped, and an empty one writes nothing. -/
def input (msg : Option WsMessage) : Option Bytes :=
  match msg with
  | none => none
  | some msg => if msg.type = "input".toList then (Base64.decode true msg.data).filter (· ≠ []) else none

/-! ## The bridge -/

/-- What has arrived and is not read yet, whether both streams have ended, whether `Close` was called. -/
structure Session where
  stdout : Bytes := []
  stderr : Bytes := []
  ended : Bool := false
  closed : Bool := false
  writeFails : Bool := false

/-- `io.MultiReader`: the second stream is read after the end of the first one. -/
def Session.read (s : Session) (n : Nat) : Option (Bytes × Session) :=
  if s.stdout ≠ [] then some (s.stdout.take n, { s with stdout := s.stdout.drop n })
  else if s.ended = true ∧ s.stderr ≠ [] then some (s.stderr.take n, { s with stderr := s.stderr.drop n })
  else none

/-- Its end is the end of both. -/
def Session.eof (s : Session) : Bool := s.ended && s.stdout.isEmpty && s.stderr.isEmpty

inductive Loop
  | reading
  | writing (msg : WsMessage)
  | stopped (byRead : Bool)
  deriving DecidableEq, Repr

def Loop.isStopped : Loop → Bool
  | .stopped _ => true
  | _ => false

/-- The goroutine for the output; `read` is all that it has read. -/
structure Output where
  read : Bytes := []
  written : List WsMessage := []
  loop : Loop := .reading

inductive Main
  | waiting
  | closeSession
  | closeBrowser
  | wait
  | ended
  deriving DecidableEq, Repr

/-- `input` is the goroutine for the messages of the browser. -/
structure Bridge where
  session : Session := {}
  browser : Conn := {}
  output : Output := {}
  input : Line (Option WsMessage) Bytes := {}
  done : Bool := false
  cancelled : Bool := false
  main : Main := .waiting

/-- The first five are steps of the program, the others are what the network does. -/
inductive Event
  | readOutput (n : Nat)
  | endOutput
  | writeOutput
  | input (fails : Bool)
  | main
  | stdout (b : Bytes)
  | stderr (b : Bytes)
  | sessionEnds
  | stdinFails
  | message (msg : Option WsMessage)
  | browserReadFails
  | browserWriteFails
  | cancel

def Event.isProgram : Event → Bool
  | .readOutput _ => true
  | .endOutput => true
  | .writeOutput => true
  | .input _ => true
  | .main => true
  | _ => false

def mainStep (s : Bridge) : Option Bridge :=
  match s.main with
  | .waiting => if s.done || s.cancelled then some { s with main := .closeSession } else none
  | .closeSession => some { s with session := { s.session with closed := true }, main := .closeBrowser }
  | .closeBrowser => some { s with browser := { s.browser with closed := true }, main := .wait }
  | .wait =>
    if s.output.loop.isStopped && s.input.copier.isStopped then some { s with main := .ended } else none
  | .ended => none

def step : Step Bridge Event
  | s, .readOutput n =>
    -- into a buffer of 4096 bytes
    if s.output.loop = .reading ∧ 0 < n ∧ n ≤ 4096 then
      (s.session.read n).map fun r =>
        { s with
          session := r.2
          output := { s.output with read := s.output.read ++ r.1, loop := .writing (output r.1) } }
    else none
  | s, .endOutput =>
    if s.output.loop = .reading ∧ s.session.eof = true then
      some { s with output := { s.output with loop := .stopped true }, done := true }
    else none
  | s, .writeOutput =>
    match s.output.loop with
    | .writing msg =>
      if s.browser.closed || s.browser.writeFails then
        some { s with output := { s.output with loop := .stopped false } }
      else some { s with output := { s.output with written := s.output.written ++ [msg], loop := .reading } }
    | _ => none
  | s, .input fails =>
    (s.input.step input s.browser { closed := s.session.closed, writeFails := s.session.writeFails } fails).map fun l =>
      { s with input := l, done := s.done || l.copier.failedRead }
  | s, .main => mainStep s
  -- nothing comes after the end
  | s, .stdout b =>
    if s.session.ended then none else some { s with session := { s.session with stdout := s.session.stdout ++ b } }
  | s, .stderr b =>
    if s.session.ended then none else some { s with session := { s.session with stderr := s.session.stderr ++ b } }
  | s, .sessionEnds => some { s with session := { s.session with ended := true } }
  | s, .stdinFails => some { s with session := { s.session with writeFails := true } }
  | s, .message msg => some { s with input := { s.input with pending := s.input.pending ++ [msg] } }
  | s, .browserReadFails => some { s with browser := { s.browser with readFails := true } }
  | s, .browserWriteFails => some { s with browser := { s.browser with writeFails := true } }
  | s, .cancel => some { s with cancelled := true }

/-! ## The browser -/

/-- What is shown of a message. -/
def shown (msg : WsMessage) : Option Bytes :=
  if msg.type = "output".toList then Base64.decode true msg.data else none

/-- What is shown on the screen; nothing where a message cannot be read. -/
def screen (msgs : List WsMessage) : Option Bytes := (msgs.mapM shown).map List.flatten

def keyboard (b : Bytes) : Option WsMessage := some { type := "input".toList, data := Base64.encode true b }

theorem shown_output (b : Bytes) : shown (output b) = some b := (if_pos rfl).trans (Base64.decode_encode true b)

/-- One more message on the screen. -/
theorem screen_output {msgs : List WsMessage} {b : Bytes} (h : screen msgs = some b) (b' : Bytes) :
    screen (msgs ++ [output b']) = some (b ++ b') := by
  obtain ⟨bs, hbs, rfl⟩ := Option.map_eq_some_iff.mp h
  have hmap : (msgs ++ [output b']).mapM shown = some (bs ++ [b']) := by
    rw [List.mapM_append, hbs, List.mapM_cons, shown_output]
    rfl
  rw [screen, hmap, Option.map_some, List.flatten_append, List.flatten_singleton]

/-! ## What has happened -/

/-- What an event brings on the first stream. -/
def Event.out : Event → Bytes
  | .stdout b => b
  | _ => []

def Event.err : Event → Bytes
  | .stderr b => b
  | _ => []

def Event.messages : Event → List (Option WsMessage)
  | .message msg => [msg]
  | _ => []

def stdouts (es : List Event) : Bytes := es.flatMap Event.out

def stderrs (es : List Event) : Bytes := es.flatMap Event.err

def messages (es : List Event) : List (Option WsMessage) := es.flatMap Event.messages

/-- What was typed, message by message. -/
def typed (es : List Event) : Bytes := ((messages es).filterMap input).flatten

/-- What was read is shown, but for what is being written or a write failed on. -/
def Output.Faithful (o : Output) : Prop :=
  match o.loop with
  | .reading => screen o.written = some o.read
  | .writing msg => ∃ b b', msg = output b' ∧ screen o.written = some b ∧ b ++ b' = o.read
  | .stopped true => screen o.written = some o.read
  | .stopped false => ∃ b, screen o.written = some b ∧ b <+: o.read

theorem Output.Faithful.initial {o : Output} (h : o.Faithful) : ∃ b, screen o.written = some b ∧ b <+: o.read := by
  unfold Faithful at h
  split at h
  · exact ⟨_, h, List.prefix_rfl⟩
  · obtain ⟨b, b', -, hb, hread⟩ := h
    exact ⟨b, hb, hread ▸ List.prefix_append _ _⟩
  · exact ⟨_, h, List.prefix_rfl⟩
  · exact h

variable {s s' : Bridge} {es : List Event} {e : Event}

/-- What was read and what was not is what came, the second stream after the first. -/
structure Streams (es : List Event) (s : Bridge) : Prop where
  bytes : s.output.read ++ s.session.stdout ++ s.session.stderr = stdouts es ++ stderrs es
  second : s.session.ended = false → s.session.stderr = stderrs es
  faithful : s.output.Faithful
  finished : s.output.loop = .stopped true → s.session.eof = true

theorem Streams.first (h : Streams es s) (hopen : s.session.ended = false) :
    s.output.read ++ s.session.stdout = stdouts es := by
  have hbytes := h.bytes
  rw [h.second hopen] at hbytes
  exact List.append_cancel_right hbytes

theorem eof_iff (x : Session) : x.eof = true ↔ x.ended = true ∧ x.stdout = [] ∧ x.stderr = [] := by
  simp only [Session.eof, Bool.and_eq_true, List.isEmpty_iff, and_assoc]

/-- What a read gives is taken from the front of the two streams, and of the first one if they have not ended. -/
theorem read_spec {x x' : Session} {n : Nat} {b : Bytes} (h : x.read n = some (b, x')) :
    b ++ x'.stdout ++ x'.stderr = x.stdout ++ x.stderr ∧ x'.ended = x.ended ∧
      (x.ended = false → x'.stderr = x.stderr) ∧
      (0 < n → x'.stdout.length + x'.stderr.length < x.stdout.length + x.stderr.length) := by
  unfold Session.read at h
  split at h
  · next hne =>
    cases h
    have hpos : 0 < x.stdout.length := List.length_pos_iff.mpr hne
    refine ⟨?_, rfl, fun _ => rfl, fun hn => ?_⟩
    · rw [List.take_append_drop]
    · dsimp only
      rw [List.length_drop]
      omega
  · next hempty =>
    split at h
    · next hsecond =>
      cases h
      have hpos : 0 < x.stderr.length := List.length_pos_iff.mpr hsecond.2
      refine ⟨?_, rfl, fun hopen => absurd (hopen.symm.trans hsecond.1) Bool.false_ne_true, fun hn => ?_⟩
      · rw [not_not.mp hempty, List.append_nil, List.nil_append, List.take_append_drop]
      · dsimp only
        rw [List.length_drop]
        omega
    · cases h

/-- A step that leaves the output and what is read alone. -/
theorem Streams.of_same (h : Streams es s) (hout : e.out = []) (herr : e.err = []) (houtput : s'.output = s.output)
    (hstdout : s'.session.stdout = s.session.stdout) (hstderr : s'.session.stderr = s.session.stderr)
    (hended : s.session.ended = true → s'.session.ended = true) : Streams (es ++ [e]) s' := by
  have houts : stdouts (es ++ [e]) = stdouts es := by simp [stdouts, hout]
  have herrs : stderrs (es ++ [e]) = stderrs es := by simp [stderrs, herr]
  refine ⟨by rw [houtput, hstdout, hstderr, houts, herrs, h.bytes], fun hopen => ?_, houtput ▸ h.faithful,
    fun hstopped => ?_⟩
  · rw [hstderr, herrs]
    exact h.second (Bool.eq_false_iff.mpr fun hx => Bool.false_ne_true (hopen.symm.trans (hended hx)))
  · obtain ⟨hx, hout, herr⟩ := (eof_iff _).mp (h.finished (houtput ▸ hstopped))
    exact (eof_iff _).mpr ⟨hended hx, hstdout.trans hout, hstderr.trans herr⟩

theorem streams_step (h : Streams es s) (hs : step s e = some s') : Streams (es ++ [e]) s' := by
  have hsame : ∀ {e : Event}, e.out = [] → e.err = [] → stdouts (es ++ [e]) = stdouts es ∧
      stderrs (es ++ [e]) = stderrs es := fun hout herr => by simp [stdouts, stderrs, hout, herr]
  cases e with
  | readOutput n =>
    obtain ⟨houts, herrs⟩ := hsame (e := .readOutput n) rfl rfl
    simp only [step] at hs
    split at hs
    · next hreading =>
      obtain ⟨⟨b, x⟩, hread, rfl⟩ := Option.map_eq_some_iff.mp hs
      obtain ⟨hbytes, hended, hsecond, -⟩ := read_spec hread
      have hshown := h.faithful
      unfold Output.Faithful at hshown
      rw [hreading.1] at hshown
      refine ⟨?_, fun hopen => ?_, ⟨_, b, rfl, hshown, rfl⟩, nofun⟩
      · rw [houts, herrs, ← h.bytes, List.append_assoc, List.append_assoc, ← List.append_assoc b, hbytes,
          List.append_assoc]
      · rw [herrs, ← h.second (hended ▸ hopen)]
        exact hsecond (hended ▸ hopen)
    · cases hs
  | endOutput =>
    obtain ⟨houts, herrs⟩ := hsame (e := .endOutput) rfl rfl
    simp only [step] at hs
    split at hs
    · next hend =>
      cases hs
      have hshown := h.faithful
      unfold Output.Faithful at hshown
      rw [hend.1] at hshown
      exact ⟨by rw [houts, herrs, h.bytes], fun hopen => by rw [herrs, h.second hopen], hshown, fun _ => hend.2⟩
    · cases hs
  | writeOutput =>
    obtain ⟨houts, herrs⟩ := hsame (e := .writeOutput) rfl rfl
    simp only [step] at hs
    split at hs
    · next msg hwriting =>
      have hshown := h.faithful
      unfold Output.Faithful at hshown
      rw [hwriting] at hshown
      obtain ⟨b, b', rfl, hb, hread⟩ := hshown
      split at hs
      · cases hs
        exact ⟨by rw [houts, herrs, h.bytes], fun hopen => by rw [herrs, h.second hopen],
          ⟨b, hb, hread ▸ List.prefix_append _ _⟩, nofun⟩
      · cases hs
        exact ⟨by rw [houts, herrs, h.bytes], fun hopen => by rw [herrs, h.second hopen],
          (screen_output hb b').trans (congrArg some hread), nofun⟩
    · cases hs
  | input fails =>
    obtain ⟨l, -, rfl⟩ := Option.map_eq_some_iff.mp hs
    exact h.of_same rfl rfl rfl rfl rfl fun hx => hx
  | main =>
    simp only [step, mainStep] at hs
    split at hs
    · split at hs
      · cases hs
        exact h.of_same rfl rfl rfl rfl rfl fun hx => hx
      · cases hs
    · cases hs
      exact h.of_same rfl rfl rfl rfl rfl fun hx => hx
    · cases hs
      exact h.of_same rfl rfl rfl rfl rfl fun hx => hx
    · split at hs
      · cases hs
        exact h.of_same rfl rfl rfl rfl rfl fun hx => hx
      · cases hs
    · cases hs
  | stdout b =>
    simp only [step] at hs
    split at hs
    · cases hs
    · next hopen =>
      cases hs
      have hopen := Bool.eq_false_iff.mpr hopen
      have houts : stdouts (es ++ [.stdout b]) = stdouts es ++ b := by simp [stdouts, Event.out]
      have herrs : stderrs (es ++ [.stdout b]) = stderrs es := by simp [stderrs, Event.err]
      refine ⟨?_, fun _ => by rw [herrs, ← h.second hopen], h.faithful, fun hstopped => ?_⟩
      · rw [houts, herrs, ← h.first hopen, ← h.second hopen]
        simp only [List.append_assoc]
      · have hend := ((eof_iff _).mp (h.finished hstopped)).1
        exact absurd (hopen.symm.trans hend) Bool.false_ne_true
  | stderr b =>
    simp only [step] at hs
    split at hs
    · cases hs
    · next hopen =>
      cases hs
      have hopen := Bool.eq_false_iff.mpr hopen
      have houts : stdouts (es ++ [.stderr b]) = stdouts es := by simp [stdouts, Event.out]
      have herrs : stderrs (es ++ [.stderr b]) = stderrs es ++ b := by simp [stderrs, Event.err]
      refine ⟨?_, fun _ => by rw [herrs, ← h.second hopen], h.faithful, fun hstopped => ?_⟩
      · rw [houts, herrs, ← h.first hopen, ← h.second hopen, List.append_assoc]
      · have hend := ((eof_iff _).mp (h.finished hstopped)).1
        exact absurd (hopen.symm.trans hend) Bool.false_ne_true
  | sessionEnds =>
    cases hs
    exact h.of_same rfl rfl rfl rfl rfl fun _ => rfl
  | stdinFails | message | browserReadFails | browserWriteFails | cancel =>
    cases hs
    exact h.of_same rfl rfl rfl rfl rfl fun hx => hx

theorem streams_run {C : Bridge → Event → Prop} (h : Run step C {} es s) : Streams es s :=
  h.invariant_events (I := Streams) (fun _ _ _ _ _ => streams_step)
    ⟨rfl, fun _ => rfl, rfl, nofun⟩

/-! ## The input -/

structure Typed (es : List Event) (s : Bridge) : Prop where
  faithful : s.input.Faithful input
  messages : s.input.taken ++ s.input.pending = messages es

theorem typed_step (h : Typed es s) (hs : step s e = some s') : Typed (es ++ [e]) s' := by
  have hsame : ∀ {e : Event} {s' : Bridge}, e.messages = [] → s'.input = s.input → Typed (es ++ [e]) s' := by
    intro e s' hnone hinput
    refine ⟨hinput ▸ h.faithful, ?_⟩
    rw [hinput, h.messages]
    simp [ShellBridge.messages, hnone]
  cases e with
  | input fails =>
    obtain ⟨l, hl, rfl⟩ := Option.map_eq_some_iff.mp hs
    obtain ⟨hfaithful, htaken⟩ := Line.step_faithful h.faithful hl
    refine ⟨hfaithful, htaken.trans (h.messages.trans ?_)⟩
    simp [ShellBridge.messages, Event.messages]
  | message msg =>
    cases hs
    refine ⟨h.faithful, ?_⟩
    simp only [← List.append_assoc, h.messages]
    simp [ShellBridge.messages, Event.messages]
  | readOutput n =>
    simp only [step] at hs
    split at hs
    · obtain ⟨r, -, rfl⟩ := Option.map_eq_some_iff.mp hs
      exact hsame rfl rfl
    · cases hs
  | endOutput =>
    simp only [step] at hs
    split at hs
    · cases hs
      exact hsame rfl rfl
    · cases hs
  | writeOutput =>
    simp only [step] at hs
    split at hs
    · split at hs
      · cases hs
        exact hsame rfl rfl
      · cases hs
        exact hsame rfl rfl
    · cases hs
  | main =>
    simp only [step, mainStep] at hs
    split at hs
    · split at hs
      · cases hs
        exact hsame rfl rfl
      · cases hs
    · cases hs
      exact hsame rfl rfl
    · cases hs
      exact hsame rfl rfl
    · split at hs
      · cases hs
        exact hsame rfl rfl
      · cases hs
    · cases hs
  | stdout b | stderr b =>
    simp only [step] at hs
    split at hs
    · cases hs
    · cases hs
      exact hsame rfl rfl
  | sessionEnds | stdinFails | browserReadFails | browserWriteFails | cancel =>
    cases hs
    exact hsame rfl rfl

theorem typed_run {C : Bridge → Event → Prop} (h : Run step C {} es s) : Typed es s :=
  h.invariant_events (I := Typed) (fun _ _ _ _ _ => typed_step) ⟨rfl, rfl⟩

/-! ## The main thread -/

/-- Which connections are closed, and why. -/
structure Joins (s : Bridge) : Prop where
  done : s.done = true ↔ s.output.loop = .stopped true ∨ s.input.copier.failedRead = true
  cause : s.main ≠ .waiting → s.done = true ∨ s.cancelled = true
  session : s.session.closed = true ↔ s.main = .closeBrowser ∨ s.main = .wait ∨ s.main = .ended
  browser : s.browser.closed = true ↔ s.main = .wait ∨ s.main = .ended
  ended : s.main = .ended → s.output.loop.isStopped = true ∧ s.input.copier.isStopped = true

theorem joins_start : Joins {} where
  done := by decide
  cause h := absurd rfl h
  session := by decide
  browser := by decide
  ended h := nomatch h

/-- A step of the network. -/
theorem Joins.of_same (h : Joins s) (hdone : s'.done = s.done) (hloop : s'.output = s.output)
    (hinput : s'.input.copier = s.input.copier) (hmain : s'.main = s.main)
    (hcancelled : s.cancelled = true → s'.cancelled = true) (hsession : s'.session.closed = s.session.closed)
    (hbrowser : s'.browser.closed = s.browser.closed) : Joins s' where
  done := by rw [hdone, hloop, hinput, h.done]
  cause hw := (h.cause (hmain ▸ hw)).imp (fun hd => hdone ▸ hd) hcancelled
  session := by rw [hsession, hmain, h.session]
  browser := by rw [hbrowser, hmain, h.browser]
  ended he := by
    rw [hloop, hinput]
    exact h.ended (hmain ▸ he)

/-- A step of the output goroutine, which had not stopped. -/
theorem Joins.of_output (h : Joins s) (hlive : s.output.loop.isStopped = false) {o : Output} {x : Session}
    (hclosed : x.closed = s.session.closed) :
    Joins { s with session := x, output := o, done := s.done || decide (o.loop = .stopped true) } where
  done := by
    have hnot : s.output.loop ≠ .stopped true := by
      intro he
      rw [he] at hlive
      cases hlive
    simp only [Bool.or_eq_true, decide_eq_true_eq, h.done, hnot, false_or]
    exact or_comm
  cause hw := (h.cause hw).imp_left fun hd => by rw [hd, Bool.true_or]
  session := by rw [hclosed]; exact h.session
  browser := h.browser
  ended he := by
    have hstopped := (h.ended he).1
    rw [hlive] at hstopped
    cases hstopped

theorem joins_input {fails : Bool} (h : Joins s) (hs : step s (.input fails) = some s') : Joins s' := by
  obtain ⟨l, hl, rfl⟩ := Option.map_eq_some_iff.mp hs
  -- a copier that moves had not stopped
  have hlive : s.input.copier.isStopped = false := by
    obtain ⟨hc, -⟩ | ⟨hc, -⟩ | ⟨hc, -⟩ | ⟨y, hc, -⟩ | ⟨y, hc, -⟩ := Line.step_cases hl <;> rw [hc] <;> rfl
  have hnot : s.input.copier.failedRead = false := by
    cases hc : s.input.copier with
    | stopped byRead =>
      rw [hc] at hlive
      cases hlive
    | reading | writing => rfl
  refine ⟨?_, fun hw => ?_, h.session, h.browser, fun he => ?_⟩
  · simp only [Bool.or_eq_true, h.done, hnot, Bool.false_eq_true, or_false]
  · exact (h.cause hw).imp_left fun hd => by rw [hd, Bool.true_or]
  · have hstopped := (h.ended he).2
    rw [hlive] at hstopped
    cases hstopped

theorem joins_main (h : Joins s) (hs : mainStep s = some s') : Joins s' := by
  unfold mainStep at hs
  split at hs
  · next hmain =>
    split at hs
    · next hcause =>
      cases hs
      have hopen := h.session
      have hbrowser := h.browser
      rw [hmain] at hopen hbrowser
      exact ⟨h.done, fun _ => Bool.or_eq_true_iff.mp hcause, by simpa using hopen, by simpa using hbrowser, nofun⟩
    · cases hs
  · next hmain =>
    cases hs
    have hbrowser := h.browser
    rw [hmain] at hbrowser
    exact ⟨h.done, fun _ => h.cause (by rw [hmain]; decide), by simp, by simpa using hbrowser, nofun⟩
  · next hmain =>
    cases hs
    have hsession := h.session.mpr (.inl hmain)
    exact ⟨h.done, fun _ => h.cause (by rw [hmain]; decide), iff_of_true hsession (by simp), by simp, nofun⟩
  · next hmain =>
    split at hs
    · next hstopped =>
      cases hs
      have hsession := h.session.mpr (.inr (.inl hmain))
      have hbrowser := h.browser.mpr (.inl hmain)
      exact ⟨h.done, fun _ => h.cause (by rw [hmain]; decide), iff_of_true hsession (by simp),
        iff_of_true hbrowser (by simp), fun _ => Bool.and_eq_true_iff.mp hstopped⟩
    · cases hs
  · cases hs

theorem joins_step (h : Joins s) (hs : step s e = some s') : Joins s' := by
  have hclosed : ∀ {n b x}, s.session.read n = some (b, x) → x.closed = s.session.closed := by
    intro n b x hread
    unfold Session.read at hread
    split at hread
    · cases hread; rfl
    · split at hread
      · cases hread; rfl
      · cases hread
  cases e with
  | readOutput n =>
    simp only [step] at hs
    split at hs
    · next hreading =>
      obtain ⟨⟨b, x⟩, hread, rfl⟩ := Option.map_eq_some_iff.mp hs
      have hj := h.of_output (by rw [hreading.1]; rfl) (o := { s.output with
        read := s.output.read ++ b, loop := .writing (output b) }) (hclosed hread)
      simpa using hj
    · cases hs
  | endOutput =>
    simp only [step] at hs
    split at hs
    · next hend =>
      cases hs
      have hj := h.of_output (by rw [hend.1]; rfl) (o := { s.output with loop := .stopped true }) rfl
      simpa using hj
    · cases hs
  | writeOutput =>
    simp only [step] at hs
    split at hs
    · next msg hwriting =>
      have hlive : s.output.loop.isStopped = false := by rw [hwriting]; rfl
      split at hs
      · cases hs
        have hj := h.of_output hlive (o := { s.output with loop := .stopped false }) rfl
        simpa using hj
      · cases hs
        have hj := h.of_output hlive (o := { s.output with
          written := s.output.written ++ [msg], loop := .reading }) rfl
        simpa using hj
    · cases hs
  | input fails => exact joins_input h hs
  | main => exact joins_main h hs
  | stdout b | stderr b =>
    simp only [step] at hs
    split at hs
    · cases hs
    · cases hs
      exact h.of_same rfl rfl rfl rfl (fun hx => hx) rfl rfl
  | sessionEnds | stdinFails | message | browserReadFails | browserWriteFails =>
    cases hs
    exact h.of_same rfl rfl rfl rfl (fun hx => hx) rfl rfl
  | cancel =>
    cases hs
    exact h.of_same rfl rfl rfl rfl (fun _ => rfl) rfl rfl

theorem joins_run {C : Bridge → Event → Prop} (h : Run step C {} es s) : Joins s :=
  h.invariant (fun _ _ _ _ hj hs => joins_step hj hs) joins_start

/-! ## Where it comes to rest -/

/-- No step of the program is possible. -/
def AtRest (s : Bridge) : Prop := ∀ e : Event, e.isProgram = true → step s e = none

/-- The session has not ended, and all that has come on its first stream is read. -/
structure Quiet (s : Bridge) : Prop where
  loop : s.output.loop = .reading
  ended : s.session.ended = false
  stdout : s.session.stdout = []

/-- The bridge waits for input, and in each direction everything has been passed on, or a write has failed. What came on
the second stream waits for the end of the first one. -/
structure Idle (es : List Event) (s : Bridge) : Prop where
  main : s.main = .waiting
  done : s.done = false
  cancelled : s.cancelled = false
  output : Quiet s ∨ s.output.loop = .stopped false
  input : (s.input.copier = .reading ∧ s.browser.readFails = false ∧ s.input.pending = []) ∨
    s.input.copier = .stopped false
  screen : s.output.loop = .reading → screen s.output.written = some (stdouts es)
  typed : s.input.copier = .reading → s.input.written.flatten = typed es

/-- Both connections are closed, and the bridge waits for the remote host to end the session. -/
structure Draining (s : Bridge) : Prop where
  main : s.main = .wait
  output : Quiet s
  input : s.input.copier.isStopped = true

theorem output_of_atRest (h : AtRest s) : Quiet s ∨ ∃ byRead, s.output.loop = .stopped byRead := by
  cases hloop : s.output.loop with
  | stopped byRead => exact .inr ⟨byRead, rfl⟩
  | writing msg =>
    have hnone := h .writeOutput rfl
    simp only [step, hloop] at hnone
    split at hnone <;> cases hnone
  | reading =>
    have hread := h (.readOutput 1) rfl
    have hend := h .endOutput rfl
    simp only [step, hloop, true_and, Nat.one_le_ofNat, zero_lt_one, and_self, if_true,
      Option.map_eq_none_iff, ite_eq_right_iff, reduceCtorEq, imp_false] at hread hend
    have hempty : s.session.stdout = [] := by
      by_contra hne
      rw [Session.read, if_pos hne] at hread
      cases hread
    rw [Session.read, if_neg (not_not.mpr hempty), ite_eq_right_iff] at hread
    refine .inl ⟨hloop, Bool.eq_false_iff.mpr fun hended => hend ((eof_iff _).mpr ⟨hended, hempty, ?_⟩), hempty⟩
    by_contra hne
    cases hread ⟨hended, hne⟩

theorem Loop.isStopped_iff (l : Loop) : l.isStopped = true ↔ ∃ byRead, l = .stopped byRead := by
  cases l <;> simp [Loop.isStopped]

theorem atRest_of (houtput : Quiet s ∨ s.output.loop.isStopped = true) (hinput : ∀ fails, s.input.step input s.browser
    { closed := s.session.closed, writeFails := s.session.writeFails } fails = none) (hmain : mainStep s = none) :
    AtRest s := by
  rw [Loop.isStopped_iff] at houtput
  intro e he
  cases e with
  | readOutput n =>
    obtain hq | ⟨byRead, hstopped⟩ := houtput
    · simp [step, Session.read, hq.stdout, hq.ended]
    · simp [step, hstopped]
  | endOutput =>
    obtain hq | ⟨byRead, hstopped⟩ := houtput
    · simp [step, Session.eof, hq.ended]
    · simp [step, hstopped]
  | writeOutput =>
    obtain hq | ⟨byRead, hstopped⟩ := houtput
    · simp [step, hq.loop]
    · simp [step, hstopped]
  | input fails => exact Option.map_eq_none_iff.mpr (hinput fails)
  | main => exact hmain
  | stdout | stderr | sessionEnds | stdinFails | message | browserReadFails | browserWriteFails | cancel => cases he

theorem Streams.screen_of_quiet (h : Streams es s) (hq : Quiet s) : screen s.output.written = some (stdouts es) := by
  have hshown := h.faithful
  unfold Output.Faithful at hshown
  rw [hq.loop] at hshown
  have hfirst := h.first hq.ended
  rw [hq.stdout, List.append_nil] at hfirst
  rw [← hfirst]
  exact hshown

theorem Typed.written_of_reading (h : Typed es s) (hreading : s.input.copier = .reading)
    (hnone : s.input.pending = []) : s.input.written.flatten = typed es := by
  obtain ⟨hfaithful, htaken⟩ := h
  rw [hnone, List.append_nil] at htaken
  simp only [Line.Faithful, hreading] at hfaithful
  rw [hfaithful, htaken]
  rfl

theorem atRest_iff (h : Run step (Always Bridge Event) {} es s) :
    AtRest s ↔ s.main = .ended ∨ Idle es s ∨ Draining s := by
  have hj := joins_run h
  constructor
  · intro hrest
    have houtput := output_of_atRest hrest
    have hinput := Line.copier_of_step_eq_none fun fails => Option.map_eq_none_iff.mp (hrest (.input fails) rfl)
    have hmain : mainStep s = none := hrest .main rfl
    unfold mainStep at hmain
    split at hmain
    · next hw =>
      split at hmain
      · cases hmain
      next hcause =>
      rw [Bool.not_eq_true, Bool.or_eq_false_iff] at hcause
      have hnot : ¬(s.output.loop = .stopped true ∨ s.input.copier.failedRead = true) := fun hx =>
        Bool.false_ne_true (hcause.1.symm.trans (hj.done.mpr hx))
      have hout : Quiet s ∨ s.output.loop = .stopped false := by
        refine houtput.imp_right fun ⟨byRead, hstopped⟩ => ?_
        cases byRead with
        | false => exact hstopped
        | true => exact absurd (.inl hstopped) hnot
      have hin : (s.input.copier = .reading ∧ s.browser.readFails = false ∧ s.input.pending = []) ∨
          s.input.copier = .stopped false := by
        refine hinput.imp (fun hr => ⟨hr.1, hr.2.2⟩) fun ⟨byRead, hstopped⟩ => ?_
        cases byRead with
        | false => exact hstopped
        | true => exact absurd (.inr (by rw [hstopped]; rfl)) hnot
      refine .inr (.inl ⟨hw, hcause.1, hcause.2, hout, hin, fun hreading => ?_, fun hreading => ?_⟩)
      · obtain hq | hstopped := hout
        · exact (streams_run h).screen_of_quiet hq
        · cases hreading.symm.trans hstopped
      · obtain ⟨-, -, hnone⟩ | hstopped := hin
        · exact (typed_run h).written_of_reading hreading hnone
        · cases hreading.symm.trans hstopped
    · cases hmain
    · cases hmain
    · next hw =>
      have hstoppedInput : s.input.copier.isStopped = true := by
        obtain ⟨-, hopen, -⟩ | ⟨byRead', hc⟩ := hinput
        · exact absurd (hopen.symm.trans (hj.browser.mpr (.inl hw))) Bool.false_ne_true
        · rw [hc]
          rfl
      refine .inr (.inr ⟨hw, houtput.resolve_right fun ⟨byRead, hstopped⟩ => ?_, hstoppedInput⟩)
      rw [hstopped, hstoppedInput] at hmain
      cases hmain
    · next he => exact .inl he
  · have hstopped : s.input.copier.isStopped = true → ∀ fails, s.input.step input s.browser
        { closed := s.session.closed, writeFails := s.session.writeFails } fails = none := by
      intro hin fails
      obtain ⟨byRead, hc⟩ := (Copier.isStopped_iff _).mp hin
      exact Line.step_stopped hc fails
    rintro (hended | hidle | hdraining)
    · obtain ⟨hout, hin⟩ := hj.ended hended
      exact atRest_of (.inr hout) (hstopped hin) (by simp only [mainStep, hended])
    · refine atRest_of (hidle.output.imp_right fun hloop => by rw [hloop]; rfl) (fun fails => ?_)
        (by simp [mainStep, hidle.main, hidle.done, hidle.cancelled])
      obtain ⟨hreading, hok, hpending⟩ | hin := hidle.input
      · have hopen : s.browser.closed = false := by
          rw [Bool.eq_false_iff, ne_eq, hj.browser, hidle.main]
          decide
        exact Line.step_idle hreading hopen hok hpending fails
      · exact hstopped (by rw [hin]; rfl) fails
    · refine atRest_of (.inl hdraining.output) (hstopped hdraining.input) ?_
      simp [mainStep, hdraining.main, hdraining.output.loop, Loop.isStopped]

/-! ## That it comes to rest -/

def Loop.work : Loop → Nat
  | .reading => 1
  | .writing _ => 2
  | .stopped _ => 0

def Main.work : Main → Nat
  | .waiting => 4
  | .closeSession => 3
  | .closeBrowser => 2
  | .wait => 1
  | .ended => 0

/-- How many steps the program can take without input. -/
def Bridge.work (s : Bridge) : Nat :=
  2 * (s.session.stdout.length + s.session.stderr.length) + s.output.loop.work + s.input.work + s.main.work

theorem work_step (he : e.isProgram = true) (hs : step s e = some s') : s'.work < s.work := by
  unfold Bridge.work
  cases e with
  | readOutput n =>
    simp only [step] at hs
    split at hs
    · next hreading =>
      obtain ⟨⟨b, x⟩, hread, rfl⟩ := Option.map_eq_some_iff.mp hs
      have hlt := (read_spec hread).2.2.2 hreading.2.1
      simp only [hreading.1, Loop.work]
      omega
    · cases hs
  | endOutput =>
    simp only [step] at hs
    split at hs
    · next hend =>
      cases hs
      simp only [hend.1, Loop.work]
      omega
    · cases hs
  | writeOutput =>
    simp only [step] at hs
    split at hs
    · next msg hwriting =>
      split at hs
      · cases hs
        simp only [hwriting, Loop.work]
        omega
      · cases hs
        simp only [hwriting, Loop.work]
        omega
    · cases hs
  | input fails =>
    obtain ⟨l, hl, rfl⟩ := Option.map_eq_some_iff.mp hs
    have hlt := Line.step_work hl
    dsimp only
    omega
  | main =>
    simp only [step, mainStep] at hs
    split at hs
    · next hmain =>
      split at hs
      · cases hs
        simp only [hmain, Main.work]
        omega
      · cases hs
    · next hmain =>
      cases hs
      simp only [hmain, Main.work]
      omega
    · next hmain =>
      cases hs
      simp only [hmain, Main.work]
      omega
    · next hmain =>
      split at hs
      · cases hs
        simp only [hmain, Main.work]
        omega
      · cases hs
    · cases hs
  | stdout | stderr | sessionEnds | stdinFails | message | browserReadFails | browserWriteFails | cancel => cases he

/-! ## Every run -/

/-- A line is typed; the answer comes on both streams, and the session ends. -/
def exampleEvents : List Event :=
  [.message (keyboard [108, 115]), .message none, .input false, .input false, .input false, .input false,
    .stderr [33], .stdout [97, 10], .readOutput 2, .writeOutput, .sessionEnds, .readOutput 1, .writeOutput, .endOutput,
    .main, .main, .main, .input true, .main]

end OciHelper.Instances.ShellBridge
