import Mathlib.Data.List.Flatten
import Mathlib.Data.List.TakeWhile
import Mathlib.Algebra.Order.Ring.Nat
import Mathlib.Algebra.BigOperators.Group.List.Basic

/-!
# Event streams

The client side of `text/event-stream`, and texts that are sent in events.

* `step`, `run`, `events` : a stream is read character by character; a line ends in LF, CR or both, an empty line ends an
  event, and an unfinished event at the end is dropped;
* `frame` : an event with a text in one line of data;
* `run_frame`, `length_run_frame_lt` : what is read of a frame, without line breaks in the text and with one;
* `before`, `received` : the text of the messages before a terminator;
* `received_eq_iff` : texts in frames arrive if and only if none has a line break or is the terminator.
-/

namespace EventStream

structure Event where
  type : List Char
  data : List Char
  deriving DecidableEq, Repr

/-- The line under way, whether a CR was just read, and the fields of the event under way. -/
structure State where
  line : List Char := []
  afterCR : Bool := false
  data : List Char := []
  type : List Char := []
  deriving DecidableEq, Repr

def message : List Char := "message".toList

/-- The other fields are no part of an event, and a comment has the empty name. -/
def State.field (s : State) (name value : List Char) : State :=
  if name = "data".toList then { s with data := s.data ++ (value ++ ['\n']) }
  else if name = "event".toList then { s with type := value }
  else s

/-- Data ends in a line feed, which is left out. -/
def State.dispatch (s : State) : List Event :=
  if s.data = [] then [] else [⟨if s.type = [] then message else s.type, s.data.dropLast⟩]

def dropSpace : List Char → List Char
  | ' ' :: value => value
  | value => value

def State.endLine (s : State) : State × List Event :=
  if s.line = [] then ({}, s.dispatch)
  else
    let rest : State := { s with line := [], afterCR := false }
    match s.line.dropWhile (· ≠ ':') with
    | [] => (rest.field s.line [], [])
    | _ :: value => (rest.field (s.line.takeWhile (· ≠ ':')) (dropSpace value), [])

def step (s : State) (c : Char) : State × List Event :=
  if c = '\n' then
    -- the second character of a CRLF
    if s.afterCR then ({ s with afterCR := false }, []) else s.endLine
  else if c = '\r' then ({ s.endLine.1 with afterCR := true }, s.endLine.2)
  else ({ s with line := s.line ++ [c], afterCR := false }, [])

def run : State → List Char → State × List Event
  | s, [] => (s, [])
  | s, c :: cs => ((run (step s c).1 cs).1, (step s c).2 ++ (run (step s c).1 cs).2)

/-- A byte order mark at the start is dropped. -/
def events (text : List Char) : List Event :=
  (run {} (if text.head? = some '\uFEFF' then text.tail else text)).2

/-- An event with the text in one line of data. -/
def frame (text : List Char) : List Char := "data: ".toList ++ (text ++ ['\n', '\n'])

theorem run_append (s : State) (a b : List Char) :
    run s (a ++ b) = ((run (run s a).1 b).1, (run s a).2 ++ (run (run s a).1 b).2) := by
  induction a generalizing s with
  | nil => rfl
  | cons c a ih => simp [run, ih]

/-! ## Text in one line -/

def NoBreak (text : List Char) : Prop := ∀ c ∈ text, c ≠ '\n' ∧ c ≠ '\r'

instance : DecidablePred NoBreak := fun text =>
  decidable_of_iff (text.all fun c => c ≠ '\n' ∧ c ≠ '\r') (by simp [NoBreak])

theorem run_noBreak {text : List Char} (h : NoBreak text) (line data type : List Char) :
    run ⟨line, false, data, type⟩ text = (⟨line ++ text, false, data, type⟩, []) := by
  induction text generalizing line with
  | nil => simp [run]
  | cons c text ih =>
    obtain ⟨⟨hlf, hcr⟩, htext⟩ := List.forall_mem_cons.mp h
    have hstep : step ⟨line, false, data, type⟩ c = (⟨line ++ [c], false, data, type⟩, []) := by
      simp [step, hlf, hcr]
    rw [run, hstep, ih htext]
    simp

/-- The end of the first line of a frame. -/
theorem endLine_data (text : List Char) :
    State.endLine ⟨"data: ".toList ++ text, false, [], []⟩ = (⟨[], false, text ++ ['\n'], []⟩, []) := by
  simp [State.endLine, State.field, dropSpace]

theorem run_data {text : List Char} (h : NoBreak text) :
    run {} ("data: ".toList ++ text) = (⟨"data: ".toList ++ text, false, [], []⟩, []) := by
  have hdata : NoBreak ("data: ".toList ++ text) := by
    intro c hc
    rcases List.mem_append.mp hc with hc | hc
    · have hall : NoBreak "data: ".toList := by decide
      exact hall c hc
    · exact h c hc
  simpa using run_noBreak hdata [] [] []

theorem run_frame {text : List Char} (h : NoBreak text) : run {} (frame text) = ({}, [⟨message, text⟩]) := by
  have hfirst : step ⟨"data: ".toList ++ text, false, [], []⟩ '\n' = (⟨[], false, text ++ ['\n'], []⟩, []) := by
    rw [step, if_pos rfl, if_neg (by simp)]
    exact endLine_data text
  have hsecond : step ⟨[], false, text ++ ['\n'], []⟩ '\n' = ({}, [⟨message, text⟩]) := by
    simp [step, State.endLine, State.dispatch]
  unfold frame
  rw [← List.append_assoc, run_append, run_data h]
  simp only [run, hfirst, hsecond]
  rfl

/-! ## The state after a frame -/

/-- After a CR a line starts. -/
def State.Ok (s : State) : Prop := s.afterCR = true → s.line = []

theorem line_endLine (s : State) : s.endLine.1.line = [] ∧ s.endLine.1.afterCR = false := by
  have hfield : ∀ (s : State) (name value : List Char),
      (s.field name value).line = s.line ∧ (s.field name value).afterCR = s.afterCR := by
    intro s name value
    unfold State.field
    split
    · exact ⟨rfl, rfl⟩
    · split <;> exact ⟨rfl, rfl⟩
  unfold State.endLine
  split
  · exact ⟨rfl, rfl⟩
  · dsimp only
    split <;> exact hfield _ _ _

theorem ok_step (s : State) (c : Char) : (step s c).1.Ok := by
  unfold step
  split
  · split
    · exact fun h => absurd h (by simp)
    · exact fun _ => (line_endLine s).1
  · split
    · exact fun _ => (line_endLine s).1
    · exact fun h => absurd h (by simp)

theorem ok_run {s : State} (h : s.Ok) (text : List Char) : (run s text).1.Ok := by
  induction text generalizing s with
  | nil => exact h
  | cons c text ih => exact ih (ok_step s c)

/-- Two line feeds end every event. -/
theorem run_end {s : State} (h : s.Ok) : (run s ['\n', '\n']).1 = {} := by
  have hempty : ∀ s : State, s.line = [] → s.endLine.1 = {} := by
    intro s hline
    simp [State.endLine, hline]
  by_cases hcr : s.afterCR = true
  · simp [run, step, hcr, hempty, h hcr]
  · obtain ⟨hline, hafter⟩ := line_endLine s
    simp [run, step, hcr, hafter, hempty, hline]

theorem state_run_frame (text : List Char) : (run {} (frame text)).1 = {} := by
  have hok : (run {} ("data: ".toList ++ text)).1.Ok := ok_run (fun _ => rfl) _
  unfold frame
  rw [← List.append_assoc, run_append]
  dsimp only
  rw [run_end hok]

theorem run_frames (texts : List (List Char)) (more : List Char) :
    run {} (texts.flatMap frame ++ more) =
      ((run {} more).1, texts.flatMap (fun t => (run {} (frame t)).2) ++ (run {} more).2) := by
  induction texts with
  | nil => rfl
  | cons t texts ih =>
    rw [List.flatMap_cons, List.append_assoc, run_append, state_run_frame, ih, List.flatMap_cons, List.append_assoc]

/-! ## What a line break costs -/

/-- The characters of the events, one more for each event. -/
def size (es : List Event) : Nat := (es.map fun e => e.data.length + 1).sum

@[simp] theorem size_append (es fs : List Event) : size (es ++ fs) = size es + size fs := by
  simp [size]

/-- What the line and the data under way can add to the size. -/
def State.pending (s : State) : Nat := s.data.length + s.line.length

theorem size_dispatch (s : State) : size s.dispatch ≤ s.data.length := by
  unfold State.dispatch
  split
  · simp [size]
  · next h =>
    have := List.length_pos_iff.mpr h
    simp [size]
    omega

/-- A field has a name, so that its value and a line feed are not longer than its line. -/
theorem pending_field (s : State) {name value : List Char} {n : Nat} (h : name.length + value.length ≤ n) :
    (s.field name value).pending ≤ s.data.length + s.line.length + n := by
  unfold State.field State.pending
  split
  · next hname =>
    have hlen : name.length = 4 := by rw [hname]; rfl
    simp
    omega
  · split
    · simp
    · omega

theorem length_dropSpace_le (value : List Char) : (dropSpace value).length ≤ value.length := by
  unfold dropSpace
  split <;> simp

theorem size_endLine (s : State) : size s.endLine.2 + s.endLine.1.pending ≤ s.pending := by
  unfold State.endLine
  split
  · have := size_dispatch s
    simp only [State.pending, List.length_nil]
    omega
  · have hsplit := congrArg List.length (List.takeWhile_append_dropWhile (p := (· ≠ ':')) (l := s.line))
    rw [List.length_append] at hsplit
    dsimp only
    split
    · have := @pending_field { s with line := [], afterCR := false } s.line [] s.line.length (by simp)
      simpa [size, State.pending] using this
    · next value hdrop =>
      have hval := length_dropSpace_le value
      rw [hdrop, List.length_cons] at hsplit
      have := @pending_field { s with line := [], afterCR := false } (s.line.takeWhile (· ≠ ':')) (dropSpace value)
        s.line.length (by omega)
      simpa [size, State.pending] using this

/-- One character adds at most itself, and a line break nothing. -/
theorem size_step (s : State) (c : Char) :
    size (step s c).2 + (step s c).1.pending ≤ s.pending + (if c = '\n' ∨ c = '\r' then 0 else 1) := by
  have hend := size_endLine s
  unfold step
  split
  · split
    · simp [size, State.pending]
    · next hlf _ => simpa [hlf] using hend
  · split
    · next hcr => simpa [hcr, State.pending] using hend
    · next hlf hcr =>
      simp [size, State.pending, hlf, hcr]
      omega

theorem size_run (s : State) (text : List Char) :
    size (run s text).2 + (run s text).1.pending ≤ s.pending + text.length := by
  induction text generalizing s with
  | nil => simp [run, size]
  | cons c text ih =>
    have hstep := size_step s c
    have hrest := ih (step s c).1
    simp only [run, size_append, List.length_cons]
    split at hstep <;> omega

theorem size_run_end (s : State) : size (run s ['\n', '\n']).2 + (run s ['\n', '\n']).1.pending ≤ s.pending := by
  have hfirst := size_step s '\n'
  have hsecond := size_step (step s '\n').1 '\n'
  simp only [true_or, if_true] at hfirst hsecond
  simp only [run, size_append, List.append_nil]
  omega

theorem length_flatMap_data_le (es : List Event) : (es.flatMap Event.data).length + es.length = size es := by
  induction es with
  | nil => rfl
  | cons e es ih =>
    simp only [size, List.flatMap_cons, List.length_append, List.length_cons, List.map_cons, List.sum_cons] at ih ⊢
    omega

/-- The first line of a text, the break that ends it and what follows. -/
theorem exists_first_break {text : List Char} (h : ¬ NoBreak text) :
    ∃ first b rest, text = first ++ b :: rest ∧ NoBreak first ∧ (b = '\n' ∨ b = '\r') := by
  cases hfind : text.find? fun c => c = '\n' ∨ c = '\r' with
  | none =>
    refine absurd (fun c hc => ?_) h
    simpa using List.find?_eq_none.mp hfind c hc
  | some b =>
    obtain ⟨hb, first, rest, heq, hfirst⟩ := List.find?_eq_some_iff_append.mp hfind
    exact ⟨first, b, rest, heq, fun c hc => by simpa using hfirst c hc, of_decide_eq_true hb⟩

/-- **A text with a line break does not arrive whole**: the line break is lost, and so is a line that is no field. -/
theorem length_run_frame_lt {text : List Char} (h : ¬ NoBreak text) :
    ((run {} (frame text)).2.flatMap Event.data).length < text.length := by
  obtain ⟨first, b, rest, rfl, hfirst, hb⟩ := exists_first_break h
  obtain ⟨s, hstep, hpending⟩ : ∃ s, step ⟨"data: ".toList ++ first, false, [], []⟩ b = (s, []) ∧
      s.pending = first.length + 1 := by
    rcases hb with rfl | rfl
    · refine ⟨⟨[], false, first ++ ['\n'], []⟩, ?_, by simp [State.pending]⟩
      rw [step, if_pos rfl, if_neg (by simp)]
      exact endLine_data first
    · refine ⟨⟨[], true, first ++ ['\n'], []⟩, ?_, by simp [State.pending]⟩
      rw [step, if_neg (by decide), if_pos rfl, endLine_data first]
  have hevents : (run {} (frame (first ++ b :: rest))).2 =
      (run s rest).2 ++ (run (run s rest).1 ['\n', '\n']).2 := by
    unfold frame
    rw [List.append_assoc, ← List.append_assoc, run_append, run_data hfirst, List.cons_append, run, hstep, run_append]
    rfl
  have hrest := size_run s rest
  have hend := size_run_end (run s rest).1
  have hsize := length_flatMap_data_le ((run s rest).2 ++ (run (run s rest).1 ['\n', '\n']).2)
  rw [hevents]
  rw [size_append] at hsize
  simp only [List.length_append, List.length_cons]
  by_cases hnone : (run s rest).2 ++ (run (run s rest).1 ['\n', '\n']).2 = []
  · rw [hnone]
    simp
  · have := List.length_pos_iff.mpr hnone
    omega

theorem length_run_frame_le (text : List Char) :
    ((run {} (frame text)).2.flatMap Event.data).length ≤ text.length := by
  by_cases h : NoBreak text
  · rw [run_frame h]
    simp
  · exact Nat.le_of_lt (length_run_frame_lt h)

/-! ## A terminator -/

/-- The text of the messages before the first one that is the terminator. -/
def before (stop : List Char) (es : List Event) : List Char :=
  ((es.filter (·.type = message)).takeWhile (·.data ≠ stop)).flatMap Event.data

theorem length_before_le (stop : List Char) (es : List Event) :
    (before stop es).length ≤ (es.flatMap Event.data).length := by
  have hsub : ((es.filter (·.type = message)).takeWhile (·.data ≠ stop)).Sublist es :=
    (List.takeWhile_sublist _).trans List.filter_sublist
  exact (hsub.flatMap Event.data).length_le

/-- What is read of texts in frames with the terminator after them. -/
def received (stop : List Char) (texts : List (List Char)) : List Char :=
  before stop (events (texts.flatMap frame ++ frame stop))

theorem events_frames {stop : List Char} (hstop : NoBreak stop) (texts : List (List Char)) :
    events (texts.flatMap frame ++ frame stop) =
      texts.flatMap (fun t => (run {} (frame t)).2) ++ [⟨message, stop⟩] := by
  have hhead : (texts.flatMap frame ++ frame stop).head? = some 'd' := by
    cases texts <;> rfl
  unfold events
  rw [hhead, if_neg (by decide), run_frames, run_frame hstop]

theorem received_eq {stop : List Char} (hstop : NoBreak stop) (texts : List (List Char)) :
    received stop texts = before stop (texts.flatMap fun t => (run {} (frame t)).2) := by
  unfold received before
  rw [events_frames hstop, List.filter_append, List.takeWhile_append]
  split
  · next hlen =>
    -- no message before it is the terminator
    rw [(List.takeWhile_prefix _).eq_of_length hlen]
    simp
  · rfl

theorem length_received_le {stop : List Char} (hstop : NoBreak stop) (texts : List (List Char)) :
    (received stop texts).length ≤ (texts.flatMap fun t => (run {} (frame t)).2.flatMap Event.data).length := by
  rw [received_eq hstop, ← List.flatMap_assoc]
  exact length_before_le stop _

theorem length_flatMap_le (texts : List (List Char)) :
    (texts.flatMap fun t => (run {} (frame t)).2.flatMap Event.data).length ≤ texts.flatten.length := by
  induction texts with
  | nil => simp
  | cons t texts ih =>
    have ht := length_run_frame_le t
    rw [List.flatMap_cons, List.flatten_cons, List.length_append, List.length_append]
    omega

theorem length_flatMap_lt {texts : List (List Char)} {t : List Char} (hmem : t ∈ texts) (ht : ¬ NoBreak t) :
    (texts.flatMap fun t => (run {} (frame t)).2.flatMap Event.data).length < texts.flatten.length := by
  obtain ⟨l, r, rfl⟩ := List.append_of_mem hmem
  have hl := length_flatMap_le l
  have hr := length_flatMap_le r
  have hlt := length_run_frame_lt ht
  simp only [List.flatMap_append, List.flatMap_cons, List.flatten_append, List.flatten_cons, List.length_append] at hl hr ⊢
  omega

/-- Texts without line breaks arrive up to the first one that is the terminator. -/
theorem received_of_noBreak {stop : List Char} (hstop : NoBreak stop) {texts : List (List Char)}
    (h : ∀ t ∈ texts, NoBreak t) : received stop texts = (texts.takeWhile (· ≠ stop)).flatten := by
  have hevents : (texts.flatMap fun t => (run {} (frame t)).2) = texts.map fun t => ⟨message, t⟩ := by
    induction texts with
    | nil => rfl
    | cons t texts ih =>
      obtain ⟨ht, htexts⟩ := List.forall_mem_cons.mp h
      rw [List.flatMap_cons, run_frame ht, ih htexts]
      rfl
  have hfilter : (texts.map fun t => (⟨message, t⟩ : Event)).filter (·.type = message) =
      texts.map fun t => ⟨message, t⟩ := by
    apply List.filter_eq_self.mpr
    intro e he
    obtain ⟨t, -, rfl⟩ := List.mem_map.mp he
    simp
  rw [received_eq hstop, hevents]
  unfold before
  rw [hfilter, List.takeWhile_map, List.flatMap_map, List.flatMap_id']
  rfl

/-- **The texts arrive if and only if none of them has a line break or is the terminator.** -/
theorem received_eq_iff {stop : List Char} (hstop : NoBreak stop) (hne : stop ≠ []) (texts : List (List Char)) :
    received stop texts = texts.flatten ↔ ∀ t ∈ texts, NoBreak t ∧ t ≠ stop := by
  constructor
  · intro h
    have hbreak : ∀ t ∈ texts, NoBreak t := by
      intro t hmem
      by_contra ht
      have hle := length_received_le hstop texts
      have hlt := length_flatMap_lt hmem ht
      rw [h] at hle
      omega
    rw [received_of_noBreak hstop hbreak] at h
    have hsplit := congrArg List.flatten (List.takeWhile_append_dropWhile (p := (· ≠ stop)) (l := texts))
    rw [List.flatten_append, h] at hsplit
    -- the terminator would be left over
    have hrest : (texts.dropWhile (· ≠ stop)).flatten = [] := List.append_right_eq_self.mp hsplit
    have hall : texts.dropWhile (· ≠ stop) = [] := by
      cases hdrop : texts.dropWhile (· ≠ stop) with
      | nil => rfl
      | cons t rest =>
        have hhead := List.head?_dropWhile_not (fun t => decide (t ≠ stop)) texts
        rw [hdrop] at hhead hrest
        have ht : t = stop := by simpa using hhead
        exact absurd (List.append_eq_nil_iff.mp hrest).1 (ht ▸ hne)
    intro t hmem
    exact ⟨hbreak t hmem, by simpa using List.dropWhile_eq_nil_iff.mp hall t hmem⟩
  · intro h
    have htake : texts.takeWhile (· ≠ stop) = texts :=
      List.takeWhile_eq_self_iff.mpr fun t ht => decide_eq_true (h t ht).2
    rw [received_of_noBreak hstop fun t ht => (h t ht).1, htake]

end EventStream
