import OciHelper.Lib.Lines
import OciHelper.Lib.RingBuffer
import OciHelper.Lib.StepRun

/-!
# The live log

* `State`, `step` : the log files, and a connection of `handleLogWS` with its tail, its seek and its ticks;
* `Shows` : the client has the complete lines of the file from one of them on;
* `Orderly` : no step reads half a line, skips one, or takes another file for the one that was read;
* `shows_of_orderly` : in a run of orderly steps the client always has these lines.

Every line is shorter than the buffer of the scanner, so that it never stops before the end of the file. The time of a
message and the encoding of its text are left out.
-/

namespace OciHelper.Logs
open StepRun

abbrev Byte := UInt8

abbrev Line := List Byte

/-! ## Lines -/

def newline : Byte := 10

def carriageReturn : Byte := 13

def dropCR (line : Line) : Line := if line.getLast? = some carriageReturn then line.dropLast else line

/-- The complete lines of a file. -/
def completeLines (content : List Byte) : List Line := (Lines.complete newline content).map dropCR

/-- What stands after the last newline. -/
def unfinished (content : List Byte) : Line := Lines.rest newline content

/-- `bufio.ScanLines`, which gives what stands after the last newline as a line too. -/
def scanLines (content : List Byte) : List Line :=
  completeLines content ++ if unfinished content = [] then [] else [dropCR (unfinished content)]

def readLastNLines (content : List Byte) (n : Nat) : List Line :=
  if n = 0 then []
  else
    let ring := (scanLines content).foldl RingBuffer.push (RingBuffer.new n [])
    (ring.last []).filter fun line => line ≠ [] || ring.count ≤ ring.total

/-! ## Connections -/

/-- What comes next: the first tail, the seek to the end, a tick, or within a tick the new file or the scan, with the
size that `Stat` returned. -/
inductive Phase
  | tail
  | seek
  | idle
  | reset (size : Nat)
  | scan (size : Nat)
  | closed
  deriving DecidableEq, Repr

/-- Files have numbers as inodes have, `path` is the one at the path and `handle` the one that is open; `lines` is what
the client got since the last reset. For the statements there is also the number of the line that these start with,
what stood in the file up to the offset when it was read, whether the file was truncated or replaced since the last
`Stat`, and whether it has grown. -/
structure State where
  files : List (List Byte)
  path : Option Nat
  handle : Nat
  phase : Phase := .tail
  lastSize : Nat := 0
  lines : List Line := []
  first : Nat := 0
  seen : List Byte := []
  replaced : Bool := false
  grown : Bool := false
  deriving DecidableEq

namespace State

def file (s : State) (i : Nat) : List Byte := s.files[i]?.getD []

/-- The contents of the file that is open. -/
def held (s : State) : List Byte := s.file s.handle

/-- The contents of the file at the path. -/
def current (s : State) : Option (List Byte) := s.path.map s.file

/-- A file is written to. -/
def extend (s : State) (i : Nat) (content : List Byte) : State :=
  { s with files := s.files.set i content, grown := s.grown || s.path = some i }

end State

/-- The log file as it is opened. -/
def start (content : List Byte) : State := { files := [content], path := some 0, handle := 0 }

inductive Event
  | append (file : Nat) (data : List Byte)
  | truncate
  | rotate (content : List Byte)
  | remove
  | tail
  | seek
  | stat
  | reset
  | scan
  | disconnect

/-- `n` is the number of lines that the client asked for. -/
def step (n : Nat) : Step State Event
  | s, .append i data => s.files[i]?.map fun content => s.extend i (content ++ data)
  -- `cleanLogTask`
  | s, .truncate => some { s with
      files := s.path.elim s.files fun i => s.files.set i []
      replaced := true }
  | s, .rotate content => some { s with
      files := s.files ++ [content], path := some s.files.length, replaced := true }
  | s, .remove => some { s with path := none, replaced := true }
  | s, .tail =>
    if s.phase = .tail then some { s with
      lines := readLastNLines s.held n
      first := (completeLines s.held).length - (readLastNLines s.held n).length
      seen := s.held
      grown := false
      phase := .seek }
    else none
  | s, .seek =>
    if s.phase = .seek then some { s with
      lastSize := s.held.length
      first := if s.lines = [] then (completeLines s.held).length else s.first
      seen := s.held
      phase := .idle }
    else none
  | s, .stat =>
    if s.phase = .idle then
      match s.current with
      | none => some s
      | some content => some { s with
          phase := if content.length < s.lastSize then .reset content.length else .scan content.length
          replaced := false
          grown := false }
    else none
  | s, .reset =>
    match s.phase with
    | .reset size =>
      match s.path with
      | none => some { s with lines := [], first := 0, seen := [], phase := .closed }
      | some i => some { s with lines := [], handle := i, lastSize := 0, first := 0, seen := [], phase := .scan size }
    | _ => none
  | s, .scan =>
    match s.phase with
    | .scan size =>
      if s.lastSize < size then some { s with
        lines := s.lines ++ scanLines (s.held.drop s.lastSize)
        lastSize := max s.lastSize s.held.length
        seen := if s.lastSize < s.held.length then s.held else s.seen
        grown := false
        phase := .idle }
      else some { s with phase := .idle }
    | _ => none
  | s, .disconnect => some { s with phase := .closed }

/-! ## What the client sees -/

/-- Between the ticks, if the file was not truncated or replaced since the last one, the client has the complete lines
of the file in their order from the first one on, and all of them if the file has not grown. -/
def Shows (s : State) : Prop :=
  s.phase = .seek ∨ s.phase = .idle → s.replaced = false → ∀ content ∈ s.current,
    s.lines <+: (completeLines content).drop s.first ∧
      (s.grown = false → s.lines = (completeLines content).drop s.first)

/-- The tail and a scan find the last line complete, and the seek finds what the tail read, or the client has no lines
yet and none is cut. At a tick the file is shorter than the offset, or it is the one that is open and begins with what
was read; a scan past the offset finds what was read before it, too. -/
def Orderly (s : State) : Event → Prop
  | .tail => unfinished s.held = []
  | .seek => s.held = s.seen ∨ s.lines = [] ∧ unfinished s.held = []
  | .stat => ∀ content ∈ s.current, content.length < s.lastSize ∨ s.path = some s.handle ∧ s.seen <+: content
  | .scan => ∀ size, s.phase = .scan size → s.lastSize < size → s.lastSize < s.held.length →
      s.seen <+: s.held ∧ unfinished s.held = []
  | _ => True

/-- What holds while the file is neither truncated nor replaced. -/
def Synced (s : State) : Prop :=
  match s.phase with
  | .tail => s.path = some s.handle
  | .seek | .idle => s.path = some s.handle ∧ s.seen <+: s.held ∧ (s.grown = false → s.held = s.seen)
  | .reset size => ∃ content ∈ s.current, size ≤ content.length ∧ (s.grown = false → content.length = size)
  | .scan size => s.path = some s.handle ∧ s.seen <+: s.held ∧ size ≤ s.held.length ∧
      (s.grown = false → s.held.length = size)
  | .closed => True

/-- A tick under way, or to come. -/
def Phase.polling : Phase → Bool
  | .idle | .reset _ | .scan _ => true
  | _ => false

/-- The lines are those of what was read, and that ends with a line. -/
structure Inv (s : State) : Prop where
  first : s.first ≤ (completeLines s.seen).length
  lines : s.lines = (completeLines s.seen).drop s.first
  whole : unfinished s.seen = []
  offset : s.phase.polling = true → s.seen.length = s.lastSize
  synced : s.replaced = false → Synced s

/-! ## Reading lines -/

theorem completeLines_append {s : List Byte} (h : unfinished s = []) (t : List Byte) :
    completeLines (s ++ t) = completeLines s ++ completeLines t := by
  unfold completeLines
  rw [Lines.complete_append newline h, List.map_append]

theorem unfinished_append {s : List Byte} (h : unfinished s = []) (t : List Byte) :
    unfinished (s ++ t) = unfinished t :=
  Lines.rest_append newline h t

theorem scanLines_of_unfinished {content : List Byte} (h : unfinished content = []) :
    scanLines content = completeLines content := by
  rw [scanLines, if_pos h, List.append_nil]

/-- The filter drops nothing, since `n` is no more than the number of lines by then. -/
theorem readLastNLines_suffix (content : List Byte) (n : Nat) : readLastNLines content n <:+ scanLines content := by
  unfold readLastNLines
  split
  · exact List.nil_suffix
  next hn =>
    have hlast := RingBuffer.last_foldl_push (Nat.pos_of_ne_zero hn) [] (scanLines content)
    have hall : ∀ ring : RingBuffer Line,
        (ring.last []).filter (fun line => line ≠ [] || ring.count ≤ ring.total) = ring.last [] := by
      intro ring
      refine List.filter_eq_self.mpr fun line _ => ?_
      have hcount : ring.count ≤ ring.total := by
        unfold RingBuffer.count
        split <;> omega
      rw [decide_eq_true hcount, Bool.or_true]
    dsimp only
    rw [hall, hlast]
    exact List.drop_suffix _ _

/-- A scan from the offset adds the lines that follow those that were read. -/
theorem lines_scan {seen held : List Byte} {first : Nat} (hfirst : first ≤ (completeLines seen).length)
    (hwhole : unfinished seen = []) (hseen : seen <+: held) (hheld : unfinished held = []) :
    first ≤ (completeLines held).length ∧
      (completeLines seen).drop first ++ scanLines (held.drop seen.length) = (completeLines held).drop first := by
  obtain ⟨added, rfl⟩ := hseen
  rw [unfinished_append hwhole] at hheld
  rw [List.drop_left, scanLines_of_unfinished hheld, completeLines_append hwhole,
    List.drop_append_of_le_length hfirst, List.length_append]
  exact ⟨Nat.le_add_right_of_le hfirst, rfl⟩

/-! ## What happens to the files -/

theorem file_extend {s : State} {i : Nat} {content : List Byte} (hi : s.files[i]? = some content) (data : List Byte)
    (j : Nat) : (s.extend i (content ++ data)).file j = if j = i then s.file j ++ data else s.file j := by
  have hlt : i < s.files.length := (List.getElem?_eq_some_iff.mp hi).1
  unfold State.file State.extend
  split
  · next he => rw [he, List.getElem?_set_self hlt, hi, Option.getD_some, Option.getD_some]
  · next hne => rw [List.getElem?_set_ne (Ne.symm hne)]

/-- An append extends the file at the path, or `grown` says that it does not. -/
theorem synced_extend {s : State} {i : Nat} {content : List Byte} (hi : s.files[i]? = some content)
    (data : List Byte) (h : Synced s) : Synced (s.extend i (content ++ data)) := by
  have hbefore : ∀ j, s.file j <+: (s.extend i (content ++ data)).file j := by
    intro j
    rw [file_extend hi]
    split
    · exact List.prefix_append _ _
    · exact List.prefix_rfl
  have hsame : (s.extend i (content ++ data)).grown = false → s.grown = false ∧
      ∀ j, s.path = some j → (s.extend i (content ++ data)).file j = s.file j := by
    intro hg
    simp only [State.extend, Bool.or_eq_false_iff, decide_eq_false_iff_not] at hg
    refine ⟨hg.1, fun j hj => ?_⟩
    rw [file_extend hi, if_neg]
    rintro rfl
    exact hg.2 hj
  have hphase' : (s.extend i (content ++ data)).phase = s.phase := rfl
  unfold Synced at h ⊢
  rw [hphase']
  cases hphase : s.phase with
  | tail => rw [hphase] at h; exact h
  | seek | idle =>
    rw [hphase] at h
    obtain ⟨hpath, hseen, hheld⟩ := h
    refine ⟨hpath, hseen.trans (hbefore _), fun hg => ?_⟩
    obtain ⟨hg, hfile⟩ := hsame hg
    exact (hfile _ hpath).trans (hheld hg)
  | reset size =>
    rw [hphase] at h
    obtain ⟨c, hc, hle, heq⟩ := h
    obtain ⟨p, hp, rfl⟩ := Option.map_eq_some_iff.mp hc
    refine ⟨_, Option.map_eq_some_iff.mpr ⟨p, hp, rfl⟩, Nat.le_trans hle (hbefore p).length_le, fun hg => ?_⟩
    obtain ⟨hg, hfile⟩ := hsame hg
    rw [hfile p hp]
    exact heq hg
  | scan size =>
    rw [hphase] at h
    obtain ⟨hpath, hseen, hle, heq⟩ := h
    refine ⟨hpath, hseen.trans (hbefore _), Nat.le_trans hle (hbefore _).length_le, fun hg => ?_⟩
    obtain ⟨hg, hfile⟩ := hsame hg
    exact (congrArg List.length (hfile _ hpath)).trans (heq hg)
  | closed => trivial

/-! ## The steps of a connection -/

theorem Inv.tail {s : State} (h : Inv s) (n : Nat) (hphase : s.phase = .tail) (hheld : unfinished s.held = []) :
    Inv { s with
      lines := readLastNLines s.held n
      first := (completeLines s.held).length - (readLastNLines s.held n).length
      seen := s.held
      grown := false
      phase := .seek } where
  first := Nat.sub_le _ _
  lines := List.suffix_iff_eq_drop.mp (scanLines_of_unfinished hheld ▸ readLastNLines_suffix s.held n)
  whole := hheld
  offset hp := Bool.noConfusion hp
  synced hr := by
    have hpath := h.synced hr
    rw [Synced, hphase] at hpath
    exact ⟨hpath, List.prefix_rfl, fun _ => rfl⟩

/-- Without lines the client starts where the seek ends. -/
theorem Inv.seek {s : State} (h : Inv s) (hphase : s.phase = .seek)
    (hc : s.held = s.seen ∨ s.lines = [] ∧ unfinished s.held = []) :
    Inv { s with
      lastSize := s.held.length
      first := if s.lines = [] then (completeLines s.held).length else s.first
      seen := s.held
      phase := .idle } where
  first := by
    dsimp only
    split
    · exact Nat.le_refl _
    · next hne => exact (hc.resolve_right fun hnil => hne hnil.1) ▸ h.first
  lines := by
    dsimp only
    split
    · next hnil => rw [hnil, List.drop_length]
    · next hne => exact (hc.resolve_right fun hnil => hne hnil.1) ▸ h.lines
  whole := by
    obtain he | ⟨-, hrest⟩ := hc
    · exact he ▸ h.whole
    · exact hrest
  offset _ := rfl
  synced hr := by
    have hsync := h.synced hr
    rw [Synced, hphase] at hsync
    exact ⟨hsync.1, List.prefix_rfl, fun _ => rfl⟩

theorem Inv.stat {s : State} (h : Inv s) (hphase : s.phase = .idle) {content : List Byte}
    (hcur : s.current = some content)
    (hc : content.length < s.lastSize ∨ s.path = some s.handle ∧ s.seen <+: content) :
    Inv { s with
      phase := if content.length < s.lastSize then .reset content.length else .scan content.length
      replaced := false
      grown := false } where
  first := h.first
  lines := h.lines
  whole := h.whole
  offset _ := h.offset (by rw [hphase]; rfl)
  synced _ := by
    unfold Synced
    by_cases hlt : content.length < s.lastSize
    · simp only [if_pos hlt]
      exact ⟨content, hcur, Nat.le_refl _, fun _ => rfl⟩
    · simp only [if_neg hlt]
      obtain ⟨hpath, hseen⟩ := hc.resolve_left hlt
      have hheld : s.held = content := by
        rw [State.current, hpath] at hcur
        exact Option.some.inj hcur
      exact ⟨hpath, hheld ▸ hseen, hheld ▸ Nat.le_refl _, fun _ => congrArg List.length hheld⟩

theorem Inv.reopen {s : State} (h : Inv s) {size i : Nat} (hphase : s.phase = .reset size) (hpath : s.path = some i) :
    Inv { s with lines := [], handle := i, lastSize := 0, first := 0, seen := [], phase := .scan size } where
  first := Nat.zero_le _
  lines := rfl
  whole := rfl
  offset _ := rfl
  synced hr := by
    have hsync := h.synced hr
    rw [Synced, hphase] at hsync
    obtain ⟨content, hcur, hle, heq⟩ := hsync
    rw [State.current, hpath] at hcur
    obtain rfl := Option.some.inj hcur
    exact ⟨hpath, List.nil_prefix, hle, heq⟩

/-- The file has nothing past the offset, or only what was appended to what was read. -/
theorem Inv.scan {s : State} (h : Inv s) {size : Nat} (hphase : s.phase = .scan size) (hlt : s.lastSize < size)
    (hc : s.lastSize < s.held.length → s.seen <+: s.held ∧ unfinished s.held = []) :
    Inv { s with
      lines := s.lines ++ scanLines (s.held.drop s.lastSize)
      lastSize := max s.lastSize s.held.length
      seen := if s.lastSize < s.held.length then s.held else s.seen
      grown := false
      phase := .idle } := by
  have hoff : s.seen.length = s.lastSize := h.offset (by rw [hphase]; rfl)
  by_cases hheld : s.lastSize < s.held.length
  · obtain ⟨hseen, hrest⟩ := hc hheld
    simp only [if_pos hheld, Nat.max_eq_right (Nat.le_of_lt hheld)]
    obtain ⟨hfirst, hlines⟩ := lines_scan h.first h.whole hseen hrest
    rw [← h.lines, hoff] at hlines
    refine ⟨hfirst, hlines, hrest, fun _ => rfl, fun hr => ?_⟩
    have hsync := h.synced hr
    rw [Synced, hphase] at hsync
    exact ⟨hsync.1, List.prefix_rfl, fun _ => rfl⟩
  · have hle := Nat.le_of_not_lt hheld
    have hnil : scanLines [] = [] := rfl
    simp only [if_neg hheld, Nat.max_eq_left hle, List.drop_eq_nil_of_le hle, hnil, List.append_nil]
    refine ⟨h.first, h.lines, h.whole, fun _ => hoff, fun hr => ?_⟩
    have hsync := h.synced hr
    rw [Synced, hphase] at hsync
    exact absurd (Nat.lt_of_lt_of_le hlt hsync.2.2.1) hheld

theorem Inv.skip {s : State} (h : Inv s) {size : Nat} (hphase : s.phase = .scan size) (hle : ¬s.lastSize < size) :
    Inv { s with phase := .idle } where
  first := h.first
  lines := h.lines
  whole := h.whole
  offset _ := h.offset (by rw [hphase]; rfl)
  synced hr := by
    have hoff : s.seen.length = s.lastSize := h.offset (by rw [hphase]; rfl)
    have hsync := h.synced hr
    rw [Synced, hphase] at hsync
    obtain ⟨hpath, hseen, -, hgrown⟩ := hsync
    refine ⟨hpath, hseen, fun hg => (hseen.eq_of_length_le ?_).symm⟩
    have hlen := hgrown hg
    omega

theorem Inv.close {s : State} (h : Inv s) : Inv { s with phase := .closed } :=
  ⟨h.first, h.lines, h.whole, fun hp => Bool.noConfusion hp, fun _ => trivial⟩

theorem inv_step {n : Nat} {s s' : State} {e : Event} (h : Inv s) (hc : Orderly s e) (hs : step n s e = some s') :
    Inv s' := by
  cases e with
  | append i data =>
    obtain ⟨content, hi, rfl⟩ := Option.map_eq_some_iff.mp hs
    exact ⟨h.first, h.lines, h.whole, h.offset, fun hr => synced_extend hi data (h.synced hr)⟩
  | truncate | rotate _ | remove =>
    cases hs
    exact ⟨h.first, h.lines, h.whole, h.offset, fun hr => Bool.noConfusion hr⟩
  | tail =>
    dsimp only [step] at hs
    split at hs
    · next hphase =>
      cases hs
      exact h.tail n hphase hc
    · cases hs
  | seek =>
    dsimp only [step] at hs
    split at hs
    · next hphase =>
      cases hs
      exact h.seek hphase hc
    · cases hs
  | stat =>
    dsimp only [step] at hs
    split at hs
    · next hphase =>
      split at hs
      · cases hs
        exact h
      · next content hcur =>
        cases hs
        exact h.stat hphase hcur (hc content hcur)
    · cases hs
  | reset =>
    dsimp only [step] at hs
    split at hs
    · next size hphase =>
      split at hs
      · cases hs
        exact ⟨Nat.zero_le _, rfl, rfl, fun hp => Bool.noConfusion hp, fun _ => trivial⟩
      · next i hpath =>
        cases hs
        exact h.reopen hphase hpath
    · cases hs
  | scan =>
    dsimp only [step] at hs
    split at hs
    · next size hphase =>
      split at hs
      · next hlt =>
        cases hs
        exact h.scan hphase hlt (hc size hphase hlt)
      · next hle =>
        cases hs
        exact h.skip hphase hle
    · cases hs
  | disconnect =>
    cases hs
    exact h.close

/-! ## What the client has -/

theorem inv_start (content : List Byte) : Inv (start content) :=
  ⟨Nat.zero_le _, rfl, rfl, fun hp => Bool.noConfusion hp, fun _ => rfl⟩

theorem Inv.shows {s : State} (h : Inv s) : Shows s := by
  intro hphase hr content hcur
  have hsync : s.path = some s.handle ∧ s.seen <+: s.held ∧ (s.grown = false → s.held = s.seen) := by
    have hsync := h.synced hr
    unfold Synced at hsync
    obtain hphase | hphase := hphase <;> rwa [hphase] at hsync
  obtain ⟨hpath, ⟨added, hheld⟩, hgrown⟩ := hsync
  rw [State.current, hpath] at hcur
  obtain rfl : s.held = content := Option.some.inj hcur
  refine ⟨?_, fun hg => hgrown hg ▸ h.lines⟩
  rw [← hheld, completeLines_append h.whole, List.drop_append_of_le_length h.first, ← h.lines]
  exact List.prefix_append _ _

/-- In every run of orderly steps, whatever happens to the files in between, the client has what the file shows. -/
theorem shows_of_orderly {content : List Byte} {n : Nat} {es : List Event} {s : State}
    (h : Run (step n) Orderly (start content) es s) : Throughout (step n) Shows (start content) es :=
  (h.throughout (fun _ _ _ hc hi hs => inv_step hi hc hs) (inv_start content)).imp fun _ hi => hi.shows

/-- A line that was appended after the seek, at two stages of the next tick. -/
def exampleState (phase : Phase) : State :=
  { start [97, newline, 98, newline] with
    phase, lastSize := 2, lines := [[97]], seen := [97, newline], grown := phase = .idle }

theorem shows_of_orderly_line :
    Throughout (step 100) Shows (start [97, newline]) [.tail, .seek, .append 0 [98, newline], .stat, .scan] := by
  have hstat : Orderly (exampleState .idle) .stat := by
    rintro _ ⟨⟩
    exact .inr ⟨rfl, by decide⟩
  have hscan : Orderly (exampleState (.scan 4)) .scan := fun _ _ _ _ => ⟨by decide, rfl⟩
  exact shows_of_orderly (.cons rfl rfl (.cons (.inl rfl) rfl (.cons trivial rfl (.cons hstat rfl
    (.cons hscan rfl (.nil _))))))

/-- Half a line, a line between the tail and the seek, and a file that has grown again past the offset. -/
theorem log_not_shown :
    (∃ s, exec (step 100) (start []) [.tail, .seek, .append 0 [97], .stat, .scan] = some s ∧ ¬Shows s) ∧
    (∃ s, exec (step 100) (start [97, newline]) [.tail, .append 0 [98, newline], .seek, .stat, .scan] = some s ∧
      ¬Shows s) ∧
    ∃ s, exec (step 100) (start [97, newline])
      [.tail, .seek, .truncate, .append 0 [98, newline, 99, newline], .stat, .scan] = some s ∧ ¬Shows s := by
  refine ⟨⟨_, rfl, fun h => ?_⟩, ⟨_, rfl, fun h => ?_⟩, _, rfl, fun h => ?_⟩
  · exact absurd ((h (.inr rfl) rfl _ rfl).2 rfl) (by decide)
  · exact absurd ((h (.inr rfl) rfl _ rfl).2 rfl) (by decide)
  · exact absurd ((h (.inr rfl) rfl _ rfl).2 rfl) (by decide)

end OciHelper.Logs
