import OciHelper.Chat.Conversations
import OciHelper.Lib.EventStream
import OciHelper.Lib.Lines
import OciHelper.Lib.Text

/-!
# Streamed replies

* `readLines`, `chatStream` : the lines of the body as it comes in chunks, and the tokens in them;
* `handleAIChat` : the conversation before and after a streamed reply, and what is written;
* `Line`, `upstream`, `contents` : a body of well-formed lines, and the contents of its deltas;
* `Arrives` : the client reads the contents, and they are stored; `Clean` : when they can;
* `arrives_iff` : a reply arrives intact if and only if its contents are clean.
-/

namespace OciHelper.Chat
open Text EventStream

/-- `json.Unmarshal` of an event: the contents of the deltas of its choices. -/
abbrev Unmarshal := List Char → Option (List (List Char))

def dataPrefix : List Char := "data: ".toList

def done : List Char := "[DONE]".toList

/-! ## `ChatStream` -/

/-- `ReadString` over the chunks: the lines without their line feeds, and the unfinished one. -/
def readLines (carry : List Char) : List (List Char) → List (List Char) × List Char
  | [] => ([], carry)
  | chunk :: chunks =>
    let (ls, carry) := Lines.scan '\n' carry chunk
    let (ls', carry) := readLines carry chunks
    (ls ++ ls', carry)

/-- The tokens of the lines; `readErr` is the error that is no end of file, if there is one. -/
def chatStream (unmarshal : Unmarshal) (readErr : Option (List Char)) : List (List Char) → List (List Char)
  | [] => (readErr.map fun err => "[error: ".toList ++ err ++ "]".toList).toList
  | text :: rest =>
    let line := trimSpace text
    if ¬ dataPrefix <+: line then chatStream unmarshal readErr rest
    else
      let dataStr := line.drop dataPrefix.length
      if dataStr = done then []
      else
        match unmarshal dataStr with
        | some (content :: _) =>
          if content ≠ [] then content :: chatStream unmarshal readErr rest else chatStream unmarshal readErr rest
        | _ => chatStream unmarshal readErr rest

/-! ## `handleAIChat` -/

/-- The user's message of a session. -/
def recordMessage (now : Int) (id : String) (message : List Char) (cache : Cache) : Cache :=
  if id ≠ "" ∧ message ≠ [] then
    let messages := ((cache.lookup id).map ConversationEntry.messages).getD []
    cache.insert id { messages := messages ++ [⟨"user", message⟩], lastAccess := now }
  else cache

/-- The assistant's message, if the conversation is still there. -/
def recordReply (now : Int) (id : String) (text : List Char) (cache : Cache) : Cache :=
  if id ≠ "" ∧ text ≠ [] then
    match cache.lookup id with
    | some entry => cache.insert id { messages := entry.messages ++ [⟨"assistant", text⟩], lastAccess := now }
    | none => cache
  else cache

/-- `data: %s` and an empty line. -/
def writeData (token : List Char) : List Char := "data: ".toList ++ (token ++ "\n\n".toList)

structure Request where
  sessionID : String
  message : List Char

/-- The times of the two accesses to the cache, and what is done to it between them. -/
structure Timing where
  asked : Int
  answered : Int
  others : Cache → Cache

structure Reply where
  body : List Char
  cache : Cache

/-- The conversation when the stream has ended. -/
def Timing.before (t : Timing) (req : Request) (cache : Cache) : Cache :=
  t.others (recordMessage t.asked req.sessionID req.message cache)

/-- A streamed reply. -/
def handleAIChat (unmarshal : Unmarshal) (readErr : Option (List Char)) (chunks : List (List Char)) (req : Request)
    (t : Timing) (cache : Cache) : Reply :=
  let tokens := chatStream unmarshal readErr (readLines [] chunks).1
  { body := tokens.flatMap writeData ++ writeData done
    cache := recordReply t.answered req.sessionID tokens.flatten (t.before req cache) }

/-! ## Bodies -/

/-- The text of an object in one line. -/
abbrev Json := {s : List Char // s.head? = some '{' ∧ s.getLast? = some '}' ∧ '\n' ∉ s}

/-- An empty line, a comment or another field. -/
abbrev Other := {s : List Char // '\n' ∉ s ∧ ¬ dataPrefix <+: trimSpace s}

inductive Line
  | delta (json : Json)
  | other (text : Other)
  | done

def Line.text : Line → List Char
  | .delta json => dataPrefix ++ json.1
  | .other text => text.1
  | .done => dataPrefix ++ Chat.done

/-- The body of the lines. An empty last line is the line feed of the one before it. -/
def upstream (ls : List Line) : List Char := ['\n'].intercalate (ls.map Line.text)

/-- A body, however it is cut. -/
abbrev Split (text : List Char) := {chunks : List (List Char) // chunks.flatten = text}

def contentOf (unmarshal : Unmarshal) (json : Json) : List Char :=
  match unmarshal json.1 with
  | some (content :: _) => content
  | _ => []

/-- The contents of the deltas, up to the terminator. -/
def contents (unmarshal : Unmarshal) : List Line → List (List Char)
  | [] => []
  | .delta json :: ls => contentOf unmarshal json :: contents unmarshal ls
  | .other _ :: ls => contents unmarshal ls
  | .done :: _ => []

/-- What an event-stream client reads before the terminator. -/
def clientReply (body : List Char) : List Char := EventStream.before done (events body)

def assistant (text : List Char) : List ChatMessage := if text = [] then [] else [⟨"assistant", text⟩]

/-- The client reads the text, and a conversation that is still there has it as its last message. -/
structure Arrives (text : List Char) (req : Request) (before : Cache) (r : Reply) : Prop where
  client : clientReply r.body = text
  stored : ∀ entry, req.sessionID ≠ "" → before.lookup req.sessionID = some entry →
    (r.cache.lookup req.sessionID).map ConversationEntry.messages = some (entry.messages ++ assistant text)

/-- No content has a line break or is the terminator, and a last line without a line feed has none that counts. -/
structure Clean (unmarshal : Unmarshal) (ls : List Line) : Prop where
  plain : ∀ content ∈ contents unmarshal ls, NoBreak content ∧ content ≠ done
  ended : ∀ json, ls.getLast? = some (.delta json) → .done ∉ ls.dropLast → contentOf unmarshal json = []

/-! ## Lines -/

theorem readLines_eq (carry : List Char) (chunks : List (List Char)) :
    readLines carry chunks = Lines.scan '\n' carry chunks.flatten := by
  induction chunks generalizing carry with
  | nil => rfl
  | cons chunk chunks ih =>
    simp only [readLines, ih, List.flatten_cons, Lines.scan_append]

theorem complete_intercalate {ls : List (List Char)} (h : ∀ l ∈ ls, '\n' ∉ l) :
    (Lines.scan '\n' [] (['\n'].intercalate ls)).1 = ls.dropLast := by
  induction ls with
  | nil => rfl
  | cons l ls ih =>
    obtain ⟨hl, hls⟩ := List.forall_mem_cons.mp h
    cases ls with
    | nil => rw [List.intercalate_singleton, Lines.scan_of_notMem '\n' hl]; rfl
    | cons l' ls =>
      rw [List.intercalate_cons_cons, List.append_assoc, List.singleton_append, Lines.scan_append_cons '\n' hl]
      exact congrArg (List.cons l) (ih hls)

theorem notMem_text (l : Line) : '\n' ∉ l.text := by
  have hdata : '\n' ∉ dataPrefix := by decide
  cases l with
  | delta json => simpa [Line.text, hdata] using json.2.2.2
  | other text => exact text.2.1
  | done => decide

theorem trimSpace_delta (json : Json) : trimSpace (dataPrefix ++ json.1) = dataPrefix ++ json.1 := by
  obtain ⟨mid, hmid⟩ := List.getLast?_eq_some_iff.mp json.2.2.1
  rw [hmid]
  exact trimSpace_cons_append (by decide) (by decide) ("ata: ".toList ++ mid) []

theorem delta_ne_done (json : Json) : json.1 ≠ done := by
  intro h
  have hhead := json.2.1
  rw [h] at hhead
  exact absurd hhead (by decide)

/-- The tokens are the contents that are not empty. -/
theorem chatStream_text (unmarshal : Unmarshal) (ls : List Line) :
    chatStream unmarshal none (ls.map Line.text) = (contents unmarshal ls).filter (· ≠ []) := by
  induction ls with
  | nil => rfl
  | cons l ls ih =>
    cases l with
    | delta json =>
      rw [List.map_cons, chatStream]
      simp only [Line.text, trimSpace_delta, List.prefix_append, not_true_eq_false, if_false, List.drop_left,
        delta_ne_done, contents]
      unfold contentOf
      split
      · next content _ _ =>
        by_cases hne : content = [] <;> simp [hne, ih]
      · simp [ih]
    | other text =>
      rw [List.map_cons, chatStream]
      simp only [Line.text, if_pos text.2.2, contents, ih]
    | done => rfl

theorem tokens_eq (unmarshal : Unmarshal) (ls : List Line) (chunks : Split (upstream ls)) :
    chatStream unmarshal none (readLines [] chunks.1).1 = (contents unmarshal ls.dropLast).filter (· ≠ []) := by
  have hlines : ∀ text ∈ ls.map Line.text, '\n' ∉ text := by
    intro text htext
    obtain ⟨l, -, rfl⟩ := List.mem_map.mp htext
    exact notMem_text l
  rw [readLines_eq, chunks.2, upstream, complete_intercalate hlines, ← List.map_dropLast, chatStream_text]

/-! ## The last line -/

theorem contents_append (unmarshal : Unmarshal) {a : List Line} (h : .done ∉ a) (b : List Line) :
    contents unmarshal (a ++ b) = contents unmarshal a ++ contents unmarshal b := by
  induction a with
  | nil => rfl
  | cons l a ih =>
    obtain ⟨hl, ha⟩ : Line.done ≠ l ∧ .done ∉ a := by simpa using h
    cases l with
    | delta json => simp [contents, ih ha]
    | other text => simp [contents, ih ha]
    | done => exact absurd rfl hl

theorem contents_append_of_mem (unmarshal : Unmarshal) {a : List Line} (h : .done ∈ a) (b : List Line) :
    contents unmarshal (a ++ b) = contents unmarshal a := by
  induction a with
  | nil => exact absurd h List.not_mem_nil
  | cons l a ih =>
    cases l with
    | delta json => simp [contents, ih (by simpa using h)]
    | other text => simp [contents, ih (by simpa using h)]
    | done => rfl

theorem eq_dropLast_append {ls : List Line} {l : Line} (h : ls.getLast? = some l) : ls = ls.dropLast ++ [l] := by
  obtain ⟨init, rfl⟩ := List.getLast?_eq_some_iff.mp h
  rw [List.dropLast_concat]

theorem contents_of_last (unmarshal : Unmarshal) {ls : List Line} {json : Json} (h : ls.getLast? = some (.delta json))
    (hnone : .done ∉ ls.dropLast) :
    contents unmarshal ls = contents unmarshal ls.dropLast ++ [contentOf unmarshal json] := by
  conv =>
    lhs
    rw [eq_dropLast_append h, contents_append unmarshal hnone]
  rfl

theorem contents_of_not_last (unmarshal : Unmarshal) {ls : List Line}
    (h : ∀ json, ls.getLast? = some (.delta json) → .done ∈ ls.dropLast) :
    contents unmarshal ls = contents unmarshal ls.dropLast := by
  cases hlast : ls.getLast? with
  | none => rw [List.getLast?_eq_none_iff.mp hlast]; rfl
  | some l =>
    conv =>
      lhs
      rw [eq_dropLast_append hlast]
    by_cases hnone : .done ∈ ls.dropLast
    · exact contents_append_of_mem unmarshal hnone [l]
    · rw [contents_append unmarshal hnone]
      cases l with
      | delta json => exact absurd (h json hlast) hnone
      | other text => simp [contents]
      | done => simp [contents]

/-- If the last line has no content that counts, its contents are those of the other lines, and an empty one. -/
theorem contents_of_ended {unmarshal : Unmarshal} {ls : List Line}
    (h : ∀ json, ls.getLast? = some (.delta json) → .done ∉ ls.dropLast → contentOf unmarshal json = []) :
    contents unmarshal ls = contents unmarshal ls.dropLast ∨
      contents unmarshal ls = contents unmarshal ls.dropLast ++ [[]] := by
  by_cases hlast : ∃ json, ls.getLast? = some (.delta json) ∧ .done ∉ ls.dropLast
  · obtain ⟨json, hjson, hnone⟩ := hlast
    exact .inr (by rw [contents_of_last unmarshal hjson hnone, h json hjson hnone])
  · push Not at hlast
    exact .inl (contents_of_not_last unmarshal hlast)

theorem flatten_of_ended {unmarshal : Unmarshal} {ls : List Line}
    (h : ∀ json, ls.getLast? = some (.delta json) → .done ∉ ls.dropLast → contentOf unmarshal json = []) :
    (contents unmarshal ls).flatten = (contents unmarshal ls.dropLast).flatten := by
  rcases contents_of_ended h with heq | heq
  · rw [heq]
  · rw [heq]
    simp

/-! ## Arrival -/

theorem lookup_recordReply {now : Int} {id : String} (hid : id ≠ "") (text : List Char) {cache : Cache}
    {entry : ConversationEntry} (h : cache.lookup id = some entry) :
    ((recordReply now id text cache).lookup id).map ConversationEntry.messages =
      some (entry.messages ++ assistant text) := by
  unfold recordReply assistant
  by_cases hne : text = []
  · simp [hne, h]
  · simp [hid, hne, h]

theorem noBreak_done : NoBreak done := by decide

theorem clientReply_handleAIChat (unmarshal : Unmarshal) (ls : List Line) (chunks : Split (upstream ls)) (req : Request)
    (t : Timing) (cache : Cache) :
    clientReply (handleAIChat unmarshal none chunks.1 req t cache).body =
      received done ((contents unmarshal ls.dropLast).filter (· ≠ [])) := by
  unfold handleAIChat
  rw [tokens_eq]
  rfl

theorem length_clientReply_le (unmarshal : Unmarshal) (ls : List Line) (chunks : Split (upstream ls)) (req : Request)
    (t : Timing) (cache : Cache) :
    (clientReply (handleAIChat unmarshal none chunks.1 req t cache).body).length ≤
      (contents unmarshal ls.dropLast).flatten.length := by
  rw [clientReply_handleAIChat, ← List.flatten_filter_ne_nil]
  exact (length_received_le noBreak_done _).trans (length_flatMap_le _)

/-- **A streamed reply arrives intact if and only if its contents are clean.** -/
theorem arrives_iff (unmarshal : Unmarshal) (ls : List Line) (chunks : Split (upstream ls)) (req : Request) (t : Timing)
    (cache : Cache) :
    Arrives (contents unmarshal ls).flatten req (t.before req cache)
      (handleAIChat unmarshal none chunks.1 req t cache) ↔ Clean unmarshal ls := by
  have hreceived := received_eq_iff noBreak_done (by decide) ((contents unmarshal ls.dropLast).filter (· ≠ []))
  rw [List.flatten_filter_ne_nil] at hreceived
  constructor
  · intro h
    have hended : ∀ json, ls.getLast? = some (.delta json) → .done ∉ ls.dropLast → contentOf unmarshal json = [] := by
      intro json hlast hnone
      have hle := length_clientReply_le unmarshal ls chunks req t cache
      rw [h.client, contents_of_last unmarshal hlast hnone] at hle
      apply List.eq_nil_of_length_eq_zero
      simp at hle ⊢
      omega
    have hclient := h.client
    rw [clientReply_handleAIChat] at hclient
    have hplain : ∀ content ∈ contents unmarshal ls.dropLast, content ≠ [] → NoBreak content ∧ content ≠ done := by
      intro content hmem hne
      exact hreceived.mp (hclient.trans (flatten_of_ended hended)) content (by simp [hmem, hne])
    refine ⟨fun content hmem => ?_, hended⟩
    by_cases hne : content = []
    · rw [hne]
      exact ⟨fun c hc => absurd hc List.not_mem_nil, by decide⟩
    · rcases contents_of_ended hended with heq | heq
      · exact hplain content (heq ▸ hmem) hne
      · rw [heq] at hmem
        exact hplain content (by simpa [hne] using hmem) hne
  · rintro ⟨hplain, hended⟩
    have hflatten := flatten_of_ended hended
    have hsub : ∀ content ∈ contents unmarshal ls.dropLast, content ∈ contents unmarshal ls := by
      intro content hmem
      rcases contents_of_ended hended with heq | heq
      · rwa [heq]
      · rw [heq]
        exact List.mem_append_left _ hmem
    constructor
    · rw [clientReply_handleAIChat, hflatten]
      exact hreceived.mpr fun content hmem => hplain content (hsub content (List.mem_of_mem_filter hmem))
    · intro entry hid hentry
      unfold handleAIChat
      rw [tokens_eq]
      dsimp only
      rw [List.flatten_filter_ne_nil, hflatten]
      exact lookup_recordReply hid _ hentry

/-! ## A line break in a delta -/

def twoLines : Json :=
  ⟨"\x7b\"choices\":[\x7b\"delta\":\x7b\"content\":\"a\\nb\"\x7d\x7d]\x7d".toList, by decide +kernel⟩

/-- It reads this one text. -/
def readTwoLines : Unmarshal := fun text => if text = twoLines.1 then some ["a\nb".toList] else none

def noOthers : Timing := ⟨0, 1, id⟩

/-- The client reads the first line only, while the conversation has both. -/
theorem second_line_lost :
    let ls := [Line.delta twoLines, .done]
    let r := handleAIChat readTwoLines none [upstream ls] ⟨"s", "hi".toList⟩ noOthers ∅
    clientReply r.body = "a".toList ∧ (contents readTwoLines ls).flatten = "a\nb".toList ∧
      (r.cache.lookup "s").map ConversationEntry.messages =
        some [⟨"user", "hi".toList⟩, ⟨"assistant", "a\nb".toList⟩] := by
  decide +kernel

end OciHelper.Chat
