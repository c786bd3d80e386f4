import Jrtplib4Android.Core.Text

/-!
# The grammar of RTSP requests

A request is a request line and header lines, each ended by CRLF, and one empty line. Requests
without a body follow one another in a stream, and the empty lines tell where each ends.
-/

namespace Jrtplib4Android

open Text

/-- A request by its parts. -/
structure RtspMessage where
  method : List Char
  uri : List Char
  headers : List (List Char × List Char)
  deriving DecidableEq

namespace RtspMessage

def rtspVersion : List Char := " RTSP/1.0".toList

def headerLine (header : List Char × List Char) : List Char := header.1 ++ ": ".toList ++ header.2

/-- The lines in front of the empty one. -/
def lines (m : RtspMessage) : List (List Char) :=
  (m.method ++ ' ' :: (m.uri ++ rtspVersion)) :: m.headers.map headerLine

/-- The lines, each with its end. -/
def block (lines : List (List Char)) : List Char := lines.flatMap (· ++ crlf)

/-- The message as the grammar has it. -/
def wire (m : RtspMessage) : List Char := block (m.lines ++ [[]])

/-- The parts keep the delimiters of the grammar out. -/
structure WellFormed (m : RtspMessage) : Prop where
  method : IsLine m.method ∧ ' ' ∉ m.method
  uri : IsLine m.uri
  headers : ∀ header ∈ m.headers,
    IsLine header.1 ∧ ':' ∉ header.1 ∧ IsLine header.2

/-- The lines of each message; `message` are those of the one that has begun. -/
def split : List (List Char) → List (List Char) → Option (List (List (List Char)))
  | [], [] => some []
  | _ :: _, [] => none
  | message, [] :: ls => (split [] ls).map (message :: ·)
  | message, l :: ls => split (message ++ [l]) ls

/-- Method and URI of a request line. -/
def requestLine (line : List Char) : Option (List Char × List Char) :=
  let rest := (line.dropWhile (· ≠ ' ')).drop 1
  if rtspVersion <:+ rest then
    some (line.takeWhile (· ≠ ' '), rest.take (rest.length - rtspVersion.length))
  else none

/-- Name and value of a header line; a blank behind the colon is no part of the value. -/
def header (line : List Char) : Option (List Char × List Char) :=
  match line.dropWhile (· ≠ ':') with
  | ':' :: ' ' :: value => some (line.takeWhile (· ≠ ':'), value)
  | ':' :: value => some (line.takeWhile (· ≠ ':'), value)
  | _ => none

/-- The message in the lines. -/
def ofLines : List (List Char) → Option RtspMessage
  | [] => none
  | first :: others => do
    let (method, uri) ← requestLine first
    let headers ← others.mapM header
    return { method, uri, headers }

/-- The messages in a stream, which ends with the last one. -/
def parse (stream : List Char) : Option (List RtspMessage) :=
  if (crlfLines stream).getLast? = some [] then do
    let messages ← split [] (crlfLines stream).dropLast
    messages.mapM ofLines
  else none

/-- Lines that are not empty belong to the message that has begun. -/
theorem split_append {ls : List (List Char)} (h : ∀ line ∈ ls, line ≠ [])
    (message rest : List (List Char)) :
    split message (ls ++ rest) = split (message ++ ls) rest := by
  induction ls generalizing message with
  | nil => rw [List.nil_append, List.append_nil]
  | cons line ls ih =>
    rw [List.forall_mem_cons] at h
    obtain ⟨c, cs, rfl⟩ := List.exists_cons_of_ne_nil h.1
    rw [List.cons_append, split, ih h.2, List.append_assoc, List.singleton_append]
    exact List.cons_ne_nil c cs

theorem split_nil_cons (message rest : List (List Char)) :
    split message ([] :: rest) = (split [] rest).map (message :: ·) := by
  cases message <;> rfl

/-- Without an empty line no message ends. -/
theorem split_eq_none {ls : List (List Char)} (h : ∀ line ∈ ls, line ≠ []) (hne : ls ≠ []) :
    split [] ls = none := by
  obtain ⟨line, others, rfl⟩ := List.exists_cons_of_ne_nil hne
  have happend := split_append h [] []
  rwa [List.append_nil] at happend

/-- Each empty line ends a message. -/
theorem split_messages {messages : List (List (List Char))}
    (h : ∀ ls ∈ messages, ∀ line ∈ ls, line ≠ []) :
    split [] (messages.flatMap (· ++ [[]])) = some messages := by
  induction messages with
  | nil => rfl
  | cons ls messages ih =>
    rw [List.forall_mem_cons] at h
    rw [List.flatMap_cons, List.append_assoc, split_append h.1, List.nil_append,
      List.singleton_append, split_nil_cons, ih h.2, Option.map_some]

/-- A request line is read back. -/
theorem requestLine_eq {method uri : List Char} (h : ' ' ∉ method) :
    requestLine (method ++ ' ' :: (uri ++ rtspVersion)) = some (method, uri) := by
  have hkeep : ∀ c ∈ method, decide (c ≠ ' ') = true :=
    fun c hc => decide_eq_true fun heq => h (heq ▸ hc)
  have hrest : ((method ++ ' ' :: (uri ++ rtspVersion)).dropWhile (· ≠ ' ')).drop 1 =
      uri ++ rtspVersion := by
    rw [List.dropWhile_append_of_pos hkeep]
    rfl
  have hname : (method ++ ' ' :: (uri ++ rtspVersion)).takeWhile (· ≠ ' ') = method := by
    rw [List.takeWhile_append_of_pos hkeep, List.takeWhile_cons_of_neg (by decide), List.append_nil]
  rw [requestLine, hrest, hname, if_pos (List.suffix_append uri rtspVersion), List.length_append,
    Nat.add_sub_cancel, List.take_left]

/-- A header line is read back. -/
theorem header_headerLine {x : List Char × List Char} (h : ':' ∉ x.1) :
    header (headerLine x) = some x := by
  have hkeep : ∀ c ∈ x.1, decide (c ≠ ':') = true :=
    fun c hc => decide_eq_true fun heq => h (heq ▸ hc)
  have hline : headerLine x = x.1 ++ ':' :: ' ' :: x.2 := List.append_assoc ..
  have hname : (x.1 ++ ':' :: ' ' :: x.2).takeWhile (· ≠ ':') = x.1 := by
    rw [List.takeWhile_append_of_pos hkeep, List.takeWhile_cons_of_neg (by decide), List.append_nil]
  rw [header, hline, List.dropWhile_append_of_pos hkeep, List.dropWhile_cons_of_neg (by decide),
    hname]
  rfl

theorem mapM_map_eq_some {α β : Type} {f : α → β} {g : β → Option α} {xs : List α}
    (h : ∀ x ∈ xs, g (f x) = some x) : (xs.map f).mapM g = some xs := by
  induction xs with
  | nil => rfl
  | cons x xs ih =>
    rw [List.forall_mem_cons] at h
    rw [List.map_cons, List.mapM_cons, h.1, ih h.2]
    rfl

/-- The lines of a message are parsed as the message. -/
theorem ofLines_lines {m : RtspMessage} (h : m.WellFormed) : ofLines m.lines = some m := by
  have hheaders : (m.headers.map headerLine).mapM header = some m.headers :=
    mapM_map_eq_some fun x hx => header_headerLine (h.headers x hx).2.1
  rw [lines, ofLines, requestLine_eq h.method.2]
  simp only [Option.bind_eq_bind, Option.bind_some, hheaders]
  rfl

/-- No line of a message is empty. -/
theorem lines_ne_nil (m : RtspMessage) : ∀ line ∈ m.lines, line ≠ [] := by
  rw [lines, List.forall_mem_cons]
  refine ⟨List.append_ne_nil_of_right_ne_nil _ (List.cons_ne_nil _ _), fun line hline => ?_⟩
  obtain ⟨x, -, rfl⟩ := List.mem_map.mp hline
  rw [headerLine, List.append_assoc]
  exact List.append_ne_nil_of_right_ne_nil _ (List.cons_ne_nil _ _)

/-- The lines of a well-formed message have no breaks in them. -/
theorem WellFormed.isLine {m : RtspMessage} (h : m.WellFormed) : ∀ line ∈ m.lines, IsLine line := by
  rw [lines, List.forall_mem_cons]
  refine ⟨?_, fun line hline => ?_⟩
  · refine isLine_append.mpr ⟨h.method.1, List.forall_mem_cons.mpr ⟨by decide, ?_⟩⟩
    exact isLine_append.mpr ⟨h.uri, by decide⟩
  · obtain ⟨x, hx, rfl⟩ := List.mem_map.mp hline
    obtain ⟨hname, -, hvalue⟩ := h.headers x hx
    exact isLine_append.mpr ⟨isLine_append.mpr ⟨hname, by decide⟩, hvalue⟩

/-- Lines with their ends are found again. -/
theorem crlfLines_eq {ls : List (List Char)} (h : ∀ line ∈ ls, IsLine line) :
    crlfLines (block ls) = ls ++ [[]] := by
  have hblock := crlfLines_block h []
  rwa [List.append_nil] at hblock

/-- Parsing looks at the lines alone. -/
theorem parse_block {ls : List (List Char)} (h : ∀ line ∈ ls, IsLine line) :
    parse (block ls) = (split [] ls).bind fun messages => messages.mapM ofLines := by
  rw [parse, crlfLines_eq h, List.getLast?_concat, if_pos rfl, List.dropLast_concat]
  rfl

theorem flatMap_block {ms : List RtspMessage} {ls : RtspMessage → List (List Char)} :
    ms.flatMap (fun m => block (ls m)) = block (ms.flatMap ls) := by
  simp only [block, List.flatMap_assoc]

/-- A stream of messages is parsed as these messages. -/
theorem parse_wire {ms : List RtspMessage} (h : ∀ m ∈ ms, m.WellFormed) :
    parse (ms.flatMap wire) = some ms := by
  have hlines : ∀ line ∈ ms.flatMap fun m => m.lines ++ [[]], IsLine line := by
    intro line hline
    obtain ⟨m, hm, hline⟩ := List.mem_flatMap.mp hline
    rcases List.mem_append.mp hline with hline | hline
    · exact (h m hm).isLine line hline
    · rw [List.mem_singleton.mp hline]
      exact fun c hc => absurd hc List.not_mem_nil
  have hmessages : ∀ ls ∈ ms.map lines, ∀ line ∈ ls, line ≠ [] := by
    intro ls hls
    obtain ⟨m, -, rfl⟩ := List.mem_map.mp hls
    exact m.lines_ne_nil
  have hsplit : split [] (ms.flatMap fun m => m.lines ++ [[]]) = some (ms.map lines) := by
    rw [← split_messages hmessages, List.flatMap_map]
  rw [show ms.flatMap wire = _ from flatMap_block, parse_block hlines, hsplit, Option.bind_some]
  exact mapM_map_eq_some fun m hm => ofLines_lines (h m hm)

/-- Without their empty lines messages are not parsed at all. -/
theorem parse_block_eq_none {ms : List RtspMessage} (h : ∀ m ∈ ms, m.WellFormed) (hne : ms ≠ []) :
    parse (ms.flatMap fun m => block m.lines) = none := by
  have hlines : ∀ line ∈ ms.flatMap lines, IsLine line ∧ line ≠ [] := by
    intro line hline
    obtain ⟨m, hm, hline⟩ := List.mem_flatMap.mp hline
    exact ⟨(h m hm).isLine line hline, m.lines_ne_nil line hline⟩
  have hsome : ms.flatMap lines ≠ [] := by
    obtain ⟨m, others, rfl⟩ := List.exists_cons_of_ne_nil hne
    rw [List.flatMap_cons, lines]
    exact List.cons_ne_nil _ _
  rw [flatMap_block, parse_block fun line hline => (hlines line hline).1,
    split_eq_none (fun line hline => (hlines line hline).2) hsome, Option.bind_none]

end RtspMessage

end Jrtplib4Android
