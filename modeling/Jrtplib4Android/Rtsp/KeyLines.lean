import Jrtplib4Android.Rtsp.Segmentation

/-!
# Session and track of a response

`obtainKeyData` goes through all lines of a response, whatever part they stand in. The session
is in a header, and the track in the SDP behind the empty line. The lines are taken for what
they are exactly if the last one that contains a mark says the same as the place where the key
belongs.
-/

namespace Jrtplib4Android

/-- A complete `200 OK`: what follows in the status line, the header lines, and the body behind
the empty line. -/
structure Response where
  reason : List Char
  headers : List (List Char)
  body : List Char
  isLine_reason : Text.IsLine reason
  isLine_headers : ∀ header ∈ headers, Text.IsLine header ∧ header ≠ []

/-- The header line names a session; the case of a name does not matter. -/
def IsSessionHeader (line : List Char) : Prop :=
  ':' ∈ line ∧ (line.takeWhile (· ≠ ':')).map Char.toLower = "session".toList

/-- The identifier in a session header stands in front of the parameters. -/
def sessionIdentifier (line : List Char) : List Char :=
  Text.trim ((Text.afterFirst ':' line).takeWhile (· ≠ ';'))

def controlMark : List Char := "a=control:".toList

/-- The value of a control attribute. -/
def controlValue (line : List Char) : List Char := Text.trim (line.drop controlMark.length)

/-- The line of the SDP is a control attribute with a track. -/
def IsTrackAttribute (line : List Char) : Prop :=
  controlMark <+: line ∧ "trackID".toList <:+: line.drop controlMark.length

namespace Response

def statusLine (r : Response) : List Char := RTSPClient.rtspOk ++ r.reason

/-- The text that arrives. -/
def text (r : Response) : List Char :=
  r.statusLine ++ Text.crlf ++ (r.headers.flatMap (· ++ Text.crlf) ++ (Text.crlf ++ r.body))

/-- The lines of the SDP. -/
def sdp (r : Response) : List (List Char) := Text.lines r.body

/-- All lines in their order. -/
def lines (r : Response) : List (List Char) := r.statusLine :: r.headers ++ r.sdp

/-- Session and track change only to what their header and their attribute say, and no line of
the SDP changes the session. -/
structure KeysObtained (r : Response) : Prop where
  session : ∀ c : RTSPClient, (c.obtainKeyData r.text).sessionid ≠ c.sessionid →
    ∃ header ∈ r.headers, IsSessionHeader header ∧
      (c.obtainKeyData r.text).sessionid = some (sessionIdentifier header)
  track : ∀ c : RTSPClient, (c.obtainKeyData r.text).trackInfo ≠ c.trackInfo →
    ∃ line ∈ r.sdp, IsTrackAttribute line ∧
      (c.obtainKeyData r.text).trackInfo = some (controlValue line)
  sdp : ∀ line ∈ r.sdp, ∀ c : RTSPClient, (c.obtainLine line).sessionid = c.sessionid

end Response

/-- The last of the lines with a property. -/
def LastWith (p : List Char → Prop) (lines : List (List Char)) (line : List Char) : Prop :=
  ∃ before behind, lines = before ++ line :: behind ∧ p line ∧ ∀ x ∈ behind, ¬ p x

/-- The line is taken for a session. -/
def TakenForSession (line : List Char) : Prop :=
  RTSPClient.sessionMark <:+: line ∧ ¬ RTSPClient.trackMark <:+: line

/-- The line is taken for a track. -/
def TakenForTrack (line : List Char) : Prop := RTSPClient.trackMark <:+: line

/-- What is taken from a line. -/
def behindColon (line : List Char) : List Char := Text.trim (Text.afterFirst ':' line)

theorem sessionOf_eq_some_iff {line id : List Char} :
    sessionOf line = some id ↔ TakenForSession line ∧ id = behindColon line := by
  unfold sessionOf TakenForSession behindColon
  by_cases htrack : RTSPClient.trackMark <:+: line
  · rw [if_pos htrack]
    exact iff_of_false (fun h => by cases h) fun h => h.1.2 htrack
  · rw [if_neg htrack]
    by_cases hsession : RTSPClient.sessionMark <:+: line
    · rw [if_pos hsession, Option.some_inj]
      exact ⟨fun h => ⟨⟨hsession, htrack⟩, h.symm⟩, fun h => h.2.symm⟩
    · rw [if_neg hsession]
      exact iff_of_false (fun h => by cases h) fun h => hsession h.1.1

theorem trackOf_eq_some_iff {line track : List Char} :
    trackOf line = some track ↔ TakenForTrack line ∧ track = behindColon line := by
  unfold trackOf TakenForTrack behindColon
  by_cases htrack : RTSPClient.trackMark <:+: line
  · rw [if_pos htrack, Option.some_inj]
    exact ⟨fun h => ⟨htrack, h.symm⟩, fun h => h.2.symm⟩
  · rw [if_neg htrack]
    exact iff_of_false (fun h => by cases h) fun h => htrack h.1

/-- The key that a list of lines sets is that of the last line that is taken for it. -/
theorem findSome?_reverse_eq_some_iff {f : List Char → Option (List Char)}
    {p : List Char → Prop} (hf : ∀ {line x}, f line = some x ↔ p line ∧ x = behindColon line)
    {lines : List (List Char)} {x : List Char} :
    lines.reverse.findSome? f = some x ↔
      ∃ line, LastWith p lines line ∧ x = behindColon line := by
  have hnone : ∀ line, f line = none ↔ ¬ p line := by
    intro line
    rw [Option.eq_none_iff_forall_ne_some]
    exact ⟨fun h hp => h _ (hf.mpr ⟨hp, rfl⟩), fun h x hx => h (hf.mp hx).1⟩
  rw [List.findSome?_eq_some_iff]
  constructor
  · rintro ⟨behind, line, before, hlines, hline, hbehind⟩
    obtain ⟨hp, hx⟩ := hf.mp hline
    refine ⟨line, ⟨before.reverse, behind.reverse, ?_, hp, fun y hy => ?_⟩, hx⟩
    · rw [← List.reverse_reverse lines, hlines]
      simp
    · exact (hnone y).mp (hbehind y (List.mem_reverse.mp hy))
  · rintro ⟨line, ⟨before, behind, hlines, hp, hbehind⟩, hx⟩
    refine ⟨behind.reverse, line, before.reverse, ?_, hf.mpr ⟨hp, hx⟩, fun y hy => ?_⟩
    · rw [hlines]
      simp
    · exact (hnone y).mpr (hbehind y (List.mem_reverse.mp hy))

section Lines

variable {f : List Char → Option (List Char)}

/-- Empty lines set no key. -/
theorem findSome?_lines_crlf (hf : f [] = none) {line : List Char} (h : Text.IsLine line)
    (rest : List Char) : (Text.lines (line ++ Text.crlf ++ rest)).reverse.findSome? f =
      (line :: Text.lines rest).reverse.findSome? f := by
  rw [Text.lines_crlf h]
  simp only [List.reverse_cons, List.findSome?_append, List.findSome?_singleton, hf, Option.or_none]

theorem findSome?_lines_block (hf : f [] = none) {ls : List (List Char)}
    (h : ∀ line ∈ ls, Text.IsLine line) (rest : List Char) :
    (Text.lines (ls.flatMap (· ++ Text.crlf) ++ rest)).reverse.findSome? f =
      (ls ++ Text.lines rest).reverse.findSome? f := by
  induction ls with
  | nil => rfl
  | cons line ls ih =>
    rw [List.forall_mem_cons] at h
    rw [List.flatMap_cons, List.append_assoc, findSome?_lines_crlf hf h.1, List.reverse_cons,
      List.findSome?_append, ih h.2, ← List.findSome?_append, ← List.reverse_cons,
      List.cons_append]

end Lines

namespace Response

theorem isLine_statusLine (r : Response) : Text.IsLine r.statusLine :=
  Text.isLine_append.mpr ⟨by decide, r.isLine_reason⟩

/-- Only the lines of the parts count. -/
theorem findSome?_text {f : List Char → Option (List Char)} (hf : f [] = none) (r : Response) :
    (Text.lines r.text).reverse.findSome? f = r.lines.reverse.findSome? f := by
  have hempty : Text.IsLine [] := fun c hc => absurd hc List.not_mem_nil
  rw [text, findSome?_lines_crlf hf r.isLine_statusLine, List.reverse_cons, List.findSome?_append,
    findSome?_lines_block hf fun line h => (r.isLine_headers line h).1, List.reverse_append,
    List.findSome?_append, ← List.nil_append Text.crlf, findSome?_lines_crlf hf hempty]
  simp only [lines, sdp, List.cons_append, List.reverse_cons, List.reverse_append,
    List.findSome?_append, List.findSome?_singleton, hf, Option.or_none]

/-- The keys that the response sets. -/
theorem keyData_text (r : Response) : keyData r.text = keysOf r.lines := by
  rw [keyData, keysOf, keysOf, r.findSome?_text (by decide), r.findSome?_text (by decide)]

/-- What the client has afterwards. -/
theorem obtainKeyData_text (r : Response) (c : RTSPClient) :
    c.obtainKeyData r.text = c.adopt (keysOf r.lines) := by
  rw [c.obtainKeyData_eq, r.keyData_text]

/-- Where a mark is, the key that it stands for is in its place as well. -/
structure KeysInPlace (r : Response) : Prop where
  sdp : ∀ line ∈ r.sdp, ¬ TakenForSession line
  session : ∀ line, LastWith TakenForSession r.lines line →
    ∃ header ∈ r.headers, IsSessionHeader header ∧ sessionIdentifier header = behindColon line
  track : ∀ line, LastWith TakenForTrack r.lines line →
    ∃ control ∈ r.sdp, IsTrackAttribute control ∧ controlValue control = behindColon line

end Response

/-- A key changes only to what one of the candidates says, exactly if the last line that is taken
for it says the same. -/
theorem changes_iff {f : List Char → Option (List Char)} {p : List Char → Prop}
    (hf : ∀ {line x}, f line = some x ↔ p line ∧ x = behindColon line)
    (q : List Char → Prop) (value : List Char → List Char) (lines candidates : List (List Char)) :
    (∀ key : Option (List Char), (lines.reverse.findSome? f).or key ≠ key →
        ∃ line ∈ candidates, q line ∧ (lines.reverse.findSome? f).or key = some (value line)) ↔
      ∀ line, LastWith p lines line →
        ∃ candidate ∈ candidates, q candidate ∧ value candidate = behindColon line := by
  constructor
  · intro h line hlast
    have hset := (findSome?_reverse_eq_some_iff hf).mpr ⟨line, hlast, rfl⟩
    obtain ⟨candidate, hmem, hq, heq⟩ := h none (by rw [hset]; exact Option.some_ne_none _)
    rw [hset, Option.some_or, Option.some_inj] at heq
    exact ⟨candidate, hmem, hq, heq.symm⟩
  · intro h key hchange
    cases hset : lines.reverse.findSome? f with
    | none =>
      rw [hset] at hchange
      exact absurd rfl hchange
    | some x =>
      obtain ⟨line, hlast, hx⟩ := (findSome?_reverse_eq_some_iff hf).mp hset
      obtain ⟨candidate, hmem, hq, heq⟩ := h line hlast
      exact ⟨candidate, hmem, hq, by rw [heq, hx, Option.some_or]⟩

namespace Response

/-- A line changes no session exactly if it is not taken for one. -/
theorem sessionid_obtainLine_iff (line : List Char) :
    (∀ c : RTSPClient, (c.obtainLine line).sessionid = c.sessionid) ↔ ¬ TakenForSession line := by
  have hline : ∀ c : RTSPClient, (c.obtainLine line).sessionid = (sessionOf line).or c.sessionid :=
    fun c => by rw [c.obtainLine_eq]; rfl
  constructor
  · intro h htaken
    have hset := sessionOf_eq_some_iff.mpr ⟨htaken, rfl⟩
    have hkept := h (RTSPClient.start [])
    rw [hline, hset] at hkept
    cases hkept
  · intro h c
    rw [hline]
    cases hset : sessionOf line with
    | none => rfl
    | some id => exact absurd (sessionOf_eq_some_iff.mp hset).1 h

/-- In every complete response the keys are obtained from their places exactly if they are in
their places where the marks are. -/
theorem keysObtained_iff (r : Response) : r.KeysObtained ↔ r.KeysInPlace := by
  have hsession := changes_iff sessionOf_eq_some_iff IsSessionHeader sessionIdentifier r.lines
    r.headers
  have htrack := changes_iff trackOf_eq_some_iff IsTrackAttribute controlValue r.lines r.sdp
  constructor
  · rintro ⟨hs, ht, hsdp⟩
    refine ⟨fun line h => (sessionid_obtainLine_iff line).mp (hsdp line h),
      hsession.mp fun key => ?_, htrack.mp fun key => ?_⟩
    · have h := hs { RTSPClient.start [] with sessionid := key }
      rw [r.obtainKeyData_text] at h
      exact h
    · have h := ht { RTSPClient.start [] with trackInfo := key }
      rw [r.obtainKeyData_text] at h
      exact h
  · rintro ⟨hsdp, hs, ht⟩
    refine ⟨fun c => ?_, fun c => ?_,
      fun line h => (sessionid_obtainLine_iff line).mpr (hsdp line h)⟩
    · rw [r.obtainKeyData_text]
      exact hsession.mpr hs c.sessionid
    · rw [r.obtainKeyData_text]
      exact htrack.mpr ht c.trackInfo

/-- A session header without parameters says what is taken from it. -/
theorem sessionIdentifier_eq_behindColon {line : List Char} (h : ';' ∉ line) :
    sessionIdentifier line = behindColon line := by
  have hvalue : ∀ c ∈ Text.afterFirst ':' line, decide (c ≠ ';') = true := by
    intro c hc
    refine decide_eq_true fun heq => h (heq ▸ ?_)
    exact (Text.afterFirst_suffix ':' line).subset hc
  rw [sessionIdentifier, behindColon, List.takeWhile_eq_self_iff.mpr hvalue]

/-- A line that begins with the mark of a track is a control attribute, and says what is taken
from it. -/
theorem isTrackAttribute_of_trackMark {line : List Char} (h : RTSPClient.trackMark <+: line) :
    IsTrackAttribute line ∧ controlValue line = behindColon line := by
  obtain ⟨rest, rfl⟩ := h
  refine ⟨⟨⟨"trackID".toList ++ rest, ?_⟩, ⟨[], rest, ?_⟩⟩, ?_⟩
  · rfl
  · rfl
  · rfl

/-- In a response whose lines with a mark are what the marks stand for, the keys are in their
places. -/
theorem keysInPlace_of_plain {r : Response} (hsdp : ∀ line ∈ r.sdp, ¬ TakenForSession line)
    (hsession : ∀ line ∈ r.lines, TakenForSession line →
      line ∈ r.headers ∧ IsSessionHeader line ∧ ';' ∉ line)
    (htrack : ∀ line ∈ r.lines, TakenForTrack line →
      line ∈ r.sdp ∧ RTSPClient.trackMark <+: line) : r.KeysInPlace := by
  have hmem : ∀ {p line}, LastWith p r.lines line → line ∈ r.lines ∧ p line := by
    rintro p line ⟨before, behind, hlines, hp, -⟩
    refine ⟨?_, hp⟩
    rw [hlines]
    exact List.mem_append_right _ List.mem_cons_self
  refine ⟨hsdp, fun line h => ?_, fun line h => ?_⟩
  · obtain ⟨hline, htaken⟩ := hmem h
    obtain ⟨hheader, hnames, hplain⟩ := hsession line hline htaken
    exact ⟨line, hheader, hnames, sessionIdentifier_eq_behindColon hplain⟩
  · obtain ⟨hline, htaken⟩ := hmem h
    obtain ⟨hbody, hmark⟩ := htrack line hline htaken
    obtain ⟨hattribute, hvalue⟩ := isTrackAttribute_of_trackMark hmark
    exact ⟨line, hbody, hattribute, hvalue⟩

/-- A response to DESCRIBE whose SDP names the presentation. -/
def named : Response where
  reason := []
  headers := ["CSeq: 2".toList, "Content-Type: application/sdp".toList]
  body := "v=0\r\ns=Session streamed by a camera\r\na=control:trackID=0\r\n".toList
  isLine_reason := by decide
  isLine_headers := by decide

/-- The name of the presentation is taken for the session. -/
theorem not_keysObtained_named :
    (RTSPClient.start []).sessionid = none ∧
      ((RTSPClient.start []).obtainKeyData named.text).sessionid =
        some "s=Session streamed by a camera".toList ∧
      ¬ named.KeysObtained := by
  have hset : ((RTSPClient.start []).obtainKeyData named.text).sessionid =
      some "s=Session streamed by a camera".toList := by decide +kernel
  have hplain : ∀ header ∈ named.headers, ':' ∈ header →
      (header.takeWhile (· ≠ ':')).map Char.toLower ≠ "session".toList := by decide +kernel
  refine ⟨rfl, hset, fun h => ?_⟩
  obtain ⟨header, hmem, ⟨hcolon, hname⟩, -⟩ :=
    h.session (RTSPClient.start []) (by rw [hset]; decide)
  exact hplain header hmem hcolon hname

end Response

end Jrtplib4Android
