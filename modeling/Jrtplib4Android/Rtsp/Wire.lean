import Jrtplib4Android.Rtsp.Grammar
import Jrtplib4Android.Rtsp.IpCamera

/-!
# Requests on the wire

The text of a request is made of the lines of a message, each with its end. The empty line that
the grammar asks for is not in it, so what a client writes is never a stream of messages once
there is a request in it.
-/

namespace Jrtplib4Android

open CSem Text

namespace Request

def agentHeader : List Char × List Char := ("User-Agent".toList, "Wtoe Android /1.0.0".toList)

/-- The one of TEARDOWN has a blank more. -/
def blankAgentHeader : List Char × List Char :=
  ("User-Agent".toList, "Wtoe Android /1.0.0 ".toList)

def cseqHeader (seq : Int) : List Char × List Char := ("CSeq".toList, (toString seq).toList)

def sessionHeader (sessionid : Option (List Char)) : List Char × List Char :=
  ("Session".toList, shown sessionid)

def transportHeader (clientPort : Int × Int) : List Char × List Char :=
  ("Transport".toList, "RTP/AVP;UNICAST;client_port=".toList ++ (toString clientPort.1).toList ++
    "-".toList ++ (toString clientPort.2).toList ++ ";mode=play".toList)

/-- The message that a request stands for. -/
def message : Request → RtspMessage
  | options base seq => ⟨"OPTIONS".toList, base, [cseqHeader seq, agentHeader]⟩
  | describe address seq => ⟨"DESCRIBE".toList, address, [cseqHeader seq, agentHeader]⟩
  | setup address trackInfo seq clientPort =>
    ⟨"SETUP".toList, address ++ "/".toList ++ shown trackInfo,
      [cseqHeader seq, transportHeader clientPort, agentHeader]⟩
  | play address sessionid seq =>
    ⟨"PLAY".toList, address, [sessionHeader sessionid, cseqHeader seq, agentHeader]⟩
  | pause address sessionid seq =>
    ⟨"PAUSE".toList, address ++ "/".toList,
      [cseqHeader seq, sessionHeader sessionid, agentHeader]⟩
  | teardown address sessionid seq =>
    ⟨"TEARDOWN".toList, address ++ "/".toList,
      [cseqHeader seq, blankAgentHeader, sessionHeader sessionid]⟩

/-- The number of a request. -/
def seq : Request → Int
  | options _ seq | describe _ seq | setup _ _ seq _ | play _ _ seq | pause _ _ seq
  | teardown _ _ seq => seq

/-- No part of the request ends a line. -/
def Plain : Request → Prop
  | options base _ => IsLine base
  | describe address _ => IsLine address
  | setup address trackInfo _ _ => IsLine address ∧ ∀ track ∈ trackInfo, IsLine track
  | play address sessionid _ | pause address sessionid _ | teardown address sessionid _ =>
    IsLine address ∧ ∀ id ∈ sessionid, IsLine id

/-- The version of a request ends its first line. -/
theorem version_eq : version = RtspMessage.rtspVersion ++ crlf := by decide

/-- The user agent line is a header. -/
theorem userAgent_eq : userAgent = RtspMessage.headerLine agentHeader ++ crlf := by decide

/-- So is the line with the sequence number. -/
theorem cseq_eq (seq : Int) : cseq seq = RtspMessage.headerLine (cseqHeader seq) ++ crlf := rfl

/-- So is the line with the session. -/
theorem session_eq (sessionid : Option (List Char)) :
    session sessionid = RtspMessage.headerLine (sessionHeader sessionid) ++ crlf := rfl

/-- So is the line with the transport. -/
theorem transport_eq (clientPort : Int × Int) :
    "Transport: RTP/AVP;UNICAST;client_port=".toList ++ (toString clientPort.1).toList ++
        "-".toList ++ (toString clientPort.2).toList ++ ";mode=play\r\n".toList =
      RtspMessage.headerLine (transportHeader clientPort) ++ crlf := by
  have hname : "Transport: RTP/AVP;UNICAST;client_port=".toList =
      "Transport".toList ++ (": ".toList ++ "RTP/AVP;UNICAST;client_port=".toList) := by decide
  have hmode : ";mode=play\r\n".toList = ";mode=play".toList ++ crlf := by decide
  rw [hname, hmode]
  change _ = "Transport".toList ++ ": ".toList ++
    ("RTP/AVP;UNICAST;client_port=".toList ++ (toString clientPort.1).toList ++ "-".toList ++
      (toString clientPort.2).toList ++ ";mode=play".toList) ++ crlf
  simp only [List.append_assoc]

/-- A request line and the header lines, with their ends. -/
theorem block_mk (method uri : List Char) (headers : List (List Char × List Char)) :
    RtspMessage.block (RtspMessage.lines ⟨method, uri, headers⟩) =
      method ++ ([' '] ++ (uri ++ (version ++
        headers.flatMap fun header => RtspMessage.headerLine header ++ crlf))) := by
  rw [RtspMessage.lines, RtspMessage.block, List.flatMap_cons, List.flatMap_map, version_eq]
  simp only [List.append_assoc, List.cons_append, List.nil_append]

/-- The text is the lines of the message, without the empty one. -/
theorem text_eq (r : Request) : r.text = RtspMessage.block r.message.lines := by
  cases r with
  | options base seq =>
    have hmethod : "OPTIONS ".toList = "OPTIONS".toList ++ [' '] := by decide
    refine Eq.trans ?_ (block_mk "OPTIONS".toList base [cseqHeader seq, agentHeader]).symm
    change "OPTIONS ".toList ++ base ++ version ++ cseq seq ++ userAgent = _
    simp only [hmethod, cseq_eq, userAgent_eq, List.flatMap_cons, List.flatMap_nil,
      List.append_assoc, List.append_nil]
  | describe address seq =>
    have hmethod : "DESCRIBE ".toList = "DESCRIBE".toList ++ [' '] := by decide
    refine Eq.trans ?_ (block_mk "DESCRIBE".toList address [cseqHeader seq, agentHeader]).symm
    change "DESCRIBE ".toList ++ address ++ version ++ cseq seq ++ userAgent = _
    simp only [hmethod, cseq_eq, userAgent_eq, List.flatMap_cons, List.flatMap_nil,
      List.append_assoc, List.append_nil]
  | setup address trackInfo seq clientPort =>
    have hmethod : "SETUP ".toList = "SETUP".toList ++ [' '] := by decide
    refine Eq.trans ?_ (block_mk "SETUP".toList (address ++ "/".toList ++ shown trackInfo)
      [cseqHeader seq, transportHeader clientPort, agentHeader]).symm
    rw [List.flatMap_cons, List.flatMap_cons, ← transport_eq]
    change "SETUP ".toList ++ address ++ "/".toList ++ shown trackInfo ++ version ++ cseq seq ++
      "Transport: RTP/AVP;UNICAST;client_port=".toList ++ (toString clientPort.1).toList ++
      "-".toList ++ (toString clientPort.2).toList ++ ";mode=play\r\n".toList ++ userAgent = _
    simp only [hmethod, cseq_eq, userAgent_eq, List.flatMap_cons, List.flatMap_nil,
      List.append_assoc, List.append_nil]
  | play address sessionid seq =>
    have hmethod : "PLAY ".toList = "PLAY".toList ++ [' '] := by decide
    refine Eq.trans ?_ (block_mk "PLAY".toList address
      [sessionHeader sessionid, cseqHeader seq, agentHeader]).symm
    change "PLAY ".toList ++ address ++ version ++ session sessionid ++ cseq seq ++ userAgent = _
    simp only [hmethod, cseq_eq, session_eq, userAgent_eq, List.flatMap_cons, List.flatMap_nil,
      List.append_assoc, List.append_nil]
  | pause address sessionid seq =>
    have hmethod : "PAUSE ".toList = "PAUSE".toList ++ [' '] := by decide
    refine Eq.trans ?_ (block_mk "PAUSE".toList (address ++ "/".toList)
      [cseqHeader seq, sessionHeader sessionid, agentHeader]).symm
    change "PAUSE ".toList ++ address ++ "/".toList ++ version ++ cseq seq ++ session sessionid ++
      userAgent = _
    simp only [hmethod, cseq_eq, session_eq, userAgent_eq, List.flatMap_cons, List.flatMap_nil,
      List.append_assoc, List.append_nil]
  | teardown address sessionid seq =>
    have hmethod : "TEARDOWN ".toList = "TEARDOWN".toList ++ [' '] := by decide
    have hagent : "User-Agent: Wtoe Android /1.0.0 \r\n".toList =
        RtspMessage.headerLine blankAgentHeader ++ crlf := by decide
    refine Eq.trans ?_ (block_mk "TEARDOWN".toList (address ++ "/".toList)
      [cseqHeader seq, blankAgentHeader, sessionHeader sessionid]).symm
    change "TEARDOWN ".toList ++ address ++ "/".toList ++ version ++ cseq seq ++
      "User-Agent: Wtoe Android /1.0.0 \r\n".toList ++ session sessionid = _
    simp only [hmethod, hagent, cseq_eq, session_eq, List.flatMap_cons, List.flatMap_nil,
      List.append_assoc, List.append_nil]

/-- A number has digits and a sign alone. -/
theorem isLine_toString (n : Int) : IsLine (toString n).toList := by
  have hdigits : ∀ k : Nat, IsLine k.repr.toList := by
    intro k c hc hend
    rw [Nat.toList_repr] at hc
    have hdigit := Nat.isDigit_of_mem_toDigits (by decide) (by decide) hc
    rcases hend with rfl | rfl
    · cases hdigit
    · cases hdigit
  rw [Int.toString_eq_repr, Int.repr_eq_if]
  split
  · exact hdigits _
  · rw [String.toList_append]
    exact isLine_append.mpr ⟨by decide, hdigits _⟩

/-- A value that is shown has no line break if the value has none. -/
theorem isLine_shown {s : Option (List Char)} (h : ∀ x ∈ s, IsLine x) : IsLine (shown s) := by
  cases s with
  | none => decide
  | some x => exact h x rfl

/-- Nor has the transport. -/
theorem isLine_transport (clientPort : Int × Int) : IsLine (transportHeader clientPort).2 := by
  have hmode : IsLine ";mode=play".toList := by decide
  have hname : IsLine "RTP/AVP;UNICAST;client_port=".toList := by decide
  have hdash : IsLine "-".toList := by decide
  exact isLine_append.mpr ⟨isLine_append.mpr ⟨isLine_append.mpr ⟨isLine_append.mpr
    ⟨hname, isLine_toString _⟩, hdash⟩, isLine_toString _⟩, hmode⟩

/-- What the grammar asks of a header. -/
def PlainHeader (header : List Char × List Char) : Prop :=
  IsLine header.1 ∧ ':' ∉ header.1 ∧ IsLine header.2

theorem plain_agent : PlainHeader agentHeader := by unfold PlainHeader; decide

theorem plain_blankAgent : PlainHeader blankAgentHeader := by unfold PlainHeader; decide

theorem plain_cseq (seq : Int) : PlainHeader (cseqHeader seq) := by
  have hname : IsLine "CSeq".toList ∧ ':' ∉ "CSeq".toList := by decide
  exact ⟨hname.1, hname.2, isLine_toString seq⟩

/-- The session header is plain if the identifier has no line break. -/
theorem plain_session {sessionid : Option (List Char)} (h : ∀ id ∈ sessionid, IsLine id) :
    PlainHeader (sessionHeader sessionid) := by
  have hname : IsLine "Session".toList ∧ ':' ∉ "Session".toList := by decide
  exact ⟨hname.1, hname.2, isLine_shown h⟩

theorem plain_transport (clientPort : Int × Int) : PlainHeader (transportHeader clientPort) := by
  have hname : IsLine "Transport".toList ∧ ':' ∉ "Transport".toList := by decide
  exact ⟨hname.1, hname.2, isLine_transport clientPort⟩

/-- Three plain headers. -/
theorem plain_three {a b c : List Char × List Char} (ha : PlainHeader a) (hb : PlainHeader b)
    (hc : PlainHeader c) : ∀ header ∈ [a, b, c], PlainHeader header := by
  rw [List.forall_mem_cons, List.forall_mem_cons, List.forall_mem_singleton]
  exact ⟨ha, hb, hc⟩

/-- Of a plain request a well-formed message is made. -/
theorem Plain.wellFormed {r : Request} (h : r.Plain) : r.message.WellFormed := by
  have hslash : IsLine "/".toList := by decide
  have htwo : ∀ seq, ∀ header ∈ [cseqHeader seq, agentHeader], PlainHeader header := by
    intro seq
    rw [List.forall_mem_cons, List.forall_mem_singleton]
    exact ⟨plain_cseq seq, plain_agent⟩
  cases r with
  | options base seq =>
    have hmethod : IsLine "OPTIONS".toList ∧ ' ' ∉ "OPTIONS".toList := by decide
    exact ⟨hmethod, h, htwo seq⟩
  | describe address seq =>
    have hmethod : IsLine "DESCRIBE".toList ∧ ' ' ∉ "DESCRIBE".toList := by decide
    exact ⟨hmethod, h, htwo seq⟩
  | setup address trackInfo seq clientPort =>
    have hmethod : IsLine "SETUP".toList ∧ ' ' ∉ "SETUP".toList := by decide
    exact ⟨hmethod, isLine_append.mpr ⟨isLine_append.mpr ⟨h.1, hslash⟩, isLine_shown h.2⟩,
      plain_three (plain_cseq seq) (plain_transport clientPort) plain_agent⟩
  | play address sessionid seq =>
    have hmethod : IsLine "PLAY".toList ∧ ' ' ∉ "PLAY".toList := by decide
    exact ⟨hmethod, h.1, plain_three (plain_session h.2) (plain_cseq seq) plain_agent⟩
  | pause address sessionid seq =>
    have hmethod : IsLine "PAUSE".toList ∧ ' ' ∉ "PAUSE".toList := by decide
    exact ⟨hmethod, isLine_append.mpr ⟨h.1, hslash⟩,
      plain_three (plain_cseq seq) (plain_session h.2) plain_agent⟩
  | teardown address sessionid seq =>
    have hmethod : IsLine "TEARDOWN".toList ∧ ' ' ∉ "TEARDOWN".toList := by decide
    exact ⟨hmethod, isLine_append.mpr ⟨h.1, hslash⟩,
      plain_three (plain_cseq seq) plain_blankAgent (plain_session h.2)⟩

/-- Plain requests are well-formed messages. -/
theorem wellFormed_messages {rs : List Request} (h : ∀ r ∈ rs, r.Plain) :
    ∀ m ∈ rs.map message, m.WellFormed := by
  intro m hm
  obtain ⟨r, hr, rfl⟩ := List.mem_map.mp hm
  exact (h r hr).wellFormed

/-- Requests with an empty line behind each are parsed as their messages. -/
theorem parse_ended {rs : List Request} (h : ∀ r ∈ rs, r.Plain) :
    RtspMessage.parse (rs.flatMap fun r => r.text ++ crlf) = some (rs.map message) := by
  have hwire : ∀ r : Request, r.text ++ crlf = r.message.wire := by
    intro r
    rw [text_eq, RtspMessage.wire, RtspMessage.block, RtspMessage.block, List.flatMap_append,
      List.flatMap_singleton, List.nil_append]
  simp only [hwire]
  rw [← RtspMessage.parse_wire (wellFormed_messages h), List.flatMap_map]

/-- The texts alone are not parsed, unless there are none. -/
theorem parse_texts {rs : List Request} (h : ∀ r ∈ rs, r.Plain) (hne : rs ≠ []) :
    RtspMessage.parse (rs.flatMap text) = none := by
  have hnone := RtspMessage.parse_block_eq_none (wellFormed_messages h)
    (mt List.map_eq_nil_iff.mp hne)
  rw [List.flatMap_map] at hnone
  simpa only [← text_eq] using hnone

/-- Parsed, the texts of the requests give their messages back, and the numbers increase. -/
structure SelfDelimiting (rs : List Request) : Prop where
  parsed : RtspMessage.parse (rs.flatMap text) = some (rs.map message)
  increasing : (rs.map seq).Pairwise (· < ·)

/-- Plain requests delimit themselves only if there are none: each lacks its empty line. -/
theorem selfDelimiting_iff {rs : List Request} (h : ∀ r ∈ rs, r.Plain) :
    SelfDelimiting rs ↔ rs = [] := by
  constructor
  · rintro ⟨hparsed, -⟩
    by_contra hne
    rw [parse_texts h hne] at hparsed
    cases hparsed
  · rintro rfl
    exact ⟨rfl, List.Pairwise.nil⟩

end Request

namespace RTSPClient

/-- The parts of the client that come into requests do not end a line. -/
structure Plain (c : RTSPClient) : Prop where
  address : IsLine c.address
  sessionid : ∀ id ∈ c.sessionid, IsLine id
  trackInfo : ∀ track ∈ c.trackInfo, IsLine track
  written : ∀ r ∈ c.written, r.Plain

/-- What a plain client sends is plain. -/
theorem Plain.requestOf {c : RTSPClient} (h : c.Plain) (m : Method) :
    ∀ r ∈ c.requestOf m, r.Plain := by
  intro r hr
  cases m with
  | doOption =>
    obtain ⟨base, hbase, rfl⟩ := Option.map_eq_some_iff.mp hr
    exact h.address.of_subset (Text.beforeLast_subset hbase)
  | doDescribe =>
    cases hr
    exact h.address
  | doSetup localPort =>
    cases hr
    exact ⟨h.address, h.trackInfo⟩
  | doPlay | doPause | doTeardown =>
    cases hr
    exact ⟨h.address, h.sessionid⟩

/-- Sending a request keeps the client plain. -/
theorem Plain.run {c : RTSPClient} (h : c.Plain) (m : Method) : (c.run m).1.Plain := by
  rcases c.run_cases m with ⟨-, hrun⟩ | ⟨-, -, seq, -, hrun⟩ | ⟨-, r, hr, -, hrun⟩
  · rw [hrun]
    exact h
  · rw [hrun]
    exact ⟨h.address, h.sessionid, h.trackInfo, h.written⟩
  · rw [hrun]
    refine ⟨h.address, h.sessionid, h.trackInfo, fun x hx => ?_⟩
    rcases List.mem_append.mp hx with hx | hx
    · exact h.written x hx
    · exact List.mem_singleton.mp hx ▸ h.requestOf m r hr

/-- What is taken from a line is one. -/
theorem isLine_trim_afterFirst {line : List Char} (h : IsLine line) :
    IsLine (Text.trim (Text.afterFirst ':' line)) :=
  (h.of_subset (Text.afterFirst_suffix ':' line).subset).of_subset (Text.trim_subset _)

/-- So does a line of a response. -/
theorem Plain.obtainLine {c : RTSPClient} (h : c.Plain) {line : List Char} (hline : IsLine line) :
    (c.obtainLine line).Plain := by
  have htaken := isLine_trim_afterFirst hline
  unfold RTSPClient.obtainLine
  split
  · exact h
  split
  · exact ⟨h.address, h.sessionid, fun track ht => Option.some_inj.mp ht ▸ htaken, h.written⟩
  split
  · exact ⟨h.address, fun id hid => Option.some_inj.mp hid ▸ htaken, h.trackInfo, h.written⟩
  · exact h

/-- So does a response, which is taken line by line. -/
theorem Plain.obtainKeyData {c : RTSPClient} (h : c.Plain) (tmp : List Char) :
    (c.obtainKeyData tmp).Plain := by
  have hlines : ∀ line ∈ Text.lines tmp, IsLine line := fun line => Text.isLine_of_mem_lines
  rw [RTSPClient.obtainKeyData]
  generalize Text.lines tmp = ls at hlines ⊢
  induction ls generalizing c with
  | nil => exact h
  | cons line lines ih =>
    rw [List.forall_mem_cons] at hlines
    exact ih (h.obtainLine hlines.1) hlines.2

/-- So does the answer to a request. -/
theorem Plain.clientAnswered {c : RTSPClient} (h : c.Plain) (tmp : List Char) :
    (RtspSession.clientAnswered c fun c => c.obtainKeyData tmp).Plain := by
  have hdown : { c with isSended := false }.Plain :=
    ⟨h.address, h.sessionid, h.trackInfo, h.written⟩
  have hnone : ∀ x ∈ (none : Option (List Char)), IsLine x := fun x hx => by cases hx
  unfold RtspSession.clientAnswered
  simp only
  split
  · exact ⟨h.address, hnone, hnone, h.written⟩
  · exact hdown.obtainKeyData tmp
  · exact hdown.obtainKeyData tmp
  · exact ⟨h.address, h.sessionid, h.trackInfo, h.written⟩
  all_goals exact hdown

/-- What happens to a client: a call, of whomever, or a read. -/
inductive Event where
  | call (c : RtspCall)
  | read (data : Option (List UInt8))

/-- A listener that calls nothing; what another calls is an event of its own. -/
def quiet : Listener Unit := fun _ _ => ((), [])

def step (decode : List UInt8 → List Char) (s : RtspSession Unit) : Event → RtspSession Unit
  | .call c => (s.call quiet c).1
  | .read data => s.read decode quiet data

/-- The connected client. -/
def begin (address : List Char) : RtspSession Unit := ⟨.start address, (), [], false⟩

/-- The event is the call of a method that gets past its guards with a text that fits. -/
def Sends (c : RTSPClient) : Event → Prop
  | .call (.method m) => c.Allows m ∧ ∃ r ∈ c.requestOf m, r.size ≤ bufferSize
  | _ => False

section Quiet

variable {decode : List UInt8 → List Char} {s : RtspSession Unit}

/-- Without a listener, an answer changes the client alone. -/
theorem answered_quiet (obtain' : RTSPClient → RTSPClient) :
    (s.answered quiet obtain').1.client = RtspSession.clientAnswered s.client obtain' ∧
      (s.answered quiet obtain').2 = false := by
  rcases RtspSession.answered_eq quiet s obtain' with ⟨-, h⟩ | ⟨-, h⟩
  · rw [h]
    exact ⟨rfl, rfl⟩
  · rw [h]
    exact ⟨rfl, rfl⟩

/-- A read changes the client as a response does, or counts. -/
theorem client_read (s : RtspSession Unit) (data : Option (List UInt8)) :
    (s.read decode quiet data).client = s.client ∨
      (s.read decode quiet data).client = (s.client.recieve data).1 ∨
        ∃ tmp, (s.read decode quiet data).client =
          RtspSession.clientAnswered (s.client.recieve data).1 fun c => c.obtainKeyData tmp := by
  rcases s.read_cases decode quiet data rfl with
    ⟨-, hread⟩ | ⟨-, ⟨-, hread⟩ | ⟨msg, -, ⟨-, hread⟩ | ⟨-, hread⟩⟩⟩
  · exact Or.inl (by rw [hread])
  · exact Or.inr (Or.inl (by rw [hread]; rfl))
  · exact Or.inr (Or.inl (by rw [hread]))
  · refine Or.inr (Or.inr ⟨decode msg, ?_⟩)
    rw [hread]
    exact (answered_quiet _).1

/-- An answer writes nothing. -/
theorem written_clientAnswered (c : RTSPClient) (tmp : List Char) :
    (RtspSession.clientAnswered c fun c => c.obtainKeyData tmp).written = c.written := by
  unfold RtspSession.clientAnswered
  simp only [RTSPClient.obtainKeyData_eq]
  split <;> rfl

/-- Every step keeps the client plain. -/
theorem plain_step (h : s.client.Plain) (e : Event) : (step decode s e).client.Plain := by
  cases e with
  | call c =>
    cases c with
    | method m => exact h.run m
    | shutdown =>
      change (s.shutdown quiet).client.Plain
      rw [(s.client_shutdown quiet).1]
      exact ⟨h.address, h.sessionid, h.trackInfo, h.written⟩
  | read data =>
    change (s.read decode quiet data).client.Plain
    have hrecieve : (s.client.recieve data).1.Plain := by
      obtain ⟨n, hn⟩ := s.client.recieve_fst data
      rw [hn]
      exact ⟨h.address, h.sessionid, h.trackInfo, h.written⟩
    rcases client_read s data with hread | hread | ⟨tmp, hread⟩
    · rw [hread]
      exact h
    · rw [hread]
      exact hrecieve
    · rw [hread]
      exact hrecieve.clientAnswered tmp

/-- Nothing is written exactly if nothing was, and the event sends nothing. -/
theorem written_step_iff (e : Event) :
    (step decode s e).client.written = [] ↔ s.client.written = [] ∧ ¬ s.client.Sends e := by
  cases e with
  | call c =>
    cases c with
    | method m =>
      change (s.client.run m).1.written = [] ↔ _
      rcases s.client.run_cases m with ⟨hno, hrun⟩ | ⟨-, hover, seq, -, hrun⟩ |
        ⟨hallows, r, hr, hsize, hrun⟩
      · rw [hrun]
        exact (and_iff_left fun h => hno h.1).symm
      · rw [hrun]
        refine (and_iff_left fun h => ?_).symm
        obtain ⟨-, r, hr, hsize⟩ := h
        exact absurd (hover r hr) (Nat.not_lt_of_le hsize)
      · rw [hrun]
        refine iff_of_false (fun h => ?_) fun h => h.2 ⟨hallows, r, hr, hsize⟩
        exact absurd (List.append_eq_nil_iff.mp h).2 (List.cons_ne_nil r [])
    | shutdown =>
      change (s.shutdown quiet).client.written = [] ↔ _
      rw [(s.client_shutdown quiet).1]
      exact (and_iff_left not_false).symm
  | read data =>
    change (s.read decode quiet data).client.written = [] ↔ _
    have hwritten : (s.read decode quiet data).client.written = s.client.written := by
      obtain ⟨n, hn⟩ := s.client.recieve_fst data
      rcases client_read s data with hread | hread | ⟨tmp, hread⟩
      · rw [hread]
      · rw [hread, hn]
      · rw [hread, written_clientAnswered, hn]
    rw [hwritten]
    exact (and_iff_left not_false).symm

end Quiet

section Listeners

variable {σ : Type} {decode : List UInt8 → List Char}

/-- A client by itself that keeps up with a session. -/
structure Follows (t : RtspSession Unit) (s : RtspSession σ) : Prop where
  client : t.client = s.client
  valid : t.cancelled = true → s.cancelled = true

/-- Some events take the client by itself there. -/
def Reaches (decode : List UInt8 → List Char) (t : RtspSession Unit) (s : RtspSession σ) : Prop :=
  ∃ es, Follows (after (step decode) t es) s

/-- A client that keeps up is there without an event. -/
theorem Follows.reaches {t : RtspSession Unit} {s : RtspSession σ} (h : Follows t s) :
    Reaches decode t s :=
  ⟨[], h⟩

/-- A first event, and then others. -/
theorem reaches_cons {t : RtspSession Unit} {s : RtspSession σ} (e : Event)
    (h : Reaches decode (step decode t e) s) : Reaches decode t s := by
  obtain ⟨es, hes⟩ := h
  exact ⟨e :: es, hes⟩

/-- The calls of a listener are calls from somewhere. -/
theorem reaches_calls (l : Listener σ) {t : RtspSession Unit} {s : RtspSession σ}
    (h : t.client = s.client) {cancelled : Bool} (hvalid : t.cancelled = true → cancelled = true)
    (cs : List RtspCall) :
    Reaches decode t { (s.calls l cs).1 with cancelled := cancelled } := by
  induction cs generalizing s t with
  | nil => exact Follows.reaches ⟨h, hvalid⟩
  | cons c cs ih =>
    have hcall : (step decode t (.call c)).client = (s.call l c).1.client ∧
        (step decode t (.call c)).cancelled = t.cancelled := by
      cases c with
      | method m =>
        change (t.client.run m).1 = (s.client.run m).1 ∧ _
        rw [h]
        exact ⟨rfl, rfl⟩
      | shutdown =>
        change (t.shutdown quiet).client = (s.shutdown l).client ∧ (t.shutdown quiet).cancelled = _
        unfold RtspSession.shutdown
        rw [h]
        split <;> exact ⟨by first | rfl | exact h, rfl⟩
    have hnext : (step decode t (.call c)).cancelled = true → cancelled = true := by
      rw [hcall.2]
      exact hvalid
    refine reaches_cons (.call c) ?_
    unfold RtspSession.calls
    split
    · next s' hthrown =>
      rw [hthrown] at hcall
      exact Follows.reaches ⟨hcall.1, hnext⟩
    · next s' hdone =>
      rw [hdone] at hcall
      exact ih hcall.1 hnext

/-- What the listener calls cancels nothing. -/
theorem cancelled_calls (l : Listener σ) (s : RtspSession σ) (cs : List RtspCall) :
    (s.calls l cs).1.cancelled = s.cancelled := by
  refine RtspSession.calls_invariant (P := fun s' => s'.cancelled = s.cancelled) ?_ rfl
  intro c _ s' hs'
  cases c with
  | method m => exact hs'
  | shutdown =>
    change (s'.shutdown l).cancelled = s.cancelled
    unfold RtspSession.shutdown
    split <;> exact hs'

/-- A client by itself keeps up with what the listener calls. -/
theorem Follows.calls (l : Listener σ) {t : RtspSession Unit} {s : RtspSession σ}
    (h : Follows t s) (cs : List RtspCall) : Reaches decode t (s.calls l cs).1 :=
  reaches_calls l h.client (fun hc => (cancelled_calls l s cs).trans (h.valid hc)) cs

/-- So it does with what the listener calls on a status. -/
theorem Follows.notify (l : Listener σ) {t : RtspSession Unit} {s : RtspSession σ}
    (h : Follows t s) : Reaches decode t (s.notify l).1 :=
  Follows.calls l (s := { s with
    listener := (l s.listener (.status s.client.sysStatus)).1
    notified := s.notified ++ [.status s.client.sysStatus] }) ⟨h.client, h.valid⟩ _

/-- So it does with a read. -/
theorem reaches_read (l : Listener σ) {t : RtspSession Unit} {s : RtspSession σ}
    (h : Follows t s) (data : Option (List UInt8)) : Reaches decode t (s.read decode l data) := by
  rcases s.read_cases decode l data rfl with ⟨-, hs⟩ | ⟨hvalid, hs⟩
  · rw [hs]
    exact h.reaches
  have hvalid' : (t.client.connected && !t.cancelled) = true := by
    obtain ⟨hconn, hkey⟩ := Bool.and_eq_true_iff.mp hvalid
    rw [Bool.not_eq_true'] at hkey
    cases hcancelled : t.cancelled with
    | false => rw [h.client, hconn, Bool.not_false, Bool.and_self]
    | true => rw [h.valid hcancelled] at hkey; cases hkey
  refine reaches_cons (.read data) ?_
  change Reaches decode (t.read decode quiet data) _
  rcases t.read_cases decode quiet data rfl with ⟨hno, -⟩ | ⟨-, ht⟩
  · rw [hvalid'] at hno
    cases hno
  rw [h.client] at ht
  rcases hs with ⟨hnone, hs⟩ | ⟨msg, hmsg, hs⟩
  · rcases ht with ⟨-, ht⟩ | ⟨msg, hmsg, -⟩
    · rw [hs, ht]
      exact reaches_calls l rfl (fun _ => rfl) _
    · rw [hnone] at hmsg
      cases hmsg
  · rcases ht with ⟨hnone, -⟩ | ⟨msg', hmsg', ht⟩
    · rw [hmsg] at hnone
      cases hnone
    rw [hmsg] at hmsg'
    cases hmsg'
    rcases hs with ⟨hno, hs⟩ | ⟨hok, hs⟩
    · rcases ht with ⟨-, ht⟩ | ⟨hok, -⟩
      · rw [hs, ht]
        exact Follows.reaches ⟨rfl, fun hc => hc⟩
      · exact absurd hok hno
    · rcases ht with ⟨hno, -⟩ | ⟨-, ht⟩
      · exact absurd hok hno
      rw [hs, ht, (answered_quiet _).2]
      rcases RtspSession.answered_eq l { s with client := (s.client.recieve data).1 }
        fun c => c.obtainKeyData (decode msg) with ⟨-, htold⟩ | ⟨-, hsilent⟩
      · rw [htold]
        exact reaches_calls l (answered_quiet _).1 (fun hc => by cases hc) _
      · rw [hsilent]
        exact Follows.reaches ⟨(answered_quiet _).1, fun hc => hc⟩

end Listeners

/-- A client begins plain if its address has no line break. -/
theorem plain_begin {address : List Char} (haddress : IsLine address) :
    (begin address).client.Plain :=
  ⟨haddress, fun _ h => (Option.not_mem_none _ h).elim, fun _ h => (Option.not_mem_none _ h).elim,
    fun _ hr => absurd hr List.not_mem_nil⟩

/-- In every run the client stays plain. -/
theorem plain_run {decode : List UInt8 → List Char} {address : List Char}
    (haddress : IsLine address) (es : List Event) :
    (after (step decode) (begin address) es).client.Plain :=
  after_invariant (I := fun s : RtspSession Unit => s.client.Plain) (plain_begin haddress)
    fun p _ h => plain_step h p.2

/-- In every run of a client, with the calls of any listener or thread, what has been written is
a stream of messages throughout exactly if no event of the run sends a request. -/
theorem selfDelimiting_run_iff (decode : List UInt8 → List Char) {address : List Char}
    (haddress : IsLine address) (es : List Event) :
    (∀ n, Request.SelfDelimiting
        (after (step decode) (begin address) (es.take n)).client.written) ↔
      ∀ p ∈ trace (step decode) (begin address) es, ¬ p.1.client.Sends p.2 := by
  have hnothing : Request.SelfDelimiting (begin address).client.written :=
    ⟨rfl, List.Pairwise.nil⟩
  have hkeep : ∀ s e, s.client.Plain → True → (step decode s e).client.Plain :=
    fun s e h _ => plain_step h e
  have hexact : ∀ s e, s.client.Plain → Request.SelfDelimiting s.client.written → True →
      (Request.SelfDelimiting (step decode s e).client.written ↔ ¬ s.client.Sends e) := by
    intro s e hplain hs _
    rw [Request.selfDelimiting_iff hplain.written] at hs
    rw [Request.selfDelimiting_iff (plain_step hplain e).written, written_step_iff,
      and_iff_right hs]
  exact forall_take_iff (J := fun s : RtspSession Unit => s.client.Plain) (A := fun _ _ => True)
    (I := fun s => Request.SelfDelimiting s.client.written) (plain_begin haddress) hnothing
    (fun _ _ => trivial) hkeep hexact

/-- PLAY is refused in the first status, and nothing is sent. -/
theorem selfDelimiting_run_iff_refused :
    Request.SelfDelimiting
      (after (step ascii) (begin "rtsp://a/b".toList) [.call (.method .doPlay)]).client.written :=
  have hrefused : ∀ p ∈ trace (step ascii) (begin "rtsp://a/b".toList) [.call (.method .doPlay)],
      ¬ p.1.client.Sends p.2 := by
    intro p hp hsends
    rw [List.mem_singleton.mp hp] at hsends
    exact hsends.1.status (Or.inl (by decide))
  (selfDelimiting_run_iff ascii (by decide) [.call (.method .doPlay)]).mpr hrefused 1

/-- A single OPTIONS. -/
theorem not_selfDelimiting_options :
    (after (step ascii) (begin "rtsp://a/b".toList) [.call (.method .doOption)]).client.written =
        [.options "rtsp://a".toList 1] ∧
      RtspMessage.parse (Request.options "rtsp://a".toList 1).text = none ∧
      ¬ Request.SelfDelimiting [.options "rtsp://a".toList 1] := by
  have hnone : RtspMessage.parse (Request.options "rtsp://a".toList 1).text = none := by
    decide +kernel
  refine ⟨by decide +kernel, hnone, fun h => ?_⟩
  have hparsed := h.parsed
  rw [List.flatMap_singleton, hnone] at hparsed
  cases hparsed

end RTSPClient

namespace IpCameraHelper

variable (decode : List UInt8 → List Char) (localPort : Int)

/-- Each step of a camera is a run of the client by itself. -/
theorem reaches_step {t : RtspSession Unit} {s : RtspSession Bool} (h : RTSPClient.Follows t s)
    (e : Event) : RTSPClient.Reaches decode t (step decode localPort s e) := by
  cases e with
  | pass =>
    simp only [step]
    split
    · exact RTSPClient.Follows.calls (listener localPort) h [.shutdown]
    split
    · exact RTSPClient.Follows.notify (listener localPort) h
    · exact h.reaches
  | read data =>
    simp only [step]
    split
    · exact h.reaches
    · exact RTSPClient.reaches_read _ h data
  | fini =>
    simp only [step, fini]
    split
    · have hcalls : RTSPClient.Reaches decode t
          (s.calls (listener localPort) [.method .doTeardown, .shutdown]).1 :=
        RTSPClient.Follows.calls (listener localPort) h _
      split
      · next s' hthrown =>
        rw [hthrown] at hcalls
        exact hcalls
      · next s' hdone =>
        rw [hdone] at hcalls
        obtain ⟨es, hes⟩ := hcalls
        exact ⟨es, hes.client, hes.valid⟩
    · exact h.reaches

/-- Every run of a camera is a run of the client by itself. -/
theorem reaches_run {t : RtspSession Unit} {s : RtspSession Bool} (h : RTSPClient.Follows t s)
    (es : List Event) : RTSPClient.Reaches decode t (after (step decode localPort) s es) := by
  induction es generalizing s t with
  | nil => exact h.reaches
  | cons e es ih =>
    obtain ⟨es₁, h₁⟩ := reaches_step decode localPort h e
    obtain ⟨es₂, h₂⟩ := ih h₁
    refine ⟨es₁ ++ es₂, ?_⟩
    rw [after, List.foldl_append]
    exact h₂

/-- What a camera writes in a run is a stream of messages only as long as it is nothing. -/
theorem selfDelimiting_iff {address : List Char} (haddress : IsLine address) (es : List Event) :
    Request.SelfDelimiting
        (after (step decode localPort) (start address) es).client.written ↔
      (after (step decode localPort) (start address) es).client.written = [] := by
  have hstart : RTSPClient.Follows (RTSPClient.begin address) (start address) :=
    ⟨rfl, fun hc => hc⟩
  obtain ⟨es', hes⟩ := reaches_run decode localPort hstart es
  rw [← hes.client]
  exact Request.selfDelimiting_iff (RTSPClient.plain_run haddress es').written

end IpCameraHelper

end Jrtplib4Android
