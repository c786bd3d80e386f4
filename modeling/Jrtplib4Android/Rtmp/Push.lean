import Jrtplib4Android.Rtmp.Flv
import Jrtplib4Android.Rtmp.Packet

/-!
# Publishing H.264 over RTMP

`RtmpUtils` keeps one packet for all its sends. `PushSPSPPS` and `PushH264Data`
write the packet fields and the body from the start, whatever the send before has
left in them, so each message of a run is the FLV video tag of its call.
-/

namespace Jrtplib4Android

open CSem

variable {ω : Type}

/-- The members of `RtmpUtils`, of which `mCount` only counts towards a log line. -/
structure RtmpUtils (ω : Type) where
  rtmp : RTMP ω
  packet : RTMPPacket
  /-- A `long`, of which only the low 32 bits reach a packet. -/
  mTimestamp : Int
  mCount : Int := 0

namespace RtmpUtils

/-- `initRtmpHandle` from the point where the stream is connected. -/
def initRtmpHandle (rtmp : RTMP ω) (mTimestamp : Int) : RtmpUtils ω where
  rtmp := rtmp
  packet := { RTMPPacket.alloc (1024 * 512) with
    mHasAbsTimestamp := 0
    mNChannel := 0x04
    mNInfoField2 := rtmp.mStreamId }
  mTimestamp := mTimestamp

/-- The end of both functions: send the packet if the connection is open. The
result is the status returned and the message handed over, if any. -/
def send (net : ω → RTMPPacket → ω × SendReply) (u : RtmpUtils ω) :
    Except Fault (RtmpUtils ω × Int × Option Message) :=
  if u.rtmp.isConnected then do
    let (rtmp, packet, ok, message) ← u.rtmp.sendPacket net u.packet
    return ({ u with rtmp := rtmp, packet := packet }, if ok then 0 else -5, some message)
  else return (u, -4, none)

/-- The body that `PushSPSPPS` writes. -/
def spsPpsBody (body sps : Block) (spsLen : Int) (pps : Block) (ppsLen : Int) :
    Except Fault Block := do
  let body ← body.storeList 0 [0x17, 0x00, 0x00, 0x00, 0x00, 0x01]
  let profile ← sps.load 1
  let compatibility ← sps.load 2
  let level ← sps.load 3
  let body ← body.storeList 6 [profile, compatibility, level, 0xff, 0xe1, intByte spsLen 8,
    intByte spsLen 0]
  let body ← memcpy body 13 sps (some 0) spsLen
  let i := 13 + spsLen.toNat
  let body ← body.storeList i [0x01, intByte ppsLen 8, intByte ppsLen 0]
  memcpy body (i + 3) pps (some 0) ppsLen

/-- `PushSPSPPS`. -/
def pushSPSPPS (net : ω → RTMPPacket → ω × SendReply) (u : RtmpUtils ω) (sps : Block)
    (spsLen : Int) (pps : Block) (ppsLen : Int) :
    Except Fault (RtmpUtils ω × Int × Option Message) := do
  let bodySize := spsLen + ppsLen + 16
  let body ← spsPpsBody u.packet.mBody sps spsLen pps ppsLen
  let packet := { u.packet with
    mBody := body
    mPacketType := rtmpPacketTypeVideo
    mNBodySize := UInt32.ofInt bodySize
    mNTimeStamp := 0
    mHasAbsTimestamp := 1
    mNChannel := 0x04
    mHeaderType := rtmpPacketSizeMedium
    mNInfoField2 := u.rtmp.mStreamId }
  { u with packet := packet }.send net

/-- The body that `PushH264Data` writes. -/
def h264Body (body data : Block) (dataLen : Int) (isIdr : Bool) : Except Fault Block := do
  let body ← body.storeList 0 [if isIdr then 0x17 else 0x27, 0x01, 0x00, 0x00, 0x00,
    intByte dataLen 24, intByte dataLen 16, intByte dataLen 8, intByte dataLen 0]
  memcpy body 9 data (some 0) dataLen

/-- `PushH264Data`. -/
def pushH264Data (net : ω → RTMPPacket → ω × SendReply) (u : RtmpUtils ω) (data : Block)
    (dataLen : Int) (isIdr : Bool) : Except Fault (RtmpUtils ω × Int × Option Message) := do
  let bodySize := dataLen + 9
  let packet := u.packet.reset
  let body ← h264Body packet.mBody data dataLen isIdr
  let packet := { packet with
    mBody := body
    mPacketType := rtmpPacketTypeVideo
    mNBodySize := UInt32.ofInt bodySize
    mNTimeStamp := UInt32.ofInt u.mTimestamp
    mHasAbsTimestamp := 1
    mNChannel := 0x04
    mHeaderType := rtmpPacketSizeLarge
    mNInfoField2 := u.rtmp.mStreamId }
  { u with packet := packet, mTimestamp := u.mTimestamp + 40 }.send net

end RtmpUtils

namespace RtmpUtils

/-- `PushSPSPPS` writes a sequence header over whatever the body holds. -/
theorem spsPpsBody_begins (body : Block) (sps pps : List UInt8) (hsps : 4 ≤ sps.length)
    (hroom : sps.length + pps.length + 16 ≤ body.size) :
    ∃ body', spsPpsBody body (.ofList sps) sps.length (.ofList pps) pps.length = .ok body' ∧
      body'.size = body.size ∧ body'.Begins
        (sequenceHeaderBody (sps.getD 1 0) (sps.getD 2 0) (sps.getD 3 0) sps pps) := by
  have hload : ∀ i, i < 4 → (Block.ofList sps).load i = .ok (sps.getD i 0) := by
    intro i hi
    exact Block.load_eq (by rw [Block.size_ofList]; omega)
  obtain ⟨b₁, h₁, size₁, begins₁⟩ := Block.storeList_begins [0x17, 0, 0, 0, 0, 1]
    body.begins_nil (i := 0) rfl (by simp only [List.length_cons, List.length_nil]; omega)
  obtain ⟨b₂, h₂, size₂, begins₂⟩ := Block.storeList_begins
    [sps.getD 1 0, sps.getD 2 0, sps.getD 3 0, 0xff, 0xe1, intByte sps.length 8,
      intByte sps.length 0]
    begins₁ (i := 6) rfl (by simp only [List.length_cons, List.length_nil]; omega)
  obtain ⟨b₃, h₃, size₃, begins₃⟩ := Block.memcpy_begins sps begins₂ (i := 13) rfl (by omega)
  obtain ⟨b₄, h₄, size₄, begins₄⟩ := Block.storeList_begins
    [1, intByte pps.length 8, intByte pps.length 0]
    begins₃ (i := 13 + sps.length)
    (by simp only [List.length_append, List.length_cons, List.length_nil])
    (by simp only [List.length_cons, List.length_nil]; omega)
  obtain ⟨b₅, h₅, size₅, begins₅⟩ := Block.memcpy_begins pps
    begins₄ (i := 13 + sps.length + 3)
    (by simp only [List.length_append, List.length_cons, List.length_nil]) (by omega)
  refine ⟨b₅, ?_, by omega, ?_⟩
  · simp only [spsPpsBody, h₁, hload 1 (by omega), hload 2 (by omega), hload 3 (by omega), h₂, h₃,
      Int.toNat_natCast, h₄, h₅, bind, Except.bind]
  · simpa only [sequenceHeaderBody, List.cons_append, List.nil_append, List.append_assoc,
      ← beBytes_two] using begins₅

/-- `PushH264Data` writes a NAL unit packet over whatever the body holds. -/
theorem h264Body_begins (body : Block) (nal : List UInt8) (isIdr : Bool)
    (hroom : nal.length + 9 ≤ body.size) :
    ∃ body', h264Body body (.ofList nal) nal.length isIdr = .ok body' ∧
      body'.size = body.size ∧ body'.Begins (naluBody (if isIdr then 0x17 else 0x27) nal) := by
  obtain ⟨b₁, h₁, size₁, begins₁⟩ := Block.storeList_begins
    [if isIdr then 0x17 else 0x27, 0x01, 0x00, 0x00, 0x00, intByte nal.length 24,
      intByte nal.length 16, intByte nal.length 8, intByte nal.length 0]
    body.begins_nil (i := 0) rfl (by simp only [List.length_cons, List.length_nil]; omega)
  obtain ⟨b₂, h₂, size₂, begins₂⟩ := Block.memcpy_begins nal begins₁ (i := 9) rfl
    (by omega)
  refine ⟨b₂, ?_, by omega, ?_⟩
  · simp only [h264Body, h₁, h₂, bind, Except.bind]
  · simpa only [naluBody, List.cons_append, List.nil_append, ← beBytes_four] using begins₂

end RtmpUtils

/-- A call with data the packet body has room for. -/
inductive PushCall where
  | spsPps (sps pps : List UInt8) (hsps : 4 ≤ sps.length ∧ sps.length ≤ 65535)
      (hpps : pps.length ≤ 65535)
  | h264 (nal : List UInt8) (isIdr : Bool) (hnal : nal.length + 9 ≤ 524288)

namespace PushCall

/-- Make the call. -/
def run (net : ω → RTMPPacket → ω × SendReply) (u : RtmpUtils ω) :
    PushCall → Except Fault (RtmpUtils ω × Int × Option Message)
  | spsPps sps pps _ _ =>
    u.pushSPSPPS net (.ofList sps) sps.length (.ofList pps) pps.length
  | h264 nal isIdr _ => u.pushH264Data net (.ofList nal) nal.length isIdr

/-- What the receiver of the call's message is to read. -/
def tag : PushCall → VideoTag
  | spsPps sps pps _ _ =>
    ⟨1, 0, .sequenceHeader ⟨sps.getD 1 0, sps.getD 2 0, sps.getD 3 0, 4, [sps], [pps]⟩⟩
  | h264 nal isIdr _ => ⟨if isIdr then 1 else 2, 0, .nalu nal⟩

end PushCall

/-- Make the calls in order; the result has the messages handed over. -/
def pushRun (net : ω → RTMPPacket → ω × SendReply) (u : RtmpUtils ω) :
    List PushCall → Except Fault (RtmpUtils ω × List Message)
  | [] => return (u, [])
  | c :: cs => do
    let (u, _, message) ← c.run net u
    let (u, messages) ← pushRun net u cs
    return (u, message.toList ++ messages)

/-- Whether the connection is open behind the calls. -/
def OpenBehind (net : ω → RTMPPacket → ω × SendReply) (u : RtmpUtils ω)
    (calls : List PushCall) : Prop :=
  ∃ u' messages, pushRun net u calls = .ok (u', messages) ∧ u'.rtmp.connected = true

/-- The message is the call's video tag on the stream `sid`, nothing left over. -/
structure Carries (sid : Int) (c : PushCall) (m : Message) : Prop where
  packetType : m.packetType = rtmpPacketTypeVideo
  channel : m.channel = 4
  streamId : m.streamId = sid
  bodySize : m.bodySize.toNat = m.body.length
  body : parseVideoTag m.body = some (c.tag, [])

namespace RtmpUtils

/-- The state between calls: the body keeps its size, an open connection its stream id. -/
structure Ready (u : RtmpUtils ω) (sid : Int) : Prop where
  size : u.packet.mBody.size = 524288
  streamId : u.rtmp.connected = true → u.rtmp.mStreamId = sid

/-- What one call does to a publisher whose connection is open or not. -/
structure PushStep (sid : Int) (c : PushCall) (connected : Bool) (u' : RtmpUtils ω)
    (message : Option Message) : Prop where
  ready : u'.Ready sid
  sent : connected = true → ∃ m, message = some m ∧ Carries sid c m
  silent : connected = false → message = none ∧ u'.rtmp.connected = false

theorem ready_initRtmpHandle (rtmp : RTMP ω) (mTimestamp : Int) :
    (initRtmpHandle rtmp mTimestamp).Ready rtmp.mStreamId where
  size := rfl
  streamId := fun _ => rfl

/-- A packet that carries the call is sent, or nothing is. -/
theorem send_step (net : ω → RTMPPacket → ω × SendReply) {u : RtmpUtils ω} {sid : Int}
    {c : PushCall} {body : List UInt8} (hready : u.Ready sid)
    (hbody : u.packet.mBody.Begins body) (hsize : u.packet.mNBodySize.toNat = body.length)
    (hroom : body.length ≤ 524288) (hparse : parseVideoTag body = some (c.tag, []))
    (htype : u.packet.mPacketType = rtmpPacketTypeVideo) (hchannel : u.packet.mNChannel = 4)
    (hstream : u.packet.mNInfoField2 = u.rtmp.mStreamId) :
    ∃ u' status message, u.send net = .ok (u', status, message) ∧
      PushStep sid c u.rtmp.connected u' message := by
  have hslice : u.packet.mBody.slice 0 u.packet.mNBodySize.toNat = body := by
    rw [hsize]
    exact hbody
  cases hconn : u.rtmp.connected with
  | false =>
    refine ⟨u, -4, none, ?_, hready, (nomatch ·), fun _ => ⟨rfl, hconn⟩⟩
    simp only [send, RTMP.isConnected, hconn, Bool.false_eq_true, ite_false]
    rfl
  | true =>
    rcases hnet : net u.rtmp.io u.packet with ⟨io, reply⟩
    have hsend := RTMP.sendPacket_eq hnet (by rw [hready.size]; omega)
    refine ⟨{ u with rtmp := u.rtmp.answered io reply, packet := u.packet.returned reply },
      if reply.ok then 0 else -5, some u.packet.message, ?_, ⟨hready.size, fun h => ?_⟩,
      fun _ => ?_, (nomatch ·)⟩
    · simp only [send, RTMP.isConnected, hconn, ite_true, hsend, bind, Except.bind]
      rfl
    · exact (RTMP.streamId_answered h).trans (hready.streamId hconn)
    · refine ⟨_, rfl, htype, hchannel, hstream.trans (hready.streamId hconn), ?_, ?_⟩
      · exact (Block.length_slice _ _ _).symm
      · exact (congrArg parseVideoTag hslice).trans hparse

/-- Every call writes its own packet over the last one. -/
theorem run_step (net : ω → RTMPPacket → ω × SendReply) {u : RtmpUtils ω} {sid : Int}
    (c : PushCall) (hready : u.Ready sid) :
    ∃ u' status message, c.run net u = .ok (u', status, message) ∧
      PushStep sid c u.rtmp.connected u' message := by
  cases c with
  | spsPps sps pps hsps hpps =>
    obtain ⟨body, hbody, hsize, hbegins⟩ := spsPpsBody_begins u.packet.mBody sps pps hsps.1
      (by rw [hready.size]; omega)
    have hlen : (sps.length : Int) + pps.length + 16 =
        ((sps.length + pps.length + 16 : Nat) : Int) := by omega
    simp only [PushCall.run, pushSPSPPS, hbody, bind, Except.bind]
    refine send_step net ⟨hsize.trans hready.size, hready.streamId⟩ hbegins ?_ ?_
      (parseVideoTag_sequenceHeader hsps.2 hpps) rfl rfl rfl
    · rw [hlen, toNat_ofInt (by omega), length_sequenceHeaderBody]
    · rw [length_sequenceHeaderBody]
      omega
  | h264 nal isIdr hnal =>
    obtain ⟨body, hbody, hsize, hbegins⟩ := h264Body_begins u.packet.mBody nal isIdr
      (by rw [hready.size]; omega)
    have hlen : (nal.length : Int) + 9 = ((nal.length + 9 : Nat) : Int) := by omega
    have hparse : parseVideoTag (naluBody (if isIdr then 0x17 else 0x27) nal) =
        some (⟨if isIdr then 1 else 2, 0, .nalu nal⟩, []) := by
      cases isIdr with
      | true => exact parseVideoTag_nalu (by decide) (by omega)
      | false => exact parseVideoTag_nalu (by decide) (by omega)
    simp only [PushCall.run, pushH264Data, RTMPPacket.reset_mBody, hbody, bind, Except.bind]
    refine send_step net ⟨hsize.trans hready.size, hready.streamId⟩ hbegins ?_ ?_ hparse
      rfl rfl rfl
    · rw [hlen, toNat_ofInt (by omega), length_naluBody]
    · rw [length_naluBody]
      omega

/-- Over a run, the messages are those of the first calls, one each, and of all calls if
the connection stays open. -/
private theorem pushRun_messages (net : ω → RTMPPacket → ω × SendReply) {sid : Int}
    (calls : List PushCall) {u : RtmpUtils ω} (hready : u.Ready sid) :
    ∃ u' messages, pushRun net u calls = .ok (u', messages) ∧
      List.Forall₂ (Carries sid) (calls.take messages.length) messages ∧
      (u'.rtmp.connected = true → messages.length = calls.length) ∧
      (u.rtmp.connected = false → messages = [] ∧ u'.rtmp.connected = false) := by
  induction calls generalizing u with
  | nil => exact ⟨u, [], rfl, .nil, fun _ => rfl, fun h => ⟨rfl, h⟩⟩
  | cons c calls ih =>
    obtain ⟨u₁, status, message, hrun, hstep⟩ := run_step net c hready
    obtain ⟨u', messages, hruns, hcarries, hall, hnone⟩ := ih hstep.ready
    have heq : pushRun net u (c :: calls) = .ok (u', message.toList ++ messages) := by
      simp only [pushRun, hrun, hruns, bind, Except.bind]
      rfl
    cases hconn : u.rtmp.connected with
    | true =>
      obtain ⟨m, rfl, hm⟩ := hstep.sent hconn
      refine ⟨u', m :: messages, heq, .cons hm hcarries, fun h => ?_, (nomatch ·)⟩
      rw [List.length_cons, List.length_cons, hall h]
    | false =>
      obtain ⟨rfl, hclosed⟩ := hstep.silent hconn
      obtain ⟨rfl, hclosed'⟩ := hnone hclosed
      refine ⟨u', [], heq, .nil, fun h => ?_, fun _ => ⟨rfl, hclosed'⟩⟩
      rw [hclosed'] at h
      cases h

/-- The connection is open behind a call and others if it is behind the others. -/
private theorem openBehind_cons {net : ω → RTMPPacket → ω × SendReply} {u u₁ : RtmpUtils ω}
    {c : PushCall} {status : Int} {message : Option Message}
    (hrun : c.run net u = .ok (u₁, status, message)) (calls : List PushCall) :
    OpenBehind net u (c :: calls) ↔ OpenBehind net u₁ calls := by
  simp only [OpenBehind, pushRun, hrun, bind, Except.bind]
  cases pushRun net u₁ calls with
  | error fault => simp only [reduceCtorEq, false_and, exists_false]
  | ok result =>
    obtain ⟨u', messages⟩ := result
    constructor
    · rintro ⟨_, _, heq, hopen⟩
      cases heq
      exact ⟨u', messages, rfl, hopen⟩
    · rintro ⟨_, _, heq, hopen⟩
      cases heq
      exact ⟨u', message.toList ++ messages, rfl, hopen⟩

/-- A call has its message exactly if the connection is open behind the calls in front. -/
private theorem lt_length_messages_iff (net : ω → RTMPPacket → ω × SendReply) {sid : Int}
    (calls : List PushCall) {u u' : RtmpUtils ω} {messages : List Message} (hready : u.Ready sid)
    (hruns : pushRun net u calls = .ok (u', messages)) (k : Nat) (hk : k < calls.length) :
    k < messages.length ↔ OpenBehind net u (calls.take k) := by
  induction calls generalizing u messages k with
  | nil => cases hk
  | cons c calls ih =>
    obtain ⟨u₁, status, message, hrun, hstep⟩ := run_step net c hready
    obtain ⟨u₂, later, hlater, -, -, hnone⟩ := pushRun_messages net calls hstep.ready
    have heq : pushRun net u (c :: calls) = .ok (u₂, message.toList ++ later) := by
      simp only [pushRun, hrun, hlater, bind, Except.bind]
      rfl
    rw [heq] at hruns
    cases hruns
    have hnil : OpenBehind net u [] ↔ u.rtmp.connected = true := by
      constructor
      · rintro ⟨_, _, h, hopen⟩
        cases h
        exact hopen
      · exact fun hopen => ⟨u, [], rfl, hopen⟩
    cases hconn : u.rtmp.connected with
    | true =>
      obtain ⟨m, rfl, -⟩ := hstep.sent hconn
      cases k with
      | zero => exact iff_of_true (Nat.succ_pos _) (hnil.mpr hconn)
      | succ k =>
        rw [List.take_succ_cons, openBehind_cons hrun, ← ih hstep.ready hlater k
          (Nat.lt_of_succ_lt_succ hk)]
        exact Nat.succ_lt_succ_iff
    | false =>
      obtain ⟨rfl, hclosed⟩ := hstep.silent hconn
      obtain ⟨rfl, -⟩ := hnone hclosed
      refine iff_of_false (Nat.not_lt_zero k) ?_
      cases k with
      | zero => exact fun hopen => absurd (hnil.mp hopen) (by rw [hconn]; exact Bool.false_ne_true)
      | succ k =>
        rw [List.take_succ_cons, openBehind_cons hrun, ← ih hstep.ready hlater k
          (Nat.lt_of_succ_lt_succ hk)]
        exact Nat.not_lt_zero k

/-- Whatever the network answers and scribbles on the packet, the `i`-th message of a run
parses to exactly the `i`-th call. Call `k` has its message exactly if the connection is open
behind the calls in front of it: where a send closes it, its own message is the last. -/
theorem pushRun_roundTrip (net : ω → RTMPPacket → ω × SendReply) (rtmp : RTMP ω)
    (mTimestamp : Int) (calls : List PushCall) :
    ∃ u messages, pushRun net (initRtmpHandle rtmp mTimestamp) calls = .ok (u, messages) ∧
      List.Forall₂ (Carries rtmp.mStreamId) (calls.take messages.length) messages ∧
      (u.rtmp.connected = true → messages.length = calls.length) ∧
      ∀ k < calls.length, k < messages.length ↔
        OpenBehind net (initRtmpHandle rtmp mTimestamp) (calls.take k) := by
  obtain ⟨u, messages, hrun, hcarries, hall, _⟩ :=
    pushRun_messages net calls (ready_initRtmpHandle rtmp mTimestamp)
  exact ⟨u, messages, hrun, hcarries, hall,
    lt_length_messages_iff net calls (ready_initRtmpHandle rtmp mTimestamp) hrun⟩

/-- A network that scribbles on every packet and closes the connection with the second. -/
def closingNet (sends : Nat) (_ : RTMPPacket) : Nat × SendReply :=
  (sends + 1, ⟨decide (sends = 0), decide (sends = 1), 0xff, fun _ => 0xff⟩)

/-- The parameter sets and two frames. -/
def threeCalls : List PushCall :=
  [.spsPps [0x67, 0x4d, 0, 0x1f, 0x95] [0x68, 0xee] (by decide) (by decide),
    .h264 [0x65, 0x88] true (by decide), .h264 [0x41, 0x9a, 2] false (by decide)]

/-- Two of the three messages are handed over, and they are those of the first two calls. -/
theorem pushRun_roundTrip_closing :
    ∃ u messages, pushRun closingNet (initRtmpHandle ⟨true, 1, 0⟩ 0) threeCalls =
        .ok (u, messages) ∧
      List.Forall₂ (Carries 1) (threeCalls.take 2) messages := by
  obtain ⟨u, messages, hrun, hcarries, -, hcount⟩ :=
    pushRun_roundTrip closingNet ⟨true, 1, 0⟩ 0 threeCalls
  have hsecond : 1 < messages.length := (hcount 1 (by decide)).mpr ⟨_, _, rfl, rfl⟩
  have hthird : ¬ 2 < messages.length := by
    rw [hcount 2 (by decide)]
    rintro ⟨u', ms, heq, hopen⟩
    cases heq
    cases hopen
  have hlength : messages.length = 2 := by omega
  rw [hlength] at hcarries
  exact ⟨u, messages, hrun, hcarries⟩

end RtmpUtils

end Jrtplib4Android
