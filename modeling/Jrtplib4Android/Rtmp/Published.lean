import Jrtplib4Android.Rtmp.ChunkStream
import Jrtplib4Android.Rtmp.Push

/-!
# The published stream

`PushSPSPPS` and `PushH264Data` over the connection that `RTMP_SendPacket` writes to. The peer
reads back the FLV tags of the calls at their times, but for a parameter set that is repeated
at once behind a later frame: it is sent as a header with nothing in it, and the peer goes
back by the time of the frame again.
-/

namespace Jrtplib4Android

open CSem

/-- The connection of a publisher: the writer, what the header room of the packet holds, and
whether every packet so far was written. -/
structure Link where
  writer : ChunkWriter
  room : Nat → UInt8
  done : Bool

/-- `RTMP_SendPacket` as the publisher calls it. -/
def Link.send (l : Link) (packet : RTMPPacket) : Link × SendReply :=
  match rtmpSendPacket l.writer l.room packet with
  | .ok sent =>
    (⟨sent.writer, sent.mem.byte, l.done && sent.status == .done⟩,
      ⟨sent.status == .done, sent.status == .closed, sent.headerType,
        fun i => sent.mem.byte (rtmpMaxHeaderSize + i)⟩)
  | .error _ => ({ l with done := false }, ⟨false, false, packet.mHeaderType, packet.mBody.byte⟩)

namespace PushCall

/-- The FLV video tag of a call. -/
def body : PushCall → List UInt8
  | spsPps sps pps _ _ =>
    sequenceHeaderBody (sps.getD 1 0) (sps.getD 2 0) (sps.getD 3 0) sps pps
  | h264 nal isIdr _ => naluBody (if isIdr then 0x17 else 0x27) nal

/-- How many frames a call adds. -/
def frames : PushCall → Nat
  | spsPps .. => 0
  | h264 .. => 1

/-- The time of a call behind `n` frames. -/
def time (n : Nat) : PushCall → UInt32
  | spsPps .. => 0
  | h264 .. => UInt32.ofInt (40 * n : Nat)

/-- The header that a call asks for. -/
def headerType : PushCall → UInt8
  | spsPps .. => rtmpPacketSizeMedium
  | h264 .. => rtmpPacketSizeLarge

/-- The packet of a call behind `n` frames, with nothing else in its body. -/
def packet (sid : Int) (n : Nat) (c : PushCall) : RTMPPacket where
  mHeaderType := c.headerType
  mPacketType := rtmpPacketTypeVideo
  mHasAbsTimestamp := 1
  mNChannel := 4
  mNTimeStamp := c.time n
  mNInfoField2 := sid
  mNBodySize := UInt32.ofNat c.body.length
  mNBytesRead := 0
  mBody := .ofList c.body

/-- The body of a call fits the packet. -/
theorem length_body_le (c : PushCall) : c.body.length ≤ 524288 := by
  cases c with
  | spsPps sps pps hsps hpps =>
    rw [body, length_sequenceHeaderBody]
    omega
  | h264 nal isIdr hnal =>
    rw [body, length_naluBody]
    exact hnal

/-- So its length is the size of the packet. -/
theorem toNat_length_body (c : PushCall) :
    (UInt32.ofNat c.body.length).toNat = c.body.length := by
  have hle := c.length_body_le
  rw [UInt32.toNat_ofNat']
  omega

/-- The packet of a call is one that is asked for. -/
theorem requested_packet {sid : Int} (hlo : -2 ^ 31 ≤ sid) (hhi : sid < 2 ^ 31) (n : Nat)
    (c : PushCall) : (c.packet sid n).Requested := by
  have hsize := c.toNat_length_body
  have hle := c.length_body_le
  have hnonneg : (0 : Int) ≤ 4 := by decide
  have hlow : (2 : Int) ≤ 4 := by decide
  have hhigh : (4 : Int) < rtmpChannels := by decide
  have htype : rtmpPacketTypeVideo ≠ 1 := by decide
  refine ⟨⟨⟨?_, hnonneg, hhigh, ?_, ?_⟩, ⟨hlow, hhigh⟩, ?_, hlo, hhi⟩, ?_, htype⟩
  · cases c
    · exact (by decide : rtmpPacketSizeMedium ≤ 3)
    · exact (by decide : rtmpPacketSizeLarge ≤ 3)
  · exact hsize.le
  · exact hsize.trans_lt (by omega)
  · exact hsize.trans_lt (by omega)
  · cases c
    · exact .inr rfl
    · exact .inl rfl

end PushCall

/-- The packets of a run of calls behind `n` frames. -/
def callPackets (sid : Int) : Nat → List PushCall → List RTMPPacket
  | _, [] => []
  | n, c :: cs => c.packet sid n :: callPackets sid (n + c.frames) cs

/-- Two packets that are the same on the wire. -/
structure RTMPPacket.Alike (p p' : RTMPPacket) : Prop where
  headerType : p.mHeaderType = p'.mHeaderType
  content : p.content = p'.content

namespace RTMPPacket.Alike

variable {p p' : RTMPPacket}

theorem bodySize (h : p.Alike p') : p.mNBodySize = p'.mNBodySize :=
  UInt32.toNat_inj.mp (congrArg (·.bodySize) h.content)

theorem channel (h : p.Alike p') : p.mNChannel = p'.mNChannel := congrArg (·.channel) h.content

/-- Packets that are alike have one header. -/
theorem sentHeader (h : p.Alike p') : p.sentHeader = p'.sentHeader := by
  rw [RTMPPacket.sentHeader, RTMPPacket.sentHeader, h.bodySize,
    show p.mPacketType = p'.mPacketType from congrArg (·.packetType) h.content,
    show p.mNTimeStamp = p'.mNTimeStamp from congrArg (·.timestamp) h.content]

/-- They can be sent alike, if the body is there. -/
theorem sendable (h : p.Alike p') (hp : p'.Sendable) (hfits : p'.mNBodySize.toNat ≤ p.mBody.size) :
    p.Sendable := by
  constructor
  · exact h.headerType ▸ hp.headerType
  · exact h.channel ▸ hp.nonneg
  · exact h.channel ▸ hp.channel
  · exact h.bodySize ▸ hfits
  · exact h.bodySize ▸ hp.int

/-- They leave the same bytes. -/
theorem packetStream (h : p.Alike p') (k : Nat) (out : ChannelsOut) :
    Jrtplib4Android.packetStream k out [p] = Jrtplib4Android.packetStream k out [p'] ∧
      p.keep out = p'.keep out := by
  have htype : p.mPacketType = p'.mPacketType := congrArg (·.packetType) h.content
  have htime : p.mNTimeStamp = p'.mNTimeStamp := congrArg (·.timestamp) h.content
  have hinfo : p.mNInfoField2 = p'.mNInfoField2 := congrArg (·.streamId) h.content
  have hbody : p.mBody.slice 0 p.mNBodySize.toNat = p'.mBody.slice 0 p'.mNBodySize.toNat :=
    congrArg (·.body) h.content
  have hcompressed : ∀ prev, compressed prev p = compressed prev p' := by
    intro prev
    simp only [compressed, h.headerType, h.bodySize, htype, htime]
  rw [h.bodySize] at hbody
  refine ⟨?_, by rw [keep, keep, h.sentHeader, h.channel]⟩
  simp only [Jrtplib4Android.packetStream, hcompressed, chunkStream, headerBytes, hbody, h.channel,
    htime, htype, hinfo, h.bodySize]

end RTMPPacket.Alike

/-- A call sends its own packet, whatever the packet held before. -/
theorem PushCall.run_eq {ω : Type} (net : ω → RTMPPacket → ω × SendReply) {u : RtmpUtils ω}
    {sid : Int} {n : Nat} (hready : u.Ready sid) (hconn : u.rtmp.connected = true)
    (hclock : u.mTimestamp = 40 * n) (c : PushCall) :
    ∃ packet mTimestamp, c.run net u =
        RtmpUtils.send net { u with packet := packet, mTimestamp := mTimestamp } ∧
      packet.mBody.size = 524288 ∧ mTimestamp = 40 * (n + c.frames : Nat) ∧
      packet.Alike (c.packet sid n) := by
  have hsize := hready.size
  have hstream := hready.streamId hconn
  have hle := c.length_body_le
  have hcontent : ∀ (time : UInt32) (mem : Block), time = c.time n → mem.Begins c.body →
      (⟨rtmpPacketTypeVideo, 4, time, u.rtmp.mStreamId, (UInt32.ofNat c.body.length).toNat,
        mem.slice 0 (UInt32.ofNat c.body.length).toNat⟩ : PacketContent) =
        (c.packet sid n).content := by
    rintro time mem rfl hbegins
    simp only [RTMPPacket.content, packet, hstream, c.toNat_length_body, Block.slice_ofList]
    rw [show mem.slice 0 c.body.length = c.body from hbegins]
  cases c with
  | spsPps sps pps hsps hpps =>
    obtain ⟨mem, hmem, hkept, hbegins⟩ :=
      RtmpUtils.spsPpsBody_begins u.packet.mBody sps pps hsps.1 (by rw [hsize]; omega)
    have hlength : (sps.length : Int) + pps.length + 16 =
        ((PushCall.spsPps sps pps hsps hpps).body.length : Nat) := by
      rw [body, length_sequenceHeaderBody]
      omega
    refine ⟨⟨rtmpPacketSizeMedium, rtmpPacketTypeVideo, 1, 4, 0, u.rtmp.mStreamId,
      UInt32.ofNat (PushCall.spsPps sps pps hsps hpps).body.length, u.packet.mNBytesRead, mem⟩,
      u.mTimestamp, ?_, hkept.trans hsize, hclock, rfl, hcontent 0 mem rfl hbegins⟩
    simp only [PushCall.run, RtmpUtils.pushSPSPPS, hmem, bind, Except.bind, hlength, ofInt_natCast]
  | h264 nal isIdr hnal =>
    obtain ⟨mem, hmem, hkept, hbegins⟩ := RtmpUtils.h264Body_begins u.packet.reset.mBody nal isIdr
      (by rw [RTMPPacket.reset_mBody, hsize]; exact hnal)
    have hlength : (nal.length : Int) + 9 = ((PushCall.h264 nal isIdr hnal).body.length : Nat) := by
      rw [body, length_naluBody]
      omega
    have htime : UInt32.ofInt u.mTimestamp = (PushCall.h264 nal isIdr hnal).time n := by
      rw [hclock, time]
      exact congrArg UInt32.ofInt (by omega)
    have hnext : u.mTimestamp + 40 = 40 * (n + (PushCall.h264 nal isIdr hnal).frames : Nat) := by
      rw [frames]
      omega
    refine ⟨⟨rtmpPacketSizeLarge, rtmpPacketTypeVideo, 1, 4, UInt32.ofInt u.mTimestamp,
      u.rtmp.mStreamId, UInt32.ofNat (PushCall.h264 nal isIdr hnal).body.length, 0, mem⟩,
      u.mTimestamp + 40, ?_, hkept.trans hsize, hnext, rfl, hcontent _ mem htime hbegins⟩
    simp only [PushCall.run, RtmpUtils.pushH264Data, hmem, bind, Except.bind, hlength,
      ofInt_natCast]
    rfl

/-- The connection of a publisher behind `n` frames, while every packet is written. -/
structure Streams (sid : Int) (n : Nat) (u : RtmpUtils Link) : Prop where
  ready : u.Ready sid
  connected : u.rtmp.connected = true
  clock : u.mTimestamp = 40 * n
  chunk : 0 < u.rtmp.io.writer.mOutChunkSize

/-- A call writes its packet to the link. -/
theorem Streams.step {sid : Int} (hlo : -2 ^ 31 ≤ sid) (hhi : sid < 2 ^ 31) {n : Nat}
    {u : RtmpUtils Link} (h : Streams sid n u) (c : PushCall) :
    ∃ u' status message, c.run Link.send u = .ok (u', status, message) ∧ u'.Ready sid ∧
      (u'.rtmp.io.done = true → Streams sid (n + c.frames) u' ∧
        u'.rtmp.io.writer.mOutChunkSize = u.rtmp.io.writer.mOutChunkSize ∧
        u'.rtmp.io.writer.mVecChannelsOut =
          (c.packet sid n).keep u.rtmp.io.writer.mVecChannelsOut ∧
        u'.rtmp.io.writer.mSb.wire = u.rtmp.io.writer.mSb.wire ++
          packetStream u.rtmp.io.writer.mOutChunkSize.toNat u.rtmp.io.writer.mVecChannelsOut
            [c.packet sid n]) := by
  obtain ⟨u', status, message, hrun, hstep⟩ := RtmpUtils.run_step Link.send c h.ready
  refine ⟨u', status, message, hrun, hstep.ready, fun hdone => ?_⟩
  obtain ⟨packet, mTimestamp, hsend, hsize, hclock, halike⟩ :=
    c.run_eq Link.send h.ready h.connected h.clock
  rw [hsend, RtmpUtils.send, RTMP.isConnected, if_pos h.connected] at hrun
  have hp := c.requested_packet hlo hhi n
  have hsendable : packet.Sendable := by
    refine halike.sendable hp.toSendable ?_
    rw [hsize]
    exact c.toNat_length_body.le.trans c.length_body_le
  obtain ⟨mem, ⟨sb, ending⟩, hwrite, -, hwrites⟩ :=
    rtmpSendPacket_eq h.chunk hsendable u.rtmp.io.room
  rcases hlink : Link.send u.rtmp.io packet with ⟨io, reply⟩
  have hio : io = ⟨u.rtmp.io.writer.written packet (sb, ending), mem.byte,
      u.rtmp.io.done && ending == .done⟩ ∧ reply.closed = (ending == .closed) := by
    rw [Link.send, hwrite] at hlink
    cases hlink
    exact ⟨rfl, rfl⟩
  rw [RTMP.sendPacket_eq hlink hsendable.fits] at hrun
  cases hrun
  obtain ⟨rfl, hclosed⟩ := hio
  simp only [RTMP.io_answered] at hdone ⊢
  rw [Bool.and_eq_true, beq_iff_eq] at hdone
  obtain ⟨-, rfl⟩ := hdone
  have hopen : (u.rtmp.answered ⟨u.rtmp.io.writer.written packet (sb, .done), mem.byte,
      u.rtmp.io.done && WriteStatus.done == .done⟩ reply).connected = true := by
    rw [RTMP.connected_answered, h.connected, hclosed]
    rfl
  obtain ⟨taken, hwire, -, hall⟩ := hwrites
  obtain ⟨hstream, hkeep⟩ := halike.packetStream u.rtmp.io.writer.mOutChunkSize.toNat
    u.rtmp.io.writer.mVecChannelsOut
  refine ⟨⟨hstep.ready, hopen, hclock, ?_⟩, rfl, hkeep, ?_⟩
  · rw [RTMP.io_answered]
    exact h.chunk
  · rw [← hstream]
    simp only [packetStream, List.append_nil]
    exact hwire.trans (congrArg _ (hall rfl))

/-- A link that has failed does not recover. -/
theorem Link.done_of_send {l : Link} {packet : RTMPPacket} (h : (l.send packet).1.done = true) :
    l.done = true := by
  unfold Link.send at h
  split at h
  · exact (Bool.and_eq_true_iff.mp h).1
  · cases h

/-- A packet that is written behind others means that they were. -/
theorem RtmpUtils.done_of_send {u u' : RtmpUtils Link} {status : Int} {message : Option Message}
    (h : u.send Link.send = .ok (u', status, message)) (hdone : u'.rtmp.io.done = true) :
    u.rtmp.io.done = true := by
  unfold RtmpUtils.send at h
  split at h
  · obtain ⟨⟨rtmp, packet, ok, message'⟩, hsend, h⟩ := bind_eq_ok h
    cases h
    unfold RTMP.sendPacket at hsend
    split at hsend <;> cases hsend
    simp only [RTMP.io_answered] at hdone
    exact Link.done_of_send hdone
  · cases h
    exact hdone

/-- So does a call. -/
theorem PushCall.done_of_run {u u' : RtmpUtils Link} {c : PushCall} {status : Int}
    {message : Option Message} (h : c.run Link.send u = .ok (u', status, message))
    (hdone : u'.rtmp.io.done = true) : u.rtmp.io.done = true := by
  cases c with
  | spsPps sps pps hsps hpps =>
    obtain ⟨_, -, hsend⟩ := bind_eq_ok h
    have hsent := RtmpUtils.done_of_send hsend hdone
    exact hsent
  | h264 nal isIdr hnal =>
    obtain ⟨_, -, hsend⟩ := bind_eq_ok h
    have hsent := RtmpUtils.done_of_send hsend hdone
    exact hsent

/-- The calls return, and if the link has not failed behind them it never has. -/
theorem pushRun_link {sid : Int} (calls : List PushCall) {u : RtmpUtils Link} (h : u.Ready sid) :
    ∃ u' messages, pushRun Link.send u calls = .ok (u', messages) ∧
      (u'.rtmp.io.done = true → u.rtmp.io.done = true) := by
  induction calls generalizing u with
  | nil => exact ⟨u, [], rfl, id⟩
  | cons c calls ih =>
    obtain ⟨u₁, status, message, hrun, hstep⟩ := RtmpUtils.run_step Link.send c h
    obtain ⟨u', messages, hruns, hdone⟩ := ih hstep.ready
    refine ⟨u', message.toList ++ messages, ?_, fun h' => PushCall.done_of_run hrun (hdone h')⟩
    simp only [pushRun, hrun, hruns, bind, Except.bind]
    rfl

/-- The calls write their packets to the link. -/
theorem pushRun_wire {sid : Int} (hlo : -2 ^ 31 ≤ sid) (hhi : sid < 2 ^ 31)
    (calls : List PushCall) {n : Nat} {u : RtmpUtils Link} (h : Streams sid n u) :
    ∃ u' messages, pushRun Link.send u calls = .ok (u', messages) ∧
      (u'.rtmp.io.done = true →
        u'.rtmp.io.writer.mSb.wire = u.rtmp.io.writer.mSb.wire ++
          packetStream u.rtmp.io.writer.mOutChunkSize.toNat u.rtmp.io.writer.mVecChannelsOut
            (callPackets sid n calls)) := by
  induction calls generalizing u n with
  | nil => exact ⟨u, [], rfl, fun _ => (List.append_nil _).symm⟩
  | cons c calls ih =>
    obtain ⟨u₁, status, message, hrun, hready, hwritten⟩ := h.step hlo hhi c
    obtain ⟨u', messages, hruns, hdone⟩ := pushRun_link calls hready
    refine ⟨u', message.toList ++ messages, ?_, fun h' => ?_⟩
    · simp only [pushRun, hrun, hruns, bind, Except.bind]
      rfl
    · obtain ⟨hstreams, hchunk, hout, hwire⟩ := hwritten (hdone h')
      obtain ⟨u'', messages', hruns', hrest⟩ := ih hstreams
      rw [hruns] at hruns'
      cases hruns'
      rw [hrest h', hwire, hchunk, hout, List.append_assoc, callPackets]
      simp only [packetStream, List.append_nil]

/-- What was sent last: a frame at a time, or parameter sets of a size behind a packet of a
time. -/
inductive LastCall where
  | frame (t : UInt32)
  | sets (t : UInt32) (size : Nat)

/-- The frames of a stream, and what was sent last. -/
structure CallState where
  frames : Nat
  last : LastCall

namespace CallState

/-- A stream behind the publish command. -/
def init : CallState := ⟨0, .frame 0⟩

def step (s : CallState) (c : PushCall) : CallState :=
  match c, s.last with
  | .h264 .., _ => ⟨s.frames + 1, .frame (c.time s.frames)⟩
  | .spsPps .., .frame t => ⟨s.frames, .sets t c.body.length⟩
  | .spsPps .., .sets _ _ => ⟨s.frames, .sets 0 c.body.length⟩

/-- Parameter sets do not repeat others of their size that came behind a later frame. -/
def Fresh (s : CallState) (c : PushCall) : Prop :=
  match c, s.last with
  | .spsPps .., .sets t size => size = c.body.length → t = 0
  | _, _ => True

/-- The channel of the stream. -/
def Describes (s : CallState) (sid : Int) (wire : ChannelWire) : Prop :=
  wire.streamId = sid ∧
    match s.last with
    | .frame t => wire.prev.mNTimeStamp = t ∧ wire.field = t
    | .sets t size => wire.prev = ⟨rtmpPacketTypeVideo, 0, UInt32.ofNat size⟩ ∧ size ≤ 524288 ∧
        (wire.field = 0 ↔ t = 0)

variable {s : CallState} {sid : Int} {wire : ChannelWire} {c : PushCall} {w : WireState}

/-- Bodies of one size have one length. -/
theorem ofNat_size_inj {m n : Nat} (hm : m ≤ 524288) (hn : n ≤ 524288) :
    UInt32.ofNat m = UInt32.ofNat n ↔ m = n := by
  rw [← UInt32.toNat_inj, UInt32.toNat_ofNat', UInt32.toNat_ofNat']
  omega

/-- Parameter sets repeat what was sent last exactly if that were parameter sets of their
size, or something of the start of the stream. -/
theorem field_of_prev (h : s.Describes sid wire) :
    (wire.prev = ⟨rtmpPacketTypeVideo, 0, UInt32.ofNat c.body.length⟩ → wire.field = 0) ↔
      match s.last with
      | .frame _ => True
      | .sets t size => size = c.body.length → t = 0 := by
  obtain ⟨-, hlast⟩ := h
  rcases hs : s.last with t | ⟨t, size⟩ <;> simp only [hs] at hlast ⊢
  · refine iff_of_true (fun hprev => ?_) trivial
    rw [hlast.2, ← hlast.1, hprev]
  · rw [hlast.1, ← hlast.2.2, ← ofNat_size_inj hlast.2.1 c.length_body_le]
    simp

/-- A call heeds what the wire knows exactly if it is fresh. -/
theorem heeds_iff (h : s.Describes sid wire) (hwire : w.channels 4 = some wire) :
    w.Heeds (c.packet sid s.frames) ↔ s.Fresh c := by
  have hfield := field_of_prev (c := c) h
  have hknown : w.knownStreamId 4 = sid := by
    rw [WireState.knownStreamId, hwire]
    exact h.1
  cases c with
  | h264 nal isIdr hnal => exact iff_of_true (.inl rfl) trivial
  | spsPps sps pps hsps hpps =>
    have hlarge : rtmpPacketSizeMedium ≠ rtmpPacketSizeLarge := by decide
    refine Iff.trans ?_ (hfield.trans ?_)
    · constructor
      · rintro (hlarge' | ⟨-, hall⟩) hprev
        · exact absurd hlarge' hlarge
        · exact hall wire hwire hprev
      · refine fun himp => .inr ⟨hknown, fun wire' hwire' hprev => ?_⟩
        cases hwire.symm.trans hwire'
        exact himp hprev
    · unfold Fresh
      rcases s.last with t | ⟨t, size⟩ <;> rfl

/-- A fresh call leads to what the state behind it describes. -/
theorem Describes.step (h : s.Describes sid wire) (hwire : w.channels 4 = some wire)
    (hfresh : s.Fresh c) (hp : (c.packet sid s.frames).Requested) :
    (s.step c).Describes sid (w.next (c.packet sid s.frames)) := by
  have hcase := w.case_header hp.request
  generalize (w.header (c.packet sid s.frames)).1 = headerType,
    (w.header (c.packet sid s.frames)).2 = t', w.next (c.packet sid s.frames) = wire' at hcase ⊢
  have hlarge : rtmpPacketSizeMedium ≠ rtmpPacketSizeLarge := by decide
  cases c with
  | h264 nal isIdr hnal =>
    cases hcase with
    | large _ => exact ⟨rfl, rfl, rfl⟩
    | first h _ => exact absurd h.symm hlarge
    | same h _ _ => exact absurd h.symm hlarge
    | other h _ _ _ => exact absurd h.symm hlarge
  | spsPps sps pps hsps hpps =>
    have hfield := field_of_prev (c := .spsPps sps pps hsps hpps) h
    obtain ⟨hsid, hlast⟩ := h
    have hsize := (PushCall.spsPps sps pps hsps hpps).length_body_le
    cases hcase with
    | large h => exact absurd h hlarge
    | first _ hnone => cases hwire.symm.trans hnone
    | same _ hsome hprev =>
      cases hwire.symm.trans hsome
      rcases hs : s.last with t | ⟨t, size⟩ <;>
        simp only [hs, Fresh, CallState.step, Describes] at hlast hfield hfresh ⊢
      · exact ⟨hsid, rfl, hsize, by rw [hlast.2]⟩
      · exact ⟨hsid, rfl, hsize, iff_of_true (hfield.mpr hfresh hprev) trivial⟩
    | other _ hsome _ _ =>
      cases hwire.symm.trans hsome
      rcases hs : s.last with t | ⟨t, size⟩ <;>
        simp only [hs, Fresh, CallState.step, Describes] at hlast hfresh ⊢
      · refine ⟨hsid, rfl, hsize, ?_⟩
        rw [hlast.1, UInt32.sub_eq_iff_eq_add, UInt32.zero_add]
        exact eq_comm
      · refine ⟨hsid, rfl, hsize, iff_of_true ?_ trivial⟩
        rw [hlast.1]
        exact UInt32.sub_self 0

end CallState

/-- The packets of the calls heed what the wire knows exactly if the calls are fresh. -/
theorem forall_heeds_iff {sid : Int} (hlo : -2 ^ 31 ≤ sid) (hhi : sid < 2 ^ 31)
    (calls : List PushCall) {s : CallState} {w : WireState} {wire : ChannelWire}
    (h : s.Describes sid wire) (hwire : w.channels 4 = some wire) :
    (∀ p ∈ trace WireState.step w (callPackets sid s.frames calls), p.1.Heeds p.2) ↔
      ∀ p ∈ trace CallState.step s calls, p.1.Fresh p.2 := by
  induction calls generalizing s w wire with
  | nil => exact forall_trace_nil.trans forall_trace_nil.symm
  | cons c calls ih =>
    rw [callPackets, forall_trace_cons, forall_trace_cons, CallState.heeds_iff h hwire]
    refine and_congr_right fun hfresh => ?_
    have hframes : s.frames + c.frames = (s.step c).frames := by
      unfold CallState.step
      cases c <;> rcases s.last with _ | _ <;> rfl
    rw [hframes]
    exact ih (h.step hwire hfresh (c.requested_packet hlo hhi s.frames))
      (by rw [WireState.channels_step]; exact Function.update_self _ _ _)

/-- All packets of a run are asked for. -/
theorem requested_callPackets {sid : Int} (hlo : -2 ^ 31 ≤ sid) (hhi : sid < 2 ^ 31)
    (calls : List PushCall) (n : Nat) : ∀ p ∈ callPackets sid n calls, p.Requested := by
  induction calls generalizing n with
  | nil => exact fun _ h => nomatch h
  | cons c calls ih =>
    exact List.forall_mem_cons.mpr ⟨c.requested_packet hlo hhi n, ih _⟩

/-- The packets behind which a stream is published: the last one is the publish command. -/
structure Publishes (sid : Int) (setup : List RTMPPacket) : Prop where
  requested : ∀ p ∈ setup, p.Requested
  publish : ∃ packets command, setup = packets ++ [command] ∧
    command.mHeaderType = rtmpPacketSizeLarge ∧ command.mNChannel = 4 ∧
    command.mNTimeStamp = 0 ∧ command.mNInfoField2 = sid

/-- The channel of the stream behind the publish command. -/
theorem Publishes.describes {sid : Int} {setup : List RTMPPacket} (h : Publishes sid setup) :
    ∃ wire, (after WireState.step .init setup).channels 4 = some wire ∧
      CallState.init.Describes sid wire := by
  obtain ⟨packets, command, rfl, hlarge, hchannel, htime, hinfo⟩ := h.publish
  have hp := h.requested command (by simp)
  have hmedium : rtmpPacketSizeLarge ≠ rtmpPacketSizeMedium := by decide
  rw [after_append]
  refine ⟨(after WireState.step .init packets).next command, ?_, ?_⟩
  · rw [after_cons, after_nil, WireState.channels_step, hchannel]
    exact Function.update_self _ _ _
  · have hcase := (after WireState.step .init packets).case_header hp.request
    generalize ((after WireState.step .init packets).header command).1 = headerType,
      ((after WireState.step .init packets).header command).2 = t,
      (after WireState.step .init packets).next command = wire at hcase ⊢
    cases hcase with
    | large _ => exact ⟨hinfo, htime, htime⟩
    | first h _ => exact absurd (hlarge.symm.trans h) hmedium
    | same h _ _ => exact absurd (hlarge.symm.trans h) hmedium
    | other h _ _ _ => exact absurd (hlarge.symm.trans h) hmedium

/-- Behind the publish command, the peer reads from the wire what the calls on the publisher
say, exactly if no parameter sets repeat others of their size that come at once behind a
frame of a later time. -/
theorem pushRun_heard {sid : Int} (hlo : -2 ^ 31 ≤ sid) (hhi : sid < 2 ^ 31) {w w₁ : ChunkWriter}
    (hchunk : 0 < w.mOutChunkSize) (hout : w.mVecChannelsOut = fun _ => none)
    (hwire : w.mSb.wire = []) {setup : List ((Nat → UInt8) × RTMPPacket)}
    (hsetup : Publishes sid (setup.map Prod.snd))
    (hsent : rtmpSendPackets w setup = .ok (w₁, .done))
    (room : Nat → UInt8) (calls : List PushCall)
    (hheeds : ∀ p ∈ trace WireState.step .init (setup.map Prod.snd), p.1.Heeds p.2) :
    ∃ u messages, pushRun Link.send (.initRtmpHandle ⟨true, sid, ⟨w₁, room, true⟩⟩ 0) calls =
        .ok (u, messages) ∧
      (u.rtmp.io.done = true → ∃ run,
        rtmpReadPackets (u.rtmp.io.writer.mSb.wire.length + 1)
          { ChunkReader.init with mInChunkSize := w.mOutChunkSize } .zero
          u.rtmp.io.writer.mSb.wire = .ok run ∧
        (run.packets = (setup.map Prod.snd ++ callPackets sid 0 calls).map RTMPPacket.content ↔
          ∀ p ∈ trace CallState.step .init calls, p.1.Fresh p.2)) := by
  have hsendable : ∀ p ∈ setup, p.2.Sendable := fun p h =>
    (hsetup.requested p.2 (List.mem_map_of_mem h)).toSendable
  obtain ⟨hchunk₁, hout₁⟩ := rtmpSendPackets_done hchunk hsendable hsent
  have hwire₁ : w₁.mSb.wire =
      packetStream w.mOutChunkSize.toNat (fun _ => none) (setup.map Prod.snd) := by
    obtain ⟨w', status, hsent', taken, htaken, -, hall⟩ := rtmpSendPackets_eq hchunk hsendable
    cases hsent.symm.trans hsent'
    rw [hwire, List.nil_append] at htaken
    rw [htaken, hall rfl, hout]
  have hstreams : Streams sid 0 (.initRtmpHandle ⟨true, sid, ⟨w₁, room, true⟩⟩ 0) :=
    ⟨RtmpUtils.ready_initRtmpHandle _ _, rfl, rfl, hchunk₁ ▸ hchunk⟩
  obtain ⟨u, messages, hrun, hwritten⟩ := pushRun_wire hlo hhi calls hstreams
  refine ⟨u, messages, hrun, fun hdone => ?_⟩
  have hrequested : ∀ p ∈ setup.map Prod.snd ++ callPackets sid 0 calls, p.Requested :=
    List.forall_mem_append.mpr ⟨hsetup.requested, requested_callPackets hlo hhi calls 0⟩
  obtain ⟨run, hread, hheard⟩ := rtmpReadPackets_packetStream hchunk hrequested
  have hwhole : u.rtmp.io.writer.mSb.wire = packetStream w.mOutChunkSize.toNat (fun _ => none)
      (setup.map Prod.snd ++ callPackets sid 0 calls) := by
    rw [packetStream_append, ← hwire₁, ← hout, ← hout₁, ← hchunk₁]
    exact hwritten hdone
  obtain ⟨wire, hchannel, hdescribes⟩ := hsetup.describes
  rw [hwhole]
  refine ⟨run, hread, ?_⟩
  rw [hheard, heard_eq_content_iff hrequested, trace_append, List.forall_mem_append,
    and_iff_right hheeds]
  exact forall_heeds_iff hlo hhi calls hdescribes hchannel

/-- A publish command on stream one, sent in one piece. -/
def sampleCommand : RTMPPacket := ⟨0, 0x14, 0, 4, 0, 1, 2, 0, .fill 2 5⟩

def sampleWriter : ChunkWriter := ⟨128, fun _ => none, ⟨[.sent 14, .sent 100, .sent 100,
  .sent 100, .sent 100], []⟩⟩

/-- The writer behind the command. -/
def sampleLink : Link where
  writer := sampleWriter.written sampleCommand
    (⟨[.sent 100, .sent 100, .sent 100, .sent 100],
      [4, 0, 0, 0, 0, 0, 2, 0x14, 1, 0, 0, 0, 5, 5]⟩, .done)
  room _ := 0
  done := true

/-- The stream that the sample publishes: a parameter set, two frames, a parameter set. -/
def sampleCalls : List PushCall :=
  [.spsPps [0x67, 66, 0, 30] [0x68] (by decide) (by decide), .h264 [0x65] true (by decide),
    .h264 [0x41] false (by decide), .spsPps [0x67, 66, 0, 30] [0x68] (by decide) (by decide)]

/-- All of the sample is read back. -/
theorem pushRun_heard_sample :
    ∃ u messages run, pushRun Link.send (.initRtmpHandle ⟨true, 1, sampleLink⟩ 0) sampleCalls =
        .ok (u, messages) ∧
      rtmpReadPackets (u.rtmp.io.writer.mSb.wire.length + 1)
        { ChunkReader.init with mInChunkSize := sampleWriter.mOutChunkSize } .zero
        u.rtmp.io.writer.mSb.wire = .ok run ∧
      run.packets = ([sampleCommand] ++ callPackets 1 0 sampleCalls).map RTMPPacket.content := by
  have hrequested : sampleCommand.Requested :=
    ⟨⟨⟨by decide, by decide, by decide, by decide, by decide⟩, ⟨by decide, by decide⟩, by decide,
      by decide, by decide⟩, .inl rfl, by decide⟩
  have hsetup : Publishes 1 ([((fun _ => 0 : Nat → UInt8), sampleCommand)].map Prod.snd) :=
    ⟨List.forall_mem_singleton.mpr hrequested, [], sampleCommand, rfl, rfl, rfl, rfl, rfl⟩
  obtain ⟨u, messages, hrun, hread⟩ := pushRun_heard (by decide) (by decide)
    (show 0 < sampleWriter.mOutChunkSize by decide) rfl rfl hsetup
    (show rtmpSendPackets sampleWriter _ = .ok (sampleLink.writer, .done) from rfl) (fun _ => 0)
    sampleCalls (List.forall_mem_singleton.mpr (.inl rfl))
  have hdone : (pushRun Link.send (.initRtmpHandle ⟨true, 1, sampleLink⟩ 0) sampleCalls).map
      (fun x => x.1.rtmp.io.done) = .ok true := by rfl
  change pushRun Link.send (.initRtmpHandle ⟨true, 1, sampleLink⟩ 0) sampleCalls = _ at hrun
  rw [hrun] at hdone
  obtain ⟨run, hok, hiff⟩ := hread (Except.ok.inj hdone)
  refine ⟨u, messages, run, hrun, hok, hiff.mpr ?_⟩
  simp only [sampleCalls, forall_trace_cons, forall_trace_nil]
  exact ⟨trivial, trivial, trivial, trivial, trivial⟩

end Jrtplib4Android
