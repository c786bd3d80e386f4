import Jrtplib4Android.Core.Run
import Jrtplib4Android.Receiver.Stop
import Jrtplib4Android.Sender.Timestamp

/-!
# Receiving and forwarding

The receiver delivers whole frames, and `sendByte_` puts each buffer into one packet. A
frame gets through exactly if it fits in a packet.
-/

namespace Jrtplib4Android

open CSem

variable {τ : Type}

/-- `sendByte_` with the sender of the handle, which is `none` for a null pointer and for
the handle 0. -/
def sendByte (net : τ → BuiltPacket → Int × τ) (sender : Option (CRTPSender τ)) (src : Block)
    (byteLength : Int) (isSpsOrMarker isRtpData : Bool) : Option (CRTPSender τ) × Outcome :=
  match sender with
  | none => (none, .ret false)
  | some crtpSender =>
    let result :=
      if isRtpData then crtpSender.sendRtpData net src byteLength isSpsOrMarker
      else crtpSender.sendH264Nalu net src byteLength isSpsOrMarker
    (some result.sender, result.outcome)

/-- A transmitter that takes every packet, and keeps what it sent to the destination. -/
def record (sent : List BuiltPacket) (packet : BuiltPacket) : Int × List BuiltPacket :=
  (0, sent ++ [packet])

/-- The most payload bytes of a packet of the default size. -/
def maxPayload : Nat := RTPPacketBuilder.rtpDefaultPacketSize - RTPPacketBuilder.rtpHeaderSize

/-- A sender whose session is up, with the default packet size and the H.264 defaults. -/
structure CRTPSender.Up (s : CRTPSender τ) : Prop extends s.Ready where
  maxpacksize : s.packetbuilder.maxpacksize = RTPPacketBuilder.rtpDefaultPacketSize
  numcsrcs : s.packetbuilder.numcsrcs = 0
  defptset : s.packetbuilder.defptset = true
  defaultpayloadtype : s.packetbuilder.defaultpayloadtype = h264
  defmarkset : s.packetbuilder.defmarkset = true
  deftsset : s.packetbuilder.deftsset = true

/-- What becomes of a buffer: it leaves in one packet, or it is refused. -/
structure Passed (s : CRTPSender (List BuiltPacket)) (data : List UInt8)
    (r : Sending (List BuiltPacket)) : Prop where
  up : r.sender.Up
  sent : data.length ≤ maxPayload → r.outcome = .ret true ∧
    r.sender.trans.map BuiltPacket.payload = s.trans.map BuiltPacket.payload ++ [data]
  refused : maxPayload < data.length → r.outcome = .ret false ∧ r.sender.trans = s.trans

namespace CRTPSender

theorem up_opened (trans : τ) (framerate : Int) (timestamp : UInt32) (seqnr : UInt16) :
    (opened trans framerate timestamp seqnr).Up :=
  ⟨⟨rfl, rfl⟩, rfl, rfl, rfl, rfl, rfl, rfl⟩

theorem Up.count {s : CRTPSender τ} (h : s.Up) : s.count.Up := { h with }

theorem Up.setDefaultMark {s : CRTPSender τ} (h : s.Up) (m : Bool) :
    (s.setDefaultMark m).Up ∧ (s.setDefaultMark m).trans = s.trans := by
  rw [h.setDefaultMark_eq]
  exact ⟨{ h with defmarkset := rfl }, rfl⟩

theorem Up.setDefaultTimestampIncrement {s : CRTPSender τ} (h : s.Up) (inc : UInt32) :
    (s.setDefaultTimestampIncrement inc).Up ∧
      (s.setDefaultTimestampIncrement inc).trans = s.trans := by
  rw [h.setDefaultTimestampIncrement_eq]
  exact ⟨{ h with deftsset := rfl }, rfl⟩

/-- The builder takes a payload that fits in a packet, and no other. -/
theorem Up.creationError_eq {s : CRTPSender τ} (h : s.Up) (n : Nat) :
    s.packetbuilder.creationError s.packetbuilder.defaultpayloadtype n =
      if n ≤ maxPayload then 0 else RTPPacketBuilder.errDataExceedsMaxSize := by
  rw [RTPPacketBuilder.creationError, h.maxpacksize, h.numcsrcs, h.defaultpayloadtype,
    if_neg (by decide), if_neg (by decide), if_neg (by decide), if_neg (by decide)]
  have hmax : maxPayload = RTPPacketBuilder.rtpDefaultPacketSize -
      RTPPacketBuilder.rtpHeaderSize := rfl
  have hsize : RTPPacketBuilder.rtpDefaultPacketSize = 1400 := rfl
  have hheader : RTPPacketBuilder.rtpHeaderSize = 12 := rfl
  by_cases hfit : n ≤ maxPayload
  · rw [if_pos hfit, if_neg (by omega)]
  · rw [if_neg hfit, if_pos (by omega)]

variable {s : CRTPSender (List BuiltPacket)}

theorem Up.sendAndCheck_passed (h : s.Up) (data : List UInt8) :
    Passed s data (s.sendAndCheck record (.ofList data) data.length) := by
  have hbuild : s.packetbuilder.buildPacket (.ofList data) data.length =
      s.packetbuilder.privateBuildPacket (.ofList data) data.length
        s.packetbuilder.defaultpayloadtype s.packetbuilder.defaultmark
        s.packetbuilder.defaulttimestampinc := by
    simp only [RTPPacketBuilder.buildPacket, h.init, h.defptset, h.defmarkset, h.deftsset,
      Bool.true_eq_false, ite_false]
  have herror := h.creationError_eq data.length
  unfold sendAndCheck RTPSession.sendPacket RTPSession.transmit
  rw [hbuild, RTPPacketBuilder.privateBuildPacket, herror]
  simp only [h.created, Bool.true_eq_false, ite_false]
  by_cases hfit : data.length ≤ maxPayload
  · rw [if_pos hfit, if_neg (by decide), if_neg (by simp)]
    refine ⟨{ h with created := rfl }, fun _ => ⟨rfl, ?_⟩, fun hlt => absurd hfit (by omega)⟩
    simp [record, Block.slice_ofList]
  · rw [if_neg hfit, if_pos (by decide)]
    exact ⟨⟨⟨rfl, h.init⟩, h.maxpacksize, h.numcsrcs, h.defptset, h.defaultpayloadtype,
      h.defmarkset, h.deftsset⟩, fun hle => absurd hle hfit, fun _ => ⟨rfl, rfl⟩⟩

/-- `SendRtpData` sets its marker and increment, and then sends. -/
theorem Up.sendRtpData_passed (h : s.Up) {data : List UInt8} (h4 : 4 ≤ data.length)
    (isMarker : Bool) :
    Passed s data (s.sendRtpData record (.ofList data) data.length isMarker) := by
  have hset (m : Bool) (inc : UInt32) {r : Sending (List BuiltPacket)}
      (hr : r = ((s.count.setDefaultMark m).setDefaultTimestampIncrement inc).sendAndCheck record
        (.ofList data) data.length) : Passed s data r := by
    obtain ⟨hmark, htrans⟩ := h.count.setDefaultMark m
    obtain ⟨hinc, htrans'⟩ := hmark.setDefaultTimestampIncrement inc
    have hcount : s.count.trans = s.trans := rfl
    have hpassed := hinc.sendAndCheck_passed data
    rw [← hr] at hpassed
    obtain ⟨hup, hsent, hrefused⟩ := hpassed
    rw [htrans', htrans, hcount] at hsent hrefused
    exact ⟨hup, hsent, hrefused⟩
  unfold sendRtpData
  rw [if_neg (by omega)]
  cases isMarker with
  | true => exact hset true _ rfl
  | false => exact hset false 0 rfl

/-- A buffer of less than four bytes is refused. -/
theorem sendRtpData_short (s : CRTPSender τ) (net : τ → BuiltPacket → Int × τ)
    {data : List UInt8} (h4 : data.length < 4) (isMarker : Bool) :
    s.sendRtpData net (.ofList data) data.length isMarker = ⟨s, [], .ret false⟩ := by
  unfold sendRtpData
  rw [if_pos (by omega)]

end CRTPSender

/-- A handle that receives and forwards, with the frames delivered and those of them that
`sendByte_` did not accept. -/
structure ForwardState where
  receiver : CRTPReceiver
  globals : PsGlobals
  sender : Option (CRTPSender (List BuiltPacket))
  delivered : List Frame
  refused : List Frame

namespace ForwardState

/-- A frame is passed on with its marker. -/
def forward (s : ForwardState) (frame : Frame) : ForwardState :=
  let (sender, outcome) :=
    sendByte record s.sender (.ofList frame.data) frame.data.length frame.isMarker true
  { s with
    sender := sender
    delivered := s.delivered ++ [frame]
    refused := if outcome = .ret true then s.refused else s.refused ++ [frame] }

/-- A received packet, and what is delivered with it; a run ends with the first packet that
leaves defined memory. -/
def step (s : Option ForwardState) (packet : RTPPacket) : Option ForwardState :=
  s.bind fun s =>
    match processRtpPacket s.receiver s.globals packet with
    | .error _ => none
    | .ok (receiver, globals, effect) =>
      let s := { s with receiver := receiver, globals := globals }
      some (effect.frame.elim s s.forward)

/-- What has left as RTP payload. -/
def payloads (s : ForwardState) : List (List UInt8) :=
  (s.sender.elim [] fun crtpSender => crtpSender.trans).map BuiltPacket.payload

/-- The buffers of four bytes or more that were delivered were accepted, and are what has
been sent. -/
structure Faithful (s : ForwardState) : Prop where
  accepted : ∀ frame ∈ s.refused, frame.data.length < 4
  sent : s.payloads = (s.delivered.map Frame.data).filter fun data => 4 ≤ data.length

/-- The sender's session is up, and the buffer is the one that the library allocated. -/
structure Running (s : ForwardState) : Prop where
  size : s.globals.psBuf.size = psBufSize
  up : ∃ crtpSender, s.sender = some crtpSender ∧ crtpSender.Up

/-- The packet makes the receiver deliver a frame that fits in no packet. -/
def Oversized (s : ForwardState) (packet : RTPPacket) : Prop :=
  ∃ n, maxPayload < n ∧ s.globals.HandsOver packet n

variable {s : ForwardState}

theorem Running.forward (h : s.Running) (frame : Frame) : (s.forward frame).Running := by
  obtain ⟨crtpSender, hsender, hup⟩ := h.up
  refine ⟨h.size, ?_⟩
  simp only [ForwardState.forward, sendByte, hsender, ite_true]
  by_cases h4 : 4 ≤ frame.data.length
  · exact ⟨_, rfl, (hup.sendRtpData_passed h4 frame.isMarker).up⟩
  · rw [CRTPSender.sendRtpData_short _ _ (by omega)]
    exact ⟨_, rfl, hup⟩

/-- A frame is passed on faithfully if and only if it fits in a packet. -/
theorem faithful_forward_iff (h : s.Running) (hfaithful : s.Faithful) (frame : Frame) :
    (s.forward frame).Faithful ↔ frame.data.length ≤ maxPayload := by
  obtain ⟨crtpSender, hsender, hup⟩ := h.up
  have hpayloads : crtpSender.trans.map BuiltPacket.payload =
      (s.delivered.map Frame.data).filter fun data => 4 ≤ data.length := by
    rw [← hfaithful.sent, payloads, hsender]
    rfl
  have hmax : maxPayload = 1388 := rfl
  by_cases h4 : 4 ≤ frame.data.length
  · obtain ⟨-, hsent, hrefused⟩ := hup.sendRtpData_passed h4 frame.isMarker
    by_cases hfit : frame.data.length ≤ maxPayload
    · refine iff_of_true ?_ hfit
      obtain ⟨hout, htrans⟩ := hsent hfit
      constructor
      · simpa [forward, sendByte, hsender, hout] using hfaithful.accepted
      · simp [payloads, forward, sendByte, hsender, htrans, hpayloads, h4]
    · refine iff_of_false (fun hforward => ?_) hfit
      obtain ⟨hout, -⟩ := hrefused (by omega)
      have hshort := hforward.accepted frame (by simp [forward, sendByte, hsender, hout])
      omega
  · refine iff_of_true ?_ (by omega)
    have hshort := crtpSender.sendRtpData_short record (by omega : frame.data.length < 4)
      frame.isMarker
    constructor
    · intro f hf
      simp only [forward, sendByte, hsender, hshort, ite_true] at hf
      rcases List.mem_append.mp hf with hf | hf
      · exact hfaithful.accepted f hf
      · rw [List.mem_singleton.mp hf]
        omega
    · simp [payloads, forward, sendByte, hsender, hshort, hpayloads, h4]

/-- A packet keeps the handle running, and what is sent faithful exactly if it is not
oversized. -/
theorem step_spec (h : s.Running) (packet : RTPPacket) :
    (∀ t ∈ step (some s) packet, t.Running) ∧
    (s.Faithful → ((∀ t ∈ step (some s) packet, t.Faithful) ↔ ¬ s.Oversized packet)) := by
  cases hok : processRtpPacket s.receiver s.globals packet with
  | error fault =>
    have hnone : step (some s) packet = none := by simp only [step, Option.bind_some, hok]
    rw [hnone]
    refine ⟨by simp, fun _ => iff_of_true (by simp) ?_⟩
    rintro ⟨n, -, hn⟩
    exact not_handsOver h.size hok n hn
  | ok result =>
    have hsize := size_of_processRtpPacket h.size hok
    have hover := handsOver_iff h.size hok
    obtain ⟨receiver, globals, effect⟩ := result
    have hrunning : { s with receiver := receiver, globals := globals }.Running := ⟨hsize, h.up⟩
    cases hframe : effect.frame with
    | none =>
      have hsome : step (some s) packet =
          some { s with receiver := receiver, globals := globals } := by
        simp only [step, Option.bind_some, hok, hframe, Option.elim_none]
      rw [hsome]
      refine ⟨by rintro t ⟨⟩; exact hrunning, fun hfaithful => iff_of_true ?_ ?_⟩
      · rintro t ⟨⟩
        exact ⟨hfaithful.accepted, hfaithful.sent⟩
      · rintro ⟨n, -, hn⟩
        obtain ⟨frame, hsome, -⟩ := (hover n).mp hn
        rw [hframe] at hsome
        cases hsome
    | some frame =>
      have hsome : step (some s) packet =
          some ({ s with receiver := receiver, globals := globals }.forward frame) := by
        simp only [step, Option.bind_some, hok, hframe, Option.elim_some]
      rw [hsome]
      refine ⟨by rintro t ⟨⟩; exact hrunning.forward frame, fun hfaithful => ?_⟩
      have hfits := faithful_forward_iff hrunning ⟨hfaithful.accepted, hfaithful.sent⟩ frame
      have hframe_iff : s.Oversized packet ↔ maxPayload < frame.data.length := by
        constructor
        · rintro ⟨n, hlt, hn⟩
          obtain ⟨frame', hsome', rfl⟩ := (hover n).mp hn
          rw [hframe] at hsome'
          cases hsome'
          exact hlt
        · exact fun hlt => ⟨_, hlt, (hover _).mpr ⟨frame, hframe, rfl⟩⟩
      rw [hframe_iff, Nat.not_lt, ← hfits]
      exact ⟨fun h => h _ rfl, by rintro h t ⟨⟩; exact h⟩

/-- A handle whose sender has just been initialised. -/
def start (receiver : CRTPReceiver) (globals : PsGlobals) (framerate : Int) (timestamp : UInt32)
    (seqnr : UInt16) : Option ForwardState :=
  some ⟨receiver, globals, some (.opened [] framerate timestamp seqnr), [], []⟩

/-- In every run of received packets, what is sent is what is delivered throughout, exactly
if no packet makes the receiver deliver a frame that fits in no packet. -/
theorem faithful_run_iff (receiver : CRTPReceiver) (globals : PsGlobals)
    (hsize : globals.psBuf.size = psBufSize) (framerate : Int) (timestamp : UInt32)
    (seqnr : UInt16) (packets : List RTPPacket) :
    (∀ n, ∀ t ∈ after step (start receiver globals framerate timestamp seqnr) (packets.take n),
      t.Faithful) ↔
      ∀ p ∈ trace step (start receiver globals framerate timestamp seqnr) packets,
        ∀ t ∈ p.1, ¬ t.Oversized p.2 := by
  have hrunning : ∀ t ∈ start receiver globals framerate timestamp seqnr, t.Running := by
    intro t ht
    rw [← Option.some.inj ht]
    exact ⟨hsize, _, rfl, CRTPSender.up_opened [] framerate timestamp seqnr⟩
  have hfaithful : ∀ t ∈ start receiver globals framerate timestamp seqnr, t.Faithful := by
    intro t ht
    rw [← Option.some.inj ht]
    exact ⟨by simp, rfl⟩
  refine forall_take_iff (J := fun s : Option ForwardState => ∀ t ∈ s, t.Running)
    (I := fun s : Option ForwardState => ∀ t ∈ s, t.Faithful) (A := fun _ _ => True)
    (G := fun s packet => ∀ t ∈ s, ¬ t.Oversized packet)
    hrunning hfaithful (fun _ _ => trivial) ?_ ?_
  · intro s packet hJ _
    cases s with
    | none => simp [step]
    | some t => exact (step_spec (hJ t rfl) packet).1
  · intro s packet hJ hI _
    cases s with
    | none => simp [step]
    | some t =>
      rw [(step_spec (hJ t rfl) packet).2 (hI t rfl)]
      exact ⟨by rintro h t ⟨⟩; exact h, fun h => h _ rfl⟩

/-- A pack with five bytes of video. -/
def fivePacket : RTPPacket :=
  plainPacket (muxed plainHeader [videoUnit [0x41, 1, 2, 3, 4] (by decide)]) (by decide)

/-- Sent twice, it is forwarded once. -/
theorem faithful_run_iff_five :
    ∃ t, after step (start ⟨0, true, 0⟩ psGlobals₀ 30 0 0) [fivePacket, fivePacket] = some t ∧
      t.Faithful ∧ t.delivered.map Frame.data = [[0x41, 1, 2, 3, 4]] := by
  have hafter : (after step (start ⟨0, true, 0⟩ psGlobals₀ 30 0 0) [fivePacket, fivePacket]).map
      (fun t => t.delivered.map Frame.data) = some [[0x41, 1, 2, 3, 4]] := by decide +kernel
  obtain ⟨t, ht, hdelivered⟩ := Option.map_eq_some_iff.mp hafter
  have hfits : ∀ p ∈ trace step (start ⟨0, true, 0⟩ psGlobals₀ 30 0 0) [fivePacket, fivePacket],
      ∀ t ∈ p.1, t.globals.psBuf.size = psBufSize ∧
        ∀ result ∈ (processRtpPacket t.receiver t.globals p.2).toOption,
          ∀ frame ∈ result.2.2.frame, frame.data.length ≤ maxPayload := by
    decide +kernel
  refine ⟨t, ht, (faithful_run_iff ⟨0, true, 0⟩ psGlobals₀ rfl 30 0 0
    [fivePacket, fivePacket]).mpr ?_ 2 t ht, hdelivered⟩
  rintro p hp t ht ⟨n, hlt, hn⟩
  obtain ⟨hsize, hframes⟩ := hfits p hp t ht
  obtain ⟨result, frame, hok, hframe, rfl⟩ :=
    (processRtpPacket_frame_iff t.receiver hsize p.2 n).mpr hn
  have hle := hframes result (by rw [hok]; rfl) frame hframe
  omega

/-- A pack with 1389 bytes of video. -/
def longPack : List UInt8 :=
  muxed plainHeader [videoUnit (List.replicate 1389 0x41) (by rw [List.length_replicate]; decide)]

theorem longPack_length : longPack.length < 2 ^ 15 := by decide +kernel

/-- A frame of one byte more than a packet takes is refused. -/
theorem not_faithful_oversized :
    (after step (start ⟨0, true, 0⟩ psGlobals₀ 30 0 0)
      [plainPacket longPack longPack_length, plainPacket longPack longPack_length]).map (fun t =>
      (t.refused.map fun frame => frame.data.length, t.payloads)) = some ([1389], []) := by
  decide +kernel

end ForwardState

end Jrtplib4Android
