import Jrtplib4Android.Core.Loop
import Jrtplib4Android.Sender.Session

/-!
# The H.264 sender

`CRTPSender`: parameter sets and short NAL units leave in one packet, longer
ones as a train of FU-A fragments, forwarded RTP data as it comes. A call
returns the sender afterwards, the packets it handed to `SendPacket` in order,
and how it ended; a NAL unit is the part of an input block behind its start code.
-/

namespace Jrtplib4Android

open CSem

/-- `MAX_RTP_PKT_LENGTH`. -/
def maxRtpPktLength : Nat := 1100

/-- `SEND_LENGTH`, the size of `sendbuf`. -/
def sendLength : Nat := 1150

/-- `H264`, the payload type. -/
def h264 : UInt8 := 96

/-- `CRTPSender`: the session it is, and the members the send paths use. -/
structure CRTPSender (τ : Type) extends RTPSession τ where
  mCount : Nat
  mFrameRate : Int

/-- How a call of a send function ends. -/
inductive Outcome where
  /-- A `return` statement. -/
  | ret (b : Bool)
  /-- Control reaches the closing brace of the function. -/
  | fallsOff
  /-- An access leaves defined behaviour. -/
  | fault (f : Fault)
  deriving DecidableEq, Repr

/-- One call: the sender afterwards, what it handed to `SendPacket`, how it ended. -/
structure Sending (τ : Type) where
  sender : CRTPSender τ
  handed : List Handed
  outcome : Outcome

/-- `NALU_HEADER` and `FU_INDICATOR`, which have the same layout. -/
structure NaluHeader where
  type : BitVec 5
  nri : BitVec 2
  f : BitVec 1

/-- `FU_HEADER`. -/
structure FuHeader where
  type : BitVec 5
  r : BitVec 1
  e : BitVec 1
  s : BitVec 1

/-- The first bit-field takes the lowest bits. -/
def NaluHeader.toByte (h : NaluHeader) : UInt8 := ⟨h.f ++ h.nri ++ h.type⟩

/-- The first bit-field takes the lowest bits. -/
def FuHeader.toByte (h : FuHeader) : UInt8 := ⟨h.s ++ h.e ++ h.r ++ h.type⟩

/-- Assignment to a bit-field keeps the low bits of the value. -/
def toField (w : Nat) (v : UInt8) : BitVec w := v.toBitVec.setWidth w

/-- The `F` and `NRI` assignments made from the first byte of the NAL unit. -/
def naluHeaderOf (b0 : UInt8) (type : BitVec 5) : NaluHeader where
  f := toField 1 (b0 &&& 0x80)
  nri := toField 2 ((b0 &&& 0x60) >>> 5)
  type := type

/-- The `FU_HEADER` assignments made from the first byte of the NAL unit. -/
def fuHeaderOf (b0 : UInt8) (s e : BitVec 1) : FuHeader where
  type := toField 5 (b0 &&& 0x1f)
  r := 0
  e := e
  s := s

/-- `CheckError`. -/
def checkError (rtperr : Int) : Bool := !decide (rtperr < 0)

/-- `FindStartCode2`: the three byte start code. -/
def findStartCode2 (buf : Block) : Except Fault Bool := buf.startsWith 0 [0, 0, 1]

/-- `FindStartCode3`: the four byte start code. -/
def findStartCode3 (buf : Block) : Except Fault Bool := buf.startsWith 0 [0, 0, 0, 1]

/-- Start code removal: the offset of `pSendbuf` and the length behind it. -/
def stripStartCode (buf : Block) (buflen : Nat) : Except Fault (Nat × Nat) := do
  if ← findStartCode2 buf then return (3, buflen - 3)
  else if ← findStartCode3 buf then return (4, buflen - 4)
  else return (0, buflen)

/-- `sendbuf` of the single NAL branch: the header bit-fields, then the copy to `sendbuf + 1`. -/
def singleNalu (buf : Block) (pSendbuf buflen : Nat) : Except Fault Block := do
  let b0 ← buf.load pSendbuf
  let sendbuf ← (Block.fill sendLength 0).store 0 (naluHeaderOf b0 (toField 5 (b0 &&& 0x1f))).toByte
  memcpy sendbuf 1 buf (some pSendbuf) buflen

/-- `sendbuf` of one fragment: indicator, header, and `n` bytes of the unit from `off` on. -/
def fuFragment (buf : Block) (pSendbuf off n : Nat) (s e : BitVec 1) : Except Fault Block := do
  let b0 ← buf.load pSendbuf
  let sendbuf ← (Block.fill sendLength 0).store 0 (naluHeaderOf b0 28).toByte
  let sendbuf ← sendbuf.store 1 (fuHeaderOf b0 s e).toByte
  memcpy sendbuf 2 buf (some (pSendbuf + off)) n

variable {τ : Type}

namespace CRTPSender

/-- The call counter behind the log line. -/
def count (s : CRTPSender τ) : CRTPSender τ :=
  { s with mCount := (if s.mCount % 100 = 0 then 0 else s.mCount) + 1 }

/-- The timestamp units of one frame: `pts`. -/
def pts (s : CRTPSender τ) : UInt32 :=
  if 0 < s.mFrameRate then UInt32.ofNat (90000 / s.mFrameRate).toNat else 3000

/-- `this->SetDefaultMark(m)`. -/
def setDefaultMark (s : CRTPSender τ) (m : Bool) : CRTPSender τ :=
  { s with toRTPSession := s.toRTPSession.setDefaultMark m }

/-- `this->SetDefaultTimestampIncrement(timestampinc)`. -/
def setDefaultTimestampIncrement (s : CRTPSender τ) (timestampinc : UInt32) : CRTPSender τ :=
  { s with toRTPSession := s.toRTPSession.setDefaultTimestampIncrement timestampinc }

/-- `SetParamsForSendingH264`. -/
def setParamsForSendingH264 (s : CRTPSender τ) : CRTPSender τ :=
  let s := { s with toRTPSession := s.toRTPSession.setDefaultPayloadType h264 }
  let s := s.setDefaultMark true
  s.setDefaultTimestampIncrement s.pts

/-- The sender as `initParam` leaves it: the session is created with SSRC 100 and the
default packet size, and the H.264 defaults are set. -/
def opened (trans : τ) (framerate : Int) (timestamp : UInt32) (seqnr : UInt16) : CRTPSender τ :=
  setParamsForSendingH264
    { created := true
      packetbuilder := .opened RTPPacketBuilder.rtpDefaultPacketSize 100 timestamp seqnr
      trans := trans
      mCount := 0
      mFrameRate := framerate }

/-- `status = SendPacket(data, len); return CheckError(status);` -/
def sendAndCheck (net : τ → BuiltPacket → Int × τ) (s : CRTPSender τ) (data : Block)
    (len : Nat) : Sending τ :=
  match s.toRTPSession.sendPacket net data len with
  | .error f => ⟨s, [], .fault f⟩
  | .ok (session, h) => ⟨{ s with toRTPSession := session }, [h], .ret (checkError h.status)⟩

/-- The parameter set branch: the unit is copied as it is. -/
def sendSpsOrPps (net : τ → BuiltPacket → Int × τ) (s : CRTPSender τ) (buf : Block)
    (pSendbuf buflen : Nat) : Sending τ :=
  let s := s.setDefaultMark false
  match memcpy (Block.fill sendLength 0) 0 buf (some pSendbuf) buflen with
  | .error f => ⟨s, [], .fault f⟩
  | .ok sendbuf => s.sendAndCheck net sendbuf buflen

/-- The single NAL unit branch. -/
def sendSingle (net : τ → BuiltPacket → Int × τ) (s : CRTPSender τ) (buf : Block)
    (pSendbuf buflen : Nat) : Sending τ :=
  let s := s.setDefaultMark true
  match singleNalu buf pSendbuf buflen with
  | .error f => ⟨s, [], .fault f⟩
  | .ok sendbuf => s.sendAndCheck net sendbuf buflen

/-- The variables of the fragment loop. -/
structure FuState (τ : Type) where
  sender : CRTPSender τ
  handed : List Handed
  /-- The index of the fragment to send next. -/
  t : Nat

/-- Hand over one fragment; go round with the next index if it is accepted. -/
def fuSend (net : τ → BuiltPacket → Int × τ) (st : FuState τ) (fragment : Except Fault Block)
    (len : Nat) (mark : Bool) (timestampinc : UInt32) : Pass (FuState τ) (Sending τ) :=
  match fragment with
  | .error f => .leave ⟨st.sender, st.handed, .fault f⟩
  | .ok sendbuf =>
    match st.sender.toRTPSession.sendPacketWith net sendbuf len h264 mark timestampinc with
    | .error f => .leave ⟨st.sender, st.handed, .fault f⟩
    | .ok (session, h) =>
      let sender := { st.sender with toRTPSession := session }
      if checkError h.status then .again ⟨sender, st.handed ++ [h], st.t + 1⟩
      else .leave ⟨sender, st.handed ++ [h], .ret false⟩

/-- One pass of the fragment loop: `k` whole packet lengths and `l` bytes over. -/
def fuPass (net : τ → BuiltPacket → Int × τ) (buf : Block) (pSendbuf buflen k l : Nat)
    (st : FuState τ) : Pass (FuState τ) (Sending τ) :=
  if ¬ (st.t < k ∨ (st.t = k ∧ 0 < l)) then .leave ⟨st.sender, st.handed, .fallsOff⟩
  else if st.t = 0 then
    fuSend net st (fuFragment buf pSendbuf (st.t * maxRtpPktLength + 1) maxRtpPktLength 1 0)
      (maxRtpPktLength + 2) false 0
  else if st.t < k then
    fuSend net st (fuFragment buf pSendbuf (st.t * maxRtpPktLength + 1) maxRtpPktLength 0 0)
      (maxRtpPktLength + 2) false 0
  else if k = st.t then
    let st := { st with sender := st.sender.setDefaultMark true }
    let iSendLen := if 0 < l then buflen - st.t * maxRtpPktLength else maxRtpPktLength
    fuSend net st (fuFragment buf pSendbuf (st.t * maxRtpPktLength + 1) (iSendLen - 1) 0 1)
      (iSendLen - 1 + 2) true st.sender.pts
  else .again st

/-- The fragment branch. -/
def sendFragments (net : τ → BuiltPacket → Int × τ) (s : CRTPSender τ) (buf : Block)
    (pSendbuf buflen : Nat) : Sending τ :=
  let s := s.setDefaultMark false
  let k := buflen / maxRtpPktLength
  let l := buflen % maxRtpPktLength
  (loop (fuPass net buf pSendbuf buflen k l) (k + 2) ⟨s, [], 0⟩).getD ⟨s, [], .fault .spin⟩

/-- `SendH264Nalu`. -/
def sendH264Nalu (net : τ → BuiltPacket → Int × τ) (s : CRTPSender τ) (m_h264Buf : Block)
    (buflen : Int) (isSpsOrPps : Bool) : Sending τ :=
  if buflen < 4 then ⟨s, [], .ret false⟩
  else match stripStartCode m_h264Buf buflen.toNat with
    | .error f => ⟨s, [], .fault f⟩
    | .ok (pSendbuf, buflen) =>
      let s := s.count
      if isSpsOrPps then s.sendSpsOrPps net m_h264Buf pSendbuf buflen
      else if buflen ≤ maxRtpPktLength then s.sendSingle net m_h264Buf pSendbuf buflen
      else s.sendFragments net m_h264Buf pSendbuf buflen

/-- `SendRtpData`; `lastTime` only feeds a log line that is commented out. -/
def sendRtpData (net : τ → BuiltPacket → Int × τ) (s : CRTPSender τ) (m_rtpBuf : Block)
    (buflen : Int) (isMarker : Bool) : Sending τ :=
  if buflen < 4 then ⟨s, [], .ret false⟩
  else
    let s := s.count
    if isMarker then
      let s := s.setDefaultMark true
      let s := s.setDefaultTimestampIncrement s.pts
      s.sendAndCheck net m_rtpBuf buflen.toNat
    else
      let s := s.setDefaultMark false
      let s := s.setDefaultTimestampIncrement 0
      s.sendAndCheck net m_rtpBuf buflen.toNat

@[simp] theorem pts_setDefaultMark (s : CRTPSender τ) (m : Bool) :
    (s.setDefaultMark m).pts = s.pts := rfl

end CRTPSender

end Jrtplib4Android
