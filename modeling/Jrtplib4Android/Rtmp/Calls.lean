import Jrtplib4Android.Rtmp.FlvFile
import Jrtplib4Android.Rtmp.Push

/-!
# Calls on a publisher

`pushFlvData` takes a whole FLV tag from its caller. With `PushSPSPPS` and
`PushH264Data` it shares the one packet of an `RtmpUtils`; the blocks of a call are
the memory at the caller's pointers, the array and what lies behind it.
-/

namespace Jrtplib4Android

open CSem

variable {ω : Type}

/-- `memcpy(&x, buf + i, n)` into a 32-bit variable that is zero. -/
def fieldAt (buf : Block) (i n : Nat) : Except Fault UInt32 :=
  if buf.size < i + n then .error .read else .ok (overlay 0 (buf.slice i n))

namespace RtmpUtils

/-- The call counter behind the log line of `pushFlvData`. -/
def count (u : RtmpUtils ω) : RtmpUtils ω :=
  { u with mCount := (if u.mCount % 50 = 0 then 0 else u.mCount) + 1 }

/-- `pushFlvData`. The stream id is read for the log line only. -/
def pushFlvData (net : ω → RTMPPacket → ω × SendReply) (u : RtmpUtils ω) (buf : Block)
    (length : Int) : Except Fault (RtmpUtils ω × Int × Option Message) :=
  if length < 15 then .ok (u, -1, none)
  else do
    let type ← fieldAt buf 0 1
    let dataLength ← fieldAt buf 1 3
    let dataLength := hton24 dataLength
    let timeStamp ← fieldAt buf 4 4
    let timeStamp := htontime timeStamp
    let _streamId ← fieldAt buf 8 3
    let u := u.count
    if type ≠ 0x08 ∧ type ≠ 0x09 then .ok (u, -2, none)
    else if dataLength ≠ UInt32.ofInt (length - 11 - 4) then .ok (u, -3, none)
    else do
      let body ← memcpy u.packet.mBody 0 buf (some 11) (dataLength + 11 + 4).toNat
      let packet := { u.packet with
        mBody := body
        mHeaderType := rtmpPacketSizeLarge
        mNTimeStamp := timeStamp
        mPacketType := type.toUInt8
        mNBodySize := dataLength }
      { u with packet := packet }.send net

end RtmpUtils

/-- A call of one of the two functions for encoded video. -/
inductive AvcCall where
  | spsPps (sps : Block) (spsLen : Int) (pps : Block) (ppsLen : Int)
  | h264 (data : Block) (dataLen : Int) (isIdr : Bool)

/-- A call that publishes on an initialised `RtmpUtils`. -/
inductive RtmpCall where
  | avc (c : AvcCall)
  | flvData (buf : Block) (length : Int)

/-- Make the call. -/
def AvcCall.run (net : ω → RTMPPacket → ω × SendReply) (u : RtmpUtils ω) :
    AvcCall → Except Fault (RtmpUtils ω × Int × Option Message)
  | spsPps sps spsLen pps ppsLen => u.pushSPSPPS net sps spsLen pps ppsLen
  | h264 data dataLen isIdr => u.pushH264Data net data dataLen isIdr

/-- Make the call. -/
def RtmpCall.run (net : ω → RTMPPacket → ω × SendReply) (u : RtmpUtils ω) :
    RtmpCall → Except Fault (RtmpUtils ω × Int × Option Message)
  | avc c => c.run net u
  | flvData buf length => u.pushFlvData net buf length

/-- The handle a caller holds: an initialised one, after any calls that returned. -/
inductive RtmpUtils.Reached (net : ω → RTMPPacket → ω × SendReply) : RtmpUtils ω → Prop
  | init (rtmp : RTMP ω) (mTimestamp : Int) : Reached net (initRtmpHandle rtmp mTimestamp)
  | call {u u' : RtmpUtils ω} {c : RtmpCall} {status : Int} {message : Option Message}
      (before : Reached net u) (run : c.run net u = .ok (u', status, message)) : Reached net u'

namespace RtmpUtils

/-- What every sending leaves as it was. -/
structure Kept (u u' : RtmpUtils ω) : Prop where
  size : u'.packet.mBody.size = u.packet.mBody.size
  timestamp : u'.mTimestamp = u.mTimestamp

/-- The outcomes of `send`: the packet is handed over, or the connection is closed. -/
theorem send_cases {net : ω → RTMPPacket → ω × SendReply} {u u' : RtmpUtils ω} {status : Int}
    {message : Option Message} (h : u.send net = .ok (u', status, message)) :
    Kept u u' ∧
      (u.rtmp.connected = true ∧ message = some u.packet.message ∧
          (Accepts net → u'.rtmp.connected = true) ∨
        u.rtmp.connected = false ∧ message = none ∧ u'.rtmp.connected = false) := by
  unfold send at h
  cases hconn : u.rtmp.connected with
  | false =>
    simp only [RTMP.isConnected, hconn, Bool.false_eq_true, ite_false] at h
    cases h
    exact ⟨⟨rfl, rfl⟩, Or.inr ⟨rfl, rfl, hconn⟩⟩
  | true =>
    simp only [RTMP.isConnected, hconn, ite_true, RTMP.sendPacket] at h
    split at h
    · cases h
    · cases h
      refine ⟨⟨rfl, rfl⟩, Or.inl ⟨rfl, rfl, fun haccepts => ?_⟩⟩
      simp only [RTMP.connected_answered, hconn, (haccepts u.rtmp.io u.packet).2, Bool.not_false,
        Bool.and_self]

end RtmpUtils

end Jrtplib4Android
