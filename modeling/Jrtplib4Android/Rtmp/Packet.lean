import Jrtplib4Android.Core.Block

/-!
# RTMP packets and the connection

The part of `librtmp` that the publisher drives. `RTMP_SendPacket` is a parameter
of the model: it is free to scribble on the packet body and on the header type, to
fail, and to close the connection. Each call of it is recorded as a `Message`:
the packet as it was handed over.
-/

namespace Jrtplib4Android

open CSem

def rtmpPacketSizeLarge : UInt8 := 0
def rtmpPacketSizeMedium : UInt8 := 1

/-- `RTMP_PACKET_TYPE_VIDEO`. -/
def rtmpPacketTypeVideo : UInt8 := 0x09

/-- `RTMPPacket`; the body is the allocation behind the header room. -/
structure RTMPPacket where
  mHeaderType : UInt8
  mPacketType : UInt8
  mHasAbsTimestamp : UInt8
  mNChannel : Int
  mNTimeStamp : UInt32
  mNInfoField2 : Int
  mNBodySize : UInt32
  mNBytesRead : UInt32
  mBody : Block

namespace RTMPPacket

/-- `RTMPPacket_Reset`, which leaves the body pointer alone. -/
def reset (p : RTMPPacket) : RTMPPacket where
  mHeaderType := 0
  mPacketType := 0
  mHasAbsTimestamp := 0
  mNChannel := 0
  mNTimeStamp := 0
  mNInfoField2 := 0
  mNBodySize := 0
  mNBytesRead := 0
  mBody := p.mBody

/-- `RTMPPacket_Alloc`, which `RTMPPacket_Reset` follows at both of its uses here:
the body is zeroed by `calloc`. -/
def alloc (nSize : Nat) : RTMPPacket where
  mHeaderType := 0
  mPacketType := 0
  mHasAbsTimestamp := 0
  mNChannel := 0
  mNTimeStamp := 0
  mNInfoField2 := 0
  mNBodySize := 0
  mNBytesRead := 0
  mBody := .fill nSize 0

@[simp] theorem reset_mBody (p : RTMPPacket) : p.reset.mBody = p.mBody := rfl

end RTMPPacket

/-- The members of `RTMP` that the publisher reads, and the state of the network. -/
structure RTMP (ω : Type) where
  /-- Whether `m_sb.sb_socket` differs from `-1`. -/
  connected : Bool
  mStreamId : Int
  io : ω

/-- What one call of `RTMP_SendPacket` does. -/
structure SendReply where
  /-- The result of the call. -/
  ok : Bool
  /-- Whether a failed write has closed the connection. -/
  closed : Bool
  /-- The header type it leaves in the packet. -/
  headerType : UInt8
  /-- The bytes it leaves in the body. -/
  body : Nat → UInt8

/-- A packet as it is handed to `RTMP_SendPacket`. -/
structure Message where
  headerType : UInt8
  packetType : UInt8
  hasAbsTimestamp : UInt8
  channel : Int
  timestamp : UInt32
  streamId : Int
  bodySize : UInt32
  body : List UInt8
  deriving DecidableEq

variable {ω : Type}

namespace RTMPPacket

/-- What `RTMP_SendPacket` is given. -/
def message (p : RTMPPacket) : Message where
  headerType := p.mHeaderType
  packetType := p.mPacketType
  hasAbsTimestamp := p.mHasAbsTimestamp
  channel := p.mNChannel
  timestamp := p.mNTimeStamp
  streamId := p.mNInfoField2
  bodySize := p.mNBodySize
  body := p.mBody.slice 0 p.mNBodySize.toNat

/-- The packet as the call leaves it. -/
def returned (p : RTMPPacket) (reply : SendReply) : RTMPPacket :=
  { p with mHeaderType := reply.headerType, mBody := ⟨p.mBody.size, reply.body⟩ }

end RTMPPacket

namespace RTMP

/-- `RTMP_IsConnected`. -/
def isConnected (r : RTMP ω) : Bool := r.connected

/-- The connection after `RTMP_Close`. -/
def close (r : RTMP ω) : RTMP ω := { r with connected := false, mStreamId := -1 }

/-- The connection as a call of `RTMP_SendPacket` leaves it. -/
def answered (r : RTMP ω) (io : ω) (reply : SendReply) : RTMP ω :=
  if reply.closed then { r with io := io }.close else { r with io := io }

/-- `RTMP_SendPacket(r, packet, 0)`: the connection, the packet and the result
afterwards, and the message handed over. -/
def sendPacket (send : ω → RTMPPacket → ω × SendReply) (r : RTMP ω) (packet : RTMPPacket) :
    Except Fault (RTMP ω × RTMPPacket × Bool × Message) :=
  if packet.mBody.size < packet.mNBodySize.toNat then .error .read
  else
    let (io, reply) := send r.io packet
    .ok (r.answered io reply, packet.returned reply, reply.ok, packet.message)

/-- A packet whose size fits its body is handed over as it is. -/
theorem sendPacket_eq {send : ω → RTMPPacket → ω × SendReply} {r : RTMP ω} {packet : RTMPPacket}
    {io : ω} {reply : SendReply} (hsend : send r.io packet = (io, reply))
    (hsize : packet.mNBodySize.toNat ≤ packet.mBody.size) :
    r.sendPacket send packet =
      .ok (r.answered io reply, packet.returned reply, reply.ok, packet.message) := by
  have hfits : ¬ packet.mBody.size < packet.mNBodySize.toNat := by omega
  simp only [sendPacket, hfits, ite_false, hsend]

@[simp] theorem io_answered (r : RTMP ω) (io : ω) (reply : SendReply) :
    (r.answered io reply).io = io := by
  cases h : reply.closed <;> simp [answered, close, h]

/-- The connection stays open exactly if the call does not close it. -/
@[simp] theorem connected_answered (r : RTMP ω) (io : ω) (reply : SendReply) :
    (r.answered io reply).connected = (r.connected && !reply.closed) := by
  cases h : reply.closed <;> simp [answered, close, h]

/-- A connection that stays open keeps its stream id. -/
theorem streamId_answered {r : RTMP ω} {io : ω} {reply : SendReply}
    (h : (r.answered io reply).connected = true) :
    (r.answered io reply).mStreamId = r.mStreamId := by
  cases hc : reply.closed with
  | true => simp [hc] at h
  | false => simp [answered, hc]

end RTMP

end Jrtplib4Android
