import Mathlib.Tactic.SplitIfs
import Jrtplib4Android.Core.Block

/-!
# RTP session and packet builder

The part of the RTP library a sender drives: `RTPPacketBuilder` numbers and
stamps packets, `RTPSession` builds one and hands it to its transmitter. The
transmitter is a parameter: a function on its own state that answers every
packet with a status, negative when the packet is refused. Each call of
`SendPacket` is recorded as a `Handed` entry.
-/

namespace Jrtplib4Android

open CSem

/-- `RTPPacketBuilder`, without the wall clock fields that only RTCP reads. -/
structure RTPPacketBuilder where
  init : Bool
  maxpacksize : Nat
  numcsrcs : Nat
  numpayloadbytes : UInt32
  numpackets : UInt32
  ssrc : UInt32
  timestamp : UInt32
  seqnr : UInt16
  defaulttimestampinc : UInt32
  defaultpayloadtype : UInt8
  defaultmark : Bool
  deftsset : Bool
  defptset : Bool
  defmarkset : Bool
  deriving DecidableEq, Repr

/-- A packet as it goes to the transmitter: the header fields and the payload. -/
structure BuiltPacket where
  payloadtype : UInt8
  mark : Bool
  seqnr : UInt16
  timestamp : UInt32
  ssrc : UInt32
  payload : List UInt8
  deriving DecidableEq, Repr

/-- What one call of `SendPacket` was given, and what it did to the session clock. -/
structure Handed where
  payload : List UInt8
  payloadtype : UInt8
  mark : Bool
  /-- The timestamp of the packet: the session's when the call was made. -/
  timestamp : UInt32
  /-- The session's timestamp after the call. -/
  next : UInt32
  /-- The status `SendPacket` returned. -/
  status : Int
  deriving DecidableEq, Repr

/-- `RTPSession` with its transmitter state. -/
structure RTPSession (τ : Type) where
  created : Bool
  packetbuilder : RTPPacketBuilder
  trans : τ

variable {τ : Type}

namespace RTPPacketBuilder

def errDefaultMarkNotSet : Int := -16
def errDefaultPayloadTypeNotSet : Int := -17
def errDefaultTsIncNotSet : Int := -18
def errNotInit : Int := -20
def errBadPayloadType : Int := -21
def errDataExceedsMaxSize : Int := -22
def errIllegalBufferSize : Int := -24
def errTooManyCsrcs : Int := -26

/-- `RTP_MAXCSRCS`. -/
def rtpMaxCsrcs : Nat := 15

/-- `sizeof(RTPHeader)`. -/
def rtpHeaderSize : Nat := 12

/-- `RTP_DEFAULTPACKETSIZE`. -/
def rtpDefaultPacketSize : Nat := 1400

/-- The builder after `Init` and `AdjustSSRC`: the start of clock and sequence
numbers is random, no default is set. -/
def opened (maxpacksize : Nat) (ssrc timestamp : UInt32) (seqnr : UInt16) : RTPPacketBuilder where
  init := true
  maxpacksize := maxpacksize
  numcsrcs := 0
  numpayloadbytes := 0
  numpackets := 0
  ssrc := ssrc
  timestamp := timestamp
  seqnr := seqnr
  defaulttimestampinc := 0
  defaultpayloadtype := 0
  defaultmark := false
  deftsset := false
  defptset := false
  defmarkset := false

/-- The checks of the `RTPPacket` constructor and of `RTPPacket::BuildPacket`
for a packet without header extension; `0` when the packet can be built. -/
def creationError (b : RTPPacketBuilder) (payloadtype : UInt8) (payloadlen : Nat) : Int :=
  if b.maxpacksize = 0 then errIllegalBufferSize
  else if rtpMaxCsrcs < b.numcsrcs then errTooManyCsrcs
  else if 127 < payloadtype then errBadPayloadType
  else if payloadtype = 72 ∨ payloadtype = 73 then errBadPayloadType
  else if b.maxpacksize < rtpHeaderSize + 4 * b.numcsrcs + payloadlen then errDataExceedsMaxSize
  else 0

/-- The builder after a packet of `payloadlen` bytes. -/
def advance (b : RTPPacketBuilder) (payloadlen : Nat) (timestampinc : UInt32) :
    RTPPacketBuilder :=
  { b with
    numpayloadbytes := b.numpayloadbytes + UInt32.ofNat payloadlen
    numpackets := b.numpackets + 1
    timestamp := b.timestamp + timestampinc
    seqnr := b.seqnr + 1 }

/-- `PrivateBuildPacket`: the status, the builder afterwards and the packet built. -/
def privateBuildPacket (b : RTPPacketBuilder) (data : Block) (len : Nat) (pt : UInt8)
    (mark : Bool) (timestampinc : UInt32) :
    Except Fault (Int × RTPPacketBuilder × Option BuiltPacket) :=
  let status := b.creationError pt len
  if status < 0 then .ok (status, b, none)
  else if data.size < len then .error .read
  else .ok (0, b.advance len timestampinc,
    some ⟨pt, mark, b.seqnr, b.timestamp, b.ssrc, data.slice 0 len⟩)

/-- `BuildPacket(data, len, pt, mark, timestampinc)`. -/
def buildPacketWith (b : RTPPacketBuilder) (data : Block) (len : Nat) (pt : UInt8)
    (mark : Bool) (timestampinc : UInt32) :
    Except Fault (Int × RTPPacketBuilder × Option BuiltPacket) :=
  if b.init then b.privateBuildPacket data len pt mark timestampinc
  else .ok (errNotInit, b, none)

/-- `BuildPacket(data, len)`: type, marker and increment are the session defaults. -/
def buildPacket (b : RTPPacketBuilder) (data : Block) (len : Nat) :
    Except Fault (Int × RTPPacketBuilder × Option BuiltPacket) :=
  if b.init = false then .ok (errNotInit, b, none)
  else if b.defptset = false then .ok (errDefaultPayloadTypeNotSet, b, none)
  else if b.defmarkset = false then .ok (errDefaultMarkNotSet, b, none)
  else if b.deftsset = false then .ok (errDefaultTsIncNotSet, b, none)
  else b.privateBuildPacket data len b.defaultpayloadtype b.defaultmark b.defaulttimestampinc

/-- `SetDefaultPayloadType`. -/
def setDefaultPayloadType (b : RTPPacketBuilder) (pt : UInt8) : RTPPacketBuilder :=
  if b.init then { b with defptset := true, defaultpayloadtype := pt } else b

/-- `SetDefaultMark`. -/
def setDefaultMark (b : RTPPacketBuilder) (m : Bool) : RTPPacketBuilder :=
  if b.init then { b with defmarkset := true, defaultmark := m } else b

/-- `SetDefaultTimestampIncrement`. -/
def setDefaultTimestampIncrement (b : RTPPacketBuilder) (timestampinc : UInt32) :
    RTPPacketBuilder :=
  if b.init then { b with deftsset := true, defaulttimestampinc := timestampinc } else b

end RTPPacketBuilder

namespace RTPSession

def errNotCreated : Int := -62

/-- `SendPacket` once the builder has answered: a built packet goes to the
transmitter, whose status is the result. -/
def transmit (net : τ → BuiltPacket → Int × τ) (s : RTPSession τ) (payload : List UInt8)
    (pt : UInt8) (mark : Bool)
    (built : Except Fault (Int × RTPPacketBuilder × Option BuiltPacket)) :
    Except Fault (RTPSession τ × Handed) :=
  if s.created = false then
    .ok (s, ⟨payload, pt, mark, s.packetbuilder.timestamp, s.packetbuilder.timestamp,
      errNotCreated⟩)
  else match built with
    | .error f => .error f
    | .ok (status, b, none) =>
      .ok ({ s with packetbuilder := b },
        ⟨payload, pt, mark, s.packetbuilder.timestamp, b.timestamp, status⟩)
    | .ok (_, b, some packet) =>
      let (status, trans) := net s.trans packet
      .ok ({ s with packetbuilder := b, trans := trans },
        ⟨payload, pt, mark, s.packetbuilder.timestamp, b.timestamp, min status 0⟩)

/-- `SendPacket(data, len)`. -/
def sendPacket (net : τ → BuiltPacket → Int × τ) (s : RTPSession τ) (data : Block)
    (len : Nat) : Except Fault (RTPSession τ × Handed) :=
  s.transmit net (data.slice 0 len) s.packetbuilder.defaultpayloadtype
    s.packetbuilder.defaultmark (s.packetbuilder.buildPacket data len)

/-- `SendPacket(data, len, pt, mark, timestampinc)`. -/
def sendPacketWith (net : τ → BuiltPacket → Int × τ) (s : RTPSession τ) (data : Block)
    (len : Nat) (pt : UInt8) (mark : Bool) (timestampinc : UInt32) :
    Except Fault (RTPSession τ × Handed) :=
  s.transmit net (data.slice 0 len) pt mark
    (s.packetbuilder.buildPacketWith data len pt mark timestampinc)

/-- `SetDefaultPayloadType`. -/
def setDefaultPayloadType (s : RTPSession τ) (pt : UInt8) : RTPSession τ :=
  if s.created then
    { s with packetbuilder := s.packetbuilder.setDefaultPayloadType pt } else s

/-- `SetDefaultMark`. -/
def setDefaultMark (s : RTPSession τ) (m : Bool) : RTPSession τ :=
  if s.created then { s with packetbuilder := s.packetbuilder.setDefaultMark m } else s

/-- `SetDefaultTimestampIncrement`. -/
def setDefaultTimestampIncrement (s : RTPSession τ) (timestampinc : UInt32) : RTPSession τ :=
  if s.created then
    { s with packetbuilder := s.packetbuilder.setDefaultTimestampIncrement timestampinc } else s

/-- The builder reads the payload only when the packet fits, so a payload that is
inside its block never faults. -/
theorem privateBuildPacket_ok (b : RTPPacketBuilder) {data : Block} {len : Nat} (pt : UInt8)
    (mark : Bool) (inc : UInt32) (hlen : len ≤ data.size) :
    ∃ r, b.privateBuildPacket data len pt mark inc = .ok r := by
  have hr : ¬ data.size < len := by omega
  unfold RTPPacketBuilder.privateBuildPacket
  by_cases h : b.creationError pt len < 0
  · simp only [h, ite_true, Except.ok.injEq, exists_eq']
  · simp only [h, hr, ite_false, Except.ok.injEq, exists_eq']

/-- What the builder answers: an error and no packet, or the packet and the builder
moved on by the increment. -/
theorem privateBuildPacket_cases {b b' : RTPPacketBuilder} {data : Block} {len : Nat}
    {pt : UInt8} {mark : Bool} {inc : UInt32} {status : Int} {packet : Option BuiltPacket}
    (h : b.privateBuildPacket data len pt mark inc = .ok (status, b', packet)) :
    (packet = none ∧ b' = b ∧ status < 0) ∨
      (∃ p, packet = some p) ∧ b' = b.advance len inc ∧ len ≤ data.size := by
  unfold RTPPacketBuilder.privateBuildPacket at h
  by_cases hs : b.creationError pt len < 0
  · simp only [hs, ite_true, Except.ok.injEq, Prod.mk.injEq] at h
    obtain ⟨rfl, rfl, rfl⟩ := h
    exact Or.inl ⟨rfl, rfl, hs⟩
  · by_cases hr : data.size < len
    · simp [hs, hr] at h
    · simp only [hs, hr, ite_false, Except.ok.injEq, Prod.mk.injEq] at h
      obtain ⟨rfl, rfl, rfl⟩ := h
      exact Or.inr ⟨⟨_, rfl⟩, rfl, by omega⟩

/-- Every call that does not fault records exactly the bytes and the marker it was given. -/
theorem transmit_recorded {net : τ → BuiltPacket → Int × τ} {s s' : RTPSession τ}
    {payload : List UInt8} {pt : UInt8} {mark : Bool}
    {built : Except Fault (Int × RTPPacketBuilder × Option BuiltPacket)} {e : Handed}
    (h : s.transmit net payload pt mark built = .ok (s', e)) :
    e.payload = payload ∧ e.mark = mark := by
  unfold transmit at h
  split at h
  · cases h; exact ⟨rfl, rfl⟩
  · split at h <;> cases h
    · exact ⟨rfl, rfl⟩
    · exact ⟨rfl, rfl⟩

/-- A call faults only if building the packet does. -/
theorem transmit_ok {net : τ → BuiltPacket → Int × τ} (s : RTPSession τ)
    (payload : List UInt8) (pt : UInt8) (mark : Bool)
    {built : Except Fault (Int × RTPPacketBuilder × Option BuiltPacket)} {r}
    (hb : built = .ok r) : ∃ s' e, s.transmit net payload pt mark built = .ok (s', e) := by
  subst hb
  obtain ⟨status, b, packet⟩ := r
  unfold transmit
  split
  · exact ⟨_, _, rfl⟩
  · cases packet <;> exact ⟨_, _, rfl⟩

/-- A call that is not refused had a packet built. -/
theorem transmit_built {net : τ → BuiltPacket → Int × τ} {s s' : RTPSession τ}
    {payload : List UInt8} {pt : UInt8} {mark : Bool} {status : Int} {b : RTPPacketBuilder}
    {packet : Option BuiltPacket} {e : Handed}
    (h : s.transmit net payload pt mark (.ok (status, b, packet)) = .ok (s', e))
    (hs : packet = none → status < 0) (he : 0 ≤ e.status) :
    s.created = true ∧ s'.created = true ∧ s'.packetbuilder = b ∧ (∃ p, packet = some p) ∧
      e.timestamp = s.packetbuilder.timestamp ∧ e.next = b.timestamp := by
  unfold transmit at h
  cases hc : s.created with
  | false =>
    simp only [hc, ite_true, Except.ok.injEq, Prod.mk.injEq] at h
    obtain ⟨-, rfl⟩ := h
    simp only [errNotCreated] at he
    omega
  | true =>
    simp only [hc, Bool.true_eq_false, ite_false] at h
    cases packet with
    | none =>
      simp only [Except.ok.injEq, Prod.mk.injEq] at h
      obtain ⟨-, rfl⟩ := h
      have hneg := hs rfl
      simp only at he
      omega
    | some p =>
      simp only [Except.ok.injEq, Prod.mk.injEq] at h
      obtain ⟨rfl, rfl⟩ := h
      exact ⟨rfl, rfl, rfl, ⟨p, rfl⟩, rfl, rfl⟩

/-- The session after an accepted packet: built with increment `inc`, so the clock
moved from the packet's timestamp by exactly `inc`. -/
structure Accepted (s s' : RTPSession τ) (e : Handed) (len : Nat) (inc : UInt32) : Prop where
  created : s.created = true
  created' : s'.created = true
  builder : s'.packetbuilder = s.packetbuilder.advance len inc
  timestamp : e.timestamp = s.packetbuilder.timestamp
  next : e.next = s.packetbuilder.timestamp + inc

private theorem transmit_accepted {net : τ → BuiltPacket → Int × τ} {s s' : RTPSession τ}
    {data : Block} {len : Nat} {payload : List UInt8} {pt pt' : UInt8} {mark mark' : Bool}
    {inc : UInt32} {e : Handed}
    (h : s.transmit net payload pt mark
      (s.packetbuilder.privateBuildPacket data len pt' mark' inc) = .ok (s', e))
    (he : 0 ≤ e.status) : Accepted s s' e len inc := by
  cases hb : s.packetbuilder.privateBuildPacket data len pt' mark' inc with
  | error f =>
    rw [hb] at h
    unfold transmit at h
    split at h <;> cases h
    simp only [errNotCreated] at he
    omega
  | ok r =>
    obtain ⟨status, b, packet⟩ := r
    rw [hb] at h
    have hcases := privateBuildPacket_cases hb
    have hnone : packet = none → status < 0 := by
      rintro rfl
      rcases hcases with ⟨_, _, hs⟩ | ⟨⟨_, hp⟩, _⟩
      · exact hs
      · cases hp
    obtain ⟨hc, hc', hb', ⟨p, rfl⟩, ht, hn⟩ := transmit_built h hnone he
    rcases hcases with ⟨hp, _⟩ | ⟨_, hadv, _⟩
    · cases hp
    · subst hadv
      exact ⟨hc, hc', hb', ht, hn⟩

/-- A call whose builder refuses without building is never accepted. -/
private theorem transmit_refused {net : τ → BuiltPacket → Int × τ} {s s' : RTPSession τ}
    {payload : List UInt8} {pt : UInt8} {mark : Bool} {status : Int} {e : Handed}
    (h : s.transmit net payload pt mark (.ok (status, s.packetbuilder, none)) = .ok (s', e))
    (hs : status < 0) : e.status < 0 := by
  by_contra he
  obtain ⟨-, -, -, ⟨p, hp⟩, -⟩ := transmit_built h (fun _ => hs) (by omega)
  cases hp

theorem sendPacketWith_recorded {net : τ → BuiltPacket → Int × τ} {s s' : RTPSession τ}
    {data : Block} {len : Nat} {pt : UInt8} {mark : Bool} {inc : UInt32} {e : Handed}
    (h : s.sendPacketWith net data len pt mark inc = .ok (s', e)) :
    e.payload = data.slice 0 len ∧ e.mark = mark :=
  transmit_recorded h

/-- A payload inside its block is always handed over, accepted or refused. -/
theorem sendPacketWith_ok (net : τ → BuiltPacket → Int × τ) (s : RTPSession τ) {data : Block}
    {len : Nat} (pt : UInt8) (mark : Bool) (inc : UInt32) (hlen : len ≤ data.size) :
    ∃ s' e, s.sendPacketWith net data len pt mark inc = .ok (s', e) := by
  have hb : ∃ r, s.packetbuilder.buildPacketWith data len pt mark inc = .ok r := by
    unfold RTPPacketBuilder.buildPacketWith
    split
    · exact privateBuildPacket_ok _ pt mark inc hlen
    · exact ⟨_, rfl⟩
  obtain ⟨r, hr⟩ := hb
  exact transmit_ok s _ pt mark hr

/-- With explicit arguments an accepted packet moves the clock by the given increment. -/
theorem sendPacketWith_accepted {net : τ → BuiltPacket → Int × τ} {s s' : RTPSession τ}
    {data : Block} {len : Nat} {pt : UInt8} {mark : Bool} {inc : UInt32} {e : Handed}
    (h : s.sendPacketWith net data len pt mark inc = .ok (s', e)) (he : 0 ≤ e.status) :
    Accepted s s' e len inc := by
  unfold sendPacketWith RTPPacketBuilder.buildPacketWith at h
  split at h
  · exact transmit_accepted h he
  · have := transmit_refused h (by decide)
    omega

theorem sendPacket_recorded {net : τ → BuiltPacket → Int × τ} {s s' : RTPSession τ}
    {data : Block} {len : Nat} {e : Handed} (h : s.sendPacket net data len = .ok (s', e)) :
    e.payload = data.slice 0 len ∧ e.mark = s.packetbuilder.defaultmark :=
  transmit_recorded h

/-- A payload inside its block is always handed over, accepted or refused. -/
theorem sendPacket_ok (net : τ → BuiltPacket → Int × τ) (s : RTPSession τ) (data : Block)
    {n : Nat} (hlen : n ≤ data.size) :
    ∃ s' e, s.sendPacket net data n = .ok (s', e) := by
  have hb : ∃ r, s.packetbuilder.buildPacket data n = .ok r := by
    unfold RTPPacketBuilder.buildPacket
    split_ifs
    · exact ⟨_, rfl⟩
    · exact ⟨_, rfl⟩
    · exact ⟨_, rfl⟩
    · exact ⟨_, rfl⟩
    · exact privateBuildPacket_ok _ _ _ _ hlen
  obtain ⟨r, hr⟩ := hb
  exact transmit_ok s _ _ _ hr

/-- Without arguments an accepted packet moves the clock by the session default. -/
theorem sendPacket_accepted {net : τ → BuiltPacket → Int × τ} {s s' : RTPSession τ}
    {data : Block} {len : Nat} {e : Handed} (h : s.sendPacket net data len = .ok (s', e))
    (he : 0 ≤ e.status) : Accepted s s' e len s.packetbuilder.defaulttimestampinc := by
  unfold sendPacket RTPPacketBuilder.buildPacket at h
  have hrefused {status : Int} (hs : status < 0)
      (hh : s.transmit net (data.slice 0 len) s.packetbuilder.defaultpayloadtype
        s.packetbuilder.defaultmark (.ok (status, s.packetbuilder, none)) = .ok (s', e)) :
      Accepted s s' e len s.packetbuilder.defaulttimestampinc := by
    have := transmit_refused hh hs
    omega
  split_ifs at h
  · exact hrefused (by decide) h
  · exact hrefused (by decide) h
  · exact hrefused (by decide) h
  · exact hrefused (by decide) h
  · exact transmit_accepted h he

end RTPSession

end Jrtplib4Android
