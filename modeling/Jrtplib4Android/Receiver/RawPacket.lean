import Jrtplib4Android.Core.Bytes
import Jrtplib4Android.Core.CInt
import Jrtplib4Android.Receiver.Accesses

/-!
# Payloads of raw packets

`RTPPacket::ParseRawPacket` finds the payload of a packet behind its CSRC list and header
extension and in front of its padding. The receiver takes everything behind the fixed header
instead; `consumed_eq_iff` says when that is the payload.
-/

namespace Jrtplib4Android

open CSem

/-- `ERR_RTP_PACKET_INVALIDPACKET`. -/
def errRtpPacketInvalidPacket : Int := -25

/-- A datagram as the transmitter hands it on. -/
structure RTPRawPacket where
  packetdata : List UInt8
  isrtp : Bool
  length_le : packetdata.length ≤ 65535

/-- The members of `RTPPacket` that are read off a raw packet. `payload` and `extension` are
offsets into the packet. -/
structure RTPPacketFields where
  hasextension : Bool
  extid : UInt16
  extensionlength : Nat
  extension : Nat
  hasmarker : Bool
  numcsrcs : Nat
  payloadtype : UInt8
  extseqnr : UInt32
  timestamp : UInt32
  ssrc : UInt32
  payload : Nat
  packetlength : Nat
  payloadlength : Nat
  deriving DecidableEq

/-- A big-endian field of `w` bytes, as `ntohs` and `ntohl` return it. -/
def loadField (b : Block) (i w : Nat) : Except Fault Nat :=
  if i + w ≤ b.size then .ok (beNat (b.slice i w)) else .error .read

/-- A field that is only there if its flag is set. -/
def loadFieldIf (c : Bool) (b : Block) (i w : Nat) : Except Fault Nat :=
  if c then loadField b i w else .ok 0

/-- A field has the value of its bytes, and one that is not there is zero. -/
theorem loadFieldIf_lt {c : Bool} {b : Block} {i w n : Nat} (h : loadFieldIf c b i w = .ok n) :
    n < 256 ^ w ∧ (c = false → n = 0) := by
  unfold loadFieldIf loadField at h
  split at h
  · rename_i hc
    split at h
    · cases h
      refine ⟨?_, fun hnot => absurd hc (by simp [hnot])⟩
      have hlt := beNat_lt (b.slice i w)
      rwa [Block.length_slice] at hlt
    · cases h
  · cases h
    exact ⟨Nat.pow_pos (by decide), fun _ => rfl⟩

namespace RTPRawPacket

/-- The first byte of the header: version, padding, extension and CSRC count. -/
def flags (rawpack : RTPRawPacket) : UInt8 := rawpack.packetdata.getD 0 0

/-- The second byte of the header: marker and payload type. -/
def kind (rawpack : RTPRawPacket) : UInt8 := rawpack.packetdata.getD 1 0

/-- `ParseRawPacket`. -/
def parseRawPacket (rawpack : RTPRawPacket) : Except Fault (Except Int RTPPacketFields) := do
  if ¬ rawpack.isrtp then return .error errRtpPacketInvalidPacket
  let packetbytes := Block.ofList rawpack.packetdata
  let packetlen := packetbytes.size
  if packetlen < rtpHeadLen then return .error errRtpPacketInvalidPacket
  if rawpack.flags >>> 6 ≠ 2 then return .error errRtpPacketInvalidPacket
  let marker := rawpack.kind >>> 7 != 0
  let payloadtype := rawpack.kind &&& 127
  if marker && payloadtype == 200 &&& 127 then return .error errRtpPacketInvalidPacket
  if marker && payloadtype == 201 &&& 127 then return .error errRtpPacketInvalidPacket
  let csrccount := (rawpack.flags &&& 15).toNat
  let payloadoffset := rtpHeadLen + csrccount * 4
  let padding := rawpack.flags >>> 5 &&& 1 != 0
  let numpadbytes ← loadFieldIf padding packetbytes (packetlen - 1) 1
  if padding && numpadbytes ≤ 0 then return .error errRtpPacketInvalidPacket
  let hasextension := rawpack.flags >>> 4 &&& 1 != 0
  let rtpextheader := payloadoffset
  let exthdrlen ← loadFieldIf hasextension packetbytes (rtpextheader + 2) 2
  let payloadoffset := if hasextension then payloadoffset + 4 + exthdrlen * 4 else payloadoffset
  let payloadlength := toInt (toSize (toSize (packetlen - numpadbytes) - payloadoffset))
  if payloadlength < 0 then return .error errRtpPacketInvalidPacket
  let extid ← loadFieldIf hasextension packetbytes rtpextheader 2
  let sequencenumber ← loadField packetbytes 2 2
  let timestamp ← loadField packetbytes 4 4
  let ssrc ← loadField packetbytes 8 4
  return .ok {
    hasextension
    extid := .ofNat extid
    extensionlength := exthdrlen * 4
    extension := if hasextension then rtpextheader + 4 else 0
    hasmarker := marker
    numcsrcs := csrccount
    payloadtype
    extseqnr := .ofNat sequencenumber
    timestamp := .ofNat timestamp
    ssrc := .ofNat ssrc
    payload := payloadoffset
    packetlength := packetlen
    payloadlength := payloadlength.toNat }

/-- The packet that the receiver is given. -/
def received (rawpack : RTPRawPacket) (fields : RTPPacketFields) : RTPPacket where
  packet := rawpack.packetdata
  seqnr := fields.extseqnr.toUInt16
  hasmarker := fields.hasmarker
  length_le := rawpack.length_le

/-- `GetPayloadData()[0, GetPayloadLength())`. -/
def payloadData (rawpack : RTPRawPacket) (fields : RTPPacketFields) : List UInt8 :=
  (rawpack.packetdata.drop fields.payload).take fields.payloadlength

/-- Where the payload of an accepted packet lies: behind the CSRC list and `ext` bytes of header
extension, and in front of `pad` bytes of padding. -/
structure Shape (rawpack : RTPRawPacket) (fields : RTPPacketFields) (ext pad : Nat) : Prop where
  header : rtpHeadLen ≤ rawpack.packetdata.length
  version : rawpack.flags >>> 6 = 2
  offset : fields.payload = rtpHeadLen + (rawpack.flags &&& 15).toNat * 4 + ext
  length : fields.payload + fields.payloadlength + pad = rawpack.packetdata.length
  extension_pos : 0 < ext ↔ rawpack.flags >>> 4 &&& 1 ≠ 0
  padding_pos : 0 < pad ↔ rawpack.flags >>> 5 &&& 1 ≠ 0

/-- A check that did not reject a packet. -/
private theorem of_check {c : Prop} [Decidable c] {x : Except Fault (Except Int RTPPacketFields)}
    {fields : RTPPacketFields}
    (h : (if c then pure (.error errRtpPacketInvalidPacket) else x) = .ok (.ok fields)) :
    ¬ c ∧ x = .ok (.ok fields) := by
  split at h
  · cases h
  · exact ⟨‹_›, h⟩

/-- The bytes of the header extension. -/
def extensionBytes (rawpack : RTPRawPacket) (exthdrlen : Nat) : Nat :=
  if (rawpack.flags >>> 4 &&& 1 != 0) = true then 4 + exthdrlen * 4 else 0

theorem csrcCount_lt (rawpack : RTPRawPacket) : (rawpack.flags &&& 15).toNat < 16 := by
  rw [UInt8.toNat_and]
  exact Nat.lt_succ_of_le Nat.and_le_right

theorem extensionBytes_pos_iff (rawpack : RTPRawPacket) (exthdrlen : Nat) :
    0 < rawpack.extensionBytes exthdrlen ↔ rawpack.flags >>> 4 &&& 1 ≠ 0 := by
  unfold extensionBytes
  split <;> simp_all

theorem extensionBytes_lt (rawpack : RTPRawPacket) {exthdrlen : Nat} (h : exthdrlen < 256 ^ 2) :
    rawpack.extensionBytes exthdrlen < 2 ^ 19 := by
  unfold extensionBytes
  split <;> omega

/-- What the checks let through: the two lengths that are loaded, and what is computed of
them. -/
theorem lengths_of_parseRawPacket {rawpack : RTPRawPacket} {fields : RTPPacketFields}
    (h : rawpack.parseRawPacket = .ok (.ok fields)) :
    ∃ numpadbytes exthdrlen : Nat, numpadbytes < 256 ^ 1 ∧ exthdrlen < 256 ^ 2 ∧
      (0 < numpadbytes ↔ rawpack.flags >>> 5 &&& 1 ≠ 0) ∧
      rtpHeadLen ≤ rawpack.packetdata.length ∧ rawpack.flags >>> 6 = 2 ∧
      fields.payload = rtpHeadLen + (rawpack.flags &&& 15).toNat * 4 +
        rawpack.extensionBytes exthdrlen ∧
      0 ≤ toInt (toSize (toSize (rawpack.packetdata.length - numpadbytes) - fields.payload)) ∧
      fields.payloadlength =
        (toInt (toSize (toSize (rawpack.packetdata.length - numpadbytes) -
          fields.payload))).toNat := by
  unfold parseRawPacket at h
  replace h := (of_check h).2
  obtain ⟨hheader, h₁⟩ := of_check h
  obtain ⟨hversion, h₂⟩ := of_check h₁
  clear h h₁
  obtain ⟨pad, hpad, h⟩ := bind_eq_ok (of_check (of_check h₂).2).2
  clear h₂
  obtain ⟨hpadding, h₁⟩ := of_check h
  obtain ⟨exthdrlen, hext, h₂⟩ := bind_eq_ok h₁
  clear h h₁
  obtain ⟨hlength, h⟩ := of_check h₂
  clear h₂
  obtain ⟨extid, -, h₁⟩ := bind_eq_ok h
  obtain ⟨sequencenumber, -, h₂⟩ := bind_eq_ok h₁
  obtain ⟨timestamp, -, h₃⟩ := bind_eq_ok h₂
  obtain ⟨ssrc, -, h₄⟩ := bind_eq_ok h₃
  clear h h₁ h₂ h₃
  cases h₄
  obtain ⟨hpad256, hpad0⟩ := loadFieldIf_lt hpad
  refine ⟨pad, exthdrlen, hpad256, (loadFieldIf_lt hext).1, ?_, not_lt.mp hheader,
    not_not.mp hversion, ?_, not_lt.mp hlength, rfl⟩
  · cases hflag : rawpack.flags >>> 5 &&& 1 != 0 with
    | false =>
      rw [hpad0 hflag]
      exact iff_of_false (Nat.lt_irrefl 0) (not_not.mpr (bne_eq_false_iff_eq.mp hflag))
    | true =>
      simp only [hflag, Bool.true_and, decide_eq_true_iff, not_le] at hpadding
      exact iff_of_true hpadding (bne_iff_ne.mp hflag)
  · simp only [extensionBytes]
    split <;> omega

/-- Every accepted packet has a shape. -/
theorem shape_of_parseRawPacket {rawpack : RTPRawPacket} {fields : RTPPacketFields}
    (h : rawpack.parseRawPacket = .ok (.ok fields)) : ∃ ext pad, rawpack.Shape fields ext pad := by
  obtain ⟨pad, exthdrlen, hpad, hext, hpadding, hheader, hversion, hoffset, hlength, hpayload⟩ :=
    lengths_of_parseRawPacket h
  have hcsrc := rawpack.csrcCount_lt
  have hextension := rawpack.extensionBytes_lt hext
  have hle := rawpack.length_le
  have hhead : rtpHeadLen = 12 := rfl
  refine ⟨rawpack.extensionBytes exthdrlen, pad, hheader, hversion, hoffset, ?_,
    rawpack.extensionBytes_pos_iff exthdrlen, hpadding⟩
  rw [toSize_toSize_sub, toInt_toSize, toInt_eq (by omega) (by omega)] at hlength hpayload
  omega

variable {rawpack : RTPRawPacket} {fields : RTPPacketFields} {ext pad : Nat}

/-- The payload of an accepted packet is inside the packet. -/
theorem Shape.length_payloadData (h : rawpack.Shape fields ext pad) :
    (rawpack.payloadData fields).length = fields.payloadlength := by
  have hlength := h.length
  rw [payloadData, List.length_take, List.length_drop]
  omega

/-- The first byte of a header without padding, extension and CSRC list. -/
private theorem flags_eq_iff (b : UInt8) (hversion : b >>> 6 = 2) :
    b = 0x80 ↔ (b &&& 15).toNat = 0 ∧ b >>> 4 &&& 1 = 0 ∧ b >>> 5 &&& 1 = 0 := by
  revert b
  exact forall_byte (by decide +kernel)

/-- Such a header, and only such a header, stands right in front of a payload that reaches
to the end of the packet. -/
theorem Shape.flags_eq_iff (h : rawpack.Shape fields ext pad) :
    rawpack.flags = 0x80 ↔ fields.payloadlength = rawpack.packetdata.length - rtpHeadLen := by
  obtain ⟨hheader, hversion, hoffset, hlength, hext, hpad⟩ := h
  rw [RTPRawPacket.flags_eq_iff _ hversion]
  constructor
  · rintro ⟨hcsrc, hflag₁, hflag₂⟩
    have hext0 : ext = 0 := Nat.eq_zero_of_not_pos fun hpos => hext.mp hpos hflag₁
    have hpad0 : pad = 0 := Nat.eq_zero_of_not_pos fun hpos => hpad.mp hpos hflag₂
    omega
  · intro hall
    refine ⟨by omega, ?_, ?_⟩
    · by_contra hflag
      have hpos := hext.mpr hflag
      omega
    · by_contra hflag
      have hpos := hpad.mpr hflag
      omega

end RTPRawPacket

/-- The bytes of the packet that an access copies. -/
def Access.copied (packet : RTPPacket) : Access → List UInt8
  | .fill _ src n => (packet.packet.drop src).take n
  | _ => []

/-- The bytes that a call copies from its packet to `psBuf`. -/
def consumed (r : CRTPReceiver) (g : PsGlobals) (packet : RTPPacket) : List UInt8 :=
  (processRtpPacketLogged r g packet).log.flatMap (Access.copied packet)

/-- It is everything behind the fixed header, if that fits. -/
theorem consumed_eq (r : CRTPReceiver) {g : PsGlobals} (hsize : g.psBuf.size = psBufSize)
    (packet : RTPPacket) : consumed r g packet =
      if g.psLen + packet.payload.length < psBufSize then packet.payload else [] := by
  by_cases htakes : g.Takes packet
  · obtain ⟨rest, hlog, hrest⟩ := log_eq_cons r packet hsize htakes
    have hcopied : Access.copied packet (.fill g.psLen rtpHeadLen packet.payload.length) =
        packet.payload := List.take_length
    have hnothing : rest.flatMap (Access.copied packet) = [] := by
      apply List.flatMap_eq_nil_iff.mpr
      intro w hw
      rcases (hrest w).mp hw with ⟨j, rfl, -⟩ | ⟨rfl, -⟩
      · rfl
      · rfl
    rw [if_pos htakes.2, consumed, hlog, List.flatMap_cons, hcopied, hnothing, List.append_nil]
  · rw [consumed, log_eq_nil r packet htakes, List.flatMap_nil]
    split
    · rename_i hfit
      by_contra hne
      exact htakes ⟨Ne.symm hne, hfit⟩
    · rfl

/-- The receiver consumes exactly the payload of an accepted packet if and only if the packet has
no CSRC list, extension or padding, or it does not fit and has no payload. -/
theorem consumed_eq_iff (r : CRTPReceiver) (g : PsGlobals) (hsize : g.psBuf.size = psBufSize)
    (rawpack : RTPRawPacket) (fields : RTPPacketFields)
    (hparse : rawpack.parseRawPacket = .ok (.ok fields)) :
    consumed r g (rawpack.received fields) = rawpack.payloadData fields ↔
      if g.psLen + (rawpack.packetdata.length - rtpHeadLen) < psBufSize then rawpack.flags = 0x80
      else fields.payloadlength = 0 := by
  obtain ⟨ext, pad, hshape⟩ := RTPRawPacket.shape_of_parseRawPacket hparse
  have hbehind : (rawpack.received fields).payload.length =
      rawpack.packetdata.length - rtpHeadLen := List.length_drop
  rw [consumed_eq r hsize, hbehind]
  split
  · rw [hshape.flags_eq_iff]
    constructor
    · intro heq
      rw [← hbehind, heq, hshape.length_payloadData]
    · intro hlength
      have hoffset := hshape.offset
      have hall := hshape.length
      have hheader := hshape.header
      have hstart : fields.payload = rtpHeadLen := by omega
      rw [RTPRawPacket.payloadData, hlength, hstart, ← List.length_drop, List.take_length]
      rfl
  · rw [eq_comm, ← List.length_eq_zero_iff, hshape.length_payloadData]

/-- A packet with two bytes of payload. -/
def unmixedPacket : RTPRawPacket :=
  ⟨[0x80, 96, 0, 1, 0, 0, 0, 0, 0, 0, 0, 9, 0xaa, 0xbb], true, by decide⟩

/-- The same with a CSRC entry in front of the payload. -/
def mixedPacket : RTPRawPacket :=
  ⟨[0x81, 96, 0, 1, 0, 0, 0, 0, 0, 0, 0, 9, 0, 0, 0, 7, 0xaa, 0xbb], true, by decide⟩

/-- The members that both have in common, with the CSRC count. -/
def mixedFields (numcsrcs : Nat) : RTPPacketFields where
  hasextension := false
  extid := 0
  extensionlength := 0
  extension := 0
  hasmarker := false
  numcsrcs := numcsrcs
  payloadtype := 96
  extseqnr := 1
  timestamp := 0
  ssrc := 9
  payload := 12 + numcsrcs * 4
  packetlength := 14 + numcsrcs * 4
  payloadlength := 2

/-- Without a CSRC entry the payload is consumed. -/
theorem consumed_unmixedPacket :
    consumed ⟨0, true, 0⟩ psGlobals₀ (unmixedPacket.received (mixedFields 0)) =
      unmixedPacket.payloadData (mixedFields 0) := by
  apply (consumed_eq_iff ⟨0, true, 0⟩ psGlobals₀ rfl unmixedPacket (mixedFields 0) rfl).mpr
  rw [if_pos (by decide)]
  rfl

/-- A CSRC entry enters the program stream. -/
theorem consumed_mixedPacket :
    mixedPacket.parseRawPacket = .ok (.ok (mixedFields 1)) ∧
      mixedPacket.payloadData (mixedFields 1) = [0xaa, 0xbb] ∧
      consumed ⟨0, true, 0⟩ psGlobals₀ (mixedPacket.received (mixedFields 1)) =
        [0, 0, 0, 7, 0xaa, 0xbb] := by
  refine ⟨rfl, rfl, ?_⟩
  rw [consumed_eq _ rfl]
  rfl

end Jrtplib4Android
