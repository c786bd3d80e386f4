import Jrtplib4Android.Core.Bytes

/-!
# The FLV format

What a reader of the format makes of the bytes. A video tag body that carries AVC
data is a sequence header with the decoder configuration, or one NAL unit behind
its 32-bit length. `FlvTag` is one tag of a file together with the tag size that
follows it.
-/

namespace Jrtplib4Android

open CSem

/-- The decoder configuration record of AVC. -/
structure AvcConfig where
  profile : UInt8
  compatibility : UInt8
  level : UInt8
  /-- The width of the lengths in front of the NAL units. -/
  lengthSize : Nat
  sps : List (List UInt8)
  pps : List (List UInt8)
  deriving DecidableEq

/-- What the body of a video tag with AVC data carries. -/
inductive AvcPacket where
  | sequenceHeader (config : AvcConfig)
  | nalu (nal : List UInt8)
  deriving DecidableEq

/-- The body of a video tag with AVC data. -/
structure VideoTag where
  /-- `1` for a key frame, `2` for an inter frame. -/
  frameType : UInt8
  compositionTime : Nat
  packet : AvcPacket
  deriving DecidableEq

/-- Parse a configuration record: version 1, reserved bits set, 16-bit lengths in
front of the parameter sets. The second result is what follows the record. -/
def parseConfig : List UInt8 → Option (AvcConfig × List UInt8)
  | version :: profile :: compatibility :: level :: lengthByte :: spsByte :: rest =>
    if version ≠ 1 ∨ lengthByte &&& 0xfc ≠ 0xfc ∨ spsByte &&& 0xe0 ≠ 0xe0 then none
    else do
      let (sps, rest) ← takeFields 2 (spsByte &&& 0x1f).toNat rest
      let ppsCount ← rest.head?
      let (pps, rest) ← takeFields 2 ppsCount.toNat rest.tail
      return (⟨profile, compatibility, level, (lengthByte &&& 0x03).toNat + 1, sps, pps⟩, rest)
  | _ => none

/-- Parse the body of a video tag. The second result is what follows the packet. -/
def parseVideoTag : List UInt8 → Option (VideoTag × List UInt8)
  | b :: packetType :: t₀ :: t₁ :: t₂ :: rest =>
    if b &&& 0x0f ≠ 7 then none
    else if packetType = 0 then
      (parseConfig rest).map fun (config, rest) =>
        (⟨b >>> 4, beNat [t₀, t₁, t₂], .sequenceHeader config⟩, rest)
    else if packetType = 1 then
      (takeField 4 rest).map fun (nal, rest) => (⟨b >>> 4, beNat [t₀, t₁, t₂], .nalu nal⟩, rest)
    else none
  | _ => none

/-- A sequence header with one parameter set of each kind. -/
def sequenceHeaderBody (profile compatibility level : UInt8) (sps pps : List UInt8) :
    List UInt8 :=
  [0x17, 0, 0, 0, 0, 1, profile, compatibility, level, 0xff, 0xe1] ++
    (beBytes 2 sps.length ++ (sps ++ (1 :: (beBytes 2 pps.length ++ pps))))

/-- A NAL unit behind its 32-bit length. -/
def naluBody (b : UInt8) (nal : List UInt8) : List UInt8 :=
  [b, 1, 0, 0, 0] ++ (beBytes 4 nal.length ++ nal)

theorem length_sequenceHeaderBody (profile compatibility level : UInt8) (sps pps : List UInt8) :
    (sequenceHeaderBody profile compatibility level sps pps).length =
      sps.length + pps.length + 16 := by
  simp only [sequenceHeaderBody, List.length_append, List.length_cons, List.length_nil,
    length_beBytes]
  omega

theorem length_naluBody (b : UInt8) (nal : List UInt8) :
    (naluBody b nal).length = nal.length + 9 := by
  simp only [naluBody, List.length_append, List.length_cons, List.length_nil, length_beBytes]
  omega

/-- The sequence header reads back with nothing left over. -/
theorem parseVideoTag_sequenceHeader {profile compatibility level : UInt8}
    {sps pps : List UInt8} (hsps : sps.length ≤ 65535) (hpps : pps.length ≤ 65535) :
    parseVideoTag (sequenceHeaderBody profile compatibility level sps pps) =
      some (⟨1, 0, .sequenceHeader ⟨profile, compatibility, level, 4, [sps], [pps]⟩⟩, []) := by
  have htake : ∀ (xs rest : List UInt8), xs.length ≤ 65535 →
      takeFields 2 1 (beBytes 2 xs.length ++ (xs ++ rest)) = some ([xs], rest) := by
    intro xs rest hxs
    have hfit : ∀ ys ∈ [xs], ys.length < 256 ^ 2 := by
      intro ys hys
      rw [List.mem_singleton] at hys
      subst hys
      omega
    have h := takeFields_append rest hfit
    rwa [List.flatMap_singleton, List.append_assoc] at h
  have hpps' := htake pps [] hpps
  rw [List.append_nil] at hpps'
  have hversion : ¬ ((1 : UInt8) ≠ 1 ∨ (0xff : UInt8) &&& 0xfc ≠ 0xfc ∨
      (0xe1 : UInt8) &&& 0xe0 ≠ 0xe0) := by decide
  have hcodec : ¬ (0x17 : UInt8) &&& 0x0f ≠ 7 := by decide
  have hcount : ((0xe1 : UInt8) &&& 0x1f).toNat = 1 := by decide
  have hone : (1 : UInt8).toNat = 1 := rfl
  simp only [sequenceHeaderBody, List.cons_append, List.nil_append, parseVideoTag, parseConfig,
    hversion, hcodec, hcount, hone, ite_false, ite_true, htake sps _ hsps, hpps', pure,
    Option.bind_eq_bind, Option.bind_some, Option.map_some, List.head?_cons, List.tail_cons]
  rfl

/-- The NAL unit reads back with nothing left over. -/
theorem parseVideoTag_nalu {b : UInt8} {nal : List UInt8} (hb : b &&& 0x0f = 7)
    (hnal : nal.length < 2 ^ 32) :
    parseVideoTag (naluBody b nal) = some (⟨b >>> 4, 0, .nalu nal⟩, []) := by
  have htake := takeField_append (w := 4) [] (by omega : nal.length < 256 ^ 4)
  rw [List.append_nil] at htake
  have hpacket : ¬ (1 : UInt8) = 0 := by decide
  simp only [naluBody, List.cons_append, List.nil_append, parseVideoTag, hb, ne_eq, not_true,
    hpacket, ite_false, ite_true, htake, Option.map_some]
  rfl

/-- A tag of an FLV file and the `PreviousTagSize` behind it. -/
structure FlvTag where
  type : UInt8
  timestamp : UInt32
  streamId : List UInt8
  body : List UInt8
  prevSize : List UInt8
  streamId_length : streamId.length = 3
  body_lt : body.length < 2 ^ 24
  prevSize_length : prevSize.length = 4

namespace FlvTag

/-- An audio or a video tag. -/
def isAv (t : FlvTag) : Bool := t.type = 0x08 || t.type = 0x09

/-- The tag header: the timestamp has its highest byte behind the other three. -/
def header (t : FlvTag) : List UInt8 :=
  t.type :: (beBytes 3 t.body.length ++
    ([byteAt t.timestamp 2, byteAt t.timestamp 1, byteAt t.timestamp 0, byteAt t.timestamp 3] ++
      t.streamId))

/-- The tag as it stands in the file. -/
def bytes (t : FlvTag) : List UInt8 := t.header ++ (t.body ++ t.prevSize)

@[simp] theorem length_header (t : FlvTag) : t.header.length = 11 := by
  simp only [header, List.length_cons, List.length_append, length_beBytes, List.length_nil,
    t.streamId_length]

@[simp] theorem length_bytes (t : FlvTag) : t.bytes.length = t.body.length + 15 := by
  simp only [bytes, List.length_append, length_header, t.prevSize_length]
  omega

/-- A file has at least a byte for each of its tags. -/
theorem length_le_flatMap_bytes (tags : List FlvTag) :
    tags.length ≤ (tags.flatMap bytes).length := by
  induction tags with
  | nil => exact Nat.zero_le _
  | cons t tags ih =>
    rw [List.flatMap_cons, List.length_append, length_bytes, List.length_cons]
    omega

end FlvTag

end Jrtplib4Android
