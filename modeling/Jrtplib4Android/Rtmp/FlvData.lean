import Jrtplib4Android.Rtmp.Overrun

/-!
# One FLV tag for `pushFlvData`

`pushFlvData` takes the array of its caller for one FLV tag: 11 bytes of header, the
data, and 4 bytes that repeat the size. It accepts the audio and video tags that fill the
array and decodes their fields. The copy behind the header is as long as the whole tag,
so it reads 11 bytes behind the array, and nothing compares it with the packet body.
-/

namespace Jrtplib4Android

open CSem

variable {ω : Type}

/-- The bytes are a single audio or video tag. -/
structure IsAvTag (buf : Block) (length : Int) : Prop where
  long : 15 ≤ length
  av : buf.byte 0 = 0x08 ∨ buf.byte 0 = 0x09
  dataSize : (beNat (buf.slice 1 3) : Int) = length - 15

/-- The message has the type, the data and the time of the tag. -/
structure Message.DecodedFrom (m : Message) (buf : Block) : Prop where
  packetType : m.packetType = buf.byte 0
  bodySize : m.bodySize.toNat = beNat (buf.slice 1 3)
  body : m.body = buf.slice 11 (beNat (buf.slice 1 3))
  timestamp : m.timestamp.toNat = beNat (buf.slice 4 3) + (buf.byte 7).toNat * 2 ^ 24

namespace RtmpUtils

/-- The call ends, it hands over the message of a tag and nothing else, and what is not a
tag leaves the packet alone and is answered by a negative code. -/
def DecodesTag (net : ω → RTMPPacket → ω × SendReply) (u : RtmpUtils ω) (buf : Block)
    (length : Int) : Prop :=
  ∃ u' status message, u.pushFlvData net buf length = .ok (u', status, message) ∧
    (message.isSome = true ↔ IsAvTag buf length) ∧
    (∀ m, message = some m → m.DecodedFrom buf) ∧
    (¬ IsAvTag buf length → u'.packet = u.packet ∧ status < 0)

/-- Every byte that the call reads through `buf` lies in an array of `length` bytes. -/
def ReadsArray (net : ω → RTMPPacket → ω × SendReply) (u : RtmpUtils ω) (array : Block) : Prop :=
  faultOf (u.pushFlvData net array array.size) ≠ some .read

end RtmpUtils

/-- On a `jint` the unsigned comparison of the data size is the comparison of the values. -/
theorem flvAccepted_iff_isAvTag {buf : Block} {length : Int} (hjint : length < 2 ^ 31) :
    FlvAccepted buf length ↔ IsAvTag buf length := by
  have hfield := RtmpUtils.beNat_slice_lt buf 1 3
  constructor
  · rintro ⟨hlong, hav, hsize⟩
    refine ⟨hlong, hav, ?_⟩
    have hmod := congrArg UInt32.toNat hsize
    rw [UInt32.toNat_ofNat', UInt32.ofInt, UInt32.toNat_ofNat'] at hmod
    omega
  · rintro ⟨hlong, hav, hsize⟩
    refine ⟨hlong, hav, ?_⟩
    rw [← hsize, ofInt_natCast]

/-- Four bytes of time behind each other are 24 bits and their extension. -/
theorem toNat_htontime_slice (buf : Block) (i : Nat) :
    (htontime (overlay 0 (buf.slice i 4))).toNat =
      beNat (buf.slice i 3) + (buf.byte (i + 3)).toNat * 2 ^ 24 := by
  have hfour : buf.slice i 4 =
      [buf.byte i, buf.byte (i + 1), buf.byte (i + 2), buf.byte (i + 3)] := rfl
  have hthree : buf.slice i 3 = [buf.byte i, buf.byte (i + 1), buf.byte (i + 2)] := rfl
  rw [hfour, hthree, htontime_overlay, toNat_leWord]
  simp only [beNat, List.foldl_cons, List.foldl_nil]
  omega

/-- The type goes through a zeroed word into the packet. -/
theorem toUInt8_leWord (b : UInt8) : (leWord b 0 0 0).toUInt8 = b := by
  rw [leWord_type, UInt8.toUInt8_toUInt32]

namespace RtmpUtils

/-- A body that starts with the data of a tag makes the message of the tag. -/
theorem tagPacket_decodedFrom {packet : RTMPPacket} {buf body : Block}
    (hbody : body.slice 0 (beNat (buf.slice 1 3)) = buf.slice 11 (beNat (buf.slice 1 3))) :
    (tagPacket packet buf body).message.DecodedFrom buf := by
  have hfield := beNat_slice_lt buf 1 3
  have hsize : (UInt32.ofNat (beNat (buf.slice 1 3))).toNat = beNat (buf.slice 1 3) := by
    rw [UInt32.toNat_ofNat']
    omega
  refine ⟨toUInt8_leWord _, hsize, ?_, toNat_htontime_slice buf 4⟩
  change body.slice 0 (UInt32.ofNat (beNat (buf.slice 1 3))).toNat = _
  rw [hsize, hbody]

/-- An open connection takes a packet whose data lies in its body. -/
theorem send_of_connected (net : ω → RTMPPacket → ω × SendReply) {u : RtmpUtils ω}
    (hconn : u.rtmp.connected = true) (hsize : u.packet.mNBodySize.toNat ≤ u.packet.mBody.size) :
    ∃ u' status, u.send net = .ok (u', status, some u.packet.message) := by
  rcases hnet : net u.rtmp.io u.packet with ⟨io, reply⟩
  refine ⟨{ u with rtmp := u.rtmp.answered io reply, packet := u.packet.returned reply },
    if reply.ok then 0 else -5, ?_⟩
  simp only [send, RTMP.isConnected, hconn, ite_true, RTMP.sendPacket_eq hnet hsize, bind,
    Except.bind]
  rfl

/-- A tag decodes well where it is readable and the body has room. -/
theorem pushFlvData_of_isAvTag (net : ω → RTMPPacket → ω × SendReply) {u : RtmpUtils ω}
    (hconn : u.rtmp.connected = true) {buf : Block} {length : Int} (hjint : length < 2 ^ 31)
    (htag : IsAvTag buf length) (hread : length + 11 ≤ buf.size)
    (hroom : length ≤ u.packet.mBody.size) :
    ∃ u' status m, u.pushFlvData net buf length = .ok (u', status, some m) ∧
      m.DecodedFrom buf := by
  have haccepted := (flvAccepted_iff_isAvTag hjint).mpr htag
  have hdata := htag.dataSize
  rcases pushFlvData_cases net u buf length with
    ⟨hrefused, -⟩ | ⟨hlong, hshort, -⟩ | ⟨-, hrun⟩
  · exact absurd haccepted hrefused
  · omega
  have hcopy := Block.memcpy_eq u.packet.mBody 0 buf 11
    (by omega : 11 + (beNat (buf.slice 1 3) + 15) ≤ buf.size) (by omega)
  rw [hcopy] at hrun
  have hsize : (UInt32.ofNat (beNat (buf.slice 1 3))).toNat ≤ u.packet.mBody.size := by
    rw [UInt32.toNat_ofNat']
    omega
  let body := u.packet.mBody.copy 0 buf 11 (beNat (buf.slice 1 3) + 15)
  obtain ⟨u', status, hsend⟩ := send_of_connected net
    (u := { u.count with packet := tagPacket u.packet buf body }) hconn hsize
  refine ⟨u', status, _, hrun.trans hsend, tagPacket_decodedFrom ?_⟩
  rw [← Block.take_slice _ _ (beNat (buf.slice 1 3) + 15) _ (by omega), Block.slice_copy_self,
    Block.take_slice _ _ _ _ (by omega)]

/-- A call on a tag that ends has read the whole copy and found room for it. -/
theorem room_of_pushFlvData {net : ω → RTMPPacket → ω × SendReply} {u u' : RtmpUtils ω}
    {buf : Block} {length : Int} {status : Int} {message : Option Message}
    (hjint : length < 2 ^ 31) (htag : IsAvTag buf length)
    (h : u.pushFlvData net buf length = .ok (u', status, message)) :
    length + 11 ≤ buf.size ∧ length ≤ u.packet.mBody.size := by
  have haccepted := (flvAccepted_iff_isAvTag hjint).mpr htag
  have hdata := htag.dataSize
  rcases pushFlvData_cases net u buf length with
    ⟨hrefused, -⟩ | ⟨-, -, hrun⟩ | ⟨-, hrun⟩
  · exact absurd haccepted hrefused
  · rw [hrun] at h
    cases h
  · rw [hrun] at h
    obtain ⟨body, hbody, -⟩ := bind_eq_ok h
    have hroom := Block.room_of_memcpy hbody
    omega

/-- What is not a tag is refused, if the header can be read. -/
theorem pushFlvData_refused (net : ω → RTMPPacket → ω × SendReply) (u : RtmpUtils ω)
    {buf : Block} {length : Int} (hjint : length < 2 ^ 31) (hbuf : length ≤ buf.size)
    (htag : ¬ IsAvTag buf length) :
    ∃ u' status, u.pushFlvData net buf length = .ok (u', status, none) ∧
      u'.packet = u.packet ∧ status < 0 := by
  have hrefused := fun haccepted => htag ((flvAccepted_iff_isAvTag hjint).mp haccepted)
  rcases pushFlvData_cases net u buf length with
    ⟨-, hrun⟩ | ⟨hlong, hshort, -⟩ | ⟨haccepted, -⟩
  · exact hrun
  · omega
  · exact absurd haccepted hrefused

/-- `pushFlvData` accepts just the single tags and decodes them, if and only if a tag has
11 readable bytes behind it and is not longer than the packet body. -/
theorem decodesTag_iff {net : ω → RTMPPacket → ω × SendReply} {u : RtmpUtils ω}
    (hreached : u.Reached net) (hconn : u.rtmp.connected = true) {buf : Block} {length : Int}
    (hjint : length < 2 ^ 31) (hbuf : length ≤ buf.size) :
    u.DecodesTag net buf length ↔
      (IsAvTag buf length → length + 11 ≤ buf.size ∧ length ≤ 524288) := by
  have hsize := size_of_reached hreached
  constructor
  · rintro ⟨u', status, message, hrun, -⟩ htag
    have hroom := room_of_pushFlvData hjint htag hrun
    omega
  · intro hroom
    by_cases htag : IsAvTag buf length
    · obtain ⟨hread, hfits⟩ := hroom htag
      obtain ⟨u', status, m, hrun, hdecoded⟩ := pushFlvData_of_isAvTag net hconn hjint
        htag hread (by omega)
      refine ⟨u', status, some m, hrun, iff_of_true rfl htag, ?_, fun hn => absurd htag hn⟩
      rintro _ ⟨⟩
      exact hdecoded
    · obtain ⟨u', status, hrun, hkept⟩ := pushFlvData_refused net u hjint hbuf htag
      refine ⟨u', status, none, hrun, iff_of_false Bool.false_ne_true htag, ?_, fun _ => hkept⟩
      rintro _ ⟨⟩

/-- An empty audio tag in an array of its length. -/
def emptyTag : Block := .ofList [0x08, 0, 0, 0, 0, 0, 0, 0, 0, 0, 0, 0, 0, 0, 0]

/-- A video tag of 524289 bytes, in memory that goes on for 11 bytes behind it. -/
def longTag : Block where
  size := 524300
  byte := fun i => [0x09, 0x07, 0xff, 0xf2].getD i 0

theorem isAvTag_emptyTag : IsAvTag emptyTag 15 := ⟨by decide, by decide, rfl⟩

/-- The same tag with what lies behind it is decoded. -/
theorem decodesTag_emptyTag :
    (initRtmpHandle ⟨true, 1, ()⟩ 0).DecodesTag oneChunk ⟨26, emptyTag.byte⟩ 15 :=
  (decodesTag_iff (.init _ _) rfl (by decide) (by decide)).mpr fun _ => ⟨by decide, by decide⟩

/-- The empty tag alone is read past its end, the long one written past the packet body. -/
theorem not_decodesTag_emptyTag_longTag :
    ¬ (initRtmpHandle ⟨true, 1, ()⟩ 0).DecodesTag oneChunk emptyTag 15 ∧
      ¬ (initRtmpHandle ⟨true, 1, ()⟩ 0).DecodesTag oneChunk longTag 524289 := by
  constructor
  · rintro ⟨u', status, message, hrun, -⟩
    have hroom := room_of_pushFlvData (by decide) isAvTag_emptyTag hrun
    exact absurd hroom.1 (by decide)
  · rintro ⟨u', status, message, hrun, -⟩
    have htag : IsAvTag longTag 524289 := ⟨by decide, by decide, rfl⟩
    have hroom := room_of_pushFlvData (by decide) htag hrun
    exact absurd hroom.2 (by decide)

/-- The copy of a tag starts behind its header and is as long as the tag. -/
theorem pushFlvData_of_array (net : ω → RTMPPacket → ω × SendReply) (u : RtmpUtils ω)
    {array : Block} (hjint : (array.size : Int) < 2 ^ 31) (htag : IsAvTag array array.size) :
    u.pushFlvData net array array.size = .error .read := by
  have haccepted := (flvAccepted_iff_isAvTag hjint).mpr htag
  have hdata := htag.dataSize
  rcases pushFlvData_cases net u array array.size with
    ⟨hrefused, -⟩ | ⟨-, -, hrun⟩ | ⟨-, hrun⟩
  · exact absurd haccepted hrefused
  · exact hrun
  · rw [hrun, Block.memcpy_of_lt _ _ (by omega)]
    rfl

/-- `pushFlvData` stays inside an array of the length given exactly if it refuses it. -/
theorem readsArray_iff (net : ω → RTMPPacket → ω × SendReply) (u : RtmpUtils ω) {array : Block}
    (hjint : (array.size : Int) < 2 ^ 31) :
    u.ReadsArray net array ↔ ¬ IsAvTag array array.size := by
  constructor
  · intro hreads htag
    apply hreads
    rw [pushFlvData_of_array net u hjint htag]
    rfl
  · intro htag
    obtain ⟨u', status, hrun, -⟩ := pushFlvData_refused net u hjint
      (Int.le_refl _) htag
    rw [ReadsArray, hrun]
    exact nofun

/-- A script tag is refused before the copy. -/
theorem readsArray_scriptTag :
    (initRtmpHandle ⟨true, 1, ()⟩ 0).ReadsArray oneChunk
      (.ofList [0x12, 0, 0, 0, 0, 0, 0, 0, 0, 0, 0, 0, 0, 0, 0]) :=
  (readsArray_iff oneChunk _ (by decide)).mpr fun htag => absurd htag.av (by decide)

theorem not_readsArray_emptyTag :
    ¬ (initRtmpHandle ⟨true, 1, ()⟩ 0).ReadsArray oneChunk emptyTag := by
  intro hreads
  apply hreads
  have hrun := pushFlvData_of_array oneChunk (initRtmpHandle ⟨true, 1, ()⟩ 0)
    (by decide) isAvTag_emptyTag
  rw [hrun]
  rfl

end RtmpUtils

end Jrtplib4Android
