import Jrtplib4Android.Rtmp.Calls

/-!
# Room in the packet body

No push compares what it is going to write with the size of the packet body, so a
call stays inside the body exactly for the input that happens to fit.
-/

namespace Jrtplib4Android

open CSem

variable {ω : Type}

/-- The memory at the pointers of a call reaches as far as the call reads. -/
def RtmpCall.Readable : RtmpCall → Prop
  | avc (.spsPps sps spsLen pps ppsLen) =>
    4 ≤ sps.size ∧ spsLen ≤ sps.size ∧ ppsLen ≤ pps.size
  | avc (.h264 data dataLen _) => dataLen ≤ data.size
  | flvData buf length => 15 ≤ length → length + 11 ≤ buf.size

/-- The checks of `pushFlvData`: a type of audio or video, and a data size that goes with
the length. -/
def FlvAccepted (buf : Block) (length : Int) : Prop :=
  15 ≤ length ∧ (buf.byte 0 = 0x08 ∨ buf.byte 0 = 0x09) ∧
    UInt32.ofNat (beNat (buf.slice 1 3)) = UInt32.ofInt (length - 15)

/-- What a call writes fits the body of 524288 bytes. -/
def RtmpCall.Fits : RtmpCall → Prop
  | avc (.spsPps _ spsLen _ ppsLen) =>
    0 ≤ spsLen ∧ 0 ≤ ppsLen ∧ spsLen + ppsLen + 16 ≤ 524288
  | avc (.h264 _ dataLen _) => 0 ≤ dataLen ∧ dataLen + 9 ≤ 524288
  | flvData buf length => FlvAccepted buf length → beNat (buf.slice 1 3) + 15 ≤ 524288

/-- The call writes inside the body only, and if its input does not fit it is refused with
the body as it was. -/
structure RtmpUtils.WithinBody (net : ω → RTMPPacket → ω × SendReply) (u : RtmpUtils ω)
    (c : RtmpCall) : Prop where
  inside : ¬ Overruns (c.run net u)
  refused : ¬ c.Fits →
    ∃ u' status, c.run net u = .ok (u', status, none) ∧ u'.packet.mBody = u.packet.mBody

namespace RtmpUtils

/-- Sending writes nothing to the body before it is handed over. -/
theorem not_overruns_send (net : ω → RTMPPacket → ω × SendReply) (u : RtmpUtils ω) :
    ¬ Overruns (u.send net) := by
  unfold send
  split
  · refine not_overruns_bind ?_ fun _ _ => not_overruns_ok _
    unfold RTMP.sendPacket
    split <;> simp [Overruns, faultOf]
  · exact not_overruns_ok _

theorem not_overruns_spsPpsBody {body : Block} (sps pps : Block) {spsLen ppsLen : Int}
    (hsps : 0 ≤ spsLen) (hpps : 0 ≤ ppsLen) (hroom : spsLen + ppsLen + 16 ≤ body.size) :
    ¬ Overruns (spsPpsBody body sps spsLen pps ppsLen) := by
  refine not_overruns_bind (Block.not_overruns_storeList _ ?_) fun b₁ h₁ => ?_
  · simp only [List.length_cons, List.length_nil]
    omega
  have size₁ := Block.size_of_storeList h₁
  refine not_overruns_bind (sps.not_overruns_load 1) fun _ _ => ?_
  refine not_overruns_bind (sps.not_overruns_load 2) fun _ _ => ?_
  refine not_overruns_bind (sps.not_overruns_load 3) fun _ _ => ?_
  refine not_overruns_bind (Block.not_overruns_storeList _ ?_) fun b₂ h₂ => ?_
  · simp only [List.length_cons, List.length_nil]
    omega
  have size₂ := Block.size_of_storeList h₂
  refine not_overruns_bind (Block.not_overruns_memcpy sps 0 hsps (by omega)) fun b₃ h₃ => ?_
  have size₃ := Block.size_of_memcpy h₃
  refine not_overruns_bind (Block.not_overruns_storeList _ ?_) fun b₄ h₄ => ?_
  · simp only [List.length_cons, List.length_nil]
    omega
  have size₄ := Block.size_of_storeList h₄
  exact Block.not_overruns_memcpy pps 0 hpps (by omega)

theorem settles_spsPpsBody (body : Block) {sps pps : Block} {spsLen ppsLen : Int}
    (hfour : 4 ≤ sps.size) (hsps : spsLen ≤ sps.size) (hpps : ppsLen ≤ pps.size) :
    Settles (spsPpsBody body sps spsLen pps ppsLen) := by
  have hload : ∀ i, i < 4 → Settles (sps.load i) := fun i hi => by
    rw [Block.load_eq (by omega)]
    exact settles_ok _
  refine settles_bind (Block.settles_storeList _ _ _) fun _ _ => ?_
  refine settles_bind (hload 1 (by omega)) fun _ _ => ?_
  refine settles_bind (hload 2 (by omega)) fun _ _ => ?_
  refine settles_bind (hload 3 (by omega)) fun _ _ => ?_
  refine settles_bind (Block.settles_storeList _ _ _) fun _ _ => ?_
  refine settles_bind (Block.settles_memcpy _ _ (by omega)) fun _ _ => ?_
  refine settles_bind (Block.settles_storeList _ _ _) fun _ _ => ?_
  exact Block.settles_memcpy _ _ (by omega)

/-- A body that is filled had room, for data that could be read, and keeps its size. -/
theorem room_of_spsPpsBody {body body' sps pps : Block} {spsLen ppsLen : Int}
    (h : spsPpsBody body sps spsLen pps ppsLen = .ok body') :
    (0 ≤ spsLen ∧ 0 ≤ ppsLen ∧ spsLen + ppsLen + 16 ≤ body.size) ∧
      (4 ≤ sps.size ∧ spsLen ≤ sps.size ∧ ppsLen ≤ pps.size) ∧ body'.size = body.size := by
  obtain ⟨b₁, h₁, h⟩ := bind_eq_ok h
  obtain ⟨_, -, h⟩ := bind_eq_ok h
  obtain ⟨_, -, h⟩ := bind_eq_ok h
  obtain ⟨_, hlevel, h⟩ := bind_eq_ok h
  obtain ⟨b₂, h₂, h⟩ := bind_eq_ok h
  obtain ⟨b₃, h₃, h⟩ := bind_eq_ok h
  obtain ⟨b₄, h₄, h⟩ := bind_eq_ok h
  have room₃ := Block.room_of_memcpy h₃
  have room₅ := Block.room_of_memcpy h
  have size₄ : b₄.size = body.size := by
    rw [Block.size_of_storeList h₄, Block.size_of_memcpy h₃, Block.size_of_storeList h₂,
      Block.size_of_storeList h₁]
  have hfour := Block.lt_of_load hlevel
  exact ⟨by omega, by omega, (Block.size_of_memcpy h).trans size₄⟩

theorem not_overruns_h264Body {body : Block} (data : Block) {dataLen : Int} (isIdr : Bool)
    (hlen : 0 ≤ dataLen) (hroom : dataLen + 9 ≤ body.size) :
    ¬ Overruns (h264Body body data dataLen isIdr) := by
  refine not_overruns_bind (Block.not_overruns_storeList _ ?_) fun b₁ h₁ => ?_
  · simp only [List.length_cons, List.length_nil]
    omega
  have size₁ := Block.size_of_storeList h₁
  exact Block.not_overruns_memcpy data 0 hlen (by omega)

theorem settles_h264Body (body : Block) {data : Block} {dataLen : Int} (isIdr : Bool)
    (hdata : dataLen ≤ data.size) : Settles (h264Body body data dataLen isIdr) :=
  settles_bind (Block.settles_storeList _ _ _) fun _ _ => Block.settles_memcpy _ _ (by omega)

/-- A body that is filled had room, for data that could be read, and keeps its size. -/
theorem room_of_h264Body {body body' data : Block} {dataLen : Int} {isIdr : Bool}
    (h : h264Body body data dataLen isIdr = .ok body') :
    (0 ≤ dataLen ∧ dataLen + 9 ≤ body.size) ∧ dataLen ≤ data.size ∧
      body'.size = body.size := by
  obtain ⟨b₁, h₁, h⟩ := bind_eq_ok h
  have size₁ := Block.size_of_storeList h₁
  have room := Block.room_of_memcpy h
  exact ⟨by omega, by omega, (Block.size_of_memcpy h).trans size₁⟩

/-- A field inside the block is read. -/
theorem fieldAt_eq {buf : Block} {i n : Nat} (h : i + n ≤ buf.size) :
    fieldAt buf i n = .ok (overlay 0 (buf.slice i n)) := by
  rw [fieldAt, if_neg (by omega)]

/-- A field of `n` bytes in a block is below `256 ^ n`. -/
theorem beNat_slice_lt (b : Block) (i n : Nat) : beNat (b.slice i n) < 256 ^ n := by
  simpa only [Block.length_slice] using beNat_lt (b.slice i n)

/-- The packet of an accepted tag, once its body is copied. -/
def tagPacket (packet : RTMPPacket) (buf body : Block) : RTMPPacket :=
  { packet with
    mBody := body
    mHeaderType := rtmpPacketSizeLarge
    mNTimeStamp := htontime (overlay 0 (buf.slice 4 4))
    mPacketType := (leWord (buf.byte 0) 0 0 0).toUInt8
    mNBodySize := UInt32.ofNat (beNat (buf.slice 1 3)) }

/-- A field is read or it is not all there. -/
theorem fieldAt_cases (buf : Block) (i n : Nat) :
    fieldAt buf i n = .error .read ∨ ∃ x, fieldAt buf i n = .ok x := by
  unfold fieldAt
  split
  · exact Or.inl rfl
  · exact Or.inr ⟨_, rfl⟩

/-- A tag header that is not all there is read past its end. -/
theorem pushFlvData_header (net : ω → RTMPPacket → ω × SendReply) (u : RtmpUtils ω) {buf : Block}
    {length : Int} (hlong : ¬ length < 15) (hheader : buf.size < 11) :
    u.pushFlvData net buf length = .error .read := by
  have hlast : fieldAt buf 8 3 = .error .read := if_pos hheader
  unfold pushFlvData
  rw [if_neg hlong]
  rcases fieldAt_cases buf 0 1 with h₁ | ⟨x₁, h₁⟩
  · simp only [h₁, bind, Except.bind]
  rcases fieldAt_cases buf 1 3 with h₂ | ⟨x₂, h₂⟩
  · simp only [h₁, h₂, bind, Except.bind]
  rcases fieldAt_cases buf 4 4 with h₃ | ⟨x₃, h₃⟩
  · simp only [h₁, h₂, h₃, bind, Except.bind]
  · simp only [h₁, h₂, h₃, hlast, bind, Except.bind]

/-- The bytes copied of an accepted tag. -/
theorem toNat_copied (buf : Block) :
    (UInt32.ofNat (beNat (buf.slice 1 3)) + 11 + 4).toNat = beNat (buf.slice 1 3) + 15 := by
  have hfield := beNat_slice_lt buf 1 3
  simp only [UInt32.toNat_add, UInt32.toNat_ofNat', UInt32.reduceToNat]
  omega

/-- The outcomes of `pushFlvData`: a refusal, a header that is not all there, or a tag
that is copied with 15 bytes more than its data size. -/
theorem pushFlvData_cases (net : ω → RTMPPacket → ω × SendReply) (u : RtmpUtils ω) (buf : Block)
    (length : Int) :
    (¬ FlvAccepted buf length ∧ ∃ u' status,
      u.pushFlvData net buf length = .ok (u', status, none) ∧ u'.packet = u.packet ∧
        status < 0) ∨
    (15 ≤ length ∧ buf.size < 11 ∧ u.pushFlvData net buf length = .error .read) ∨
    (FlvAccepted buf length ∧ u.pushFlvData net buf length =
      memcpy u.packet.mBody 0 buf (some 11) ((beNat (buf.slice 1 3) + 15 : Nat) : Int) >>=
        fun body => { u.count with packet := tagPacket u.packet buf body }.send net) := by
  by_cases hshort : length < 15
  · rw [pushFlvData, if_pos hshort]
    exact Or.inl ⟨fun h => by have := h.1; omega, u, -1, rfl, rfl, by decide⟩
  rcases Nat.lt_or_ge buf.size 11 with hheader | hheader
  · exact Or.inr (Or.inl ⟨by omega, hheader, pushFlvData_header net u hshort hheader⟩)
  unfold pushFlvData FlvAccepted
  rw [if_neg hshort]
  have htype : overlay 0 (buf.slice 0 1) = leWord (buf.byte 0) 0 0 0 := rfl
  have hcheck : length - 11 - 4 = length - 15 := by omega
  simp only [fieldAt_eq (by omega : 0 + 1 ≤ buf.size), fieldAt_eq (by omega : 1 + 3 ≤ buf.size),
    fieldAt_eq (by omega : 4 + 4 ≤ buf.size), fieldAt_eq (by omega : 8 + 3 ≤ buf.size), htype,
    leWord_ne_iff, hton24_overlay_field 0 (Block.length_slice buf 1 3), hcheck, bind, Except.bind]
  by_cases hav : buf.byte 0 = 0x08 ∨ buf.byte 0 = 0x09
  swap
  · rw [if_pos hav]
    exact Or.inl ⟨fun h => hav h.2.1, u.count, -2, rfl, rfl, by decide⟩
  rw [if_neg (not_not.mpr hav)]
  by_cases hlen : UInt32.ofNat (beNat (buf.slice 1 3)) = UInt32.ofInt (length - 15)
  swap
  · rw [if_pos hlen]
    exact Or.inl ⟨fun h => hlen h.2.2, u.count, -3, rfl, rfl, by decide⟩
  rw [if_neg (not_not.mpr hlen), toNat_copied]
  exact Or.inr (Or.inr ⟨⟨by omega, hav, hlen⟩, rfl⟩)

/-- The data size of an accepted tag is not above the length given. -/
theorem beNat_le_of_flvAccepted {buf : Block} {length : Int} (h : FlvAccepted buf length) :
    beNat (buf.slice 1 3) ≤ length - 15 := by
  have hfield := beNat_slice_lt buf 1 3
  have hmod := congrArg UInt32.toNat h.2.2
  rw [UInt32.toNat_ofNat', UInt32.ofInt, UInt32.toNat_ofNat'] at hmod
  have := h.1
  omega

/-- What fits is written inside the body. -/
theorem not_overruns_run (net : ω → RTMPPacket → ω × SendReply) {u : RtmpUtils ω}
    (hsize : u.packet.mBody.size = 524288) {c : RtmpCall} (hfits : c.Fits) :
    ¬ Overruns (c.run net u) := by
  cases c with
  | avc c =>
    cases c with
    | spsPps sps spsLen pps ppsLen =>
      obtain ⟨hsps, hpps, hroom⟩ := hfits
      exact not_overruns_bind (not_overruns_spsPpsBody sps pps hsps hpps (by omega))
        fun _ _ => not_overruns_send net _
    | h264 data dataLen isIdr =>
      obtain ⟨hlen, hroom⟩ := hfits
      exact not_overruns_bind
        (not_overruns_h264Body data isIdr hlen (by rw [RTMPPacket.reset_mBody]; omega))
        fun _ _ => not_overruns_send net _
  | flvData buf length =>
    rcases pushFlvData_cases net u buf length with
      ⟨-, u', status, hrun, -⟩ | ⟨-, -, hrun⟩ | ⟨haccepted, hrun⟩
    · rw [RtmpCall.run, hrun]
      exact not_overruns_ok _
    · rw [RtmpCall.run, hrun]
      simp [Overruns, faultOf]
    · rw [RtmpCall.run, hrun]
      have := hfits haccepted
      exact not_overruns_bind (Block.not_overruns_memcpy buf 11 (by omega) (by omega))
        fun _ _ => not_overruns_send net _

/-- A call that ends has kept the size of the body, and what it wrote has fitted. -/
theorem fits_of_run {net : ω → RTMPPacket → ω × SendReply} {u u' : RtmpUtils ω} {c : RtmpCall}
    {status : Int} {message : Option Message} (hsize : u.packet.mBody.size = 524288)
    (h : c.run net u = .ok (u', status, message)) :
    c.Fits ∧ u'.packet.mBody.size = 524288 := by
  cases c with
  | avc c =>
    cases c with
    | spsPps sps spsLen pps ppsLen =>
      obtain ⟨body, hbody, hsend⟩ := bind_eq_ok h
      obtain ⟨⟨hsps, hpps, hroom⟩, -, hkept⟩ := room_of_spsPpsBody hbody
      exact ⟨⟨hsps, hpps, by omega⟩, (send_cases hsend).1.size.trans (hkept.trans hsize)⟩
    | h264 data dataLen isIdr =>
      obtain ⟨body, hbody, hsend⟩ := bind_eq_ok h
      obtain ⟨⟨hlen, hroom⟩, -, hkept⟩ := room_of_h264Body hbody
      rw [RTMPPacket.reset_mBody, hsize] at hroom hkept
      exact ⟨⟨hlen, hroom⟩, (send_cases hsend).1.size.trans hkept⟩
  | flvData buf length =>
    rw [RtmpCall.run] at h
    rcases pushFlvData_cases net u buf length with
      ⟨hrefused, u₁, status₁, hrun, hpacket, -⟩ | ⟨-, -, hrun⟩ | ⟨-, hrun⟩
    · rw [hrun] at h
      cases h
      exact ⟨fun haccepted => absurd haccepted hrefused, by rw [hpacket, hsize]⟩
    · rw [hrun] at h
      cases h
    · rw [hrun] at h
      obtain ⟨body, hbody, hsend⟩ := bind_eq_ok h
      have hroom := Block.room_of_memcpy hbody
      refine ⟨fun _ => by omega, (send_cases hsend).1.size.trans ?_⟩
      exact (Block.size_of_memcpy hbody).trans hsize

/-- What does not fit is written behind the body, if all of it can be read. -/
theorem overruns_run (net : ω → RTMPPacket → ω × SendReply) {u : RtmpUtils ω}
    (hsize : u.packet.mBody.size = 524288) {c : RtmpCall} (hread : c.Readable)
    (hfits : ¬ c.Fits) : Overruns (c.run net u) := by
  cases c with
  | avc c =>
    cases c with
    | spsPps sps spsLen pps ppsLen =>
      obtain ⟨hfour, hsps, hpps⟩ := hread
      rcases settles_spsPpsBody u.packet.mBody hfour hsps hpps with hover | ⟨body, hbody⟩
      · exact overruns_bind hover
      · obtain ⟨⟨h₁, h₂, hroom⟩, -⟩ := room_of_spsPpsBody hbody
        exact absurd ⟨h₁, h₂, by omega⟩ hfits
    | h264 data dataLen isIdr =>
      rcases settles_h264Body u.packet.reset.mBody isIdr hread with hover | ⟨body, hbody⟩
      · exact overruns_bind hover
      · obtain ⟨⟨hlen, hroom⟩, -⟩ := room_of_h264Body hbody
        rw [RTMPPacket.reset_mBody, hsize] at hroom
        exact absurd ⟨hlen, hroom⟩ hfits
  | flvData buf length =>
    obtain ⟨haccepted, hbig⟩ := Classical.not_imp.mp hfits
    have hlong := hread haccepted.1
    have hdata := beNat_le_of_flvAccepted haccepted
    rw [RtmpCall.run]
    rcases pushFlvData_cases net u buf length with
      ⟨hrefused, -⟩ | ⟨-, hheader, -⟩ | ⟨-, hrun⟩
    · exact absurd haccepted hrefused
    · have := haccepted.1
      omega
    · rw [hrun]
      have hsettles : Settles (memcpy u.packet.mBody 0 buf (some 11)
          ((beNat (buf.slice 1 3) + 15 : Nat) : Int)) := Block.settles_memcpy _ _ (by omega)
      rcases hsettles with hover | ⟨body, hbody⟩
      · exact overruns_bind hover
      · have := Block.room_of_memcpy hbody
        omega

/-- No call changes how large the body is. -/
theorem size_of_reached {net : ω → RTMPPacket → ω × SendReply} {u : RtmpUtils ω}
    (h : u.Reached net) : u.packet.mBody.size = 524288 := by
  induction h with
  | init rtmp mTimestamp => rfl
  | call _ hrun ih => exact (fits_of_run ih hrun).2

/-- A call stays inside the body exactly if what it writes fits. -/
theorem withinBody_iff {net : ω → RTMPPacket → ω × SendReply} {u : RtmpUtils ω}
    (h : u.Reached net) (c : RtmpCall) : u.WithinBody net c ↔ c.Fits := by
  have hsize := size_of_reached h
  constructor
  · intro hwithin
    by_contra hfits
    obtain ⟨u', status, hrun, -⟩ := hwithin.refused hfits
    exact hfits (fits_of_run hsize hrun).1
  · intro hfits
    exact ⟨not_overruns_run net hsize hfits, fun hn => absurd hfits hn⟩

end RtmpUtils

end Jrtplib4Android
