import Mathlib.Data.List.TakeDrop
import Jrtplib4Android.Ps.Refinement

/-!
# Multiplexed packs

The packs a sender writes: a header, then units whose length fields are right.
The demuxer reaches exactly these units, so it recovers the concatenation of
their video payloads, except that it stops at the first audio packet between
them, where it should skip one.
-/

namespace Jrtplib4Android

open CSem

/-- A pack header: start code, nine bytes of clock and rate fields, the byte that
counts the stuffing, and the stuffing. -/
structure PackHeader where
  fields : List UInt8
  stuffinglen : UInt8
  stuffing : List UInt8
  length_fields : fields.length = 9
  length_stuffing : stuffing.length = (stuffinglen &&& 7).toNat

def PackHeader.bytes (h : PackHeader) : List UInt8 :=
  [0, 0, 1, 0xba] ++ h.fields ++ h.stuffinglen :: h.stuffing

/-- A system header, a stream map, or a video PES packet with its two flag bytes. -/
inductive PsUnit where
  | systemHeader (body : List UInt8) (length_lt : body.length < 2 ^ 16)
  | streamMap (body : List UInt8) (length_lt : body.length < 2 ^ 16)
  | video (flags₁ flags₂ : UInt8) (header payload : List UInt8)
      (header_lt : header.length < 2 ^ 8)
      (length_lt : 3 + header.length + payload.length < 2 ^ 16)

namespace PsUnit

def bytes : PsUnit → List UInt8
  | systemHeader body _ => [0, 0, 1, 0xbb] ++ beBytes 2 body.length ++ body
  | streamMap body _ => [0, 0, 1, 0xbc] ++ beBytes 2 body.length ++ body
  | video flags₁ flags₂ header payload _ _ =>
    [0, 0, 1, 0xe0] ++ beBytes 2 (3 + header.length + payload.length) ++
      [flags₁, flags₂, UInt8.ofNat header.length] ++ header ++ payload

/-- The video payload; the other units carry none. -/
def payload : PsUnit → List UInt8
  | systemHeader .. => []
  | streamMap .. => []
  | video _ _ _ payload _ _ => payload

/-- What the demuxer reads off the header fields. -/
def head : PsUnit → UnitHead
  | systemHeader body _ => .table body.length
  | streamMap body _ => .table body.length
  | video _ _ header payload _ _ => .video (3 + header.length + payload.length) header.length

/-- A unit spans its bytes. -/
theorem length_bytes (u : PsUnit) : u.bytes.length = u.head.span := by
  cases u with
  | systemHeader body hlt => simp [bytes, head, UnitHead.span]; omega
  | streamMap body hlt => simp [bytes, head, UnitHead.span]; omega
  | video flags₁ flags₂ header payload hheader hlt => simp [bytes, head, UnitHead.span]; omega

end PsUnit

/-- An audio or private stream 1 PES packet. -/
structure AudioPes where
  /-- Stream id `0xBD` instead of `0xC0`. -/
  isPrivate : Bool
  body : List UInt8
  length_lt : body.length < 2 ^ 16

def AudioPes.bytes (a : AudioPes) : List UInt8 :=
  [0, 0, 1, if a.isPrivate then 0xbd else 0xc0] ++ beBytes 2 a.body.length ++ a.body

/-- Two bytes are read as they were written. -/
private theorem beNat_pair {n : Nat} (h : n < 2 ^ 16) :
    beNat [UInt8.ofNat (n / 256), UInt8.ofNat n] = n :=
  beNat_beBytes (w := 2) (by simpa using h)

/-- The head of a video unit is parsed. -/
private theorem unitAt_video {n : Nat} (hn : n < 2 ^ 16) (flags₁ flags₂ h : UInt8)
    (tail : List UInt8) :
    unitAt ([0, 0, 1, 0xe0] ++ (beBytes 2 n ++ flags₁ :: flags₂ :: h :: tail)) =
      some (.video n h.toNat) := by
  simp [unitAt, beBytes, beNat_pair hn]

/-- The unit at the front is read off its header. -/
theorem unitAt_bytes (u : PsUnit) (rest : List UInt8) :
    unitAt (u.bytes ++ rest) = some u.head := by
  cases u with
  | systemHeader body hlt =>
    simp [unitAt, PsUnit.bytes, PsUnit.head, beBytes, beNat_pair hlt]
  | streamMap body hlt =>
    simp [unitAt, PsUnit.bytes, PsUnit.head, beBytes, beNat_pair hlt]
  | video flags₁ flags₂ header payload hheader hlt =>
    have h8 : header.length % 2 ^ 8 = header.length := Nat.mod_eq_of_lt hheader
    have hunit := unitAt_video hlt flags₁ flags₂ (UInt8.ofNat header.length)
      (header ++ (payload ++ rest))
    rw [UInt8.toNat_ofNat', h8] at hunit
    simpa only [PsUnit.bytes, PsUnit.head, List.append_assoc, List.cons_append,
      List.nil_append] using hunit

/-- An audio packet is not followed. -/
theorem unitAt_audio (a : AudioPes) (rest : List UInt8) : unitAt (a.bytes ++ rest) = none := by
  cases hp : a.isPrivate <;> simp [unitAt, AudioPes.bytes, hp]

/-- The frame once a payload had its turn. -/
def storePayload (acc payload : List UInt8) : List UInt8 :=
  if fitsFrame acc.length payload.length then acc ++ payload else acc

/-- The frame once all units had their turn. -/
def storePayloads (acc : List UInt8) (us : List PsUnit) : List UInt8 :=
  us.foldl (fun acc u => storePayload acc u.payload) acc

@[simp] theorem storePayload_nil (acc : List UInt8) : storePayload acc [] = acc := by
  simp [storePayload]

/-- A unit that is complete is always stored. -/
theorem storeUnit_bytes (acc : List UInt8) (u : PsUnit) (rest : List UInt8) :
    storeUnit acc (u.head, u.bytes ++ rest) = some (storePayload acc u.payload) := by
  cases u with
  | systemHeader body hlt => simp [PsUnit.head, PsUnit.payload, storeUnit]
  | streamMap body hlt => simp [PsUnit.head, PsUnit.payload, storeUnit]
  | video flags₁ flags₂ header payload hheader hlt =>
    have hsub : 3 + header.length + payload.length - (3 + header.length) = payload.length := by
      omega
    have hspan := PsUnit.length_bytes (.video flags₁ flags₂ header payload hheader hlt)
    have hpayload : (((PsUnit.video flags₁ flags₂ header payload hheader hlt).bytes ++ rest).drop
        (9 + header.length)).take payload.length = payload := by
      have hsplit : (PsUnit.video flags₁ flags₂ header payload hheader hlt).bytes ++ rest =
          ([0, 0, 1, 0xe0] ++ beBytes 2 (3 + header.length + payload.length) ++
            [flags₁, flags₂, UInt8.ofNat header.length] ++ header) ++ (payload ++ rest) := by
        simp only [PsUnit.bytes, List.append_assoc]
      rw [hsplit, List.drop_left' (by simp; omega), List.take_left]
    simp only [PsUnit.head, PsUnit.payload, UnitHead.span] at hspan ⊢
    simp only [storeUnit, hsub, List.length_append, hspan, hpayload, storePayload]
    rw [if_neg (by omega)]
    cases hfit : fitsFrame acc.length payload.length with
    | false => simp
    | true =>
      by_cases hempty : payload = []
      · simp [hempty]
      · have hpos := List.length_pos_iff.mpr hempty
        rw [if_neg (by simp; omega), if_neg (by omega), if_pos rfl]

/-- Units at the front are reached and stored in order. -/
theorem storeAll_units (acc : List UInt8) (us : List PsUnit) (rest : List UInt8) :
    storeAll acc (reached (us.flatMap PsUnit.bytes ++ rest)) =
      storeAll (storePayloads acc us) (reached rest) := by
  induction us generalizing acc with
  | nil => rfl
  | cons u us ih =>
    rw [List.flatMap_cons, List.append_assoc, reached_of_some (unitAt_bytes u _), storeAll_cons,
      storeUnit_bytes, Option.bind_some, List.drop_left' u.length_bytes, ih]
    rfl

/-- Behind the pack header the demuxer starts with the units. -/
theorem demux_header (h : PackHeader) (rest : List UInt8) :
    demux (h.bytes ++ rest) = storeAll [] (reached rest) := by
  have h13 : (h.bytes ++ rest)[13]? = some h.stuffinglen := by
    have hsplit : h.bytes ++ rest =
        ([0, 0, 1, 0xba] ++ h.fields) ++ h.stuffinglen :: (h.stuffing ++ rest) := by
      simp only [PackHeader.bytes, List.append_assoc, List.cons_append]
    have hlen : ([0, 0, 1, 0xba] ++ h.fields).length = 13 := by
      rw [List.length_append, h.length_fields]
      rfl
    rw [hsplit, List.getElem?_append_right (by omega), hlen]
    rfl
  have hdrop : (h.bytes ++ rest).drop (14 + (h.stuffinglen &&& 7).toNat) = rest := by
    apply List.drop_left'
    simp only [PackHeader.bytes, List.length_append, List.length_cons, List.length_nil,
      h.length_fields, h.length_stuffing]
    omega
  rw [demux, h13]
  simp only [hdrop]

/-- Payloads that fit together are all stored. -/
theorem storePayloads_of_fits {acc : List UInt8} {us : List PsUnit}
    (h : acc.length + (us.flatMap PsUnit.payload).length < h264FrameSizeMax) :
    storePayloads acc us = acc ++ us.flatMap PsUnit.payload := by
  induction us generalizing acc with
  | nil => simp [storePayloads]
  | cons u us ih =>
    rw [List.flatMap_cons, List.length_append] at h
    have hfit : fitsFrame acc.length u.payload.length = true := decide_eq_true (by omega)
    have hstep : storePayload acc u.payload = acc ++ u.payload := if_pos hfit
    rw [storePayloads, List.foldl_cons, hstep, ← storePayloads,
      ih (by rw [List.length_append]; omega), List.flatMap_cons, List.append_assoc]

/-- The bytes of a pack. -/
def muxed (h : PackHeader) (us : List PsUnit) : List UInt8 := h.bytes ++ us.flatMap PsUnit.bytes

/-- What is muxed is demuxed. -/
theorem demux_muxed (h : PackHeader) (us : List PsUnit) :
    demux (muxed h us) = some (storePayloads [] us) := by
  have hunits := storeAll_units [] us []
  rw [List.append_nil, reached_nil, storeAll_nil] at hunits
  rw [muxed, demux_header, hunits]

/-- `GetH246FromPs` on exactly a pack of units writes the concatenation of the video
payloads to the start of the frame buffer, and nothing else, and returns its length. -/
theorem getH246FromPs_muxed (h : PackHeader) (us : List PsUnit) {h264Buffer : Block}
    (hsize : h264Buffer.size = h264FrameSizeMax) (hlen : (muxed h us).length < 2 ^ 31)
    (htotal : (us.flatMap PsUnit.payload).length < h264FrameSizeMax) :
    ∃ out, getH246FromPs (.ofList (muxed h us)) (muxed h us).length h264Buffer =
        .ok (((us.flatMap PsUnit.payload).length : Int), out) ∧
      out.slice 0 (us.flatMap PsUnit.payload).length = us.flatMap PsUnit.payload ∧
      ∀ i, (us.flatMap PsUnit.payload).length ≤ i → out.byte i = h264Buffer.byte i := by
  have hdemux : demux (muxed h us) = some (us.flatMap PsUnit.payload) := by
    rw [demux_muxed, storePayloads_of_fits (by simpa using htotal), List.nil_append]
  obtain ⟨out, hok, -, hslice, hbehind⟩ := (getH246FromPs_eq (Block.slice_ofList _) (Nat.le_refl _)
    hlen hsize).1 _ hdemux
  exact ⟨out, hok, hslice, hbehind⟩

/-- A pack header without stuffing. -/
def plainHeader : PackHeader where
  fields := [0x44, 0, 4, 0, 4, 1, 0, 0, 3]
  stuffinglen := 0xf8
  stuffing := []
  length_fields := rfl
  length_stuffing := by decide

/-- A video PES packet with five bytes of header data. -/
def videoUnit (payload : List UInt8) (h : payload.length < 2 ^ 15) : PsUnit :=
  .video 0x80 0x80 [0x21, 0, 1, 0, 1] payload (by decide) (by simp; omega)

/-- A pack of a stream map and two units. -/
theorem getH246FromPs_muxed_twoUnits :
    ∃ out, getH246FromPs (.ofList (muxed plainHeader
        [.streamMap [0xe0, 0] (by decide), videoUnit [0x67, 0x42] (by decide),
          videoUnit [0x65] (by decide)]))
        (muxed plainHeader [.streamMap [0xe0, 0] (by decide), videoUnit [0x67, 0x42] (by decide),
          videoUnit [0x65] (by decide)]).length (.fill h264FrameSizeMax 0) =
        .ok ((3 : Nat), out) ∧
      out.slice 0 3 = [0x67, 0x42, 0x65] ∧
      ∀ i, 3 ≤ i → out.byte i = (Block.fill h264FrameSizeMax 0).byte i :=
  getH246FromPs_muxed plainHeader [.streamMap [0xe0, 0] (by decide),
    videoUnit [0x67, 0x42] (by decide), videoUnit [0x65] (by decide)] rfl (by decide) (by decide)

/-- The bytes of a pack with audio packets between its units. -/
def muxedWithAudio (h : PackHeader) (items : List (PsUnit ⊕ AudioPes)) : List UInt8 :=
  h.bytes ++ items.flatMap (Sum.elim PsUnit.bytes AudioPes.bytes)

/-- The units in front of the first audio packet. -/
def beforeAudio (items : List (PsUnit ⊕ AudioPes)) : List PsUnit :=
  (items.takeWhile Sum.isLeft).filterMap Sum.getLeft?

/-- The units behind the first audio packet. -/
def behindAudio (items : List (PsUnit ⊕ AudioPes)) : List PsUnit :=
  (items.dropWhile Sum.isLeft).filterMap Sum.getLeft?

/-- The bytes that a list of units stores. -/
def storedBytes (us : List PsUnit) : Nat :=
  us.foldl (fun stored u => storedAfter stored u.payload.length) 0

/-- The H.264 bytes extracted from a pack, at the length returned. -/
def extracted (pack : List UInt8) (h264Buffer : Block) : Except Fault (List UInt8) :=
  (getH246FromPs (.ofList pack) pack.length h264Buffer).map fun r => r.2.slice 0 r.1.toNat

/-- The units in front of the audio and behind it are all of them. -/
theorem filterMap_getLeft (items : List (PsUnit ⊕ AudioPes)) :
    items.filterMap Sum.getLeft? = beforeAudio items ++ behindAudio items := by
  rw [beforeAudio, behindAudio, ← List.filterMap_append, List.takeWhile_append_dropWhile]

/-- Two runs of units. -/
theorem storePayloads_append (acc : List UInt8) (us vs : List PsUnit) :
    storePayloads acc (us ++ vs) = storePayloads (storePayloads acc us) vs :=
  List.foldl_append

/-- A payload leaves the frame alone exactly when it is empty or does not fit. -/
theorem storePayload_eq_self_iff (acc payload : List UInt8) :
    storePayload acc payload = acc ↔
      payload = [] ∨ fitsFrame acc.length payload.length = false := by
  unfold storePayload
  cases fitsFrame acc.length payload.length <;> simp

/-- What is stored stays. -/
theorem prefix_storePayload (acc payload : List UInt8) : acc <+: storePayload acc payload := by
  unfold storePayload
  split
  · exact List.prefix_append _ _
  · exact List.prefix_rfl

/-- The frame only grows. -/
theorem prefix_storePayloads (acc : List UInt8) (us : List PsUnit) :
    acc <+: storePayloads acc us := by
  induction us generalizing acc with
  | nil => exact List.prefix_rfl
  | cons u us ih => exact (prefix_storePayload acc u.payload).trans (ih _)

/-- Units leave the frame alone exactly when each of them does. -/
theorem storePayloads_eq_self_iff (acc : List UInt8) (us : List PsUnit) :
    storePayloads acc us = acc ↔
      ∀ u ∈ us, u.payload = [] ∨ fitsFrame acc.length u.payload.length = false := by
  induction us with
  | nil => simp [storePayloads]
  | cons u us ih =>
    have hcons : storePayloads acc (u :: us) =
        storePayloads (storePayload acc u.payload) us := rfl
    rw [List.forall_mem_cons, ← storePayload_eq_self_iff]
    refine Iff.trans ?_ (and_congr Iff.rfl ih)
    constructor
    · intro h
      -- the frame only grows, so nothing was stored on the way either
      have hstep : storePayload acc u.payload = acc := by
        have hle := (prefix_storePayloads (storePayload acc u.payload) us).length_le
        rw [← hcons, h] at hle
        exact ((prefix_storePayload acc u.payload).eq_of_length_le hle).symm
      rw [hcons, hstep] at h
      exact ⟨hstep, h⟩
    · rintro ⟨hstep, h⟩
      rw [hcons, hstep, h]

/-- How much is stored depends on the lengths alone. -/
theorem length_storePayloads (acc : List UInt8) (us : List PsUnit) :
    (storePayloads acc us).length =
      us.foldl (fun stored u => storedAfter stored u.payload.length) acc.length := by
  induction us generalizing acc with
  | nil => rfl
  | cons u us ih =>
    have hstep : (storePayload acc u.payload).length =
        storedAfter acc.length u.payload.length := by
      unfold storePayload storedAfter
      split <;> simp
    rw [List.foldl_cons, ← hstep, ← ih]
    rfl

/-- The demuxer stores the units in front of the first audio packet. -/
theorem demux_muxedWithAudio (h : PackHeader) (items : List (PsUnit ⊕ AudioPes)) :
    demux (muxedWithAudio h items) = some (storePayloads [] (beforeAudio items)) := by
  have hstore (acc : List UInt8) :
      storeAll acc (reached (items.flatMap (Sum.elim PsUnit.bytes AudioPes.bytes))) =
        some (storePayloads acc (beforeAudio items)) := by
    induction items generalizing acc with
    | nil => simp [beforeAudio, storePayloads]
    | cons item items ih =>
      cases item with
      | inl u =>
        have hu := storeAll_units acc [u] (items.flatMap (Sum.elim PsUnit.bytes AudioPes.bytes))
        rw [List.flatMap_singleton] at hu
        rw [List.flatMap_cons, Sum.elim_inl, hu, ih]
        rfl
      | inr a =>
        rw [List.flatMap_cons, Sum.elim_inr, reached_of_none (unitAt_audio a _)]
        rfl
  rw [muxedWithAudio, demux_header, hstore]

/-- A pack that is demuxed is extracted. -/
theorem extracted_of_demux {pack frame : List UInt8} {h264Buffer : Block}
    (hsize : h264Buffer.size = h264FrameSizeMax) (hlen : pack.length < 2 ^ 31)
    (hdemux : demux pack = some frame) : extracted pack h264Buffer = .ok frame := by
  obtain ⟨out, hok, -, hslice, -⟩ := (getH246FromPs_eq (Block.slice_ofList pack) (Nat.le_refl _)
    hlen hsize).1 frame hdemux
  rw [extracted, hok]
  simp only [Except.map, Int.toNat_natCast, hslice]

/-- Without its audio a pack is not longer. -/
theorem length_muxed_le (h : PackHeader) (items : List (PsUnit ⊕ AudioPes)) :
    (muxed h (items.filterMap Sum.getLeft?)).length ≤ (muxedWithAudio h items).length := by
  have hle : ((items.filterMap Sum.getLeft?).flatMap PsUnit.bytes).length ≤
      (items.flatMap (Sum.elim PsUnit.bytes AudioPes.bytes)).length := by
    induction items with
    | nil => exact Nat.le_refl _
    | cons item items ih =>
      cases item with
      | inl u => simpa using ih
      | inr a =>
        rw [List.flatMap_cons, List.length_append]
        exact Nat.le_add_left_of_le ih
  rw [muxed, muxedWithAudio, List.length_append, List.length_append]
  omega

/-- Audio packets leave what is extracted from a pack as it is exactly when no payload
behind the first of them would have been stored. -/
theorem extracted_audio_iff (h : PackHeader) (items : List (PsUnit ⊕ AudioPes))
    {h264Buffer : Block} (hsize : h264Buffer.size = h264FrameSizeMax)
    (hlen : (muxedWithAudio h items).length < 2 ^ 31) :
    extracted (muxedWithAudio h items) h264Buffer =
        extracted (muxed h (items.filterMap Sum.getLeft?)) h264Buffer ↔
      ∀ u ∈ behindAudio items,
        u.payload = [] ∨ fitsFrame (storedBytes (beforeAudio items)) u.payload.length = false := by
  have hlen' := Nat.lt_of_le_of_lt (length_muxed_le h items) hlen
  rw [extracted_of_demux hsize hlen (demux_muxedWithAudio h items),
    extracted_of_demux hsize hlen' (demux_muxed h _), Except.ok.injEq, filterMap_getLeft,
    storePayloads_append, eq_comm, storePayloads_eq_self_iff, length_storePayloads]
  rfl

/-- An audio packet at the end of a pack changes nothing. -/
theorem extracted_audio_iff_trailing :
    extracted (muxedWithAudio plainHeader
        [.inl (videoUnit [0x65] (by decide)), .inr ⟨false, [0x80, 0, 0], by decide⟩])
        (.fill h264FrameSizeMax 0) =
      extracted (muxed plainHeader [videoUnit [0x65] (by decide)]) (.fill h264FrameSizeMax 0) :=
  (extracted_audio_iff plainHeader
    [.inl (videoUnit [0x65] (by decide)), .inr ⟨false, [0x80, 0, 0], by decide⟩] rfl
    (by decide)).mpr (by decide)

/-- An audio packet between two video packets cuts off the second. -/
theorem not_extracted_audio_between :
    extracted (muxedWithAudio plainHeader
        [.inl (videoUnit [0x67] (by decide)), .inr ⟨false, [0x80, 0, 0], by decide⟩,
          .inl (videoUnit [0x65] (by decide))]) (.fill h264FrameSizeMax 0) ≠
      extracted (muxed plainHeader
        [videoUnit [0x67] (by decide), videoUnit [0x65] (by decide)])
        (.fill h264FrameSizeMax 0) := by
  decide +kernel

end Jrtplib4Android
