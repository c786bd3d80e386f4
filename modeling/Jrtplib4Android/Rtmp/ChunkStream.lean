import Jrtplib4Android.Core.Run
import Jrtplib4Android.Rtmp.ChunkReader

/-!
# The chunk stream read back

What `RTMP_SendPacket` writes goes through `RTMP_ReadPacket` at the other end. Headers and
bodies come back on every channel, but the stream id of a header that is not large is that of
the channel, and a header with nothing in it repeats the time field of the channel, which
the writer takes for a difference of zero.
-/

namespace Jrtplib4Android

open CSem

/-- A channel number that needs no reserved value. -/
def ChannelNumber (mNChannel : Int) : Prop := 2 ≤ mNChannel ∧ mNChannel < rtmpChannels

/-- The two parts of the first byte of a header. -/
private theorem headerByte_small {headerType : Nat} (h : headerType < 4) {n : Nat} (hn : n < 64) :
    let c := UInt8.ofNat headerType <<< 6 ||| UInt8.ofNat n
    (c &&& 0xc0) >>> 6 = UInt8.ofNat headerType ∧ c &&& 0x3f = UInt8.ofNat n ∧
      (0xc0 : UInt8) ||| c = (3 : UInt8) <<< 6 ||| UInt8.ofNat n := by
  revert headerType n
  decide +kernel

private theorem ofInt_byte (n : Nat) : UInt8.ofInt n = UInt8.ofNat n := by
  have h := intByte_natCast n 0
  rwa [intByte, Int.shiftRight_zero, Nat.pow_zero, Nat.div_one] at h

/-- A header type is one of four. -/
theorem le_three_cases {headerType : UInt8} (h : headerType ≤ 3) :
    ∃ n, n < 4 ∧ headerType = UInt8.ofNat n := by
  have hnat : headerType.toNat ≤ 3 := UInt8.le_iff_toNat_le.mp h
  exact ⟨headerType.toNat, by omega, UInt8.ofNat_toNat.symm⟩

/-- The start of a header reads back. -/
theorem readChannel_headerByte {headerType : UInt8} (h : headerType ≤ 3) {mNChannel : Int}
    (hc : ChannelNumber mNChannel) (rest : List UInt8) :
    readChannel (headerByte headerType mNChannel :: (channelBytes mNChannel ++ rest)) =
      some (headerType, mNChannel, rest) := by
  obtain ⟨n, hn, rfl⟩ := le_three_cases h
  obtain ⟨hlo, hhi⟩ := hc
  simp only [rtmpChannels] at hhi
  lift mNChannel to Nat using by omega
  unfold headerByte channelBytes channelSize
  by_cases hlarge : (319 : Int) < mNChannel
  · obtain ⟨hfmt, hlow, -⟩ := headerByte_small hn (n := 1) (by decide)
    have hsub : (mNChannel : Int) - 64 = (mNChannel - 64 : Nat) := by omega
    simp only [hlarge, ite_true, hsub, intByte_natCast, List.take_succ_cons, List.take_zero,
      List.cons_append, List.nil_append, readChannel]
    rw [show UInt8.ofNat n <<< 6 ||| (1 : UInt8) = UInt8.ofNat n <<< 6 ||| UInt8.ofNat 1 from rfl,
      hfmt, hlow, if_neg (by decide), if_pos (by decide)]
    simp only [UInt8.toNat_ofNat']
    have hvalue : (((mNChannel - 64) / 2 ^ 8 % 2 ^ 8 : Nat) : Int) * 256 +
        ((mNChannel - 64) / 2 ^ 0 % 2 ^ 8 : Nat) + 64 = mNChannel := by omega
    rw [hvalue]
  · by_cases hmid : (63 : Int) < mNChannel
    · obtain ⟨hfmt, hlow, -⟩ := headerByte_small hn (n := 0) (by decide)
      have hsub : (mNChannel : Int) - 64 = (mNChannel - 64 : Nat) := by omega
      simp only [hlarge, hmid, ite_true, ite_false, hsub, intByte_natCast, List.take_succ_cons,
        List.take_zero, List.cons_append, List.nil_append, readChannel]
      rw [show UInt8.ofNat n <<< 6 = UInt8.ofNat n <<< 6 ||| UInt8.ofNat 0 from UInt8.or_zero.symm,
        hfmt, hlow, if_pos (by decide)]
      simp only [UInt8.toNat_ofNat']
      have hvalue : (((mNChannel - 64) / 2 ^ 0 % 2 ^ 8 : Nat) : Int) + 64 = mNChannel := by omega
      rw [hvalue]
    · obtain ⟨hfmt, hlow, -⟩ := headerByte_small hn (n := mNChannel) (by omega)
      simp only [hlarge, hmid, ite_false, List.take_zero, List.nil_append, readChannel]
      have hzero : UInt8.ofNat mNChannel ≠ 0 := by
        rw [ne_eq, ← UInt8.toNat_inj, UInt8.toNat_ofNat', UInt8.toNat_zero]
        omega
      have hone : UInt8.ofNat mNChannel ≠ 1 := by
        rw [ne_eq, ← UInt8.toNat_inj, UInt8.toNat_ofNat', UInt8.toNat_one]
        omega
      have hvalue : mNChannel % 2 ^ 8 = mNChannel := by omega
      rw [ofInt_byte, hfmt, hlow, if_neg hzero, if_neg hone, UInt8.toNat_ofNat', hvalue]

/-- The header in front of a later chunk is one with nothing in it. -/
theorem continuationBytes_eq {headerType : UInt8} (h : headerType ≤ 3) {mNChannel : Int}
    (hc : ChannelNumber mNChannel) :
    continuationBytes headerType mNChannel = headerByte 3 mNChannel :: channelBytes mNChannel := by
  obtain ⟨n, hn, rfl⟩ := le_three_cases h
  obtain ⟨hlo, hhi⟩ := hc
  lift mNChannel to Nat using by omega
  unfold continuationBytes headerByte
  congr 1
  split
  · rename_i hsize
    have hsmall : mNChannel < 64 := by
      unfold channelSize at hsize
      split at hsize <;> [cases hsize; skip]
      split at hsize <;> [cases hsize; skip]
      omega
    rw [ofInt_byte]
    exact (headerByte_small hn hsmall).2.2
  · have hzero := (headerByte_small hn (n := 0) (by decide)).2.2
    rwa [show UInt8.ofNat 0 = 0 from rfl, UInt8.or_zero, UInt8.or_zero] at hzero
  · exact (headerByte_small hn (n := 1) (by decide)).2.2

/-- What a header says behind the channel, without a time that does not fit its field. -/
def headerFields (headerType : UInt8) (t : UInt32) (packet : RTMPPacket) : List UInt8 :=
  let nSize := packetSize headerType
  (if 1 < nSize then encodeInt24 (if 0xffffff < t then 0xffffff else t.toNat) else []) ++
    (if 4 < nSize then encodeInt24 packet.mNBodySize.toNat ++ [packet.mPacketType] else []) ++
    (if 8 < nSize then encodeInt32LE packet.mNInfoField2 else [])

/-- The time behind the fields. -/
def extendedBytes (headerType : UInt8) (t : UInt32) : List UInt8 :=
  if extendedTime headerType t then encodeInt32 t.toNat else []

/-- The parts of a header, in the order in which they are read. -/
theorem headerBytes_eq (headerType : UInt8) (t : UInt32) (packet : RTMPPacket) :
    headerBytes headerType t packet =
      headerByte headerType packet.mNChannel :: (channelBytes packet.mNChannel ++
        (headerFields headerType t packet ++ extendedBytes headerType t)) := by
  simp only [headerBytes, headerFields, extendedBytes, List.append_assoc, List.cons_append,
    List.nil_append]

/-- The fields behind the channel take the size of the header type. -/
theorem length_headerFields {headerType : UInt8} (h : headerType ≤ 3) (t : UInt32)
    (packet : RTMPPacket) :
    (headerFields headerType t packet).length = packetSize headerType - 1 := by
  obtain ⟨n, hn, rfl⟩ := le_three_cases h
  interval_cases n <;> simp [headerFields, packetSize, encodeInt24, encodeInt32LE]

/-- A field of 24 bits reads back anywhere in a header. -/
theorem decodeInt_encodeInt24 {n : Nat} (h : n < 2 ^ 24) (pre rest : List UInt8) :
    decodeInt (pre ++ (encodeInt24 n ++ rest)) pre.length 3 = n := by
  rw [decodeInt, List.drop_left, encodeInt24, beBytes_three, List.take_left' (length_beBytes 3 n)]
  exact beNat_beBytes h

/-- So does the extended time. -/
theorem decodeInt_encodeInt32 {n : Nat} (h : n < 2 ^ 32) : decodeInt (encodeInt32 n) 0 4 = n := by
  rw [decodeInt, List.drop_zero, encodeInt32, beBytes_four, List.take_of_length_le (by simp)]
  exact beNat_beBytes h

/-- So does the stream id. -/
theorem decodeInt32LE_encodeInt32LE {x : Int} (hlo : -2 ^ 31 ≤ x) (hhi : x < 2 ^ 31) :
    decodeInt32LE (encodeInt32LE x) = x := by
  have hbyte : ∀ k, (intByte x k).toNat = (x / (2 ^ k : Nat) % 256).toNat := by
    intro k
    rw [intByte, UInt8.ofInt, UInt8.toNat_ofNat', Int.shiftRight_eq_div_pow]
    omega
  unfold decodeInt32LE encodeInt32LE
  simp only [List.getD_cons_zero, List.getD_cons_succ, toNat_leWord, hbyte]
  unfold toInt
  split <;> omega

/-- The time in its field of three bytes. -/
def timeField (t : UInt32) : UInt32 := if 0xffffff < t then 0xffffff else t

/-- The time field is full exactly if the time is behind the header. -/
theorem timeField_eq_iff (t : UInt32) : timeField t = 0xffffff ↔ 0xffffff ≤ t := by
  unfold timeField
  split
  · rename_i h
    exact ⟨fun _ => UInt32.le_of_lt h, fun _ => rfl⟩
  · rename_i h
    rw [UInt32.not_lt] at h
    exact ⟨fun ht => UInt32.le_of_eq ht.symm, fun ht => UInt32.le_antisymm h ht⟩

/-- The packet that a header makes of the one it starts from. -/
def InPacket.withHeader (base : InPacket) (headerType : UInt8) (t : UInt32) (packet : RTMPPacket) :
    InPacket :=
  if packetSize headerType = 1 then base
  else
    let base := { base with mNTimeStamp := t }
    if packetSize headerType = 4 then base
    else
      let base := { base with
        mNBodySize := packet.mNBodySize.toNat
        mNBytesRead := 0
        mBody := .null
        mPacketType := packet.mPacketType }
      if packetSize headerType = 8 then base
      else { base with mNInfoField2 := packet.mNInfoField2 }

/-- A packet that `RTMP_ReadPacket` can give back. -/
structure RTMPPacket.Readable (packet : RTMPPacket) : Prop extends packet.Sendable where
  number : ChannelNumber packet.mNChannel
  size : packet.mNBodySize.toNat < 2 ^ 24
  streamIdLow : -2 ^ 31 ≤ packet.mNInfoField2
  streamIdHigh : packet.mNInfoField2 < 2 ^ 31

/-- The time field has 24 bits. -/
theorem toNat_timeField_lt (t : UInt32) : (timeField t).toNat < 2 ^ 24 := by
  unfold timeField
  split
  · decide
  · rename_i h
    rw [UInt32.not_lt, UInt32.le_iff_toNat_le] at h
    exact Nat.lt_of_le_of_lt h (by decide)

/-- The time field as the code computes it. -/
theorem toNat_timeField (t : UInt32) :
    (if 0xffffff < t then (0xffffff : Int) else t.toNat) = (timeField t).toNat := by
  unfold timeField
  split <;> rfl

/-- The fields of the four headers. -/
theorem headerFields_eq (t : UInt32) (packet : RTMPPacket) :
    headerFields 0 t packet = encodeInt24 (timeField t).toNat ++
        (encodeInt24 packet.mNBodySize.toNat ++
          (packet.mPacketType :: encodeInt32LE packet.mNInfoField2)) ∧
      headerFields 1 t packet = encodeInt24 (timeField t).toNat ++
        (encodeInt24 packet.mNBodySize.toNat ++ [packet.mPacketType]) ∧
      headerFields 2 t packet = encodeInt24 (timeField t).toNat ++ [] ∧
      headerFields 3 t packet = [] := by
  simp [headerFields, packetSize, toNat_timeField]

/-- The fields of a header are decoded. -/
theorem decode_headerFields {headerType : UInt8} (h : headerType ≤ 3) (t : UInt32)
    {packet : RTMPPacket} (hp : packet.Readable) (base : InPacket) :
    base.decode (headerFields headerType t packet) =
      base.withHeader headerType (timeField t) packet := by
  have htime : ∀ rest, UInt32.ofNat (decodeInt (encodeInt24 (timeField t).toNat ++ rest) 0 3) =
      timeField t := fun rest => by
    have hdecode := decodeInt_encodeInt24 (toNat_timeField_lt t) [] rest
    rw [List.nil_append, List.length_nil] at hdecode
    rw [hdecode, UInt32.ofNat_toNat]
  have hsize : ∀ rest, decodeInt (encodeInt24 (timeField t).toNat ++
      (encodeInt24 packet.mNBodySize.toNat ++ rest)) 3 3 = packet.mNBodySize.toNat :=
    fun rest => decodeInt_encodeInt24 hp.size (encodeInt24 (timeField t).toNat) rest
  have hinfo := decodeInt32LE_encodeInt32LE hp.streamIdLow hp.streamIdHigh
  obtain ⟨h0, h1, h2, h3⟩ := headerFields_eq t packet
  obtain ⟨n, hn, rfl⟩ := le_three_cases h
  have hlength := length_headerFields h t packet
  interval_cases n
  · rw [show UInt8.ofNat 0 = 0 from rfl] at hlength ⊢
    rw [InPacket.decode, hlength, h0, htime, hsize]
    exact congrArg (fun x => { base with
      mNTimeStamp := timeField t
      mNBodySize := packet.mNBodySize.toNat
      mNBytesRead := 0
      mBody := .null
      mPacketType := packet.mPacketType
      mNInfoField2 := x }) hinfo
  · rw [show UInt8.ofNat 1 = 1 from rfl] at hlength ⊢
    rw [InPacket.decode, hlength, h1, htime, hsize]
    rfl
  · rw [show UInt8.ofNat 2 = 2 from rfl] at hlength ⊢
    rw [InPacket.decode, hlength, h2, htime]
    rfl
  · rw [show UInt8.ofNat 3 = 3 from rfl] at hlength ⊢
    rw [InPacket.decode, hlength, h3]
    rfl

/-- Bytes that are there are read. -/
theorem readN_append {n : Nat} {bytes : List UInt8} (h : bytes.length = n) (rest : List UInt8) :
    readN n (bytes ++ rest) = some (bytes, rest) := by
  subst h
  rw [readN, if_pos (by rw [List.length_append]; exact Nat.le_add_right _ _), List.take_left,
    List.drop_left]

/-- The time of a header with a time is set, whatever it was. -/
theorem InPacket.withHeader_time {headerType : UInt8} (h : packetSize headerType ≠ 1)
    (base : InPacket) (t t' : UInt32) (packet : RTMPPacket) :
    ({ base.withHeader headerType t packet with mNTimeStamp := t' } : InPacket) =
        base.withHeader headerType t' packet ∧
      (base.withHeader headerType t packet).mNTimeStamp = t := by
  unfold withHeader
  simp only [h, ite_false]
  split <;> [skip; split] <;> exact ⟨rfl, rfl⟩

/-- A header reads back, and what is behind it is the chunk. -/
theorem rtmpReadPacket_headerBytes {headerType : UInt8} (h : headerType ≤ 3) (t : UInt32)
    {packet : RTMPPacket} (hp : packet.Readable) {r : ChunkReader} (q : InPacket)
    (rest : List UInt8) (hrelease : r.release headerType packet.mNChannel = .ok r) :
    rtmpReadPacket r q (headerBytes headerType t packet ++ rest) =
      r.readChunk headerType
        ((r.known headerType packet.mNChannel q).withHeader headerType t packet) rest := by
  have hlength := length_headerFields h t packet
  rw [headerBytes_eq, List.cons_append, List.append_assoc, List.append_assoc]
  unfold rtmpReadPacket
  rw [readChannel_headerByte h hp.number]
  simp only [readN_append hlength, hrelease, bind, Except.bind, decode_headerFields h t hp, hlength]
  by_cases hone : packetSize headerType = 1
  · have hextended : extendedBytes headerType t = [] := by
      simp [extendedBytes, extendedTime, hone]
    simp [hone, hextended, InPacket.withHeader]
  · have hthree : 3 ≤ packetSize headerType - 1 := by
      obtain ⟨n, hn, rfl⟩ := le_three_cases h
      interval_cases n <;> first | decide | exact absurd rfl hone
    obtain ⟨htime, hfield⟩ := InPacket.withHeader_time hone
      (r.known headerType packet.mNChannel q) (timeField t) t packet
    simp only [hthree, hfield, true_and, timeField_eq_iff]
    by_cases hlong : 0xffffff ≤ t
    · have hextended : extendedBytes headerType t = encodeInt32 t.toNat := by
        rw [extendedBytes, extendedTime, if_pos (decide_eq_true ⟨by omega, hlong⟩)]
      have hfour : (encodeInt32 t.toNat).length = 4 := rfl
      have hread := readN_append hfour rest
      simp only [hlong, ite_true, hextended, hread, decodeInt_encodeInt32 t.toNat_lt,
        UInt32.ofNat_toNat, htime]
    · have hextended : extendedBytes headerType t = [] := by
        simp [extendedBytes, extendedTime, hlong]
      have htimeField : timeField t = t := if_neg fun hlt => hlong (UInt32.le_of_lt hlt)
      simp only [hlong, ite_false, hextended, List.nil_append, htimeField]

/-- The header of a later chunk leads back to the packet of the channel. -/
theorem rtmpReadPacket_continuation {r : ChunkReader} {packet : InPacket} {mNChannel : Int}
    (hc : ChannelNumber mNChannel) (h : r.mVecChannelsIn mNChannel = some packet) (q : InPacket)
    (rest : List UInt8) :
    rtmpReadPacket r q (headerByte 3 mNChannel :: channelBytes mNChannel ++ rest) =
      r.readChunk 3 packet rest := by
  rw [List.cons_append]
  unfold rtmpReadPacket
  rw [readChannel_headerByte (by decide) hc]
  have hnone : ([] : List UInt8).length = packetSize 3 - 1 := rfl
  have hread := readN_append hnone rest
  rw [List.nil_append] at hread
  simp only [hread]
  rw [ChunkReader.release, ChunkReader.known, h]
  rfl

/-- A packet with the bytes that have come in its body. -/
def InPacket.Holds (p : InPacket) (bytes : List UInt8) : Prop :=
  p.mNBytesRead = bytes.length ∧
    match p.mBody with
    | .null => p.mNBodySize = 0
    | .alive b => b.size = p.mNBodySize ∧ b.slice 0 bytes.length = bytes
    | .freed => False

/-- The next bytes go behind those that have come. -/
theorem InPacket.Holds.store {p : InPacket} {bytes xs : List UInt8} (h : p.Holds bytes)
    (hroom : bytes.length + xs.length ≤ p.mNBodySize) :
    ∃ mBody, p.mBody.store p.mNBytesRead xs = .ok mBody ∧
      ({ p with mNBytesRead := p.mNBytesRead + xs.length, mBody := mBody } : InPacket).Holds
        (bytes ++ xs) := by
  obtain ⟨hread, hbody⟩ := h
  have hlength : p.mNBytesRead + xs.length = (bytes ++ xs).length := by
    rw [hread, List.length_append]
  rcases hb : p.mBody with _ | b | _ <;> simp only [hb] at hbody
  · have hnil : xs = [] := List.length_eq_zero_iff.mp (by omega)
    subst hnil
    exact ⟨.null, rfl, hlength, hbody⟩
  · refine ⟨_, InBody.store_alive (by omega), hlength, hbody.1, ?_⟩
    rw [hread, List.length_append, Block.slice_add, Nat.zero_add, Block.slice_copy_self,
      Block.slice_ofList, Block.slice_copy_of_le (by omega), hbody.2]

/-- A packet that is ready holds its body. -/
theorem InPacket.Holds.bytes {p : InPacket} {body : List UInt8} (h : p.Holds body)
    (hsize : body.length = p.mNBodySize) : p.mBody.bytes p.mNBodySize = body := by
  obtain ⟨-, hbody⟩ := h
  rcases hb : p.mBody with _ | b | _ <;> simp only [hb] at hbody
  · exact (List.length_eq_zero_iff.mp (hsize.trans hbody)).symm
  · rw [InBody.bytes, ← hsize, hbody.2]

/-- Calls of `RTMP_ReadPacket`, from what the first leads to, up to the one that makes the
packet ready. -/
inductive Completes : Except Fault ReadResult → ChunkReader → InPacket → List UInt8 → Prop
  | ready {r : ChunkReader} {packet : InPacket} {input : List UInt8} (h : packet.isReady) :
    Completes (.ok (.done r packet input)) r packet input
  | more {r r' : ChunkReader} {packet packet' : InPacket} {input input' : List UInt8}
    (h : ¬ packet.isReady) (hnext : Completes (rtmpReadPacket r packet input) r' packet' input') :
    Completes (.ok (.done r packet input)) r' packet' input'

/-- The run hands the packet out, and goes on behind it. -/
theorem Completes.run {result : Except Fault ReadResult} {r' : ChunkReader} {packet' : InPacket}
    {input' : List UInt8} (h : Completes result r' packet' input') :
    ∃ n, ∀ {fuel : Nat} {run : ReadRun} {r : ChunkReader} {packet : InPacket} {input : List UInt8},
      rtmpReadPacket r packet input = result →
      rtmpReadPackets fuel (r'.handleChangeChunkSize packet') { packet' with mBody := .null }
        input' = .ok run →
      rtmpReadPackets (fuel + n) r packet input =
        .ok { run with packets := packet'.content :: run.packets } := by
  induction h with
  | ready h =>
    refine ⟨1, fun hread hrun => ?_⟩
    simp only [rtmpReadPackets, hread, bind, Except.bind, h, ite_true, hrun, pure, Except.pure]
  | more h _ ih =>
    obtain ⟨n, ih⟩ := ih
    refine ⟨n + 1, fun hread hrun => ?_⟩
    rw [← Nat.add_assoc]
    simp only [rtmpReadPackets, hread, bind, Except.bind, h, ite_false]
    exact ih rfl hrun

/-- A chunk that fits goes into the body. -/
theorem readChunk_eq {k : Nat} {r : ChunkReader} (hr : r.mInChunkSize = k) {headerType : UInt8}
    {p : InPacket} {bytes todo xs : List UInt8} (h : (p.allocate headerType).Holds bytes)
    (hsize : bytes.length + todo.length = (p.allocate headerType).mNBodySize)
    (hxs : xs.length = min k todo.length) (rest : List UInt8) :
    ∃ mBody, r.readChunk headerType p (xs ++ rest) =
        .ok (r.received { p.allocate headerType with
          mNBytesRead := (p.allocate headerType).mNBytesRead + xs.length, mBody := mBody } rest) ∧
      ({ p.allocate headerType with
        mNBytesRead := (p.allocate headerType).mNBytesRead + xs.length,
        mBody := mBody } : InPacket).Holds (bytes ++ xs) := by
  unfold ChunkReader.readChunk
  generalize p.allocate headerType = p at h hsize
  have hroom : bytes.length + xs.length ≤ p.mNBodySize := by omega
  obtain ⟨mBody, hstore, hholds⟩ := h.store hroom
  refine ⟨mBody, ?_, hholds⟩
  have hread := h.1
  have hchunk : r.nChunk p = (xs.length : Nat) := by
    rw [ChunkReader.nChunk, hr]
    split <;> omega
  have hnonneg : ¬ (xs.length : Int) < 0 := by omega
  have hlong : ¬ (xs ++ rest).length < xs.length := by
    rw [List.length_append]
    omega
  simp only [hchunk, hnonneg, Int.toNat_natCast, List.take_left, List.drop_left, hstore, bind,
    Except.bind, hlong, ite_false, pure, Except.pure]

/-- A body that is there is not allocated again. -/
theorem InPacket.allocate_of_alive {p : InPacket} {b : Block} (h : p.mBody = .alive b)
    (headerType : UInt8) : p.allocate headerType = p := by
  rw [allocate, h]

/-- The packet with a body that is complete. -/
def InPacket.filled (p : InPacket) (mBody : InBody) : InPacket :=
  { p with mNBytesRead := p.mNBodySize, mBody := mBody }

/-- What a later packet of the channel replaces leaves no trace. -/
theorem ChunkReader.finish_keep (r : ChunkReader) (packet : InPacket) (mBody : InBody) :
    (r.keep packet).finish (packet.filled mBody) = r.finish (packet.filled mBody) := by
  unfold finish keep InPacket.filled
  simp only [Function.update_idem]
  rfl

/-- The pieces of a body and the headers between them fill the packet. -/
theorem completes_separated {k : Nat} (hk : 0 < k) {mNChannel : Int} (hc : ChannelNumber mNChannel)
    (todo : List UInt8) {r : ChunkReader} (hr : r.mInChunkSize = k) {headerType : UInt8}
    {p : InPacket} {bytes : List UInt8} (h : (p.allocate headerType).Holds bytes)
    (hsize : bytes.length + todo.length = (p.allocate headerType).mNBodySize)
    (hchannel : (p.allocate headerType).mNChannel = mNChannel) (rest : List UInt8) :
    ∃ mBody, mBody.bytes (p.allocate headerType).mNBodySize = bytes ++ todo ∧
      Completes (r.readChunk headerType p
          (separated k (headerByte 3 mNChannel :: channelBytes mNChannel) todo ++ rest))
        (r.finish ((p.allocate headerType).filled mBody))
        (r.handOut ((p.allocate headerType).filled mBody)) rest := by
  induction todo using pieces_induction k hk generalizing r headerType p bytes with
  | short todo hle =>
    rw [separated_of_le hle]
    obtain ⟨mBody, hread, hholds⟩ :=
      readChunk_eq hr h hsize (Nat.min_eq_right hle).symm rest
    have hfull : (p.allocate headerType).mNBytesRead + todo.length =
        (p.allocate headerType).mNBodySize := by
      rw [h.1, hsize]
    rw [hfull] at hread hholds
    refine ⟨mBody, hholds.bytes (by rw [List.length_append, hsize]), ?_⟩
    rw [hread, ChunkReader.received, if_pos]
    · exact .ready rfl
    · exact rfl
  | long todo hlt ih =>
    have htake : (todo.take k).length = k := List.length_take_of_le hlt.le
    rw [separated_of_lt hk hlt, List.append_assoc, List.append_assoc]
    have hmin : (todo.take k).length = min k todo.length := by rw [htake, Nat.min_eq_left hlt.le]
    obtain ⟨mBody, hread, hholds⟩ :=
      readChunk_eq hr h hsize hmin
        (headerByte 3 mNChannel :: channelBytes mNChannel ++
          (separated k (headerByte 3 mNChannel :: channelBytes mNChannel) (todo.drop k) ++ rest))
    rw [htake] at hread hholds
    set packet : InPacket := { p.allocate headerType with
      mNBytesRead := (p.allocate headerType).mNBytesRead + k, mBody := mBody } with hpacket
    have hunready : ¬ packet.isReady := by
      have hbytes := h.1
      simp only [InPacket.isReady, hpacket]
      omega
    have hallocate : packet.allocate 3 = packet := by
      have hbody := hholds.2
      rcases hb : packet.mBody with _ | b | _ <;> simp only [hb] at hbody
      · have hsize' : packet.mNBodySize = (p.allocate headerType).mNBodySize := rfl
        omega
      · exact InPacket.allocate_of_alive hb 3
    have hkept : (r.keep packet).mVecChannelsIn mNChannel = some packet := by
      rw [ChunkReader.mVecChannelsIn_keep, show packet.mNChannel = mNChannel from hchannel,
        Function.update_self]
    have hleft : (bytes ++ todo.take k).length + (todo.drop k).length = packet.mNBodySize := by
      rw [List.length_append, htake, List.length_drop]
      simp only [hpacket]
      omega
    have hkeep : (r.keep packet).mInChunkSize = k := hr
    rw [← hallocate] at hholds hleft
    obtain ⟨mBody', hbytes, hcompletes⟩ := ih hkeep hholds hleft (by rwa [hallocate])
    rw [hallocate] at hbytes hcompletes
    refine ⟨mBody', ?_, ?_⟩
    · rw [hbytes, List.append_assoc, List.take_append_drop]
    · rw [hread, ChunkReader.received, if_neg hunready]
      refine .more hunready ?_
      rw [rtmpReadPacket_continuation hc hkept]
      rwa [ChunkReader.finish_keep r packet] at hcompletes

/-! ## What the headers say -/

/-- A channel of the wire: what the writer has sent last, and what the reader keeps of the
headers. -/
structure ChannelWire where
  prev : SentHeader
  /-- The time field that was read last. -/
  field : UInt32
  streamId : Int
  /-- The time of the packet that was read last. -/
  time : UInt32

/-- The channels of the wire, and the stream id of the packet that was read last. -/
structure WireState where
  channels : Int → Option ChannelWire
  streamId : Int

namespace WireState

/-- Nothing has been sent. -/
def init : WireState := ⟨fun _ => none, 0⟩

/-- What the writer has sent on the channels. -/
def out (s : WireState) : ChannelsOut := fun c => (s.channels c).map (·.prev)

/-- The stream id that a header without one stands for. -/
def knownStreamId (s : WireState) (mNChannel : Int) : Int :=
  ((s.channels mNChannel).map (·.streamId)).getD s.streamId

/-- The time of a channel at the reader. -/
def clock (s : WireState) (mNChannel : Int) : UInt32 :=
  ((s.channels mNChannel).map (·.time)).getD 0

/-- The header of a packet. -/
def header (s : WireState) (packet : RTMPPacket) : UInt8 × UInt32 :=
  let (headerType, last) := compressed (s.out packet.mNChannel) packet
  (headerType, packet.mNTimeStamp - last)

/-- The channel behind a packet. -/
def next (s : WireState) (packet : RTMPPacket) : ChannelWire :=
  let (headerType, t) := s.header packet
  let field :=
    if headerType = rtmpPacketSizeMinimum then
      ((s.channels packet.mNChannel).map (·.field)).getD t
    else t
  if headerType = rtmpPacketSizeLarge then
    ⟨packet.sentHeader, field, packet.mNInfoField2, field⟩
  else
    ⟨packet.sentHeader, field, s.knownStreamId packet.mNChannel,
      field + s.clock packet.mNChannel⟩

/-- The wire behind a packet. -/
def step (s : WireState) (packet : RTMPPacket) : WireState where
  channels := Function.update s.channels packet.mNChannel (some (s.next packet))
  streamId := (s.next packet).streamId

/-- A packet as the reader hands it out. -/
def heard (s : WireState) (packet : RTMPPacket) : PacketContent where
  packetType := packet.mPacketType
  channel := packet.mNChannel
  timestamp := (s.next packet).time
  streamId := (s.next packet).streamId
  bodySize := packet.mNBodySize.toNat
  body := packet.mBody.slice 0 packet.mNBodySize.toNat

/-- A packet that comes through: it has a large header, or the stream id of its channel, and
if it repeats what was sent last, the time field that it repeats is zero. -/
def Heeds (s : WireState) (packet : RTMPPacket) : Prop :=
  packet.mHeaderType = rtmpPacketSizeLarge ∨
    s.knownStreamId packet.mNChannel = packet.mNInfoField2 ∧
      ∀ c, s.channels packet.mNChannel = some c →
        c.prev = packet.sentHeader → c.field = 0

/-- The reader's clock is that of the packets. -/
def InTime (s : WireState) : Prop :=
  ∀ c wire, s.channels c = some wire → wire.time = wire.prev.mNTimeStamp

end WireState

/-- What a packet is to say. -/
def RTMPPacket.content (packet : RTMPPacket) : PacketContent where
  packetType := packet.mPacketType
  channel := packet.mNChannel
  timestamp := packet.mNTimeStamp
  streamId := packet.mNInfoField2
  bodySize := packet.mNBodySize.toNat
  body := packet.mBody.slice 0 packet.mNBodySize.toNat

/-- A packet as the publisher asks for it: with a large or a medium header, and none that
changes the chunk size. -/
structure RTMPPacket.Requested (packet : RTMPPacket) : Prop extends packet.Readable where
  request : packet.mHeaderType = rtmpPacketSizeLarge ∨ packet.mHeaderType = rtmpPacketSizeMedium
  packetType : packet.mPacketType ≠ 1

/-- The headers of a requested packet, with the time in it and the channel behind it. -/
inductive WireState.Case (s : WireState) (packet : RTMPPacket) :
    UInt8 → UInt32 → ChannelWire → Prop
  | large (h : packet.mHeaderType = rtmpPacketSizeLarge) :
    s.Case packet rtmpPacketSizeLarge packet.mNTimeStamp
      ⟨packet.sentHeader, packet.mNTimeStamp, packet.mNInfoField2, packet.mNTimeStamp⟩
  | first (h : packet.mHeaderType = rtmpPacketSizeMedium)
    (hwire : s.channels packet.mNChannel = none) :
    s.Case packet rtmpPacketSizeMedium packet.mNTimeStamp
      ⟨packet.sentHeader, packet.mNTimeStamp, s.streamId, packet.mNTimeStamp⟩
  | same {wire : ChannelWire} (h : packet.mHeaderType = rtmpPacketSizeMedium)
    (hwire : s.channels packet.mNChannel = some wire) (hprev : wire.prev = packet.sentHeader) :
    s.Case packet rtmpPacketSizeMinimum 0
      ⟨packet.sentHeader, wire.field, wire.streamId, wire.field + wire.time⟩
  | other {wire : ChannelWire} {headerType : UInt8} (h : packet.mHeaderType = rtmpPacketSizeMedium)
    (hwire : s.channels packet.mNChannel = some wire) (hprev : wire.prev ≠ packet.sentHeader)
    (hheader : headerType = rtmpPacketSizeMedium ∨ headerType = rtmpPacketSizeSmall ∧
      wire.prev.mNBodySize = packet.mNBodySize ∧ wire.prev.mPacketType = packet.mPacketType) :
    s.Case packet headerType (packet.mNTimeStamp - wire.prev.mNTimeStamp)
      ⟨packet.sentHeader, packet.mNTimeStamp - wire.prev.mNTimeStamp, wire.streamId,
        packet.mNTimeStamp - wire.prev.mNTimeStamp + wire.time⟩

/-- A requested packet has one of the headers. -/
theorem WireState.case_header (s : WireState) {packet : RTMPPacket}
    (h : packet.mHeaderType = rtmpPacketSizeLarge ∨ packet.mHeaderType = rtmpPacketSizeMedium) :
    s.Case packet (s.header packet).1 (s.header packet).2 (s.next packet) := by
  have hminimum : rtmpPacketSizeMinimum ≠ rtmpPacketSizeLarge := by decide
  have hsmall : rtmpPacketSizeSmall ≠ rtmpPacketSizeLarge ∧
      rtmpPacketSizeSmall ≠ rtmpPacketSizeMinimum := by decide
  have hmedium : rtmpPacketSizeMedium ≠ rtmpPacketSizeLarge ∧
      rtmpPacketSizeMedium ≠ rtmpPacketSizeSmall ∧
      rtmpPacketSizeMedium ≠ rtmpPacketSizeMinimum := by decide
  have hlarge : rtmpPacketSizeLarge ≠ rtmpPacketSizeMinimum := by decide
  rcases hwire : s.channels packet.mNChannel with _ | wire
  · have hheader : s.header packet = (packet.mHeaderType, packet.mNTimeStamp) := by
      simp [header, out, hwire, compressed]
    rcases h with h | h
    · have hnext := Case.large (s := s) h
      simpa [next, hheader, h, hlarge, RTMPPacket.sentHeader] using hnext
    · have hnext := Case.first h hwire
      simpa [next, hheader, h, hmedium, RTMPPacket.sentHeader, knownStreamId, clock, hwire]
        using hnext
  · rcases h with h | h
    · have hheader : s.header packet = (rtmpPacketSizeLarge, packet.mNTimeStamp) := by
        simp [header, out, hwire, compressed, h]
      have hnext := Case.large (s := s) h
      simpa [next, hheader, hlarge, RTMPPacket.sentHeader] using hnext
    · by_cases hprev : wire.prev = packet.sentHeader
      · have hheader : s.header packet = (rtmpPacketSizeMinimum, 0) := by
          simp [header, out, hwire, compressed, h, hmedium, hprev, RTMPPacket.sentHeader]
        have hnext := Case.same h hwire hprev
        simpa [next, hheader, hminimum, RTMPPacket.sentHeader, knownStreamId, clock, hwire]
          using hnext
      · by_cases hsame : wire.prev.mNBodySize = packet.mNBodySize ∧
          wire.prev.mPacketType = packet.mPacketType
        · have htime : wire.prev.mNTimeStamp ≠ packet.mNTimeStamp := fun htime => by
            apply hprev
            rw [RTMPPacket.sentHeader, ← htime, ← hsame.1, ← hsame.2]
          have hheader : s.header packet =
              (rtmpPacketSizeSmall, packet.mNTimeStamp - wire.prev.mNTimeStamp) := by
            simp [header, out, hwire, compressed, h, hmedium, hsame, htime]
          have hnext := Case.other h hwire hprev (.inr ⟨rfl, hsame⟩)
          simpa [next, hheader, hsmall, RTMPPacket.sentHeader, knownStreamId, clock, hwire]
            using hnext
        · have hheader : s.header packet =
              (rtmpPacketSizeMedium, packet.mNTimeStamp - wire.prev.mNTimeStamp) := by
            simp [header, out, hwire, compressed, h, hmedium, hsame]
          have hnext := Case.other h hwire hprev (.inl rfl)
          simpa [next, hheader, hmedium, RTMPPacket.sentHeader, knownStreamId, clock, hwire]
            using hnext

/-- What comes through is what comes through as it was, while the reader's clock is right. -/
theorem WireState.heard_eq_iff {s : WireState} (hs : s.InTime) {packet : RTMPPacket}
    (hp : packet.Requested) : s.heard packet = packet.content ↔ s.Heeds packet := by
  have hcontent : s.heard packet = packet.content ↔
      (s.next packet).time = packet.mNTimeStamp ∧
        (s.next packet).streamId = packet.mNInfoField2 := by
    simp [heard, RTMPPacket.content]
  have hlarge : rtmpPacketSizeMedium ≠ rtmpPacketSizeLarge := by decide
  rw [hcontent, Heeds]
  have hcase := s.case_header hp.request
  generalize (s.header packet).1 = headerType, (s.header packet).2 = t,
    s.next packet = wire' at hcase
  cases hcase with
  | large h => simp [h]
  | first h hwire => simp [h, hlarge, knownStreamId, hwire]
  | @same wire' h hwire hprev =>
    have htime : wire'.time = packet.mNTimeStamp := (hs _ _ hwire).trans (congrArg _ hprev)
    have hfield : (∀ c, some wire' = some c → c.prev = packet.sentHeader → c.field = 0) ↔
        wire'.field = 0 :=
      ⟨fun h => h _ rfl hprev, fun h c hc _ => by cases hc; exact h⟩
    simp only [h, hlarge, knownStreamId, hwire, htime, Option.map_some, Option.getD_some, false_or,
      UInt32.add_eq_right]
    rw [and_comm, ← hfield]
  | @other wire' _ h hwire hprev _ =>
    have htime := hs _ _ hwire
    have hfield : ∀ c, some wire' = some c → c.prev = packet.sentHeader → c.field = 0 :=
      fun c hc hsame => by cases hc; exact absurd hsame hprev
    simp only [h, hlarge, knownStreamId, hwire, htime, Option.map_some, Option.getD_some, false_or,
      UInt32.sub_add_cancel, true_and]
    exact (and_iff_left hfield).symm

/-- The channel remembers the packet with the header that was sent. -/
theorem WireState.prev_next (s : WireState) {packet : RTMPPacket} (hp : packet.Requested) :
    (s.next packet).prev = packet.sentHeader := by
  have hcase := s.case_header hp.request
  generalize (s.header packet).1 = headerType, (s.header packet).2 = t,
    s.next packet = wire' at hcase
  cases hcase <;> rfl

theorem WireState.channels_step (s : WireState) (packet : RTMPPacket) :
    (s.step packet).channels =
      Function.update s.channels packet.mNChannel (some (s.next packet)) := rfl

/-- The writer keeps the packets of its channels. -/
theorem WireState.out_step (s : WireState) {packet : RTMPPacket} (hp : packet.Requested) :
    (s.step packet).out = packet.keep s.out := by
  funext c
  simp only [out, channels_step, RTMPPacket.keep, Function.update_apply]
  split
  · rw [Option.map_some, s.prev_next hp]
  · rfl

/-- Packets that come through keep the reader's clock right. -/
theorem WireState.InTime.step {s : WireState} (hs : s.InTime) {packet : RTMPPacket}
    (hp : packet.Requested) (h : s.Heeds packet) : (s.step packet).InTime := by
  intro c wire hwire
  rw [channels_step, Function.update_apply] at hwire
  split at hwire
  · cases hwire
    rw [s.prev_next hp]
    exact congrArg (·.timestamp) ((heard_eq_iff hs hp).mpr h)
  · exact hs c wire hwire

/-! ## The reader behind the writer -/

/-- What the reader keeps of a channel. -/
def ChannelWire.kept (wire : ChannelWire) (mNChannel : Int) (headerType : UInt8) : InPacket :=
  ⟨headerType, wire.prev.mPacketType, false, mNChannel, wire.field, wire.streamId,
    wire.prev.mNBodySize.toNat, 0, .null⟩

/-- The reader between two packets. -/
structure Follows (k : Nat) (s : WireState) (r : ChunkReader) (q : InPacket) : Prop where
  chunk : r.mInChunkSize = k
  clock : ∀ c, r.mChannelTimestamp c = s.clock c
  unused : ∀ c, s.channels c = none → r.mVecChannelsIn c = none
  used : ∀ c wire, s.channels c = some wire →
    ∃ headerType, r.mVecChannelsIn c = some (wire.kept c headerType)
  streamId : q.mNInfoField2 = s.streamId
  body : q.mBody = .null

/-- A packet behind its header. -/
structure Opened (r : ChunkReader) (packet : RTMPPacket) (wire : ChannelWire) (p : InPacket) :
    Prop where
  packetType : p.mPacketType = packet.mPacketType
  channel : p.mNChannel = packet.mNChannel
  field : p.mNTimeStamp = wire.field
  streamId : p.mNInfoField2 = wire.streamId
  size : p.mNBodySize = packet.mNBodySize.toNat
  read : p.mNBytesRead = 0
  body : p.mBody = .null
  time : r.absoluteTime p = wire.time

variable {k : Nat} {s : WireState} {r : ChunkReader} {q : InPacket} {packet : RTMPPacket}

/-- A header frees nothing between two packets. -/
theorem Follows.release (h : Follows k s r q) (headerType : UInt8) (mNChannel : Int) :
    r.release headerType mNChannel = .ok r := by
  unfold ChunkReader.release
  rcases hwire : s.channels mNChannel with _ | wire
  · rw [h.unused _ hwire]
  · obtain ⟨_, hkept⟩ := h.used _ _ hwire
    rw [hkept]
    exact ite_self _

/-- A header opens the packet that it was written for. -/
theorem Follows.opened (h : Follows k s r q) (hp : packet.Requested) :
    Opened r packet (s.next packet)
      ((r.known (s.header packet).1 packet.mNChannel q).withHeader (s.header packet).1
        (s.header packet).2 packet) := by
  have hcase := s.case_header hp.request
  have hclock := h.clock packet.mNChannel
  generalize (s.header packet).1 = headerType, (s.header packet).2 = t,
    s.next packet = wire' at hcase ⊢
  cases hcase with
  | large _ => exact ⟨rfl, rfl, rfl, rfl, rfl, rfl, rfl, rfl⟩
  | first _ hwire =>
    rw [WireState.clock, hwire] at hclock
    rw [ChunkReader.known, h.unused _ hwire]
    refine ⟨rfl, rfl, rfl, h.streamId, rfl, rfl, rfl, ?_⟩
    have htime : ∀ abs : Bool, (if abs then packet.mNTimeStamp else
        packet.mNTimeStamp + r.mChannelTimestamp packet.mNChannel) = packet.mNTimeStamp := by
      intro abs
      rw [hclock]
      cases abs
      · exact UInt32.add_zero _
      · rfl
    exact htime q.mHasAbsTimestamp
  | @same wire _ hwire hprev =>
    obtain ⟨headerType, hkept⟩ := h.used _ _ hwire
    rw [WireState.clock, hwire] at hclock
    rw [ChunkReader.known, hkept]
    refine ⟨congrArg (·.mPacketType) hprev, rfl, rfl, rfl,
      congrArg (·.mNBodySize.toNat) hprev, rfl, rfl, ?_⟩
    exact congrArg (wire.field + ·) hclock
  | @other wire _ _ hwire _ hheader =>
    obtain ⟨headerType, hkept⟩ := h.used _ _ hwire
    rw [WireState.clock, hwire] at hclock
    rw [ChunkReader.known, hkept]
    have htime := congrArg (packet.mNTimeStamp - wire.prev.mNTimeStamp + ·) hclock
    rcases hheader with rfl | ⟨rfl, hsize, htype⟩
    · exact ⟨rfl, rfl, rfl, rfl, rfl, rfl, rfl, htime⟩
    · exact ⟨htype, rfl, rfl, rfl, congrArg UInt32.toNat hsize, rfl, rfl, htime⟩

/-- Memory for the body changes nothing that a header says. -/
theorem Opened.allocate {wire : ChannelWire} {p : InPacket} (h : Opened r packet wire p)
    (headerType : UInt8) :
    (p.allocate headerType).Holds [] ∧ ∀ mBody,
      let packet' := (p.allocate headerType).filled mBody
      packet'.mPacketType = packet.mPacketType ∧ packet'.mNChannel = packet.mNChannel ∧
        packet'.mNTimeStamp = wire.field ∧ packet'.mNInfoField2 = wire.streamId ∧
        packet'.mNBodySize = packet.mNBodySize.toNat ∧ r.absoluteTime packet' = wire.time := by
  unfold InPacket.allocate
  rw [h.body]
  simp only
  split
  · exact ⟨⟨rfl, rfl, rfl⟩,
      fun _ => ⟨h.packetType, h.channel, h.field, h.streamId, h.size, h.time⟩⟩
  · refine ⟨⟨h.read, ?_⟩, fun _ => ⟨h.packetType, h.channel, h.field, h.streamId, h.size, h.time⟩⟩
    rw [h.body]
    simp only
    omega

/-- The reader behind a packet is between two packets again. -/
theorem Follows.finish (h : Follows k s r q) (hp : packet.Requested) {packet' : InPacket}
    (htype : packet'.mPacketType = packet.mPacketType)
    (hchannel : packet'.mNChannel = packet.mNChannel)
    (hfield : packet'.mNTimeStamp = (s.next packet).field)
    (hstreamId : packet'.mNInfoField2 = (s.next packet).streamId)
    (hsize : packet'.mNBodySize = packet.mNBodySize.toNat)
    (htime : r.absoluteTime packet' = (s.next packet).time) :
    Follows k (s.step packet) (r.finish packet') { r.handOut packet' with mBody := .null } := by
  have hclock : ∀ c, (s.step packet).clock c =
      if c = packet.mNChannel then (s.next packet).time else s.clock c := by
    intro c
    rw [WireState.clock, WireState.channels_step, Function.update_apply]
    split <;> rfl
  constructor
  · exact h.chunk
  · intro c
    rw [hclock, ← htime, ← h.clock, ← hchannel]
    exact Function.update_apply _ _ _ _
  · intro c hc
    rw [WireState.channels_step, Function.update_apply] at hc
    split at hc
    · cases hc
    · rename_i hne
      rw [← hchannel] at hne
      exact (Function.update_of_ne hne _ _).trans (h.unused c hc)
  · intro c wire hc
    rw [WireState.channels_step, Function.update_apply] at hc
    split at hc
    · rename_i heq
      cases hc
      rw [heq]
      refine ⟨packet'.mHeaderType, ?_⟩
      rw [ChannelWire.kept, s.prev_next hp, ← hfield, ← hstreamId, ← hchannel]
      refine (Function.update_self _ _ _).trans ?_
      rw [RTMPPacket.sentHeader, ← htype, ← hsize]
    · rename_i hne
      rw [← hchannel] at hne
      obtain ⟨headerType, hkept⟩ := h.used c wire hc
      exact ⟨headerType, (Function.update_of_ne hne _ _).trans hkept⟩
  · exact hstreamId
  · rfl

/-- A packet on the wire is read back. -/
theorem Follows.completes (h : Follows k s r q) (hk : 0 < k) (hp : packet.Requested)
    (rest : List UInt8) :
    ∃ r' q', Completes (rtmpReadPacket r q
        (chunkStream k (s.header packet).1 (s.header packet).2 packet ++ rest)) r' q' rest ∧
      q'.content = s.heard packet ∧
      Follows k (s.step packet) (r'.handleChangeChunkSize q') { q' with mBody := .null } := by
  have hle : (s.header packet).1 ≤ 3 := compressed_le _ hp.headerType
  have hopened := h.opened hp
  obtain ⟨hholds, hfilled⟩ := hopened.allocate (s.header packet).1
  have hsize := (hfilled .null).2.2.2.2.1
  have hchannel := (hfilled .null).2.1
  have hread := rtmpReadPacket_headerBytes hle (s.header packet).2 hp.toReadable q
    (separated k (headerByte 3 packet.mNChannel :: channelBytes packet.mNChannel)
      (packet.mBody.slice 0 packet.mNBodySize.toNat) ++ rest) (h.release _ _)
  obtain ⟨mBody, hbytes, hcompletes⟩ := completes_separated hk hp.number
    (packet.mBody.slice 0 packet.mNBodySize.toNat) h.chunk hholds
    (by rw [List.length_nil, Nat.zero_add, Block.length_slice]; exact hsize.symm) hchannel rest
  obtain ⟨htype, hchannel, hfield, hstreamId, hsize, htime⟩ := hfilled mBody
  rw [chunkStream, continuationBytes_eq hle hp.number, List.append_assoc, hread]
  generalize ((r.known (s.header packet).1 packet.mNChannel q).withHeader (s.header packet).1
    (s.header packet).2 packet).allocate (s.header packet).1 = opened at *
  refine ⟨_, _, hcompletes, ?_, ?_⟩
  · have hbody : mBody.bytes packet.mNBodySize.toNat =
        packet.mBody.slice 0 packet.mNBodySize.toNat :=
      (congrArg (InBody.bytes · mBody) hsize.symm).trans hbytes
    simp only [InPacket.content, WireState.heard, ChunkReader.handOut, htype, hchannel, hstreamId,
      hsize, htime, ← hbody]
    rfl
  · have hfollows := h.finish hp htype hchannel hfield hstreamId hsize htime
    rw [ChunkReader.handleChangeChunkSize, if_neg fun hchange => hp.packetType ?_]
    · exact hfollows
    · exact htype.symm.trans hchange.1

/-- The packets on the wire are read one behind the other. -/
theorem Follows.run {packets : List RTMPPacket} (h : Follows k s r q) (hk : 0 < k)
    (hp : ∀ p ∈ packets, p.Requested) :
    ∃ fuel run, rtmpReadPackets fuel r q (packetStream k s.out packets) = .ok run ∧
      run.packets = (trace WireState.step s packets).map fun p => p.1.heard p.2 := by
  induction packets generalizing s r q with
  | nil => exact ⟨1, ⟨[], r, q, [], r⟩, rfl, rfl⟩
  | cons packet packets ih =>
    rw [List.forall_mem_cons] at hp
    have hout := s.out_step hp.1
    obtain ⟨r', q', hcompletes, hcontent, hfollows⟩ :=
      h.completes hk hp.1 (packetStream k (packet.keep s.out) packets)
    obtain ⟨fuel, run, hrun, hpackets⟩ := ih hfollows hp.2
    rw [hout] at hrun
    obtain ⟨n, hn⟩ := hcompletes.run
    refine ⟨fuel + n, _, hn rfl hrun, ?_⟩
    rw [hcontent, hpackets]
    rfl

/-- What is read of a header does not depend on what comes behind it. -/
theorem readChannel_append {input rest : List UInt8} {headerType : UInt8} {mNChannel : Int}
    (h : readChannel input = some (headerType, mNChannel, rest)) (more : List UInt8) :
    readChannel (input ++ more) = some (headerType, mNChannel, rest ++ more) := by
  unfold readChannel at h
  split at h
  · cases h
  · rename_i c input
    rw [List.cons_append]
    unfold readChannel
    simp only at h ⊢
    split at h <;> [skip; split at h]
    · split at h <;> cases h
      rw [if_pos ‹_›]
      rfl
    · split at h <;> cases h
      rw [if_neg ‹_›, if_pos ‹_›]
      rfl
    · cases h
      rw [if_neg ‹_›, if_neg ‹_›]

/-- Nor do the bytes of a read. -/
theorem readN_append_more {n : Nat} {input bytes rest : List UInt8}
    (h : readN n input = some (bytes, rest)) (more : List UInt8) :
    readN n (input ++ more) = some (bytes, rest ++ more) := by
  obtain ⟨hlength, rfl⟩ := readN_eq_some h
  rw [List.append_assoc]
  exact readN_append hlength _

/-- Nor does a chunk. -/
theorem received_append {input rest : List UInt8} {p q' : InPacket} {r' : ChunkReader}
    (h : r.received p input = .done r' q' rest) (more : List UInt8) :
    r.received p (input ++ more) = .done r' q' (rest ++ more) := by
  unfold ChunkReader.received at h ⊢
  split <;> rename_i hready
  · rw [if_pos hready] at h
    cases h
    rfl
  · rw [if_neg hready] at h
    cases h
    rfl

/-- A chunk that is there takes nothing of what is behind it. -/
theorem readChunk_append {input rest : List UInt8} {headerType : UInt8} {p q' : InPacket}
    {r' : ChunkReader} (h : r.readChunk headerType p input = .ok (.done r' q' rest))
    (more : List UInt8) :
    r.readChunk headerType p (input ++ more) = .ok (.done r' q' (rest ++ more)) := by
  unfold ChunkReader.readChunk at h ⊢
  simp only at h ⊢
  generalize r.nChunk (p.allocate headerType) = nChunk at h ⊢
  by_cases hneg : nChunk < 0
  · rw [if_pos hneg] at h
    cases h
  · rw [if_neg hneg] at h ⊢
    by_cases hshort : input.length < nChunk.toNat
    · obtain ⟨_, -, h⟩ := bind_eq_ok h
      rw [if_pos hshort] at h
      cases h
    · have hshort' : ¬ (input ++ more).length < nChunk.toNat := by
        rw [List.length_append]
        omega
      rw [List.take_append_of_le_length (by omega), List.drop_append_of_le_length (by omega)]
      obtain ⟨mBody, hstore, h⟩ := bind_eq_ok h
      rw [if_neg hshort] at h
      simp only [hstore, bind, Except.bind, if_neg hshort', pure, Except.pure] at h ⊢
      rw [received_append (Except.ok.inj h)]

/-- More input behind a chunk changes nothing about it. -/
theorem rtmpReadPacket_append {input rest : List UInt8} {q' : InPacket} {r' : ChunkReader}
    (h : rtmpReadPacket r q input = .ok (.done r' q' rest)) (more : List UInt8) :
    rtmpReadPacket r q (input ++ more) = .ok (.done r' q' (rest ++ more)) := by
  unfold rtmpReadPacket at h ⊢
  rcases hchannel : readChannel input with _ | ⟨headerType, mNChannel, input₁⟩ <;>
    rw [hchannel] at h
  · cases h
  · rw [readChannel_append hchannel]
    simp only at h ⊢
    rcases hheader : readN (packetSize headerType - 1) input₁ with _ | ⟨header, input₂⟩ <;>
      rw [hheader] at h
    · cases h
    · rw [readN_append_more hheader]
      simp only at h ⊢
      obtain ⟨r₁, hrelease, h⟩ := bind_eq_ok h
      rw [hrelease]
      simp only [bind, Except.bind]
      split at h
      · rename_i htime
        rw [if_pos htime]
        rcases hextended : readN 4 input₂ with _ | ⟨extended, input₃⟩ <;> rw [hextended] at h
        · cases h
        · rw [readN_append_more hextended]
          exact readChunk_append h more
      · rename_i htime
        rw [if_neg htime]
        exact readChunk_append h more

/-- What is read of an input that ends early is a beginning of what the whole says. -/
theorem rtmpReadPackets_append {fuel fuel' : Nat} {input more : List UInt8} {run run' : ReadRun}
    (h : rtmpReadPackets fuel r q input = .ok run)
    (h' : rtmpReadPackets fuel' r q (input ++ more) = .ok run') :
    run.packets <+: run'.packets := by
  induction fuel generalizing fuel' r q input run run' with
  | zero => cases h
  | succ fuel ih =>
    cases fuel' with
    | zero => cases h'
    | succ fuel' =>
      unfold rtmpReadPackets at h h'
      obtain ⟨result, hread, h⟩ := bind_eq_ok h
      cases result with
      | failed closing =>
        cases h
        exact List.nil_prefix
      | done r₁ q₁ input₁ =>
        rw [rtmpReadPacket_append hread more] at h'
        simp only [bind, Except.bind] at h h'
        by_cases hready : q₁.isReady
        · simp only [hready, ite_true] at h h'
          obtain ⟨run₁, hrun, h⟩ := bind_eq_ok h
          obtain ⟨run₁', hrun', h'⟩ := bind_eq_ok h'
          cases h
          cases h'
          exact List.prefix_cons_inj _ |>.mpr (ih hrun hrun')
        · simp only [hready, ite_false] at h h'
          exact ih h h'

/-- How many calls are allowed does not matter to a run that ends. -/
theorem rtmpReadPackets_unique {fuel fuel' : Nat} {input : List UInt8} {run run' : ReadRun}
    (h : rtmpReadPackets fuel r q input = .ok run)
    (h' : rtmpReadPackets fuel' r q input = .ok run') :
    run.packets = run'.packets := by
  have hnil : input = input ++ [] := (List.append_nil input).symm
  have hpre := rtmpReadPackets_append h (hnil ▸ h')
  have hpre' := rtmpReadPackets_append h' (hnil ▸ h)
  exact hpre.eq_of_length_le hpre'.length_le

/-- All packets come through as they were exactly if each of them heeds what the wire
knows. -/
theorem heard_eq_content_iff {packets : List RTMPPacket} (hp : ∀ p ∈ packets, p.Requested) :
    (trace WireState.step .init packets).map (fun p => p.1.heard p.2) =
        packets.map RTMPPacket.content ↔
      ∀ p ∈ trace WireState.step .init packets, p.1.Heeds p.2 := by
  have hcontent : packets.map RTMPPacket.content =
      (trace WireState.step .init packets).map fun p => p.2.content := by
    have hpackets : (trace WireState.step .init packets).map Prod.snd = packets :=
      map_snd_trace packets
    exact (congrArg (List.map RTMPPacket.content) hpackets).symm.trans List.map_map
  rw [hcontent, List.map_inj_left]
  exact forall_trace_congr (J := WireState.InTime) (A := fun _ p => p.Requested)
    (L := fun s p => s.heard p = p.content) (G := fun s p => s.Heeds p)
    (fun _ _ h => (nomatch h)) (forall_trace_iff.mpr hp) (fun _ _ hs hp h => hs.step hp h)
    fun _ _ hs hp => WireState.heard_eq_iff hs hp

/-- The packets on the wire of a new connection are read back as they are heard. -/
theorem rtmpReadPackets_packetStream {chunk : Int} (hchunk : 0 < chunk)
    {packets : List RTMPPacket} (hp : ∀ p ∈ packets, p.Requested) :
    let wire := packetStream chunk.toNat (fun _ => none) packets
    ∃ run, rtmpReadPackets (wire.length + 1) { ChunkReader.init with mInChunkSize := chunk } .zero
        wire = .ok run ∧
      run.packets = (trace WireState.step .init packets).map fun p => p.1.heard p.2 := by
  have hfollows : Follows chunk.toNat .init { ChunkReader.init with mInChunkSize := chunk } .zero :=
    ⟨(Int.toNat_of_nonneg hchunk.le).symm, fun _ => rfl, fun _ _ => rfl, fun _ _ h => (nomatch h),
      rfl, rfl⟩
  obtain ⟨fuel, whole, hwhole, hheard⟩ := hfollows.run (by omega) hp
  obtain ⟨run, hrun, -⟩ := rtmpReadPackets_spec
    (r := { ChunkReader.init with mInChunkSize := chunk }) (fun _ _ h => (nomatch h))
    InPacket.sound_zero
    (Nat.lt_succ_self (packetStream chunk.toNat (fun _ => none) packets).length)
  refine ⟨run, hrun, ?_⟩
  rw [← hheard]
  exact rtmpReadPackets_unique hrun hwhole

/-- Whatever the socket does, the calls of `RTMP_SendPacket` with packets as a publisher asks for
them leave on the wire, up to the first write that fails, what `RTMP_ReadPacket` reads back as a
beginning of what was sent, where every packet heeds what the wire knows. If the calls succeed
all of it comes back, exactly under this condition. -/
theorem rtmpSendPackets_heard {w : ChunkWriter} (hchunk : 0 < w.mOutChunkSize)
    (hout : w.mVecChannelsOut = fun _ => none) (hwire : w.mSb.wire = [])
    {packets : List ((Nat → UInt8) × RTMPPacket)} (hp : ∀ p ∈ packets, p.2.Requested) :
    ∃ w' status run, rtmpSendPackets w packets = .ok (w', status) ∧
      rtmpReadPackets (w'.mSb.wire.length + 1)
        { ChunkReader.init with mInChunkSize := w.mOutChunkSize } .zero w'.mSb.wire = .ok run ∧
      ((∀ p ∈ trace WireState.step .init (packets.map Prod.snd), p.1.Heeds p.2) →
        run.packets <+: packets.map (·.2.content)) ∧
      (status = .done → (run.packets = packets.map (·.2.content) ↔
        ∀ p ∈ trace WireState.step .init (packets.map Prod.snd), p.1.Heeds p.2)) := by
  have hrequested : ∀ p ∈ packets.map Prod.snd, p.Requested := by
    simpa only [List.forall_mem_map] using hp
  obtain ⟨w', status, hsend, taken, htaken, ⟨more, hmore⟩, hdone⟩ :=
    rtmpSendPackets_eq hchunk fun p h => (hp p h).toSendable
  rw [hwire, List.nil_append] at htaken
  rw [hout] at hmore hdone
  obtain ⟨whole, hwhole, hheard⟩ := rtmpReadPackets_packetStream hchunk hrequested
  obtain ⟨run, hrun, -⟩ := rtmpReadPackets_spec
    (r := { ChunkReader.init with mInChunkSize := w.mOutChunkSize }) (fun _ _ h => (nomatch h))
    InPacket.sound_zero (Nat.lt_succ_self w'.mSb.wire.length)
  have hiff := heard_eq_content_iff hrequested
  rw [List.map_map, ← hheard] at hiff
  refine ⟨w', status, run, hsend, hrun, fun hheeds => ?_, fun hstatus => ?_⟩
  · rw [← hmore, ← htaken] at hwhole
    have hpre := rtmpReadPackets_append hrun hwhole
    rw [hiff.mpr hheeds] at hpre
    exact hpre
  · rw [← hdone hstatus, ← htaken] at hwhole
    cases hrun.symm.trans hwhole
    exact hiff

/-- Two bytes of video at time seven, in chunks of one byte. -/
def sampleWrite : ChunkWriter × List ((Nat → UInt8) × RTMPPacket) :=
  (⟨1, fun _ => none, ⟨[.sent 3, .interrupted, .sent 100, .sent 100], []⟩⟩,
    [(fun _ => 0, ⟨0, 9, 0, 4, 7, 1, 2, 0, .fill 2 5⟩)])

/-- The sample is read back through four calls of `send`. -/
theorem rtmpSendPackets_heard_sample :
    ∃ w' status run, rtmpSendPackets sampleWrite.1 sampleWrite.2 = .ok (w', status) ∧
      rtmpReadPackets (w'.mSb.wire.length + 1)
        { ChunkReader.init with mInChunkSize := sampleWrite.1.mOutChunkSize } .zero w'.mSb.wire =
          .ok run ∧
      ((∀ p ∈ trace WireState.step .init (sampleWrite.2.map Prod.snd), p.1.Heeds p.2) →
        run.packets <+: sampleWrite.2.map (·.2.content)) ∧
      (status = .done → (run.packets = sampleWrite.2.map (·.2.content) ↔
        ∀ p ∈ trace WireState.step .init (sampleWrite.2.map Prod.snd), p.1.Heeds p.2)) := by
  refine rtmpSendPackets_heard (by decide) rfl rfl ?_
  rw [sampleWrite, List.forall_mem_singleton]
  exact ⟨⟨⟨by decide, by decide, by decide, by decide, by decide⟩, ⟨by decide, by decide⟩,
    by decide, by decide, by decide⟩, by decide, by decide⟩

end Jrtplib4Android
