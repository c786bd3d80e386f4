import Jrtplib4Android.Core.Bytes
import Jrtplib4Android.Core.CInt
import Jrtplib4Android.Core.Loop
import Jrtplib4Android.Core.Pieces
import Jrtplib4Android.Rtmp.Packet

/-!
# Writing chunks

`RTMP_SendPacket` cuts the body of a packet into chunks without copying it: every header
is written into the bytes in front of its chunk, over what has been sent before. The wire
still gets the header and the pieces of the body as they were, with a continuation header
between them, and nothing outside the packet's allocation is touched.
-/

namespace Jrtplib4Android

open CSem

/-- `RTMP_MAX_HEADER_SIZE`. -/
def rtmpMaxHeaderSize : Nat := 18

/-- `RTMP_CHANNELS`. -/
def rtmpChannels : Int := 65600

/-- `RTMP_DEFAULT_CHUNKSIZE`. -/
def rtmpDefaultChunkSize : Int := 128

def rtmpPacketSizeSmall : UInt8 := 2
def rtmpPacketSizeMinimum : UInt8 := 3

/-- `packetSize`. -/
def packetSize (headerType : UInt8) : Nat := [12, 8, 4, 1].getD headerType.toNat 0

/-- What `send` answers: a number of bytes taken, `EINTR`, or another error. -/
inductive SendAnswer where
  | sent (nBytes : Nat)
  | interrupted
  | failed
  deriving DecidableEq

/-- The socket: the answers that its next calls of `send` get, and the bytes it has taken.
Behind the last answer it fails. -/
structure RTMPSockBuf where
  answers : List SendAnswer
  wire : List UInt8

/-- How `WriteN` ends. An error closes the connection, an answer of zero does not. -/
inductive WriteStatus where
  | done
  | stopped
  | closed
  deriving DecidableEq

/-- `WriteN`, where `ptr` are the bytes that are left. The wire is taken up to the write that
fails: what `RTMP_Close`, which that write calls, sends itself is left out. -/
def writeN : List SendAnswer → List UInt8 → List UInt8 → RTMPSockBuf × WriteStatus
  | answers, wire, [] => (⟨answers, wire⟩, .done)
  | [], wire, _ :: _ => (⟨[], wire⟩, .closed)
  | .interrupted :: answers, wire, b :: ptr => writeN answers wire (b :: ptr)
  | .failed :: answers, wire, _ :: _ => (⟨answers, wire⟩, .closed)
  | .sent 0 :: answers, wire, _ :: _ => (⟨answers, wire⟩, .stopped)
  | .sent (n + 1) :: answers, wire, b :: ptr =>
    writeN answers (wire ++ b :: ptr.take n) (ptr.drop n)

/-- The socket has taken a beginning of the bytes, and all of them if the write is done. -/
def Writes (sb : RTMPSockBuf) (bytes : List UInt8) (r : RTMPSockBuf × WriteStatus) : Prop :=
  ∃ taken, r.1.wire = sb.wire ++ taken ∧ taken <+: bytes ∧ (r.2 = .done → taken = bytes)

/-- Nothing is taken, and nothing is done. -/
theorem writes_none (sb : RTMPSockBuf) (bytes : List UInt8) {answers : List SendAnswer}
    {status : WriteStatus} (h : status = .done → bytes = []) :
    Writes sb bytes (⟨answers, sb.wire⟩, status) :=
  ⟨[], (List.append_nil _).symm, List.nil_prefix, fun hdone => (h hdone).symm⟩

/-- Bytes that are all taken, and what is written behind them. -/
theorem Writes.append {sb : RTMPSockBuf} {xs ys : List UInt8} {answers : List SendAnswer}
    {r : RTMPSockBuf × WriteStatus} (h : Writes ⟨answers, sb.wire ++ xs⟩ ys r) :
    Writes sb (xs ++ ys) r := by
  obtain ⟨taken, hwire, hprefix, hdone⟩ := h
  refine ⟨xs ++ taken, ?_, (List.prefix_append_right_inj _).mpr hprefix, fun h => ?_⟩
  · rw [hwire, List.append_assoc]
  · rw [hdone h]

/-- A write that is not done takes a beginning of anything that goes on from its bytes. -/
theorem Writes.mono {sb : RTMPSockBuf} {xs : List UInt8} {r : RTMPSockBuf × WriteStatus}
    (h : Writes sb xs r) (hr : r.2 ≠ .done) (ys : List UInt8) : Writes sb (xs ++ ys) r := by
  obtain ⟨taken, hwire, hprefix, -⟩ := h
  exact ⟨taken, hwire, hprefix.trans (List.prefix_append _ _), fun hdone => absurd hdone hr⟩

/-- `WriteN` writes its bytes. -/
theorem writes_writeN (answers : List SendAnswer) (wire ptr : List UInt8) :
    Writes ⟨answers, wire⟩ ptr (writeN answers wire ptr) := by
  induction answers generalizing wire ptr with
  | nil =>
    cases ptr with
    | nil => exact writes_none _ [] fun _ => rfl
    | cons b ptr => exact writes_none ⟨[], wire⟩ _ (nomatch ·)
  | cons answer answers ih =>
    cases ptr with
    | nil =>
      rw [writeN]
      exact writes_none _ [] fun _ => rfl
    | cons b ptr =>
      rcases answer with (_ | n) | _ | _
      · exact writes_none ⟨answers, wire⟩ _ (nomatch ·)
      · have hptr : b :: ptr = b :: ptr.take n ++ ptr.drop n := by
          rw [List.cons_append, List.take_append_drop]
        rw [writeN, hptr]
        exact Writes.append (ih (wire ++ b :: ptr.take n) (ptr.drop n))
      · exact ih wire (b :: ptr)
      · exact writes_none ⟨answers, wire⟩ _ (nomatch ·)

/-- What `RTMP_SendPacket` reads of the packet that a channel sent last. -/
structure SentHeader where
  mPacketType : UInt8
  mNTimeStamp : UInt32
  mNBodySize : UInt32

/-- What is kept of a packet that is sent. -/
def RTMPPacket.sentHeader (packet : RTMPPacket) : SentHeader :=
  ⟨packet.mPacketType, packet.mNTimeStamp, packet.mNBodySize⟩

/-- The members of `RTMP` that `RTMP_SendPacket` uses. -/
structure ChunkWriter where
  mOutChunkSize : Int
  mVecChannelsOut : Int → Option SentHeader
  mSb : RTMPSockBuf

/-- The header type and the timestamp to count from: a header that is not large leaves out
what the packet shares with the one before it. -/
def compressed (prevPacket : Option SentHeader) (packet : RTMPPacket) : UInt8 × UInt32 :=
  match prevPacket with
  | none => (packet.mHeaderType, 0)
  | some prev =>
    if packet.mHeaderType = rtmpPacketSizeLarge then (packet.mHeaderType, 0)
    else
      let headerType :=
        if prev.mNBodySize = packet.mNBodySize ∧ prev.mPacketType = packet.mPacketType ∧
          packet.mHeaderType = rtmpPacketSizeMedium then rtmpPacketSizeSmall
        else packet.mHeaderType
      let headerType :=
        if prev.mNTimeStamp = packet.mNTimeStamp ∧ headerType = rtmpPacketSizeSmall then
          rtmpPacketSizeMinimum
        else headerType
      (headerType, prev.mNTimeStamp)

/-- The bytes behind the first that a channel number takes, `cSize`. -/
def channelSize (mNChannel : Int) : Nat :=
  if 319 < mNChannel then 2 else if 63 < mNChannel then 1 else 0

/-- The bytes `tmp & 0xff` and `tmp >> 8` of a channel number. -/
def channelBytes (mNChannel : Int) : List UInt8 :=
  [intByte (mNChannel - 64) 0, intByte (mNChannel - 64) 8].take (channelSize mNChannel)

/-- The first byte of a header, `c`. -/
def headerByte (headerType : UInt8) (mNChannel : Int) : UInt8 :=
  match channelSize mNChannel with
  | 0 => headerType <<< 6 ||| UInt8.ofInt mNChannel
  | 1 => headerType <<< 6
  | _ => headerType <<< 6 ||| 1

/-- `AMF_EncodeInt24` with room for it. -/
def encodeInt24 (nVal : Int) : List UInt8 := [intByte nVal 16, intByte nVal 8, intByte nVal 0]

/-- `AMF_EncodeInt32` with room for it. -/
def encodeInt32 (nVal : Int) : List UInt8 :=
  [intByte nVal 24, intByte nVal 16, intByte nVal 8, intByte nVal 0]

/-- `EncodeInt32LE`. -/
def encodeInt32LE (nVal : Int) : List UInt8 :=
  [intByte nVal 0, intByte nVal 8, intByte nVal 16, intByte nVal 24]

/-- Whether the time does not fit its field of three bytes. -/
def extendedTime (headerType : UInt8) (t : UInt32) : Bool :=
  decide (1 < packetSize headerType ∧ 0xffffff ≤ t)

/-- The header in front of a packet. -/
def headerBytes (headerType : UInt8) (t : UInt32) (packet : RTMPPacket) : List UInt8 :=
  let nSize := packetSize headerType
  [headerByte headerType packet.mNChannel] ++ channelBytes packet.mNChannel ++
    (if 1 < nSize then encodeInt24 (if 0xffffff < t then 0xffffff else t.toNat) else []) ++
    (if 4 < nSize then encodeInt24 packet.mNBodySize.toNat ++ [packet.mPacketType] else []) ++
    (if 8 < nSize then encodeInt32LE packet.mNInfoField2 else []) ++
    (if extendedTime headerType t then encodeInt32 t.toNat else [])

/-- The header in front of a later chunk of the packet. -/
def continuationBytes (headerType : UInt8) (mNChannel : Int) : List UInt8 :=
  (0xc0 ||| headerByte headerType mNChannel) :: channelBytes mNChannel

/-- The length `hSize` that is reserved for the header. -/
def headerSize (headerType : UInt8) (t : UInt32) (mNChannel : Int) : Nat :=
  packetSize headerType + channelSize mNChannel + if extendedTime headerType t then 4 else 0

/-- The allocation of a packet: the header room with the body behind it. -/
def RTMPPacket.allocation (packet : RTMPPacket) (room : Nat → UInt8) : Block :=
  ⟨rtmpMaxHeaderSize + packet.mBody.size, fun i =>
    if i < rtmpMaxHeaderSize then room i else packet.mBody.byte (i - rtmpMaxHeaderSize)⟩

/-- The variables of the loop. -/
structure ChunkLoop where
  nSize : Int
  nChunkSize : Int
  buffer : Nat
  header : Nat
  hSize : Nat
  mem : Block
  sb : RTMPSockBuf

/-- Write one chunk, and the header of the next one in front of it. -/
def chunkPass (continuation : List UInt8) (st : ChunkLoop) :
    Pass ChunkLoop (Except Fault (Block × RTMPSockBuf × WriteStatus)) :=
  if st.nSize + st.hSize = 0 then .leave (.ok (st.mem, st.sb, .done))
  else
    let nChunkSize := if st.nSize < st.nChunkSize then st.nSize else st.nChunkSize
    let n := nChunkSize + st.hSize
    if n < 0 then .leave (.ok (st.mem, st.sb, .stopped))
    else if st.mem.size < st.header + n.toNat then .leave (.error .read)
    else
      match writeN st.sb.answers st.sb.wire (st.mem.slice st.header n.toNat) with
      | (sb, .stopped) => .leave (.ok (st.mem, sb, .stopped))
      | (sb, .closed) => .leave (.ok (st.mem, sb, .closed))
      | (sb, .done) =>
        let st := { st with
          nSize := st.nSize - nChunkSize
          nChunkSize := nChunkSize
          buffer := (st.buffer + nChunkSize).toNat
          hSize := 0
          sb := sb }
        if 0 < st.nSize then .attempt do
          let header := st.buffer - continuation.length
          let mem ← st.mem.storeList header continuation
          return .again { st with header := header, hSize := continuation.length, mem := mem }
        else .again st

/-- The packet on the wire, with a header in front of every piece of the body. -/
def chunkStream (chunkSize : Nat) (headerType : UInt8) (t : UInt32) (packet : RTMPPacket) :
    List UInt8 :=
  headerBytes headerType t packet ++
    separated chunkSize (continuationBytes headerType packet.mNChannel)
      (packet.mBody.slice 0 packet.mNBodySize.toNat)

/-- The loop head with the header `hdr` in front of what is left of the body. -/
structure AtChunk (k : Nat) (continuation : List UInt8) (st : ChunkLoop)
    (hdr todo : List UInt8) : Prop where
  nSize : st.nSize = todo.length
  nChunkSize : st.nChunkSize = k
  hSize : st.hSize = hdr.length
  adjacent : st.header + hdr.length = st.buffer
  header : st.mem.slice st.header hdr.length = hdr
  body : st.mem.slice st.buffer todo.length = todo
  inside : st.buffer + todo.length ≤ st.mem.size
  room : continuation.length ≤ st.buffer

/-- The header and the next piece lie behind each other. -/
theorem AtChunk.slice {k : Nat} {continuation hdr todo : List UInt8} {st : ChunkLoop}
    (h : AtChunk k continuation st hdr todo) {n : Nat} (hn : n ≤ todo.length) :
    st.mem.slice st.header (n + hdr.length) = hdr ++ todo.take n := by
  rw [Nat.add_comm, Block.slice_add, h.header, h.adjacent, ← Block.take_slice _ _ _ n hn, h.body]

variable {k : Nat} {continuation hdr todo : List UInt8} {st : ChunkLoop}

/-- A pass writes the header and the next piece, and puts a header over what it has written if
there is another. -/
theorem AtChunk.pass (h : AtChunk k continuation st hdr todo) (hhdr : hdr ≠ []) :
    chunkPass continuation st =
      match writeN st.sb.answers st.sb.wire (hdr ++ todo.take k) with
      | (sb, .stopped) => .leave (.ok (st.mem, sb, .stopped))
      | (sb, .closed) => .leave (.ok (st.mem, sb, .closed))
      | (sb, .done) =>
        if k < todo.length then .attempt do
          let header := st.buffer + k - continuation.length
          let mem ← st.mem.storeList header continuation
          return .again
            ⟨(todo.length - k : Nat), k, st.buffer + k, header, continuation.length, mem, sb⟩
        else .again ⟨0, todo.length, st.buffer + todo.length, st.header, 0, st.mem, sb⟩ := by
  have hpos := List.length_pos_iff.mpr hhdr
  have hslice := h.slice (Nat.min_le_right k todo.length)
  rw [← List.take_take, List.take_length] at hslice
  have hchunk : (if (todo.length : Int) < k then (todo.length : Int) else k) =
      (min k todo.length : Nat) := by
    split <;> omega
  have hne : ¬ (todo.length : Int) + hdr.length = 0 := by omega
  have hnonneg : ¬ ((min k todo.length : Nat) : Int) + hdr.length < 0 := by omega
  have hn : (((min k todo.length : Nat) : Int) + hdr.length).toNat =
      min k todo.length + hdr.length := by omega
  have hroom : ¬ st.mem.size < st.header + (min k todo.length + hdr.length) := by
    have hadjacent := h.adjacent
    have hinside := h.inside
    omega
  simp only [chunkPass, h.nSize, h.nChunkSize, h.hSize, hchunk, hne, hnonneg, hn, hroom, ite_false,
    hslice]
  rcases writeN st.sb.answers st.sb.wire (hdr ++ todo.take k) with ⟨sb, _ | _ | _⟩
  · have hbuffer : ((st.buffer : Int) + (min k todo.length : Nat)).toNat =
        st.buffer + min k todo.length := by omega
    simp only [hbuffer]
    by_cases hlt : k < todo.length
    · have hmin : min k todo.length = k := by omega
      have hleft : (0 : Int) < todo.length - k := by omega
      have hcast : (todo.length : Int) - k = ((todo.length - k : Nat) : Int) := by omega
      simp only [hmin, hleft, hlt, ite_true]
      rw [hcast]
    · have hmin : min k todo.length = todo.length := by omega
      simp only [hmin, Int.sub_self, Int.lt_irrefl, hlt, ite_false]
  · rfl
  · rfl

/-- With nothing left the loop ends. -/
theorem chunkPass_of_empty (hnSize : st.nSize = 0) (hhSize : st.hSize = 0) :
    chunkPass continuation st = .leave (.ok (st.mem, st.sb, .done)) := by
  simp only [chunkPass, hnSize, hhSize, Int.ofNat_zero, Int.add_zero, ite_true]

/-- The next header leaves the rest of the body alone. -/
theorem AtChunk.next (h : AtChunk k continuation st hdr todo) (hlt : k < todo.length)
    (sb : RTMPSockBuf) :
    ∃ mem, st.mem.storeList (st.buffer + k - continuation.length) continuation = .ok mem ∧
      mem.size = st.mem.size ∧
      AtChunk k continuation ⟨(todo.length - k : Nat), k, st.buffer + k,
        st.buffer + k - continuation.length, continuation.length, mem, sb⟩ continuation
        (todo.drop k) := by
  have hroom := h.room
  have hinside := h.inside
  refine ⟨_, Block.storeList_eq continuation (by omega), rfl, ?_⟩
  constructor
  · rw [List.length_drop]
  · rfl
  · rfl
  · simp only
    omega
  · rw [Block.slice_copy_self, Block.slice_ofList]
  · have hkeep : ∀ n, (st.mem.copy (st.buffer + k - continuation.length) (.ofList continuation) 0
        continuation.length).slice (st.buffer + k) n = st.mem.slice (st.buffer + k) n :=
      fun n => Block.slice_congr fun i _ => Block.byte_copy_of_le (by omega)
    rw [hkeep, List.length_drop, ← Block.drop_slice, h.body]
  · simp only [List.length_drop, Block.copy]
    omega
  · simp only
    omega

/-- The loop writes the header and the pieces of the body, or a beginning of that. -/
theorem loop_chunkPass (hk : 0 < k) (hcontinuation : continuation ≠ []) {fuel : Nat}
    (h : AtChunk k continuation st hdr todo) (hhdr : hdr ≠ []) (hfuel : todo.length + 2 ≤ fuel) :
    ∃ mem r, loop (chunkPass continuation) fuel st = some (.ok (mem, r)) ∧
      mem.size = st.mem.size ∧ Writes st.sb (hdr ++ separated k continuation todo) r := by
  induction todo using pieces_induction k hk generalizing st hdr fuel with
  | short todo hle =>
    obtain ⟨fuel, rfl⟩ := Nat.exists_eq_add_of_le' hfuel
    have hwrites := writes_writeN st.sb.answers st.sb.wire (hdr ++ todo)
    have hpass := h.pass hhdr
    rw [List.take_of_length_le hle] at hpass
    rw [separated_of_le hle]
    rcases hr : writeN st.sb.answers st.sb.wire (hdr ++ todo) with ⟨sb, _ | _ | _⟩ <;>
      rw [hr] at hpass hwrites
    · simp only [Nat.not_lt.mpr hle, ite_false] at hpass
      refine ⟨_, _, ?_, rfl, hwrites⟩
      rw [Nat.add_succ, loop_again hpass]
      exact loop_leave (chunkPass_of_empty rfl rfl) (by omega)
    · exact ⟨_, _, loop_leave hpass (by omega), rfl, hwrites⟩
    · exact ⟨_, _, loop_leave hpass (by omega), rfl, hwrites⟩
  | long todo hlt ih =>
    obtain ⟨fuel, rfl⟩ := Nat.exists_eq_add_of_le' hfuel
    have hwrites := writes_writeN st.sb.answers st.sb.wire (hdr ++ todo.take k)
    have hpass := h.pass hhdr
    rw [separated_of_lt hk hlt, ← List.append_assoc]
    rcases hr : writeN st.sb.answers st.sb.wire (hdr ++ todo.take k) with ⟨sb, _ | _ | _⟩ <;>
      rw [hr] at hpass hwrites
    · obtain ⟨mem, hstore, hsize, hnext⟩ := h.next hlt sb
      simp only [hlt, ite_true, hstore, bind, Except.bind, pure, Except.pure, Pass.attempt] at hpass
      have henough : (todo.drop k).length + 2 ≤ todo.length + 1 + fuel := by
        rw [List.length_drop]
        omega
      obtain ⟨mem', r, hloop, hsize', hrest⟩ := ih hnext hcontinuation henough
      obtain ⟨taken, hwire, -, hdone⟩ := hwrites
      refine ⟨mem', r, ?_, hsize'.trans hsize, ?_⟩
      · rw [show fuel + (todo.length + 2) = todo.length + 1 + fuel + 1 by omega, loop_again hpass]
        exact hloop
      · rw [← hdone rfl]
        rw [show sb = ⟨sb.answers, st.sb.wire ++ taken⟩ from congrArg (RTMPSockBuf.mk _) hwire]
          at hrest
        exact hrest.append
    · exact ⟨_, _, loop_leave hpass (by omega), rfl, hwrites.mono (nomatch ·) _⟩
    · exact ⟨_, _, loop_leave hpass (by omega), rfl, hwrites.mono (nomatch ·) _⟩

/-! ## `RTMP_SendPacket` -/

/-- What a call of `RTMP_SendPacket` leaves: the connection, the header type and the
allocation of the packet, and how the write has ended. It returns `TRUE` if that is `done`. -/
structure PacketSent where
  writer : ChunkWriter
  headerType : UInt8
  mem : Block
  status : WriteStatus

/-- The header type and the time that go into the header. -/
def ChunkWriter.header (w : ChunkWriter) (packet : RTMPPacket) : UInt8 × UInt32 :=
  let (headerType, last) := compressed (w.mVecChannelsOut packet.mNChannel) packet
  (headerType, packet.mNTimeStamp - last)

/-- The connection behind the loop: a packet that is sent is kept for its channel, and
closing the connection forgets those of all channels. -/
def ChunkWriter.written (w : ChunkWriter) (packet : RTMPPacket) :
    RTMPSockBuf × WriteStatus → ChunkWriter
  | (sb, .done) => { w with
      mSb := sb
      mVecChannelsOut :=
        Function.update w.mVecChannelsOut packet.mNChannel (some packet.sentHeader) }
  | (sb, .stopped) => { w with mSb := sb }
  | (sb, .closed) => { w with mSb := sb, mVecChannelsOut := fun _ => none }

/-- `RTMP_SendPacket(r, packet, 0)` over a socket, for a packet with a body. -/
def rtmpSendPacket (w : ChunkWriter) (room : Nat → UInt8) (packet : RTMPPacket) :
    Except Fault PacketSent := do
  if packet.mNChannel < 0 ∨ rtmpChannels ≤ packet.mNChannel then .error .read
  else
    let (headerType, t) := w.header packet
    let mem := packet.allocation room
    if 3 < headerType then return ⟨w, headerType, mem, .stopped⟩
    else
      let hSize := headerSize headerType t packet.mNChannel
      let header := rtmpMaxHeaderSize - hSize
      let mem ← mem.storeList header (headerBytes headerType t packet)
      let nSize := toInt packet.mNBodySize.toNat
      let (mem, r) ← (loop (chunkPass (continuationBytes headerType packet.mNChannel))
        (nSize.toNat + 2)
        ⟨nSize, w.mOutChunkSize, rtmpMaxHeaderSize, header, hSize, mem, w.mSb⟩).getD (.error .spin)
      return ⟨w.written packet r, headerType, mem, r.2⟩

theorem length_channelBytes (mNChannel : Int) :
    (channelBytes mNChannel).length = channelSize mNChannel := by
  unfold channelBytes channelSize
  split
  · rfl
  · split <;> rfl

theorem channelSize_le (mNChannel : Int) : channelSize mNChannel ≤ 2 := by
  unfold channelSize
  split <;> [skip; split] <;> decide

/-- The header fills what is reserved for it. -/
theorem length_headerBytes {headerType : UInt8} (h : headerType ≤ 3) (t : UInt32)
    (packet : RTMPPacket) :
    (headerBytes headerType t packet).length = headerSize headerType t packet.mNChannel := by
  have hcases : headerType = 0 ∨ headerType = 1 ∨ headerType = 2 ∨ headerType = 3 := by
    have hnat : headerType.toNat ≤ 3 := UInt8.le_iff_toNat_le.mp h
    simp only [← UInt8.toNat_inj, UInt8.toNat_ofNat]
    omega
  simp only [headerBytes, headerSize, List.length_append, length_channelBytes]
  rcases hcases with rfl | rfl | rfl | rfl <;> cases extendedTime _ t <;>
    simp [packetSize, encodeInt24, encodeInt32, encodeInt32LE] <;> omega

/-- A header fits the room in front of the body. -/
theorem headerSize_le (headerType : UInt8) (t : UInt32) (mNChannel : Int) :
    headerSize headerType t mNChannel ≤ rtmpMaxHeaderSize := by
  have hchannel := channelSize_le mNChannel
  have hpacket : packetSize headerType ≤ 12 := by
    unfold packetSize
    match headerType.toNat with
    | 0 | 1 | 2 | 3 => decide
    | n + 4 => simp
  unfold headerSize rtmpMaxHeaderSize
  split <;> omega

theorem headerBytes_ne_nil (headerType : UInt8) (t : UInt32) (packet : RTMPPacket) :
    headerBytes headerType t packet ≠ [] := by
  simp [headerBytes]

theorem length_continuationBytes (headerType : UInt8) (mNChannel : Int) :
    (continuationBytes headerType mNChannel).length = channelSize mNChannel + 1 := by
  simp [continuationBytes, length_channelBytes]

theorem continuationBytes_ne_nil (headerType : UInt8) (mNChannel : Int) :
    continuationBytes headerType mNChannel ≠ [] :=
  List.cons_ne_nil _ _

/-- Compression keeps a header type that is one. -/
theorem compressed_le (prevPacket : Option SentHeader) {packet : RTMPPacket}
    (h : packet.mHeaderType ≤ 3) : (compressed prevPacket packet).1 ≤ 3 := by
  unfold compressed
  split
  · exact h
  · split
    · exact h
    · simp only
      split <;> split <;> first | exact h | decide

/-- A packet that `RTMP_SendPacket` is made for. -/
structure RTMPPacket.Sendable (packet : RTMPPacket) : Prop where
  headerType : packet.mHeaderType ≤ 3
  nonneg : 0 ≤ packet.mNChannel
  channel : packet.mNChannel < rtmpChannels
  fits : packet.mNBodySize.toNat ≤ packet.mBody.size
  int : packet.mNBodySize.toNat < 2 ^ 31

/-- The loop starts at the first chunk. -/
theorem atChunk_first {packet : RTMPPacket} (hp : packet.Sendable) {headerType : UInt8}
    (htype : headerType ≤ 3) (t : UInt32) (room : Nat → UInt8) (k : Nat) (sb : RTMPSockBuf) :
    let hSize := headerSize headerType t packet.mNChannel
    ∃ mem, (packet.allocation room).storeList (rtmpMaxHeaderSize - hSize)
        (headerBytes headerType t packet) = .ok mem ∧
      mem.size = rtmpMaxHeaderSize + packet.mBody.size ∧
      AtChunk k (continuationBytes headerType packet.mNChannel)
        ⟨packet.mNBodySize.toNat, k, rtmpMaxHeaderSize, rtmpMaxHeaderSize - hSize, hSize, mem, sb⟩
        (headerBytes headerType t packet) (packet.mBody.slice 0 packet.mNBodySize.toNat) := by
  intro hSize
  have hle : hSize ≤ rtmpMaxHeaderSize := headerSize_le headerType t packet.mNChannel
  have hlength : (headerBytes headerType t packet).length = hSize :=
    length_headerBytes htype t packet
  have hsize : (packet.allocation room).size = rtmpMaxHeaderSize + packet.mBody.size := rfl
  refine ⟨_, Block.storeList_eq _ (by omega), hsize, ?_⟩
  constructor
  · rw [Block.length_slice]
  · rfl
  · exact hlength.symm
  · simp only [hlength]
    omega
  · rw [Block.slice_copy_self, Block.slice_ofList]
  · rw [Block.length_slice]
    refine Block.slice_congr fun i _ => ?_
    rw [Block.byte_copy_of_le (by simp only [hlength]; omega)]
    simp only [RTMPPacket.allocation, Nat.zero_add, Nat.add_sub_cancel_left,
      if_neg (Nat.not_lt.mpr (Nat.le_add_right rtmpMaxHeaderSize i))]
  · have hfits := hp.fits
    simp only [Block.length_slice, Block.copy, hsize]
    omega
  · have hchannel := channelSize_le packet.mNChannel
    rw [length_continuationBytes]
    simp only [rtmpMaxHeaderSize]
    omega

/-- The packet goes onto the wire, or a beginning of it, and the allocation is all that the
call writes to. -/
theorem rtmpSendPacket_eq {w : ChunkWriter} {packet : RTMPPacket} (hchunk : 0 < w.mOutChunkSize)
    (hp : packet.Sendable) (room : Nat → UInt8) :
    let header := w.header packet
    ∃ mem r, rtmpSendPacket w room packet = .ok ⟨w.written packet r, header.1, mem, r.2⟩ ∧
      mem.size = rtmpMaxHeaderSize + packet.mBody.size ∧
      Writes w.mSb (chunkStream w.mOutChunkSize.toNat header.1 header.2 packet) r := by
  have htype : (w.header packet).1 ≤ 3 := compressed_le _ hp.headerType
  rcases hheader : w.header packet with ⟨headerType, t⟩
  rw [hheader] at htype
  obtain ⟨mem₀, hstore, hsize₀, hat⟩ :=
    atChunk_first hp htype t room w.mOutChunkSize.toNat w.mSb
  obtain ⟨mem, r, hloop, hsize, hwrites⟩ := loop_chunkPass (by omega)
    (continuationBytes_ne_nil headerType packet.mNChannel) hat
    (headerBytes_ne_nil headerType t packet) (le_refl _)
  refine ⟨mem, r, ?_, hsize.trans hsize₀, hwrites⟩
  have hnSize : toInt packet.mNBodySize.toNat = packet.mNBodySize.toNat :=
    toInt_eq (by omega) (by exact_mod_cast hp.int)
  have hsigned : ((w.mOutChunkSize.toNat : Nat) : Int) = w.mOutChunkSize :=
    Int.toNat_of_nonneg (Int.le_of_lt hchunk)
  have hchannel : ¬ (packet.mNChannel < 0 ∨ rtmpChannels ≤ packet.mNChannel) := by
    have hlo := hp.nonneg
    have hhi := hp.channel
    omega
  have hsane : ¬ 3 < headerType := UInt8.not_lt.mpr htype
  rw [Block.length_slice, hsigned] at hloop
  rw [rtmpSendPacket, if_neg hchannel, hheader]
  simp only [hsane, ite_false]
  rw [hstore, hnSize, Int.toNat_natCast]
  simp only [bind, Except.bind, hloop, Option.getD_some, pure, Except.pure]

/-- The calls of `RTMP_SendPacket` one behind the other, up to the first that fails. Every
packet comes with what lies in its header room. -/
def rtmpSendPackets (w : ChunkWriter) :
    List ((Nat → UInt8) × RTMPPacket) → Except Fault (ChunkWriter × WriteStatus)
  | [] => .ok (w, .done)
  | (room, packet) :: packets => do
    let sent ← rtmpSendPacket w room packet
    if sent.status = .done then rtmpSendPackets sent.writer packets
    else return (sent.writer, sent.status)

/-- The packets that the channels sent last. -/
abbrev ChannelsOut := Int → Option SentHeader

/-- The packet is kept for its channel. -/
def RTMPPacket.keep (packet : RTMPPacket) (out : ChannelsOut) : ChannelsOut :=
  Function.update out packet.mNChannel (some packet.sentHeader)

/-- The packets on the wire: every header leaves out what the channel has sent last. -/
def packetStream (chunkSize : Nat) : ChannelsOut → List RTMPPacket → List UInt8
  | _, [] => []
  | out, packet :: packets =>
    let (headerType, last) := compressed (out packet.mNChannel) packet
    chunkStream chunkSize headerType (packet.mNTimeStamp - last) packet ++
      packetStream chunkSize (packet.keep out) packets

/-- A run that is not done takes a beginning of what it goes on with. -/
theorem rtmpSendPackets_eq {w : ChunkWriter} (hchunk : 0 < w.mOutChunkSize)
    {packets : List ((Nat → UInt8) × RTMPPacket)} (hp : ∀ p ∈ packets, p.2.Sendable) :
    ∃ w' status, rtmpSendPackets w packets = .ok (w', status) ∧
      Writes w.mSb (packetStream w.mOutChunkSize.toNat w.mVecChannelsOut (packets.map Prod.snd))
        (w'.mSb, status) := by
  induction packets generalizing w with
  | nil => exact ⟨w, .done, rfl, writes_none w.mSb _ fun _ => rfl⟩
  | cons p packets ih =>
    obtain ⟨room, packet⟩ := p
    rw [List.forall_mem_cons] at hp
    obtain ⟨mem, ⟨sb, status⟩, hsend, -, hwrites⟩ := rtmpSendPacket_eq hchunk hp.1 room
    simp only [rtmpSendPackets, hsend, bind, Except.bind, List.map_cons, packetStream]
    by_cases hdone : status = .done
    · obtain ⟨w', status', hrun, hrest⟩ :=
        ih (w := w.written packet (sb, .done)) hchunk hp.2
      obtain ⟨taken, hwire, -, hall⟩ := hwrites
      refine ⟨w', status', by simpa only [hdone, ite_true] using hrun, ?_⟩
      have hsb : sb = ⟨sb.answers, w.mSb.wire ++ taken⟩ := congrArg (RTMPSockBuf.mk _) hwire
      rw [hall hdone] at hsb
      rw [show (w.written packet (sb, .done)).mSb = sb from rfl, hsb] at hrest
      exact hrest.append
    · refine ⟨w.written packet (sb, status), status, by simp only [hdone, ite_false, pure,
        Except.pure], ?_⟩
      have hsb : (w.written packet (sb, status)).mSb = sb := by cases status <;> rfl
      rw [hsb]
      exact hwrites.mono hdone _

/-- The packets that the channels sent last, behind some packets. -/
def keepAll (out : ChannelsOut) (packets : List RTMPPacket) : ChannelsOut :=
  packets.foldl (fun out packet => packet.keep out) out

theorem packetStream_append (k : Nat) (out : ChannelsOut) (packets packets' : List RTMPPacket) :
    packetStream k out (packets ++ packets') =
      packetStream k out packets ++ packetStream k (keepAll out packets) packets' := by
  induction packets generalizing out with
  | nil => rfl
  | cons packet packets ih =>
    simp only [List.cons_append, packetStream, ih, List.append_assoc]
    rfl

/-- Behind a run that is done the channels keep what it has sent. -/
theorem rtmpSendPackets_done {w w' : ChunkWriter} (hchunk : 0 < w.mOutChunkSize)
    {packets : List ((Nat → UInt8) × RTMPPacket)} (hp : ∀ p ∈ packets, p.2.Sendable)
    (h : rtmpSendPackets w packets = .ok (w', .done)) :
    w'.mOutChunkSize = w.mOutChunkSize ∧
      w'.mVecChannelsOut = keepAll w.mVecChannelsOut (packets.map Prod.snd) := by
  induction packets generalizing w with
  | nil =>
    cases h
    exact ⟨rfl, rfl⟩
  | cons p packets ih =>
    obtain ⟨room, packet⟩ := p
    rw [List.forall_mem_cons] at hp
    obtain ⟨mem, ⟨sb, status⟩, hsend, -, -⟩ := rtmpSendPacket_eq hchunk hp.1 room
    simp only [rtmpSendPackets, hsend, bind, Except.bind] at h
    split at h
    · rename_i hdone
      subst hdone
      obtain ⟨hchunk', hout⟩ := ih (w := w.written packet (sb, .done)) hchunk hp.2 h
      exact ⟨hchunk', hout⟩
    · rename_i hdone
      simp only [pure, Except.pure, Except.ok.injEq, Prod.mk.injEq] at h
      exact absurd h.2 hdone

end Jrtplib4Android
