import Jrtplib4Android.Core.CInt
import Jrtplib4Android.Rtmp.ChunkWriter

/-!
# Reading chunks

`RTMP_ReadPacket` reads one chunk. A packet that is not complete is kept for its channel
with its body, and a header that leaves something out takes it from the packet that the
channel had last. Reading stays inside the bodies whatever arrives, but a header with a new
size frees the body of an unfinished packet that the channel still points to: if the
connection ends before its chunk is there, `RTMP_Close` frees that body again. All this is about
connections on which the acknowledgements of what was read are written.
-/

namespace Jrtplib4Android

open CSem

/-- The body of a packet: none, an allocation, or one that has been freed. -/
inductive InBody where
  | null
  | alive (b : Block)
  | freed

namespace InBody

/-- Bytes that `recv` puts at an offset of the body. -/
def store (offset : Nat) : List UInt8 → InBody → Except Fault InBody
  | [], body => .ok body
  | _ :: _, .null => .error .null
  | _ :: _, .freed => .error .write
  | bytes, .alive b => (b.storeList offset bytes).map .alive

/-- The first bytes of a body. -/
def bytes (n : Nat) : InBody → List UInt8
  | .alive b => b.slice 0 n
  | _ => []

end InBody

/-- `RTMPPacket` on the reading side. -/
structure InPacket where
  mHeaderType : UInt8
  mPacketType : UInt8
  mHasAbsTimestamp : Bool
  mNChannel : Int
  mNTimeStamp : UInt32
  mNInfoField2 : Int
  mNBodySize : Nat
  mNBytesRead : Nat
  mBody : InBody

namespace InPacket

/-- `RTMPPacket packet = {0}`. -/
def zero : InPacket := ⟨0, 0, false, 0, 0, 0, 0, 0, .null⟩

/-- `RTMPPacket_IsReady`. -/
def isReady (p : InPacket) : Prop := p.mNBytesRead = p.mNBodySize

instance (p : InPacket) : Decidable p.isReady := inferInstanceAs (Decidable (_ = _))

end InPacket

/-- The members of `RTMP` that `RTMP_ReadPacket` uses. -/
structure ChunkReader where
  mInChunkSize : Int
  mVecChannelsIn : Int → Option InPacket
  mChannelTimestamp : Int → UInt32

namespace ChunkReader

/-- The connection as `RTMP_Init` sets it up. -/
def init : ChunkReader := ⟨rtmpDefaultChunkSize, fun _ => none, fun _ => 0⟩

/-- The packet is kept for its channel. -/
def keep (r : ChunkReader) (packet : InPacket) : ChunkReader :=
  { r with mVecChannelsIn := Function.update r.mVecChannelsIn packet.mNChannel (some packet) }

end ChunkReader

/-- `ReadN`: the bytes and what comes behind them, if the connection does not end before. The
acknowledgement that it sends on the way (`SendBytesReceived`) is taken to be written: one that
fails closes the connection in the middle of a packet, which is left out. -/
def readN (n : Nat) (input : List UInt8) : Option (List UInt8 × List UInt8) :=
  if n ≤ input.length then some (input.take n, input.drop n) else none

/-- The header type and the channel at the start of a header. -/
def readChannel : List UInt8 → Option (UInt8 × Int × List UInt8)
  | [] => none
  | c :: input =>
    let headerType := (c &&& 0xc0) >>> 6
    let mNChannel := c &&& 0x3f
    if mNChannel = 0 then
      match input with
      | b :: input => some (headerType, b.toNat + 64, input)
      | [] => none
    else if mNChannel = 1 then
      match input with
      | b :: b' :: input => some (headerType, b'.toNat * 256 + b.toNat + 64, input)
      | _ => none
    else some (headerType, mNChannel.toNat, input)

/-- `AMF_DecodeInt24` and `AMF_DecodeInt32` at an offset of a header. -/
def decodeInt (header : List UInt8) (offset width : Nat) : Nat :=
  beNat ((header.drop offset).take width)

/-- `DecodeInt32LE`. -/
def decodeInt32LE (data : List UInt8) : Int :=
  toInt (leWord (data.getD 0 0) (data.getD 1 0) (data.getD 2 0) (data.getD 3 0)).toNat

/-- The members that a header sets, where a header with a size has freed the body. -/
def InPacket.decode (packet : InPacket) (header : List UInt8) : InPacket :=
  let nSize := header.length
  if nSize < 3 then packet
  else
    let packet := { packet with mNTimeStamp := UInt32.ofNat (decodeInt header 0 3) }
    if nSize < 6 then packet
    else
      let packet := { packet with
        mNBodySize := decodeInt header 3 3
        mNBytesRead := 0
        mBody := .null }
      if nSize ≤ 6 then packet
      else
        let packet := { packet with mPacketType := header.getD 6 0 }
        if nSize = 11 then { packet with mNInfoField2 := decodeInt32LE (header.drop 7) } else packet

/-- How a call of `RTMP_ReadPacket` ends: with `TRUE`, what it leaves in the packet and what
is left of the input, or with `FALSE`. -/
inductive ReadResult where
  | done (r : ChunkReader) (packet : InPacket) (input : List UInt8)
  | failed (r : ChunkReader)

/-- The time of a packet that is ready. -/
def ChunkReader.absoluteTime (r : ChunkReader) (packet : InPacket) : UInt32 :=
  if packet.mHasAbsTimestamp then packet.mNTimeStamp
  else packet.mNTimeStamp + r.mChannelTimestamp packet.mNChannel

/-- A packet that is ready as it is handed out. -/
def ChunkReader.handOut (r : ChunkReader) (packet : InPacket) : InPacket :=
  { packet with mNTimeStamp := r.absoluteTime packet }

/-- What the channel keeps of a packet that is ready. -/
def ChunkReader.finish (r : ChunkReader) (packet : InPacket) : ChunkReader :=
  { r.keep { packet with mBody := .null, mNBytesRead := 0, mHasAbsTimestamp := false } with
    mChannelTimestamp :=
      Function.update r.mChannelTimestamp packet.mNChannel (r.absoluteTime packet) }

/-- A packet with the next chunk in its body is kept for its channel. -/
def ChunkReader.received (r : ChunkReader) (packet : InPacket) (input : List UInt8) : ReadResult :=
  if packet.isReady then .done (r.finish packet) (r.handOut packet) input
  else .done (r.keep packet) { packet with mBody := .null } input

/-- `RTMPPacket_Alloc` for a packet that has a size and no body. -/
def InPacket.allocate (headerType : UInt8) (packet : InPacket) : InPacket :=
  match packet.mBody with
  | .null =>
    if 0 < packet.mNBodySize then
      { packet with
        mBody := .alive (.fill packet.mNBodySize 0)
        mNBytesRead := 0
        mHeaderType := headerType }
    else packet
  | _ => packet

/-- The bytes to read next: what is missing, or a chunk. -/
def ChunkReader.nChunk (r : ChunkReader) (packet : InPacket) : Int :=
  let nToRead : Int := packet.mNBodySize - packet.mNBytesRead
  if nToRead < r.mInChunkSize then nToRead else r.mInChunkSize

/-- `RTMP_ReadPacket` behind the header. -/
def ChunkReader.readChunk (r : ChunkReader) (headerType : UInt8) (packet : InPacket)
    (input : List UInt8) : Except Fault ReadResult := do
  let packet := packet.allocate headerType
  let nChunk := r.nChunk packet
  if nChunk < 0 then return .failed r
  else
    let mBody ← packet.mBody.store packet.mNBytesRead (input.take nChunk.toNat)
    if input.length < nChunk.toNat then return .failed r
    else
      return r.received
        { packet with mNBytesRead := packet.mNBytesRead + nChunk.toNat, mBody := mBody }
        (input.drop nChunk.toNat)

/-- The packet that a header starts from: its own if the header is large, else that of the
channel. -/
def ChunkReader.known (r : ChunkReader) (headerType : UInt8) (mNChannel : Int)
    (packet : InPacket) : InPacket :=
  let packet := { packet with mHeaderType := headerType, mNChannel := mNChannel }
  if packetSize headerType = 12 then { packet with mHasAbsTimestamp := true }
  else (r.mVecChannelsIn mNChannel).getD packet

/-- `RTMPPacket_Free` on a packet that shares its body with that of the channel. -/
def ChunkReader.release (r : ChunkReader) (headerType : UInt8) (mNChannel : Int) :
    Except Fault ChunkReader :=
  match r.mVecChannelsIn mNChannel with
  | none => .ok r
  | some stored =>
    if packetSize headerType = 8 then
      match stored.mBody with
      | .null => .ok r
      | .alive _ => .ok { r with
          mVecChannelsIn :=
            Function.update r.mVecChannelsIn mNChannel (some { stored with mBody := .freed }) }
      | .freed => .error .write
    else .ok r

/-- `RTMP_ReadPacket`. -/
def rtmpReadPacket (r : ChunkReader) (packet : InPacket) (input : List UInt8) :
    Except Fault ReadResult :=
  match readChannel input with
  | none => .ok (.failed r)
  | some (headerType, mNChannel, input) =>
    let packet := r.known headerType mNChannel packet
    match readN (packetSize headerType - 1) input with
    | none => .ok (.failed r)
    | some (header, input) => do
      let r ← r.release headerType mNChannel
      let packet := packet.decode header
      if 3 ≤ header.length ∧ packet.mNTimeStamp = 0xffffff then
        match readN 4 input with
        | none => .ok (.failed r)
        | some (extended, input) =>
          r.readChunk headerType
            { packet with mNTimeStamp := UInt32.ofNat (decodeInt extended 0 4) } input
      else r.readChunk headerType packet input

/-- What a packet says, whichever way it travels. -/
structure PacketContent where
  packetType : UInt8
  channel : Int
  timestamp : UInt32
  streamId : Int
  bodySize : Nat
  body : List UInt8

/-- The packet as `RTMP_ClientPacket` gets it. -/
def InPacket.content (p : InPacket) : PacketContent :=
  ⟨p.mPacketType, p.mNChannel, p.mNTimeStamp, p.mNInfoField2, p.mNBodySize,
    p.mBody.bytes p.mNBodySize⟩

/-- `HandleChangeChunkSize`, which is all that `RTMP_ClientPacket` does to the reading side. -/
def ChunkReader.handleChangeChunkSize (r : ChunkReader) (packet : InPacket) : ChunkReader :=
  if packet.mPacketType = 1 ∧ 4 ≤ packet.mNBodySize then
    { r with mInChunkSize := toInt (beNat (packet.mBody.bytes 4)) }
  else r

/-- A run of `RTMP_ReadPacket`: the packets that became ready, what the last call found, and
the connection as that call leaves it to `RTMP_Close`. -/
structure ReadRun where
  packets : List PacketContent
  reader : ChunkReader
  packet : InPacket
  input : List UInt8
  closing : ChunkReader

/-- The loop of `RTMP_ConnectStream` until `RTMP_ReadPacket` fails. -/
def rtmpReadPackets : Nat → ChunkReader → InPacket → List UInt8 → Except Fault ReadRun
  | 0, _, _, _ => .error .spin
  | fuel + 1, r, packet, input => do
    match ← rtmpReadPacket r packet input with
    | .failed closing => return ⟨[], r, packet, input, closing⟩
    | .done r' packet' input' =>
      if packet'.isReady then
        let run ← rtmpReadPackets fuel (r'.handleChangeChunkSize packet')
          { packet' with mBody := .null } input'
        return { run with packets := packet'.content :: run.packets }
      else rtmpReadPackets fuel r' packet' input'

/-- Whether the body of a channel's packet has been freed. -/
def ChunkReader.dangling (r : ChunkReader) (mNChannel : Int) : Bool :=
  match r.mVecChannelsIn mNChannel with
  | some ⟨_, _, _, _, _, _, _, _, .freed⟩ => true
  | _ => false

/-- `RTMP_Close`, the part that frees the packets of the channels. -/
def rtmpClose (r : ChunkReader) : Except Fault ChunkReader :=
  if ∃ i : Fin rtmpChannels.toNat, r.dangling i then .error .write
  else .ok { r with mVecChannelsIn := fun _ => none }

/-- A packet whose body has the size that is still to be filled. -/
def InPacket.Sound (p : InPacket) : Prop :=
  match p.mBody with
  | .null => p.mNBodySize = 0 → p.mNBytesRead = 0
  | .alive b => b.size = p.mNBodySize ∧ p.mNBytesRead < p.mNBodySize
  | .freed => False

/-- The channels that there are hold sound packets. -/
def ChunkReader.Sound (r : ChunkReader) : Prop :=
  ∀ c p, r.mVecChannelsIn c = some p → p.Sound ∧ p.mNChannel = c ∧ 0 ≤ c ∧ c < rtmpChannels

theorem InPacket.sound_zero : InPacket.zero.Sound := fun _ => rfl

theorem ChunkReader.sound_init : ChunkReader.init.Sound := fun _ _ h => nomatch h

@[simp] theorem ChunkReader.mVecChannelsIn_keep (r : ChunkReader) (packet : InPacket) :
    (r.keep packet).mVecChannelsIn =
      Function.update r.mVecChannelsIn packet.mNChannel (some packet) := rfl

/-- All channels but one hold sound packets. -/
def ChunkReader.SoundBut (r : ChunkReader) (mNChannel : Int) : Prop :=
  ∀ c p, c ≠ mNChannel → r.mVecChannelsIn c = some p →
    p.Sound ∧ p.mNChannel = c ∧ 0 ≤ c ∧ c < rtmpChannels

/-- A sound reader is sound but for a channel. -/
theorem ChunkReader.Sound.but {r : ChunkReader} (hr : r.Sound) (mNChannel : Int) :
    r.SoundBut mNChannel :=
  fun c p _ h => hr c p h

/-- A sound packet that is kept makes up for the channel that is left out. -/
theorem ChunkReader.SoundBut.keep {r : ChunkReader} {packet : InPacket}
    (hr : r.SoundBut packet.mNChannel) (hp : packet.Sound)
    (hc : 0 ≤ packet.mNChannel ∧ packet.mNChannel < rtmpChannels) : (r.keep packet).Sound := by
  intro c p h
  rw [mVecChannelsIn_keep, Function.update_apply] at h
  split at h
  · cases h
    subst c
    exact ⟨hp, rfl, hc⟩
  · exact hr c p ‹_› h

/-- A header names one of the channels. -/
theorem readChannel_channel {input : List UInt8} {headerType : UInt8} {mNChannel : Int}
    {rest : List UInt8} (h : readChannel input = some (headerType, mNChannel, rest)) :
    0 ≤ mNChannel ∧ mNChannel < rtmpChannels := by
  have hbyte : ∀ b : UInt8, b.toNat < 256 := fun b => b.toNat_lt
  unfold readChannel at h
  split at h
  · cases h
  · simp only at h
    split at h <;> [skip; split at h]
    · split at h <;> cases h
      rename_i b
      have hb := hbyte b
      simp only [rtmpChannels]
      omega
    · split at h <;> cases h
      rename_i b b'
      have hb := hbyte b
      have hb' := hbyte b'
      simp only [rtmpChannels]
      omega
    · cases h
      rename_i c _ _
      have hc := hbyte (c &&& 0x3f)
      simp only [rtmpChannels]
      omega

/-- A header takes at least a byte. -/
theorem length_readChannel {input : List UInt8} {headerType : UInt8} {mNChannel : Int}
    {rest : List UInt8} (h : readChannel input = some (headerType, mNChannel, rest)) :
    rest.length < input.length := by
  unfold readChannel at h
  split at h
  · cases h
  · simp only at h
    split at h <;> [skip; split at h]
    · split at h <;> cases h
      simp only [List.length_cons]
      omega
    · split at h <;> cases h
      simp only [List.length_cons]
      omega
    · cases h
      exact Nat.lt_succ_self _

/-- What is read was there. -/
theorem readN_eq_some {n : Nat} {input bytes rest : List UInt8}
    (h : readN n input = some (bytes, rest)) : bytes.length = n ∧ input = bytes ++ rest := by
  unfold readN at h
  split at h <;> cases h
  exact ⟨by rw [List.length_take]; omega, (List.take_append_drop n input).symm⟩

/-- A packet on its way, with room for what is missing. -/
def InPacket.Filling (p : InPacket) : Prop :=
  match p.mBody with
  | .null => p.mNBodySize = 0 ∧ p.mNBytesRead = 0
  | .alive b => b.size = p.mNBodySize ∧ p.mNBytesRead ≤ p.mNBodySize
  | .freed => False

/-- A packet as `RTMP_ReadPacket` hands it out: complete with its body, or without one. -/
structure InPacket.Settled (p : InPacket) : Prop where
  next : ({ p with mBody := .null } : InPacket).Sound
  complete : p.isReady → p.content.body.length = p.content.bodySize
  started : ¬ p.isReady → p.mBody = .null

/-- A sound packet has a body to fill, once it is allocated. -/
theorem InPacket.Sound.filling_allocate {p : InPacket} (h : p.Sound) (headerType : UInt8) :
    (p.allocate headerType).Filling := by
  rcases hb : p.mBody with _ | b | _ <;> simp only [InPacket.Sound, hb] at h
  · simp only [allocate, hb]
    split
    · exact ⟨Block.size_fill _ _, Nat.zero_le _⟩
    · have hsize : p.mNBodySize = 0 := by omega
      simp only [Filling, hb]
      exact ⟨hsize, h hsize⟩
  · simp only [allocate, Filling, hb]
    exact ⟨h.1, h.2.le⟩

@[simp] theorem InPacket.mNChannel_allocate (headerType : UInt8) (p : InPacket) :
    (p.allocate headerType).mNChannel = p.mNChannel := by
  unfold allocate
  split <;> [split; skip] <;> rfl

/-- Bytes for which there is room go into the body. -/
theorem InBody.store_alive {b : Block} {offset : Nat} {bytes : List UInt8}
    (h : offset + bytes.length ≤ b.size) :
    InBody.store offset bytes (.alive b) =
      .ok (.alive (b.copy offset (.ofList bytes) 0 bytes.length)) := by
  have hstore := Block.storeList_eq bytes h
  cases bytes with
  | nil => exact congrArg (Except.map InBody.alive) hstore
  | cons v vs => simp only [store, hstore, Except.map]

/-- A packet with the next chunk in its body is kept, or handed out. -/
theorem ChunkReader.received_spec {r : ChunkReader} {packet : InPacket} (hp : packet.Filling)
    (hr : r.SoundBut packet.mNChannel)
    (hc : 0 ≤ packet.mNChannel ∧ packet.mNChannel < rtmpChannels) (input : List UInt8) :
    ∃ r' packet', r.received packet input = .done r' packet' input ∧ r'.Sound ∧
      packet'.Settled := by
  unfold received
  by_cases hready : packet.isReady
  · simp only [hready, ite_true]
    refine ⟨_, _, rfl, ?_, ?_⟩
    · have hstored : InPacket.Sound { packet with
          mBody := .null, mNBytesRead := 0, mHasAbsTimestamp := false } := fun _ => rfl
      exact SoundBut.keep hr hstored hc
    · refine ⟨fun hsize => hready.trans hsize, fun _ => ?_, fun h => absurd hready h⟩
      rcases hb : packet.mBody with _ | b | _ <;> simp only [InPacket.Filling, hb] at hp
      · simp only [ChunkReader.handOut, InPacket.content, hb, InBody.bytes, List.length_nil, hp.1]
      · simp only [ChunkReader.handOut, InPacket.content, hb, InBody.bytes, Block.length_slice]
  · simp only [hready, ite_false]
    rcases hb : packet.mBody with _ | b | _ <;> simp only [InPacket.Filling, hb] at hp
    · exact absurd (hp.2.trans hp.1.symm) hready
    · have hlt : packet.mNBytesRead < packet.mNBodySize := lt_of_le_of_ne hp.2 hready
      refine ⟨_, _, rfl, hr.keep ?_ hc, ?_⟩
      · simp only [InPacket.Sound, hb]
        exact ⟨hp.1, hlt⟩
      · refine ⟨fun hsize => ?_, fun h => absurd h hready, fun _ => rfl⟩
        simp only at hsize
        omega

/-- What is missing can be stored. -/
theorem InPacket.Filling.store {p : InPacket} (hp : p.Filling) {n : Nat} {bytes : List UInt8}
    (hn : p.mNBytesRead + n ≤ p.mNBodySize) (hbytes : bytes.length ≤ n) :
    ∃ mBody, p.mBody.store p.mNBytesRead bytes = .ok mBody ∧
      ({ p with mNBytesRead := p.mNBytesRead + n, mBody := mBody } : InPacket).Filling := by
  rcases hb : p.mBody with _ | b | _ <;> simp only [InPacket.Filling, hb] at hp
  · have hnil : bytes = [] := List.length_eq_zero_iff.mp (by omega)
    subst hnil
    refine ⟨.null, rfl, hp.1, ?_⟩
    simp only
    omega
  · exact ⟨_, InBody.store_alive (by omega), hp.1, hn⟩

/-- Reading a chunk fails or leads to sound packets. -/
theorem ChunkReader.readChunk_spec {r : ChunkReader} {packet : InPacket}
    (hr : r.SoundBut packet.mNChannel)
    (hc : 0 ≤ packet.mNChannel ∧ packet.mNChannel < rtmpChannels) (hp : packet.Sound)
    (headerType : UInt8) (input : List UInt8) :
    r.readChunk headerType packet input = .ok (.failed r) ∨
    ∃ r' packet' input', r.readChunk headerType packet input = .ok (.done r' packet' input') ∧
      r'.Sound ∧ packet'.Settled ∧ input'.length ≤ input.length := by
  have hfilling := hp.filling_allocate headerType
  have hchannel := InPacket.mNChannel_allocate headerType packet
  unfold readChunk
  generalize packet.allocate headerType = packet' at hfilling hchannel
  rw [← hchannel] at hr hc
  simp only
  generalize hnChunk : r.nChunk packet' = nChunk
  by_cases hneg : nChunk < 0
  · simp only [hneg, ite_true]
    exact .inl rfl
  · have hroom : packet'.mNBytesRead + nChunk.toNat ≤ packet'.mNBodySize := by
      simp only [ChunkReader.nChunk] at hnChunk
      split at hnChunk <;> omega
    obtain ⟨mBody, hstore, hstored⟩ :=
      hfilling.store hroom (List.length_take_le nChunk.toNat input)
    simp only [hneg, ite_false, hstore, bind, Except.bind]
    split
    · exact .inl rfl
    · obtain ⟨r', packet'', hreceived, hsound, hsettled⟩ :=
        received_spec hstored hr hc (input.drop nChunk.toNat)
      exact .inr ⟨r', packet'', _, congrArg Except.ok hreceived, hsound, hsettled, by
        rw [List.length_drop]
        exact Nat.sub_le _ _⟩

/-- Decoding a header keeps a packet sound. -/
theorem InPacket.Sound.decode {p : InPacket} (h : p.Sound) (header : List UInt8) :
    (p.decode header).Sound := by
  unfold InPacket.decode
  simp only
  split
  · exact h
  · split
    · exact h
    · split
      · exact fun _ => rfl
      · split <;> exact fun _ => rfl

@[simp] theorem InPacket.mNChannel_decode (p : InPacket) (header : List UInt8) :
    (p.decode header).mNChannel = p.mNChannel := by
  unfold InPacket.decode
  simp only
  split <;> [skip; split <;> [skip; split <;> [skip; split]]] <;> rfl

/-- So does taking what the channel had last. -/
theorem ChunkReader.Sound.known {r : ChunkReader} (hr : r.Sound) {packet : InPacket}
    (hp : packet.Sound) (headerType : UInt8) (mNChannel : Int) :
    (r.known headerType mNChannel packet).Sound ∧
      (r.known headerType mNChannel packet).mNChannel = mNChannel := by
  unfold ChunkReader.known
  simp only
  split
  · exact ⟨hp, rfl⟩
  · rcases h : r.mVecChannelsIn mNChannel with _ | stored
    · exact ⟨hp, rfl⟩
    · exact ⟨(hr _ _ h).1, (hr _ _ h).2.1⟩

theorem packetSize_eq_eight (headerType : UInt8) : packetSize headerType = 8 ↔ headerType = 1 := by
  rw [← UInt8.toNat_inj]
  unfold packetSize
  match headerType.toNat with
  | 0 | 1 | 2 | 3 => decide
  | n + 4 => simp

/-- A connection with sound packets closes. -/
theorem ChunkReader.Sound.rtmpClose {r : ChunkReader} (hr : r.Sound) :
    rtmpClose r = .ok { r with mVecChannelsIn := fun _ => none } := by
  have hnone : ¬ ∃ i : Fin rtmpChannels.toNat, r.dangling i := by
    rintro ⟨i, hi⟩
    unfold dangling at hi
    split at hi
    · rename_i h
      exact (hr _ _ h).1
    · cases hi
  rw [Jrtplib4Android.rtmpClose, if_neg hnone]

/-- A connection with a body that is freed frees it again. -/
theorem rtmpClose_of_dangling {r : ChunkReader} {mNChannel : Int}
    (hc : 0 ≤ mNChannel ∧ mNChannel < rtmpChannels) (h : r.dangling mNChannel) :
    rtmpClose r = .error .write := by
  rw [rtmpClose, if_pos]
  refine ⟨⟨mNChannel.toNat, by omega⟩, ?_⟩
  rwa [show ((mNChannel.toNat : Nat) : Int) = mNChannel by omega]

/-- The connection behind the free of a packet's body: either nothing has been freed, or the
channel of the packet points to what has been freed. -/
theorem ChunkReader.Sound.release {r : ChunkReader} (hr : r.Sound) (headerType : UInt8)
    (mNChannel : Int) :
    ∃ r', r.release headerType mNChannel = .ok r' ∧ r'.SoundBut mNChannel ∧
      ((∃ packet b, headerType = 1 ∧ r.mVecChannelsIn mNChannel = some packet ∧
          packet.mBody = .alive b) ∧ r'.dangling mNChannel ∨
        (¬ ∃ packet b, headerType = 1 ∧ r.mVecChannelsIn mNChannel = some packet ∧
          packet.mBody = .alive b) ∧ r' = r) := by
  unfold ChunkReader.release
  rcases hstored : r.mVecChannelsIn mNChannel with _ | stored
  · exact ⟨r, rfl, hr.but mNChannel, .inr ⟨fun ⟨_, _, _, h, _⟩ => (nomatch h), rfl⟩⟩
  · simp only [packetSize_eq_eight]
    by_cases htype : headerType = 1
    · rw [if_pos htype]
      rcases hb : stored.mBody with _ | b | _
      · refine ⟨r, rfl, hr.but mNChannel, .inr ⟨?_, rfl⟩⟩
        rintro ⟨packet, b, -, h, hbody⟩
        cases h
        rw [hb] at hbody
        cases hbody
      · refine ⟨_, rfl, ?_, .inl ⟨⟨stored, b, htype, rfl, hb⟩, ?_⟩⟩
        · intro c p hc h
          simp only [Function.update_of_ne hc] at h
          exact hr c p h
        · simp only [dangling, Function.update_self]
      · have h := (hr _ _ hstored).1
        simp only [InPacket.Sound, hb] at h
    · simp only [htype, ite_false]
      exact ⟨r, rfl, hr.but mNChannel, .inr ⟨fun ⟨_, _, h, _⟩ => h, rfl⟩⟩

/-- A header with a size for a channel whose packet is unfinished. -/
def ChunkReader.Supersedes (r : ChunkReader) (input : List UInt8) : Prop :=
  ∃ mNChannel rest packet b, readChannel input = some (1, mNChannel, rest) ∧ 7 ≤ rest.length ∧
    r.mVecChannelsIn mNChannel = some packet ∧ packet.mBody = .alive b

/-- Closing behind a call that failed: the body is freed twice if the header was one that
frees the body of an unfinished packet. -/
def ChunkReader.Closes (r : ChunkReader) (input : List UInt8) (closing : ChunkReader) : Prop :=
  r.Supersedes input ∧ rtmpClose closing = .error .write ∨
    ¬ r.Supersedes input ∧ ∃ r', rtmpClose closing = .ok r'

/-- `RTMP_ReadPacket` stays inside the bodies, whatever the input is. -/
theorem rtmpReadPacket_spec {r : ChunkReader} (hr : r.Sound) {packet : InPacket}
    (hp : packet.Sound) (input : List UInt8) :
    (∃ closing, rtmpReadPacket r packet input = .ok (.failed closing) ∧ r.Closes input closing) ∨
    ∃ r' packet' input', rtmpReadPacket r packet input = .ok (.done r' packet' input') ∧
      r'.Sound ∧ packet'.Settled ∧ input'.length < input.length := by
  unfold rtmpReadPacket
  rcases hchannel : readChannel input with _ | ⟨headerType, mNChannel, rest⟩
  · refine .inl ⟨r, rfl, .inr ⟨?_, _, hr.rtmpClose⟩⟩
    rintro ⟨_, _, _, _, h, -⟩
    rw [hchannel] at h
    cases h
  · have hc := readChannel_channel hchannel
    have hlength := length_readChannel hchannel
    obtain ⟨hknown, hknownChannel⟩ := hr.known hp headerType mNChannel
    simp only
    rcases hheader : readN (packetSize headerType - 1) rest with _ | ⟨header, body⟩
    · refine .inl ⟨r, rfl, .inr ⟨?_, _, hr.rtmpClose⟩⟩
      rintro ⟨_, _, _, _, h, hlong, -⟩
      rw [hchannel] at h
      cases h
      have hfits : packetSize 1 - 1 ≤ rest.length := hlong
      rw [readN, if_pos hfits] at hheader
      cases hheader
    · obtain ⟨hsize, hrest⟩ := readN_eq_some hheader
      obtain ⟨r', hrelease, hsound, hclose⟩ := hr.release headerType mNChannel
      have hcloses : r.Closes input r' := by
        rcases hclose with ⟨⟨stored, b, htype, hstored, hb⟩, hdangling⟩ | ⟨hnot, rfl⟩
        · subst htype
          refine .inl ⟨⟨mNChannel, rest, stored, b, hchannel, ?_, hstored, hb⟩,
            rtmpClose_of_dangling hc hdangling⟩
          rw [hrest, List.length_append, hsize]
          exact Nat.le_add_right 7 _
        · refine .inr ⟨?_, _, hr.rtmpClose⟩
          rintro ⟨_, _, stored, b, h, -, hstored, hb⟩
          rw [hchannel] at h
          cases h
          exact hnot ⟨stored, b, rfl, hstored, hb⟩
      have hread : ∀ (packet' : InPacket) (input' : List UInt8), packet'.Sound →
          packet'.mNChannel = mNChannel → input'.length ≤ body.length →
          (∃ closing, r'.readChunk headerType packet' input' = .ok (.failed closing) ∧
            r.Closes input closing) ∨
          ∃ r'' packet'' input'', r'.readChunk headerType packet' input' =
            .ok (.done r'' packet'' input'') ∧ r''.Sound ∧ packet''.Settled ∧
            input''.length < input.length := by
        rintro packet' input' hpacket rfl hle
        rcases r'.readChunk_spec hsound hc hpacket headerType input' with
          h | ⟨r'', packet'', input'', h, hr'', hpacket'', hle'⟩
        · exact .inl ⟨r', h, hcloses⟩
        · refine .inr ⟨r'', packet'', input'', h, hr'', hpacket'', ?_⟩
          rw [hrest, List.length_append] at hlength
          omega
      simp only [hrelease, bind, Except.bind]
      split
      · rcases hextended : readN 4 body with _ | ⟨extended, body'⟩
        · exact .inl ⟨r', rfl, hcloses⟩
        · refine hread _ _ (hknown.decode header)
            ((InPacket.mNChannel_decode _ _).trans hknownChannel) ?_
          rw [(readN_eq_some hextended).2, List.length_append]
          exact Nat.le_add_left _ _
      · exact hread _ _ (hknown.decode header)
          ((InPacket.mNChannel_decode _ _).trans hknownChannel) (le_refl _)

/-- The chunk size says nothing of the bodies. -/
theorem ChunkReader.Sound.handleChangeChunkSize {r : ChunkReader} (hr : r.Sound)
    (packet : InPacket) : (r.handleChangeChunkSize packet).Sound := by
  intro c p h
  refine hr c p ?_
  rw [← h]
  unfold ChunkReader.handleChangeChunkSize
  split <;> rfl

/-- A run over sound packets: every call takes at least a byte, and the last one fails. -/
theorem rtmpReadPackets_spec {fuel : Nat} {r : ChunkReader} (hr : r.Sound) {packet : InPacket}
    (hp : packet.Sound) {input : List UInt8} (hfuel : input.length < fuel) :
    ∃ run, rtmpReadPackets fuel r packet input = .ok run ∧
      (∀ c ∈ run.packets, c.body.length = c.bodySize) ∧
      run.reader.Closes run.input run.closing := by
  induction fuel generalizing r packet input with
  | zero => omega
  | succ fuel ih =>
    rcases rtmpReadPacket_spec hr hp input with
      ⟨closing, hread, hcloses⟩ | ⟨r', packet', input', hread, hr', hpacket', hlt⟩
    · refine ⟨⟨[], r, packet, input, closing⟩, ?_, fun _ h => (nomatch h), hcloses⟩
      simp only [rtmpReadPackets, hread, bind, Except.bind, pure, Except.pure]
    · simp only [rtmpReadPackets, hread, bind, Except.bind]
      by_cases hready : packet'.isReady
      · obtain ⟨run, hrun, hpackets, hcloses⟩ :=
          ih (hr'.handleChangeChunkSize packet') hpacket'.next (show input'.length < fuel by omega)
        refine ⟨{ run with packets := packet'.content :: run.packets }, ?_, ?_, hcloses⟩
        · simp only [hready, ite_true, hrun, pure, Except.pure]
        · exact List.forall_mem_cons.mpr ⟨hpacket'.complete hready, hpackets⟩
      · have hsound : packet'.Sound := by
          have hnext := hpacket'.next
          rwa [← hpacket'.started hready] at hnext
        simp only [hready, ite_false]
        exact ih hr' hsound (by omega)

/-- Chunks of one byte: a packet of two is superseded behind its first, and the connection
ends. -/
example : (rtmpReadPackets 4 .init .zero ([2, 0, 0, 0, 0, 0, 4, 1, 0, 0, 0, 0, 0, 0, 0, 1] ++
    [3, 0, 0, 0, 0, 0, 2, 8, 0, 0, 0, 0, 0xaa] ++ [0x43, 0, 0, 0, 0, 0, 2, 8])).map
    (fun run => run.closing.dangling 3) = .ok true := rfl

end Jrtplib4Android
