import Jrtplib4Android.Ps.Refinement

/-!
# Reassembly of program stream packs

`CRTPReceiver::processRtpPacket` collects payloads in `psBuf` until one starts a
new pack, and demuxes the pack before it. The buffers are file-level globals, so
every receiver object works on the same ones. `absorb` is the same step on the
list of pending bytes; `processRtpPacket_absorb` connects the two.
-/

namespace Jrtplib4Android

open CSem

/-- `rtpHeadLen`, that is `sizeof(RTP_header_t)`. -/
def rtpHeadLen : Nat := 12

/-- A received packet, at most as long as the transmitter's `RTPUDPV4TRANS_MAXPACKSIZE`. -/
structure RTPPacket where
  packet : List UInt8
  seqnr : UInt16
  hasmarker : Bool
  length_le : packet.length ≤ 65535

/-- The bytes behind the RTP header. -/
def RTPPacket.payload (p : RTPPacket) : List UInt8 := p.packet.drop rtpHeadLen

/-- The members of `CRTPReceiver` that packet processing uses, all for log lines. -/
structure CRTPReceiver where
  mCount : UInt16
  mFirstSeq : Bool
  mLastSeq : UInt16

/-- The file-level variables that live across packets. -/
structure PsGlobals where
  psBuf : Block
  psLen : Nat
  h264buf : Block
  h264length : Int

/-- One call of `callbackRtp`. -/
structure Frame where
  data : List UInt8
  isMarker : Bool
  deriving DecidableEq

/-- The branch a call of `processRtpPacket` takes. -/
inductive Effect where
  /-- The packet has no payload. -/
  | skipped
  /-- The payload does not fit: everything pending is dropped, and the payload too. -/
  | overflow
  /-- The payload joins the pending bytes. -/
  | stored
  /-- The payload starts a pack: the pending one is demuxed. -/
  | flushed (frame : Option Frame)
  deriving DecidableEq

/-- The frame a call delivers, if any. -/
def Effect.frame : Effect → Option Frame
  | .flushed frame => frame
  | _ => none

/-- The sequence number bookkeeping. -/
def CRTPReceiver.count (r : CRTPReceiver) (seq : UInt16) : CRTPReceiver where
  mCount := if (r.mCount + 1) % 1000 = 0 then 0 else r.mCount + 1
  mFirstSeq := false
  mLastSeq := seq

/-- `processRtpPacket`. -/
def processRtpPacket (r : CRTPReceiver) (g : PsGlobals) (packet : RTPPacket) :
    Except Fault (CRTPReceiver × PsGlobals × Effect) := do
  let r := r.count packet.seqnr
  let recvLen := packet.packet.length % 2 ^ 16
  if recvLen ≤ rtpHeadLen then return (r, g, .skipped)
  let ptr := g.psLen
  let rtpPsLen := recvLen - rtpHeadLen
  if ¬ g.psLen + rtpPsLen < psBufSize then return (r, { g with psLen := 0 }, .overflow)
  let psBuf ← memcpy g.psBuf ptr (.ofList packet.packet) (some rtpHeadLen) rtpPsLen
  let isStart ← psBuf.startsWith ptr [0, 0, 1, 0xba]
  if isStart && 0 < g.psLen then
    let (h264length, h264buf) ← getH246FromPs psBuf g.psLen g.h264buf
    let frame :=
      if 0 < h264length then some ⟨h264buf.slice 0 h264length.toNat, packet.hasmarker⟩ else none
    let psBuf ← memcpy psBuf 0 psBuf (some ptr) rtpPsLen
    return (r, ⟨psBuf, 0 + rtpPsLen, h264buf, h264length⟩, .flushed frame)
  return (r, { g with psBuf := psBuf, psLen := g.psLen + rtpPsLen }, .stored)

/-- The payload is what stands behind the header in the raw packet. -/
theorem RTPPacket.slice_packet (p : RTPPacket) :
    (Block.ofList p.packet).slice rtpHeadLen p.payload.length = p.payload := by
  have hlen : p.payload.length = p.packet.length - rtpHeadLen := List.length_drop
  rcases Nat.le_total rtpHeadLen p.packet.length with h | h
  · rw [Block.slice_ofList_eq (by omega), ← RTPPacket.payload, List.take_length]
  · have hnil : p.payload = [] := List.drop_eq_nil_of_le h
    rw [hnil, List.length_nil, Block.slice_zero]

/-- `psBuf` with the payload behind the pending bytes. -/
def PsGlobals.appended (g : PsGlobals) (packet : RTPPacket) : Block :=
  g.psBuf.copy g.psLen (.ofList packet.packet) rtpHeadLen packet.payload.length

namespace PsGlobals

variable {g : PsGlobals} {packet : RTPPacket}

/-- The pending bytes with the payload behind them. -/
theorem slice_appended_all (packet : RTPPacket) :
    (g.appended packet).slice 0 (g.psLen + packet.payload.length) =
      g.psBuf.slice 0 g.psLen ++ packet.payload := by
  rw [appended, Block.slice_copy_append, packet.slice_packet]

theorem slice_appended_payload (packet : RTPPacket) :
    (g.appended packet).slice g.psLen packet.payload.length = packet.payload := by
  rw [appended, Block.slice_copy_self, packet.slice_packet]

/-- The payload at the front of the buffer. -/
theorem slice_moved (packet : RTPPacket) :
    ((g.appended packet).copy 0 (g.appended packet) g.psLen packet.payload.length).slice 0
      packet.payload.length = packet.payload := by
  rw [Block.slice_copy_self, slice_appended_payload]

/-- A payload that fits is appended. -/
theorem memcpy_appended (hsize : g.psBuf.size = psBufSize) (hempty : packet.payload ≠ [])
    (hfit : g.psLen + packet.payload.length < psBufSize) :
    memcpy g.psBuf g.psLen (.ofList packet.packet) (some rtpHeadLen) packet.payload.length =
      .ok (g.appended packet) := by
  have hlen : packet.payload.length = packet.packet.length - rtpHeadLen := List.length_drop
  have hpos := List.length_pos_iff.mpr hempty
  exact Block.memcpy_eq g.psBuf g.psLen (.ofList packet.packet) rtpHeadLen
    (by rw [Block.size_ofList]; omega) (by rw [hsize]; omega)

/-- It is moved to the front from there. -/
theorem memcpy_moved (hsize : g.psBuf.size = psBufSize)
    (hfit : g.psLen + packet.payload.length < psBufSize) :
    memcpy (g.appended packet) 0 (g.appended packet) (some g.psLen) packet.payload.length =
      .ok ((g.appended packet).copy 0 (g.appended packet) g.psLen packet.payload.length) := by
  have happended : (g.appended packet).size = psBufSize := hsize
  exact Block.memcpy_eq (g.appended packet) 0 (g.appended packet) g.psLen (by omega) (by omega)

end PsGlobals

/-- `processRtpPacket` with its copies done. -/
theorem processRtpPacket_eq (r : CRTPReceiver) {g : PsGlobals} (hsize : g.psBuf.size = psBufSize)
    (packet : RTPPacket) :
    processRtpPacket r g packet =
      if packet.payload = [] then .ok (r.count packet.seqnr, g, .skipped)
      else if ¬ g.psLen + packet.payload.length < psBufSize then
        .ok (r.count packet.seqnr, { g with psLen := 0 }, .overflow)
      else do
        let isStart ← (g.appended packet).startsWith g.psLen [0, 0, 1, 0xba]
        if isStart && 0 < g.psLen then
          let (length, frame) ← getH246FromPs (g.appended packet) g.psLen g.h264buf
          return (r.count packet.seqnr,
            ⟨(g.appended packet).copy 0 (g.appended packet) g.psLen packet.payload.length,
              packet.payload.length, frame, length⟩,
            .flushed (if 0 < length then some ⟨frame.slice 0 length.toNat, packet.hasmarker⟩
              else none))
        return (r.count packet.seqnr,
          { g with psBuf := g.appended packet, psLen := g.psLen + packet.payload.length },
          .stored) := by
  have hlen : packet.payload.length = packet.packet.length - rtpHeadLen := List.length_drop
  have hmod : packet.packet.length % 2 ^ 16 = packet.packet.length :=
    Nat.mod_eq_of_lt (Nat.lt_succ_of_le packet.length_le)
  unfold processRtpPacket
  simp only [hmod, ← hlen]
  by_cases hempty : packet.payload = []
  · rw [if_pos hempty, if_pos (List.drop_eq_nil_iff.mp hempty)]
    rfl
  have hpos := List.length_pos_iff.mpr hempty
  rw [if_neg hempty, if_neg (by omega : ¬ packet.packet.length ≤ rtpHeadLen)]
  by_cases hfit : g.psLen + packet.payload.length < psBufSize
  swap
  · rw [if_pos hfit, if_pos hfit]
    rfl
  rw [if_neg (not_not.mpr hfit), if_neg (not_not.mpr hfit)]
  have hcopy := PsGlobals.memcpy_appended hsize hempty hfit
  have hmove := PsGlobals.memcpy_moved hsize hfit
  simp only [hcopy, bind, Except.bind]
  cases (g.appended packet).startsWith g.psLen [0, 0, 1, 0xba] with
  | error fault => rfl
  | ok isStart =>
    simp only
    split
    · cases getH246FromPs (g.appended packet) g.psLen g.h264buf with
      | error fault => rfl
      | ok result => simp only [hmove, Nat.zero_add]
    · rfl

/-- The callback for a demuxed pack, which is not called for an empty frame. -/
def frameOf (data : List UInt8) (marker : Bool) : Option Frame :=
  if data = [] then none else some ⟨data, marker⟩

/-- A payload that starts a pack. -/
def RTPPacket.StartsPack (p : RTPPacket) : Prop := [0, 0, 1, 0xba] <+: p.payload

instance (p : RTPPacket) : Decidable p.StartsPack := inferInstanceAs (Decidable (_ <+: _))

/-- One packet on the pending bytes; `none` when the pack to flush cannot be demuxed. -/
def absorb (pending : List UInt8) (p : RTPPacket) : Option (List UInt8 × Effect) :=
  if p.payload = [] then some (pending, .skipped)
  else if ¬ pending.length + p.payload.length < psBufSize then some ([], .overflow)
  else if p.StartsPack ∧ pending ≠ [] then
    (demux pending).map fun data => (p.payload, .flushed (frameOf data p.hasmarker))
  else some (pending ++ p.payload, .stored)

/-- The globals hold `pending`. -/
structure Holds (g : PsGlobals) (pending : List UInt8) : Prop where
  size : g.psBuf.size = psBufSize
  length : g.psLen = pending.length
  bytes : g.psBuf.slice 0 pending.length = pending
  room : pending.length < psBufSize
  h264 : g.h264buf.size = h264FrameSizeMax

/-- A payload that tells by itself whether it starts a pack: it has four bytes, or it is not
the beginning of the start code. -/
def RTPPacket.Checkable (p : RTPPacket) : Prop :=
  4 ≤ p.payload.length ∨ ¬ p.payload <+: [0, 0, 1, 0xba]

/-- The start code check finds what such a payload tells. -/
theorem startsWith_payload {psBuf : Block} {i : Nat} {p : RTPPacket} (hp : p.Checkable)
    (hself : psBuf.slice i p.payload.length = p.payload)
    (hroom : i + p.payload.length ≤ psBuf.size) :
    psBuf.startsWith i [0, 0, 1, 0xba] = .ok (decide p.StartsPack) := by
  have hfour : ([0, 0, 1, 0xba] : List UInt8).length = 4 := rfl
  by_cases h4 : 4 ≤ p.payload.length
  · have htake : psBuf.slice i 4 = p.payload.take 4 := by
      rw [← Block.take_slice _ _ _ _ h4, hself]
    rw [Block.startsWith_eq (by omega), hfour, htake]
    simp only [RTPPacket.StartsPack, List.prefix_iff_eq_take, List.length_cons, List.length_nil,
      eq_comm]
  · have hstart : ¬ p.StartsPack := fun h => h4 h.length_le
    rw [decide_eq_false hstart]
    refine Block.startsWith_of_not_prefix hroom (by omega) ?_
    rw [hself]
    exact hp.resolve_left h4

private theorem ite_length_pos (data : List UInt8) (marker : Bool) :
    (if 0 < (data.length : Int) then some (Frame.mk data marker) else none) =
      frameOf data marker := by
  cases data with
  | nil => rfl
  | cons b bs => rw [if_pos (by rw [List.length_cons]; omega), frameOf, if_neg (by simp)]

/-- A payload for which there is room behind pending bytes tells by itself whether it starts a
pack. -/
def JoinsPlainly (pending : List UInt8) (p : RTPPacket) : Prop :=
  pending.length + p.payload.length < psBufSize → pending ≠ [] → p.payload = [] ∨ p.Checkable

/-- `processRtpPacket` does to the globals what `absorb` does to the pending bytes. -/
theorem processRtpPacket_absorb (r : CRTPReceiver) {g : PsGlobals}
    {pending pending' : List UInt8} {p : RTPPacket} {effect : Effect} (hg : Holds g pending)
    (hp : JoinsPlainly pending p) (habsorb : absorb pending p = some (pending', effect)) :
    ∃ r' g', processRtpPacket r g p = .ok (r', g', effect) ∧ Holds g' pending' := by
  obtain ⟨hsize, hlength, hbytes, hroom, hh264⟩ := hg
  unfold absorb at habsorb
  rw [processRtpPacket_eq r hsize p]
  simp only [hlength]
  by_cases hempty : p.payload = []
  · rw [if_pos hempty] at habsorb ⊢
    cases habsorb
    exact ⟨_, _, rfl, hsize, hlength, hbytes, hroom, hh264⟩
  rw [if_neg hempty] at habsorb ⊢
  by_cases hfit : pending.length + p.payload.length < psBufSize
  swap
  · rw [if_pos hfit] at habsorb ⊢
    cases habsorb
    exact ⟨_, _, rfl, hsize, rfl, rfl, by decide, hh264⟩
  rw [if_neg (not_not.mpr hfit)] at habsorb ⊢
  have happended : (g.appended p).size = psBufSize := hsize
  have hself : (g.appended p).slice pending.length p.payload.length = p.payload := by
    rw [← hlength, PsGlobals.slice_appended_payload]
  have hall : (g.appended p).slice 0 (pending.length + p.payload.length) =
      pending ++ p.payload := by
    rw [← hlength, PsGlobals.slice_appended_all, hlength, hbytes]
  have hstart : ∃ isStart, (g.appended p).startsWith pending.length [0, 0, 1, 0xba] = .ok isStart ∧
      (isStart && decide (0 < pending.length)) = decide (p.StartsPack ∧ pending ≠ []) := by
    by_cases hpending : pending = []
    · subst hpending
      rw [List.length_nil, Block.startsWith_eq (by rw [happended]; decide)]
      exact ⟨_, rfl, by simp⟩
    · rw [startsWith_payload ((hp hfit hpending).resolve_left hempty) hself (by omega)]
      refine ⟨_, rfl, ?_⟩
      rw [decide_eq_true (List.length_pos_iff.mpr hpending), Bool.and_true]
      exact decide_eq_decide.mpr (and_iff_left hpending).symm
  obtain ⟨isStart, hstart, hcond⟩ := hstart
  rw [hstart]
  simp only [bind, Except.bind, hcond]
  by_cases hflush : p.StartsPack ∧ pending ≠ []
  · rw [if_pos hflush, Option.map_eq_some_iff] at habsorb
    obtain ⟨data, hdata, heq⟩ := habsorb
    cases heq
    have hpending : (g.appended p).slice 0 pending.length = pending := by
      rw [← Block.take_slice _ _ _ _ (Nat.le_add_right _ p.payload.length), hall, List.take_left]
    obtain ⟨out, hok, hout, hslice, -⟩ := (getH246FromPs_eq hpending (by omega)
      (Nat.lt_trans hroom (by decide)) hh264).1 data hdata
    simp only [decide_eq_true hflush, ite_true, hok, Int.toNat_natCast, hslice, ite_length_pos]
    refine ⟨_, _, rfl, happended, rfl, ?_, ?_, hout⟩
    · rw [← hlength, PsGlobals.slice_moved]
    · omega
  · rw [if_neg hflush] at habsorb
    cases habsorb
    simp only [decide_eq_false hflush, Bool.false_eq_true, ite_false]
    refine ⟨_, _, rfl, happended, ?_, ?_, ?_, hh264⟩
    · rw [List.length_append]
    · rw [List.length_append, hall]
    · rw [List.length_append]
      exact hfit

end Jrtplib4Android
