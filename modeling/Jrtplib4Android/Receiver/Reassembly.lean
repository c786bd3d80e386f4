import Mathlib.Data.List.Chain
import Jrtplib4Android.Ps.Grammar
import Jrtplib4Android.Receiver.Process

/-!
# Whole lossless runs

A sender cuts its packs into packets; only the first packet of a pack begins
with the pack start code. Over any number of packs the pending bytes are the
part of the current pack that has arrived, so each pack is delivered by the first
packet of the next one, and the last pack stays pending.
-/

namespace Jrtplib4Android

open CSem

/-- The packets of a run in order: the frames delivered. -/
def processRtpPackets (r : CRTPReceiver) (g : PsGlobals) :
    List RTPPacket → Except Fault (CRTPReceiver × PsGlobals × List Frame)
  | [] => .ok (r, g, [])
  | p :: ps => do
    let (r, g, effect) ← processRtpPacket r g p
    let (r, g, frames) ← processRtpPackets r g ps
    return (r, g, effect.frame.toList ++ frames)

/-- The same on pending bytes. -/
def absorbAll (pending : List UInt8) : List RTPPacket → Option (List UInt8 × List Frame)
  | [] => some (pending, [])
  | p :: ps => do
    let (pending, effect) ← absorb pending p
    let (pending, frames) ← absorbAll pending ps
    return (pending, effect.frame.toList ++ frames)

/-- A run of packets does to the globals what it does to the pending bytes. -/
theorem processRtpPackets_absorbAll (r : CRTPReceiver) {g : PsGlobals}
    {pending pending' : List UInt8} {ps : List RTPPacket} {frames : List Frame}
    (hg : Holds g pending) (hps : ∀ p ∈ ps, p.Checkable)
    (habsorb : absorbAll pending ps = some (pending', frames)) :
    ∃ r' g', processRtpPackets r g ps = .ok (r', g', frames) ∧ Holds g' pending' := by
  induction ps generalizing r g pending frames with
  | nil =>
    cases habsorb
    exact ⟨r, g, rfl, hg⟩
  | cons p ps ih =>
    obtain ⟨hp, hps⟩ := List.forall_mem_cons.mp hps
    simp only [absorbAll, Option.bind_eq_bind, Option.bind_eq_some_iff] at habsorb
    obtain ⟨⟨mid, effect⟩, hstep, ⟨last, later⟩, hrest, heq⟩ := habsorb
    cases heq
    obtain ⟨r₁, g₁, hok₁, hg₁⟩ := processRtpPacket_absorb r hg (fun _ _ => Or.inr hp) hstep
    obtain ⟨r₂, g₂, hok₂, hg₂⟩ := ih r₁ hg₁ hps hrest
    exact ⟨r₂, g₂, by simp only [processRtpPackets, hok₁, hok₂, bind, Except.bind]; rfl, hg₂⟩

/-- Two runs one after the other. -/
theorem absorbAll_append {pending mid last : List UInt8} {ps qs : List RTPPacket}
    {frames later : List Frame} (hps : absorbAll pending ps = some (mid, frames))
    (hqs : absorbAll mid qs = some (last, later)) :
    absorbAll pending (ps ++ qs) = some (last, frames ++ later) := by
  induction ps generalizing pending frames with
  | nil =>
    cases hps
    exact hqs
  | cons p ps ih =>
    simp only [absorbAll, Option.bind_eq_bind, Option.bind_eq_some_iff] at hps
    obtain ⟨⟨next, effect⟩, hstep, ⟨mid', frames'⟩, hrest, heq⟩ := hps
    cases heq
    simp only [List.cons_append, absorbAll, hstep, ih hrest, Option.bind_eq_bind,
      Option.bind_some, List.append_assoc]
    rfl

/-- A pack and the packets it is cut into. -/
structure SentPack where
  header : PackHeader
  units : List PsUnit
  first : RTPPacket
  rest : List RTPPacket
  joined : (first :: rest).flatMap RTPPacket.payload = muxed header units
  four_le : ∀ p ∈ first :: rest, 4 ≤ p.payload.length
  rest_start : ∀ p ∈ rest, ¬ p.StartsPack
  total_lt : (units.flatMap PsUnit.payload).length < h264FrameSizeMax

namespace SentPack

def packets (P : SentPack) : List RTPPacket := P.first :: P.rest

def bytes (P : SentPack) : List UInt8 := muxed P.header P.units

/-- The concatenated video payloads. -/
def video (P : SentPack) : List UInt8 := P.units.flatMap PsUnit.payload

theorem demux_bytes (P : SentPack) : demux P.bytes = some P.video := by
  rw [bytes, demux_muxed, storePayloads_of_fits (by simpa using P.total_lt), List.nil_append, video]

theorem first_starts (P : SentPack) : P.first.StartsPack := by
  have hpre : P.first.payload <+: muxed P.header P.units := by
    rw [← P.joined, List.flatMap_cons]
    exact List.prefix_append _ _
  have hcode : [0, 0, 1, 0xba] <+: muxed P.header P.units := by
    simp only [muxed, PackHeader.bytes, List.append_assoc]
    exact List.prefix_append _ _
  exact List.prefix_of_prefix_length_le hcode hpre (P.four_le _ (List.mem_cons_self ..))

theorem bytes_ne_nil (P : SentPack) : P.bytes ≠ [] := by
  simp [bytes, muxed, PackHeader.bytes]

theorem checkable (P : SentPack) : ∀ p ∈ P.packets, p.Checkable :=
  fun p hp => Or.inl (P.four_le p hp)

end SentPack

/-- Every pack fits the buffer, also together with the packet that follows it. -/
structure FitsPsBuf (packs : List SentPack) : Prop where
  each : ∀ P ∈ packs, P.bytes.length < psBufSize
  following : packs.IsChain fun P Q => P.bytes.length + Q.first.payload.length < psBufSize

/-- Packets inside a pack join the pending bytes. -/
theorem absorbAll_inside {pending : List UInt8} {ps : List RTPPacket}
    (h4 : ∀ p ∈ ps, 4 ≤ p.payload.length) (hstart : ∀ p ∈ ps, ¬ p.StartsPack)
    (hfit : pending.length + (ps.flatMap RTPPacket.payload).length < psBufSize) :
    absorbAll pending ps = some (pending ++ ps.flatMap RTPPacket.payload, []) := by
  induction ps generalizing pending with
  | nil => simp [absorbAll]
  | cons p ps ih =>
    obtain ⟨h4p, h4⟩ := List.forall_mem_cons.mp h4
    obtain ⟨hp, hstart⟩ := List.forall_mem_cons.mp hstart
    rw [List.flatMap_cons, List.length_append] at hfit
    have hne : p.payload ≠ [] := List.length_pos_iff.mp (by omega)
    have hstep : absorb pending p = some (pending ++ p.payload, .stored) := by
      rw [absorb, if_neg hne, if_neg (by omega), if_neg (fun h => hp h.1)]
    have hfit' : (pending ++ p.payload).length + (ps.flatMap RTPPacket.payload).length <
        psBufSize := by
      rw [List.length_append]
      omega
    have hrest := ih h4 hstart hfit'
    simp only [absorbAll, hstep, hrest, Option.bind_eq_bind, Option.bind_some,
      Effect.frame, Option.toList_none, List.append_nil, List.flatMap_cons, List.append_assoc]
    rfl

/-- The rest of a pack completes what its first packet started. -/
theorem absorbAll_rest (P : SentPack) (hfit : P.bytes.length < psBufSize) :
    absorbAll P.first.payload P.rest = some (P.bytes, []) := by
  have hjoined : P.first.payload ++ P.rest.flatMap RTPPacket.payload = P.bytes := P.joined
  rw [absorbAll_inside (fun p hp => P.four_le p (List.mem_cons_of_mem _ hp)) P.rest_start
    (by rw [← List.length_append, hjoined]; exact hfit), hjoined]

/-- With nothing pending a pack becomes the pending one. -/
theorem absorbAll_firstPack (P : SentPack) (hfit : P.bytes.length < psBufSize) :
    absorbAll [] P.packets = some (P.bytes, []) := by
  have h4 := P.four_le P.first (List.mem_cons_self ..)
  have hlen : P.first.payload.length ≤ P.bytes.length := by
    have hjoined : P.first.payload ++ P.rest.flatMap RTPPacket.payload = P.bytes := P.joined
    rw [← hjoined, List.length_append]
    exact Nat.le_add_right _ _
  have hstep : absorb [] P.first = some (P.first.payload, .stored) := by
    rw [absorb, if_neg (List.length_pos_iff.mp (by omega)),
      if_neg (by rw [List.length_nil]; omega), if_neg (fun h => h.2 rfl), List.nil_append]
  simp only [SentPack.packets, absorbAll, hstep, absorbAll_rest P hfit, Option.bind_eq_bind,
    Option.bind_some]
  rfl

/-- The first packet of a pack delivers the pack before it. -/
theorem absorbAll_nextPack (P Q : SentPack) (hfit : Q.bytes.length < psBufSize)
    (hfollow : P.bytes.length + Q.first.payload.length < psBufSize) :
    absorbAll P.bytes Q.packets =
      some (Q.bytes, (frameOf P.video Q.first.hasmarker).toList) := by
  have h4 := Q.four_le Q.first (List.mem_cons_self ..)
  have hstep : absorb P.bytes Q.first =
      some (Q.first.payload, .flushed (frameOf P.video Q.first.hasmarker)) := by
    rw [absorb, if_neg (List.length_pos_iff.mp (by omega)), if_neg (by omega),
      if_pos ⟨Q.first_starts, P.bytes_ne_nil⟩, P.demux_bytes, Option.map_some]
  simp only [SentPack.packets, absorbAll, hstep, absorbAll_rest Q hfit, Option.bind_eq_bind,
    Option.bind_some, Effect.frame, List.append_nil]
  rfl

theorem map_data_frameOf (data : List UInt8) (marker : Bool) :
    (frameOf data marker).toList.map Frame.data = [data].filter (· ≠ []) := by
  unfold frameOf
  split <;> simp_all

/-- From the pending pack `P` on, each pack is delivered by the next one. -/
theorem absorbAll_packs (P : SentPack) (packs : List SentPack) (hfits : FitsPsBuf (P :: packs)) :
    ∃ frames, absorbAll P.bytes (packs.flatMap SentPack.packets) =
        some (((P :: packs).getLast (List.cons_ne_nil _ _)).bytes, frames) ∧
      frames.map Frame.data = ((P :: packs).dropLast.map SentPack.video).filter (· ≠ []) := by
  induction packs generalizing P with
  | nil => exact ⟨[], rfl, rfl⟩
  | cons Q packs ih =>
    obtain ⟨heach, hfollowing⟩ := hfits
    rw [List.isChain_cons_cons] at hfollowing
    have hfits' : FitsPsBuf (Q :: packs) :=
      ⟨fun R hR => heach R (List.mem_cons_of_mem _ hR), hfollowing.2⟩
    obtain ⟨frames, hrest, hdata⟩ := ih Q hfits'
    have hQ := absorbAll_nextPack P Q (heach Q (by simp)) hfollowing.1
    refine ⟨(frameOf P.video Q.first.hasmarker).toList ++ frames, ?_, ?_⟩
    · rw [List.flatMap_cons, absorbAll_append hQ hrest, List.getLast_cons_cons]
    · rw [List.map_append, map_data_frameOf, hdata, List.dropLast_cons_cons, List.map_cons,
        ← List.filter_append, List.singleton_append]

/-- Over any lossless run that starts with nothing pending, the frames are the video payloads
of the packs before the last one, which stays pending. -/
theorem processRtpPackets_cons (r : CRTPReceiver) {g : PsGlobals} (hg : Holds g [])
    (P : SentPack) (packs : List SentPack) (hfits : FitsPsBuf (P :: packs)) :
    ∃ r' g' frames,
      processRtpPackets r g ((P :: packs).flatMap SentPack.packets) = .ok (r', g', frames) ∧
      frames.map Frame.data = ((P :: packs).dropLast.map SentPack.video).filter (· ≠ []) ∧
      Holds g' ((P :: packs).getLast (List.cons_ne_nil _ _)).bytes := by
  obtain ⟨frames, hrest, hdata⟩ := absorbAll_packs P packs hfits
  have hall : absorbAll [] ((P :: packs).flatMap SentPack.packets) =
      some (((P :: packs).getLast (List.cons_ne_nil _ _)).bytes, frames) := by
    rw [List.flatMap_cons,
      absorbAll_append (absorbAll_firstPack P (hfits.each P (by simp))) hrest, List.nil_append]
  have hcheck : ∀ p ∈ (P :: packs).flatMap SentPack.packets, p.Checkable := by
    intro p hp
    obtain ⟨Q, -, hQ⟩ := List.mem_flatMap.mp hp
    exact Q.checkable p hQ
  obtain ⟨r', g', hok, hg'⟩ := processRtpPackets_absorbAll r hg hcheck hall
  exact ⟨r', g', frames, hok, hdata, hg'⟩

/-- Over any lossless run that starts with nothing pending, the frames delivered are the
video payloads of all packs but the last, where there are any, and the last pack is
what is pending afterwards. -/
theorem processRtpPackets_packs (r : CRTPReceiver) {g : PsGlobals} (hg : Holds g [])
    (packs : List SentPack) (hfits : FitsPsBuf packs) :
    ∃ r' g' frames,
      processRtpPackets r g (packs.flatMap SentPack.packets) = .ok (r', g', frames) ∧
      frames.map Frame.data = (packs.dropLast.map SentPack.video).filter (· ≠ []) ∧
      g'.psBuf.slice 0 g'.psLen = (packs.getLast?.map SentPack.bytes).getD [] := by
  cases packs with
  | nil => exact ⟨r, g, [], rfl, rfl, by rw [hg.length]; rfl⟩
  | cons P packs =>
    obtain ⟨r', g', frames, hok, hdata, hg'⟩ := processRtpPackets_cons r hg P packs hfits
    refine ⟨r', g', frames, hok, hdata, ?_⟩
    rw [hg'.length, hg'.bytes, List.getLast?_eq_getLast_of_ne_nil (List.cons_ne_nil _ _)]
    rfl

/-- A packet with a zero header. -/
def plainPacket (payload : List UInt8) (h : payload.length < 2 ^ 15) : RTPPacket where
  packet := List.replicate rtpHeadLen 0 ++ payload
  seqnr := 0
  hasmarker := true
  length_le := by simp [rtpHeadLen]; omega

/-- A pack of thirty bytes with two payload bytes, cut behind the PES start code. -/
def twoPacketPack : SentPack where
  header := plainHeader
  units := [videoUnit [0x67, 0x42] (by decide)]
  first := plainPacket ((muxed plainHeader [videoUnit [0x67, 0x42] (by decide)]).take 18)
    (by decide)
  rest := [plainPacket ((muxed plainHeader [videoUnit [0x67, 0x42] (by decide)]).drop 18)
    (by decide)]
  joined := by decide
  four_le := by decide
  rest_start := by decide
  total_lt := by decide

/-- The globals as the library is loaded. -/
def psGlobals₀ : PsGlobals := ⟨.fill psBufSize 0, 0, .fill h264FrameSizeMax 0, 0⟩

theorem holds_psGlobals₀ : Holds psGlobals₀ [] := ⟨rfl, rfl, rfl, by decide, rfl⟩

/-- The same pack sent twice is delivered once. -/
theorem processRtpPackets_packs_twice :
    ∃ r' g' frames, processRtpPackets ⟨0, true, 0⟩ psGlobals₀
        ([twoPacketPack, twoPacketPack].flatMap SentPack.packets) = .ok (r', g', frames) ∧
      frames.map Frame.data =
        ([twoPacketPack, twoPacketPack].dropLast.map SentPack.video).filter (· ≠ []) ∧
      g'.psBuf.slice 0 g'.psLen =
        ([twoPacketPack, twoPacketPack].getLast?.map SentPack.bytes).getD [] :=
  processRtpPackets_packs ⟨0, true, 0⟩ holds_psGlobals₀ [twoPacketPack, twoPacketPack]
    ⟨by decide, .cons_cons (by decide) (.singleton _)⟩

end Jrtplib4Android
