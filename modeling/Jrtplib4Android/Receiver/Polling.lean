import Jrtplib4Android.Receiver.Reassembly
import Jrtplib4Android.Rtp.ReceiveQueue

/-!
# Polling a source

`OnPollThreadStep` takes the packets of a source out of its queue and processes them until there
are none. The packets of whole packs that arrive before the step in any order, as long as each is
in reach, are processed in the order in which they were sent, so that the frames are those of a
network that keeps the order.
-/

namespace Jrtplib4Android

open CSem RTPSourceStats RTPInternalSourceData

/-- The packet that the receiver is given. -/
def ParsedPacket.toRTPPacket (p : ParsedPacket) : RTPPacket := p.rawpack.received p.fields

theorem length_getNextPacket {d d' : RTPInternalSourceData} {p : ParsedPacket}
    (h : d.getNextPacket = (d', some p)) : d'.packetlist.length < d.packetlist.length := by
  rw [getNextPacket] at h
  split at h
  · cases h
  · cases hlist : d.packetlist with
    | nil =>
      rw [hlist] at h
      cases h
    | cons q qs =>
      rw [hlist] at h
      cases h
      exact Nat.lt_succ_self _

/-- The loop of `OnPollThreadStep` over one source. -/
def onPollThreadStep (d : RTPInternalSourceData) (r : CRTPReceiver) (g : PsGlobals) :
    Except Fault (RTPInternalSourceData × CRTPReceiver × PsGlobals × List Frame) :=
  match h : d.getNextPacket with
  | (d', none) => .ok (d', r, g, [])
  | (d', some rtppack) => do
    have := length_getNextPacket h
    let (r, g, effect) ← processRtpPacket r g rtppack.toRTPPacket
    let (d, r, g, frames) ← onPollThreadStep d' r g
    return (d, r, g, effect.frame.toList ++ frames)
termination_by d.packetlist.length

/-- All packets of a validated source are processed in the order of its queue. -/
theorem onPollThreadStep_eq {d : RTPInternalSourceData} (hvalid : d.validated = true)
    (r : CRTPReceiver) (g : PsGlobals) :
    onPollThreadStep d r g =
      (processRtpPackets r g (d.packetlist.map ParsedPacket.toRTPPacket)).map fun out =>
        ({ d with packetlist := [] }, out) := by
  have hvalid' : (!d.validated) = false := by rw [hvalid]; rfl
  induction hlist : d.packetlist generalizing d r g with
  | nil =>
    have hnext : d.getNextPacket = (d, none) := by
      rw [getNextPacket, hvalid', if_neg Bool.false_ne_true, hlist]
    rw [onPollThreadStep]
    split
    next d' heq =>
      cases hnext.symm.trans heq
      change Except.ok (d, r, g, []) = .ok ({ d with packetlist := [] }, r, g, [])
      rw [← hlist]
    next d' p heq => cases hnext.symm.trans heq
  | cons p ps ih =>
    have hnext : d.getNextPacket = ({ d with packetlist := ps }, some p) := by
      rw [getNextPacket, hvalid', if_neg Bool.false_ne_true, hlist]
    rw [onPollThreadStep]
    split
    next d' heq => cases hnext.symm.trans heq
    next d' q heq =>
      cases hnext.symm.trans heq
      rw [List.map_cons, processRtpPackets]
      cases processRtpPacket r g p.toRTPPacket with
      | error f => rfl
      | ok out =>
        have hrest := ih (d := { d with packetlist := ps }) hvalid out.1 out.2.1 hvalid' rfl
        change (onPollThreadStep { d with packetlist := ps } out.1 out.2.1 >>= _) =
          Except.map _ (processRtpPackets out.1 out.2.1 _ >>= _)
        rw [hrest]
        cases processRtpPackets out.1 out.2.1 (ps.map ParsedPacket.toRTPPacket) <;> rfl

/-- Packets that arrive with their numbers. -/
def arrivals (ps : List (Nat × ParsedPacket)) : List QueueEvent :=
  ps.map fun p => .arrives p.1 p.2

/-- A packet with its full number. -/
def numbered (p : Nat × ParsedPacket) : ParsedPacket :=
  p.2.setExtendedSequenceNumber (.ofNat p.1)

theorem number_numbered {p : Nat × ParsedPacket} (hp : p.1 < 2 ^ 32) :
    (numbered p).number = p.1 := UInt32.toNat_ofNat_of_lt' hp

/-- The packets that arrive are taken in under their full numbers. -/
theorem pending_arrivals {x : SourceStream} {ps : List (Nat × ParsedPacket)}
    (hps : ∀ p ∈ ps, p.1 < 2 ^ 32) :
    (after SourceStream.step x (arrivals ps)).pending =
      x.pending.offerAll ParsedPacket.number (ps.map numbered) := by
  induction ps generalizing x with
  | nil => rfl
  | cons p ps ih =>
    obtain ⟨hp, hps⟩ := List.forall_mem_cons.mp hps
    rw [arrivals, List.map_cons, after_cons, ← arrivals, ih hps, List.map_cons,
      ReorderBuffer.offerAll, ReorderBuffer.offerAll, List.foldl_cons, number_numbered hp]
    rfl

/-- What arrives in reach has a number of 32 bits. -/
theorem lt_of_allowed {x : SourceStream} {ps : List (Nat × ParsedPacket)}
    (hreach : ∀ p ∈ trace SourceStream.step x (arrivals ps), p.1.Allowed p.2) :
    ∀ p ∈ ps, p.1 < 2 ^ 32 := by
  induction ps generalizing x with
  | nil => exact fun p hp => absurd hp List.not_mem_nil
  | cons p ps ih =>
    rw [arrivals, List.map_cons, forall_trace_cons] at hreach
    exact List.forall_mem_cons.mpr ⟨hreach.1.1, ih hreach.2⟩

/-- The queue of a source whose packets arrive in reach has them in the order of their
numbers. -/
theorem packetlist_arrivals {n : Nat} (hn : n + 2 ≤ 2 ^ 16) {p₀ p₁ p₂ : ParsedPacket}
    {late sent : List (Nat × ParsedPacket)}
    (hreach : ∀ p ∈ trace SourceStream.step (.start n) (opening n p₀ p₁ p₂ ++ arrivals late),
      p.1.Allowed p.2)
    (hperm : ((n, p₀) :: (n + 1, p₁) :: (n + 2, p₂) :: late).Perm sent)
    (hsent : sent.Pairwise fun p q => p.1 < q.1) :
    (after RTPInternalSourceData.step (.init .probationStore)
        (opening n p₀ p₁ p₂ ++ arrivals late)).validated = true ∧
      (after RTPInternalSourceData.step (.init .probationStore)
        (opening n p₀ p₁ p₂ ++ arrivals late)).packetlist = sent.map numbered := by
  obtain ⟨-, hshows⟩ := simulates hn p₀ p₁ p₂ hreach
  refine ⟨hshows.validated, hshows.queue.unique ?_⟩
  have hlt : ∀ p ∈ (n, p₀) :: (n + 1, p₁) :: (n + 2, p₂) :: late, p.1 < 2 ^ 32 :=
    lt_of_allowed (x := .start n) hreach
  have hpending := pending_arrivals (x := .start n) hlt
  refine (congrArg (ReorderBuffer.Holds ParsedPacket.number · (sent.map numbered)) hpending).mpr ?_
  refine ReorderBuffer.holds_offerAll (hperm.map numbered) (List.pairwise_map.mpr ?_)
  refine hsent.imp_of_mem fun {p q} hp hq hpq => ?_
  rw [number_numbered (hlt p (hperm.mem_iff.mpr hp)),
    number_numbered (hlt q (hperm.mem_iff.mpr hq))]
  exact hpq

/-- The packets of a run of packs, each of which fits `psBuf` with the packet behind it, arrive at a
new source, the first three in a row and not over the end of a cycle, and all others in any order
in reach. With `psBuf` empty, the step that polls them then delivers the frames of the run in the
order in which it was sent, and leaves nothing in the queue. -/
theorem polled_packs {n : Nat} (hn : n + 2 ≤ 2 ^ 16) {p₀ p₁ p₂ : ParsedPacket}
    {late sent : List (Nat × ParsedPacket)}
    (hreach : ∀ p ∈ trace SourceStream.step (.start n) (opening n p₀ p₁ p₂ ++ arrivals late),
      p.1.Allowed p.2)
    (hperm : ((n, p₀) :: (n + 1, p₁) :: (n + 2, p₂) :: late).Perm sent)
    (hsent : sent.Pairwise fun p q => p.1 < q.1) {packs : List SentPack}
    (hpacks : (sent.map fun p => (numbered p).toRTPPacket) = packs.flatMap SentPack.packets)
    (hfits : FitsPsBuf packs) (r : CRTPReceiver) {g : PsGlobals} (hg : Holds g []) :
    ∃ d r' g' frames,
      onPollThreadStep (after RTPInternalSourceData.step (.init .probationStore)
        (opening n p₀ p₁ p₂ ++ arrivals late)) r g = .ok (d, r', g', frames) ∧
      d.packetlist = [] ∧
      frames.map Frame.data = (packs.dropLast.map SentPack.video).filter (· ≠ []) := by
  obtain ⟨hvalid, hlist⟩ := packetlist_arrivals hn hreach hperm hsent
  have hqueue : (sent.map numbered).map ParsedPacket.toRTPPacket =
      packs.flatMap SentPack.packets := (List.map_map).trans hpacks
  rw [onPollThreadStep_eq hvalid, hlist, hqueue]
  cases packs with
  | nil => exact ⟨_, r, g, [], rfl, rfl, rfl⟩
  | cons P packs =>
    obtain ⟨r', g', frames, hok, hdata, -⟩ := processRtpPackets_cons r hg P packs hfits
    rw [hok]
    exact ⟨_, r', g', frames, rfl, rfl, hdata⟩

/-- A packet of a sender as it is parsed. -/
def parsed (p : RTPPacket) : ParsedPacket :=
  ⟨⟨p.packet, true, p.length_le⟩, { mixedFields 0 with hasmarker := p.hasmarker }⟩

/-- A packet with another sequence number. -/
def withSeqnr (k : UInt16) (p : RTPPacket) : RTPPacket := { p with seqnr := k }

/-- A pack of two packets that are numbered from `k` on. -/
def numberedPack (k : UInt16) : SentPack where
  header := twoPacketPack.header
  units := twoPacketPack.units
  first := withSeqnr k twoPacketPack.first
  rest := twoPacketPack.rest.map (withSeqnr (k + 1))
  joined := twoPacketPack.joined
  four_le := List.forall_mem_cons.mpr ⟨(List.forall_mem_cons.mp twoPacketPack.four_le).1,
    List.forall_mem_map.mpr (List.forall_mem_cons.mp twoPacketPack.four_le).2⟩
  rest_start := List.forall_mem_map.mpr twoPacketPack.rest_start
  total_lt := twoPacketPack.total_lt

/-- Packet `k` of a sender whose packets alternate between the two of a pack. -/
def sentSample (k : Nat) : Nat × ParsedPacket :=
  (k, parsed (if k % 2 = 1 then twoPacketPack.first
    else twoPacketPack.rest.headD twoPacketPack.first))

/-- Three packs, where the last packet overtakes the two before it. -/
theorem polled_packs_overtaken :
    ∃ d r' g' frames,
      onPollThreadStep (after RTPInternalSourceData.step (.init .probationStore)
        (opening 7 (sentSample 7).2 (sentSample 8).2 (sentSample 9).2 ++
          arrivals [sentSample 12, sentSample 10, sentSample 11])) ⟨0, true, 0⟩ psGlobals₀ =
        .ok (d, r', g', frames) ∧
      d.packetlist = [] ∧
      frames.map Frame.data =
        ([numberedPack 7, numberedPack 9, numberedPack 11].dropLast.map SentPack.video).filter
          (· ≠ []) := by
  have hovertaken : ([sentSample 12] ++ [sentSample 10, sentSample 11]).Perm
      ([sentSample 10, sentSample 11] ++ [sentSample 12]) := List.perm_append_comm
  exact polled_packs (by decide)
    (by simp [trace, opening, arrivals, sentSample, SourceStream.start, SourceStream.Allowed,
      InReach])
    (((hovertaken.cons _).cons _).cons _) (by simp [sentSample]) rfl
    ⟨by decide, .cons_cons (by decide) (.cons_cons (by decide) (.singleton _))⟩ _
    holds_psGlobals₀

end Jrtplib4Android
