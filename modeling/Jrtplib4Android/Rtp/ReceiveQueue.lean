import Jrtplib4Android.Core.ReorderBuffer
import Jrtplib4Android.Receiver.RawPacket
import Jrtplib4Android.Rtp.SourceStats

/-!
# The packets of a source

`RTPInternalSourceData::ProcessRTPPacket` puts the packets of a source in a list in the order
of their extended sequence numbers, and `GetNextPacket` gives out the first of them. To the
application the list is a reorder buffer of the packets under the numbers that the sender counts,
as `answers_eq_reorder` states, as long as the packets are in reach of one another.
-/

namespace Jrtplib4Android

open CSem RTPSourceStats

/-- `RTPSources::ProbationType`. -/
inductive ProbationType where
  | noProbation
  | probationDiscard
  | probationStore
  deriving DecidableEq

/-- `RTPINTERNALSOURCEDATA_MAXPROBATIONPACKETS`. -/
def maxProbationPackets : Nat := 32

/-- An `RTPPacket`: a raw packet and the members that are read off it. -/
structure ParsedPacket where
  rawpack : RTPRawPacket
  fields : RTPPacketFields

/-- `GetExtendedSequenceNumber`. -/
def ParsedPacket.extseqnr (p : ParsedPacket) : UInt32 := p.fields.extseqnr

/-- `SetExtendedSequenceNumber`. -/
def ParsedPacket.setExtendedSequenceNumber (p : ParsedPacket) (extseqnr : UInt32) :
    ParsedPacket := { p with fields := { p.fields with extseqnr } }

/-- The members of `RTPInternalSourceData` that have to do with its packets. -/
structure RTPInternalSourceData where
  stats : RTPSourceStats
  probationtype : ProbationType
  validated : Bool
  ownssrc : Bool
  issender : Bool
  packetlist : List ParsedPacket

/-- The walk from the end of the list, which is given last packet first, to the place of a
packet, and whether it is stored. -/
def insertFromBack (rtppack : ParsedPacket) :
    List ParsedPacket → List ParsedPacket × Bool
  | [] => ([rtppack], true)
  | p :: ps =>
    if rtppack.extseqnr < p.extseqnr then
      (p :: (insertFromBack rtppack ps).1, (insertFromBack rtppack ps).2)
    else if p.extseqnr < rtppack.extseqnr then (rtppack :: p :: ps, true)
    -- They are equal: the packet is dropped.
    else (p :: ps, false)

namespace RTPInternalSourceData

/-- The constructor. -/
def init (probtype : ProbationType) : RTPInternalSourceData where
  stats := .init
  probationtype := probtype
  validated := false
  ownssrc := false
  issender := false
  packetlist := []

/-- The part of `ProcessRTPPacket` that places a packet in the queue. -/
def place (d : RTPInternalSourceData) (rtppack : ParsedPacket) :
    RTPInternalSourceData × Bool :=
  if d.packetlist.isEmpty then ({ d with packetlist := d.packetlist ++ [rtppack] }, true)
  else
    let packetlist :=
      if !d.validated && d.packetlist.length == maxProbationPackets then d.packetlist.tail
      else d.packetlist
    let (packets, stored) := insertFromBack rtppack packetlist.reverse
    ({ d with packetlist := packets.reverse }, stored)

/-- The part of `ProcessRTPPacket` behind the checks of the probation. -/
def handle (d : RTPInternalSourceData) (rtppack : ParsedPacket) :
    RTPInternalSourceData × Bool :=
  place { d with issender := (d.validated && !d.ownssrc) || d.issender } rtppack

/-- `ProcessRTPPacket`, and whether the packet is stored. -/
def processRTPPacket (d : RTPInternalSourceData) (rtppack : ParsedPacket) :
    RTPInternalSourceData × Bool :=
  let applyprobation := !d.validated && d.probationtype != .noProbation
  let r := d.stats.processPacket rtppack.extseqnr applyprobation
  let rtppack := rtppack.setExtendedSequenceNumber r.extseqnr
  match d.probationtype with
  | .probationStore =>
    if !(r.onprobation || r.accept) then ({ d with stats := r.stats }, false)
    else handle { d with stats := r.stats, validated := r.accept || d.validated } rtppack
  | .probationDiscard | .noProbation =>
    if !r.accept then ({ d with stats := r.stats }, false)
    else handle { d with stats := r.stats, validated := true } rtppack

/-- `GetNextPacket`. -/
def getNextPacket (d : RTPInternalSourceData) : RTPInternalSourceData × Option ParsedPacket :=
  if !d.validated then (d, none)
  else
    match d.packetlist with
    | [] => (d, none)
    | p :: ps => ({ d with packetlist := ps }, some p)

end RTPInternalSourceData

/-- What happens to a source: packet number `n` arrives, or the next packet is asked for. -/
inductive QueueEvent where
  | arrives (n : Nat) (rtppack : ParsedPacket)
  | next

/-- What is answered. -/
inductive QueueAnswer where
  | stored (stored : Bool)
  | packet (rtppack : Option ParsedPacket)

/-- A packet that arrives has the number that is sent with it. -/
def RTPInternalSourceData.perform (d : RTPInternalSourceData) :
    QueueEvent → RTPInternalSourceData × QueueAnswer
  | .arrives n rtppack =>
    let (d, stored) := d.processRTPPacket (rtppack.setExtendedSequenceNumber (wireNumber n))
    (d, .stored stored)
  | .next =>
    let (d, rtppack) := d.getNextPacket
    (d, .packet rtppack)

def RTPInternalSourceData.step (d : RTPInternalSourceData) (e : QueueEvent) :
    RTPInternalSourceData := (d.perform e).1

/-- A source as its sender counts its packets: the highest number so far, and the packets to
be asked for under their numbers. -/
structure SourceStream where
  high : Nat
  pending : ReorderBuffer Nat ParsedPacket

namespace SourceStream

/-- A stream that starts with packet number `n`. -/
def start (n : Nat) : SourceStream := ⟨n, .empty⟩

/-- A packet is stored unless one with its number is pending, and has its full number. -/
noncomputable def perform (x : SourceStream) : QueueEvent → SourceStream × QueueAnswer
  | .arrives n rtppack =>
    (⟨max x.high n, x.pending.offer n (rtppack.setExtendedSequenceNumber (.ofNat n))⟩,
      .stored (x.pending.held n).isNone)
  | .next => (⟨x.high, x.pending.take.1⟩, .packet x.pending.take.2)

noncomputable def step (x : SourceStream) (e : QueueEvent) : SourceStream := (x.perform e).1

@[simp] theorem high_step_arrives (x : SourceStream) (n : Nat) (rtppack : ParsedPacket) :
    (x.step (.arrives n rtppack)).high = max x.high n := rfl

@[simp] theorem high_step_next (x : SourceStream) : (x.step .next).high = x.high := rfl

/-- A packet that arrives is in reach of the highest number so far. -/
def Allowed (x : SourceStream) : QueueEvent → Prop
  | .arrives n _ => n < 2 ^ 32 ∧ InReach x.high n
  | .next => True

end SourceStream

/-- The order of the packets. -/
def ParsedPacket.number (p : ParsedPacket) : Nat := p.extseqnr.toNat

theorem ParsedPacket.number_setExtendedSequenceNumber (p : ParsedPacket) (n : UInt32) :
    (p.setExtendedSequenceNumber n).number = n.toNat := rfl

/-- In a list in descending order a packet is dropped if its number is there, and is put
between the larger and the smaller ones otherwise. -/
theorem insertFromBack_cases (rtppack : ParsedPacket) {ps : List ParsedPacket}
    (hps : ps.Pairwise fun p q => q.number < p.number) :
    (insertFromBack rtppack ps = (ps, false) ∧ ∃ p ∈ ps, p.number = rtppack.number) ∨
      ∃ back front, ps = back ++ front ∧
        insertFromBack rtppack ps = (back ++ rtppack :: front, true) ∧
        (∀ p ∈ back, rtppack.number < p.number) ∧ ∀ p ∈ front, p.number < rtppack.number := by
  induction ps with
  | nil => exact Or.inr ⟨[], [], rfl, rfl, by simp, by simp⟩
  | cons p ps ih =>
    obtain ⟨hp, hps⟩ := List.pairwise_cons.mp hps
    rw [insertFromBack]
    split
    next hlt =>
      rcases ih hps with ⟨heq, q, hq, hnumber⟩ | ⟨back, front, hsplit, heq, hback, hfront⟩
      · rw [heq]
        exact Or.inl ⟨rfl, q, List.mem_cons_of_mem p hq, hnumber⟩
      · rw [heq, hsplit]
        refine Or.inr ⟨p :: back, front, rfl, rfl, ?_, hfront⟩
        exact List.forall_mem_cons.mpr ⟨UInt32.lt_iff_toNat_lt.mp hlt, hback⟩
    next hlt =>
      split
      next hgt =>
        have hnumber := UInt32.lt_iff_toNat_lt.mp hgt
        refine Or.inr ⟨[], p :: ps, rfl, rfl, by simp, ?_⟩
        exact List.forall_mem_cons.mpr ⟨hnumber, fun q hq => (hp q hq).trans hnumber⟩
      next hgt =>
        refine Or.inl ⟨rfl, p, List.mem_cons_self, ?_⟩
        exact Nat.le_antisymm (UInt32.le_iff_toNat_le.mp (UInt32.not_lt.mp hlt))
          (UInt32.le_iff_toNat_le.mp (UInt32.not_lt.mp hgt))

namespace RTPInternalSourceData

variable {d : RTPInternalSourceData} {x : SourceStream}
  {b : ReorderBuffer Nat ParsedPacket} (rtppack : ParsedPacket)

/-- A packet is placed in the queue as the buffer takes it in, unless packets on probation have
to make room. -/
theorem place_eq (h : b.Holds ParsedPacket.number d.packetlist)
    (hroom : d.validated = true ∨ d.packetlist.length < maxProbationPackets) :
    ∃ ps, d.place rtppack = ({ d with packetlist := ps }, (b.held rtppack.number).isNone) ∧
      (b.offer rtppack.number rtppack).Holds ParsedPacket.number ps ∧
      ps.length ≤ d.packetlist.length + 1 := by
  rw [place]
  by_cases hempty : d.packetlist.isEmpty = true
  · have hnil : d.packetlist = [] := List.isEmpty_iff.mp hempty
    rw [if_pos hempty, hnil]
    rw [hnil] at h
    have hfree : b.held rtppack.number = none :=
      h.eq_none_iff.mpr fun p hp => absurd hp List.not_mem_nil
    refine ⟨[rtppack], by rw [hfree]; rfl, ?_, le_rfl⟩
    have happend : b.Holds ParsedPacket.number ([] ++ []) := h
    exact happend.insert (by simp) (by simp)
  · have hfull : (!d.validated && d.packetlist.length == maxProbationPackets) = false := by
      rcases hroom with hroom | hroom
      · rw [hroom]
        rfl
      · rw [beq_false_of_ne hroom.ne, Bool.and_false]
    rw [if_neg hempty]
    dsimp only
    rw [hfull, if_neg Bool.false_ne_true]
    rcases insertFromBack_cases rtppack (List.pairwise_reverse.mpr h.sorted) with
      ⟨heq, p, hp, hnumber⟩ | ⟨back, front, hsplit, heq, hback, hfront⟩
    · have hmem := List.mem_reverse.mp hp
      have hheld : (b.held rtppack.number).isNone = false := by
        rw [Option.isNone_eq_false_iff, h.isSome_iff]
        exact ⟨p, hmem, hnumber⟩
      rw [heq, h.offer_of_mem hmem hnumber, hheld, List.reverse_reverse]
      exact ⟨d.packetlist, rfl, h, Nat.le_succ _⟩
    · have hlist : d.packetlist = front.reverse ++ back.reverse := by
        rw [← List.reverse_append, ← hsplit, List.reverse_reverse]
      have hfront' : ∀ p ∈ front.reverse, p.number < rtppack.number := by simpa using hfront
      have hback' : ∀ p ∈ back.reverse, rtppack.number < p.number := by simpa using hback
      rw [hlist] at h
      rw [heq, h.free hfront' hback']
      refine ⟨front.reverse ++ rtppack :: back.reverse, ?_, h.insert hfront' hback', ?_⟩
      · simp
      · rw [hlist, List.length_append, List.length_append, List.length_cons]
        omega

/-- The source keeps the packets that are pending, each under its full number. -/
structure Shows (d : RTPInternalSourceData) (x : SourceStream) : Prop where
  validated : d.validated = true
  reached : d.stats.Reached x.high
  queue : x.pending.Holds ParsedPacket.number d.packetlist

/-- Two machines answer alike and lead to related states. -/
def Follows (d : RTPInternalSourceData) (x : SourceStream) (e : QueueEvent) : Prop :=
  (d.perform e).2 = (x.perform e).2 ∧ Shows (d.perform e).1 (x.perform e).1

theorem follows_next (h : d.Shows x) : d.Follows x .next := by
  have hvalid : (!d.validated) = false := by rw [h.validated]; rfl
  have hqueue := h.queue
  rw [Follows, perform, SourceStream.perform, getNextPacket, hvalid, if_neg Bool.false_ne_true]
  cases hlist : d.packetlist with
  | nil =>
    rw [hlist] at hqueue
    rw [hqueue.take_nil]
    exact ⟨rfl, h⟩
  | cons p ps =>
    rw [hlist] at hqueue
    rw [hqueue.take_cons]
    exact ⟨rfl, h.validated, h.reached, hqueue.tail⟩

/-- A packet that is accepted validates its source. -/
theorem processRTPPacket_of_accept {seqnr : UInt32} {r : Processed}
    (hprocess : d.stats.processPacket seqnr (!d.validated && d.probationtype != .noProbation) = r)
    (haccept : r.accept = true) :
    d.processRTPPacket (rtppack.setExtendedSequenceNumber seqnr) =
      handle { d with stats := r.stats, validated := true }
        (rtppack.setExtendedSequenceNumber r.extseqnr) := by
  have hprocess' : d.stats.processPacket (rtppack.setExtendedSequenceNumber seqnr).extseqnr
      (!d.validated && d.probationtype != .noProbation) = r := hprocess
  rw [processRTPPacket, hprocess', haccept, Bool.or_true, Bool.true_or]
  cases d.probationtype <;> rfl

/-- A packet that is accepted under its full number is pending under it. -/
theorem follows_of_accept {n : Nat} {r : Processed} (hn : n < 2 ^ 32)
    (hprocess : d.stats.processPacket (wireNumber n)
      (!d.validated && d.probationtype != .noProbation) = r)
    (haccept : r.accept = true) (hext : r.extseqnr = .ofNat n)
    (hreached : r.stats.Reached (max x.high n))
    (hqueue : x.pending.Holds ParsedPacket.number d.packetlist) :
    d.Follows x (.arrives n rtppack) := by
  have hnumber : (rtppack.setExtendedSequenceNumber (.ofNat n)).number = n :=
    UInt32.toNat_ofNat_of_lt' hn
  obtain ⟨ps, heq, hps, -⟩ :=
    place_eq (d := { d with
        stats := r.stats
        validated := true
        issender := !d.ownssrc || d.issender })
      (rtppack.setExtendedSequenceNumber (.ofNat n)) hqueue (Or.inl rfl)
  rw [hnumber] at heq hps
  rw [Follows, perform, processRTPPacket_of_accept rtppack hprocess haccept, hext, handle,
    Bool.true_and, heq]
  exact ⟨rfl, rfl, hreached, hps⟩

theorem follows_arrives {n : Nat} (h : d.Shows x) (hn : n < 2 ^ 32)
    (hreach : InReach x.high n) : d.Follows x (.arrives n rtppack) := by
  obtain ⟨hext, hnext⟩ := processSent_of_inReach h.reached hn hreach
  exact follows_of_accept rtppack hn (if_pos h.reached.sentdata) (accept_processSent _) hext hnext
    h.queue

/-- A validated source follows its stream as long as the packets are in reach. -/
theorem follows_of_allowed {e : QueueEvent} (h : d.Shows x) (he : x.Allowed e) :
    d.Follows x e := by
  cases e with
  | arrives n rtppack => exact follows_arrives rtppack h he.1 he.2
  | next => exact follows_next h

/-- A source on probation, whose packets so far had consecutive numbers up to the highest. -/
structure Probed (d : RTPInternalSourceData) (x : SourceStream) (left : Int) : Prop where
  probationtype : d.probationtype = .probationStore
  validated : d.validated = false
  sentdata : d.stats.sentdata = false
  numcycles : d.stats.numcycles = 0
  probation : d.stats.probation = left
  prevseqnr : left ≠ 0 → d.stats.prevseqnr.toNat = x.high
  room : d.packetlist.length + left ≤ 3
  queue : x.pending.Holds ParsedPacket.number d.packetlist

theorem probed_init (n : Nat) : (init .probationStore).Probed (.start n) 0 where
  probationtype := rfl
  validated := rfl
  sentdata := rfl
  numcycles := rfl
  probation := rfl
  prevseqnr h := absurd rfl h
  room := by decide
  queue := ReorderBuffer.holds_empty

variable {n : Nat} {left : Int}

theorem Probed.processPacket (h : d.Probed x left) (seqnr : UInt32) :
    d.stats.processPacket seqnr (!d.validated && d.probationtype != .noProbation) =
      d.stats.processOnProbation seqnr := by
  rw [h.validated, h.probationtype, RTPSourceStats.processPacket, h.sentdata]
  rfl

/-- The number that probation waits for is that of the next packet. -/
theorem Probed.expected (h : d.Probed x left) (hleft : left ≠ 0) :
    (d.stats.prevseqnr + 1).toUInt32 = wireNumber (x.high + 1) := by
  rw [← UInt32.toNat_inj, UInt16.toNat_toUInt32, UInt16.toNat_add, h.prevseqnr hleft,
    toNat_wireNumber]
  rfl

/-- A packet that does not end the probation is stored. -/
theorem Probed.processRTPPacket (h : d.Probed x left) {seqnr : UInt32} {r : Processed}
    (hprocess : d.stats.processOnProbation seqnr = r) (hhold : r.onprobation = true) :
    d.processRTPPacket (rtppack.setExtendedSequenceNumber seqnr) =
      handle { d with stats := r.stats, validated := r.accept || d.validated }
        (rtppack.setExtendedSequenceNumber r.extseqnr) := by
  have hprocess' : d.stats.processPacket (rtppack.setExtendedSequenceNumber seqnr).extseqnr
      (!d.validated && d.probationtype != .noProbation) = r :=
    (h.processPacket seqnr).trans hprocess
  rw [RTPInternalSourceData.processRTPPacket, hprocess', h.probationtype, hhold]
  rfl

/-- A packet that does not end the probation is pending under the number sent with it. -/
theorem Probed.hold (still : Int) (h : d.Probed x left) (hn : n < 2 ^ 16) (hhigh : x.high ≤ n)
    (hprocess : d.stats.processOnProbation (wireNumber n) = d.stats.hold (wireNumber n) still)
    (hstill : 0 ≤ still) (hroom : d.packetlist.length + 1 + still ≤ 3) :
    (d.perform (.arrives n rtppack)).2 = (x.perform (.arrives n rtppack)).2 ∧
      Probed (d.perform (.arrives n rtppack)).1 (x.perform (.arrives n rtppack)).1 still := by
  have hwire : wireNumber n = .ofNat n := by rw [wireNumber, Nat.mod_eq_of_lt hn]
  have hnumber : (rtppack.setExtendedSequenceNumber (wireNumber n)).number = n := by
    rw [ParsedPacket.number_setExtendedSequenceNumber, toNat_wireNumber, Nat.mod_eq_of_lt hn]
  obtain ⟨ps, heq, hps, hlength⟩ :=
    place_eq (d := { d with
        stats := (d.stats.hold (wireNumber n) still).stats
        issender := (d.validated && !d.ownssrc) || d.issender })
      (rtppack.setExtendedSequenceNumber (wireNumber n)) h.queue
      (Or.inr (show d.packetlist.length < 32 by omega))
  rw [hnumber] at heq hps
  rw [perform, (h.processRTPPacket rtppack hprocess rfl).trans heq]
  refine ⟨rfl, h.probationtype, h.validated, h.sentdata, h.numcycles, rfl, fun _ => ?_, ?_, ?_⟩
  · change (wireNumber n).toUInt16.toNat = max x.high n
    rw [UInt32.toNat_toUInt16, toNat_wireNumber]
    omega
  · change ps.length + still ≤ 3
    have hlength' : ps.length ≤ d.packetlist.length + 1 := hlength
    omega
  · rw [hwire] at hps
    exact hps

/-- The packet behind the first one has the number that probation waits for. -/
theorem Probed.second (h : d.Probed x 2) (hn : n + 1 < 2 ^ 16) (hhigh : x.high = n) :
    (d.perform (.arrives (n + 1) rtppack)).2 = (x.perform (.arrives (n + 1) rtppack)).2 ∧
      Probed (d.perform (.arrives (n + 1) rtppack)).1
        (x.perform (.arrives (n + 1) rtppack)).1 1 := by
  subst hhigh
  refine h.hold rtppack 1 hn (Nat.le_succ _) ?_ (by decide) ?_
  · rw [processOnProbation, h.probation, if_pos (by decide), if_pos (h.expected (by decide)),
      if_neg (by decide)]
    rfl
  · have hroom := h.room
    omega

/-- The packet that ends the probation is accepted. -/
theorem Probed.accept (h : d.Probed x 1) (hn : n < 2 ^ 16) (hhigh : x.high = n) :
    d.Follows x (.arrives (n + 1) rtppack) := by
  subst hhigh
  have hprocess : ∃ s : RTPSourceStats, s.numcycles = 0 ∧
      d.stats.processOnProbation (wireNumber (x.high + 1)) =
        s.acceptPacket (wireNumber (x.high + 1)) := by
    rw [processOnProbation, h.probation, if_pos (by decide), if_pos (h.expected (by decide)),
      if_pos (by decide)]
    exact ⟨{ d.stats with
      probation := 1 - 1
      prevseqnr := (wireNumber (x.high + 1)).toUInt16 }, h.numcycles, rfl⟩
  obtain ⟨s, hcycles, hprocess⟩ := hprocess
  obtain ⟨hext, hreached⟩ := acceptPacket_reached hcycles (Nat.succ_pos x.high) hn
  have hmax : max x.high (x.high + 1) = x.high + 1 := max_eq_right (Nat.le_succ x.high)
  refine follows_of_accept rtppack (by omega) ((h.processPacket _).trans hprocess) rfl hext ?_
    h.queue
  rw [hmax]
  exact hreached

/-- The three packets that take a source off probation. -/
def opening (n : Nat) (p₀ p₁ p₂ : ParsedPacket) : List QueueEvent :=
  [.arrives n p₀, .arrives (n + 1) p₁, .arrives (n + 2) p₂]

/-- From its first packet on a new source that starts with three packets in a row answers as the
buffer does, and it keeps what is pending. -/
theorem simulates {n : Nat} (hn : n + 2 ≤ 2 ^ 16) (p₀ p₁ p₂ : ParsedPacket) {es : List QueueEvent}
    (hes : ∀ p ∈ trace SourceStream.step (.start n) (opening n p₀ p₁ p₂ ++ es), p.1.Allowed p.2) :
    answers perform (.init .probationStore) (opening n p₀ p₁ p₂ ++ es) =
        answers SourceStream.perform (.start n) (opening n p₀ p₁ p₂ ++ es) ∧
      Shows (after step (.init .probationStore) (opening n p₀ p₁ p₂ ++ es))
        (after SourceStream.step (.start n) (opening n p₀ p₁ p₂ ++ es)) := by
  obtain ⟨hanswer₀, hprobed₀⟩ := (probed_init n).hold p₀ 2 (n := n) (by omega) le_rfl rfl
    (by decide) (by decide)
  obtain ⟨hanswer₁, hprobed₁⟩ := hprobed₀.second p₁ (by omega) (max_self n)
  obtain ⟨hanswer₂, hshows⟩ := hprobed₁.accept p₂ (n := n + 1) (by omega)
    ((congrArg (max · (n + 1)) (max_self n)).trans (max_eq_right (Nat.le_succ n)))
  rw [opening, List.cons_append, List.cons_append, List.cons_append, List.nil_append] at hes ⊢
  rw [forall_trace_cons, forall_trace_cons, forall_trace_cons] at hes
  obtain ⟨hrest, hafter⟩ := answers_eq_of_simulation (R := Shows)
    (A := SourceStream.Allowed) (fun d x e h he => follows_of_allowed (e := e) h he) hshows
    hes.2.2.2
  rw [answers, answers, answers, answers, answers, answers, hanswer₀, hanswer₁, hanswer₂, hrest]
  exact ⟨rfl, hafter⟩

end RTPInternalSourceData

open RTPInternalSourceData

/-- A new source that starts with three packets in a row of one cycle is to the application a
reorder buffer under the packet numbers of the sender, in every run whose packets are in reach
of the highest one before them: a packet is stored unless one with its number is pending, the
packet given out is the one with the least number that is pending, and it has its full number. -/
theorem answers_eq_reorder {n : Nat} (hn : n + 2 ≤ 2 ^ 16) (p₀ p₁ p₂ : ParsedPacket)
    {es : List QueueEvent}
    (hes : ∀ p ∈ trace SourceStream.step (.start n) (opening n p₀ p₁ p₂ ++ es), p.1.Allowed p.2) :
    answers RTPInternalSourceData.perform (.init .probationStore) (opening n p₀ p₁ p₂ ++ es) =
      answers SourceStream.perform (.start n) (opening n p₀ p₁ p₂ ++ es) :=
  (simulates hn p₀ p₁ p₂ hes).1

/-- A packet that is parsed. -/
def parsedSample : ParsedPacket := ⟨unmixedPacket, mixedFields 0⟩

/-- Two packets that change places over the end of a cycle, and one that comes twice. -/
def swappedPackets : List QueueEvent :=
  [.arrives 65535 parsedSample, .arrives 65537 parsedSample, .arrives 65536 parsedSample,
    .arrives 65536 parsedSample, .next, .next, .next, .next, .next, .next, .next]

theorem answers_reordered : answers SourceStream.perform (.start 65532)
    (opening 65532 parsedSample parsedSample parsedSample ++ swappedPackets) =
    [.stored true, .stored true, .stored true, .stored true, .stored true, .stored true,
      .stored false] ++
    ([65532, 65533, 65534, 65535, 65536, 65537].map fun n =>
      .packet (some (parsedSample.setExtendedSequenceNumber n))) ++ [.packet none] :=
  (answers_eq_reorder (by decide) parsedSample parsedSample parsedSample
    (by simp [trace, opening, swappedPackets, SourceStream.start, SourceStream.Allowed,
      InReach])).symm.trans rfl

/-- A source that starts on the last number of a cycle: the packets of its probation are put
behind those of the next cycle. -/
example : answers RTPInternalSourceData.perform (.init .probationStore)
    (opening 65535 parsedSample parsedSample parsedSample ++ [.next, .next, .next]) =
    [.stored true, .stored true, .stored true] ++ [0, 1, 65535].map fun n =>
      .packet (some (parsedSample.setExtendedSequenceNumber n)) := rfl

end Jrtplib4Android
