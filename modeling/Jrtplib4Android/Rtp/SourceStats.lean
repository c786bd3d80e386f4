import Mathlib.Algebra.Group.Nat.Even
import Jrtplib4Android.Core.Run

/-!
# Statistics of a source

`RTPSourceStats::ProcessPacket` decides whether a packet of a source is accepted and widens
its 16 bit sequence number to 32 bits. A source that numbers its packets on from some start
sends the number of a packet modulo `2 ^ 16`; `numbers_kept_iff` says in which runs all numbers
come back.
-/

namespace Jrtplib4Android

/-- `RTP_PROBATIONCOUNT`. -/
def rtpProbationCount : Int := 2

/-- `RTPSourceStats`, without its times and its jitter. -/
structure RTPSourceStats where
  sentdata : Bool
  packetsreceived : UInt32
  /-- Shifted left by 16 bits. -/
  numcycles : UInt32
  baseseqnr : UInt32
  exthighseqnr : UInt32
  prevexthighseqnr : UInt32
  numnewpackets : UInt32
  savedextseqnr : UInt32
  prevseqnr : UInt16
  probation : Int

namespace RTPSourceStats

/-- The constructor. -/
def init : RTPSourceStats where
  sentdata := false
  packetsreceived := 0
  numcycles := 0
  baseseqnr := 0
  exthighseqnr := 0
  prevexthighseqnr := 0
  numnewpackets := 0
  savedextseqnr := 0
  prevseqnr := 0
  probation := 0

/-- What `ProcessPacket` leaves behind: the members, the sequence number that the packet is
given, and the two flags. -/
structure Processed where
  stats : RTPSourceStats
  extseqnr : UInt32
  accept : Bool
  onprobation : Bool

/-- `ACCEPTPACKETCODE`. -/
def acceptPacket (s : RTPSourceStats) (seqnr : UInt32) : Processed :=
  -- Number 0 begins the second cycle, so that what probation stored of the first one is
  -- in front of it.
  let baseseqnr := if seqnr = 0 then 0x0000FFFF else seqnr - 1
  { stats := { s with
      sentdata := true
      packetsreceived := s.packetsreceived + 1
      numnewpackets := s.numnewpackets + 1
      numcycles := if seqnr = 0 then 0x00010000 else s.numcycles
      baseseqnr
      exthighseqnr := baseseqnr + 1
      prevexthighseqnr := baseseqnr
      savedextseqnr := baseseqnr }
    extseqnr := baseseqnr + 1
    accept := true
    onprobation := false }

/-- A packet that does not end the probation. -/
def hold (s : RTPSourceStats) (seqnr : UInt32) (probation : Int) : Processed where
  stats := { s with probation, prevseqnr := seqnr.toUInt16 }
  extseqnr := seqnr
  accept := false
  onprobation := true

/-- The branch of `ProcessPacket` for a source on probation. -/
def processOnProbation (s : RTPSourceStats) (seqnr : UInt32) : Processed :=
  if s.probation ≠ 0 then
    if (s.prevseqnr + 1).toUInt32 = seqnr then
      if s.probation - 1 = 0 then
        { s with probation := s.probation - 1, prevseqnr := seqnr.toUInt16 }.acceptPacket seqnr
      else s.hold seqnr (s.probation - 1)
    else s.hold seqnr rtpProbationCount
  else s.hold seqnr rtpProbationCount

/-- What `ProcessPacket` sets for a packet of a source that has sent data. -/
def counted (s : RTPSourceStats) (numcycles exthighseqnr extseqnr : UInt32) : Processed where
  stats := { s with
    packetsreceived := s.packetsreceived + 1
    numnewpackets := s.numnewpackets + 1
    numcycles
    exthighseqnr }
  extseqnr
  accept := true
  onprobation := false

/-- The branch of `ProcessPacket` for a source that has sent data. -/
def processSent (s : RTPSourceStats) (seqnr : UInt32) : Processed :=
  let maxseq16 := (s.exthighseqnr &&& 0x0000FFFF).toUInt16
  if maxseq16.toUInt32 ≤ seqnr then
    s.counted s.numcycles (s.numcycles + seqnr) (s.numcycles + seqnr)
  else
    let dif1 := seqnr.toUInt16 - maxseq16
    let dif2 := maxseq16 - seqnr.toUInt16
    if dif1 < dif2 then
      let numcycles := s.numcycles + 0x00010000
      s.counted numcycles (numcycles + seqnr) (numcycles + seqnr)
    else s.counted s.numcycles s.exthighseqnr (s.numcycles + seqnr)

/-- `ProcessPacket` for a packet with the sequence number `seqnr`. -/
def processPacket (s : RTPSourceStats) (seqnr : UInt32) (applyprobation : Bool) : Processed :=
  if s.sentdata then s.processSent seqnr
  else if applyprobation then s.processOnProbation seqnr
  else s.acceptPacket seqnr

/-- The highest number so far is `high`, and the cycles are those of that number. -/
structure Reached (s : RTPSourceStats) (high : Nat) : Prop where
  sentdata : s.sentdata = true
  exthighseqnr : s.exthighseqnr.toNat = high
  numcycles : s.numcycles.toNat = high / 2 ^ 16 * 2 ^ 16

/-- A packet number is in reach of the highest one: it is of the same cycle and not more than
half a cycle behind, or of the next cycle and less than half a cycle ahead. -/
def InReach (high n : Nat) : Prop :=
  n / 2 ^ 16 = high / 2 ^ 16 ∧ high ≤ n + 2 ^ 15 ∨
    n / 2 ^ 16 = high / 2 ^ 16 + 1 ∧ n < high + 2 ^ 15

instance (high n : Nat) : Decidable (InReach high n) :=
  inferInstanceAs (Decidable (_ ∨ _))

variable {s : RTPSourceStats} {high n : Nat}

theorem toNat_maxseq16 (h : s.Reached high) :
    (s.exthighseqnr &&& 0x0000FFFF).toUInt16.toNat = high % 2 ^ 16 := by
  rw [UInt32.toNat_toUInt16, UInt32.toNat_and, h.exthighseqnr]
  change (high &&& 2 ^ 16 - 1) % 2 ^ 16 = _
  rw [Nat.and_two_pow_sub_one_eq_mod, Nat.mod_mod]

theorem Reached.high_lt (h : s.Reached high) : high < 2 ^ 32 := by
  rw [← h.exthighseqnr]
  exact s.exthighseqnr.toNat_lt

/-- The sequence number that is sent with packet number `n`. -/
def wireNumber (n : Nat) : UInt32 := .ofNat (n % 2 ^ 16)

@[simp] theorem toNat_wireNumber : (wireNumber n).toNat = n % 2 ^ 16 := by
  rw [wireNumber, UInt32.toNat_ofNat']
  omega

/-- A number is put together from its cycle and the number sent with it. -/
theorem toNat_add_wireNumber {cycles : UInt32} {c : Nat} (hc : cycles.toNat = c * 2 ^ 16) :
    (cycles + wireNumber n).toNat = c * 2 ^ 16 + n % 2 ^ 16 := by
  have hlt := cycles.toNat_lt
  rw [UInt32.toNat_add, toNat_wireNumber, hc]
  omega

/-- The two comparisons, on the numbers sent. -/
theorem processSent_eq (h : s.Reached high) : s.processSent (wireNumber n) =
    if high % 2 ^ 16 ≤ n % 2 ^ 16 then
      s.counted s.numcycles (s.numcycles + wireNumber n) (s.numcycles + wireNumber n)
    else if n % 2 ^ 16 + 2 ^ 15 < high % 2 ^ 16 then
      s.counted (s.numcycles + 0x00010000) (s.numcycles + 0x00010000 + wireNumber n)
        (s.numcycles + 0x00010000 + wireNumber n)
    else s.counted s.numcycles s.exthighseqnr (s.numcycles + wireNumber n) := by
  have hmax := toNat_maxseq16 h
  rw [processSent]
  generalize (s.exthighseqnr &&& 0x0000FFFF).toUInt16 = maxseq16 at hmax ⊢
  have hwire : (wireNumber n).toUInt16.toNat = n % 2 ^ 16 := by
    rw [UInt32.toNat_toUInt16, toNat_wireNumber, Nat.mod_mod]
  have hle : maxseq16.toUInt32 ≤ wireNumber n ↔ high % 2 ^ 16 ≤ n % 2 ^ 16 := by
    rw [UInt32.le_iff_toNat_le, UInt16.toNat_toUInt32, hmax, toNat_wireNumber]
  dsimp only
  by_cases hlate : high % 2 ^ 16 ≤ n % 2 ^ 16
  · rw [if_pos (hle.mpr hlate), if_pos hlate]
  · rw [if_neg (hle.not.mpr hlate), if_neg hlate]
    refine if_congr ?_ rfl rfl
    rw [UInt16.lt_iff_toNat_lt, UInt16.toNat_sub, UInt16.toNat_sub, hmax, hwire]
    omega

/-- A source that has sent data is not put on probation again. -/
theorem accept_processSent (seqnr : UInt32) : (s.processSent seqnr).accept = true := by
  rw [processSent]
  dsimp only
  split
  · rfl
  · split <;> rfl

/-- A packet in reach keeps its number, and the highest one is told apart. -/
theorem processSent_of_inReach (h : s.Reached high) (hn : n < 2 ^ 32) (hreach : InReach high n) :
    (s.processSent (wireNumber n)).extseqnr = .ofNat n ∧
      (s.processSent (wireNumber n)).stats.Reached (max high n) := by
  have hcycles := h.numcycles
  have hhigh := h.high_lt
  have hnumber : (UInt32.ofNat n).toNat = n := UInt32.toNat_ofNat_of_lt' hn
  rw [processSent_eq h]
  split
  next hle =>
    -- The same cycle: a packet of the next one is more than half a cycle behind.
    have hsame : n / 2 ^ 16 = high / 2 ^ 16 := by
      rcases hreach with hreach | hreach
      · exact hreach.1
      · omega
    have hext : (s.numcycles + wireNumber n).toNat = n := by
      rw [toNat_add_wireNumber hcycles]
      omega
    refine ⟨UInt32.toNat_inj.mp (hext.trans hnumber.symm), h.sentdata, ?_, ?_⟩
    · exact hext.trans (by omega)
    · exact hcycles.trans (by omega)
  next hle =>
    split
    next hwrap =>
      have hnext : n / 2 ^ 16 = high / 2 ^ 16 + 1 := by
        rcases hreach with hreach | hreach
        · omega
        · exact hreach.1
      have hcycles' : (s.numcycles + 0x00010000).toNat = n / 2 ^ 16 * 2 ^ 16 := by
        rw [UInt32.toNat_add, hcycles, hnext]
        change (_ + 65536) % _ = _
        omega
      have hext : (s.numcycles + 0x00010000 + wireNumber n).toNat = n := by
        rw [toNat_add_wireNumber hcycles']
        omega
      refine ⟨UInt32.toNat_inj.mp (hext.trans hnumber.symm), h.sentdata, ?_, ?_⟩
      · exact hext.trans (by omega)
      · exact hcycles'.trans (by omega)
    next hwrap =>
      have hsame : n / 2 ^ 16 = high / 2 ^ 16 := by
        rcases hreach with hreach | hreach
        · exact hreach.1
        · omega
      have hext : (s.numcycles + wireNumber n).toNat = n := by
        rw [toNat_add_wireNumber hcycles]
        omega
      refine ⟨UInt32.toNat_inj.mp (hext.trans hnumber.symm), h.sentdata, ?_, ?_⟩
      · exact h.exthighseqnr.trans (by omega)
      · exact hcycles.trans (by omega)

/-- A packet that is given its number was in reach, with a cycle left to count. -/
theorem inReach_of_processSent (h : s.Reached high) (hroom : high < 2 ^ 32 - 2 ^ 16)
    (hn : n < 2 ^ 32) (hext : (s.processSent (wireNumber n)).extseqnr = .ofNat n) :
    InReach high n := by
  have hcycles := h.numcycles
  have hnumber := congrArg UInt32.toNat hext
  rw [UInt32.toNat_ofNat_of_lt' hn, processSent_eq h] at hnumber
  split at hnumber
  next hle =>
    have hext := (toNat_add_wireNumber hcycles).symm.trans hnumber
    exact Or.inl (by omega)
  next hle =>
    split at hnumber
    next hwrap =>
      have hcycles' : (s.numcycles + 0x00010000).toNat = (high / 2 ^ 16 + 1) * 2 ^ 16 := by
        rw [UInt32.toNat_add, hcycles]
        change (_ + 65536) % _ = _
        omega
      have hext := (toNat_add_wireNumber hcycles').symm.trans hnumber
      exact Or.inr (by omega)
    next hwrap =>
      have hext := (toNat_add_wireNumber hcycles).symm.trans hnumber
      exact Or.inl (by omega)

/-- The first packet that is accepted sets the highest number. -/
theorem acceptPacket_reached (hcycles : s.numcycles = 0) (hpos : 0 < n) (hn : n ≤ 2 ^ 16) :
    (s.acceptPacket (wireNumber n)).extseqnr = .ofNat n ∧
      (s.acceptPacket (wireNumber n)).stats.Reached n := by
  have hnumber : (UInt32.ofNat n).toNat = n :=
    UInt32.toNat_ofNat_of_lt' (Nat.lt_of_le_of_lt hn (by decide))
  have hzero : wireNumber n = 0 ↔ n = 2 ^ 16 := by
    rw [← UInt32.toNat_inj, toNat_wireNumber]
    change n % 2 ^ 16 = 0 ↔ _
    omega
  by_cases hlast : n = 2 ^ 16
  · rw [acceptPacket, if_pos (hzero.mpr hlast), if_pos (hzero.mpr hlast)]
    subst hlast
    exact ⟨rfl, rfl, rfl, rfl⟩
  · rw [acceptPacket, if_neg (hzero.not.mpr hlast), if_neg (hzero.not.mpr hlast)]
    have hext : (wireNumber n - 1 + 1).toNat = n := by
      rw [UInt32.sub_add_cancel, toNat_wireNumber]
      omega
    refine ⟨UInt32.toNat_inj.mp (hext.trans hnumber.symm), rfl, hext, ?_⟩
    change s.numcycles.toNat = _
    rw [hcycles]
    change 0 = _
    omega

/-- Before the first packet is accepted, a packet is held back or is that one. -/
theorem processPacket_cases (h : s.sentdata = false) (seqnr : UInt32) (applyprobation : Bool) :
    (s.processPacket seqnr applyprobation).accept = false ∧
        (s.processPacket seqnr applyprobation).stats.sentdata = false ∧
        (s.processPacket seqnr applyprobation).stats.numcycles = s.numcycles ∨
      ∃ s' : RTPSourceStats, s'.numcycles = s.numcycles ∧
        s.processPacket seqnr applyprobation = s'.acceptPacket seqnr := by
  rw [processPacket, h, if_neg Bool.false_ne_true]
  split
  case isFalse => exact .inr ⟨s, rfl, rfl⟩
  case isTrue =>
    rw [processOnProbation]
    split
    case isFalse => exact .inl ⟨rfl, h, rfl⟩
    split
    case isFalse => exact .inl ⟨rfl, h, rfl⟩
    split
    case isTrue =>
      exact .inr ⟨{ s with probation := s.probation - 1, prevseqnr := seqnr.toUInt16 }, rfl, rfl⟩
    case isFalse => exact .inl ⟨rfl, h, rfl⟩

/-- A source that has sent data stays one. -/
theorem sentdata_processPacket (h : s.sentdata = true) (seqnr : UInt32) (applyprobation : Bool) :
    (s.processPacket seqnr applyprobation).stats.sentdata = true := by
  rw [processPacket, if_pos h, processSent]
  dsimp only
  split
  · exact h
  · split <;> exact h

/-- A packet of a sender, under its number, and whether probation applies to its source. -/
structure NumberedPacket where
  number : Nat
  applyprobation : Bool

/-- What is made of a packet. -/
def process (s : RTPSourceStats) (p : NumberedPacket) : Processed :=
  s.processPacket (wireNumber p.number) p.applyprobation

/-- The statistics of a new source behind some packets. -/
def behind (front : List NumberedPacket) : RTPSourceStats :=
  CSem.after (fun s p => (s.process p).stats) init front

/-- Before the first packet is accepted, no cycle is counted. -/
theorem numcycles_behind {front : List NumberedPacket} (h : (behind front).sentdata = false) :
    (behind front).numcycles = 0 := by
  refine CSem.after_invariant
    (I := fun s : RTPSourceStats => s.sentdata = false → s.numcycles = 0)
    (fun _ => rfl) (fun p _ hp hnext => ?_) h
  cases hsent : p.1.sentdata with
  | true => exact absurd (hnext.symm.trans (sentdata_processPacket hsent _ _)) Bool.false_ne_true
  | false =>
    rcases processPacket_cases hsent (wireNumber p.2.number) p.2.applyprobation with
      ⟨-, -, hcycles⟩ | ⟨s', -, haccept⟩
    · exact hcycles.trans (hp hsent)
    · rw [process, haccept] at hnext
      cases hnext

/-- The statistics of a source, and the highest packet number so far. -/
structure Numbering where
  stats : RTPSourceStats
  high : Nat

namespace Numbering

def step (x : Numbering) (p : NumberedPacket) : Numbering :=
  ⟨(x.stats.process p).stats, max x.high p.number⟩

/-- A source behind the packet that is accepted first, which others may come before. -/
def start (front : List NumberedPacket) (first : NumberedPacket) : Numbering :=
  ⟨((behind front).process first).stats, first.number⟩

end Numbering

/-- The first packet that is accepted, with probation or without, sets the highest number. -/
theorem start_reached {front : List NumberedPacket} {first : NumberedPacket}
    (hwaiting : (behind front).sentdata = false)
    (haccept : ((behind front).process first).accept = true) (hpos : 0 < first.number)
    (hfirst : first.number ≤ 2 ^ 16) :
    (Numbering.start front first).stats.Reached first.number := by
  rw [process] at haccept
  rw [Numbering.start, process]
  rcases processPacket_cases hwaiting (wireNumber first.number) first.applyprobation with
    ⟨hhold, -⟩ | ⟨s', hcycles, heq⟩
  · exact absurd (hhold.symm.trans haccept) Bool.false_ne_true
  · rw [heq]
    exact (acceptPacket_reached (hcycles.trans (numcycles_behind hwaiting)) hpos hfirst).2

/-- The numbers that the statistics give to the packets of a source are the numbers of these
packets exactly as long as each of them is in reach of the highest one before. A packet that is
late over the end of a cycle is not: it is taken for one of the cycle that has begun. The packet
that is accepted first ends the probation of the source, or there is none, and the numbers are
counted so that it has one of the first cycle, or begins the second. -/
theorem numbers_kept_iff {front ps : List NumberedPacket} {first : NumberedPacket}
    (hwaiting : (behind front).sentdata = false)
    (haccept : ((behind front).process first).accept = true) (hpos : 0 < first.number)
    (hfirst : first.number ≤ 2 ^ 16) (hps : ∀ p ∈ ps, p.number < 2 ^ 32 - 2 ^ 16) :
    (∀ q ∈ CSem.trace Numbering.step (.start front first) ps,
        (q.1.stats.process q.2).extseqnr = .ofNat q.2.number) ↔
      ∀ q ∈ CSem.trace Numbering.step (.start front first) ps, InReach q.1.high q.2.number := by
  refine CSem.forall_trace_congr
    (J := fun x : Numbering => x.stats.Reached x.high ∧ x.high < 2 ^ 32 - 2 ^ 16)
    (A := fun _ p => p.number < 2 ^ 32 - 2 ^ 16)
    (L := fun x p => (x.stats.process p).extseqnr = .ofNat p.number)
    (G := fun x p => InReach x.high p.number)
    ⟨start_reached hwaiting haccept hpos hfirst, by simp only [Numbering.start]; omega⟩
    (CSem.forall_trace_iff.mpr hps) ?_ ?_
  · rintro x p ⟨hreached, hroom⟩ hp hreach
    have hsent : x.stats.process p = x.stats.processSent (wireNumber p.number) :=
      if_pos hreached.sentdata
    rw [Numbering.step, hsent]
    exact ⟨(processSent_of_inReach hreached (by omega) hreach).2, by simp only; omega⟩
  · rintro x p ⟨hreached, hroom⟩ hp
    have hsent : x.stats.process p = x.stats.processSent (wireNumber p.number) :=
      if_pos hreached.sentdata
    rw [hsent]
    exact ⟨inReach_of_processSent hreached hroom (by omega),
      fun hreach => (processSent_of_inReach hreached (by omega) hreach).1⟩

/-- The packets with some numbers. -/
def numbered (applyprobation : Bool) (ns : List Nat) : List NumberedPacket :=
  ns.map fun n => ⟨n, applyprobation⟩

/-- Two packets that change places within a cycle, behind a probation, and two that do so over
the end of a cycle, without one. -/
theorem numbers_kept_sample :
    (∀ q ∈ CSem.trace Numbering.step (.start (numbered true [65528, 65529]) ⟨65530, true⟩)
        (numbered false [65532, 65531, 65537]),
      (q.1.stats.process q.2).extseqnr = .ofNat q.2.number) ∧
    ¬ ∀ q ∈ CSem.trace Numbering.step (.start [] ⟨65530, false⟩)
        (numbered false [65537, 65531]),
      (q.1.stats.process q.2).extseqnr = .ofNat q.2.number :=
  ⟨(numbers_kept_iff rfl rfl (by decide) (by decide) (by decide)).mpr (by decide),
    fun h => absurd ((numbers_kept_iff rfl rfl (by decide) (by decide) (by decide)).mp h)
      (by decide)⟩

end RTPSourceStats

end Jrtplib4Android
