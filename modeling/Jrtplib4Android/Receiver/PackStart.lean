import Jrtplib4Android.Receiver.Accesses

/-!
# What the pending bytes begin with

The demuxer takes a pack header for granted, so the pending bytes have to begin with one.
Reassembly restores this when it moves a pack to the front of the buffer, but not when it
puts the first payload into an empty one.
-/

namespace Jrtplib4Android

open CSem

namespace Reassembly

variable {s : Reassembly} {packet : RTPPacket}

/-- A packet without payload changes nothing that is pending. -/
theorem step_skipped (h : s.Bounded) (hempty : packet.payload = []) :
    step (some s) packet =
      some ⟨s.receiver.count packet.seqnr, s.globals, s.contributed⟩ := by
  simp only [step, Option.bind_some, processRtpPacket_eq s.receiver h.size, if_pos hempty]
  rfl

/-- A packet that does not fit drops what is pending. -/
theorem step_overflow (h : s.Bounded) (hempty : packet.payload ≠ [])
    (hfull : ¬ s.globals.psLen + packet.payload.length < psBufSize) :
    step (some s) packet =
      some ⟨s.receiver.count packet.seqnr, { s.globals with psLen := 0 }, none⟩ := by
  simp only [step, Option.bind_some, processRtpPacket_eq s.receiver h.size, if_neg hempty,
    if_pos hfull]
  rfl

/-- A packet that is not found to start a pack joins what is pending. -/
theorem step_stored (h : s.Bounded) (htakes : s.globals.Takes packet) {isStart : Bool}
    (hstart : (s.globals.appended packet).startsWith s.globals.psLen [0, 0, 1, 0xba] = .ok isStart)
    (hnot : ¬ (s.globals.Finds packet ∧ 0 < s.globals.psLen)) :
    step (some s) packet = some ⟨s.receiver.count packet.seqnr,
      { s.globals with
        psBuf := s.globals.appended packet
        psLen := s.globals.psLen + packet.payload.length }, some packet.hasmarker⟩ := by
  have hcond : ¬ (isStart && decide (0 < s.globals.psLen)) = true := by
    intro hboth
    obtain ⟨rfl, hpending⟩ := Bool.and_eq_true_iff.mp hboth
    exact hnot ⟨hstart, of_decide_eq_true hpending⟩
  simp only [step, Option.bind_some, processRtpPacket_eq s.receiver h.size, if_neg htakes.1,
    if_neg (not_not.mpr htakes.2), hstart, bind, Except.bind, if_neg hcond]
  rfl

/-- A packet that is found to start a pack takes the place of what is pending. -/
theorem step_flushed (h : s.Bounded) (htakes : s.globals.Takes packet)
    (hfinds : s.globals.Finds packet) (hpending : 0 < s.globals.psLen)
    {out : Int × Block}
    (hdemux : getH246FromPs (s.globals.appended packet) s.globals.psLen s.globals.h264buf =
      .ok out) :
    step (some s) packet = some ⟨s.receiver.count packet.seqnr,
      ⟨(s.globals.appended packet).copy 0 (s.globals.appended packet) s.globals.psLen
        packet.payload.length, packet.payload.length, out.2, out.1⟩, some packet.hasmarker⟩ := by
  have hcond : (true && decide (0 < s.globals.psLen)) = true := by simp [hpending]
  rw [PsGlobals.Finds] at hfinds
  simp only [step, Option.bind_some, processRtpPacket_eq s.receiver h.size, if_neg htakes.1,
    if_neg (not_not.mpr htakes.2), hfinds, bind, Except.bind, if_pos hcond, hdemux]
  rfl

/-- A test that leaves the buffer ends the run. -/
theorem step_testFault (h : s.Bounded) (htakes : s.globals.Takes packet) {fault : Fault}
    (hstart : (s.globals.appended packet).startsWith s.globals.psLen [0, 0, 1, 0xba] =
      .error fault) : step (some s) packet = none := by
  simp only [step, Option.bind_some, processRtpPacket_eq s.receiver h.size, if_neg htakes.1,
    if_neg (not_not.mpr htakes.2), hstart, bind, Except.bind]

/-- So does a pack that cannot be demuxed. -/
theorem step_demuxFault (h : s.Bounded) (htakes : s.globals.Takes packet)
    (hfinds : s.globals.Finds packet) (hpending : 0 < s.globals.psLen) {fault : Fault}
    (hdemux : getH246FromPs (s.globals.appended packet) s.globals.psLen s.globals.h264buf =
      .error fault) : step (some s) packet = none := by
  have hcond : (true && decide (0 < s.globals.psLen)) = true := by simp [hpending]
  rw [PsGlobals.Finds] at hfinds
  simp only [step, Option.bind_some, processRtpPacket_eq s.receiver h.size, if_neg htakes.1,
    if_neg (not_not.mpr htakes.2), hfinds, bind, Except.bind, if_pos hcond, hdemux]

end Reassembly

namespace PsGlobals

/-- The pending bytes, if there are any, begin with a pack start code. -/
def BeginsPack (g : PsGlobals) : Prop :=
  0 < g.psLen → [0, 0, 1, 0xba] <+: g.psBuf.slice 0 g.psLen

/-- A payload that comes first starts a pack, and one that is moved to the front holds the
whole start code itself. -/
structure Resyncs (g : PsGlobals) (packet : RTPPacket) : Prop where
  first : g.Takes packet → g.psLen = 0 → packet.StartsPack
  whole : g.Takes packet → 0 < g.psLen → g.Finds packet → g.Demuxes packet →
    4 ≤ packet.payload.length

variable {g : PsGlobals} {packet : RTPPacket}

/-- A packet that leaves the buffer alone cannot lose the start code. -/
theorem resyncs_of_not_takes (h : ¬ g.Takes packet) : g.Resyncs packet :=
  ⟨fun htakes => absurd htakes h, fun htakes => absurd htakes h⟩

end PsGlobals

namespace Reassembly

variable {s : Reassembly} {packet : RTPPacket}

/-- A packet that is not taken leaves the pending bytes alone, or leaves none. -/
theorem beginsPack_step_of_not_takes (h : s.Bounded) (hbegins : s.globals.BeginsPack)
    (htakes : ¬ s.globals.Takes packet) : ∀ t ∈ step (some s) packet, t.globals.BeginsPack := by
  by_cases hempty : packet.payload = []
  · rw [step_skipped h hempty]
    rintro t ⟨⟩
    exact hbegins
  · rw [step_overflow h hempty fun hfit => htakes ⟨hempty, hfit⟩]
    rintro t ⟨⟩ hpos
    exact absurd hpos (Nat.lt_irrefl 0)

/-- Where a pack is handed over, the payload that is moved to the front is to hold the whole
start code. -/
theorem beginsPack_step_flush_iff (h : s.Bounded) (htakes : s.globals.Takes packet)
    (hfinds : s.globals.Finds packet) (hpending : 0 < s.globals.psLen) :
    (∀ t ∈ step (some s) packet, t.globals.BeginsPack) ↔ s.globals.Resyncs packet := by
  have hpos := List.length_pos_iff.mpr htakes.1
  cases hdemux : getH246FromPs (s.globals.appended packet) s.globals.psLen s.globals.h264buf with
  | error fault =>
    rw [step_demuxFault h htakes hfinds hpending hdemux]
    refine iff_of_true (by rintro t ⟨⟩) ⟨fun _ hnone => ?_, fun _ _ _ hdemuxes => ?_⟩
    · exact absurd hnone (Nat.ne_of_gt hpending)
    · obtain ⟨out, hout⟩ := hdemuxes
      rw [hdemux] at hout
      cases hout
  | ok out =>
    rw [step_flushed h htakes hfinds hpending hdemux]
    constructor
    · intro hnext
      have hstarts := hnext _ rfl hpos
      rw [PsGlobals.slice_moved] at hstarts
      exact ⟨fun _ hnone => absurd hnone (Nat.ne_of_gt hpending),
        fun _ _ _ _ => hstarts.length_le⟩
    · rintro ⟨-, hwhole⟩ t ⟨⟩ -
      have hfour := hwhole htakes hpending hfinds ⟨out, hdemux⟩
      change _ <+: Block.slice _ 0 packet.payload.length
      rw [PsGlobals.slice_moved]
      exact (PsGlobals.finds_iff h.size htakes hfour).mp hfinds

/-- A payload that is kept behind pending bytes leaves their start code where it is; one that
comes first is to start a pack. -/
theorem beginsPack_step_stored_iff (h : s.Bounded) (hbegins : s.globals.BeginsPack)
    (htakes : s.globals.Takes packet)
    (hflush : ¬ (s.globals.Finds packet ∧ 0 < s.globals.psLen)) {isStart : Bool}
    (hstart : (s.globals.appended packet).startsWith s.globals.psLen [0, 0, 1, 0xba] =
      .ok isStart) :
    (∀ t ∈ step (some s) packet, t.globals.BeginsPack) ↔ s.globals.Resyncs packet := by
  have hpos := List.length_pos_iff.mpr htakes.1
  have hall := PsGlobals.slice_appended_all (g := s.globals) packet
  rw [step_stored h htakes hstart hflush]
  rcases Nat.eq_zero_or_pos s.globals.psLen with hnone | hpending
  · have hfirst : s.globals.psBuf.slice 0 s.globals.psLen = [] := by
      rw [hnone, Block.slice_zero]
    rw [hfirst, List.nil_append] at hall
    constructor
    · intro hnext
      have hstarts := hnext _ rfl (Nat.add_pos_right _ hpos)
      rw [hall] at hstarts
      exact ⟨fun _ _ => hstarts, fun _ hpending => absurd hnone (Nat.ne_of_gt hpending)⟩
    · rintro ⟨hfirst, -⟩ t ⟨⟩ -
      change _ <+: Block.slice _ 0 (s.globals.psLen + packet.payload.length)
      rw [hall]
      exact hfirst htakes hnone
  · refine iff_of_true ?_ ⟨fun _ hnone => ?_, fun _ _ hfinds => ?_⟩
    · rintro t ⟨⟩ -
      change _ <+: Block.slice _ 0 (s.globals.psLen + packet.payload.length)
      rw [hall]
      exact (hbegins hpending).trans (List.prefix_append _ _)
    · exact absurd hnone (Nat.ne_of_gt hpending)
    · exact absurd ⟨hfinds, hpending⟩ hflush

/-- A step from pending bytes that begin with a start code leads to such bytes exactly if its
packet resynchronises. -/
theorem beginsPack_step_iff (h : s.Bounded) (hbegins : s.globals.BeginsPack) :
    (∀ t ∈ step (some s) packet, t.globals.BeginsPack) ↔ s.globals.Resyncs packet := by
  by_cases htakes : s.globals.Takes packet
  swap
  · exact iff_of_true (beginsPack_step_of_not_takes h hbegins htakes)
      (PsGlobals.resyncs_of_not_takes htakes)
  by_cases hflush : s.globals.Finds packet ∧ 0 < s.globals.psLen
  · exact beginsPack_step_flush_iff h htakes hflush.1 hflush.2
  cases hstart : (s.globals.appended packet).startsWith s.globals.psLen [0, 0, 1, 0xba] with
  | ok isStart => exact beginsPack_step_stored_iff h hbegins htakes hflush hstart
  | error fault =>
    -- the test leaves `psBuf`, which takes pending bytes
    rw [step_testFault h htakes hstart]
    refine iff_of_true (by rintro t ⟨⟩) ⟨fun _ hnone => ?_, fun _ _ hfinds => ?_⟩
    · have hroom : s.globals.psLen + ([0, 0, 1, 0xba] : List UInt8).length ≤
          (s.globals.appended packet).size := by
        change s.globals.psLen + 4 ≤ s.globals.psBuf.size
        rw [h.size, hnone]
        decide
      rw [Block.startsWith_eq hroom] at hstart
      cases hstart
    · rw [PsGlobals.Finds, hstart] at hfinds
      cases hfinds

/-- In a run that starts with nothing pending, the pending bytes begin with a pack start code
throughout exactly if every packet resynchronises. -/
theorem beginsPack_run_iff (s : Reassembly) (h : s.Bounded) (hnone : s.globals.psLen = 0)
    (packets : List RTPPacket) :
    (∀ n, ∀ t ∈ after step (some s) (packets.take n), t.globals.BeginsPack) ↔
      ∀ p ∈ trace step (some s) packets, ∀ t ∈ p.1, t.globals.Resyncs p.2 := by
  refine forall_take_iff (J := fun s : Option Reassembly => ∀ t ∈ s, t.Bounded)
    (I := fun s : Option Reassembly => ∀ t ∈ s, t.globals.BeginsPack)
    (A := fun _ _ => True)
    (G := fun (s : Option Reassembly) packet => ∀ t ∈ s, t.globals.Resyncs packet)
    ?_ ?_ (fun _ _ => trivial) (fun s packet hs _ => bounded_step hs packet) ?_
  · rintro t ⟨⟩
    exact h
  · rintro t ⟨⟩ hpending
    exact absurd hnone (Nat.ne_of_gt hpending)
  · intro s packet hbounded hbegins _
    cases s with
    | none => exact iff_of_true (by rintro t ⟨⟩) (by rintro t ⟨⟩)
    | some s =>
      rw [beginsPack_step_iff (hbounded s rfl) (hbegins s rfl)]
      exact ⟨fun hresyncs t ht => by cases ht; exact hresyncs, fun hall => hall s rfl⟩

/-- A run that begins with the first packet of a pack. -/
theorem beginsPack_firstPacket :
    ∃ t, after step (some fresh) [twoPacketPack.first] = some t ∧ t.globals.BeginsPack := by
  have hafter : (after step (some fresh) [twoPacketPack.first]).isSome = true := by decide +kernel
  obtain ⟨t, ht⟩ := Option.isSome_iff_exists.mp hafter
  refine ⟨t, ht, (beginsPack_run_iff fresh bounded_fresh rfl [twoPacketPack.first]).mpr ?_ 1 t ht⟩
  simp only [forall_trace_cons, forall_trace_nil, and_true]
  rintro t ⟨⟩
  refine ⟨fun _ _ => by decide, fun _ hpending => ?_⟩
  exact absurd hpending (Nat.lt_irrefl 0)

/-- A receiver that joins in the middle of a pack keeps what it gets and later has it demuxed
as a pack. -/
theorem not_beginsPack_midStream :
    ¬ ∀ n, ∀ t ∈ after step (some fresh) ([plainPacket [1, 2, 3, 4] (by decide)].take n),
      t.globals.BeginsPack := by
  intro h
  have hmiddle : (after step (some fresh)
      ([plainPacket [1, 2, 3, 4] (by decide)].take 1)).map (fun t =>
        (t.globals.psLen, t.globals.psBuf.slice 0 t.globals.psLen)) = some (4, [1, 2, 3, 4]) := by
    decide +kernel
  obtain ⟨t, ht, hpending⟩ := Option.map_eq_some_iff.mp hmiddle
  obtain ⟨hpsLen, hslice⟩ := Prod.mk.inj hpending
  have hstarts := h 1 t ht (by rw [hpsLen]; decide)
  rw [hslice] at hstarts
  exact absurd hstarts (by decide)

end Reassembly

end Jrtplib4Android
