import Jrtplib4Android.Core.Logged
import Jrtplib4Android.Core.Run
import Jrtplib4Android.Receiver.Stop

/-!
# The accesses of reassembly

`processRtpPacketLogged` is `processRtpPacket` with its copies and start code tests
logged. The payload is copied behind the pending bytes and, when it starts a pack, from
there to the front of the same buffer. The start code is looked for behind the pending
bytes whatever the size of the payload is.
-/

namespace Jrtplib4Android

open CSem

/-- An access of `processRtpPacket` to a packet or to `psBuf`. -/
inductive Access where
  /-- `memcpy` from the packet to `psBuf`. -/
  | fill (dst src n : Nat)
  /-- `memcpy` inside `psBuf`. -/
  | move (dst src n : Nat)
  /-- A byte of `psBuf` decides whether a pack starts. -/
  | test (i : Nat)
  deriving DecidableEq

/-- `processRtpPacket`, with its accesses. -/
def processRtpPacketLogged (r : CRTPReceiver) (g : PsGlobals) (packet : RTPPacket) :
    Logged Access (CRTPReceiver × PsGlobals × Effect) := do
  let r := r.count packet.seqnr
  let recvLen := packet.packet.length % 2 ^ 16
  if recvLen ≤ rtpHeadLen then return (r, g, .skipped)
  let ptr := g.psLen
  let rtpPsLen := recvLen - rtpHeadLen
  if ¬ g.psLen + rtpPsLen < psBufSize then return (r, { g with psLen := 0 }, .overflow)
  let psBuf ← Logged.access (.fill ptr rtpHeadLen rtpPsLen)
    (memcpy g.psBuf ptr (.ofList packet.packet) (some rtpHeadLen) rtpPsLen)
  let isStart ← psBuf.startsWithLogged .test ptr [0, 0, 1, 0xba]
  if isStart && 0 < g.psLen then
    let (h264length, h264buf) ← Logged.lift (getH246FromPs psBuf g.psLen g.h264buf)
    let frame :=
      if 0 < h264length then some ⟨h264buf.slice 0 h264length.toNat, packet.hasmarker⟩ else none
    let psBuf ← Logged.access (.move 0 ptr rtpPsLen) (memcpy psBuf 0 psBuf (some ptr) rtpPsLen)
    return (r, ⟨psBuf, 0 + rtpPsLen, h264buf, h264length⟩, .flushed frame)
  return (r, { g with psBuf := psBuf, psLen := g.psLen + rtpPsLen }, .stored)

/-- Without its log it is `processRtpPacket`. -/
theorem result_processRtpPacketLogged (r : CRTPReceiver) (g : PsGlobals) (packet : RTPPacket) :
    (processRtpPacketLogged r g packet).result = processRtpPacket r g packet := by
  simp only [processRtpPacketLogged, processRtpPacket, Logged.result_ite, Logged.result_bind,
    Logged.result_access, Logged.result_lift, Logged.result_pure, Block.result_startsWithLogged]
  rfl

namespace PsGlobals

/-- The payload is copied behind the pending bytes. -/
def Takes (g : PsGlobals) (packet : RTPPacket) : Prop :=
  packet.payload ≠ [] ∧ g.psLen + packet.payload.length < psBufSize

/-- Behind the pending bytes the start code is found, in the payload or in what is left
there from before. -/
def Finds (g : PsGlobals) (packet : RTPPacket) : Prop :=
  (g.appended packet).startsWith g.psLen [0, 0, 1, 0xba] = .ok true

/-- The pending bytes can be demuxed. -/
def Demuxes (g : PsGlobals) (packet : RTPPacket) : Prop :=
  ∃ out, getH246FromPs (g.appended packet) g.psLen g.h264buf = .ok out

end PsGlobals

section Log

variable (r : CRTPReceiver) {g : PsGlobals} (packet : RTPPacket)

/-- A packet that is not taken is not touched. -/
theorem log_eq_nil (h : ¬ g.Takes packet) : (processRtpPacketLogged r g packet).log = [] := by
  have hlen : packet.payload.length = packet.packet.length - rtpHeadLen := List.length_drop
  have hmod : packet.packet.length % 2 ^ 16 = packet.packet.length :=
    Nat.mod_eq_of_lt (Nat.lt_succ_of_le packet.length_le)
  unfold processRtpPacketLogged
  simp only [hmod, ← hlen]
  by_cases hempty : packet.payload = []
  · rw [if_pos (List.drop_eq_nil_iff.mp hempty)]
    rfl
  have hpos := List.length_pos_iff.mpr hempty
  have hfull : ¬ g.psLen + packet.payload.length < psBufSize := fun hfit => h ⟨hempty, hfit⟩
  rw [if_neg (by omega : ¬ packet.packet.length ≤ rtpHeadLen), if_pos hfull]
  rfl

/-- A taken packet is copied first; behind that come the tests and the move. -/
theorem log_eq_cons (hsize : g.psBuf.size = psBufSize) (h : g.Takes packet) :
    ∃ rest, (processRtpPacketLogged r g packet).log =
        .fill g.psLen rtpHeadLen packet.payload.length :: rest ∧
      ∀ w, w ∈ rest ↔
        (∃ j, w = .test (g.psLen + j) ∧ j < 4 ∧ g.psLen + j ≤ psBufSize ∧
          (g.appended packet).slice g.psLen j = [0, 0, 1, 0xba].take j) ∨
        w = .move 0 g.psLen packet.payload.length ∧ g.Finds packet ∧ 0 < g.psLen ∧
          g.Demuxes packet := by
  have hlen : packet.payload.length = packet.packet.length - rtpHeadLen := List.length_drop
  have hmod : packet.packet.length % 2 ^ 16 = packet.packet.length :=
    Nat.mod_eq_of_lt (Nat.lt_succ_of_le packet.length_le)
  obtain ⟨hempty, hfit⟩ := h
  have hpos := List.length_pos_iff.mpr hempty
  have happended : (g.appended packet).size = psBufSize := hsize
  have hcopy := PsGlobals.memcpy_appended hsize hempty hfit
  unfold processRtpPacketLogged
  simp only [hmod, ← hlen]
  rw [if_neg (by omega : ¬ packet.packet.length ≤ rtpHeadLen), if_neg (not_not.mpr hfit),
    Logged.log_bind_ok (a := g.appended packet) hcopy, Logged.log_access, List.singleton_append]
  refine ⟨_, rfl, fun w => ?_⟩
  have hstop : g.psLen ≤ (g.appended packet).size := by omega
  have htests := Block.mem_startsWithLogged Access.test hstop [0, 0, 1, 0xba] w
  rw [happended] at htests
  cases hstart : (g.appended packet).startsWith g.psLen [0, 0, 1, 0xba] with
  | error fault =>
    have hfinds : ¬ g.Finds packet := by simp [PsGlobals.Finds, hstart]
    rw [Logged.log_bind_error ((Block.result_startsWithLogged ..).trans hstart), htests]
    simp only [hfinds, false_and, and_false, or_false]
    rfl
  | ok isStart =>
    rw [Logged.log_bind_ok ((Block.result_startsWithLogged ..).trans hstart), List.mem_append,
      htests]
    apply or_congr Iff.rfl
    by_cases hflush : (isStart && decide (0 < g.psLen)) = true
    · obtain ⟨hisStart, hpending⟩ := Bool.and_eq_true_iff.mp hflush
      subst hisStart
      rw [if_pos hflush]
      cases hdemux : getH246FromPs (g.appended packet) g.psLen g.h264buf with
      | error fault =>
        have hdemuxes : ¬ g.Demuxes packet := by simp [PsGlobals.Demuxes, hdemux]
        rw [Logged.log_bind_error (Logged.result_lift _)]
        simp [hdemuxes]
      | ok out =>
        have hmove := PsGlobals.memcpy_moved hsize hfit
        rw [Logged.log_bind_ok (Logged.result_lift _), Logged.log_bind_ok hmove]
        simp [PsGlobals.Finds, PsGlobals.Demuxes, hstart, hdemux, of_decide_eq_true hpending]
    · rw [if_neg hflush]
      have hnot : ¬ (g.Finds packet ∧ 0 < g.psLen) := by
        rintro ⟨hfinds, hpending⟩
        rw [PsGlobals.Finds, hstart] at hfinds
        cases hfinds
        exact hflush (by simp [hpending])
      simp only [Logged.log_pure, List.not_mem_nil, false_iff]
      rintro ⟨-, hfinds, hpending, -⟩
      exact hnot ⟨hfinds, hpending⟩

/-- The accesses of one call. -/
theorem mem_log_iff (hsize : g.psBuf.size = psBufSize) (w : Access) :
    w ∈ (processRtpPacketLogged r g packet).log ↔ g.Takes packet ∧
      (w = .fill g.psLen rtpHeadLen packet.payload.length ∨
        (∃ j, w = .test (g.psLen + j) ∧ j < 4 ∧ g.psLen + j ≤ psBufSize ∧
          (g.appended packet).slice g.psLen j = [0, 0, 1, 0xba].take j) ∨
        w = .move 0 g.psLen packet.payload.length ∧ g.Finds packet ∧ 0 < g.psLen ∧
          g.Demuxes packet) := by
  by_cases htakes : g.Takes packet
  · obtain ⟨rest, hlog, hrest⟩ := log_eq_cons r packet hsize htakes
    rw [hlog, List.mem_cons, hrest w, and_iff_right htakes]
  · rw [log_eq_nil r packet htakes]
    exact iff_of_false List.not_mem_nil fun h => htakes h.1

end Log

/-- An access stays inside its buffers, a copy does not overlap its source, and only bytes of
the payload decide whether a pack starts. -/
def Access.Proper (g : PsGlobals) (packet : RTPPacket) : Access → Prop
  | .fill dst src n => dst + n ≤ g.psBuf.size ∧ src + n ≤ packet.packet.length
  | .move dst src n =>
    dst + n ≤ g.psBuf.size ∧ src + n ≤ g.psBuf.size ∧ (dst + n ≤ src ∨ src + n ≤ dst)
  | .test i => g.psLen ≤ i ∧ i < g.psLen + packet.payload.length

instance (g : PsGlobals) (packet : RTPPacket) : DecidablePred (Access.Proper g packet)
  | .fill .. => inferInstanceAs (Decidable (_ ∧ _))
  | .move .. => inferInstanceAs (Decidable (_ ∧ _ ∧ _))
  | .test .. => inferInstanceAs (Decidable (_ ∧ _))

namespace PsGlobals

/-- A payload that is taken tells by itself whether it starts a pack, and one that starts a
pack is no longer than the pack before it. -/
structure Disciplined (g : PsGlobals) (packet : RTPPacket) : Prop where
  tells : g.Takes packet → 4 ≤ packet.payload.length ∨ ¬ packet.payload <+: [0, 0, 1, 0xba]
  shorter : g.Takes packet → packet.StartsPack → 0 < g.psLen → g.Demuxes packet →
    packet.payload.length ≤ g.psLen

variable {g : PsGlobals} {packet : RTPPacket}

/-- The payload lies behind the pending bytes once it is copied. -/
theorem slice_appended {j : Nat} (hj : j ≤ packet.payload.length) :
    (g.appended packet).slice g.psLen j = packet.payload.take j := by
  rw [← Block.take_slice _ _ _ _ hj, slice_appended_payload]

/-- A payload of four bytes shows the start code or does not have it. -/
theorem finds_iff (hsize : g.psBuf.size = psBufSize) (htakes : g.Takes packet)
    (hfour : 4 ≤ packet.payload.length) : g.Finds packet ↔ packet.StartsPack := by
  have hself := slice_appended_payload (g := g) packet
  have hroom : g.psLen + packet.payload.length ≤ (g.appended packet).size := by
    change _ ≤ g.psBuf.size
    rw [hsize]
    exact Nat.le_of_lt htakes.2
  rw [Finds, startsWith_payload (.inl hfour) hself hroom, Except.ok.injEq, decide_eq_true_iff]

/-- What is found behind a payload that tells by itself is in the payload. -/
theorem startsPack_of_finds
    (htells : 4 ≤ packet.payload.length ∨ ¬ packet.payload <+: [0, 0, 1, 0xba])
    (hfinds : g.Finds packet) : packet.StartsPack := by
  have hcode : (g.appended packet).slice g.psLen 4 = [0, 0, 1, 0xba] :=
    Block.slice_of_startsWith hfinds
  rcases Nat.lt_or_ge packet.payload.length 4 with hshort | hfour
  · have hprefix : packet.payload <+: [0, 0, 1, 0xba] := by
      rw [← hcode, ← List.take_length (l := packet.payload), ← slice_appended le_rfl,
        ← Block.take_slice _ _ _ _ (Nat.le_of_lt hshort)]
      exact List.take_prefix _ _
    rcases htells with hfour | hnot
    · exact absurd hshort (not_lt.mpr hfour)
    · exact absurd hprefix hnot
  · rw [slice_appended hfour] at hcode
    rw [RTPPacket.StartsPack, ← hcode]
    exact List.take_prefix _ _

/-- The tests stay inside the payload exactly if the payload tells by itself. -/
theorem tests_inside_iff (htakes : g.Takes packet) :
    (∀ j, j < 4 → g.psLen + j ≤ psBufSize →
        (g.appended packet).slice g.psLen j = [0, 0, 1, 0xba].take j →
        j < packet.payload.length) ↔
      4 ≤ packet.payload.length ∨ ¬ packet.payload <+: [0, 0, 1, 0xba] := by
  have hfits := htakes.2
  constructor
  · intro h
    rw [← not_lt]
    by_contra hboth
    obtain ⟨hshort, hprefix⟩ := not_or.mp hboth
    rw [not_not] at hshort hprefix
    -- the byte behind a short payload is tested
    have hself : (g.appended packet).slice g.psLen packet.payload.length =
        [0, 0, 1, 0xba].take packet.payload.length := by
      rw [slice_appended_payload, ← List.prefix_iff_eq_take]
      exact hprefix
    exact absurd (h _ hshort (Nat.le_of_lt hfits) hself) (Nat.lt_irrefl _)
  · rintro (hfour | hnot) j hj - hslice
    · exact Nat.lt_of_lt_of_le hj hfour
    · by_contra hbehind
      apply hnot
      rw [List.prefix_iff_eq_take, ← List.take_length (l := packet.payload),
        ← slice_appended le_rfl, ← Block.take_slice _ _ _ _ (not_lt.mp hbehind), hslice,
        List.take_take]
      simp [not_lt.mp hbehind]

/-- A call makes proper accesses only, exactly if its packet is disciplined. -/
theorem proper_iff (r : CRTPReceiver) (hsize : g.psBuf.size = psBufSize) :
    (∀ w ∈ (processRtpPacketLogged r g packet).log, w.Proper g packet) ↔
      g.Disciplined packet := by
  have hlen : packet.payload.length = packet.packet.length - rtpHeadLen := List.length_drop
  constructor
  · intro h
    refine ⟨fun htakes => ?_, fun htakes hstarts hpending hdemuxes => ?_⟩
    · apply (tests_inside_iff htakes).mp
      intro j hj hroom hslice
      have htest := h (.test (g.psLen + j)) ((mem_log_iff r packet hsize _).mpr
        ⟨htakes, Or.inr (Or.inl ⟨j, rfl, hj, hroom, hslice⟩)⟩)
      exact Nat.lt_of_add_lt_add_left htest.2
    · have hfinds := (finds_iff hsize htakes hstarts.length_le).mpr hstarts
      have hmove := h (.move 0 g.psLen packet.payload.length) ((mem_log_iff r packet hsize _).mpr
        ⟨htakes, Or.inr (Or.inr ⟨rfl, hfinds, hpending, hdemuxes⟩)⟩)
      have hapart := hmove.2.2
      omega
  · intro hdisciplined w hw
    obtain ⟨htakes, hkind⟩ := (mem_log_iff r packet hsize w).mp hw
    have hpos := List.length_pos_iff.mpr htakes.1
    have hfits := htakes.2
    rcases hkind with rfl | ⟨j, rfl, hj, hroom, hslice⟩ | ⟨rfl, hfinds, hpending, hdemuxes⟩
    · refine ⟨?_, ?_⟩
      · omega
      · omega
    · have hinside := (tests_inside_iff htakes).mpr (hdisciplined.tells htakes) j hj hroom hslice
      exact ⟨Nat.le_add_right _ _, Nat.add_lt_add_left hinside _⟩
    · have hstarts := startsPack_of_finds (hdisciplined.tells htakes) hfinds
      have hshorter := hdisciplined.shorter htakes hstarts hpending hdemuxes
      refine ⟨?_, ?_, Or.inl ?_⟩
      · omega
      · omega
      · omega

end PsGlobals

/-- The receiver and its globals between two packets, with the marker of the last packet that
has data among the pending bytes. -/
structure Reassembly where
  receiver : CRTPReceiver
  globals : PsGlobals
  contributed : Option Bool

/-- The marker of the last packet with data among the pending bytes after a call. -/
def Effect.contributed (marker : Bool) (before : Option Bool) : Effect → Option Bool
  | .skipped => before
  | .overflow => none
  | .stored => some marker
  | .flushed _ => some marker

namespace Reassembly

/-- A run ends with the first packet that makes the demuxer leave defined memory. -/
def step (s : Option Reassembly) (packet : RTPPacket) : Option Reassembly :=
  s.bind fun s =>
    match processRtpPacket s.receiver s.globals packet with
    | .ok (receiver, globals, effect) =>
      some ⟨receiver, globals, effect.contributed packet.hasmarker s.contributed⟩
    | .error _ => none

/-- `psBuf` as it is allocated, and `psLen` in its range. -/
structure Bounded (s : Reassembly) : Prop where
  size : s.globals.psBuf.size = psBufSize
  room : s.globals.psLen < psBufSize

variable {s : Reassembly}

/-- The calls of `processRtpPacket` behind a step. -/
theorem step_some {s : Option Reassembly} {packet : RTPPacket} {t : Reassembly}
    (h : step s packet = some t) : ∃ s', s = some s' ∧ ∃ effect,
      processRtpPacket s'.receiver s'.globals packet = .ok (t.receiver, t.globals, effect) ∧
      t.contributed = effect.contributed packet.hasmarker s'.contributed := by
  cases s with
  | none => cases h
  | some s =>
    simp only [step, Option.bind_some] at h
    split at h
    · rename_i hok
      cases h
      exact ⟨s, rfl, _, hok, rfl⟩
    · cases h

/-- A call keeps `psLen` below the size of the buffer. -/
theorem room_of_processRtpPacket {r : CRTPReceiver} {g : PsGlobals} {packet : RTPPacket}
    (hsize : g.psBuf.size = psBufSize) (hroom : g.psLen < psBufSize)
    {result : CRTPReceiver × PsGlobals × Effect}
    (hok : processRtpPacket r g packet = .ok result) : result.2.1.psLen < psBufSize := by
  rw [processRtpPacket_eq r hsize packet] at hok
  split at hok
  · cases hok
    exact hroom
  split at hok
  · cases hok
    exact Nat.lt_of_le_of_lt (Nat.zero_le _) hroom
  rename_i hfit
  rw [not_not] at hfit
  obtain ⟨isStart, -, hrest⟩ := bind_eq_ok hok
  split at hrest
  · obtain ⟨_, -, hflush⟩ := bind_eq_ok hrest
    cases hflush
    exact Nat.lt_of_le_of_lt (Nat.le_add_left _ _) hfit
  · cases hrest
    exact hfit

theorem bounded_step {s : Option Reassembly} (h : ∀ t ∈ s, t.Bounded) (packet : RTPPacket) :
    ∀ t ∈ step s packet, t.Bounded := by
  intro t ht
  obtain ⟨s', rfl, effect, hok, -⟩ := step_some ht
  obtain ⟨hsize, hroom⟩ := h s' rfl
  exact ⟨size_of_processRtpPacket hsize hok, room_of_processRtpPacket hsize hroom hok⟩

/-- Every state of a run is bounded. -/
theorem bounded_trace (h : s.Bounded) (packets : List RTPPacket) :
    ∀ p ∈ trace step (some s) packets, ∀ t ∈ p.1, t.Bounded :=
  trace_invariant (I := fun s : Option Reassembly => ∀ t ∈ s, t.Bounded)
    (by rintro t ⟨⟩; exact h) fun _ packet h => bounded_step h packet

/-- In every state of the run `psLen` is in its range, and every call makes proper accesses
only. -/
structure BufferDiscipline (s : Reassembly) (packets : List RTPPacket) : Prop where
  room : ∀ n, ∀ t ∈ after step (some s) (packets.take n), t.globals.psLen < psBufSize
  proper : ∀ p ∈ trace step (some s) packets, ∀ t ∈ p.1,
    ∀ w ∈ (processRtpPacketLogged t.receiver t.globals p.2).log, w.Proper t.globals p.2

/-- A run keeps the buffer discipline exactly if every packet tells by itself whether it starts
a pack, and starts none that is longer than the pending one. -/
theorem bufferDiscipline_iff (s : Reassembly) (h : s.Bounded) (packets : List RTPPacket) :
    s.BufferDiscipline packets ↔
      ∀ p ∈ trace step (some s) packets, ∀ t ∈ p.1, t.globals.Disciplined p.2 := by
  have hbounded := bounded_trace h packets
  constructor
  · rintro ⟨-, hproper⟩ p hp t ht
    apply (PsGlobals.proper_iff t.receiver (hbounded p hp t ht).size).mp
    exact hproper p hp t ht
  · intro hdisciplined
    refine ⟨fun n t ht => ?_, fun p hp t ht => ?_⟩
    · have hend : ∀ t ∈ after step (some s) (packets.take n), t.Bounded :=
        after_invariant (I := fun s : Option Reassembly => ∀ t ∈ s, t.Bounded)
          (by rintro t ⟨⟩; exact h) fun p _ hp => bounded_step hp p.2
      exact (hend t ht).room
    · apply (PsGlobals.proper_iff t.receiver (hbounded p hp t ht).size).mpr
      exact hdisciplined p hp t ht

/-- Nothing is pending yet. -/
def fresh : Reassembly := ⟨⟨0, true, 0⟩, psGlobals₀, none⟩

theorem bounded_fresh : fresh.Bounded := ⟨rfl, by decide⟩

/-- The first packet of a pack finds nothing to move. -/
theorem bufferDiscipline_firstPacket : fresh.BufferDiscipline [twoPacketPack.first] := by
  refine (bufferDiscipline_iff fresh bounded_fresh [twoPacketPack.first]).mpr ?_
  simp only [forall_trace_cons, forall_trace_nil, and_true]
  rintro t ⟨⟩
  refine ⟨fun _ => Or.inl (by decide), fun _ _ hpending => ?_⟩
  exact absurd hpending (Nat.lt_irrefl _)

/-- A whole pack of thirty bytes. -/
def shortPacket : RTPPacket := plainPacket twoPacketPack.bytes (by decide)

/-- A whole pack of thirty-three bytes. -/
def longPacket : RTPPacket :=
  plainPacket (muxed plainHeader [videoUnit [0x61, 1, 2, 3, 4] (by decide)]) (by decide)

/-- The longer pack is moved over itself. -/
theorem not_bufferDiscipline_longPacket : ¬ fresh.BufferDiscipline [shortPacket, longPacket] := by
  intro h
  have hmove : (step (some fresh) shortPacket).map (fun t =>
      (processRtpPacketLogged t.receiver t.globals longPacket).log.filter
        fun w => ¬ w.Proper t.globals longPacket) = some [.move 0 30 33] := by
    decide +kernel
  obtain ⟨t, ht, hlog⟩ := Option.map_eq_some_iff.mp hmove
  have hmem : Access.move 0 30 33 ∈ [Access.move 0 30 33] := List.mem_singleton_self _
  rw [← hlog] at hmem
  obtain ⟨hlogged, himproper⟩ := List.mem_filter.mp hmem
  apply of_decide_eq_true himproper
  exact h.proper (_, longPacket) (List.mem_cons_of_mem _ (List.mem_singleton_self _)) t ht _ hlogged

end Reassembly

end Jrtplib4Android
