import Jrtplib4Android.Receiver.Accesses

/-!
# The marker of a frame

The frame of a pack is delivered when the next pack starts. Its `isMarker` is read off the
packet that starts the next pack; the last packet with data of its own pack is not kept.
-/

namespace Jrtplib4Android

open CSem

namespace Reassembly

/-- The frame that is passed to `callbackRtp`. -/
def delivered (s : Reassembly) (packet : RTPPacket) : Option Frame :=
  match processRtpPacket s.receiver s.globals packet with
  | .ok (_, _, effect) => effect.frame
  | .error _ => none

variable {s : Reassembly} {packet : RTPPacket}

/-- A delivered frame carries the marker of the packet that is being handled. -/
theorem isMarker_of_delivered (h : s.Bounded) {frame : Frame}
    (hframe : s.delivered packet = some frame) : frame.isMarker = packet.hasmarker := by
  cases hok : processRtpPacket s.receiver s.globals packet with
  | error fault =>
    rw [delivered, hok] at hframe
    cases hframe
  | ok result =>
    rw [delivered, hok] at hframe
    rw [processRtpPacket_eq s.receiver h.size packet] at hok
    split at hok
    · cases hok
      cases hframe
    split at hok
    · cases hok
      cases hframe
    obtain ⟨isStart, -, hrest⟩ := bind_eq_ok hok
    split at hrest
    · obtain ⟨out, -, hflush⟩ := bind_eq_ok hrest
      cases hflush
      simp only [Effect.frame] at hframe
      split at hframe <;> cases hframe
      rfl
    · cases hrest
      cases hframe

/-- A frame is delivered exactly if the packet hands one over. -/
theorem exists_delivered_iff (h : s.Bounded) (packet : RTPPacket) :
    (∃ frame, s.delivered packet = some frame) ↔ ∃ n, s.globals.HandsOver packet n := by
  cases hok : processRtpPacket s.receiver s.globals packet with
  | error fault =>
    refine iff_of_false ?_ ?_
    · rintro ⟨frame, hframe⟩
      rw [delivered, hok] at hframe
      cases hframe
    · rintro ⟨n, hhands⟩
      exact not_handsOver h.size hok n hhands
  | ok result =>
    simp only [delivered, hok, handsOver_iff h.size hok]
    constructor
    · rintro ⟨frame, hframe⟩
      exact ⟨_, frame, hframe, rfl⟩
    · rintro ⟨n, frame, hframe, -⟩
      exact ⟨frame, hframe⟩

/-- The frames that a call delivers carry the marker of their own pack exactly if the packet
hands over no pack with another marker. -/
theorem isMarker_iff (h : s.Bounded) (packet : RTPPacket) :
    (∀ frame, s.delivered packet = some frame → s.contributed = some frame.isMarker) ↔
      ((∃ n, s.globals.HandsOver packet n) → s.contributed = some packet.hasmarker) := by
  rw [← exists_delivered_iff h packet]
  constructor
  · rintro hmarker ⟨frame, hframe⟩
    rw [hmarker frame hframe, isMarker_of_delivered h hframe]
  · intro hsame frame hframe
    rw [hsame ⟨frame, hframe⟩, isMarker_of_delivered h hframe]

/-- Every frame of a run carries the marker of the last packet with data in its pack exactly if
every packet that hands a pack over has that marker too. -/
theorem isMarker_run_iff (s : Reassembly) (h : s.Bounded) (packets : List RTPPacket) :
    (∀ p ∈ trace step (some s) packets, ∀ t ∈ p.1, ∀ frame, t.delivered p.2 = some frame →
        t.contributed = some frame.isMarker) ↔
      ∀ p ∈ trace step (some s) packets, ∀ t ∈ p.1,
        (∃ n, t.globals.HandsOver p.2 n) → t.contributed = some p.2.hasmarker :=
  forall₂_congr fun p hp => forall₂_congr fun t ht =>
    isMarker_iff (bounded_trace h packets p hp t ht) p.2

/-- The second of two packs that are one packet each hands over the first with its marker. -/
theorem isMarker_twoPacks :
    ∃ t frame, step (some fresh) shortPacket = some t ∧ t.delivered shortPacket = some frame ∧
      t.contributed = some frame.isMarker := by
  have hframe : ((step (some fresh) shortPacket).bind (·.delivered shortPacket)).isSome = true := by
    decide +kernel
  have hmarked : (step (some fresh) shortPacket).map Reassembly.contributed =
      some (some true) := by
    decide +kernel
  obtain ⟨frame, hsome⟩ := Option.isSome_iff_exists.mp hframe
  obtain ⟨t, ht, hdelivered⟩ := Option.bind_eq_some_iff.mp hsome
  have hmem : (some t, shortPacket) ∈ trace step (some fresh) [shortPacket, shortPacket] := by
    rw [← ht]
    exact List.mem_cons_of_mem _ List.mem_cons_self
  refine ⟨t, frame, ht, hdelivered, (isMarker_run_iff fresh bounded_fresh
    [shortPacket, shortPacket]).mpr ?_ _ hmem t rfl frame hdelivered⟩
  simp only [forall_trace_cons, forall_trace_nil, and_true]
  constructor
  · rintro t ⟨⟩ ⟨n, -, -, -, hpending, -⟩
    exact absurd hpending (Nat.lt_irrefl 0)
  · intro t ht _
    rw [ht, Option.map_some] at hmarked
    exact Option.some.inj hmarked

/-- The first packet of a pack of several packets. -/
def unmarkedPacket : RTPPacket := { shortPacket with hasmarker := false }

/-- A pack that ends with a marked packet is delivered without the marker. -/
theorem not_isMarker_unmarkedPacket :
    ¬ ∀ p ∈ trace step (some fresh) [shortPacket, unmarkedPacket], ∀ t ∈ p.1, ∀ frame,
      t.delivered p.2 = some frame → t.contributed = some frame.isMarker := by
  intro h
  have hframe : (step (some fresh) shortPacket).map (fun t =>
      (t.contributed, t.delivered unmarkedPacket)) =
        some (some true, some ⟨[0x67, 0x42], false⟩) := by
    decide +kernel
  obtain ⟨t, ht, hboth⟩ := Option.map_eq_some_iff.mp hframe
  obtain ⟨hcontributed, hdelivered⟩ := Prod.mk.inj hboth
  have hmarker := h (_, unmarkedPacket) (List.mem_cons_of_mem _ (List.mem_singleton_self _)) t ht
    _ hdelivered
  rw [hcontributed] at hmarker
  exact absurd hmarker (by decide)

end Reassembly

end Jrtplib4Android
