import Jrtplib4Android.Ps.Grammar

/-!
# Frames that do not fit

A payload that does not fit the room left in the frame buffer is skipped, and the loop goes
on with the next one. What is delivered is therefore the beginning of the payloads only as long
as nothing behind the first payload skipped fits the room that it left.
-/

namespace Jrtplib4Android

open CSem

/-- The number of payload bytes. -/
def payloadBytes (us : List PsUnit) : Nat := (us.flatMap PsUnit.payload).length

/-- A frame that is truncated and not holed: it begins like the payloads and is shorter than the
frame buffer, and from the first payload that does not fit on nothing is stored. -/
structure Truncates (h : PackHeader) (us : List PsUnit) (h264Buffer : Block) : Prop where
  truncated : ∃ frame, extracted (muxed h us) h264Buffer = .ok frame ∧
    frame <+: us.flatMap PsUnit.payload ∧ frame.length < h264FrameSizeMax
  unholed : ∀ front u back stored, us = front ++ u :: back →
    extracted (muxed h front) h264Buffer = .ok stored →
    h264FrameSizeMax ≤ u.payload.length + stored.length →
    extracted (muxed h us) h264Buffer = .ok stored

/-- Behind the packet with which the payloads reach the size of the frame buffer, no payload fits
the room in front of it. -/
def NoneFitsBehind (us : List PsUnit) : Prop :=
  ∀ front u back, us = front ++ u :: back → payloadBytes front < h264FrameSizeMax →
    h264FrameSizeMax ≤ payloadBytes front + u.payload.length →
    ∀ v ∈ back, v.payload = [] ∨ h264FrameSizeMax ≤ payloadBytes front + v.payload.length

@[simp] theorem payloadBytes_nil : payloadBytes [] = 0 := rfl

@[simp] theorem payloadBytes_cons (u : PsUnit) (us : List PsUnit) :
    payloadBytes (u :: us) = u.payload.length + payloadBytes us := by
  rw [payloadBytes, List.flatMap_cons, List.length_append, payloadBytes]

/-- The payload of two runs of units. -/
@[simp] theorem payloadBytes_append (us vs : List PsUnit) :
    payloadBytes (us ++ vs) = payloadBytes us + payloadBytes vs := by
  rw [payloadBytes, List.flatMap_append, List.length_append, payloadBytes, payloadBytes]

/-- A payload does not fit if it would fill the frame. -/
theorem fitsFrame_eq_false_iff (stored m : Nat) :
    fitsFrame stored m = false ↔ h264FrameSizeMax ≤ stored + m := by
  rw [fitsFrame, decide_eq_false_iff_not]
  omega

/-- There is a packet with which the payloads reach a size that they have together. -/
theorem exists_reaching {us : List PsUnit} {size : Nat} (hpos : 0 < size)
    (htotal : size ≤ payloadBytes us) :
    ∃ front u back, us = front ++ u :: back ∧ payloadBytes front < size ∧
      size ≤ payloadBytes front + u.payload.length := by
  induction us generalizing size with
  | nil =>
    rw [payloadBytes_nil] at htotal
    omega
  | cons w ws ih =>
    by_cases hw : size ≤ w.payload.length
    · exact ⟨[], w, ws, rfl, hpos, by rwa [payloadBytes_nil, Nat.zero_add]⟩
    · rw [payloadBytes_cons] at htotal
      have hpos' : 0 < size - w.payload.length := by omega
      have htotal' : size - w.payload.length ≤ payloadBytes ws := by omega
      obtain ⟨front, u, back, rfl, hfront, hu⟩ := ih hpos' htotal'
      refine ⟨w :: front, u, back, rfl, ?_, ?_⟩
      · rw [payloadBytes_cons]
        omega
      · rw [payloadBytes_cons]
        omega

/-- Up to the packet that does not fit all payloads are stored. -/
theorem storePayloads_front {front : List PsUnit} (h : payloadBytes front < h264FrameSizeMax) :
    storePayloads [] front = front.flatMap PsUnit.payload := by
  rw [payloadBytes] at h
  rw [storePayloads_of_fits (by simpa using h), List.nil_append]

/-- The packet itself is skipped, and the others behind it have their turn. -/
theorem storePayloads_gap {front back : List PsUnit} {u : PsUnit}
    (hfront : payloadBytes front < h264FrameSizeMax)
    (hu : h264FrameSizeMax ≤ payloadBytes front + u.payload.length) :
    storePayloads [] (front ++ u :: back) =
      storePayloads (front.flatMap PsUnit.payload) back := by
  have hskip : storePayload (front.flatMap PsUnit.payload) u.payload =
      front.flatMap PsUnit.payload :=
    (storePayload_eq_self_iff _ _).mpr (Or.inr ((fitsFrame_eq_false_iff _ _).mpr hu))
  rw [storePayloads_append, storePayloads_front hfront, storePayloads, List.foldl_cons, hskip]
  rfl

/-- Nothing is stored behind the gap exactly if nothing fits there. -/
theorem storePayloads_behind_iff (front back : List PsUnit) :
    storePayloads (front.flatMap PsUnit.payload) back = front.flatMap PsUnit.payload ↔
      ∀ v ∈ back, v.payload = [] ∨ h264FrameSizeMax ≤ payloadBytes front + v.payload.length := by
  rw [storePayloads_eq_self_iff]
  simp only [fitsFrame_eq_false_iff]
  rfl

section Packs

variable {h : PackHeader} {us : List PsUnit} {h264Buffer : Block}

/-- What is extracted from a pack is what its units store. -/
theorem extracted_muxed (hsize : h264Buffer.size = h264FrameSizeMax)
    (hlen : (muxed h us).length ≤ psBufSize) :
    extracted (muxed h us) h264Buffer = .ok (storePayloads [] us) := by
  have hshort : (muxed h us).length < 2 ^ 31 := by
    simp only [psBufSize] at hlen
    omega
  exact extracted_of_demux hsize hshort (demux_muxed h us)

/-- A pack of fewer units is not longer. -/
theorem length_muxed_front {front rest : List PsUnit} :
    (muxed h front).length ≤ (muxed h (front ++ rest)).length := by
  rw [muxed, muxed, List.flatMap_append, List.length_append, List.length_append,
    List.length_append]
  omega

/-- Payloads that fit together leave nothing to truncate. -/
theorem noneFitsBehind_of_fits (htotal : payloadBytes us < h264FrameSizeMax) :
    NoneFitsBehind us := by
  rintro front u back rfl - hu
  rw [payloadBytes_append, payloadBytes_cons] at htotal
  omega

/-- The units up to a packet that does not fit store what the first such packet left. -/
theorem storePayloads_of_skipped {front back front' back' : List PsUnit} {u u' : PsUnit}
    (hfront : payloadBytes front < h264FrameSizeMax)
    (hu : h264FrameSizeMax ≤ payloadBytes front + u.payload.length)
    (hback : ∀ v ∈ back, v.payload = [] ∨
      h264FrameSizeMax ≤ payloadBytes front + v.payload.length)
    (hsplit : front ++ u :: back = front' ++ u' :: back')
    (hu' : h264FrameSizeMax ≤ u'.payload.length + (storePayloads [] front').length) :
    storePayloads [] front' = front.flatMap PsUnit.payload := by
  rcases List.append_eq_append_iff.mp hsplit with ⟨mid, rfl, hmid⟩ | ⟨mid, rfl, hmid⟩
  · cases mid with
    | nil => rw [List.append_nil, storePayloads_front hfront]
    | cons w ws =>
      obtain ⟨rfl, rfl⟩ := List.cons_eq_cons.mp hmid
      rw [storePayloads_gap hfront hu, storePayloads_behind_iff]
      exact fun v hv => hback v (List.mem_append_left _ hv)
  · cases mid with
    | nil => rw [List.append_nil, ← storePayloads_front (by simpa using hfront)]
    | cons w ws =>
      -- a packet in front of the gap fits
      obtain ⟨rfl, rfl⟩ := List.cons_eq_cons.mp hmid
      rw [payloadBytes_append, payloadBytes_cons] at hfront
      rw [storePayloads_front (by omega)] at hu'
      change _ ≤ _ + payloadBytes front' at hu'
      omega

/-- What the units in front of a packet have stored. -/
theorem eq_of_extracted_front {front rest : List PsUnit} {stored : List UInt8}
    (hsize : h264Buffer.size = h264FrameSizeMax)
    (hlen : (muxed h (front ++ rest)).length ≤ psBufSize)
    (hstored : extracted (muxed h front) h264Buffer = .ok stored) :
    stored = storePayloads [] front := by
  rw [extracted_muxed hsize (Nat.le_trans length_muxed_front hlen), Except.ok.injEq] at hstored
  exact hstored.symm

/-- A pack that fits is not cut. -/
theorem truncates_of_fits (hsize : h264Buffer.size = h264FrameSizeMax)
    (hlen : (muxed h us).length ≤ psBufSize) (htotal : payloadBytes us < h264FrameSizeMax) :
    Truncates h us h264Buffer where
  truncated := by
    have hframe := extracted_muxed hsize hlen
    rw [storePayloads_front htotal] at hframe
    exact ⟨_, hframe, List.prefix_rfl, htotal⟩
  unholed := by
    rintro front u back stored rfl hstored hu
    rw [payloadBytes_append, payloadBytes_cons] at htotal
    rw [eq_of_extracted_front hsize hlen hstored, storePayloads_front (by omega)] at hu
    change _ ≤ _ + payloadBytes front at hu
    omega

/-- A pack is cut where nothing behind the unit that does not fit is stored. -/
theorem truncates_of_gap {front back : List PsUnit} {u : PsUnit}
    (hsize : h264Buffer.size = h264FrameSizeMax)
    (hlen : (muxed h (front ++ u :: back)).length ≤ psBufSize)
    (hfront : payloadBytes front < h264FrameSizeMax)
    (hu : h264FrameSizeMax ≤ payloadBytes front + u.payload.length)
    (hback : ∀ v ∈ back, v.payload = [] ∨
      h264FrameSizeMax ≤ payloadBytes front + v.payload.length) :
    Truncates h (front ++ u :: back) h264Buffer := by
  have hframe : extracted (muxed h (front ++ u :: back)) h264Buffer =
      .ok (front.flatMap PsUnit.payload) := by
    rw [extracted_muxed hsize hlen, storePayloads_gap hfront hu,
      (storePayloads_behind_iff front back).mpr hback]
  refine ⟨⟨_, hframe, ?_, hfront⟩, ?_⟩
  · rw [List.flatMap_append]
    exact List.prefix_append _ _
  · intro front' u' back' stored hsplit hstored hu'
    have hlen' : (muxed h (front' ++ u' :: back')).length ≤ psBufSize := hsplit ▸ hlen
    have heq := eq_of_extracted_front hsize hlen' hstored
    rw [heq] at hu' ⊢
    rw [hframe, storePayloads_of_skipped hfront hu hback hsplit hu']

/-- The frame of a pack is truncated and not holed exactly if, behind the packet with which the
payloads reach the size of the frame buffer, no payload fits the room in front of it. -/
theorem truncates_iff (h : PackHeader) (us : List PsUnit) {h264Buffer : Block}
    (hsize : h264Buffer.size = h264FrameSizeMax) (hlen : (muxed h us).length ≤ psBufSize) :
    Truncates h us h264Buffer ↔ NoneFitsBehind us := by
  constructor
  · rintro ⟨-, hunholed⟩ front u back rfl hfront hu
    have hfrontLen := Nat.le_trans length_muxed_front hlen
    have hstored := extracted_muxed hsize hfrontLen
    rw [storePayloads_front hfront] at hstored
    have hframe := hunholed front u back _ rfl hstored (by rw [Nat.add_comm]; exact hu)
    rw [extracted_muxed hsize hlen, Except.ok.injEq, storePayloads_gap hfront hu] at hframe
    exact (storePayloads_behind_iff front back).mp hframe
  · intro hnone
    by_cases htotal : payloadBytes us < h264FrameSizeMax
    · exact truncates_of_fits hsize hlen htotal
    · obtain ⟨front, u, back, rfl, hfront, hu⟩ :=
        exists_reaching (by decide) (Nat.le_of_not_lt htotal)
      exact truncates_of_gap hsize hlen hfront hu (hnone front u back rfl hfront hu)

end Packs

/-- Two small units. -/
theorem truncates_iff_twoUnits :
    Truncates plainHeader
      [videoUnit [0x67, 0x42] (by decide), videoUnit [0x65] (by decide)]
      (.fill h264FrameSizeMax 0) :=
  (truncates_iff plainHeader [videoUnit [0x67, 0x42] (by decide), videoUnit [0x65] (by decide)]
    rfl (by decide)).mpr (noneFitsBehind_of_fits (by decide))

/-- All but 64 bytes of the frame buffer. -/
def largeUnits : List PsUnit :=
  List.replicate 64 (videoUnit (List.replicate 32767 0) (by rw [List.length_replicate]; decide))

/-- A payload that does not fit behind them, and one that does. -/
def behindUnits : List PsUnit :=
  [videoUnit (List.replicate 100 1) (by decide), videoUnit [2] (by decide)]

theorem payload_videoUnit {payload : List UInt8} (hlt : payload.length < 2 ^ 15) :
    (videoUnit payload hlt).payload = payload := rfl

/-- The large units leave less than a unit of room. -/
theorem payloadBytes_largeUnits : payloadBytes largeUnits = 2097088 := by
  rw [payloadBytes, largeUnits, List.length_flatMap, List.map_replicate, List.sum_replicate_nat,
    payload_videoUnit, List.length_replicate]

/-- Each video packet adds 14 bytes of its own. -/
theorem length_flatMap_bytes {us : List PsUnit}
    (h : ∀ u ∈ us, ∃ payload hlt, u = videoUnit payload hlt) :
    (us.flatMap PsUnit.bytes).length = 14 * us.length + payloadBytes us := by
  induction us with
  | nil => rfl
  | cons u us ih =>
    obtain ⟨⟨payload, hlt, rfl⟩, hus⟩ := List.forall_mem_cons.mp h
    have hspan : (videoUnit payload hlt).bytes.length = 14 + payload.length := by
      rw [PsUnit.length_bytes]
      simp only [videoUnit, PsUnit.head, UnitHead.span, List.length_cons, List.length_nil]
      omega
    rw [List.flatMap_cons, List.length_append, hspan, ih hus, payloadBytes_cons, List.length_cons,
      payload_videoUnit]
    omega

/-- The pack fits the buffer of the receiver. -/
theorem length_muxed_holed :
    (muxed plainHeader (largeUnits ++ behindUnits)).length = 14 + 14 * 66 + 2097088 + 101 := by
  have hvideo : ∀ u ∈ largeUnits ++ behindUnits, ∃ payload hlt, u = videoUnit payload hlt := by
    intro u hu
    rcases List.mem_append.mp hu with hlarge | hbehind
    · exact ⟨_, _, List.eq_of_mem_replicate hlarge⟩
    · rcases List.mem_pair.mp hbehind with rfl | rfl
      · exact ⟨_, _, rfl⟩
      · exact ⟨_, _, rfl⟩
  have hbehind : payloadBytes behindUnits = 101 := by
    simp only [behindUnits, payloadBytes_cons, payloadBytes_nil, payload_videoUnit,
      List.length_replicate, List.length_singleton]
  have hlength : (largeUnits ++ behindUnits).length = 66 := by
    rw [List.length_append, largeUnits, List.length_replicate]
    rfl
  rw [muxed, List.length_append, length_flatMap_bytes hvideo, hlength, payloadBytes_append,
    payloadBytes_largeUnits, hbehind]
  rfl

/-- A unit that fits is stored. -/
theorem storePayloads_singleton {stored : List UInt8} {u : PsUnit}
    (h : fitsFrame stored.length u.payload.length = true) :
    storePayloads stored [u] = stored ++ u.payload := by
  rw [storePayloads, List.foldl_cons, List.foldl_nil, storePayload, if_pos h]

/-- The last payload stands where the one that did not fit should begin. -/
theorem storePayloads_holed :
    storePayloads [] (largeUnits ++ behindUnits) = largeUnits.flatMap PsUnit.payload ++ [2] := by
  have hlarge := payloadBytes_largeUnits
  have hfits : fitsFrame (largeUnits.flatMap PsUnit.payload).length
      (videoUnit [2] (by decide)).payload.length = true := by
    rw [← payloadBytes, hlarge, payload_videoUnit]
    decide
  have hfront : payloadBytes largeUnits < h264FrameSizeMax := by
    rw [hlarge]
    decide
  have hgap : h264FrameSizeMax ≤
      payloadBytes largeUnits + (videoUnit (List.replicate 100 1) (by decide)).payload.length := by
    rw [hlarge, payload_videoUnit, List.length_replicate]
    decide
  rw [behindUnits, storePayloads_gap hfront hgap, storePayloads_singleton hfits,
    payload_videoUnit]

/-- A payload that does not fit and a short one behind it: the frame is no beginning of the
payloads. -/
theorem not_truncates_holed :
    (muxed plainHeader (largeUnits ++ behindUnits)).length ≤ psBufSize ∧
      (∃ frame, extracted (muxed plainHeader (largeUnits ++ behindUnits))
          (.fill h264FrameSizeMax 0) = .ok frame ∧
        ¬ frame <+: (largeUnits ++ behindUnits).flatMap PsUnit.payload) ∧
      ¬ Truncates plainHeader (largeUnits ++ behindUnits) (.fill h264FrameSizeMax 0) := by
  have hlen : (muxed plainHeader (largeUnits ++ behindUnits)).length ≤ psBufSize := by
    rw [length_muxed_holed]
    decide
  have hframe : extracted (muxed plainHeader (largeUnits ++ behindUnits))
      (.fill h264FrameSizeMax 0) = .ok (largeUnits.flatMap PsUnit.payload ++ [2]) := by
    rw [extracted_muxed rfl hlen, storePayloads_holed]
  have hholed : ¬ largeUnits.flatMap PsUnit.payload ++ [2] <+:
      (largeUnits ++ behindUnits).flatMap PsUnit.payload := by
    rw [List.flatMap_append, List.prefix_append_right_inj]
    decide
  refine ⟨hlen, ⟨_, hframe, hholed⟩, fun h => ?_⟩
  obtain ⟨frame, hok, hprefix, -⟩ := h.truncated
  rw [hframe, Except.ok.injEq] at hok
  exact hholed (hok ▸ hprefix)

end Jrtplib4Android
