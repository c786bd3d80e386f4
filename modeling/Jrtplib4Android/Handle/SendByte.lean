import Jrtplib4Android.Handle.Forward
import Jrtplib4Android.Sender.Bounds

/-!
# The result of a send

`SendH264Nalu` stops at the first packet that is refused, and its result should tell whether
the whole unit was accepted. The fragment branch has no `return` behind its loop, and
`sendByte_` gives the array elements back only when it reports success.
-/

namespace Jrtplib4Android

open CSem

variable {τ : Type}

/-- A call of `sendByte_`: how often the array elements were acquired and released in it. -/
structure SendByteCall (τ : Type) where
  sender : Option (CRTPSender τ)
  outcome : Outcome
  acquired : Nat
  released : Nat

/-- `sendByte_`, with the array elements. A result that is never set is not tested as true. -/
def sendByteCounted (net : τ → BuiltPacket → Int × τ) (sender : Option (CRTPSender τ))
    (src : Block) (byteLength : Int) (isSpsOrMarker isRtpData : Bool) : SendByteCall τ :=
  match sender with
  | none => ⟨none, .ret false, 0, 0⟩
  | some crtpSender =>
    let result :=
      if isRtpData then crtpSender.sendRtpData net src byteLength isSpsOrMarker
      else crtpSender.sendH264Nalu net src byteLength isSpsOrMarker
    match result.outcome with
    | .ret true => ⟨some result.sender, .ret true, 1, 1⟩
    | outcome => ⟨some result.sender, outcome, 1, 0⟩

/-- Without the counts it is `sendByte_`. -/
theorem sendByteCounted_sendByte (net : τ → BuiltPacket → Int × τ)
    (sender : Option (CRTPSender τ)) (src : Block) (byteLength : Int)
    (isSpsOrMarker isRtpData : Bool) :
    ((sendByteCounted net sender src byteLength isSpsOrMarker isRtpData).sender,
      (sendByteCounted net sender src byteLength isSpsOrMarker isRtpData).outcome) =
        sendByte net sender src byteLength isSpsOrMarker isRtpData := by
  cases sender with
  | none => rfl
  | some crtpSender =>
    simp only [sendByteCounted, sendByte]
    split
    · rename_i heq
      rw [heq]
    · rfl

/-- Elements are released exactly in a call that reports success. -/
theorem released_sendByteCounted (net : τ → BuiltPacket → Int × τ) (s : CRTPSender τ)
    (src : Block) (byteLength : Int) (isSpsOrMarker : Bool) :
    (sendByteCounted net (some s) src byteLength isSpsOrMarker false).acquired = 1 ∧
      ((sendByteCounted net (some s) src byteLength isSpsOrMarker false).released = 1 ↔
        (s.sendH264Nalu net src byteLength isSpsOrMarker).outcome = .ret true) := by
  simp only [sendByteCounted, Bool.false_eq_true, ite_false]
  split
  · rename_i heq
    simp [heq]
  · rename_i hne
    exact ⟨rfl, iff_of_false Nat.zero_ne_one hne⟩

/-- The packets that a unit of `n` bytes leaves in. -/
def unitPackets (n : Nat) (isSpsOrPps : Bool) : Nat :=
  if isSpsOrPps = true ∨ n ≤ maxRtpPktLength then 1
  else (n + maxRtpPktLength - 1) / maxRtpPktLength

/-- The outcome is a result, and it is true exactly if the input was not refused and all the
packets of the unit were handed over and accepted. -/
def Reports (src : Block) (byteLength : Int) (isSpsOrPps : Bool) (handed : List Handed)
    (outcome : Outcome) : Prop :=
  ∃ b, outcome = .ret b ∧ (b = true ↔ 4 ≤ byteLength ∧
    handed.length = unitPackets (unitOf src byteLength.toNat).2 isSpsOrPps ∧
    ∀ e ∈ handed, 0 ≤ e.status)

/-- Sending stops at the first packet that is rejected, and the outcome reports it. -/
structure SendFaithful (src : Block) (byteLength : Int) (isSpsOrPps : Bool) (r : Sending τ) :
    Prop where
  stops : ∀ e ∈ r.handed.dropLast, 0 ≤ e.status
  reports : Reports src byteLength isSpsOrPps r.handed r.outcome

/-- The send is faithful, `sendByte_` passes its report on, and the elements are released once. -/
structure CallFaithful (net : τ → BuiltPacket → Int × τ) (s : CRTPSender τ) (src : Block)
    (byteLength : Int) (isSpsOrPps : Bool) : Prop where
  send : SendFaithful src byteLength isSpsOrPps (s.sendH264Nalu net src byteLength isSpsOrPps)
  reports : Reports src byteLength isSpsOrPps
    (s.sendH264Nalu net src byteLength isSpsOrPps).handed
    (sendByteCounted net (some s) src byteLength isSpsOrPps false).outcome
  released : (sendByteCounted net (some s) src byteLength isSpsOrPps false).released =
    (sendByteCounted net (some s) src byteLength isSpsOrPps false).acquired

/-- The unit leaves in one packet: it is not refused, and the array and `sendbuf` hold it. -/
def LeavesWhole (src : Block) (byteLength : Int) (isSpsOrPps : Bool) : Prop :=
  4 ≤ byteLength ∧
    WholeFits src (unitOf src byteLength.toNat).1 (unitOf src byteLength.toNat).2 isSpsOrPps

instance (src : Block) (byteLength : Int) (isSpsOrPps : Bool) :
    Decidable (LeavesWhole src byteLength isSpsOrPps) :=
  inferInstanceAs (Decidable (_ ∧ _))

/-- The session accepts the packet that the unit leaves in. -/
def TakesWhole (net : τ → BuiltPacket → Int × τ) (s : CRTPSender τ) (src : Block)
    (byteLength : Int) (isSpsOrPps : Bool) : Prop :=
  ∃ sendbuf session e, wholeBuf src (unitOf src byteLength.toNat).1
      (unitOf src byteLength.toNat).2 isSpsOrPps = .ok sendbuf ∧
    (s.count.setDefaultMark (!isSpsOrPps)).toRTPSession.sendPacket net sendbuf
      (unitOf src byteLength.toNat).2 = .ok (session, e) ∧ 0 ≤ e.status

theorem length_le_of_leavesWhole {src : Block} {byteLength : Nat} {isSpsOrPps : Bool}
    (h : LeavesWhole src byteLength isSpsOrPps) : 4 ≤ byteLength ∧ byteLength ≤ src.size := by
  obtain ⟨h4, hin, -⟩ := h
  have h4' : 4 ≤ byteLength := by omega
  rw [Int.toNat_natCast, unitOf_sum src h4'] at hin
  exact ⟨h4', hin⟩

/-- A unit that leaves in one packet takes an unfragmented path. -/
theorem sendH264Nalu_whole (net : τ → BuiltPacket → Int × τ) (s : CRTPSender τ) {src : Block}
    {byteLength : Nat} {isSpsOrPps : Bool} (h : LeavesWhole src byteLength isSpsOrPps) :
    ∃ sendbuf session e, wholeBuf src (unitOf src byteLength).1 (unitOf src byteLength).2
        isSpsOrPps = .ok sendbuf ∧
      (s.count.setDefaultMark (!isSpsOrPps)).toRTPSession.sendPacket net sendbuf
        (unitOf src byteLength).2 = .ok (session, e) ∧
      unitPackets (unitOf src byteLength).2 isSpsOrPps = 1 ∧
      (s.sendH264Nalu net src byteLength isSpsOrPps).handed = [e] ∧
      (s.sendH264Nalu net src byteLength isSpsOrPps).outcome = .ret (checkError e.status) := by
  obtain ⟨h4, hsize⟩ := length_le_of_leavesWhole h
  have hstrip := stripStartCode_eq (h4.trans hsize) byteLength
  obtain ⟨-, hfits⟩ := h
  rw [Int.toNat_natCast] at hfits
  obtain ⟨sendbuf, session, e, hbuf, hsend, -, -, hwhole⟩ := sendWhole_ok net s.count hfits
  have hshort : isSpsOrPps = true ∨ (unitOf src byteLength).2 ≤ maxRtpPktLength := by
    cases isSpsOrPps with
    | true => exact Or.inl rfl
    | false => exact Or.inr hfits.2.1
  have hpath : s.sendH264Nalu net src byteLength isSpsOrPps =
      if isSpsOrPps then s.count.sendSpsOrPps net src (unitOf src byteLength).1
          (unitOf src byteLength).2
        else s.count.sendSingle net src (unitOf src byteLength).1 (unitOf src byteLength).2 := by
    rw [sendH264Nalu_eq net s h4 (p := (unitOf src byteLength).1)
      (n := (unitOf src byteLength).2) hstrip]
    cases isSpsOrPps with
    | true => rfl
    | false => rw [if_neg Bool.false_ne_true, if_neg Bool.false_ne_true, if_pos hfits.2.1]
  refine ⟨sendbuf, session, e, hbuf, hsend, if_pos hshort, ?_, ?_⟩
  · rw [hpath, hwhole]
  · rw [hpath, hwhole]

/-- One packet is reported as it was answered. -/
theorem sendFaithful_whole (net : τ → BuiltPacket → Int × τ) (s : CRTPSender τ) {src : Block}
    {byteLength : Nat} {isSpsOrPps : Bool} (h : LeavesWhole src byteLength isSpsOrPps) :
    SendFaithful src byteLength isSpsOrPps (s.sendH264Nalu net src byteLength isSpsOrPps) := by
  obtain ⟨sendbuf, session, e, -, -, hpackets, hhanded, hout⟩ := sendH264Nalu_whole net s h
  refine ⟨?_, checkError e.status, hout, ?_⟩
  · rw [hhanded]
    exact fun e' he' => absurd he' List.not_mem_nil
  · rw [hhanded, Int.toNat_natCast, hpackets, List.forall_mem_singleton]
    simp [checkError, h.1]

/-- Refused input is reported as such. -/
theorem sendFaithful_refused (net : τ → BuiltPacket → Int × τ) (s : CRTPSender τ) (src : Block)
    {byteLength : Int} (h : byteLength < 4) (isSpsOrPps : Bool) :
    SendFaithful src byteLength isSpsOrPps (s.sendH264Nalu net src byteLength isSpsOrPps) := by
  rw [CRTPSender.sendH264Nalu, if_pos h]
  refine ⟨fun e he => absurd he List.not_mem_nil, false, rfl, ?_⟩
  exact iff_of_false Bool.false_ne_true fun hall => absurd hall.1 (not_le.mpr h)

/-- The fragment branch never reports success. -/
theorem sendFragments_ne_true (net : τ → BuiltPacket → Int × τ) (s : CRTPSender τ) (buf : Block)
    (p : Nat) {n : Nat} (hn : maxRtpPktLength < n) :
    (s.sendFragments net buf p n).outcome ≠ .ret true := by
  refine sendFragments_induct net s buf p hn (I := fun _ => True)
    (Q := fun r => r.outcome ≠ .ret true) trivial (fun _ _ _ _ => trivial) ?_
  intro st r _ hs
  cases hs with
  | done => nofun
  | fault => nofun
  | refused => nofun

/-- Input that is not refused and does not leave in one packet is fragmented, or ends in a
fault. -/
theorem sendH264Nalu_cases (net : τ → BuiltPacket → Int × τ) (s : CRTPSender τ) {src : Block}
    {byteLength : Nat} (h4 : 4 ≤ byteLength) {isSpsOrPps : Bool}
    (h : ¬ LeavesWhole src byteLength isSpsOrPps) :
    (∃ f, (s.sendH264Nalu net src byteLength isSpsOrPps).outcome = .fault f) ∨
      ∃ p n, maxRtpPktLength < n ∧
        s.sendH264Nalu net src byteLength isSpsOrPps = s.count.sendFragments net src p n := by
  cases hstrip : stripStartCode src byteLength with
  | error f =>
    left
    have hlong : ¬ (byteLength : Int) < 4 := by omega
    refine ⟨f, ?_⟩
    simp only [CRTPSender.sendH264Nalu, hlong, ite_false, Int.toNat_natCast, hstrip]
  | ok unit =>
    obtain ⟨p, n⟩ := unit
    rw [sendH264Nalu_eq net s h4 hstrip]
    have hwhole (hshort : isSpsOrPps = true ∨ n ≤ maxRtpPktLength) :
        ∃ f, (if isSpsOrPps then s.count.sendSpsOrPps net src p n
          else s.count.sendSingle net src p n).outcome = .fault f := by
      apply sendWhole_error net s.count hshort
      intro hfits
      apply h
      refine ⟨by omega, ?_⟩
      rw [Int.toNat_natCast, stripStartCode_unitOf h4 hstrip hfits.1]
      exact hfits
    cases isSpsOrPps with
    | true => exact Or.inl (hwhole (Or.inl rfl))
    | false =>
      rw [if_neg Bool.false_ne_true]
      by_cases hshort : n ≤ maxRtpPktLength
      · rw [if_pos hshort]
        exact Or.inl (hwhole (Or.inr hshort))
      · rw [if_neg hshort]
        exact Or.inr ⟨p, n, not_le.mp hshort, rfl⟩

/-- A call is faithful exactly if its unit leaves in one packet that the session accepts. -/
theorem callFaithful_iff_takesWhole (net : τ → BuiltPacket → Int × τ) (s : CRTPSender τ)
    (src : Block) (byteLength : Int) (isSpsOrPps : Bool) :
    CallFaithful net s src byteLength isSpsOrPps ↔
      LeavesWhole src byteLength isSpsOrPps ∧ TakesWhole net s src byteLength isSpsOrPps := by
  obtain ⟨hacquired, hreleased⟩ := released_sendByteCounted net s src byteLength isSpsOrPps
  constructor
  · intro hcall
    have htrue := hreleased.mp (hcall.released.trans hacquired)
    obtain ⟨b, hret, hb⟩ := hcall.send.reports
    rw [htrue] at hret
    cases hret
    have h4 := (hb.mp rfl).1
    obtain ⟨n, rfl⟩ := Int.eq_ofNat_of_zero_le (by omega : 0 ≤ byteLength)
    by_cases hwhole : LeavesWhole src n isSpsOrPps
    · obtain ⟨sendbuf, session, e, hbuf, hsend, -, hhanded, -⟩ := sendH264Nalu_whole net s hwhole
      have haccepted := (hb.mp rfl).2.2
      rw [hhanded, List.forall_mem_singleton] at haccepted
      exact ⟨hwhole, sendbuf, session, e, hbuf, hsend, haccepted⟩
    · rcases sendH264Nalu_cases net s (by omega : 4 ≤ n) hwhole with
        ⟨f, hf⟩ | ⟨p, n', hn', hfragments⟩
      · rw [hf] at htrue
        cases htrue
      · rw [hfragments] at htrue
        exact absurd htrue (sendFragments_ne_true net s.count src p hn')
  · rintro ⟨hwhole, sendbuf, session, e, hbuf, hsend, haccepted⟩
    obtain ⟨n, rfl⟩ := Int.eq_ofNat_of_zero_le (by have := hwhole.1; omega : 0 ≤ byteLength)
    have hfaithful := sendFaithful_whole net s hwhole
    obtain ⟨sendbuf', session', e', hbuf', hsend', -, -, hout⟩ := sendH264Nalu_whole net s hwhole
    rw [Int.toNat_natCast, hbuf'] at hbuf
    cases hbuf
    rw [Int.toNat_natCast, hsend'] at hsend
    cases hsend
    have htrue : checkError e.status = true := by simp [checkError, haccepted]
    rw [htrue] at hout
    have hrelease := hreleased.mpr hout
    refine ⟨hfaithful, ?_, hrelease.trans hacquired.symm⟩
    have hpassed : (sendByteCounted net (some s) src n isSpsOrPps false).outcome =
        (s.sendH264Nalu net src n isSpsOrPps).outcome :=
      congrArg Prod.snd (sendByteCounted_sendByte net (some s) src n isSpsOrPps false)
    rw [hpassed]
    exact hfaithful.reports

/-- A send reports faithfully to the end, with the elements released once, exactly if the unit
leaves in one packet that the session accepts; and the send alone is faithful whatever the
session answers, exactly if the input is refused or leaves in one packet. -/
theorem callFaithful_iff (src : Block) (byteLength : Int) (isSpsOrPps : Bool) :
    (∀ (τ : Type) (net : τ → BuiltPacket → Int × τ) (s : CRTPSender τ),
      CallFaithful net s src byteLength isSpsOrPps ↔
        LeavesWhole src byteLength isSpsOrPps ∧ TakesWhole net s src byteLength isSpsOrPps) ∧
    ((∀ (τ : Type) (net : τ → BuiltPacket → Int × τ) (s : CRTPSender τ),
        SendFaithful src byteLength isSpsOrPps
          (s.sendH264Nalu net src byteLength isSpsOrPps)) ↔
      byteLength < 4 ∨ LeavesWhole src byteLength isSpsOrPps) := by
  constructor
  · intro τ net s
    exact callFaithful_iff_takesWhole net s src byteLength isSpsOrPps
  · constructor
    · intro hall
      by_contra hnot
      obtain ⟨h4, hwhole⟩ := not_or.mp hnot
      obtain ⟨n, rfl⟩ := Int.eq_ofNat_of_zero_le (by omega : 0 ≤ byteLength)
      have hfaithful := hall Unit (fun _ _ => (0, ())) (CRTPSender.opened () 30 0 0)
      obtain ⟨b, hret, -⟩ := hfaithful.reports
      rcases sendH264Nalu_cases (fun _ _ => (0, ())) (CRTPSender.opened () 30 0 0)
        (by omega : 4 ≤ n) hwhole with ⟨f, hf⟩ | ⟨p, n', -, hfragments⟩
      · rw [hf] at hret
        cases hret
      · have hopen : (CRTPSender.opened () 30 0 0).count.toRTPSession.Open
            fun (_ : Unit) _ => (0, ()) := open_opened 30 0 0
        rw [hfragments] at hret
        exact sendFragments_open hopen src p n' b hret
    · rintro (hshort | hwhole) τ net s
      · exact sendFaithful_refused net s src hshort isSpsOrPps
      · obtain ⟨n, rfl⟩ := Int.eq_ofNat_of_zero_le (by have := hwhole.1; omega : 0 ≤ byteLength)
        exact sendFaithful_whole net s hwhole

/-- All fragments of a slice of 1101 bytes are accepted, and the function ends without a result;
a refused input is reported, but its elements are kept. -/
theorem not_callFaithful_overlongSlice :
    ¬ CallFaithful (fun (_ : Unit) _ => (0, ())) (CRTPSender.opened () 30 0 0) overlongSlice.block
      overlongSlice.buflen false ∧
    ¬ CallFaithful (fun (_ : Unit) _ => (0, ())) (CRTPSender.opened () 30 0 0)
      (.ofList [0, 0, 1]) 3 false := by
  constructor
  · intro h
    obtain ⟨b, hret, -⟩ := h.send.reports
    have hends : ((CRTPSender.opened () 30 0 0).sendH264Nalu (fun (_ : Unit) _ => (0, ()))
        overlongSlice.block overlongSlice.buflen false).outcome = .fallsOff := by
      decide +kernel
    rw [hends] at hret
    cases hret
  · intro h
    exact absurd h.released (by decide)

end Jrtplib4Android
