import Jrtplib4Android.Sender.FuTrain

/-!
# The buffers of a send

What `SendH264Nalu` reads of an array that ends with its unit and writes to `sendbuf`. The
parameter set path copies any length, a bare start code leaves nothing to take a header from,
and the fragment behind a whole number of packet lengths starts one byte too late.
-/

namespace Jrtplib4Android

open CSem

variable {τ : Type}

/-- The offset and the length of the unit behind the start code. -/
def unitOf (buf : Block) (buflen : Nat) : Nat × Nat :=
  if buf.slice 0 3 = [0, 0, 1] then (3, buflen - 3)
  else if buf.slice 0 4 = [0, 0, 0, 1] then (4, buflen - 4)
  else (0, buflen)

/-- Start code removal finds the unit. -/
theorem stripStartCode_eq {buf : Block} (h : 4 ≤ buf.size) (buflen : Nat) :
    stripStartCode buf buflen = .ok (unitOf buf buflen) := by
  have h3 : findStartCode2 buf = .ok (decide (buf.slice 0 3 = [0, 0, 1])) :=
    Block.startsWith_eq (Nat.le_of_succ_le h)
  have h4 : findStartCode3 buf = .ok (decide (buf.slice 0 4 = [0, 0, 0, 1])) :=
    Block.startsWith_eq h
  simp only [stripStartCode, h3, h4, bind, Except.bind, decide_eq_true_eq, unitOf]
  split_ifs <;> rfl

/-- The unit goes to the end of the input. -/
theorem stripStartCode_sum {buf : Block} {buflen p n : Nat} (h4 : 4 ≤ buflen)
    (h : stripStartCode buf buflen = .ok (p, n)) : p + n = buflen := by
  obtain ⟨two, -, h⟩ := bind_eq_ok h
  split at h
  · cases h
    omega
  · obtain ⟨three, -, h⟩ := bind_eq_ok h
    split at h <;> cases h
    · omega
    · omega

/-- In an array of fewer than four bytes no unit of four bytes fits. -/
theorem stripStartCode_unitOf {buf : Block} {buflen p n : Nat} (h4 : 4 ≤ buflen)
    (h : stripStartCode buf buflen = .ok (p, n)) (hin : p + n ≤ buf.size) :
    unitOf buf buflen = (p, n) := by
  rw [stripStartCode_sum h4 h] at hin
  rw [stripStartCode_eq (h4.trans hin)] at h
  exact Except.ok.inj h

theorem unitOf_sum (buf : Block) {buflen : Nat} (h4 : 4 ≤ buflen) :
    (unitOf buf buflen).1 + (unitOf buf buflen).2 = buflen := by
  unfold unitOf
  split_ifs
  · omega
  · omega
  · omega

/-- Past the start code the three branches see the unit. -/
theorem sendH264Nalu_eq (net : τ → BuiltPacket → Int × τ) (s : CRTPSender τ) {buf : Block}
    {buflen : Nat} (h4 : 4 ≤ buflen) {p n : Nat} (hstrip : stripStartCode buf buflen = .ok (p, n))
    (isSpsOrPps : Bool) :
    s.sendH264Nalu net buf buflen isSpsOrPps =
      if isSpsOrPps then s.count.sendSpsOrPps net buf p n
      else if n ≤ maxRtpPktLength then s.count.sendSingle net buf p n
      else s.count.sendFragments net buf p n := by
  have hlong : ¬ ((buflen : Nat) : Int) < 4 := by omega
  simp only [CRTPSender.sendH264Nalu, hlong, ite_false, Int.toNat_natCast, hstrip]

/-- `sendbuf` of the path that a unit takes in one packet. -/
def wholeBuf (buf : Block) (p n : Nat) (isSpsOrPps : Bool) : Except Fault Block :=
  if isSpsOrPps then memcpy (Block.fill sendLength 0) 0 buf (some p) n else singleNalu buf p n

/-- Both paths set the marker, fill `sendbuf` and send it. -/
theorem sendWhole_eq (net : τ → BuiltPacket → Int × τ) (s : CRTPSender τ) (buf : Block) (p n : Nat)
    (isSpsOrPps : Bool) :
    (if isSpsOrPps then s.sendSpsOrPps net buf p n else s.sendSingle net buf p n) =
      match wholeBuf buf p n isSpsOrPps with
      | .error f => ⟨s.setDefaultMark (!isSpsOrPps), [], .fault f⟩
      | .ok sendbuf => (s.setDefaultMark (!isSpsOrPps)).sendAndCheck net sendbuf n := by
  cases isSpsOrPps <;> rfl

/-- The array and `sendbuf` hold what is copied, and there is a first byte to take the header
from. -/
def WholeFits (buf : Block) (p n : Nat) (isSpsOrPps : Bool) : Prop :=
  p + n ≤ buf.size ∧ if isSpsOrPps then n ≤ sendLength else n ≤ maxRtpPktLength ∧ p < buf.size

instance (buf : Block) (p n : Nat) (isSpsOrPps : Bool) :
    Decidable (WholeFits buf p n isSpsOrPps) :=
  inferInstanceAs (Decidable (_ ∧ if isSpsOrPps then n ≤ sendLength else _ ∧ _))

variable {buf : Block} {p n : Nat} {isSpsOrPps : Bool}

/-- A unit that fits is put into `sendbuf`. -/
theorem wholeBuf_ok (h : WholeFits buf p n isSpsOrPps) :
    ∃ sendbuf, wholeBuf buf p n isSpsOrPps = .ok sendbuf ∧ sendbuf.size = sendLength ∧
      n ≤ sendLength := by
  obtain ⟨hin, hfits⟩ := h
  cases isSpsOrPps with
  | true =>
    exact ⟨_, Block.memcpy_eq _ 0 buf p hin (by rw [Nat.zero_add]; exact hfits), rfl, hfits⟩
  | false =>
    obtain ⟨hle, hp⟩ := hfits
    have hroom : n < sendLength := Nat.lt_of_le_of_lt hle (by decide)
    obtain ⟨sendbuf, hok, hsize, -⟩ := singleNalu_ok buf p hp hin hroom
    exact ⟨sendbuf, hok, hsize, Nat.le_of_lt hroom⟩

/-- A unit that does not fit is not. -/
theorem wholeBuf_error (hshort : isSpsOrPps = true ∨ n ≤ maxRtpPktLength)
    (h : ¬ WholeFits buf p n isSpsOrPps) : ∃ f, wholeBuf buf p n isSpsOrPps = .error f := by
  cases hbuf : wholeBuf buf p n isSpsOrPps with
  | error f => exact ⟨f, rfl⟩
  | ok sendbuf =>
    refine absurd ?_ h
    cases isSpsOrPps with
    | true =>
      change memcpy (Block.fill sendLength 0) 0 buf (some p) n = .ok sendbuf at hbuf
      obtain ⟨-, hroom, hin⟩ := Block.room_of_memcpy hbuf
      simp only [Block.size_fill] at hroom
      refine ⟨by omega, ?_⟩
      change n ≤ sendLength
      omega
    | false =>
      obtain ⟨b0, hb0, hrest⟩ := bind_eq_ok hbuf
      obtain ⟨header, -, hcopy⟩ := bind_eq_ok hrest
      obtain ⟨-, -, hin⟩ := Block.room_of_memcpy hcopy
      refine ⟨by omega, ?_, Block.lt_of_load hb0⟩
      simpa using hshort

/-- A unit that fits is handed over in one packet, whose status is the result. -/
theorem sendWhole_ok (net : τ → BuiltPacket → Int × τ) (s : CRTPSender τ)
    (h : WholeFits buf p n isSpsOrPps) : ∃ sendbuf session e,
      wholeBuf buf p n isSpsOrPps = .ok sendbuf ∧
      (s.setDefaultMark (!isSpsOrPps)).toRTPSession.sendPacket net sendbuf n = .ok (session, e) ∧
      e.payload.length = n ∧ n ≤ sendLength ∧
      (if isSpsOrPps then s.sendSpsOrPps net buf p n else s.sendSingle net buf p n) =
        ⟨{ s.setDefaultMark (!isSpsOrPps) with toRTPSession := session }, [e],
          .ret (checkError e.status)⟩ := by
  obtain ⟨sendbuf, hok, hsize, hn⟩ := wholeBuf_ok h
  obtain ⟨session, e, he⟩ := RTPSession.sendPacket_ok net
    (s.setDefaultMark (!isSpsOrPps)).toRTPSession sendbuf (n := n) (by rw [hsize]; exact hn)
  have hpayload := (RTPSession.sendPacket_recorded he).1
  refine ⟨sendbuf, session, e, hok, he, by rw [hpayload, Block.length_slice], hn, ?_⟩
  rw [sendWhole_eq, hok]
  simp only [CRTPSender.sendAndCheck, he]

/-- One that does not fit ends in a fault. -/
theorem sendWhole_error (net : τ → BuiltPacket → Int × τ) (s : CRTPSender τ)
    (hshort : isSpsOrPps = true ∨ n ≤ maxRtpPktLength) (h : ¬ WholeFits buf p n isSpsOrPps) :
    ∃ f, (if isSpsOrPps then s.sendSpsOrPps net buf p n else s.sendSingle net buf p n).outcome =
      .fault f := by
  obtain ⟨f, hf⟩ := wholeBuf_error hshort h
  exact ⟨f, by rw [sendWhole_eq, hf]⟩

/-- With bytes left over, every fragment ends inside the unit. -/
theorem fuBody_inside (p : Nat) {n k l t : Nat} (hn : n = k * maxRtpPktLength + l) (hl : 0 < l)
    (ht : t < k ∨ (t = k ∧ 0 < l)) :
    p + (t * maxRtpPktLength + 1) + fuBodyLen k l t ≤ p + n := by
  rcases ht with hlt | ⟨rfl, -⟩
  · have hmul := Nat.mul_le_mul_right maxRtpPktLength (Nat.succ_le_of_lt hlt)
    rw [Nat.succ_mul] at hmul
    rw [fuBodyLen, if_pos hlt]
    omega
  · rw [fuBodyLen, if_neg (Nat.lt_irrefl _)]
    omega

/-- A fragment that reaches past the array ends the loop. -/
theorem fuPass_error (net : τ → BuiltPacket → Int × τ) (p buflen l : Nat) {k : Nat}
    (st : CRTPSender.FuState τ) (ht : st.t < k)
    (hout : ¬ p + (st.t * maxRtpPktLength + 1) + maxRtpPktLength ≤ buf.size) :
    ∃ f, CRTPSender.fuPass net buf p buflen k l st =
      .leave ⟨st.sender, st.handed, .fault f⟩ := by
  have hloop : ¬ ¬ (st.t < k ∨ (st.t = k ∧ 0 < l)) := not_not.mpr (Or.inl ht)
  unfold CRTPSender.fuPass
  rw [if_neg hloop]
  split
  · obtain ⟨f, hf⟩ := fuFragment_error 1 0 hout
    exact ⟨f, by rw [hf]; rfl⟩
  · obtain ⟨f, hf⟩ := fuFragment_error 0 0 hout
    exact ⟨f, by rw [hf]; rfl⟩

/-- A session that takes every payload of up to `sendLength` bytes, with a transmitter that
takes every packet. -/
structure RTPSession.Open (net : τ → BuiltPacket → Int × τ) (s : RTPSession τ) : Prop where
  created : s.created = true
  init : s.packetbuilder.init = true
  maxpacksize : s.packetbuilder.maxpacksize = RTPPacketBuilder.rtpDefaultPacketSize
  numcsrcs : s.packetbuilder.numcsrcs = 0
  net : ∀ t packet, 0 ≤ (net t packet).1

variable {net : τ → BuiltPacket → Int × τ}

/-- An open session takes a fragment and stays open. -/
theorem RTPSession.Open.sendPacketWith {s s' : RTPSession τ} (h : s.Open net) {data : Block}
    {len : Nat} {mark : Bool} {inc : UInt32} {e : Handed} (hlen : len ≤ sendLength)
    (hsend : s.sendPacketWith net data len h264 mark inc = .ok (s', e)) :
    0 ≤ e.status ∧ s'.Open net := by
  have hsize : RTPPacketBuilder.rtpDefaultPacketSize = 1400 := rfl
  have hheader : RTPPacketBuilder.rtpHeaderSize = 12 := rfl
  have hmax : sendLength = 1150 := rfl
  have hcreation : s.packetbuilder.creationError h264 len = 0 := by
    rw [RTPPacketBuilder.creationError, h.maxpacksize, h.numcsrcs, if_neg (by decide),
      if_neg (by decide), if_neg (by decide), if_neg (by decide), if_neg (by omega)]
  simp only [RTPSession.sendPacketWith, RTPSession.transmit, RTPPacketBuilder.buildPacketWith,
    RTPPacketBuilder.privateBuildPacket, h.created, h.init, hcreation, Bool.true_eq_false,
    ite_true, ite_false, Int.lt_irrefl] at hsend
  by_cases hread : data.size < len
  · simp only [hread, ite_true] at hsend
    cases hsend
  · simp only [hread, ite_false, Except.ok.injEq, Prod.mk.injEq] at hsend
    obtain ⟨rfl, rfl⟩ := hsend
    exact ⟨le_min (h.net _ _) le_rfl, rfl, h.init, h.maxpacksize, h.numcsrcs, h.net⟩

theorem RTPSession.Open.setDefaultMark {s : RTPSession τ} (h : s.Open net) (m : Bool) :
    (s.setDefaultMark m).Open net := by
  simp only [RTPSession.setDefaultMark, RTPPacketBuilder.setDefaultMark, h.created, h.init,
    ite_true]
  exact { h with created := rfl, init := rfl }

/-- With an open session a built fragment is taken, and one that is not built ends the loop. -/
theorem fuSend_open {st : CRTPSender.FuState τ} (h : st.sender.toRTPSession.Open net)
    (fragment : Except Fault Block) {len : Nat} (hlen : len ≤ sendLength) (mark : Bool)
    (inc : UInt32) :
    (∃ r, CRTPSender.fuSend net st fragment len mark inc = .leave r ∧
        ∀ b, r.outcome ≠ .ret b) ∨
      ∃ st', CRTPSender.fuSend net st fragment len mark inc = .again st' ∧
        st'.sender.toRTPSession.Open net := by
  cases fragment with
  | error f => exact Or.inl ⟨_, rfl, nofun⟩
  | ok sendbuf =>
    cases hsend : st.sender.toRTPSession.sendPacketWith net sendbuf len h264 mark inc with
    | error f =>
      left
      refine ⟨⟨st.sender, st.handed, .fault f⟩, ?_, nofun⟩
      simp only [CRTPSender.fuSend, hsend]
    | ok result =>
      obtain ⟨session, e⟩ := result
      obtain ⟨hstatus, hopen⟩ := h.sendPacketWith hlen hsend
      have haccepted : checkError e.status = true := by simp [checkError, hstatus]
      right
      refine ⟨⟨{ st.sender with toRTPSession := session }, st.handed ++ [e], st.t + 1⟩, ?_, hopen⟩
      simp only [CRTPSender.fuSend, hsend, haccepted, ite_true]

/-- With an open session no pass returns. -/
theorem fuPass_open {st : CRTPSender.FuState τ} (h : st.sender.toRTPSession.Open net) (buf : Block)
    (p : Nat) {buflen k l : Nat} (hsum : buflen = k * maxRtpPktLength + l)
    (hl : l < maxRtpPktLength) :
    (∃ r, CRTPSender.fuPass net buf p buflen k l st = .leave r ∧ ∀ b, r.outcome ≠ .ret b) ∨
      ∃ st', CRTPSender.fuPass net buf p buflen k l st = .again st' ∧
        st'.sender.toRTPSession.Open net := by
  have hmax : sendLength = 1150 := rfl
  have hlength : maxRtpPktLength = 1100 := rfl
  have hwhole : maxRtpPktLength + 2 ≤ sendLength := by decide
  unfold CRTPSender.fuPass
  split
  · exact Or.inl ⟨_, rfl, nofun⟩
  split
  · exact fuSend_open h _ hwhole false 0
  split
  · exact fuSend_open h _ hwhole false 0
  split
  · rename_i hlast
    have hmark : ({ st with sender := st.sender.setDefaultMark true } :
        CRTPSender.FuState τ).sender.toRTPSession.Open net := h.setDefaultMark true
    refine fuSend_open hmark _ ?_ true _
    change (if 0 < l then buflen - st.t * maxRtpPktLength else maxRtpPktLength) - 1 + 2 ≤ sendLength
    rw [← hlast, hsum, Nat.add_sub_cancel_left]
    split <;> omega
  · exact Or.inr ⟨st, rfl, h⟩

/-- What every pass keeps and every leaving pass establishes holds of the fragment branch. -/
theorem sendFragments_post (net : τ → BuiltPacket → Int × τ) (s : CRTPSender τ) (buf : Block)
    (p n : Nat) {I : CRTPSender.FuState τ → Prop} {Q : Sending τ → Prop}
    (hinit : I ⟨s.setDefaultMark false, [], 0⟩)
    (hspin : Q ⟨s.setDefaultMark false, [], .fault .spin⟩)
    (hagain : ∀ st st', I st → CRTPSender.fuPass net buf p n (n / maxRtpPktLength)
      (n % maxRtpPktLength) st = .again st' → I st')
    (hleave : ∀ st r, I st → CRTPSender.fuPass net buf p n (n / maxRtpPktLength)
      (n % maxRtpPktLength) st = .leave r → Q r) : Q (s.sendFragments net buf p n) := by
  change Q ((loop (CRTPSender.fuPass net buf p n (n / maxRtpPktLength) (n % maxRtpPktLength))
    (n / maxRtpPktLength + 2) ⟨s.setDefaultMark false, [], 0⟩).getD
      ⟨s.setDefaultMark false, [], .fault .spin⟩)
  cases hloop : loop (CRTPSender.fuPass net buf p n (n / maxRtpPktLength) (n % maxRtpPktLength))
      (n / maxRtpPktLength + 2) ⟨s.setDefaultMark false, [], 0⟩ with
  | none => exact hspin
  | some r => exact loop_post hagain hleave _ _ r hinit hloop

/-- With an open session the fragment branch does not return. -/
theorem sendFragments_open {s : CRTPSender τ} (h : s.toRTPSession.Open net) (buf : Block)
    (p n : Nat) (b : Bool) : (s.sendFragments net buf p n).outcome ≠ .ret b := by
  have hl := Nat.mod_lt n (by decide : 0 < maxRtpPktLength)
  have hsum := (Nat.div_add_mod' n maxRtpPktLength).symm
  apply sendFragments_post net s buf p n (I := fun st => st.sender.toRTPSession.Open net)
    (Q := fun r => r.outcome ≠ .ret b) (h.setDefaultMark false) nofun
  · intro st st' hst hpass
    rcases fuPass_open hst buf p hsum hl with ⟨r, hleave, -⟩ | ⟨next, hagain, hopen⟩
    · rw [hleave] at hpass
      cases hpass
    · rw [hagain] at hpass
      cases hpass
      exact hopen
  · intro st r hst hpass
    rcases fuPass_open hst buf p hsum hl with ⟨r', hleave, hnot⟩ | ⟨next, hagain, -⟩
    · rw [hleave] at hpass
      cases hpass
      exact hnot b
    · rw [hagain] at hpass
      cases hpass

/-- With nothing left over, the last whole fragment reaches past an array that ends with the
unit, so the loop is not left at its end. -/
theorem sendFragments_overreads (net : τ → BuiltPacket → Int × τ) (s : CRTPSender τ) {buf : Block}
    {p n : Nat} (hend : p + n = buf.size) (hn : maxRtpPktLength < n)
    (hl : n % maxRtpPktLength = 0) : (s.sendFragments net buf p n).outcome ≠ .fallsOff := by
  have hpos : 0 < maxRtpPktLength := by decide
  have hk : 0 < n / maxRtpPktLength := Nat.div_pos (Nat.le_of_lt hn) hpos
  have hsum := (Nat.div_add_mod' n maxRtpPktLength).symm
  have hstep := fuPass_step net buf p hk (Nat.mod_lt n hpos) hsum
  apply sendFragments_post net s buf p n (I := fun st => st.t < n / maxRtpPktLength)
    (Q := fun r => r.outcome ≠ .fallsOff) hk nofun
  · intro st st' hst hpass
    have hsent := hstep st
    rw [hpass] at hsent
    cases hsent with
    | sent session e ht =>
      change st.t + 1 < n / maxRtpPktLength
      by_contra hlast
      have hmul := congrArg (· * maxRtpPktLength)
        (Nat.le_antisymm hst (not_lt.mp hlast) : st.t + 1 = n / maxRtpPktLength)
      simp only [Nat.succ_mul] at hmul
      obtain ⟨f, hf⟩ := fuPass_error net p n (n % maxRtpPktLength) st hst
        (by omega : ¬ _ ≤ buf.size)
      rw [hf] at hpass
      cases hpass
  · intro st r hst hpass
    have hleft := hstep st
    rw [hpass] at hleft
    cases hleft with
    | done hend => exact absurd (Or.inl hst) hend
    | fault => nofun
    | refused => nofun

/-- With bytes left over, the loop stays inside the unit and `sendbuf`. -/
theorem sendFragments_inside (net : τ → BuiltPacket → Int × τ) (s : CRTPSender τ) {buf : Block}
    {p n : Nat} (hin : p + n ≤ buf.size) (hn : maxRtpPktLength < n)
    (hl : 0 < n % maxRtpPktLength) :
    (∀ f, (s.sendFragments net buf p n).outcome ≠ .fault f) ∧
      ∀ e ∈ (s.sendFragments net buf p n).handed, e.payload.length ≤ sendLength := by
  have hsum := (Nat.div_add_mod' n maxRtpPktLength).symm
  have hmod := Nat.mod_lt n (by decide : 0 < maxRtpPktLength)
  have hlength (t : Nat) : (fuPayload buf p (n / maxRtpPktLength) (n % maxRtpPktLength)
      t).length ≤ sendLength := by
    have hbody : fuBodyLen (n / maxRtpPktLength) (n % maxRtpPktLength) t ≤ maxRtpPktLength := by
      unfold fuBodyLen
      split <;> omega
    have hwhole : maxRtpPktLength + 2 ≤ sendLength := by decide
    rw [fuPayload, List.length_cons, List.length_cons, Block.length_slice]
    omega
  have happend {st : CRTPSender.FuState τ} {e : Handed}
      (hst : ∀ e ∈ st.handed, e.payload.length ≤ sendLength)
      (hpayload : e.payload = fuPayload buf p (n / maxRtpPktLength) (n % maxRtpPktLength) st.t) :
      ∀ e' ∈ st.handed ++ [e], e'.payload.length ≤ sendLength := by
    rw [List.forall_mem_append]
    refine ⟨hst, List.forall_mem_singleton.mpr ?_⟩
    rw [hpayload]
    exact hlength st.t
  refine sendFragments_induct net s buf p hn
    (I := fun st => ∀ e ∈ st.handed, e.payload.length ≤ sendLength)
    (Q := fun r => (∀ f, r.outcome ≠ .fault f) ∧ ∀ e ∈ r.handed, e.payload.length ≤ sendLength)
    (fun e he => absurd he List.not_mem_nil) ?_ ?_
  · intro st st' hst hs
    cases hs with
    | sent session e ht hpayload => exact happend hst hpayload
  · intro st r hst hs
    cases hs with
    | done => exact ⟨fun f hf => (by cases hf), hst⟩
    | fault sender f ht hout =>
      have hbody := fuBody_inside p hsum hl ht
      exact absurd (hbody.trans hin) hout
    | refused sender e ht hpayload => exact ⟨fun f hf => (by cases hf), happend hst hpayload⟩

/-- Nothing outside the array and `sendbuf` is accessed, and no longer payload is handed over. -/
structure BoundsSafe (r : Sending τ) : Prop where
  inside : ∀ f, r.outcome ≠ .fault f
  lengths : ∀ e ∈ r.handed, e.payload.length ≤ sendLength

/-- The lengths of a unit that stay inside both. -/
def UnitInside (n : Nat) (isSpsOrPps : Bool) : Prop :=
  if isSpsOrPps then n ≤ sendLength
  else 0 < n ∧ (n ≤ maxRtpPktLength ∨ n % maxRtpPktLength ≠ 0)

instance (n : Nat) (isSpsOrPps : Bool) : Decidable (UnitInside n isSpsOrPps) :=
  inferInstanceAs (Decidable (if isSpsOrPps then _ else _ ∧ _))

theorem open_opened (framerate : Int) (timestamp : UInt32) (seqnr : UInt16) :
    (CRTPSender.opened () framerate timestamp seqnr).toRTPSession.Open
      fun (_ : Unit) _ => (0, ()) :=
  ⟨rfl, rfl, rfl, rfl, fun _ _ => le_rfl⟩

/-- A unit that ends with its array is sent inside the bounds. -/
theorem boundsSafe_of_unitInside (net : τ → BuiltPacket → Int × τ) (s : CRTPSender τ) {buf : Block}
    (h4 : 4 ≤ buf.size) {p n : Nat} (hstrip : stripStartCode buf buf.size = .ok (p, n))
    {isSpsOrPps : Bool} (hsafe : UnitInside n isSpsOrPps) :
    BoundsSafe (s.sendH264Nalu net buf buf.size isSpsOrPps) := by
  have hend := stripStartCode_sum h4 hstrip
  rw [sendH264Nalu_eq net s h4 hstrip]
  have hwhole (hfits : WholeFits buf p n isSpsOrPps) :
      BoundsSafe (if isSpsOrPps then s.count.sendSpsOrPps net buf p n
        else s.count.sendSingle net buf p n) := by
    obtain ⟨sendbuf, session, e, -, -, hlength, hn, hsend⟩ := sendWhole_ok net s.count hfits
    rw [hsend]
    refine ⟨nofun, List.forall_mem_singleton.mpr ?_⟩
    rw [hlength]
    exact hn
  cases isSpsOrPps with
  | true => exact hwhole ⟨Nat.le_of_eq hend, hsafe⟩
  | false =>
    obtain ⟨hpos, hlen⟩ := hsafe
    rw [if_neg Bool.false_ne_true]
    by_cases hshort : n ≤ maxRtpPktLength
    · rw [if_pos hshort]
      exact hwhole ⟨Nat.le_of_eq hend, hshort, by omega⟩
    · rw [if_neg hshort]
      obtain ⟨hinside, hlengths⟩ := sendFragments_inside net s.count (Nat.le_of_eq hend)
        (not_le.mp hshort) (Nat.pos_of_ne_zero (hlen.resolve_left hshort))
      exact ⟨hinside, hlengths⟩

/-- Every send of an array that ends with its unit stays inside the array and `sendbuf`, exactly
if a parameter set is no longer than `sendbuf`, and another unit is not empty and no whole
number of packet lengths above one. -/
theorem boundsSafe_iff (buf : Block) (h4 : 4 ≤ buf.size) (isSpsOrPps : Bool) :
    (∀ (τ : Type) (net : τ → BuiltPacket → Int × τ) (s : CRTPSender τ),
        BoundsSafe (s.sendH264Nalu net buf buf.size isSpsOrPps)) ↔
      UnitInside (unitOf buf buf.size).2 isSpsOrPps := by
  rcases hunit : unitOf buf buf.size with ⟨p, n⟩
  have hstrip := stripStartCode_eq h4 buf.size
  rw [hunit] at hstrip
  have hend := stripStartCode_sum h4 hstrip
  constructor
  · intro hall
    have hsafe := hall Unit (fun _ _ => (0, ())) (CRTPSender.opened () 30 0 0)
    rw [sendH264Nalu_eq _ _ h4 hstrip] at hsafe
    have hfits (hshort : isSpsOrPps = true ∨ n ≤ maxRtpPktLength)
        (hsafe : BoundsSafe (if isSpsOrPps then
            (CRTPSender.opened () 30 0 0).count.sendSpsOrPps (fun _ _ => (0, ())) buf p n
          else (CRTPSender.opened () 30 0 0).count.sendSingle (fun _ _ => (0, ())) buf p n)) :
        WholeFits buf p n isSpsOrPps := by
      by_contra hnot
      obtain ⟨f, hf⟩ := sendWhole_error (fun _ _ => (0, ())) (CRTPSender.opened () 30 0 0).count
        hshort hnot
      exact hsafe.inside f hf
    cases isSpsOrPps with
    | true => exact (hfits (Or.inl rfl) hsafe).2
    | false =>
      rw [if_neg Bool.false_ne_true] at hsafe
      by_cases hshort : n ≤ maxRtpPktLength
      · rw [if_pos hshort] at hsafe
        obtain ⟨-, -, hp⟩ := hfits (Or.inr hshort) hsafe
        exact ⟨by omega, Or.inl hshort⟩
      · rw [if_neg hshort] at hsafe
        refine ⟨by omega, Or.inr fun hl => ?_⟩
        have hopen : (CRTPSender.opened () 30 0 0).count.toRTPSession.Open
            fun (_ : Unit) _ => (0, ()) := open_opened 30 0 0
        have hreturns := sendFragments_open hopen buf p n
        have hends := sendFragments_overreads (fun (_ : Unit) _ => (0, ()))
          (CRTPSender.opened () 30 0 0).count hend (not_le.mp hshort) hl
        cases hout : ((CRTPSender.opened () 30 0 0).count.sendFragments (fun _ _ => (0, ())) buf p
            n).outcome with
        | ret b => exact hreturns b hout
        | fallsOff => exact hends hout
        | fault f => exact hsafe.inside f hout
  · intro hsafe τ net s
    exact boundsSafe_of_unitInside net s h4 hstrip hsafe

/-- A slice of one byte behind a long start code. -/
theorem boundsSafe_shortSlice :
    BoundsSafe ((CRTPSender.opened () 30 0 0).sendH264Nalu (fun (_ : Unit) _ => (0, ()))
      (.ofList [0, 0, 0, 1, 0x41]) (Block.ofList [0, 0, 0, 1, 0x41]).size false) :=
  (boundsSafe_iff (.ofList [0, 0, 0, 1, 0x41]) (by decide) false).mpr (by decide) Unit _ _

/-- A start code with nothing behind it has the byte behind the array read. -/
theorem not_boundsSafe_bareStartCode :
    ¬ BoundsSafe ((CRTPSender.opened () 30 0 0).sendH264Nalu (fun (_ : Unit) _ => (0, ()))
      (.ofList [0, 0, 0, 1]) (Block.ofList [0, 0, 0, 1]).size false) := by
  intro h
  exact h.inside .read (by decide)

end Jrtplib4Android
