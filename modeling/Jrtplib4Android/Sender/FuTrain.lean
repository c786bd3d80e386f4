import Mathlib.Data.List.Basic
import Jrtplib4Android.Sender.Unfragmented

/-!
# FU-A trains

`FuStep` says once what a pass of the fragment loop can do: leave because the
index is past the last fragment, fault, or hand over the fragment of that index
and either leave refused or go round. `IsFuTrain` is the receiver's side: the
header bits of every fragment and the reassembly of the whole train. The two
meet in `isFuTrain_iff`.
-/

namespace Jrtplib4Android

open CSem

variable {τ : Type}

/-- The body length of fragment `t` of `k` whole lengths and `l` bytes over. -/
def fuBodyLen (k l t : Nat) : Nat := if t < k then maxRtpPktLength else l - 1

/-- The payload of fragment `t`: indicator, header and body. -/
def fuPayload (buf : Block) (p k l t : Nat) : List UInt8 :=
  (naluHeaderOf (buf.byte p) 28).toByte ::
    (fuHeaderOf (buf.byte p) (if t = 0 then 1 else 0) (if t = k then 1 else 0)).toByte ::
      buf.slice (p + (t * maxRtpPktLength + 1)) (fuBodyLen k l t)

/-- The sender a fragment is handed over by: the last one first sets the default marker. -/
def fuSender (k : Nat) (st : CRTPSender.FuState τ) : CRTPSender τ :=
  if st.t = k then st.sender.setDefaultMark true else st.sender

/-- The timestamp increment passed with fragment `t`. -/
def fuIncrement (k : Nat) (st : CRTPSender.FuState τ) : UInt32 :=
  if st.t = k then st.sender.pts else 0

/-- Everything a pass of the fragment loop can do. -/
inductive FuStep (buf : Block) (p k l : Nat) (st : CRTPSender.FuState τ) :
    Pass (CRTPSender.FuState τ) (Sending τ) → Prop where
  | done (hend : ¬ (st.t < k ∨ (st.t = k ∧ 0 < l))) :
      FuStep buf p k l st (.leave ⟨st.sender, st.handed, .fallsOff⟩)
  | fault (sender : CRTPSender τ) (f : Fault) (ht : st.t < k ∨ (st.t = k ∧ 0 < l))
      (hout : ¬ p + (st.t * maxRtpPktLength + 1) + fuBodyLen k l st.t ≤ buf.size) :
      FuStep buf p k l st (.leave ⟨sender, st.handed, .fault f⟩)
  | refused (sender : CRTPSender τ) (e : Handed) (ht : st.t < k ∨ (st.t = k ∧ 0 < l))
      (hpayload : e.payload = fuPayload buf p k l st.t) (hmark : e.mark = decide (st.t = k))
      (hstatus : e.status < 0) :
      FuStep buf p k l st (.leave ⟨sender, st.handed ++ [e], .ret false⟩)
  | sent (session : RTPSession τ) (e : Handed) (ht : st.t < k ∨ (st.t = k ∧ 0 < l))
      (hpayload : e.payload = fuPayload buf p k l st.t) (hmark : e.mark = decide (st.t = k))
      (hstatus : 0 ≤ e.status)
      (haccepted : RTPSession.Accepted (fuSender k st).toRTPSession session e
        (fuBodyLen k l st.t + 2) (fuIncrement k st)) :
      FuStep buf p k l st
        (.again ⟨{ fuSender k st with toRTPSession := session }, st.handed ++ [e], st.t + 1⟩)

/-- `sendbuf` of a fragment whose body lies inside the caller's array. -/
theorem fuFragment_ok {buf : Block} {p off n : Nat} (s e : BitVec 1)
    (hin : p + off + n ≤ buf.size) (hoff : 0 < off) (hn : n ≤ maxRtpPktLength) :
    ∃ sendbuf, fuFragment buf p off n s e = .ok sendbuf ∧ sendbuf.size = sendLength ∧
      sendbuf.slice 0 (n + 2) = (naluHeaderOf (buf.byte p) 28).toByte ::
        (fuHeaderOf (buf.byte p) s e).toByte :: buf.slice (p + off) n := by
  have h0 : 0 < (Block.fill sendLength 0).size := by decide
  have h1 : 1 < (Block.fill sendLength 0).size := by decide
  have hs : 2 + n ≤ sendLength := by
    simp only [maxRtpPktLength, sendLength] at hn ⊢
    omega
  simp only [fuFragment, Block.load_eq (by omega : p < buf.size), bind, Except.bind,
    Block.store, h0, ite_true]
  simp only [Block.size_fill] at h1
  simp only [Block.size_fill, h1, ite_true]
  refine ⟨_, Block.memcpy_eq _ 2 buf _ hin hs, rfl, ?_⟩
  rw [Nat.add_comm n 2, Block.slice_add, Nat.zero_add, Block.slice_copy_self,
    Block.slice_copy_of_le (by omega)]
  rfl

/-- A fragment whose body reaches past the caller's array is never built. -/
theorem fuFragment_error {buf : Block} {p off n : Nat} (s e : BitVec 1)
    (hout : ¬ p + off + n ≤ buf.size) : ∃ f, fuFragment buf p off n s e = .error f := by
  have h0 : 0 < sendLength := by decide
  have h1 : 1 < sendLength := by decide
  have hn : ¬ (n : Int) < 0 := by omega
  have hr : buf.size < p + off + n := by omega
  by_cases hp : p < buf.size
  · exact ⟨.read, by simp only [fuFragment, Block.load_eq hp, bind, Except.bind, Block.store,
      Block.size_fill, h0, h1, ite_true, memcpy, hn, ite_false, Int.toNat_natCast, hr]⟩
  · exact ⟨.read, by simp only [fuFragment, Block.load, hp, ite_false, bind, Except.bind]⟩

/-- Handing over a built fragment either is refused or goes round. -/
theorem fuSend_cases (net : τ → BuiltPacket → Int × τ) (st : CRTPSender.FuState τ)
    {sendbuf : Block} {len : Nat} (mark : Bool) (inc : UInt32) (hlen : len ≤ sendbuf.size) :
    ∃ session e, e.payload = sendbuf.slice 0 len ∧ e.mark = mark ∧
      ((e.status < 0 ∧ CRTPSender.fuSend net st (.ok sendbuf) len mark inc =
          .leave ⟨{ st.sender with toRTPSession := session }, st.handed ++ [e], .ret false⟩) ∨
        (0 ≤ e.status ∧ RTPSession.Accepted st.sender.toRTPSession session e len inc ∧
          CRTPSender.fuSend net st (.ok sendbuf) len mark inc =
            .again ⟨{ st.sender with toRTPSession := session }, st.handed ++ [e], st.t + 1⟩)) := by
  obtain ⟨session, e, he⟩ :=
    RTPSession.sendPacketWith_ok net st.sender.toRTPSession h264 mark inc hlen
  obtain ⟨hp, hm⟩ := RTPSession.sendPacketWith_recorded he
  refine ⟨session, e, hp, hm, ?_⟩
  by_cases hs : e.status < 0
  · exact Or.inl ⟨hs, by simp [CRTPSender.fuSend, he, checkError, hs]⟩
  · exact Or.inr ⟨by omega, RTPSession.sendPacketWith_accepted he (by omega),
      by simp [CRTPSender.fuSend, he, checkError, hs]⟩

/-- The common shape of the three arms: fragment `t` is built and handed over. -/
private theorem fuArm_step (net : τ → BuiltPacket → Int × τ) (buf : Block) (p : Nat) {k l : Nat}
    (st : CRTPSender.FuState τ) (hl : l < maxRtpPktLength)
    (ht : st.t < k ∨ (st.t = k ∧ 0 < l)) {s e : BitVec 1}
    (hs : s = if st.t = 0 then 1 else 0) (he : e = if st.t = k then 1 else 0) :
    FuStep buf p k l st (CRTPSender.fuSend net ⟨fuSender k st, st.handed, st.t⟩
      (fuFragment buf p (st.t * maxRtpPktLength + 1) (fuBodyLen k l st.t) s e)
      (fuBodyLen k l st.t + 2) (decide (st.t = k)) (fuIncrement k st)) := by
  have hn : fuBodyLen k l st.t ≤ maxRtpPktLength := by
    unfold fuBodyLen
    split <;> omega
  subst hs he
  by_cases hin : p + (st.t * maxRtpPktLength + 1) + fuBodyLen k l st.t ≤ buf.size
  · obtain ⟨sendbuf, hok, hsize, hslice⟩ := fuFragment_ok (if st.t = 0 then 1 else 0)
      (if st.t = k then 1 else 0) hin (Nat.succ_pos _) hn
    have hlen : fuBodyLen k l st.t + 2 ≤ sendbuf.size := by
      rw [hsize]
      simp only [maxRtpPktLength, sendLength] at hn ⊢
      omega
    rw [hok]
    obtain ⟨session, e, hp, hm, ⟨hneg, heq⟩ | ⟨hpos, hacc, heq⟩⟩ :=
      fuSend_cases net ⟨fuSender k st, st.handed, st.t⟩ (decide (st.t = k)) (fuIncrement k st) hlen
    · rw [heq]
      exact .refused _ e ht (hp.trans hslice) hm hneg
    · rw [heq]
      exact .sent session e ht (hp.trans hslice) hm hpos hacc
  · obtain ⟨f, hf⟩ := fuFragment_error (if st.t = 0 then 1 else 0)
      (if st.t = k then 1 else 0) hin
    rw [hf]
    exact .fault _ f ht hin

/-- Every pass of the fragment loop is one of the four steps. -/
theorem fuPass_step (net : τ → BuiltPacket → Int × τ) (buf : Block) (p : Nat) {buflen k l : Nat}
    (hk : 0 < k) (hl : l < maxRtpPktLength) (hsum : buflen = k * maxRtpPktLength + l)
    (st : CRTPSender.FuState τ) :
    FuStep buf p k l st (CRTPSender.fuPass net buf p buflen k l st) := by
  obtain ⟨sender, handed, t⟩ := st
  by_cases hend : t < k ∨ (t = k ∧ 0 < l)
  · have harm := fuArm_step net buf p ⟨sender, handed, t⟩ hl hend rfl rfl
    unfold CRTPSender.fuPass
    rw [if_neg (by simpa only [not_not] using hend)]
    rcases Nat.lt_trichotomy t k with hlt | rfl | hgt
    · have hne : t ≠ k := by omega
      simp only [fuSender, fuIncrement, fuBodyLen, hlt, hne, ite_true, ite_false,
        decide_false] at harm
      by_cases h0 : t = 0
      · rw [if_pos h0]
        simpa only [h0, ite_true] using harm
      · rw [if_neg h0, if_pos hlt]
        simpa only [h0, ite_false] using harm
    · have h0 : t ≠ 0 := by omega
      have hlpos : 0 < l := by omega
      have hlen : buflen - t * maxRtpPktLength = l := by omega
      simp only [fuSender, fuIncrement, fuBodyLen, ite_true, decide_true, Nat.lt_irrefl,
        ite_false, h0] at harm
      rw [if_neg h0, if_neg (Nat.lt_irrefl t), if_pos rfl]
      simpa only [hlpos, ite_true, hlen, CRTPSender.pts_setDefaultMark] using harm
    · omega
  · unfold CRTPSender.fuPass
    rw [if_pos hend]
    exact .done hend

/-- The induction over the fragment loop: what holds at its head and is kept by every
step that goes round gives what every leaving step establishes. The loop ends
because a step that goes round has an index up to `k` and increments it. -/
theorem sendFragments_induct (net : τ → BuiltPacket → Int × τ) (s : CRTPSender τ) (buf : Block)
    (p : Nat) {n : Nat} (hn : maxRtpPktLength < n) {I : CRTPSender.FuState τ → Prop}
    {Q : Sending τ → Prop} (hinit : I ⟨s.setDefaultMark false, [], 0⟩)
    (hagain : ∀ st st', I st →
      FuStep buf p (n / maxRtpPktLength) (n % maxRtpPktLength) st (.again st') → I st')
    (hleave : ∀ st r, I st →
      FuStep buf p (n / maxRtpPktLength) (n % maxRtpPktLength) st (.leave r) → Q r) :
    Q (s.sendFragments net buf p n) := by
  have hpos : 0 < maxRtpPktLength := by decide
  have hstep := fuPass_step net buf p (Nat.div_pos (Nat.le_of_lt hn) hpos) (Nat.mod_lt n hpos)
    (Nat.div_add_mod' n maxRtpPktLength).symm
  have hloop : ∃ r, loop (CRTPSender.fuPass net buf p n (n / maxRtpPktLength)
      (n % maxRtpPktLength)) (n / maxRtpPktLength + 2) ⟨s.setDefaultMark false, [], 0⟩ =
      some r ∧ Q r := by
    refine loop_eq_some (I := I) (Q := Q) (μ := fun st => n / maxRtpPktLength + 1 - st.t) ?_ ?_
      _ _ hinit (Nat.lt_succ_self _)
    · intro st st' hst he
      have hs := hstep st
      rw [he] at hs
      refine ⟨hagain st st' hst hs, ?_⟩
      cases hs with
      | sent session e ht => simp only; omega
    · intro st r hst he
      have hs := hstep st
      rw [he] at hs
      exact hleave st r hst hs
  obtain ⟨r, hr, hq⟩ := hloop
  simp only [CRTPSender.sendFragments, hr, Option.getD_some]
  exact hq

/-- Payload and RTP marker of one packet. -/
def Handed.wire (e : Handed) : List UInt8 × Bool := (e.payload, e.mark)

/-- Payload and marker of fragment `t`. -/
def fuWire (buf : Block) (p k l t : Nat) : List UInt8 × Bool :=
  (fuPayload buf p k l t, decide (t = k))

/-- When bytes are left over, the loop hands over fragments `0` to `k` in order. -/
theorem sendFragments_wire (net : τ → BuiltPacket → Int × τ) (s : CRTPSender τ) {buf : Block}
    {p n : Nat} (hn : maxRtpPktLength < n) (hin : p + n ≤ buf.size)
    (hl : 0 < n % maxRtpPktLength)
    (hacc : ∀ e ∈ (s.sendFragments net buf p n).handed, 0 ≤ e.status) :
    (s.sendFragments net buf p n).handed.map Handed.wire =
      (List.range (n / maxRtpPktLength + 1)).map
        (fuWire buf p (n / maxRtpPktLength) (n % maxRtpPktLength)) := by
  have hsum := Nat.div_add_mod' n maxRtpPktLength
  refine sendFragments_induct net s buf p hn
    (I := fun st => st.t ≤ n / maxRtpPktLength + 1 ∧ st.handed.map Handed.wire =
      (List.range st.t).map (fuWire buf p (n / maxRtpPktLength) (n % maxRtpPktLength)))
    (Q := fun r => (∀ e ∈ r.handed, 0 ≤ e.status) → r.handed.map Handed.wire =
      (List.range (n / maxRtpPktLength + 1)).map
        (fuWire buf p (n / maxRtpPktLength) (n % maxRtpPktLength)))
    ⟨Nat.zero_le _, rfl⟩ ?_ ?_ hacc
  · rintro st st' ⟨_, hw⟩ hs
    cases hs with
    | sent session e ht hpayload hmark =>
      refine ⟨by simp only; omega, ?_⟩
      simp only [List.map_append, hw, List.range_succ, List.map_singleton, Handed.wire, fuWire,
        hpayload, hmark]
  · rintro st r ⟨hle, hw⟩ hs hok
    cases hs with
    | done hend =>
      have ht : st.t = n / maxRtpPktLength + 1 := by omega
      rw [← ht]
      exact hw
    | fault sender f ht hout =>
      -- the last fragment ends with the unit, so none reaches past the array
      refine absurd ?_ hout
      rcases ht with hlt | ⟨heq, _⟩
      · have hmul := Nat.mul_le_mul_right maxRtpPktLength (Nat.succ_le_of_lt hlt)
        rw [Nat.succ_mul] at hmul
        rw [fuBodyLen, if_pos hlt]
        omega
      · rw [fuBodyLen, if_neg (by omega), heq]
        omega
    | refused sender e ht hpayload hmark hstatus =>
      have hpos := hok e (by simp only [List.mem_append, List.mem_singleton, or_true])
      omega

/-- When nothing is left over, the last fragment is never reached: no packet carries
the marker. -/
theorem sendFragments_unmarked (net : τ → BuiltPacket → Int × τ) (s : CRTPSender τ) (buf : Block)
    (p : Nat) {n : Nat} (hn : maxRtpPktLength < n) (hl : n % maxRtpPktLength = 0) :
    ∀ e ∈ (s.sendFragments net buf p n).handed, e.mark = false := by
  refine sendFragments_induct net s buf p hn
    (I := fun st => ∀ e ∈ st.handed, e.mark = false)
    (Q := fun r => ∀ e ∈ r.handed, e.mark = false) (by simp) ?_ ?_
  · intro st st' hst hs
    cases hs with
    | sent session e ht hpayload hmark =>
      have hne : st.t ≠ n / maxRtpPktLength := by omega
      intro e' he'
      rcases List.mem_append.mp he' with he' | he'
      · exact hst e' he'
      · rw [List.mem_singleton.mp he', hmark, decide_eq_false hne]
  · intro st r hst hs
    cases hs with
    | done => exact hst
    | fault => exact hst
    | refused sender e ht hpayload hmark =>
      have hne : st.t ≠ n / maxRtpPktLength := by omega
      intro e' he'
      rcases List.mem_append.mp he' with he' | he'
      · exact hst e' he'
      · rw [List.mem_singleton.mp he', hmark, decide_eq_false hne]

/-- RFC 6184 reassembly: the NAL header is the indicator's `F` and `NRI` with the type of
the FU header, and the unit goes on with the fragment bodies in order. -/
def reassemble : List (List UInt8) → Option (List UInt8)
  | (ind :: hdr :: body) :: rest =>
    some (((ind &&& 0xe0) ||| (hdr &&& 0x1f)) :: (body ++ rest.flatMap (List.drop 2)))
  | _ => none

/-- A well-formed train of fragments of a unit. -/
structure IsFuTrain (nal : List UInt8) (train : List (List UInt8 × Bool)) : Prop where
  /-- The header bits of every fragment, with `S` on exactly the first one and `E` and
  the RTP marker on exactly the last one. -/
  fields : ∀ i (hi : i < train.length), ∃ ind hdr body, train[i].1 = ind :: hdr :: body ∧
    ind &&& 0x1f = 28 ∧ ind &&& 0x60 = nal.headD 0 &&& 0x60 ∧
    hdr &&& 0x1f = nal.headD 0 &&& 0x1f ∧
    (hdr &&& 0x80 ≠ 0 ↔ i = 0) ∧ (hdr &&& 0x40 ≠ 0 ↔ i + 1 = train.length) ∧
    (train[i].2 = true ↔ i + 1 = train.length)
  reassembly : reassemble (train.map Prod.fst) = some nal

/-- A train has a fragment with the marker. -/
theorem IsFuTrain.exists_marked {nal : List UInt8} {train : List (List UInt8 × Bool)}
    (h : IsFuTrain nal train) : ∃ w ∈ train, w.2 = true := by
  have hne : train ≠ [] := by
    rintro rfl
    exact absurd h.reassembly (by simp [reassemble])
  have hpos := List.length_pos_iff.mpr hne
  obtain ⟨_, _, _, _, _, _, _, _, _, hmark⟩ := h.fields (train.length - 1) (by omega)
  exact ⟨_, List.getElem_mem _, hmark.mpr (by omega)⟩

theorem indicator_fields (b0 : UInt8) :
    (naluHeaderOf b0 28).toByte &&& 0x1f = 28 ∧
      (naluHeaderOf b0 28).toByte &&& 0x60 = b0 &&& 0x60 := by
  revert b0
  exact forall_byte (by decide +kernel)

theorem fuHeader_fields (s e : BitVec 1) (b0 : UInt8) :
    (fuHeaderOf b0 s e).toByte &&& 0x1f = b0 &&& 0x1f ∧
      ((fuHeaderOf b0 s e).toByte &&& 0x80 ≠ 0 ↔ s = 1) ∧
      ((fuHeaderOf b0 s e).toByte &&& 0x40 ≠ 0 ↔ e = 1) := by
  revert b0
  exact forall_byte (by revert s e; decide +kernel)

/-- The header a receiver rebuilds: `F` was assigned from a bit that the field cannot
hold, so it is always clear. -/
theorem rebuilt_header (s e : BitVec 1) (b0 : UInt8) :
    ((naluHeaderOf b0 28).toByte &&& 0xe0) ||| ((fuHeaderOf b0 s e).toByte &&& 0x1f) =
      b0 &&& 0x7f := by
  revert b0
  exact forall_byte (by revert s e; decide +kernel)

/-- Bodies `0` to `k` make up everything behind the NAL header. -/
theorem fuWire_bodies (buf : Block) (p k l : Nat) :
    (((List.range (k + 1)).map (fuWire buf p k l)).map Prod.fst).flatMap (List.drop 2) =
      buf.slice (p + 1) (k * maxRtpPktLength + (l - 1)) := by
  have hbody (t : Nat) : (fuPayload buf p k l t).drop 2 =
      buf.slice (p + 1 + t * maxRtpPktLength) (fuBodyLen k l t) := by
    rw [fuPayload, List.drop_succ_cons, List.drop_succ_cons, List.drop_zero,
      Nat.add_comm (t * maxRtpPktLength) 1, Nat.add_assoc]
  have hwhole : (List.range k).flatMap (fun t => (fuPayload buf p k l t).drop 2) =
      (List.range k).flatMap
        (fun t => buf.slice (p + 1 + t * maxRtpPktLength) maxRtpPktLength) := by
    apply List.flatMap_congr
    intro t ht
    rw [hbody, fuBodyLen, if_pos (List.mem_range.mp ht)]
  have hlast : (fuPayload buf p k l k).drop 2 =
      buf.slice (p + 1 + k * maxRtpPktLength) (l - 1) := by
    rw [hbody, fuBodyLen, if_neg (Nat.lt_irrefl k)]
  rw [List.map_map, List.flatMap_map, List.range_succ, List.flatMap_append]
  simp only [Function.comp_apply, fuWire, List.flatMap_cons, List.flatMap_nil, List.append_nil]
  rw [hwhole, hlast, Block.flatMap_slice, ← Block.slice_add]

/-- The complete train of a unit reassembles to the unit with its `F` bit cleared. -/
theorem isFuTrain_fuWire_iff (x : NalInput) {k l : Nat} (hl : 0 < l)
    (hsum : k * maxRtpPktLength + l = x.nal.length) :
    IsFuTrain x.nal ((List.range (k + 1)).map (fuWire x.block x.code.length k l)) ↔
      x.header < 0x80 := by
  have hhead : x.nal.headD 0 = x.header := by rw [x.nal_eq_cons]; rfl
  have htail : x.block.slice (x.code.length + 1) (k * maxRtpPktLength + (l - 1)) =
      x.nal.tail := by
    have hlen : x.nal.length = k * maxRtpPktLength + (l - 1) + 1 := by omega
    have h := x.slice_block
    rw [hlen, Block.slice_succ] at h
    exact congrArg List.tail h
  have hre : reassemble (((List.range (k + 1)).map (fuWire x.block x.code.length k l)).map
      Prod.fst) = some ((x.header &&& 0x7f) :: x.nal.tail) := by
    rw [← htail, ← fuWire_bodies, List.range_succ_eq_map]
    simp only [List.map_cons, List.flatMap_cons, fuWire, fuPayload, reassemble, rebuilt_header,
      x.byte_block, List.drop_succ_cons, List.drop_zero]
  constructor
  · intro h
    have heq := hre.symm.trans h.reassembly
    rw [x.nal_eq_cons, Option.some.injEq, List.cons.injEq] at heq
    exact (and_7f_eq_self_iff _).mp heq.1
  · intro hF
    refine ⟨?_, by rw [hre, (and_7f_eq_self_iff _).mpr hF, ← x.nal_eq_cons]⟩
    intro i hi
    simp only [List.length_map, List.length_range] at hi
    simp only [List.getElem_map, List.getElem_range, fuWire, List.length_map, List.length_range,
      hhead, decide_eq_true_eq]
    obtain ⟨htype, hs, he⟩ := fuHeader_fields (if i = 0 then 1 else 0) (if i = k then 1 else 0)
      x.header
    obtain ⟨h28, hnri⟩ := indicator_fields x.header
    refine ⟨_, _, _, rfl, ?_, ?_, ?_, ?_, ?_, by omega⟩
    · rw [x.byte_block]; exact h28
    · rw [x.byte_block]; exact hnri
    · rw [x.byte_block]; exact htype
    · rw [x.byte_block, hs]
      split <;> simp_all
    · rw [x.byte_block, he]
      split
      · simp_all
      · simp_all

/-- The fragments of a unit, with every packet accepted, are a well-formed train exactly
when the unit is no whole number of packet lengths and its `F` bit is clear: with
nothing left over the fragment with `E` and the marker is not sent, and `F` is
assigned from a bit that its field cannot hold. -/
theorem isFuTrain_iff (net : τ → BuiltPacket → Int × τ) (s : CRTPSender τ) (x : NalInput)
    (hlen : maxRtpPktLength < x.nal.length)
    (haccepted : ∀ e ∈ (s.sendH264Nalu net x.block x.buflen false).handed, 0 ≤ e.status) :
    IsFuTrain x.nal ((s.sendH264Nalu net x.block x.buflen false).handed.map Handed.wire) ↔
      x.nal.length % maxRtpPktLength ≠ 0 ∧ x.header < 0x80 := by
  have hsend : s.sendH264Nalu net x.block x.buflen false =
      s.count.sendFragments net x.block x.code.length x.nal.length := by
    rw [sendH264Nalu_input, if_neg Bool.false_ne_true, if_neg (Nat.not_le_of_lt hlen)]
  rw [hsend] at haccepted ⊢
  rcases Nat.eq_zero_or_pos (x.nal.length % maxRtpPktLength) with hl | hl
  · refine iff_of_false ?_ (fun h => h.1 hl)
    intro htrain
    obtain ⟨w, hw, hmarked⟩ := htrain.exists_marked
    obtain ⟨e, he, rfl⟩ := List.mem_map.mp hw
    have hunmarked := sendFragments_unmarked net s.count x.block x.code.length hlen hl e he
    exact Bool.false_ne_true (hunmarked.symm.trans hmarked)
  · have hin : x.code.length + x.nal.length ≤ x.block.size := by
      rw [x.size_block, NalInput.buflen]
      omega
    rw [sendFragments_wire net s.count hlen hin hl haccepted,
      isFuTrain_fuWire_iff x hl (Nat.div_add_mod' _ _)]
    exact ⟨fun h => ⟨Nat.ne_of_gt hl, h⟩, fun h => h.2⟩

private theorem longCode_form : ([0, 0, 0, 1] : List UInt8) = [] ∨
    ([0, 0, 0, 1] : List UInt8) = [0, 0, 1] ∨ ([0, 0, 0, 1] : List UInt8) = [0, 0, 0, 1] :=
  Or.inr (Or.inr rfl)

private theorem replicate_clear {len : Nat} {v : UInt8} (hlen : len ≠ 0) (hv : v ≠ 0) :
    ¬ [0, 0, 1] <+: List.replicate len v ∧ ¬ [0, 0, 0, 1] <+: List.replicate len v := by
  obtain ⟨n, rfl⟩ := Nat.exists_eq_succ_of_ne_zero hlen
  rw [List.replicate_succ, List.cons_prefix_cons, List.cons_prefix_cons]
  exact ⟨fun h => hv h.1.symm, fun h => hv h.1.symm⟩

/-- A unit of equal bytes behind a long start code, in an array that ends with it. -/
def evenUnit (len : Nat) (v : UInt8) (hlen : len ≠ 0) (hv : v ≠ 0) : NalInput where
  code := [0, 0, 0, 1]
  nal := List.replicate len v
  tail := []
  code_form := longCode_form
  nal_ne := mt (List.replicate_eq_nil_iff v).mp hlen
  nal_clear := replicate_clear hlen hv
  four_le := Nat.le_add_right 4 _

/-- A slice one byte longer than a packet. -/
def overlongSlice : NalInput := evenUnit 1101 0x41 (by decide) (by decide)

/-- It leaves as two fragments. -/
theorem isFuTrain_iff_overlongSlice :
    IsFuTrain overlongSlice.nal (((CRTPSender.opened () 30 0 0).sendH264Nalu
      (fun (_ : Unit) _ => (0, ())) overlongSlice.block overlongSlice.buflen false).handed.map
        Handed.wire) :=
  (isFuTrain_iff _ _ overlongSlice (by decide +kernel) (by decide +kernel)).mpr
    (by decide +kernel)

/-- A slice of exactly two packet lengths. -/
def evenSlice : NalInput := evenUnit 2200 0x41 (by decide) (by decide)

/-- Every packet of it is accepted and none carries the marker. -/
theorem not_isFuTrain_evenSlice :
    maxRtpPktLength < evenSlice.nal.length ∧
      (∀ e ∈ ((CRTPSender.opened () 30 0 0).sendH264Nalu (fun (_ : Unit) _ => (0, ()))
        evenSlice.block evenSlice.buflen false).handed, 0 ≤ e.status) ∧
      ¬ IsFuTrain evenSlice.nal (((CRTPSender.opened () 30 0 0).sendH264Nalu
        (fun (_ : Unit) _ => (0, ())) evenSlice.block evenSlice.buflen false).handed.map
          Handed.wire) := by
  have hunmarked : ∀ e ∈ ((CRTPSender.opened () 30 0 0).sendH264Nalu
      (fun (_ : Unit) _ => (0, ())) evenSlice.block evenSlice.buflen false).handed,
      0 ≤ e.status ∧ e.mark = false := by
    decide +kernel
  refine ⟨by decide +kernel, fun e he => (hunmarked e he).1, ?_⟩
  intro htrain
  obtain ⟨w, hw, hmarked⟩ := htrain.exists_marked
  obtain ⟨e, he, rfl⟩ := List.mem_map.mp hw
  exact Bool.false_ne_true ((hunmarked e he).2.symm.trans hmarked)

end Jrtplib4Android
