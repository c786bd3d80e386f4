import Jrtplib4Android.Core.Bytes
import Jrtplib4Android.Sender.Nalu

/-!
# NAL units that leave in one packet

`NalInput` is a NAL unit as callers pass it: behind one of the start code forms,
in an array that may go on after it. Start code removal finds exactly the unit.
The parameter set branch hands over the unit; the single NAL unit branch writes
the header byte and then copies the whole unit behind it.
-/

namespace Jrtplib4Android

open CSem

/-- A NAL unit as it is passed to `SendH264Nalu`. -/
structure NalInput where
  /-- The start code in front of the unit, possibly none. -/
  code : List UInt8
  nal : List UInt8
  /-- What the caller's array holds behind `buflen`. -/
  tail : List UInt8
  code_form : code = [] ∨ code = [0, 0, 1] ∨ code = [0, 0, 0, 1]
  nal_ne : nal ≠ []
  nal_clear : ¬ [0, 0, 1] <+: nal ∧ ¬ [0, 0, 0, 1] <+: nal
  four_le : 4 ≤ code.length + nal.length

namespace NalInput

/-- The caller's array. -/
def block (x : NalInput) : Block := Block.ofList (x.code ++ x.nal ++ x.tail)

/-- The length argument: start code and unit. -/
def buflen (x : NalInput) : Nat := x.code.length + x.nal.length

/-- The NAL header byte. -/
def header (x : NalInput) : UInt8 := x.nal.head x.nal_ne

theorem size_block (x : NalInput) : x.block.size = x.buflen + x.tail.length := by
  simp only [block, buflen, Block.size_ofList, List.length_append]

theorem slice_block (x : NalInput) : x.block.slice x.code.length x.nal.length = x.nal :=
  Block.slice_ofList_append _ _ _

theorem length_pos (x : NalInput) : 0 < x.nal.length := List.length_pos_iff.mpr x.nal_ne

theorem byte_block (x : NalInput) : x.block.byte x.code.length = x.header := by
  have h := Block.getElem?_slice x.block (p := x.code.length) x.length_pos
  rw [x.slice_block, List.getElem?_eq_getElem x.length_pos, Nat.add_zero] at h
  rw [header, List.head_eq_getElem]
  exact (Option.some.inj h).symm

/-- A unit starts with its header byte. -/
theorem nal_eq_cons (x : NalInput) : x.nal = x.header :: x.nal.tail :=
  (List.cons_head_tail x.nal_ne).symm

private theorem startsWith_block (x : NalInput) {pat : List UInt8} (h : pat.length ≤ x.buflen) :
    x.block.startsWith 0 pat = .ok (decide (pat <+: x.code ++ x.nal)) := by
  have hs : x.block.slice 0 pat.length = (x.code ++ x.nal).take pat.length := by
    have hle : pat.length ≤ (x.code ++ x.nal).length := by
      simpa only [buflen, List.length_append] using h
    rw [block, Block.slice_ofList_eq (by rw [List.length_append]; omega), List.drop_zero,
      List.take_append_of_le_length hle]
  rw [Block.startsWith_eq (by rw [size_block]; omega), hs]
  simp only [List.prefix_iff_eq_take, eq_comm]

/-- Start code removal leaves exactly the unit. -/
theorem stripStartCode_block (x : NalInput) :
    stripStartCode x.block x.buflen = .ok (x.code.length, x.nal.length) := by
  have h3 : ([0, 0, 1] : List UInt8).length ≤ x.buflen := Nat.le_of_succ_le x.four_le
  have h4 : ([0, 0, 0, 1] : List UInt8).length ≤ x.buflen := x.four_le
  simp only [stripStartCode, findStartCode2, findStartCode3, x.startsWith_block h3,
    x.startsWith_block h4]
  rcases x.code_form with hc | hc | hc
  · simp [hc, buflen, x.nal_clear, bind, Except.bind, pure, Except.pure]
  · simp [hc, buflen, bind, Except.bind, pure, Except.pure]
  · simp [hc, buflen, bind, Except.bind, pure, Except.pure]

end NalInput

variable {τ : Type}

/-- Past the start code the three branches see the unit at its offset. -/
theorem sendH264Nalu_input (net : τ → BuiltPacket → Int × τ) (s : CRTPSender τ) (x : NalInput)
    (isSpsOrPps : Bool) :
    s.sendH264Nalu net x.block x.buflen isSpsOrPps =
      if isSpsOrPps then s.count.sendSpsOrPps net x.block x.code.length x.nal.length
      else if x.nal.length ≤ maxRtpPktLength then
        s.count.sendSingle net x.block x.code.length x.nal.length
      else s.count.sendFragments net x.block x.code.length x.nal.length := by
  have h4 : ¬ ((x.buflen : Nat) : Int) < 4 := by
    have := x.four_le
    simp only [NalInput.buflen]
    omega
  simp only [CRTPSender.sendH264Nalu, h4, ite_false, Int.toNat_natCast, x.stripStartCode_block]

/-- The parameter set branch hands over the unit, whatever the session answers. -/
theorem sendSpsOrPps_payload (net : τ → BuiltPacket → Int × τ) (s : CRTPSender τ) (x : NalInput)
    (hlen : x.nal.length ≤ sendLength) :
    ∃ e, (s.sendSpsOrPps net x.block x.code.length x.nal.length).handed = [e] ∧
      e.payload = x.nal := by
  have hm := Block.memcpy_eq (Block.fill sendLength 0) 0 x.block x.code.length (n := x.nal.length)
    (by rw [x.size_block, NalInput.buflen]; omega) (by simpa using hlen)
  simp only [CRTPSender.sendSpsOrPps, hm, CRTPSender.sendAndCheck]
  obtain ⟨session, e, he⟩ := RTPSession.sendPacket_ok net (s.setDefaultMark false).toRTPSession
    ((Block.fill sendLength 0).copy 0 x.block x.code.length x.nal.length) hlen
  rw [he]
  refine ⟨e, rfl, ?_⟩
  rw [(RTPSession.sendPacket_recorded he).1, Block.slice_copy_self, x.slice_block]

/-- The header byte the bit-field assignments rebuild: `F` comes out clear. -/
theorem singleHeader_toByte (b0 : UInt8) :
    (naluHeaderOf b0 (toField 5 (b0 &&& 0x1f))).toByte = b0 &&& 0x7f := by
  revert b0
  exact forall_byte (by decide +kernel)

theorem and_7f_eq_self_iff (b0 : UInt8) : b0 &&& 0x7f = b0 ↔ b0 < 0x80 := by
  revert b0
  exact forall_byte (by decide +kernel)

/-- `sendbuf` of the single NAL branch: the rebuilt header in front of the whole unit. -/
theorem singleNalu_ok (buf : Block) (p : Nat) {n : Nat} (hp : p < buf.size) (hn : p + n ≤ buf.size)
    (hlen : n < sendLength) :
    ∃ sendbuf, singleNalu buf p n = .ok sendbuf ∧ sendbuf.size = sendLength ∧
      ∀ m, m ≤ n → sendbuf.slice 0 (m + 1) = (buf.byte p &&& 0x7f) :: buf.slice p m := by
  have h0 : 0 < (Block.fill sendLength 0).size := by decide
  simp only [singleNalu, Block.load_eq hp, bind, Except.bind, Block.store, h0, ite_true]
  have hfit : 1 + n ≤ sendLength := by omega
  refine ⟨_, Block.memcpy_eq _ 1 buf p hn hfit, rfl, ?_⟩
  intro m hm
  rw [Block.slice_succ, Block.byte_copy_of_lt Nat.one_pos, Nat.zero_add]
  refine congrArg₂ List.cons (by simp only [ite_true, singleHeader_toByte]) ?_
  apply Block.slice_congr
  intro i hi
  rw [Block.byte_copy_of_mem (by omega) (by omega), Nat.add_sub_cancel_left]

/-- The single NAL branch hands over the rebuilt header and all but the last byte of the unit. -/
theorem sendSingle_payload (net : τ → BuiltPacket → Int × τ) (s : CRTPSender τ) (x : NalInput)
    (hlen : x.nal.length ≤ maxRtpPktLength) :
    ∃ e, (s.sendSingle net x.block x.code.length x.nal.length).handed = [e] ∧
      e.payload = (x.header &&& 0x7f) :: x.nal.dropLast := by
  have hpos := x.length_pos
  have hsize := x.size_block
  simp only [NalInput.buflen] at hsize
  obtain ⟨sendbuf, hok, hsb, hslice⟩ := singleNalu_ok x.block x.code.length
    (n := x.nal.length) (by omega) (by omega)
    (by simp only [maxRtpPktLength, sendLength] at hlen ⊢; omega)
  simp only [CRTPSender.sendSingle, hok, CRTPSender.sendAndCheck]
  obtain ⟨session, e, he⟩ := RTPSession.sendPacket_ok net (s.setDefaultMark true).toRTPSession
    sendbuf (n := x.nal.length)
    (by rw [hsb]; simp only [maxRtpPktLength, sendLength] at hlen ⊢; omega)
  rw [he]
  refine ⟨e, rfl, ?_⟩
  have hm := hslice (x.nal.length - 1) (by omega)
  rw [Nat.sub_add_cancel hpos] at hm
  rw [(RTPSession.sendPacket_recorded he).1, hm, x.byte_block, List.dropLast_eq_take,
    ← Block.take_slice x.block x.code.length x.nal.length _ (by omega), x.slice_block]

/-- Shifting a list by one leaves it unchanged exactly when it repeats the byte shifted in. -/
theorem cons_dropLast_eq_iff {h : UInt8} {xs : List UInt8} (hne : xs ≠ []) :
    h :: xs.dropLast = xs ↔ ∀ b ∈ xs, b = h := by
  induction xs generalizing h with
  | nil => exact absurd rfl hne
  | cons y ys ih =>
    cases ys with
    | nil => simp [eq_comm]
    | cons z zs =>
      rw [List.dropLast_cons_of_ne_nil (List.cons_ne_nil z zs), List.cons.injEq,
        ih (List.cons_ne_nil z zs)]
      constructor
      · rintro ⟨rfl, hz⟩ b hb
        rcases List.mem_cons.mp hb with rfl | hb
        · rfl
        · exact hz b hb
      · intro hall
        have hy := hall y (List.mem_cons_self ..)
        exact ⟨hy.symm, fun b hb => (hall b (List.mem_cons_of_mem _ hb)).trans hy.symm⟩

/-- The property asked of the unfragmented paths: one packet, and its payload is the unit. -/
def SentWhole (net : τ → BuiltPacket → Int × τ) (s : CRTPSender τ) (x : NalInput)
    (isSpsOrPps : Bool) : Prop :=
  ∃ e, (s.sendH264Nalu net x.block x.buflen isSpsOrPps).handed = [e] ∧ e.payload = x.nal

/-- The lengths that take an unfragmented path. -/
def Unfragmented (x : NalInput) (isSpsOrPps : Bool) : Prop :=
  x.nal.length ≤ if isSpsOrPps then sendLength else maxRtpPktLength

instance (x : NalInput) (isSpsOrPps : Bool) : Decidable (Unfragmented x isSpsOrPps) :=
  inferInstanceAs (Decidable (_ ≤ _))

/-- A parameter set always leaves as it is. A slice does exactly when its `F` bit is
clear and every byte of it repeats the header, since the copy starts at the header
byte again and the last byte is not sent. -/
theorem sentWhole_iff (net : τ → BuiltPacket → Int × τ) (s : CRTPSender τ) (x : NalInput)
    (isSpsOrPps : Bool) (hlen : Unfragmented x isSpsOrPps) :
    SentWhole net s x isSpsOrPps ↔
      isSpsOrPps = true ∨ x.header < 0x80 ∧ ∀ b ∈ x.nal, b = x.header := by
  unfold SentWhole
  rw [sendH264Nalu_input]
  cases isSpsOrPps with
  | true =>
    simp only [ite_true, true_or, iff_true]
    exact sendSpsOrPps_payload net s.count x hlen
  | false =>
    have hle : x.nal.length ≤ maxRtpPktLength := hlen
    simp only [Bool.false_eq_true, hle, ite_true, ite_false, false_or]
    obtain ⟨e, he, hp⟩ := sendSingle_payload net s.count x hle
    rw [he]
    have hiff : (∃ e', [e] = [e'] ∧ e'.payload = x.nal) ↔ e.payload = x.nal := by
      constructor
      · rintro ⟨e', h1, h2⟩
        cases h1
        exact h2
      · intro h
        exact ⟨e, rfl, h⟩
    rw [hiff, hp, cons_dropLast_eq_iff x.nal_ne]
    have hmem : x.header ∈ x.nal := List.head_mem x.nal_ne
    constructor
    · intro hall
      have hh := (hall _ hmem).symm
      exact ⟨(and_7f_eq_self_iff _).mp hh, fun b hb => (hall b hb).trans hh⟩
    · rintro ⟨hlt, hall⟩ b hb
      rw [(and_7f_eq_self_iff _).mpr hlt]
      exact hall b hb

/-- The parameter set path on a two byte unit behind a long start code. -/
theorem sentWhole_iff_parameterSet :
    SentWhole (fun (_ : Unit) _ => (0, ())) (CRTPSender.opened () 30 0 0)
      ⟨[0, 0, 0, 1], [0x67, 0x42], [], by decide, by decide, by decide, by decide⟩ true :=
  (sentWhole_iff _ _ _ true (by decide)).mpr (Or.inl rfl)

/-- A slice of three bytes behind a long start code. -/
def shortSlice : NalInput :=
  ⟨[0, 0, 0, 1], [0x41, 0x9a, 0x02], [], by decide, by decide, by decide, by decide⟩

/-- Its header is sent twice and its last byte not at all. -/
theorem not_sentWhole_shortSlice :
    Unfragmented shortSlice false ∧
      ¬ SentWhole (fun (_ : Unit) _ => (0, ())) (CRTPSender.opened () 30 0 0) shortSlice false := by
  refine ⟨by decide, ?_⟩
  rintro ⟨e, he, hp⟩
  have hsent := congrArg (List.map Handed.payload) he
  rw [List.map_singleton, hp] at hsent
  exact absurd hsent (by decide)

end Jrtplib4Android
