import Jrtplib4Android.Ps.Reached

/-!
# The demuxer computes the frame of its pack

`Demuxing` ties the variables of the main loop to the frame so far and the bytes
ahead. `DemuxStep` says once what a pass can do from there, and the loop rule
gives `getH246FromPs_eq`: the frame of the pack is delivered whatever lies behind
the pack, and where the pack has none, a buffer of exactly its length shows a
fault.
-/

namespace Jrtplib4Android

open CSem

/-- The frame buffer holds `acc` and behind it what it held before, in `out`. -/
structure Framed (out : Block) (st : DemuxState) (acc : List UInt8) : Prop where
  size : st.frame.size = h264FrameSizeMax
  pos : st.h264Buffer = acc.length
  length : st.h264length = acc.length
  bytes : st.frame.slice 0 acc.length = acc
  behind : ∀ i, acc.length ≤ i → st.frame.byte i = out.byte i
  room : acc.length < h264FrameSizeMax

/-- The cursor stands at offset `p` with the bytes `rest` ahead. -/
structure At (b : Block) (c : PsCursor) (p : Nat) (rest : List UInt8) : Prop where
  next : c.nextPack = some p
  left : c.leftlength = rest.length
  bytes : b.slice p rest.length = rest
  inside : p + rest.length ≤ b.size
  short : rest.length < 2 ^ 31

/-- The loop head: `acc` is stored, `rest` is ahead. -/
structure Demuxing (b out : Block) (st : DemuxState) (p : Nat) (acc rest : List UInt8) :
    Prop where
  framed : Framed out st acc
  cursor : At b st.cursor p rest

/-- Everything a pass of the main loop can do. -/
inductive DemuxStep (b out : Block) (p : Nat) (acc rest : List UInt8) :
    Pass DemuxState (Except Fault DemuxState) → Prop where
  | done (st : DemuxState) (hend : unitAt rest = none) (hframed : Framed out st acc) :
      DemuxStep b out p acc rest (.leave (.ok st))
  | bad (f : Fault) (u : UnitHead) (hu : unitAt rest = some u)
      (hstore : storeUnit acc (u, rest) = none) : DemuxStep b out p acc rest (.leave (.error f))
  | stale (st : DemuxState) (u : UnitHead) (hu : unitAt rest = some u)
      (hstore : storeUnit acc (u, rest) = none) (hmore : p + rest.length < b.size) :
      DemuxStep b out p acc rest (.leave (.ok st))
  | last (st : DemuxState) (u : UnitHead) (acc' : List UInt8) (hu : unitAt rest = some u)
      (hstore : storeUnit acc (u, rest) = some acc') (hspan : rest.length ≤ u.span)
      (hframed : Framed out st acc') : DemuxStep b out p acc rest (.leave (.ok st))
  | next (st : DemuxState) (u : UnitHead) (acc' : List UInt8) (hu : unitAt rest = some u)
      (hstore : storeUnit acc (u, rest) = some acc') (hspan : u.span < rest.length)
      (hnext : Demuxing b out st (p + u.span) acc' (rest.drop u.span)) :
      DemuxStep b out p acc rest (.again st)

namespace At

variable {b : Block} {c : PsCursor} {p : Nat} {rest : List UInt8}

theorem take_eq (h : At b c p rest) {n : Nat} (hn : n ≤ rest.length) :
    b.slice p n = rest.take n := by
  rw [← Block.take_slice b p rest.length n hn, h.bytes]

theorem byte_eq (h : At b c p rest) {i : Nat} (hi : i < rest.length) :
    b.byte (p + i) = rest.getD i 0 := by
  have hb := Block.getElem?_slice b (p := p) hi
  rw [h.bytes] at hb
  rw [List.getD_eq_getElem?_getD, hb, Option.getD_some]

theorem load_eq (h : At b c p rest) {i : Nat} (hi : i < rest.length) :
    b.load (p + i) = .ok (rest.getD i 0) := by
  rw [Block.load_eq (by have := h.inside; omega), h.byte_eq hi]

/-- The start code comparison sees the first four bytes ahead. -/
theorem startsWith_eq (h : At b c p rest) (h4 : 4 ≤ rest.length) (id : UInt8) :
    b.startsWith p [0, 0, 1, id] = .ok (decide (rest.take 4 = [0, 0, 1, id])) := by
  have h4' : ([0, 0, 1, id] : List UInt8).length = 4 := rfl
  rw [Block.startsWith_eq (by have := h.inside; omega), h4', h.take_eq h4]

/-- The exchanged length field is the big-endian one. -/
theorem packLength_eq (h : At b c p rest) (h6 : 6 ≤ rest.length) :
    packLength b p = .ok (beNat [rest.getD 4 0, rest.getD 5 0]) := by
  simp only [packLength, h.load_eq (by omega : 4 < rest.length),
    h.load_eq (by omega : 5 < rest.length), bind, Except.bind, pure, Except.pure, Except.ok.injEq,
    beNat, List.foldl_cons, List.foldl_nil]
  omega

/-- The cursor moved on over `n` bytes. -/
theorem drop {c' : PsCursor} (h : At b c p rest) {n : Nat} (hn : n ≤ rest.length)
    (hnext : c'.nextPack = some (p + n)) (hleft : c'.leftlength = (rest.length : Int) - n) :
    At b c' (p + n) (rest.drop n) := by
  have hin := h.inside
  have hshort := h.short
  refine ⟨hnext, ?_, ?_, ?_, ?_⟩
  · rw [hleft, List.length_drop]
    omega
  · conv_rhs => rw [← h.bytes]
    rw [Block.drop_slice, List.length_drop]
  · rw [List.length_drop]
    omega
  · rw [List.length_drop]
    omega

end At

/-- The length behind a unit, as the helpers compute it. -/
theorem leftlength_eq {len n : Nat} (hlen : len < 2 ^ 31) (hn : n < 2 ^ 16) :
    toInt (toSize (toSize ((len : Int) - n) - 6)) = (len : Int) - (6 + n : Nat) := by
  rw [toSize_toSize_sub, toInt_toSize, toInt_eq (by omega) (by omega)]
  omega

theorem packLength_lt (rest : List UInt8) : beNat [rest.getD 4 0, rest.getD 5 0] < 2 ^ 16 := by
  have h := beNat_lt [rest.getD 4 0, rest.getD 5 0]
  simp only [List.length_cons, List.length_nil] at h
  exact Nat.lt_of_lt_of_eq h (by decide)

section Helpers

variable {b : Block} {c : PsCursor} {p : Nat} {rest : List UInt8}

/-- A section too short for its own header is not skipped. -/
theorem skipSection_short (h : At b c p rest) (h6 : rest.length < 6) :
    ∃ c', skipSection b p c.leftlength c = .ok (0, c') := by
  have hu : toUnsigned (rest.length : Int) < programStreamMapSize := by
    rw [toUnsigned_eq (by omega) (by omega), programStreamMapSize]
    omega
  exact ⟨_, by rw [h.left, skipSection]; simp only [hu, ite_true]; rfl⟩

/-- A section moves the cursor behind it, unless nothing is left there. -/
theorem skipSection_eq (h : At b c p rest) (h6 : 6 ≤ rest.length) {n : Nat}
    (hn : n = beNat [rest.getD 4 0, rest.getD 5 0]) :
    ∃ ret c', skipSection b p c.leftlength c = .ok (ret, c') ∧
      (ret = 0 ↔ rest.length ≤ 6 + n) ∧
      (6 + n < rest.length → At b c' (p + (6 + n)) (rest.drop (6 + n))) := by
  have hshort := h.short
  have hu : ¬ toUnsigned (rest.length : Int) < programStreamMapSize := by
    rw [toUnsigned_eq (by omega) (by omega), programStreamMapSize]
    omega
  have hleft : toInt (toSize (toSize ((rest.length : Int) - n) - programStreamMapSize)) =
      (rest.length : Int) - (6 + n : Nat) :=
    leftlength_eq hshort (hn ▸ packLength_lt rest)
  rw [h.left]
  simp only [skipSection, hu, ite_false, h.packLength_eq h6, ← hn, bind, Except.bind, hleft]
  by_cases hend : rest.length ≤ 6 + n
  · have hz : (rest.length : Int) - (6 + n : Nat) ≤ 0 := by omega
    simp only [hz, ite_true]
    exact ⟨0, _, rfl, by omega, by omega⟩
  · have hz : ¬ (rest.length : Int) - (6 + n : Nat) ≤ 0 := by omega
    simp only [hz, ite_false]
    refine ⟨_, _, rfl, by omega, fun hlt => h.drop (Nat.le_of_lt hlt) ?_ rfl⟩
    simp only [programStreamMapSize, Option.some.injEq]
    omega

/-- A PES packet too short for its own header leaves no payload. -/
theorem pes_short (h : At b c p rest) (h9 : rest.length < 9) :
    ∃ c', pes b p c.leftlength c = .ok (0, c') ∧ c'.payloadDataLen = 0 := by
  have hu : toUnsigned (rest.length : Int) < programStreamESize := by
    rw [toUnsigned_eq (by omega) (by omega), programStreamESize]
    omega
  exact ⟨_, by rw [h.left, pes]; simp only [hu, ite_true]; rfl, rfl⟩

/-- A PES packet leaves its payload range, and moves the cursor like a section. -/
theorem pes_eq (h : At b c p rest) (h9 : 9 ≤ rest.length) {n hd : Nat}
    (hn : n = beNat [rest.getD 4 0, rest.getD 5 0]) (hh : hd = (rest.getD 8 0).toNat) :
    ∃ ret c', pes b p c.leftlength c = .ok (ret, c') ∧
      (ret = 0 ↔ rest.length ≤ 6 + n) ∧
      (6 + n < rest.length → At b c' (p + (6 + n)) (rest.drop (6 + n))) ∧
      c'.payloadDataLen = (n : Int) - (3 + hd : Nat) ∧
      (3 + hd < n → c'.payloadData = some (p + (9 + hd))) := by
  have hshort := h.short
  have hu : ¬ toUnsigned (rest.length : Int) < programStreamESize := by
    rw [toUnsigned_eq (by omega) (by omega), programStreamESize]
    omega
  have hleft : toInt (toSize (toSize (toSize ((rest.length : Int) - n) - packStartCodeSize) -
      littelEndianSizeSize)) = (rest.length : Int) - (6 + n : Nat) := by
    have hsix : (rest.length : Int) - n - packStartCodeSize - littelEndianSizeSize =
        (rest.length : Int) - n - 6 := by
      simp only [packStartCodeSize, littelEndianSizeSize]
      omega
    rw [toSize_toSize_sub ((rest.length : Int) - n), toSize_toSize_sub, hsix,
      ← leftlength_eq hshort (hn ▸ packLength_lt rest), toSize_toSize_sub]
  have hdata : (n : Int) - 2 - 1 - hd = (n : Int) - (3 + hd : Nat) := by omega
  rw [h.left]
  simp only [pes, hu, ite_false, h.packLength_eq (by omega), h.load_eq (by omega : 8 < rest.length),
    ← hn, ← hh, bind, Except.bind, hleft, hdata]
  have hpos (hlt : 3 + hd < n) : 0 < (n : Int) - (3 + hd : Nat) := by omega
  have haddr : p + programStreamESize + hd = p + (9 + hd) := by
    simp only [programStreamESize]
    omega
  by_cases hend : rest.length ≤ 6 + n
  · have hz : (rest.length : Int) - (6 + n : Nat) ≤ 0 := by omega
    simp only [hz, ite_true]
    refine ⟨0, _, rfl, by omega, by omega, rfl, fun hlt => ?_⟩
    simp only [hpos hlt, ite_true, haddr]
  · have hz : ¬ (rest.length : Int) - (6 + n : Nat) ≤ 0 := by omega
    simp only [hz, ite_false]
    refine ⟨_, _, rfl, by omega, fun hlt => h.drop (Nat.le_of_lt hlt) ?_ rfl, rfl, fun hlt => ?_⟩
    · simp only [packStartCodeSize, littelEndianSizeSize, Option.some.injEq]
      omega
    · simp only [hpos hlt, ite_true, haddr]

end Helpers

/-- Nothing is copied when there is no payload or it does not fit the frame buffer. -/
theorem copyPayload_skip (b : Block) (st : DemuxState) (h : st.cursor.payloadDataLen = 0 ∨
    ¬ st.cursor.payloadDataLen + st.h264length < h264FrameSizeMax) :
    copyPayload b st = .ok st := by
  unfold copyPayload
  by_cases h0 : st.cursor.payloadDataLen = 0
  · rw [if_pos h0]
  · rw [if_neg h0, if_neg (h.resolve_left h0)]

/-- Otherwise the outcome is that of the copy. -/
theorem copyPayload_copy {b : Block} {st : DemuxState} (h0 : st.cursor.payloadDataLen ≠ 0)
    (hfit : st.cursor.payloadDataLen + st.h264length < h264FrameSizeMax) :
    copyPayload b st =
      (memcpy st.frame st.h264Buffer b st.cursor.payloadData st.cursor.payloadDataLen).map
        fun frame => { st with
          frame := frame
          h264Buffer := st.h264Buffer + st.cursor.payloadDataLen.toNat
          h264length := st.h264length + st.cursor.payloadDataLen } := by
  unfold copyPayload
  rw [if_neg h0, if_pos hfit]
  rfl

/-- A copy inside the buffer appends its source to the frame. -/
theorem copyPayload_append {b out : Block} {st : DemuxState} {acc : List UInt8} {q m : Nat}
    (hframed : Framed out st acc) (hm : 0 < m) (hlen : st.cursor.payloadDataLen = m)
    (hdata : st.cursor.payloadData = some q) (hfit : m + acc.length < h264FrameSizeMax)
    (hin : q + m ≤ b.size) :
    ∃ st', copyPayload b st = .ok st' ∧ st'.cursor = st.cursor ∧
      Framed out st' (acc ++ b.slice q m) := by
  obtain ⟨hsize, hpos, hlength, hprefix, hbehind, hroom⟩ := hframed
  have hcopy := Block.memcpy_eq st.frame acc.length b q hin (by rw [hsize]; omega)
  rw [copyPayload_copy (by omega) (by rw [hlen, hlength]; omega), hpos, hdata, hlen, hcopy]
  refine ⟨_, rfl, rfl, hsize, ?_, ?_, ?_, ?_, ?_⟩
  · rw [List.length_append, Block.length_slice, Int.toNat_natCast]
  · simp only [hlength, List.length_append, Block.length_slice]
    omega
  · rw [List.length_append, Block.length_slice, Block.slice_copy_append, hprefix]
  · intro i hi
    rw [List.length_append, Block.length_slice] at hi
    rw [Block.byte_copy_of_le hi]
    exact hbehind i (by omega)
  · rw [List.length_append, Block.length_slice]
    omega

/-- The copy behind `Pes` stores the unit; where the unit cannot be stored it faults, or
the bytes it reads lie behind the pack. -/
theorem copyPayload_video {b out : Block} {st : DemuxState} {p n hd : Nat} {acc rest : List UInt8}
    (hframed : Framed out st acc) (hbytes : b.slice p rest.length = rest)
    (hinside : p + rest.length ≤ b.size)
    (hlen : st.cursor.payloadDataLen = (n : Int) - (3 + hd : Nat))
    (hdata : 3 + hd < n → st.cursor.payloadData = some (p + (9 + hd))) :
    (∃ acc' st', storeUnit acc (.video n hd, rest) = some acc' ∧ copyPayload b st = .ok st' ∧
        st'.cursor = st.cursor ∧ Framed out st' acc') ∨
      (storeUnit acc (.video n hd, rest) = none ∧
        ((∃ f, copyPayload b st = .error f) ∨
          (∃ st', copyPayload b st = .ok st' ∧ rest.length < 6 + n ∧
            p + rest.length < b.size))) := by
  have hlength := hframed.length
  simp only [storeUnit, fitsFrame, decide_eq_false_iff_not]
  by_cases hneg : n < 3 + hd
  · -- the payload ends before it starts
    have hfault : copyPayload b st = .error .length := by
      rw [copyPayload_copy (by omega) (by have := hframed.room; omega),
        Block.memcpy_of_neg _ _ _ _ (by omega)]
      rfl
    exact Or.inr ⟨by rw [if_pos hneg], Or.inl ⟨_, hfault⟩⟩
  rw [if_neg hneg]
  by_cases hskip : n = 3 + hd ∨ ¬ n - (3 + hd) + acc.length < h264FrameSizeMax
  · exact Or.inl ⟨acc, st, if_pos hskip, copyPayload_skip b st (by omega), rfl, hframed⟩
  obtain ⟨hne, hfit⟩ := not_or.mp hskip
  rw [not_not] at hfit
  have hm : st.cursor.payloadDataLen = (n - (3 + hd) : Nat) := by omega
  replace hdata := hdata (by omega)
  rw [if_neg hskip]
  by_cases hshort : rest.length < 6 + n
  · refine Or.inr ⟨if_pos hshort, ?_⟩
    by_cases hin : p + (9 + hd) + (n - (3 + hd)) ≤ b.size
    · obtain ⟨st', hok, -, -⟩ := copyPayload_append hframed (by omega) hm hdata hfit hin
      exact Or.inr ⟨st', hok, hshort, by omega⟩
    · have hfault : copyPayload b st = .error .read := by
        rw [copyPayload_copy (by omega) (by omega), hdata, hm, Block.memcpy_of_lt _ _ (by omega)]
        rfl
      exact Or.inl ⟨_, hfault⟩
  · obtain ⟨st', hok, hcursor, hframed'⟩ :=
      copyPayload_append (b := b) hframed (by omega) hm hdata hfit (by omega)
    refine Or.inl ⟨_, st', if_neg hshort, hok, hcursor, ?_⟩
    have hslice : (rest.drop (9 + hd)).take (n - (3 + hd)) =
        b.slice (p + (9 + hd)) (n - (3 + hd)) := by
      conv_lhs => rw [← hbytes]
      rw [Block.drop_slice, Block.take_slice _ _ _ _ (by omega)]
    rwa [hslice]

/-- Too few bytes for a start code are no unit. -/
theorem unitAt_of_short {rest : List UInt8} (h : rest.length < 4) : unitAt rest = none := by
  have hne (id : UInt8) : rest.take 4 ≠ [0, 0, 1, id] := by
    intro he
    have hl := congrArg List.length he
    simp only [List.length_take, List.length_cons, List.length_nil] at hl
    omega
  simp only [unitAt, hne, ite_false, or_self]

/-- Replacing the cursor does not touch the frame. -/
theorem Framed.with_cursor {out : Block} {st : DemuxState} {acc : List UInt8}
    (h : Framed out st acc) (c : PsCursor) : Framed out { st with cursor := c } acc :=
  ⟨h.size, h.pos, h.length, h.bytes, h.behind, h.room⟩

/-- What follows a section: the loop goes round behind it or ends with it. -/
theorem skipSection_step {b out : Block} {st : DemuxState} {c : PsCursor} {p : Nat}
    {acc rest : List UInt8} (hframed : Framed out st acc) (hc : At b c p rest)
    (hhead : unitAt rest =
      if rest.length < 6 then none else some (.table (beNat [rest.getD 4 0, rest.getD 5 0]))) :
    ∃ ret c', skipSection b p c.leftlength c = .ok (ret, c') ∧
      DemuxStep b out p acc rest
        (if ret = 0 then .leave (.ok { st with cursor := c' })
        else .again { st with cursor := c' }) := by
  by_cases h6 : rest.length < 6
  · obtain ⟨c', hok⟩ := skipSection_short hc h6
    rw [if_pos h6] at hhead
    exact ⟨0, c', hok, .done _ hhead (hframed.with_cursor c')⟩
  · rw [if_neg h6] at hhead
    obtain ⟨ret, c', hok, hret, hnext⟩ := skipSection_eq hc (by omega) rfl
    refine ⟨ret, c', hok, ?_⟩
    split
    · next h0 => exact .last _ _ acc hhead rfl (hret.mp h0) (hframed.with_cursor c')
    · next h0 =>
      have hlt := Nat.lt_of_not_le (mt hret.mpr h0)
      exact .next _ _ acc hhead rfl hlt ⟨hframed.with_cursor c', hnext hlt⟩

/-- What follows a PES packet: the payload is stored, then as behind a section. -/
theorem pes_step {b out : Block} {st : DemuxState} {c : PsCursor} {p : Nat} {acc rest : List UInt8}
    (hframed : Framed out st acc) (hc : At b c p rest) (hcode : rest.take 4 = [0, 0, 1, 0xe0]) :
    ∃ ret c', pes b p c.leftlength c = .ok (ret, c') ∧
      ((∃ f, copyPayload b { st with cursor := c' } = .error f ∧
          DemuxStep b out p acc rest (.leave (.error f))) ∨
        (∃ st', copyPayload b { st with cursor := c' } = .ok st' ∧
          DemuxStep b out p acc rest (if ret = 0 then .leave (.ok st') else .again st'))) := by
  by_cases h9 : rest.length < 9
  · obtain ⟨c', hok, hlen⟩ := pes_short hc h9
    have hskip := copyPayload_skip b { st with cursor := c' } (Or.inl hlen)
    have hend : unitAt rest = none := by simp only [unitAt, hcode, h9, ite_true]
    exact ⟨0, c', hok, Or.inr ⟨_, hskip, .done _ hend (hframed.with_cursor c')⟩⟩
  have hu : unitAt rest =
      some (.video (beNat [rest.getD 4 0, rest.getD 5 0]) (rest.getD 8 0).toNat) := by
    simp only [unitAt, hcode, h9, ite_true, ite_false]
  obtain ⟨ret, c', hok, hret, hnext, hlen, hdata⟩ := pes_eq hc (by omega) rfl rfl
  refine ⟨ret, c', hok, ?_⟩
  rcases copyPayload_video (hframed.with_cursor c') hc.bytes
    hc.inside hlen hdata with ⟨acc', st', hstore, hcopy, hcursor, hframed'⟩ |
      ⟨hstore, ⟨f, hcopy⟩ | ⟨st', hcopy, hpast, hmore⟩⟩
  · refine Or.inr ⟨st', hcopy, ?_⟩
    split
    · next h0 => exact .last _ _ acc' hu hstore (hret.mp h0) hframed'
    · next h0 =>
      have hlt := Nat.lt_of_not_le (mt hret.mpr h0)
      refine .next _ _ acc' hu hstore hlt ⟨hframed', ?_⟩
      rw [hcursor]
      exact hnext hlt
  · exact Or.inl ⟨f, hcopy, .bad f _ hu hstore⟩
  · refine Or.inr ⟨st', hcopy, ?_⟩
    rw [if_pos (hret.mpr (Nat.le_of_lt hpast))]
    exact .stale st' _ hu hstore hmore

/-- Every pass of the main loop is one of the five steps. -/
theorem demuxPass_step {b out : Block} {st : DemuxState} {p : Nat} {acc rest : List UInt8}
    (h : Demuxing b out st p acc rest) : DemuxStep b out p acc rest (demuxPass b st) := by
  obtain ⟨hframed, hcur⟩ := h
  have hshort := hcur.short
  unfold demuxPass
  by_cases h4 : rest.length < 4
  · have hend : toUnsigned st.cursor.leftlength < packStartCodeSize := by
      rw [hcur.left, toUnsigned_eq (by omega) (by omega), packStartCodeSize]
      omega
    simp only [hend, ite_true, Pass.attempt, pure, Except.pure]
    exact .done _ (unitAt_of_short h4) hframed
  have hgo : ¬ toUnsigned st.cursor.leftlength < packStartCodeSize := by
    rw [hcur.left, toUnsigned_eq (by omega) (by omega), packStartCodeSize]
    omega
  have hc : At b { st.cursor with payloadData := none, payloadDataLen := 0 } p rest :=
    ⟨hcur.next, hcur.left, hcur.bytes, hcur.inside, hcur.short⟩
  generalize { st.cursor with payloadData := none, payloadDataLen := 0 } = c at hc
  have hcode := hcur.startsWith_eq (by omega : 4 ≤ rest.length)
  simp only [hgo, ite_false, hc.next, bind, Except.bind, hcode, decide_eq_true_eq]
  by_cases he0 : rest.take 4 = [0, 0, 1, 0xe0]
  · obtain ⟨ret, c', hok, ⟨f, hcopy, hstep⟩ | ⟨st', hcopy, hstep⟩⟩ := pes_step hframed hc he0
    · simp only [he0, ite_true, hok, hcopy, Pass.attempt]
      exact hstep
    · simp only [he0, ite_true, hok, hcopy, Pass.attempt, pure, Except.pure]
      exact hstep
  by_cases hbb : rest.take 4 = [0, 0, 1, 0xbb]
  · obtain ⟨ret, c', hok, hstep⟩ := skipSection_step hframed hc (by simp [unitAt, hbb])
    simp only [hbb, ite_true, programShHead, hok, Pass.attempt, pure, Except.pure]
    exact hstep
  by_cases hbc : rest.take 4 = [0, 0, 1, 0xbc]
  · obtain ⟨ret, c', hok, hstep⟩ := skipSection_step hframed hc (by simp [unitAt, hbc])
    simp only [hbc, ite_true, programStreamMap, hok, Pass.attempt, pure, Except.pure]
    exact hstep
  have hend : unitAt rest = none := by
    simp only [unitAt, he0, hbb, hbc, ite_false, or_self]
  have hleave : DemuxStep b out p acc rest (.leave (.ok { st with cursor := c })) :=
    .done _ hend (hframed.with_cursor c)
  have hload0 : b.load p = .ok (rest.getD 0 0) := hc.load_eq (i := 0) (by omega)
  simp only [he0, hbb, hbc, ite_false, hload0, hc.load_eq (by omega : 1 < rest.length),
    hc.load_eq (by omega : 2 < rest.length), hc.load_eq (by omega : 3 < rest.length), ite_self,
    Pass.attempt, pure, Except.pure]
  exact hleave

/-- From any loop head the loop delivers what the units ahead add to the frame. -/
theorem loop_demuxPass {b out : Block} {st : DemuxState} {p : Nat} {acc rest : List UInt8}
    (h : Demuxing b out st p acc rest) {fuel : Nat} (hfuel : rest.length < fuel) :
    ∃ r, loop (demuxPass b) fuel st = some r ∧
      (∀ frame, storeAll acc (reached rest) = some frame →
        ∃ st', r = .ok st' ∧ Framed out st' frame) ∧
      (storeAll acc (reached rest) = none → p + rest.length = b.size → ∃ f, r = .error f) := by
  refine loop_eq_some
    (I := fun s => ∃ q acc' rest', Demuxing b out s q acc' rest' ∧
      storeAll acc' (reached rest') = storeAll acc (reached rest) ∧
      q + rest'.length = p + rest.length)
    (μ := fun s => s.cursor.leftlength.toNat) ?_ ?_ fuel st ⟨p, acc, rest, h, rfl, rfl⟩
    (by rw [h.cursor.left]; exact hfuel)
  · rintro s s' ⟨q, acc', rest', hs, hspec, hend⟩ he
    have hstep := demuxPass_step hs
    rw [he] at hstep
    cases hstep with
    | next _ u acc'' hu hstore hspan hnext =>
      have hspan6 := six_le_span u
      refine ⟨⟨_, _, _, hnext, ?_, ?_⟩, ?_⟩
      · rw [← hspec, reached_of_some hu, storeAll_cons, hstore, Option.bind_some]
      · rw [List.length_drop]
        omega
      · rw [hnext.cursor.left, hs.cursor.left, List.length_drop]
        omega
  · rintro s r ⟨q, acc', rest', hs, hspec, hend⟩ he
    have hstep := demuxPass_step hs
    rw [he] at hstep
    rw [← hspec, ← hend]
    cases hstep with
    | done st' hnone hframed =>
      rw [reached_of_none hnone, storeAll_nil]
      exact ⟨fun frame hf => ⟨st', rfl, Option.some.inj hf ▸ hframed⟩, fun hf => nomatch hf⟩
    | bad f u hu hstore =>
      rw [reached_of_some hu, storeAll_cons, hstore, Option.bind_none]
      exact ⟨fun _ hf => (nomatch hf), fun _ _ => ⟨f, rfl⟩⟩
    | stale st' u hu hstore hmore =>
      rw [reached_of_some hu, storeAll_cons, hstore, Option.bind_none]
      exact ⟨fun _ hf => (nomatch hf), fun _ hsize => by omega⟩
    | last st' u acc'' hu hstore hspan hframed =>
      rw [reached_of_some hu, storeAll_cons, hstore, Option.bind_some,
        List.drop_eq_nil_of_le hspan, reached_nil, storeAll_nil]
      exact ⟨fun frame hf => ⟨st', rfl, Option.some.inj hf ▸ hframed⟩, fun hf => nomatch hf⟩

/-- The pack header moves the cursor behind its stuffing. -/
theorem programStreamPackHeader_eq {b : Block} {pack : List UInt8} {stuffinglen : UInt8}
    (c : PsCursor) (hbytes : b.slice 0 pack.length = pack) (hinside : pack.length ≤ b.size)
    (hshort : pack.length < 2 ^ 31) (h13 : pack[13]? = some stuffinglen) {start : Nat}
    (hstart : start = 14 + (stuffinglen &&& 7).toNat) :
    ∃ ret c', programStreamPackHeader b 0 pack.length c = .ok (ret, c') ∧
      (ret = 0 ↔ pack.length < start + 4) ∧
      (start + 4 ≤ pack.length → At b c' start (pack.drop start)) := by
  obtain ⟨hlt, -⟩ := List.getElem?_eq_some_iff.mp h13
  have hload : b.load (0 + 13) = .ok stuffinglen := by
    have hb := Block.getElem?_slice b (p := 0) hlt
    rw [hbytes, h13, Option.some.injEq] at hb
    rw [Block.load_eq (by omega), ← hb]
  have hleft : toInt (toSize (toSize ((pack.length : Int) - programStreamPackHeaderSize) -
      (stuffinglen &&& 7).toNat)) = (pack.length : Int) - start := by
    have hle : (stuffinglen &&& 7).toNat ≤ 7 :=
      forall_byte (P := fun v => (v &&& 7).toNat ≤ 7) (by decide +kernel) stuffinglen
    rw [toSize_toSize_sub, toInt_toSize, programStreamPackHeaderSize,
      toInt_eq (by omega) (by omega)]
    omega
  simp only [programStreamPackHeader, hload, bind, Except.bind, hleft]
  by_cases hend : pack.length < start + 4
  · have h4 : (pack.length : Int) - start < 4 := by omega
    simp only [h4, ite_true]
    exact ⟨0, _, rfl, by omega, by omega⟩
  · have h4 : ¬ (pack.length : Int) - start < 4 := by omega
    simp only [h4, ite_false]
    refine ⟨_, _, rfl, by omega, fun _ => ⟨?_, ?_, ?_, ?_, ?_⟩⟩
    · simp only [programStreamPackHeaderSize, Nat.zero_add, hstart]
    · rw [List.length_drop]
      simp only
      omega
    · conv_rhs => rw [← hbytes]
      rw [Block.drop_slice, List.length_drop, Nat.zero_add]
    · rw [List.length_drop]
      omega
    · rw [List.length_drop]
      omega

/-- `GetH246FromPs` delivers the frame of its pack from any buffer that starts with the
pack; a pack that has no frame shows a fault in a buffer of exactly its length. -/
theorem getH246FromPs_eq {buffer h264Buffer : Block} {pack : List UInt8}
    (hbytes : buffer.slice 0 pack.length = pack) (hinside : pack.length ≤ buffer.size)
    (hshort : pack.length < 2 ^ 31) (hsize : h264Buffer.size = h264FrameSizeMax) :
    (∀ frame, demux pack = some frame →
        ∃ out, getH246FromPs buffer pack.length h264Buffer = .ok ((frame.length : Int), out) ∧
          out.size = h264FrameSizeMax ∧ out.slice 0 frame.length = frame ∧
          ∀ i, frame.length ≤ i → out.byte i = h264Buffer.byte i) ∧
      (demux pack = none → buffer.size = pack.length →
        ∃ f, getH246FromPs buffer pack.length h264Buffer = .error f) := by
  unfold demux
  cases h13 : pack[13]? with
  | none =>
    have hload (hexact : buffer.size = pack.length) : buffer.load (0 + 13) = .error .read := by
      rw [List.getElem?_eq_none_iff] at h13
      rw [Block.load, if_neg (by omega)]
    constructor
    · rintro frame ⟨⟩
    · intro _ hexact
      refine ⟨.read, ?_⟩
      simp only [getH246FromPs, programStreamPackHeader, hload hexact, bind, Except.bind]
  | some stuffinglen =>
    obtain ⟨ret, c, hok, hret, hat⟩ :=
      programStreamPackHeader_eq ⟨none, 0, none, 0⟩ hbytes hinside hshort h13 rfl
    simp only [getH246FromPs, hok, bind, Except.bind]
    by_cases hend : pack.length < 14 + (stuffinglen &&& 7).toNat + 4
    · have hnone : unitAt (pack.drop (14 + (stuffinglen &&& 7).toNat)) = none :=
        unitAt_of_short (by rw [List.length_drop]; omega)
      simp only [hret.mpr hend, ite_true, reached_of_none hnone, storeAll_nil]
      constructor
      · rintro frame ⟨⟩
        exact ⟨h264Buffer, rfl, hsize, rfl, fun _ _ => rfl⟩
      · rintro ⟨⟩
    · simp only [mt hret.mp hend, ite_false]
      have hdemux : Demuxing buffer h264Buffer ⟨c, h264Buffer, 0, 0⟩
          (14 + (stuffinglen &&& 7).toNat) [] (pack.drop (14 + (stuffinglen &&& 7).toNat)) :=
        ⟨⟨hsize, rfl, rfl, rfl, fun _ _ => rfl, by decide⟩, hat (by omega)⟩
      have hfuel : (pack.drop (14 + (stuffinglen &&& 7).toNat)).length < pack.length + 1 := by
        rw [List.length_drop]
        omega
      obtain ⟨r, hr, hgood, hbad⟩ := loop_demuxPass hdemux hfuel
      simp only [Int.toNat_natCast, hr, Option.getD_some]
      refine ⟨fun frame hf => ?_, fun hf hexact => ?_⟩
      · obtain ⟨st, rfl, hframed⟩ := hgood frame hf
        exact ⟨st.frame, by rw [← hframed.length]; rfl, hframed.size, hframed.bytes,
          hframed.behind⟩
      · obtain ⟨f, rfl⟩ := hbad hf (by rw [List.length_drop]; omega)
        exact ⟨f, rfl⟩

end Jrtplib4Android
