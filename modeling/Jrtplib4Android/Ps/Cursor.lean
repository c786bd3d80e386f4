import Jrtplib4Android.Ps.Refinement

/-!
# The cursor of the demuxer

The main loop with its payload copies left aside is a loop on the cursor alone, and
`GetH246FromPs` follows it as long as its copies do not fault. The position and the length
left over always add up to the length of the pack, and a pass that goes round takes at least
the six bytes in front of a length field, so the loop ends.
-/

namespace Jrtplib4Android

open CSem

/-- The body of the main loop, its payload copies left aside. -/
def cursorPass (b : Block) (c : PsCursor) : Pass PsCursor (Except Fault PsCursor) :=
  .attempt do
    if toUnsigned c.leftlength < packStartCodeSize then return .leave (.ok c)
    let c := { c with payloadData := none, payloadDataLen := 0 }
    match c.nextPack with
    | none => .error .null
    | some next =>
      if ← b.startsWith next [0, 0, 1, 0xe0] then
        let (ret, c) ← pes b next c.leftlength c
        return if ret = 0 then .leave (.ok c) else .again c
      else if ← b.startsWith next [0, 0, 1, 0xbb] then
        let (ret, c) ← programShHead b next c.leftlength c
        return if ret = 0 then .leave (.ok c) else .again c
      else if ← b.startsWith next [0, 0, 1, 0xbc] then
        let (ret, c) ← programStreamMap b next c.leftlength c
        return if ret = 0 then .leave (.ok c) else .again c
      else if ← b.startsWith next [0, 0, 1, 0xc0] then
        return .leave (.ok c)
      else if ← b.startsWith next [0, 0, 1, 0xbd] then
        return .leave (.ok c)
      else
        -- the log line prints the four bytes
        let _ ← b.load next
        let _ ← b.load (next + 1)
        let _ ← b.load (next + 2)
        let _ ← b.load (next + 3)
        return .leave (.ok c)

/-- `GetH246FromPs` with its payload copies left aside, for at most `fuel` passes: the cursor
that it ends with. -/
def walkPack (buffer : Block) (length : Int) (fuel : Nat) : Option (Except Fault PsCursor) :=
  match programStreamPackHeader buffer 0 length ⟨none, 0, none, 0⟩ with
  | .error f => some (.error f)
  | .ok (ret, c) => if ret = 0 then some (.ok c) else loop (cursorPass buffer) fuel c

/-- The copy leaves the cursor alone. -/
theorem cursor_copyPayload {b : Block} {st st' : DemuxState} (h : copyPayload b st = .ok st') :
    st'.cursor = st.cursor := by
  unfold copyPayload at h
  split at h
  · cases h; rfl
  split at h
  · obtain ⟨frame, -, hst⟩ := bind_eq_ok h
    cases hst
    rfl
  · cases h; rfl

/-- A pass of the main loop ends in a fault, or it does with the cursor what the pass without
the copies does. -/
inductive Tracks : Pass PsCursor (Except Fault PsCursor) →
    Pass DemuxState (Except Fault DemuxState) → Prop where
  | fault (pass : Pass PsCursor (Except Fault PsCursor)) (f : Fault) :
      Tracks pass (.leave (.error f))
  | leave (st : DemuxState) : Tracks (.leave (.ok st.cursor)) (.leave (.ok st))
  | again (st : DemuxState) : Tracks (.again st.cursor) (.again st)

private theorem ok_bind {α β : Type} (a : α) (f : α → Except Fault β) :
    (Except.ok a >>= f) = f a := rfl

/-- Both passes go on with what they both read. -/
theorem Tracks.bind {α : Type} (answer : Except Fault α)
    {f : α → Except Fault (Pass PsCursor (Except Fault PsCursor))}
    {g : α → Except Fault (Pass DemuxState (Except Fault DemuxState))}
    (h : ∀ a, Tracks (.attempt (f a)) (.attempt (g a))) :
    Tracks (.attempt (answer >>= f)) (.attempt (answer >>= g)) := by
  cases answer with
  | error e => exact .fault _ e
  | ok a => exact h a

/-- Behind a helper both passes end or go round with its cursor. -/
theorem tracks_helper (st : DemuxState) (ret : Int) :
    Tracks (.attempt (pure (if ret = 0 then .leave (.ok st.cursor) else .again st.cursor)))
      (.attempt (pure (if ret = 0 then .leave (.ok st) else .again st))) := by
  by_cases hret : ret = 0
  · rw [if_pos hret, if_pos hret]
    exact .leave st
  · rw [if_neg hret, if_neg hret]
    exact .again st

/-- A pass of the loop moves the cursor as the cursor alone would. -/
theorem demuxPass_tracks (b : Block) (st : DemuxState) :
    Tracks (cursorPass b st.cursor) (demuxPass b st) := by
  unfold cursorPass demuxPass
  by_cases hend : toUnsigned st.cursor.leftlength < packStartCodeSize
  · rw [if_pos hend, if_pos hend]
    exact .leave st
  rw [if_neg hend, if_neg hend]
  simp only
  generalize { st.cursor with payloadData := none, payloadDataLen := 0 } = c
  cases st.cursor.nextPack with
  | none => exact .fault _ .null
  | some next =>
    refine .bind _ fun video => ?_
    split
    · refine .bind _ ?_
      rintro ⟨ret, c'⟩
      cases hcopy : copyPayload b { st with cursor := c' } with
      | error f => exact .fault _ f
      | ok st' =>
        have hcursor : c' = st'.cursor := (cursor_copyPayload hcopy).symm
        rw [hcursor]
        exact tracks_helper st' ret
    refine .bind _ fun header => ?_
    split
    · refine .bind _ ?_
      rintro ⟨ret, c'⟩
      exact tracks_helper { st with cursor := c' } ret
    refine .bind _ fun map => ?_
    split
    · refine .bind _ ?_
      rintro ⟨ret, c'⟩
      exact tracks_helper { st with cursor := c' } ret
    have hleave := Tracks.leave { st with cursor := c }
    refine .bind _ fun audio => ?_
    split
    · exact hleave
    refine .bind _ fun audio' => ?_
    split
    · exact hleave
    exact .bind _ fun _ => .bind _ fun _ => .bind _ fun _ => .bind _ fun _ => hleave

/-- A pass that goes on moves the cursor alike. -/
theorem cursorPass_of_again {b : Block} {st st' : DemuxState} (h : demuxPass b st = .again st') :
    cursorPass b st.cursor = .again st'.cursor := by
  have htracks := demuxPass_tracks b st
  rw [h] at htracks
  generalize hpass : cursorPass b st.cursor = pass at htracks
  cases htracks with
  | again => rfl

/-- What a helper does with the cursor in front of `rest`: it answers 0, or it moves on over a
length field at least, with bytes left over. -/
def Advances (b : Block) (p : Nat) (rest : List UInt8)
    (answer : Except Fault (Int × PsCursor)) : Prop :=
  ∃ ret c, answer = .ok (ret, c) ∧
    (ret ≠ 0 → ∃ n, 6 ≤ n ∧ n < rest.length ∧ At b c (p + n) (rest.drop n))

/-- Everything a pass without the copies can do. -/
inductive CursorStep (b : Block) (p : Nat) (rest : List UInt8) :
    Pass PsCursor (Except Fault PsCursor) → Prop where
  | done (c : PsCursor) : CursorStep b p rest (.leave (.ok c))
  | next (c : PsCursor) (n : Nat) (hsix : 6 ≤ n) (hn : n < rest.length)
      (hnext : At b c (p + n) (rest.drop n)) : CursorStep b p rest (.again c)

section Passes

variable {b : Block} {c : PsCursor} {p : Nat} {rest : List UInt8}

/-- A section that is skipped is behind the cursor. -/
theorem advances_skipSection (h : At b c p rest) :
    Advances b p rest (skipSection b p c.leftlength c) := by
  by_cases h6 : rest.length < 6
  · obtain ⟨c', hok⟩ := skipSection_short h h6
    exact ⟨0, c', hok, fun hne => absurd rfl hne⟩
  · obtain ⟨ret, c', hok, hret, hnext⟩ := skipSection_eq h (Nat.le_of_not_lt h6) rfl
    refine ⟨ret, c', hok, fun hne => ?_⟩
    have hlt := Nat.lt_of_not_le (mt hret.mpr hne)
    exact ⟨_, Nat.le_add_right 6 _, hlt, hnext hlt⟩

/-- So is a PES packet. -/
theorem advances_pes (h : At b c p rest) : Advances b p rest (pes b p c.leftlength c) := by
  by_cases h9 : rest.length < 9
  · obtain ⟨c', hok, -⟩ := pes_short h h9
    exact ⟨0, c', hok, fun hne => absurd rfl hne⟩
  · obtain ⟨ret, c', hok, hret, hnext, -⟩ := pes_eq h (Nat.le_of_not_lt h9) rfl rfl
    refine ⟨ret, c', hok, fun hne => ?_⟩
    have hlt := Nat.lt_of_not_le (mt hret.mpr hne)
    exact ⟨_, Nat.le_add_right 6 _, hlt, hnext hlt⟩

/-- The pass goes round with the cursor of the helper, unless that answers 0. -/
theorem Advances.step {answer : Except Fault (Int × PsCursor)} (h : Advances b p rest answer) :
    CursorStep b p rest (.attempt do
      let (ret, c) ← answer
      return if ret = 0 then .leave (.ok c) else .again c) := by
  obtain ⟨ret, c', rfl, hnext⟩ := h
  by_cases hret : ret = 0
  · simp only [bind, Except.bind, pure, Except.pure, Pass.attempt, hret, ite_true]
    exact .done c'
  · obtain ⟨n, hsix, hn, hat⟩ := hnext hret
    simp only [bind, Except.bind, pure, Except.pure, Pass.attempt, hret, ite_false]
    exact .next c' n hsix hn hat

/-- What a pass does to the cursor. -/
theorem cursorPass_step (h : At b c p rest) : CursorStep b p rest (cursorPass b c) := by
  have hshort := h.short
  unfold cursorPass
  by_cases h4 : rest.length < 4
  · have hend : toUnsigned c.leftlength < packStartCodeSize := by
      rw [h.left, toUnsigned_eq (by omega) (by omega), packStartCodeSize]
      omega
    simp only [hend, ite_true, Pass.attempt, pure, Except.pure]
    exact .done c
  have hgo : ¬ toUnsigned c.leftlength < packStartCodeSize := by
    rw [h.left, toUnsigned_eq (by omega) (by omega), packStartCodeSize]
    omega
  have hc : At b { c with payloadData := none, payloadDataLen := 0 } p rest :=
    ⟨h.next, h.left, h.bytes, h.inside, h.short⟩
  have hcode := h.startsWith_eq (by omega : 4 ≤ rest.length)
  generalize { c with payloadData := none, payloadDataLen := 0 } = c' at hc
  simp only [hgo, ite_false, hc.next, hcode, ok_bind, decide_eq_true_eq]
  by_cases he0 : rest.take 4 = [0, 0, 1, 0xe0]
  · simp only [he0, ite_true]
    exact (advances_pes hc).step
  by_cases hbb : rest.take 4 = [0, 0, 1, 0xbb]
  · simp only [hbb, ite_true]
    exact (advances_skipSection hc).step
  by_cases hbc : rest.take 4 = [0, 0, 1, 0xbc]
  · simp only [hbc, ite_true]
    exact (advances_skipSection hc).step
  have hload0 : b.load p = .ok (rest.getD 0 0) := hc.load_eq (i := 0) (by omega)
  simp only [he0, hbb, hbc, ite_false, hload0, hc.load_eq (by omega : 1 < rest.length),
    hc.load_eq (by omega : 2 < rest.length), hc.load_eq (by omega : 3 < rest.length), ok_bind,
    ite_self]
  exact .done c'

end Passes

/-- The cursor is at `p` with the rest of the pack ahead. -/
structure PsCursor.Stands (length : Int) (c : PsCursor) (p : Nat) : Prop where
  next : c.nextPack = some p
  sum : p + c.leftlength = length

/-- The cursors with which an iteration of the main loop begins. -/
structure AtHead (buffer : Block) (length : Int) (c : PsCursor) : Prop where
  visited : ∃ ret c₀, programStreamPackHeader buffer 0 length ⟨none, 0, none, 0⟩ = .ok (ret, c₀) ∧
    ret ≠ 0 ∧ Visits (cursorPass buffer) c₀ c
  entered : packStartCodeSize ≤ toUnsigned c.leftlength

/-- The bytes ahead of the cursor are those up to the end of the pack. -/
def InPack (buffer : Block) (length : Int) (c : PsCursor) : Prop :=
  ∃ p rest, At buffer c p rest ∧ (p : Int) + rest.length = length

section Loop

variable {buffer : Block} {length : Int}

/-- A pass that goes on stays in the pack and takes at least six bytes. -/
theorem InPack.again {c c' : PsCursor} (h : InPack buffer length c)
    (hpass : cursorPass buffer c = .again c') :
    InPack buffer length c' ∧ ∃ p p', c.Stands length p ∧ c'.Stands length p' ∧ p + 6 ≤ p' := by
  obtain ⟨p, rest, hat, hsum⟩ := h
  have hstep := cursorPass_step hat
  rw [hpass] at hstep
  cases hstep with
  | next _ n hsix hn hnext =>
    have hsum' : ((p + n : Nat) : Int) + (rest.drop n).length = length := by
      rw [List.length_drop]
      omega
    refine ⟨⟨p + n, rest.drop n, hnext, hsum'⟩, p, p + n, ⟨hat.next, ?_⟩, ⟨hnext.next, ?_⟩, ?_⟩
    · rw [hat.left]
      exact hsum
    · rw [hnext.left]
      exact hsum'
    · omega

/-- A pass that ends the loop does so without a fault. -/
theorem InPack.leave {c : PsCursor} {r : Except Fault PsCursor} (h : InPack buffer length c)
    (hpass : cursorPass buffer c = .leave r) : ∃ c', r = .ok c' := by
  obtain ⟨p, rest, hat, -⟩ := h
  have hstep := cursorPass_step hat
  rw [hpass] at hstep
  cases hstep with
  | done c' => exact ⟨c', rfl⟩

/-- Behind the pack header the rest of the pack is ahead. -/
theorem ahead_header (hlo : 14 ≤ length) (hhi : length < psBufSize)
    (hsize : length ≤ buffer.size) :
    ∃ ret c, programStreamPackHeader buffer 0 length ⟨none, 0, none, 0⟩ = .ok (ret, c) ∧
      (ret ≠ 0 → InPack buffer length c) := by
  have hbound : psBufSize < 2 ^ 31 := by decide
  obtain ⟨n, rfl⟩ := Int.eq_ofNat_of_zero_le (by omega : 0 ≤ length)
  have hlen : (buffer.slice 0 n).length = n := Block.length_slice _ _ _
  have h13 : (buffer.slice 0 n)[13]? = some (buffer.byte 13) := by
    rw [Block.getElem?_slice buffer (by omega), Nat.zero_add]
  obtain ⟨ret, c, hok, hret, hat⟩ := programStreamPackHeader_eq (b := buffer)
    ⟨none, 0, none, 0⟩ (by rw [hlen]) (by omega) (by omega) h13 rfl
  rw [hlen] at hok hret hat
  refine ⟨ret, c, hok, fun hne => ?_⟩
  have hroom := Nat.le_of_not_lt (mt hret.mpr hne)
  refine ⟨_, _, hat hroom, ?_⟩
  rw [List.length_drop, hlen]
  omega

/-- A pass that goes round leaves fewer multiples of six bytes ahead. -/
theorem InPack.again_lt {c c' : PsCursor} (h : InPack buffer length c)
    (hpass : cursorPass buffer c = .again c') :
    InPack buffer length c' ∧ c'.leftlength.toNat / 6 < c.leftlength.toNat / 6 := by
  obtain ⟨hahead, p, p', hat, hat', hsix⟩ := h.again hpass
  have ⟨_, rest, hrest, _⟩ := hahead
  have hsum := hat.sum
  have hsum' := hat'.sum
  have hleft := hrest.left
  exact ⟨hahead, by omega⟩

/-- From a cursor with the rest of the pack ahead the loop on the cursor ends well. -/
theorem InPack.loop_cursorPass {c : PsCursor} (h : InPack buffer length c) {fuel : Nat}
    (hfuel : length < 6 * fuel) : ∃ c', loop (cursorPass buffer) fuel c = some (.ok c') := by
  have hvariant : c.leftlength.toNat / 6 < fuel := by
    obtain ⟨p, rest, hat, hsum⟩ := h
    have hleft := hat.left
    omega
  obtain ⟨_, hloop, c', rfl⟩ := loop_eq_some (I := InPack buffer length)
    (Q := fun r => ∃ c', r = .ok c') (μ := fun c => c.leftlength.toNat / 6)
    (fun _ _ hs => hs.again_lt) (fun _ _ hs => hs.leave) fuel c h hvariant
  exact ⟨c', hloop⟩

/-- So does the loop with the copies, or it ends in a fault of a copy. -/
theorem InPack.loop_demuxPass {st : DemuxState} (h : InPack buffer length st.cursor) {fuel : Nat}
    (hfuel : length < 6 * fuel) : ∃ r, loop (demuxPass buffer) fuel st = some r := by
  have hvariant : st.cursor.leftlength.toNat / 6 < fuel := by
    obtain ⟨p, rest, hat, hsum⟩ := h
    have hleft := hat.left
    omega
  have hagain : ∀ st st', InPack buffer length st.cursor → demuxPass buffer st = .again st' →
      InPack buffer length st'.cursor ∧
        st'.cursor.leftlength.toNat / 6 < st.cursor.leftlength.toNat / 6 := by
    intro st st' hs hpass
    have hcursor := cursorPass_of_again hpass
    exact hs.again_lt hcursor
  obtain ⟨r, hloop, -⟩ := loop_eq_some (I := fun st => InPack buffer length st.cursor)
    (Q := fun _ => True) (μ := fun st => st.cursor.leftlength.toNat / 6) hagain
    (fun _ _ _ _ => trivial) fuel st h hvariant
  exact ⟨r, hloop⟩

/-- For every content of the buffer the loop of `GetH246FromPs`, its copies left aside, ends
within a sixth of `length` passes. At the head of an iteration the position and the length left
over add up to `length`, with a start code at least ahead, and an iteration that goes round
moves over six bytes at least. -/
theorem walkPack_terminates (buffer : Block) {length : Int} (hlo : 14 ≤ length)
    (hhi : length < psBufSize) (hsize : length ≤ buffer.size) :
    (∀ fuel : Nat, length < 6 * fuel → ∃ c, walkPack buffer length fuel = some (.ok c)) ∧
      ∀ c, AtHead buffer length c → ∃ p, c.Stands length p ∧ 4 ≤ c.leftlength ∧
        ∀ c', cursorPass buffer c = .again c' → ∃ p', c'.Stands length p' ∧ p + 6 ≤ p' := by
  obtain ⟨ret, c₀, hheader, hahead⟩ := ahead_header hlo hhi hsize
  constructor
  · intro fuel hfuel
    simp only [walkPack, hheader]
    by_cases hret : ret = 0
    · rw [if_pos hret]
      exact ⟨c₀, rfl⟩
    · rw [if_neg hret]
      exact (hahead hret).loop_cursorPass hfuel
  · rintro c ⟨⟨ret', c₁, hheader', hret, hvisits⟩, hentered⟩
    rw [hheader] at hheader'
    cases hheader'
    have hc : InPack buffer length c :=
      visits_invariant (hahead hret) (fun _ _ hs hpass => (hs.again hpass).1) hvisits
    have ⟨p, rest, hat, hsum⟩ := hc
    have hleft := hat.left
    refine ⟨p, ⟨hat.next, by omega⟩, ?_, fun c' hpass => ?_⟩
    · have hshort := hat.short
      rw [hleft, toUnsigned_eq (by omega) (by omega), packStartCodeSize] at hentered
      omega
    · obtain ⟨-, q, p', hq, hp', hsix⟩ := hc.again hpass
      have hqp := hq.next
      rw [hat.next, Option.some.injEq] at hqp
      exact ⟨p', hp', hqp ▸ hsix⟩

end Loop

/-- A pack with an empty system header, an empty stream map and a start code. -/
def sectionsPack : List UInt8 :=
  [0, 0, 1, 0xba, 0, 0, 0, 0, 0, 0, 0, 0, 0, 0xf8, 0, 0, 1, 0xbb, 0, 0, 0, 0, 1, 0xbc, 0, 0,
    0, 0, 1, 0xe0]

/-- A pack of three sections. -/
theorem walkPack_terminates_sections :
    (∃ c, walkPack (.ofList sectionsPack) 30 6 = some (.ok c)) ∧
      ∀ c, AtHead (.ofList sectionsPack) 30 c → ∃ p, c.Stands 30 p ∧ 4 ≤ c.leftlength ∧
        ∀ c', cursorPass (.ofList sectionsPack) c = .again c' → ∃ p', c'.Stands 30 p' ∧
          p + 6 ≤ p' :=
  have hlo : (14 : Int) ≤ 30 := by decide
  have h := walkPack_terminates (.ofList sectionsPack) hlo (by decide) (by decide)
  ⟨h.1 6 (by decide), h.2⟩

section Copies

variable {buffer : Block} {length : Int}

/-- The loop with the copies comes to no other cursors. -/
theorem atHead_of_visits {ret : Int} {st₀ st : DemuxState} (hret : ret ≠ 0)
    (hheader : programStreamPackHeader buffer 0 length ⟨none, 0, none, 0⟩ = .ok (ret, st₀.cursor))
    (hvisits : Visits (demuxPass buffer) st₀ st)
    (hentered : packStartCodeSize ≤ toUnsigned st.cursor.leftlength) :
    AtHead buffer length st.cursor :=
  ⟨⟨ret, st₀.cursor, hheader, hret, hvisits.map fun _ _ => cursorPass_of_again⟩, hentered⟩

/-- The bound on the passes of `GetH246FromPs` is never used up. -/
theorem getH246FromPs_ends (hlo : 14 ≤ length) (hhi : length < psBufSize)
    (hsize : length ≤ buffer.size) (h264Buffer : Block) :
    getH246FromPs buffer length h264Buffer = .ok (0, h264Buffer) ∨
      ∃ c r, loop (demuxPass buffer) (length.toNat + 1) ⟨c, h264Buffer, 0, 0⟩ = some r ∧
        getH246FromPs buffer length h264Buffer = r.map fun st => (st.h264length, st.frame) := by
  obtain ⟨ret, c, hheader, hahead⟩ := ahead_header hlo hhi hsize
  rw [getH246FromPs, hheader, ok_bind]
  by_cases hret : ret = 0
  · simp only [if_pos hret]
    exact Or.inl rfl
  · simp only [if_neg hret]
    have hstart : InPack buffer length (DemuxState.cursor ⟨c, h264Buffer, 0, 0⟩) := hahead hret
    have hfuel : length < 6 * (length.toNat + 1 : Nat) := by omega
    obtain ⟨r, hloop⟩ := hstart.loop_demuxPass hfuel
    refine Or.inr ⟨c, r, hloop, ?_⟩
    rw [hloop, Option.getD_some]
    cases r <;> rfl

end Copies

end Jrtplib4Android
