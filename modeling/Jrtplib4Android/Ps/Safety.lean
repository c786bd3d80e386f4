import Jrtplib4Android.Ps.Refinement

/-!
# Memory safety of the demuxer

On a buffer of exactly its length argument `GetH246FromPs` stays in defined
memory precisely when the pack is safe: its header is complete, and every video
packet that the length fields lead to has room for its own header data and ends
inside the buffer, unless nothing of it is copied.
-/

namespace Jrtplib4Android

open CSem

/-- A unit whose copy stays inside the pack, with `stored` bytes in the frame already. -/
def UnitSafe (stored : Nat) : UnitHead × List UInt8 → Prop
  | (.table _, _) => True
  | (.video n h, bytes) => 3 + h ≤ n ∧
      (n = 3 + h ∨ fitsFrame stored (n - (3 + h)) = false ∨ 6 + n ≤ bytes.length)

/-- The frame length behind a unit. -/
def UnitHead.store (stored : Nat) : UnitHead → Nat
  | .table _ => stored
  | .video n h => storedAfter stored (n - (3 + h))

/-- Units that are safe one after the other. -/
def UnitsSafe (stored : Nat) : List (UnitHead × List UInt8) → Prop
  | [] => True
  | u :: us => UnitSafe stored u ∧ UnitsSafe (u.1.store stored) us

/-- A pack that can be demuxed inside its own bytes. -/
def PackSafe (pack : List UInt8) : Prop :=
  match pack[13]? with
  | none => False
  | some stuffinglen => UnitsSafe 0 (reached (pack.drop (14 + (stuffinglen &&& 7).toNat)))

/-- A safe unit is stored, an unsafe one is not. -/
theorem storeUnit_isSome_iff (acc : List UInt8) (u : UnitHead × List UInt8) :
    (storeUnit acc u).isSome ↔ UnitSafe acc.length u := by
  obtain ⟨head, bytes⟩ := u
  cases head with
  | table n => simp [storeUnit, UnitSafe]
  | video n h =>
    simp only [storeUnit, UnitSafe]
    by_cases hneg : n < 3 + h
    · rw [if_pos hneg]
      simp
      omega
    rw [if_neg hneg]
    by_cases hskip : n = 3 + h ∨ fitsFrame acc.length (n - (3 + h)) = false
    · rw [if_pos hskip]
      simp only [Option.isSome_some, true_iff]
      exact ⟨by omega, or_assoc.mp (Or.inl hskip)⟩
    rw [if_neg hskip, ← or_assoc]
    by_cases hshort : bytes.length < 6 + n
    · rw [if_pos hshort]
      simp only [Option.isSome_none, Bool.false_eq_true, false_iff, not_and, not_or]
      exact fun _ => ⟨not_or.mp hskip, by omega⟩
    · rw [if_neg hshort]
      simp only [Option.isSome_some, true_iff]
      exact ⟨by omega, Or.inr (by omega)⟩

theorem length_storeUnit {acc acc' : List UInt8} {u : UnitHead × List UInt8}
    (h : storeUnit acc u = some acc') : acc'.length = u.1.store acc.length := by
  obtain ⟨head, bytes⟩ := u
  cases head with
  | table n => cases h; rfl
  | video n hd =>
    simp only [storeUnit] at h
    simp only [UnitHead.store, storedAfter]
    split at h
    · cases h
    split at h
    · next hskip =>
      cases h
      split
      · next hfit => rw [hskip.resolve_right (by simp [hfit])]; omega
      · rfl
    split at h
    · cases h
    · next hskip hshort =>
      cases h
      rw [not_or, Bool.not_eq_false] at hskip
      rw [if_pos hskip.2, List.length_append, List.length_take, List.length_drop]
      omega

theorem storeAll_isSome_iff (acc : List UInt8) (units : List (UnitHead × List UInt8)) :
    (storeAll acc units).isSome ↔ UnitsSafe acc.length units := by
  induction units generalizing acc with
  | nil => simp [UnitsSafe]
  | cons u us ih =>
    rw [storeAll_cons, UnitsSafe, ← storeUnit_isSome_iff]
    cases hu : storeUnit acc u with
    | none => simp
    | some acc' => rw [Option.bind_some, ih, length_storeUnit hu]; simp

/-- Exactly the safe packs have a frame. -/
theorem demux_isSome_iff (pack : List UInt8) : (demux pack).isSome ↔ PackSafe pack := by
  unfold demux PackSafe
  cases pack[13]? with
  | none => simp
  | some stuffinglen => exact storeAll_isSome_iff _ _

/-- On a buffer of exactly `length` bytes and a frame buffer of `H264_FRAME_SIZE_MAX`
bytes every access is inside, and every copy has a source and a length, exactly
when the buffer holds a safe pack. -/
theorem getH246FromPs_ok_iff (bytes : List UInt8) (hlen : bytes.length < psBufSize)
    {h264Buffer : Block} (hsize : h264Buffer.size = h264FrameSizeMax) :
    (∃ r, getH246FromPs (.ofList bytes) bytes.length h264Buffer = .ok r) ↔ PackSafe bytes := by
  have hshort : bytes.length < 2 ^ 31 := by
    simp only [psBufSize] at hlen
    omega
  obtain ⟨hgood, hbad⟩ := getH246FromPs_eq (Block.slice_ofList bytes) (Nat.le_refl _) hshort hsize
  rw [← demux_isSome_iff]
  cases hd : demux bytes with
  | none =>
    obtain ⟨f, hf⟩ := hbad hd rfl
    simp [hf]
  | some frame =>
    obtain ⟨out, hok, -⟩ := hgood frame hd
    exact ⟨fun _ => rfl, fun _ => ⟨_, hok⟩⟩

/-- A pack with one complete video packet of two payload bytes. -/
def completePack : List UInt8 :=
  [0, 0, 1, 0xba, 0, 0, 0, 0, 0, 0, 0, 0, 0, 0, 0, 0, 1, 0xe0, 0, 5, 0x80, 0, 0, 0x65, 0x88]

theorem packSafe_completePack : PackSafe completePack := by
  have hunits : reached (completePack.drop 14) =
      [(.video 5 0, completePack.drop 14)] := by
    rw [reached_of_some (u := .video 5 0) (by decide), reached_of_none (by decide)]
  show UnitsSafe 0 (reached (completePack.drop 14))
  rw [hunits]
  exact ⟨⟨by decide, Or.inr (Or.inr (by decide))⟩, trivial⟩

theorem getH246FromPs_ok_iff_completePack :
    ∃ r, getH246FromPs (.ofList completePack) completePack.length (.fill h264FrameSizeMax 0) =
      .ok r :=
  (getH246FromPs_ok_iff completePack (by decide) rfl).mpr packSafe_completePack

/-- A pack whose video packet declares a packet length of zero: the payload length is
negative, and `memcpy` is called with it and a null source. -/
def zeroLengthPack : List UInt8 :=
  [0, 0, 1, 0xba, 0, 0, 0, 0, 0, 0, 0, 0, 0, 0, 0, 0, 1, 0xe0, 0, 0, 0x80, 0, 0]

theorem faultOf_zeroLengthPack :
    zeroLengthPack.length < psBufSize ∧
      faultOf (getH246FromPs (.ofList zeroLengthPack) zeroLengthPack.length
        (.fill h264FrameSizeMax 0)) = some .length := by
  decide +kernel

end Jrtplib4Android
