import Mathlib.Data.List.Basic
import Jrtplib4Android.Core.Bytes
import Jrtplib4Android.Ps.Demux

/-!
# The units a demuxer reaches

What demuxing means on a list of bytes, without a cursor: `reached` follows the
length fields from unit to unit, and `storeAll` appends the payloads of the
video units among them to the frame. `none` stands for a copy that memory does
not allow: a payload that ends before it starts, or behind the pack.
-/

namespace Jrtplib4Android

open CSem

/-- What the header of a unit says: a PES packet with its packet length and header
data length, or a section with its length. -/
inductive UnitHead where
  | video (n h : Nat)
  | table (n : Nat)
  deriving DecidableEq

/-- The bytes from the start code of a unit to the next one. -/
def UnitHead.span : UnitHead → Nat
  | .video n _ => 6 + n
  | .table n => 6 + n

/-- The unit at the start of a list, if it is one the demuxer follows. -/
def unitAt (rest : List UInt8) : Option UnitHead :=
  if rest.take 4 = [0, 0, 1, 0xe0] then
    if rest.length < 9 then none
    else some (.video (beNat [rest.getD 4 0, rest.getD 5 0]) (rest.getD 8 0).toNat)
  else if rest.take 4 = [0, 0, 1, 0xbb] ∨ rest.take 4 = [0, 0, 1, 0xbc] then
    if rest.length < 6 then none else some (.table (beNat [rest.getD 4 0, rest.getD 5 0]))
  else none

/-- A unit has at least its six header bytes. -/
theorem six_le_of_unitAt {rest : List UInt8} {u : UnitHead} (h : unitAt rest = some u) :
    6 ≤ rest.length := by
  unfold unitAt at h
  split at h
  · split at h
    · cases h
    · omega
  · split at h
    · split at h
      · cases h
      · omega
    · cases h

/-- A unit has at least six bytes. -/
theorem six_le_span (u : UnitHead) : 6 ≤ u.span := by
  cases u <;> exact Nat.le_add_right 6 _

/-- The units reached by following the length fields, each with the bytes from its
start code on. -/
def reached (rest : List UInt8) : List (UnitHead × List UInt8) :=
  match _hu : unitAt rest with
  | none => []
  | some u => (u, rest) :: reached (rest.drop u.span)
termination_by rest.length
decreasing_by
  have h6 := six_le_of_unitAt _hu
  have hspan := six_le_span u
  rw [List.length_drop]
  omega

theorem reached_of_none {rest : List UInt8} (h : unitAt rest = none) : reached rest = [] := by
  rw [reached]
  split
  · rfl
  · next u hu => rw [h] at hu; cases hu

/-- A unit that is parsed is reached, and what is behind it. -/
theorem reached_of_some {rest : List UInt8} {u : UnitHead} (h : unitAt rest = some u) :
    reached rest = (u, rest) :: reached (rest.drop u.span) := by
  rw [reached]
  split
  · next hu => rw [h] at hu; cases hu
  · next v hv => rw [h] at hv; cases hv; rfl

@[simp] theorem reached_nil : reached [] = [] := reached_of_none rfl

/-- Whether a payload of `m` bytes still fits behind `stored` bytes of the frame. -/
def fitsFrame (stored m : Nat) : Bool := decide (m + stored < h264FrameSizeMax)

/-- The stored bytes once a payload of `m` bytes had its turn. -/
def storedAfter (stored m : Nat) : Nat := if fitsFrame stored m then stored + m else stored

/-- The frame after one unit. -/
def storeUnit (acc : List UInt8) : UnitHead × List UInt8 → Option (List UInt8)
  | (.table _, _) => some acc
  | (.video n h, bytes) =>
    if n < 3 + h then none
    else if n = 3 + h ∨ fitsFrame acc.length (n - (3 + h)) = false then some acc
    else if bytes.length < 6 + n then none
    else some (acc ++ (bytes.drop (9 + h)).take (n - (3 + h)))

/-- The frame after all units. -/
def storeAll (acc : List UInt8) (units : List (UnitHead × List UInt8)) : Option (List UInt8) :=
  units.foldlM storeUnit acc

/-- The frame of a pack: the units behind the 14 byte header and its stuffing. -/
def demux (pack : List UInt8) : Option (List UInt8) :=
  match pack[13]? with
  | none => none
  | some stuffinglen => storeAll [] (reached (pack.drop (14 + (stuffinglen &&& 7).toNat)))

@[simp] theorem storeAll_nil (acc : List UInt8) : storeAll acc [] = some acc := rfl

theorem storeAll_cons (acc : List UInt8) (u : UnitHead × List UInt8)
    (units : List (UnitHead × List UInt8)) :
    storeAll acc (u :: units) = (storeUnit acc u).bind fun acc => storeAll acc units := rfl

end Jrtplib4Android
