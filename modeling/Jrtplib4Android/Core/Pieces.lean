import Mathlib.Data.List.Basic
import Mathlib.Tactic.Common

/-!
# Data in pieces

`separated` cuts a list into pieces of a given length and puts a separator between them.
-/

namespace CSem

variable {α : Type*}

/-- The data in pieces of `k` elements, with `sep` in front of every piece but the first. -/
def separated (k : Nat) (sep xs : List α) : List α :=
  if 0 < k ∧ k < xs.length then xs.take k ++ (sep ++ separated k sep (xs.drop k)) else xs
termination_by xs.length
decreasing_by
  rw [List.length_drop]
  omega

/-- Data that fits one piece is left alone. -/
theorem separated_of_le {k : Nat} {xs : List α} (h : xs.length ≤ k) (sep : List α) :
    separated k sep xs = xs := by
  rw [separated, if_neg (by omega)]

/-- Longer data is a piece and the rest behind the separator. -/
theorem separated_of_lt {k : Nat} {xs : List α} (hk : 0 < k) (h : k < xs.length) (sep : List α) :
    separated k sep xs = xs.take k ++ (sep ++ separated k sep (xs.drop k)) := by
  rw [separated, if_pos ⟨hk, h⟩]

/-- A proof piece by piece. -/
theorem pieces_induction {motive : List α → Prop} (k : Nat) (hk : 0 < k)
    (short : ∀ xs, xs.length ≤ k → motive xs)
    (long : ∀ xs, k < xs.length → motive (xs.drop k) → motive xs) (xs : List α) : motive xs := by
  induction hn : xs.length using Nat.strongRecOn generalizing xs with
  | ind n ih =>
    rcases Nat.lt_or_ge k xs.length with h | h
    · refine long xs h (ih _ ?_ _ rfl)
      rw [List.length_drop]
      omega
    · exact short xs h

end CSem
