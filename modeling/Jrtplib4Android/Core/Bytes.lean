import Mathlib.Data.List.Induction
import Mathlib.Tactic.Common
import Mathlib.Tactic.IntervalCases

/-!
# Bytes

A statement about one byte is checked on the 256 bytes, so bit-field identities
need no bit-level argument. `beNat` reads a big-endian field of any width and
`beBytes` writes one; `takeField` reads data behind its big-endian length.
`leWord` is a 32-bit word in little-endian memory, byte by byte.
-/

namespace CSem

/-- A property of every byte is a finite check. -/
theorem forall_byte {P : UInt8 → Prop} (h : ∀ n : Fin 256, P (UInt8.ofFin n)) (b : UInt8) : P b :=
  h b.toFin

/-- The value of a big-endian field. -/
def beNat (bs : List UInt8) : Nat := bs.foldl (fun n b => 256 * n + b.toNat) 0

/-- The big-endian field of `w` bytes that holds the low bytes of `n`. -/
def beBytes : Nat → Nat → List UInt8
  | 0, _ => []
  | w + 1, n => beBytes w (n / 256) ++ [UInt8.ofNat n]

@[simp] theorem length_beBytes (w n : Nat) : (beBytes w n).length = w := by
  induction w generalizing n with
  | zero => rfl
  | succ w ih => simp only [beBytes, List.length_append, ih, List.length_singleton]

theorem beNat_append_singleton (bs : List UInt8) (b : UInt8) :
    beNat (bs ++ [b]) = 256 * beNat bs + b.toNat := by
  simp only [beNat, List.foldl_append, List.foldl_cons, List.foldl_nil]

/-- A field of `w` bytes is below `256 ^ w`. -/
theorem beNat_lt (bs : List UInt8) : beNat bs < 256 ^ bs.length := by
  induction bs using List.reverseRecOn with
  | nil => exact Nat.one_pos
  | append_singleton bs b ih =>
    have hb := b.toNat_lt
    rw [beNat_append_singleton, List.length_append, List.length_singleton, Nat.pow_succ]
    omega

/-- A field that is wide enough reads back. -/
theorem beNat_beBytes {w n : Nat} (h : n < 256 ^ w) : beNat (beBytes w n) = n := by
  induction w generalizing n with
  | zero => simp only [Nat.pow_zero, Nat.lt_one_iff] at h; subst h; rfl
  | succ w ih =>
    have hdiv : n / 256 < 256 ^ w := by
      rw [Nat.pow_succ] at h
      exact (Nat.div_lt_iff_lt_mul (by decide)).mpr h
    rw [beBytes, beNat_append_singleton, ih hdiv, UInt8.toNat_ofNat']
    omega

/-- The byte `(x >> k) & 0xff` of an `int`. -/
def intByte (x : Int) (k : Nat) : UInt8 := UInt8.ofInt (x >>> k)

theorem intByte_natCast (n k : Nat) : intByte n k = UInt8.ofNat (n / 2 ^ k) := by
  rw [intByte, Int.shiftRight_eq_div_pow, ← Int.natCast_ediv]
  apply UInt8.toNat_inj.mp
  rw [UInt8.ofInt, UInt8.toNat_ofNat', UInt8.toNat_ofNat']
  omega

/-- A nonnegative `int` is kept by the conversion to `uint32_t`. -/
theorem toNat_ofInt {n : Nat} (h : n < 2 ^ 32) : (UInt32.ofInt (n : Int)).toNat = n := by
  rw [UInt32.ofInt, UInt32.toNat_ofNat']
  omega

theorem ofInt_natCast (n : Nat) : UInt32.ofInt (n : Int) = UInt32.ofNat n := by
  refine UInt32.toNat_inj.mp ?_
  rw [UInt32.ofInt, UInt32.toNat_ofNat', UInt32.toNat_ofNat']
  omega

/-- Two bytes cut out of an `int` are its 16-bit field. -/
theorem beBytes_two (n : Nat) : [intByte n 8, intByte n 0] = beBytes 2 n := by
  simp only [beBytes, intByte_natCast, List.nil_append, List.cons_append, Nat.pow_zero, Nat.div_one]
  rfl

/-- Three bytes cut out of an `int` are its 24-bit field. -/
theorem beBytes_three (n : Nat) : [intByte n 16, intByte n 8, intByte n 0] = beBytes 3 n := by
  simp only [beBytes, intByte_natCast, List.nil_append, List.cons_append, Nat.pow_zero,
    Nat.div_one, Nat.div_div_eq_div_mul]
  rfl

/-- Four bytes cut out of an `int` are its 32-bit field. -/
theorem beBytes_four (n : Nat) :
    [intByte n 24, intByte n 16, intByte n 8, intByte n 0] = beBytes 4 n := by
  simp only [beBytes, intByte_natCast, List.nil_append, List.cons_append, Nat.pow_zero,
    Nat.div_one, Nat.div_div_eq_div_mul]
  rfl

/-- Data behind a big-endian length of `w` bytes, and what follows it. -/
def takeField (w : Nat) (bs : List UInt8) : Option (List UInt8 × List UInt8) :=
  if bs.length < w then none
  else if (bs.drop w).length < beNat (bs.take w) then none
  else some ((bs.drop w).take (beNat (bs.take w)), (bs.drop w).drop (beNat (bs.take w)))

/-- Data written behind its length reads back. -/
theorem takeField_append {w : Nat} {xs : List UInt8} (rest : List UInt8)
    (h : xs.length < 256 ^ w) :
    takeField w (beBytes w xs.length ++ (xs ++ rest)) = some (xs, rest) := by
  have hw : ¬ (beBytes w xs.length ++ (xs ++ rest)).length < w := by
    rw [List.length_append, length_beBytes]
    omega
  have hx : ¬ (xs ++ rest).length < xs.length := by
    rw [List.length_append]
    omega
  rw [takeField, if_neg hw, List.drop_left' (length_beBytes w _),
    List.take_left' (length_beBytes w _), beNat_beBytes h, if_neg hx, List.take_left,
    List.drop_left]

/-- A counted run of fields, each behind its length. -/
def takeFields (w : Nat) : Nat → List UInt8 → Option (List (List UInt8) × List UInt8)
  | 0, bs => some ([], bs)
  | n + 1, bs => do
    let (x, bs) ← takeField w bs
    let (xs, bs) ← takeFields w n bs
    return (x :: xs, bs)

/-- A run of fields written behind their lengths reads back. -/
theorem takeFields_append {w : Nat} {xss : List (List UInt8)} (rest : List UInt8)
    (h : ∀ xs ∈ xss, xs.length < 256 ^ w) :
    takeFields w xss.length
      ((xss.flatMap fun xs => beBytes w xs.length ++ xs) ++ rest) = some (xss, rest) := by
  induction xss with
  | nil => rfl
  | cons xs xss ih =>
    rw [List.forall_mem_cons] at h
    rw [List.length_cons, List.flatMap_cons, List.append_assoc, List.append_assoc, takeFields,
      takeField_append _ h.1]
    simp only [Option.bind_eq_bind, Option.bind_some, ih h.2, pure]

/-- The word with the given bytes, lowest address first. -/
def leWord (b0 b1 b2 b3 : UInt8) : UInt32 :=
  b0.toUInt32 ||| b1.toUInt32 <<< 8 ||| b2.toUInt32 <<< 16 ||| b3.toUInt32 <<< 24

/-- The byte of a word at an offset from its address. -/
def byteAt (x : UInt32) (i : UInt32) : UInt8 := (x >>> (8 * i)).toUInt8

/-- A word whose first bytes are overwritten in memory. -/
def overlay (x : UInt32) (bs : List UInt8) : UInt32 :=
  leWord (bs.getD 0 (byteAt x 0)) (bs.getD 1 (byteAt x 1)) (bs.getD 2 (byteAt x 2))
    (bs.getD 3 (byteAt x 3))

private theorem or_shiftLeft {a b i : Nat} (h : b < 2 ^ i) : b ||| a <<< i = 2 ^ i * a + b := by
  rw [Nat.or_comm, ← Nat.shiftLeft_add_eq_or_of_lt h, Nat.shiftLeft_eq, Nat.mul_comm]

theorem toNat_leWord (b0 b1 b2 b3 : UInt8) : (leWord b0 b1 b2 b3).toNat =
    b0.toNat + 256 * (b1.toNat + 256 * (b2.toNat + 256 * b3.toNat)) := by
  have h0 := b0.toNat_lt
  have h1 := b1.toNat_lt
  have h2 := b2.toNat_lt
  have h3 := b3.toNat_lt
  have hword : (leWord b0 b1 b2 b3).toNat =
      b0.toNat ||| b1.toNat <<< 8 ||| b2.toNat <<< 16 ||| b3.toNat <<< 24 := by
    have m1 : b1.toNat <<< 8 % 2 ^ 32 = b1.toNat <<< 8 := by rw [Nat.shiftLeft_eq]; omega
    have m2 : b2.toNat <<< 16 % 2 ^ 32 = b2.toNat <<< 16 := by rw [Nat.shiftLeft_eq]; omega
    have m3 : b3.toNat <<< 24 % 2 ^ 32 = b3.toNat <<< 24 := by rw [Nat.shiftLeft_eq]; omega
    simp only [leWord, UInt32.toNat_or, UInt32.toNat_shiftLeft, UInt8.toNat_toUInt32,
      UInt32.reduceToNat, Nat.reduceMod, m1, m2, m3]
  rw [hword, or_shiftLeft h0, or_shiftLeft (i := 16) (by omega), or_shiftLeft (i := 24) (by omega)]
  omega

theorem byteAt_leWord (b0 b1 b2 b3 : UInt8) :
    byteAt (leWord b0 b1 b2 b3) 1 = b1 ∧ byteAt (leWord b0 b1 b2 b3) 2 = b2 ∧
      byteAt (leWord b0 b1 b2 b3) 3 = b3 := by
  refine ⟨?_, ?_, ?_⟩
  all_goals
    apply UInt8.eq_of_toBitVec_eq
    simp only [byteAt, leWord]
    ext i hi
    interval_cases i <;> simp

theorem overlay_one (c x : UInt8) : overlay (leWord c 0 0 0) [x] = leWord x 0 0 0 := by
  obtain ⟨h1, h2, h3⟩ := byteAt_leWord c 0 0 0
  simp only [overlay, h1, h2, h3]
  rfl

/-- The four bytes of a word make it up. -/
theorem leWord_byteAt (x : UInt32) :
    leWord (byteAt x 0) (byteAt x 1) (byteAt x 2) (byteAt x 3) = x := by
  have hx := x.toNat_lt
  have h : ∀ i : Nat, i < 4 → (byteAt x (UInt32.ofNat i)).toNat = x.toNat / 256 ^ i % 256 := by
    intro i hi
    interval_cases i <;>
      simp [byteAt, UInt32.toNat_toUInt8, Nat.shiftRight_eq_div_pow]
  have h0 := h 0 (by decide)
  have h1 := h 1 (by decide)
  have h2 := h 2 (by decide)
  have h3 := h 3 (by decide)
  apply UInt32.toNat_inj.mp
  rw [toNat_leWord]
  simp only [UInt32.reduceOfNat] at h0 h1 h2 h3
  rw [h0, h1, h2, h3]
  omega

end CSem
