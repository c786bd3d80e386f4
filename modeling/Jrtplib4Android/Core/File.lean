import Mathlib.Tactic.Common

/-!
# Files open for reading

A `File` is the bytes of the file and the position of the cursor. `rest` is what a
read sees; a cursor may stand behind the end, where nothing is left.
-/

namespace CSem

/-- A binary file open for reading. -/
structure File where
  bytes : List UInt8
  pos : Nat

namespace File

/-- The bytes from the cursor on. -/
def rest (f : File) : List UInt8 := f.bytes.drop f.pos

/-- The cursor `n` bytes further on. -/
def forward (f : File) (n : Nat) : File := { f with pos := f.pos + n }

/-- `fread(p, 1, n, f)`: the bytes read, fewer than `n` at the end of the file. -/
def fread (f : File) (n : Nat) : List UInt8 × File :=
  (f.rest.take n, f.forward (f.rest.take n).length)

/-- `fseek(f, off, SEEK_CUR)`; `none` is the failure to move before the start. -/
def fseek (f : File) (off : Int) : Option File :=
  if (f.pos : Int) + off < 0 then none else some { f with pos := ((f.pos : Int) + off).toNat }

theorem rest_forward (f : File) (n : Nat) : (f.forward n).rest = f.rest.drop n := by
  rw [rest, rest, forward, List.drop_drop]

/-- Reading the front of what is left moves the cursor behind it. -/
theorem fread_append {f : File} {xs ys : List UInt8} {n : Nat} (h : f.rest = xs ++ ys)
    (hn : xs.length = n) : f.fread n = (xs, f.forward n) := by
  rw [fread, h, List.take_left' hn, hn]

/-- At the end of the file nothing is read. -/
theorem fread_of_rest_nil {f : File} (h : f.rest = []) (n : Nat) : f.fread n = ([], f) := by
  rw [fread, h, List.take_nil]
  rfl

theorem rest_forward_append {f : File} {xs ys : List UInt8} {n : Nat} (h : f.rest = xs ++ ys)
    (hn : xs.length = n) : (f.forward n).rest = ys := by
  rw [rest_forward, h, List.drop_left' hn]

@[simp] theorem fseek_forward (f : File) (n : Nat) : f.fseek n = some (f.forward n) := by
  have h : ¬ (f.pos : Int) + n < 0 := by omega
  rw [fseek, if_neg h]
  rfl

/-- Going back over what was read restores the cursor. -/
theorem fseek_back (f : File) (n : Nat) : (f.forward n).fseek (-(n : Int)) = some f := by
  have h : ¬ ((f.forward n).pos : Int) + -(n : Int) < 0 := by
    simp only [forward]
    omega
  have hpos : (((f.forward n).pos : Int) + -(n : Int)).toNat = f.pos := by
    simp only [forward]
    omega
  rw [fseek, if_neg h, hpos]
  rfl

end File

end CSem
