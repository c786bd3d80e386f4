import Mathlib.Tactic.Common

/-!
# Checked memory blocks

A `Block` is one allocation: its size and its bytes. Every access goes through
`load`, `store` or `memcpy`, which fail with the `Fault` a memory checker would
report, so a function that returns normally on a block of exactly the caller's
length has read and written inside that length only. `slice` reads a range as a
list; `ofList` is the block that holds exactly a given list. `Overruns` singles out
the faults of a write that leaves its block.
-/

namespace CSem

/-- The ways an access can leave defined behaviour. -/
inductive Fault where
  /-- A byte outside the block is read. -/
  | read
  /-- A byte outside the block is written. -/
  | write
  /-- A null pointer is the source of a copy. -/
  | null
  /-- A copy is asked for a negative number of bytes. -/
  | length
  /-- A loop is still running when its bound on passes is used up. -/
  | spin
  deriving DecidableEq, Repr

/-- The fault a computation ends in, if it does. -/
def faultOf {α : Type} : Except Fault α → Option Fault
  | .error f => some f
  | .ok _ => none

/-- A sequence that ends well has ended well in both parts. -/
theorem bind_eq_ok {ε α β : Type} {x : Except ε α} {f : α → Except ε β} {b : β}
    (h : x >>= f = .ok b) : ∃ a, x = .ok a ∧ f a = .ok b := by
  cases x with
  | error e => cases h
  | ok a => exact ⟨a, rfl, h⟩

/-- A mapped computation that succeeds. -/
theorem map_eq_ok {ε α β : Type} {x : Except ε α} {f : α → β} {b : β}
    (h : x.map f = .ok b) : ∃ a, x = .ok a ∧ f a = b := by
  cases x with
  | error e => cases h
  | ok a => exact ⟨a, rfl, Except.ok.inj h⟩

/-- One allocation of `size` bytes; bytes from `size` on are never accessed. -/
structure Block where
  size : Nat
  byte : Nat → UInt8

namespace Block

/-- The block that holds exactly the given bytes. -/
def ofList (xs : List UInt8) : Block := ⟨xs.length, fun i => xs.getD i 0⟩

/-- A block filled with one byte, as `memset` leaves it. -/
def fill (size : Nat) (v : UInt8) : Block := ⟨size, fun _ => v⟩

/-- The bytes `[off, off + n)`. -/
def slice (b : Block) (off n : Nat) : List UInt8 :=
  (List.range n).map fun i => b.byte (off + i)

/-- Read one byte. -/
def load (b : Block) (i : Nat) : Except Fault UInt8 :=
  if i < b.size then .ok (b.byte i) else .error .read

/-- Write one byte. -/
def store (b : Block) (i : Nat) (v : UInt8) : Except Fault Block :=
  if i < b.size then .ok { b with byte := fun j => if j = i then v else b.byte j }
  else .error .write

/-- Compare the bytes from `i` on with a pattern, stopping at the first difference. -/
def startsWith (b : Block) (i : Nat) : List UInt8 → Except Fault Bool
  | [] => .ok true
  | v :: vs => do
    let x ← b.load i
    if x = v then b.startsWith (i + 1) vs else .ok false

/-- The effect of a copy, without the range checks. -/
def copy (dst : Block) (d : Nat) (src : Block) (s n : Nat) : Block :=
  { dst with byte := fun j => if d ≤ j ∧ j < d + n then src.byte (s + (j - d)) else dst.byte j }

/-- Write consecutive bytes from `i` on, one store after another. -/
def storeList (b : Block) (i : Nat) : List UInt8 → Except Fault Block
  | [] => .ok b
  | v :: vs => do
    let b ← b.store i v
    b.storeList (i + 1) vs

end Block

/-- `memcpy(dst + d, src + s, n)`; `s = none` is the null pointer. -/
def memcpy (dst : Block) (d : Nat) (src : Block) (s : Option Nat) (n : Int) :
    Except Fault Block :=
  if n < 0 then .error .length
  else match s with
    | none => .error .null
    | some s =>
      if src.size < s + n.toNat then .error .read
      else if dst.size < d + n.toNat then .error .write
      else .ok (dst.copy d src s n.toNat)

namespace Block

@[simp] theorem size_ofList (xs : List UInt8) : (ofList xs).size = xs.length := rfl
@[simp] theorem size_fill (n : Nat) (v : UInt8) : (fill n v).size = n := rfl

/-- A byte inside the block is read. -/
theorem load_eq {b : Block} {i : Nat} (h : i < b.size) : b.load i = .ok (b.byte i) := by
  simp only [load, h, ite_true]

/-- A copy inside both blocks succeeds. -/
theorem memcpy_eq (dst : Block) (d : Nat) (src : Block) (s : Nat) {n : Nat}
    (hs : s + n ≤ src.size) (hd : d + n ≤ dst.size) :
    memcpy dst d src (some s) n = .ok (dst.copy d src s n) := by
  have h0 : ¬ (n : Int) < 0 := by omega
  have h1 : ¬ src.size < s + n := by omega
  have h2 : ¬ dst.size < d + n := by omega
  simp only [memcpy, h0, h1, h2, ite_false, Int.toNat_natCast]

/-- A negative length is refused whatever the pointers are. -/
theorem memcpy_of_neg (dst : Block) (d : Nat) (src : Block) (s : Option Nat) {n : Int}
    (hn : n < 0) : memcpy dst d src s n = .error .length := by
  simp only [memcpy, hn, ite_true]

/-- A source range that leaves its block is refused. -/
theorem memcpy_of_lt (dst : Block) (d : Nat) {src : Block} {s n : Nat}
    (hs : src.size < s + n) : memcpy dst d src (some s) n = .error .read := by
  have h0 : ¬ (n : Int) < 0 := by omega
  simp only [memcpy, h0, hs, ite_true, ite_false, Int.toNat_natCast]

/-- A destination range that leaves its block is refused once the source is read. -/
theorem memcpy_of_room {dst : Block} {d : Nat} {src : Block} {s n : Nat}
    (hs : s + n ≤ src.size) (hd : dst.size < d + n) :
    memcpy dst d src (some s) n = .error .write := by
  have h0 : ¬ (n : Int) < 0 := by omega
  have h1 : ¬ src.size < s + n := by omega
  simp only [memcpy, h0, h1, hd, ite_true, ite_false, Int.toNat_natCast]

/-- Stores inside the block succeed. -/
theorem storeList_ok (vs : List UInt8) {b : Block} {i : Nat} (h : i + vs.length ≤ b.size) :
    ∃ b', b.storeList i vs = .ok b' ∧ b'.size = b.size := by
  induction vs generalizing b i with
  | nil => exact ⟨b, rfl, rfl⟩
  | cons v vs ih =>
    rw [List.length_cons] at h
    have hi : i < b.size := by omega
    obtain ⟨b', hb', hsize⟩ := ih (b := { b with byte := fun j => if j = i then v else b.byte j })
      (i := i + 1) (by simp only; omega)
    refine ⟨b', ?_, hsize⟩
    simp only [storeList, store, hi, ite_true, bind, Except.bind, hb']

/-- A copy keeps the size of its destination. -/
theorem size_of_memcpy {dst dst' : Block} {d : Nat} {src : Block} {s : Option Nat} {n : Int}
    (h : memcpy dst d src s n = .ok dst') : dst'.size = dst.size := by
  unfold memcpy at h
  split at h
  · cases h
  · split at h
    · cases h
    · split at h
      · cases h
      · split at h <;> cases h
        rfl

/-- Stores inside the block are a copy of the bytes. -/
theorem storeList_eq (vs : List UInt8) {b : Block} {i : Nat} (h : i + vs.length ≤ b.size) :
    b.storeList i vs = .ok (b.copy i (ofList vs) 0 vs.length) := by
  induction vs generalizing b i with
  | nil =>
    have hnone : ∀ j, ¬ (i ≤ j ∧ j < i + 0) := fun j => by omega
    simp only [storeList, copy, List.length_nil, hnone, ite_false]
  | cons v vs ih =>
    rw [List.length_cons] at h
    have hi : i < b.size := by omega
    simp only [storeList, store, hi, ite_true, bind, Except.bind]
    rw [ih (by simp only; omega)]
    simp only [copy, ofList, List.length_cons, Except.ok.injEq, mk.injEq, true_and, Nat.zero_add]
    funext j
    by_cases hj : j = i
    · subst hj
      have hnot : ¬ (j + 1 ≤ j ∧ j < j + 1 + vs.length) := by omega
      have hin : j ≤ j ∧ j < j + (vs.length + 1) := by omega
      simp only [hnot, hin, and_self, ite_true, ite_false, Nat.sub_self, List.getD_cons_zero]
    · by_cases hin : i + 1 ≤ j ∧ j < i + 1 + vs.length
      · have hin' : i ≤ j ∧ j < i + (vs.length + 1) := by omega
        obtain ⟨n, rfl⟩ := Nat.exists_eq_add_of_le hin.1
        have hn : i + 1 + n - i = n + 1 := by omega
        simp only [hin, hin', and_self, ite_true, hn, Nat.add_sub_cancel_left, List.getD_cons_succ]
      · have hin' : ¬ (i ≤ j ∧ j < i + (vs.length + 1)) := by omega
        simp only [hin, hin', hj, ite_false]

/-- Stores keep the size of the block. -/
theorem size_of_storeList {vs : List UInt8} {b b' : Block} {i : Nat}
    (h : b.storeList i vs = .ok b') : b'.size = b.size := by
  induction vs generalizing b i with
  | nil =>
    cases h
    rfl
  | cons v vs ih =>
    simp only [storeList, store, bind, Except.bind] at h
    split at h
    · cases h
    · next b₁ hb₁ =>
      split at hb₁ <;> cases hb₁
      exact (ih h).trans rfl

@[simp] theorem length_slice (b : Block) (off n : Nat) : (b.slice off n).length = n := by
  simp only [slice, List.length_map, List.length_range]

@[simp] theorem slice_zero (b : Block) (off : Nat) : b.slice off 0 = [] := rfl

/-- The bytes of a slice. -/
theorem getElem?_slice (b : Block) {p n i : Nat} (h : i < n) :
    (b.slice p n)[i]? = some (b.byte (p + i)) := by
  simp only [slice, List.getElem?_map, List.getElem?_range h, Option.map_some]

@[simp] theorem getElem_slice (b : Block) {off n i : Nat} (h : i < (b.slice off n).length) :
    (b.slice off n)[i] = b.byte (off + i) := by
  simp only [slice, List.getElem_map, List.getElem_range]

/-- Two blocks that agree on the two ranges have the same slices there. -/
theorem slice_congr {a b : Block} {p q n : Nat}
    (h : ∀ i, i < n → a.byte (p + i) = b.byte (q + i)) : a.slice p n = b.slice q n := by
  apply List.map_congr_left
  intro i hi
  exact h i (List.mem_range.mp hi)

/-- A range is read piece by piece. -/
theorem slice_add (b : Block) (off m n : Nat) :
    b.slice off (m + n) = b.slice off m ++ b.slice (off + m) n := by
  simp only [slice, List.range_add, List.map_append, List.map_map, Function.comp_def,
    Nat.add_assoc]

/-- Consecutive pieces of equal width make up the whole range. -/
theorem flatMap_slice (b : Block) (off w k : Nat) :
    (List.range k).flatMap (fun t => b.slice (off + t * w) w) = b.slice off (k * w) := by
  induction k with
  | zero => simp only [List.range_zero, List.flatMap_nil, Nat.zero_mul, slice, List.map_nil]
  | succ k ih =>
    rw [List.range_succ, List.flatMap_append, ih, Nat.succ_mul, slice_add]
    simp only [List.flatMap_cons, List.flatMap_nil, List.append_nil]

/-- The first byte and the rest of a nonempty range. -/
theorem slice_succ (b : Block) (off n : Nat) :
    b.slice off (n + 1) = b.byte off :: b.slice (off + 1) n := by
  rw [Nat.add_comm n 1, slice_add]
  rfl

/-- Dropping from a range moves its start. -/
theorem drop_slice (b : Block) (off n k : Nat) :
    (b.slice off n).drop k = b.slice (off + k) (n - k) := by
  rcases Nat.le_total k n with h | h
  · have he : b.slice off n = b.slice off k ++ b.slice (off + k) (n - k) := by
      rw [← slice_add, Nat.add_sub_cancel' h]
    rw [he, List.drop_left' (length_slice b off k)]
  · rw [List.drop_eq_nil_of_le (by simpa only [length_slice] using h),
      Nat.sub_eq_zero_of_le h, slice_zero]

/-- Taking from a range shortens it. -/
theorem take_slice (b : Block) (off n k : Nat) (h : k ≤ n) :
    (b.slice off n).take k = b.slice off k := by
  have he : b.slice off n = b.slice off k ++ b.slice (off + k) (n - k) := by
    rw [← slice_add, Nat.add_sub_cancel' h]
  rw [he, List.take_left' (length_slice b off k)]

/-- The block of a list reads back the list. -/
theorem slice_ofList (xs : List UInt8) : (ofList xs).slice 0 xs.length = xs := by
  apply List.ext_getElem
  · exact length_slice _ _ _
  · intro i h₁ h₂
    rw [getElem_slice]
    simp only [ofList, Nat.zero_add, List.getD_eq_getElem?_getD, List.getElem?_eq_getElem h₂,
      Option.getD_some]

/-- A range of a list's block is the same range of the list. -/
theorem slice_ofList_eq {xs : List UInt8} {off n : Nat} (h : off + n ≤ xs.length) :
    (ofList xs).slice off n = (xs.drop off).take n := by
  have hd : xs.drop off = (ofList xs).slice off (xs.length - off) := by
    conv_lhs => rw [← slice_ofList xs]
    rw [drop_slice, Nat.zero_add]
  rw [hd, take_slice _ _ _ _ (by omega)]

/-- The middle part of a list's block. -/
theorem slice_ofList_append (xs ys zs : List UInt8) :
    (ofList (xs ++ ys ++ zs)).slice xs.length ys.length = ys := by
  rw [slice_ofList_eq (by simp only [List.length_append]; omega), List.append_assoc,
    List.drop_left, List.take_left]

/-- Comparing with a pattern inside the block is comparing with the slice. -/
theorem startsWith_eq {b : Block} {i : Nat} {pat : List UInt8} (h : i + pat.length ≤ b.size) :
    b.startsWith i pat = .ok (decide (b.slice i pat.length = pat)) := by
  induction pat generalizing i with
  | nil => rfl
  | cons v vs ih =>
    simp only [List.length_cons] at h
    rw [List.length_cons, slice_succ, startsWith, load_eq (by omega)]
    simp only [bind, Except.bind]
    by_cases hv : b.byte i = v
    · simp only [hv, ite_true, ih (by omega : i + 1 + vs.length ≤ b.size), List.cons.injEq,
        true_and]
    · simp only [hv, ite_false, List.cons.injEq, false_and, decide_false]

/-- Where the bytes differ from a pattern, what lies behind them is not looked at. -/
theorem startsWith_of_not_prefix {b : Block} {i n : Nat} {pat : List UInt8}
    (hroom : i + n ≤ b.size) (hn : n ≤ pat.length) (h : ¬ b.slice i n <+: pat) :
    b.startsWith i pat = .ok false := by
  induction pat generalizing i n with
  | nil =>
    cases Nat.le_zero.mp hn
    exact absurd (List.prefix_refl []) h
  | cons v vs ih =>
    cases n with
    | zero => exact absurd (List.nil_prefix) h
    | succ n =>
      rw [slice_succ, List.cons_prefix_cons] at h
      rw [startsWith, load_eq (by omega)]
      simp only [bind, Except.bind]
      by_cases hv : b.byte i = v
      · rw [if_pos hv]
        exact ih (by omega) (Nat.le_of_succ_le_succ hn) fun hvs => h ⟨hv, hvs⟩
      · rw [if_neg hv]

/-- A pattern that is found lies there. -/
theorem slice_of_startsWith {b : Block} {i : Nat} {pat : List UInt8}
    (h : b.startsWith i pat = .ok true) : b.slice i pat.length = pat := by
  induction pat generalizing i with
  | nil => rfl
  | cons v vs ih =>
    obtain ⟨x, hx, hrest⟩ := bind_eq_ok h
    have hbyte : b.byte i = x := by
      unfold load at hx
      split at hx <;> cases hx
      rfl
    split at hrest
    · rename_i hv
      rw [List.length_cons, slice_succ, hbyte, hv, ih hrest]
    · cases hrest

/-- A copy leaves what is in front of its target. -/
theorem byte_copy_of_lt {dst src : Block} {d s n i : Nat} (h : i < d) :
    (dst.copy d src s n).byte i = dst.byte i := by
  have hn : ¬ (d ≤ i ∧ i < d + n) := by omega
  simp only [copy, hn, ite_false]

/-- It leaves what is behind it. -/
theorem byte_copy_of_le {dst src : Block} {d s n i : Nat} (h : d + n ≤ i) :
    (dst.copy d src s n).byte i = dst.byte i := by
  have hn : ¬ (d ≤ i ∧ i < d + n) := by omega
  simp only [copy, hn, ite_false]

/-- The target has the bytes of the source. -/
theorem byte_copy_of_mem {dst src : Block} {d s n i : Nat} (hlo : d ≤ i) (hhi : i < d + n) :
    (dst.copy d src s n).byte i = src.byte (s + (i - d)) := by
  simp only [copy, hlo, hhi, and_self, ite_true]

/-- The copied range holds the source range. -/
@[simp] theorem slice_copy_self (dst : Block) (d : Nat) (src : Block) (s n : Nat) :
    (dst.copy d src s n).slice d n = src.slice s n := by
  apply slice_congr
  intro i hi
  rw [byte_copy_of_mem (by omega) (by omega), Nat.add_sub_cancel_left]

/-- What lies before the copied range is unchanged. -/
theorem slice_copy_of_le {dst src : Block} {d s n off m : Nat} (h : off + m ≤ d) :
    (dst.copy d src s n).slice off m = dst.slice off m := by
  apply slice_congr
  intro i hi
  exact byte_copy_of_lt (by omega)

/-- Copying right behind a range appends to it. -/
theorem slice_copy_append (dst : Block) (src : Block) (s m n : Nat) :
    (dst.copy m src s n).slice 0 (m + n) = dst.slice 0 m ++ src.slice s n := by
  rw [slice_add, slice_copy_of_le (by omega), Nat.zero_add, slice_copy_self]

/-- The block starts with the given bytes. -/
def Begins (b : Block) (xs : List UInt8) : Prop := b.slice 0 xs.length = xs

theorem begins_nil (b : Block) : b.Begins [] := rfl

/-- A store right behind the filled part appends its byte. -/
private theorem store_begins {b : Block} {xs : List UInt8} {v : UInt8} (hb : b.Begins xs)
    (hroom : xs.length < b.size) :
    ∃ b', b.store xs.length v = .ok b' ∧ b'.size = b.size ∧ b'.Begins (xs ++ [v]) := by
  refine ⟨{ b with byte := fun j => if j = xs.length then v else b.byte j }, ?_, rfl, ?_⟩
  · simp only [store, hroom, ite_true]
  · have hold : ({ b with byte := fun j => if j = xs.length then v else b.byte j } : Block).slice
        0 xs.length = b.slice 0 xs.length := by
      apply slice_congr
      intro i hi
      have hne : ¬ 0 + i = xs.length := by omega
      simp only [hne, ite_false]
    rw [Begins, List.length_append, List.length_singleton, slice_add, hold, hb]
    simp only [slice, List.range_one, List.map_cons, List.map_nil, Nat.zero_add, Nat.add_zero,
      ite_true]

/-- Consecutive stores right behind the filled part append their bytes. -/
theorem storeList_begins (vs : List UInt8) {b : Block} {i : Nat} {xs : List UInt8}
    (hb : b.Begins xs) (hi : xs.length = i) (hroom : i + vs.length ≤ b.size) :
    ∃ b', b.storeList i vs = .ok b' ∧ b'.size = b.size ∧ b'.Begins (xs ++ vs) := by
  induction vs generalizing b i xs with
  | nil => exact ⟨b, rfl, rfl, by rwa [List.append_nil]⟩
  | cons v vs ih =>
    rw [List.length_cons] at hroom
    subst hi
    obtain ⟨b₁, hstore, hsize₁, hb₁⟩ := store_begins (v := v) hb (by omega)
    obtain ⟨b₂, hrest, hsize₂, hb₂⟩ := ih hb₁ (by rw [List.length_append, List.length_singleton])
      (by omega)
    refine ⟨b₂, ?_, hsize₂.trans hsize₁, by rwa [List.append_cons]⟩
    simp only [storeList, hstore, bind, Except.bind, hrest]

/-- A copy right behind the filled part appends the source. -/
theorem memcpy_begins (ys : List UInt8) {b : Block} {i : Nat} {xs : List UInt8}
    (hb : b.Begins xs) (hi : xs.length = i) (hroom : i + ys.length ≤ b.size) :
    ∃ b', memcpy b i (ofList ys) (some 0) ys.length = .ok b' ∧ b'.size = b.size ∧
      b'.Begins (xs ++ ys) := by
  subst hi
  refine ⟨_, memcpy_eq b _ _ 0 (Nat.le_of_eq (by rw [size_ofList, Nat.zero_add])) hroom, rfl, ?_⟩
  rw [Begins, List.length_append, slice_copy_append, hb, slice_ofList]

end Block

/-- A byte behind the block is written, or a copy is asked for a negative length. -/
def Overruns {α : Type} (r : Except Fault α) : Prop :=
  faultOf r = some .write ∨ faultOf r = some .length

instance {α : Type} (r : Except Fault α) : Decidable (Overruns r) :=
  inferInstanceAs (Decidable (_ ∨ _))

/-- The computation overruns or ends well: it reads nothing outside its blocks. -/
def Settles {α : Type} (r : Except Fault α) : Prop := Overruns r ∨ ∃ a, r = .ok a

theorem not_overruns_ok {α : Type} (a : α) : ¬ Overruns (.ok a : Except Fault α) := by
  simp [Overruns, faultOf]

theorem settles_ok {α : Type} (a : α) : Settles (.ok a : Except Fault α) := Or.inr ⟨a, rfl⟩

/-- A sequence does not overrun if neither part does. -/
theorem not_overruns_bind {α β : Type} {x : Except Fault α} {f : α → Except Fault β}
    (hx : ¬ Overruns x) (hf : ∀ a, x = .ok a → ¬ Overruns (f a)) : ¬ Overruns (x >>= f) := by
  cases x with
  | error e => exact hx
  | ok a => exact hf a rfl

/-- A computation that goes on behind an overrun is one. -/
theorem overruns_bind {α β : Type} {x : Except Fault α} {f : α → Except Fault β}
    (hx : Overruns x) : Overruns (x >>= f) := by
  cases x with
  | error e => exact hx
  | ok a => exact absurd hx (not_overruns_ok a)

/-- A sequence settles if both parts do. -/
theorem settles_bind {α β : Type} {x : Except Fault α} {f : α → Except Fault β}
    (hx : Settles x) (hf : ∀ a, x = .ok a → Settles (f a)) : Settles (x >>= f) := by
  rcases hx with h | ⟨a, rfl⟩
  · exact Or.inl (overruns_bind h)
  · exact hf a rfl

namespace Block

/-- Reading a byte overruns nothing. -/
theorem not_overruns_load (b : Block) (i : Nat) : ¬ Overruns (b.load i) := by
  unfold load
  split <;> simp [Overruns, faultOf]

/-- Storing a list overruns nothing if it fits. -/
theorem not_overruns_storeList (vs : List UInt8) {b : Block} {i : Nat}
    (h : i + vs.length ≤ b.size) : ¬ Overruns (b.storeList i vs) := by
  obtain ⟨b', hb', -⟩ := storeList_ok vs h
  rw [hb']
  exact not_overruns_ok b'

/-- Storing a list overruns or succeeds. -/
theorem settles_storeList (vs : List UInt8) (b : Block) (i : Nat) :
    Settles (b.storeList i vs) := by
  induction vs generalizing b i with
  | nil => exact settles_ok b
  | cons v vs ih =>
    refine settles_bind ?_ fun b' _ => ih b' (i + 1)
    unfold store
    split
    · exact settles_ok _
    · exact Or.inl (Or.inl rfl)

/-- A byte that is read lies in the block. -/
theorem lt_of_load {b : Block} {i : Nat} {v : UInt8} (h : b.load i = .ok v) : i < b.size := by
  unfold load at h
  split at h
  · assumption
  · cases h

/-- A copy that succeeds lies inside both blocks. -/
theorem room_of_memcpy {dst dst' : Block} {d : Nat} {src : Block} {s : Nat} {n : Int}
    (h : memcpy dst d src (some s) n = .ok dst') :
    0 ≤ n ∧ d + n ≤ dst.size ∧ s + n ≤ src.size := by
  unfold memcpy at h
  split at h
  · cases h
  · simp only at h
    split at h
    · cases h
    · split at h
      · cases h
      · omega

/-- A copy overruns nothing if it fits its target. -/
theorem not_overruns_memcpy {dst : Block} {d : Nat} (src : Block) (s : Nat) {n : Int}
    (hn : 0 ≤ n) (hroom : d + n ≤ dst.size) : ¬ Overruns (memcpy dst d src (some s) n) := by
  obtain ⟨m, rfl⟩ := Int.eq_ofNat_of_zero_le hn
  rcases Nat.lt_or_ge src.size (s + m) with hshort | hread
  · rw [memcpy_of_lt dst d hshort]
    simp [Overruns, faultOf]
  · rw [memcpy_eq dst d src s hread (by omega)]
    exact not_overruns_ok _

/-- A copy from readable memory settles. -/
theorem settles_memcpy (dst : Block) (d : Nat) {src : Block} {s : Nat} {n : Int}
    (hread : s + n ≤ src.size) : Settles (memcpy dst d src (some s) n) := by
  by_cases hneg : n < 0
  · rw [memcpy_of_neg _ _ _ _ hneg]
    exact Or.inl (Or.inr rfl)
  obtain ⟨m, rfl⟩ := Int.eq_ofNat_of_zero_le (by omega : 0 ≤ n)
  rcases Nat.lt_or_ge dst.size (d + m) with hfull | hroom
  · rw [memcpy_of_room (by omega) hfull]
    exact Or.inl (Or.inl rfl)
  · rw [memcpy_eq dst d src s (by omega) hroom]
    exact settles_ok _

end Block

end CSem
