import Jrtplib4Android.Core.CInt
import Jrtplib4Android.Core.Stores
import Jrtplib4Android.Osd.Rotation
import Mathlib.Data.List.Perm.Basic

/-!
# The conversions from ARGB

Three functions convert an array of ARGB pixels: to NV21, to NV12, and to the luma alone.
They have one loop, which stores the luma of each pixel and, for every second pixel of every
second row, a pair of chroma bytes behind the luma.
-/

namespace Jrtplib4Android

open CSem

namespace Argb

/-- `R`. -/
def red (argb : UInt32) : Int := ((argb &&& 0xff0000) >>> 16).toNat

/-- `G`. -/
def green (argb : UInt32) : Int := ((argb &&& 0xff00) >>> 8).toNat

/-- `B`. -/
def blue (argb : UInt32) : Int := (argb &&& 0xff).toNat

/-- `Y`. -/
def luma (argb : UInt32) : Int :=
  ((66 * red argb + 129 * green argb + 25 * blue argb + 128) >>> (8 : Nat)) + 16

/-- `U`. -/
def chromaU (argb : UInt32) : Int :=
  ((-38 * red argb - 74 * green argb + 112 * blue argb + 128) >>> (8 : Nat)) + 128

/-- `V`. -/
def chromaV (argb : UInt32) : Int :=
  ((112 * red argb - 94 * green argb - 18 * blue argb + 128) >>> (8 : Nat)) + 128

/-- `(jbyte) ((v < 0) ? 0 : ((v > 255) ? 255 : v))`. -/
def clamp (v : Int) : UInt8 := if v < 0 then 0 else if v > 255 then 255 else .ofNat v.toNat

end Argb

namespace YuvUtils

open Argb

/-- `malloc(n)` for a `size_t` of 32 bits, with `heap` for what lies there; half of the
address space is refused. -/
def malloc (heap : Nat → UInt8) (n : Int) : Block :=
  ⟨if toUnsigned n < 2 ^ 31 then (toUnsigned n).toNat else 0, heap⟩

/-- `argb[index]`. -/
def readInt (argb : List UInt32) (index : Nat) : Except Fault UInt32 :=
  match argb[index]? with
  | some x => .ok x
  | none => .error .read

/-- `yIndex`, `uvIndex` and `index`. -/
structure Cursor where
  yIndex : Nat
  uvIndex : Nat
  index : Nat

/-- The loop body for a pixel of row `j`, with the chroma bytes in the order of the format. -/
def convertPixel (chroma : UInt32 → List UInt8) (argb : List UInt32) (j : Nat) :
    Block × Cursor → Logged Nat (Block × Cursor) := fun (yuv420sp, c) => do
  let x ← Logged.lift (readInt argb c.index)
  let yuv420sp ← Logged.access c.yIndex (yuv420sp.store c.yIndex (clamp (luma x)))
  let (yuv420sp, uvIndex) ←
    if j % 2 = 0 ∧ c.index % 2 = 0 then storeRun yuv420sp c.uvIndex (chroma x)
    else pure (yuv420sp, c.uvIndex)
  return (yuv420sp, ⟨c.yIndex + 1, uvIndex, c.index + 1⟩)

/-- The loops of a converter over rows and columns. -/
def convertPixels (chroma : UInt32 → List UInt8) (argb : List UInt32) (width height : Nat) :
    Block × Cursor → Logged Nat (Block × Cursor) :=
  Logged.forEach (fun s j => Logged.forEach (fun s _ => convertPixel chroma argb j s)
    (countUp 0 width 1) s) (countUp 0 height 1)

/-- A converter with its result of `resLength` bytes. -/
def convertArgb (chroma : UInt32 → List UInt8) (resLength : Int) (heap : Nat → UInt8)
    (argb : List UInt32) (width height : Nat) : Logged Nat (List UInt8) := do
  let yuv420sp := malloc heap (resLength + 1)
  let frameSize := toInt (width * height)
  let s ← convertPixels chroma argb width height (yuv420sp, ⟨0, frameSize.toNat, 0⟩)
  return s.1.slice 0 resLength.toNat

def argbIntToNV21Byte (heap : Nat → UInt8) (argb : List UInt32) (width height : Nat) :
    Logged Nat (List UInt8) :=
  let frameSize := toInt (width * height)
  let resLength := (toInt (frameSize * 3)).tdiv 2
  convertArgb (fun x => [clamp (chromaV x), clamp (chromaU x)]) resLength heap argb width height

def argbIntToNV12Byte (heap : Nat → UInt8) (argb : List UInt32) (width height : Nat) :
    Logged Nat (List UInt8) :=
  let frameSize := toInt (width * height)
  let resLength := (toInt (frameSize * 3)).tdiv 2
  convertArgb (fun x => [clamp (chromaU x), clamp (chromaV x)]) resLength heap argb width height

def argbIntToGrayNVByte (heap : Nat → UInt8) (argb : List UInt32) (width height : Nat) :
    Logged Nat (List UInt8) :=
  let frameSize := toInt (width * height)
  convertArgb (fun _ => []) frameSize heap argb width height

section Loops

variable {chroma : UInt32 → List UInt8} {argb : List UInt32} {w h c : Nat}

/-- The pixels in front of column `i` of row `j` that have chroma bytes. -/
def chromaCount (w j i : Nat) : Nat :=
  (j + 1) / 2 * ((w + 1) / 2) + if j % 2 = 0 then (i + 1) / 2 else 0

/-- The indices in front of column `i` of row `j`, with `c` chroma bytes for a pixel. -/
def cursorAt (w h c j i : Nat) : Cursor :=
  ⟨j * w + i, w * h + c * chromaCount w j i, j * w + i⟩

/-- The chroma bytes of a pixel. -/
def chromaStores (chroma : UInt32 → List UInt8) (argb : List UInt32) (w h c j i : Nat) :
    List (Nat × UInt8) :=
  if j % 2 = 0 ∧ i % 2 = 0 then
    placed (w * h + c * chromaCount w j i) (chroma (argb.getD (j * w + i) 0))
  else []

/-- What is stored for a pixel. -/
def pixelStores (chroma : UInt32 → List UInt8) (argb : List UInt32) (w h c j i : Nat) :
    List (Nat × UInt8) :=
  (j * w + i, clamp (luma (argb.getD (j * w + i) 0))) :: chromaStores chroma argb w h c j i

/-- In a row that is looked at the parity of the index is that of the column. -/
theorem index_even_iff {j i : Nat} : j % 2 = 0 ∧ (j * w + i) % 2 = 0 ↔ j % 2 = 0 ∧ i % 2 = 0 := by
  refine and_congr_right fun hj => ?_
  have hrow : j * w % 2 = 0 := by rw [Nat.mul_mod, hj, Nat.zero_mul, Nat.zero_mod]
  omega

/-- A pixel of an even row and column has chroma bytes. -/
theorem chromaCount_succ (w j i : Nat) : chromaCount w j (i + 1) =
    chromaCount w j i + if j % 2 = 0 ∧ i % 2 = 0 then 1 else 0 := by
  unfold chromaCount
  split <;> split <;> omega

/-- The count goes on in the next row. -/
theorem chromaCount_row (w j : Nat) : chromaCount w (j + 1) 0 = chromaCount w j w := by
  unfold chromaCount
  rcases Nat.mod_two_eq_zero_or_one j with hj | hj
  · have hnext : (j + 1 + 1) / 2 = (j + 1) / 2 + 1 := by omega
    rw [if_pos hj, if_neg (by omega), hnext, Nat.succ_mul, Nat.add_zero]
  · have hnext : (j + 1 + 1) / 2 = (j + 1) / 2 := by omega
    rw [if_pos (by omega), if_neg (by omega), hnext]

/-- A pixel of the array can be read. -/
theorem readInt_eq {index : Nat} (hindex : index < argb.length) :
    readInt argb index = .ok (argb.getD index 0) := by
  simp only [readInt, List.getElem?_eq_getElem hindex, List.getD_eq_getElem?_getD,
    Option.getD_some]

/-- What is stored for a pixel, and where the cursors are behind it. -/
theorem stores_convertPixel (hlen : ∀ x, (chroma x).length = c) {j i : Nat}
    (hindex : j * w + i < argb.length) (d : Block) :
    Stores d (pixelStores chroma argb w h c j i)
      (convertPixel chroma argb j (d, cursorAt w h c j i))
      fun d => (d, cursorAt w h c j (i + 1)) := by
  have hread : (Logged.lift (readInt argb (j * w + i)) : Logged Nat UInt32) =
      pure (argb.getD (j * w + i) 0) := by
    rw [readInt_eq hindex]
    rfl
  have hcell : pixelStores chroma argb w h c j i =
      [(j * w + i, clamp (luma (argb.getD (j * w + i) 0)))] ++ chromaStores chroma argb w h c j i :=
    rfl
  change Stores d _ (Logged.lift (readInt argb (j * w + i)) >>= _) _
  rw [hread, hcell]
  refine (stores_store d _ _).bind fun d _ => ?_
  have hnext : cursorAt w h c j (i + 1) = ⟨j * w + i + 1,
      w * h + c * chromaCount w j i + (if j % 2 = 0 ∧ i % 2 = 0 then c else 0), j * w + i + 1⟩ := by
    rw [cursorAt, chromaCount_succ, Nat.mul_add, ← Nat.add_assoc, ← Nat.add_assoc]
    split
    · rw [Nat.mul_one]
    · rw [Nat.mul_zero]
  rw [hnext]
  unfold chromaStores
  change Stores d _ (ite (j % 2 = 0 ∧ (j * w + i) % 2 = 0) _ _) _
  by_cases hpair : j % 2 = 0 ∧ i % 2 = 0
  · rw [if_pos hpair, if_pos hpair, if_pos (index_even_iff.mpr hpair),
      ← hlen (argb.getD (j * w + i) 0)]
    exact (stores_storeRun d _ _).map
      fun r => (r.1, Cursor.mk (j * w + i + 1) r.2 (j * w + i + 1))
  · rw [if_neg hpair, if_neg hpair, if_neg (mt index_even_iff.mp hpair)]
    exact (stores_pure d fun d => (d, w * h + c * chromaCount w j i)).map
      fun r => (r.1, Cursor.mk (j * w + i + 1) r.2 (j * w + i + 1))

/-- What is stored for a frame. -/
def frameStores (chroma : UInt32 → List UInt8) (argb : List UInt32) (w h c : Nat) :
    List (Nat × UInt8) :=
  (List.range h).flatMap fun j => (List.range w).flatMap fun i =>
    pixelStores chroma argb w h c j i

/-- The cursors behind a row are those in front of the next one. -/
theorem cursorAt_row (w h c j : Nat) : cursorAt w h c j w = cursorAt w h c (j + 1) 0 := by
  rw [cursorAt, cursorAt, chromaCount_row, Nat.succ_mul, Nat.add_zero]

/-- What the loops store. -/
theorem stores_convertPixels (hlen : ∀ x, (chroma x).length = c) (hargb : argb.length = w * h)
    (d : Block) :
    Stores d (frameStores chroma argb w h c)
      (convertPixels chroma argb w h (d, cursorAt w h c 0 0))
      fun d => (d, cursorAt w h c h 0) := by
  refine stores_count (o := fun j d => (d, cursorAt w h c j 0)) fun j hj d _ => ?_
  have hrow : Stores d ((List.range w).flatMap fun i => pixelStores chroma argb w h c j i)
      (Logged.forEach (fun s _ => convertPixel chroma argb j s) (countUp 0 w 1)
        (d, cursorAt w h c j 0)) fun d => (d, cursorAt w h c j w) := by
    refine stores_count (o := fun i d => (d, cursorAt w h c j i)) fun i hi d _ => ?_
    exact stores_convertPixel hlen (hargb ▸ luma_lt hi hj) d
  rw [cursorAt_row] at hrow
  exact hrow

/-- The positions of the chroma bytes of a pixel. -/
theorem map_fst_chromaStores (hlen : ∀ x, (chroma x).length = c) (j i : Nat) :
    (chromaStores chroma argb w h c j i).map Prod.fst =
      List.range' (w * h + c * chromaCount w j i)
        (w * h + c * chromaCount w j (i + 1) - (w * h + c * chromaCount w j i)) := by
  rw [chromaCount_succ, Nat.mul_add, ← Nat.add_assoc, Nat.add_sub_cancel_left]
  unfold chromaStores
  split
  · rw [map_fst_placed, hlen, Nat.mul_one]
  · rfl

theorem chromaCount_le_succ (w j i : Nat) : chromaCount w j i ≤ chromaCount w j (i + 1) := by
  rw [chromaCount_succ]
  exact Nat.le_add_right _ _

theorem chromaCount_le (w j i : Nat) : chromaCount w j 0 ≤ chromaCount w j i := by
  induction i with
  | zero => exact Nat.le_refl _
  | succ i ih => exact Nat.le_trans ih (chromaCount_le_succ w j i)

/-- The luma bytes are stored one behind the other. -/
theorem lumaPositions (w h : Nat) :
    ((List.range h).flatMap fun j => (List.range w).flatMap fun i => [j * w + i]) =
      List.range' 0 (w * h) := by
  have hrow : ∀ j, ((List.range w).flatMap fun i => [j * w + i]) =
      List.range' (j * w) ((j + 1) * w - j * w) := by
    intro j
    rw [Nat.succ_mul, Nat.add_sub_cancel_left, List.range'_eq_map_range, List.map_eq_flatMap]
  simp only [hrow]
  rw [flatMap_range' (p := fun j => j * w) fun j _ => Nat.mul_le_mul_right w (Nat.le_succ j),
    Nat.zero_mul, Nat.sub_zero, Nat.mul_comm]

/-- So are the chroma bytes, behind them. -/
theorem chromaPositions (hlen : ∀ x, (chroma x).length = c) :
    ((List.range h).flatMap fun j => (List.range w).flatMap fun i =>
      (chromaStores chroma argb w h c j i).map Prod.fst) =
      List.range' (w * h) (c * chromaCount w h 0) := by
  have hle : ∀ {m n}, m ≤ n → w * h + c * m ≤ w * h + c * n :=
    fun hmn => Nat.add_le_add_left (Nat.mul_le_mul_left c hmn) _
  have hrow : ∀ j, ((List.range w).flatMap fun i =>
      (chromaStores chroma argb w h c j i).map Prod.fst) =
      List.range' (w * h + c * chromaCount w j 0)
        (w * h + c * chromaCount w (j + 1) 0 - (w * h + c * chromaCount w j 0)) := by
    intro j
    simp only [map_fst_chromaStores hlen]
    rw [flatMap_range' (p := fun i => w * h + c * chromaCount w j i)
      fun i _ => hle (chromaCount_le_succ w j i), chromaCount_row]
  have hnone : chromaCount w 0 0 = 0 := by rw [chromaCount, if_pos rfl, Nat.zero_mul]
  simp only [hrow]
  rw [flatMap_range' (p := fun j => w * h + c * chromaCount w j 0)
    fun j _ => hle (chromaCount_row w j ▸ chromaCount_le w j w), hnone, Nat.mul_zero, Nat.add_zero,
    Nat.add_sub_cancel_left]

/-- Together the positions are all from 0 on, each once. -/
theorem positions_perm (hlen : ∀ x, (chroma x).length = c) :
    ((frameStores chroma argb w h c).map Prod.fst).Perm
      (List.range (w * h + c * chromaCount w h 0)) := by
  have hpositions : (frameStores chroma argb w h c).map Prod.fst =
      (List.range h).flatMap fun j => (List.range w).flatMap fun i =>
        [j * w + i] ++ (chromaStores chroma argb w h c j i).map Prod.fst := by
    simp only [frameStores, pixelStores, List.map_flatMap, List.map_cons, List.singleton_append]
  have hrows : ((List.range h).flatMap fun j => ((List.range w).flatMap fun i => [j * w + i]) ++
      (List.range w).flatMap fun i => (chromaStores chroma argb w h c j i).map Prod.fst).Perm
      ((List.range h).flatMap fun j => (List.range w).flatMap fun i =>
        [j * w + i] ++ (chromaStores chroma argb w h c j i).map Prod.fst) :=
    List.Perm.flatMap_left _ fun j _ => List.flatMap_append_perm _ _ _
  have hplanes := List.flatMap_append_perm (List.range h)
    (fun j => (List.range w).flatMap fun i => [j * w + i])
    fun j => (List.range w).flatMap fun i => (chromaStores chroma argb w h c j i).map Prod.fst
  rw [lumaPositions, chromaPositions hlen] at hplanes
  have hmeet : List.range' 0 (w * h) ++ List.range' (w * h) (c * chromaCount w h 0) =
      List.range (w * h + c * chromaCount w h 0) := by
    rw [List.range_eq_range', ← List.range'_append_1, Nat.zero_add]
  rw [hpositions, ← hmeet]
  exact (hplanes.trans hrows).symm

/-- A converter makes the stores of the frame, whatever it allocates. -/
theorem stores_convertArgb (hlen : ∀ x, (chroma x).length = c) (hargb : argb.length = w * h)
    (hsize : w * h < 2 ^ 31) (r : Int) (heap : Nat → UInt8) :
    Stores (malloc heap (r + 1)) (frameStores chroma argb w h c)
      (convertArgb chroma r heap argb w h) fun d => d.slice 0 r.toNat := by
  have hframe : (toInt ((w : Int) * h)).toNat = w * h := by
    rw [← Int.natCast_mul, toInt_eq (by omega) (by omega), Int.toNat_natCast]
  have hstart : cursorAt w h c 0 0 = ⟨0, (toInt ((w : Int) * h)).toNat, 0⟩ := by
    rw [hframe, cursorAt, chromaCount, if_pos rfl, Nat.zero_mul, Nat.zero_mul]
    rfl
  have hpixels := stores_convertPixels hlen hargb (malloc heap (r + 1))
  rw [hstart] at hpixels
  exact hpixels.map fun s => s.1.slice 0 r.toNat

end Loops

/-- The two parities of the loop fill the result if both dimensions are even, and with one byte
too many for two rows or two columns. -/
theorem chromaCount_iff {w h : Nat} (hw : 1 ≤ w) (hh : 1 ≤ h) :
    w * h * 3 / 2 ≤ w * h + 2 * chromaCount w h 0 ∧
      w * h + 2 * chromaCount w h 0 ≤ w * h * 3 / 2 + 1 ↔
    Even w ∧ Even h ∨ Odd w ∧ h = 2 ∨ w = 2 ∧ Odd h := by
  have hcount : chromaCount w h 0 = (h + 1) / 2 * ((w + 1) / 2) := by
    unfold chromaCount
    split <;> rfl
  rw [hcount, Nat.even_iff, Nat.even_iff, Nat.odd_iff, Nat.odd_iff]
  obtain ⟨a, hwa⟩ := Nat.even_or_odd' w
  obtain ⟨b, hhb⟩ := Nat.even_or_odd' h
  rcases hwa with rfl | rfl <;> rcases hhb with rfl | rfl
  · have hframe : 2 * a * (2 * b) = 4 * (b * a) := by ring
    have hhalf : (2 * b + 1) / 2 * ((2 * a + 1) / 2) = b * a := by
      rw [show (2 * b + 1) / 2 = b by omega, show (2 * a + 1) / 2 = a by omega]
    rw [hframe, hhalf]
    omega
  · have hframe : 2 * a * (2 * b + 1) = 4 * (b * a) + 2 * a := by ring
    have hhalf : (2 * b + 1 + 1) / 2 * ((2 * a + 1) / 2) = b * a + a := by
      rw [show (2 * b + 1 + 1) / 2 = b + 1 by omega, show (2 * a + 1) / 2 = a by omega,
        Nat.succ_mul]
    rw [hframe, hhalf]
    omega
  · have hframe : (2 * a + 1) * (2 * b) = 4 * (b * a) + 2 * b := by ring
    have hhalf : (2 * b + 1) / 2 * ((2 * a + 1 + 1) / 2) = b * a + b := by
      rw [show (2 * b + 1) / 2 = b by omega, show (2 * a + 1 + 1) / 2 = a + 1 by omega,
        Nat.mul_succ]
    rw [hframe, hhalf]
    omega
  · have hframe : (2 * a + 1) * (2 * b + 1) = 4 * (b * a) + 2 * a + 2 * b + 1 := by ring
    have hhalf : (2 * b + 1 + 1) / 2 * ((2 * a + 1 + 1) / 2) = b * a + a + b + 1 := by
      rw [show (2 * b + 1 + 1) / 2 = b + 1 by omega, show (2 * a + 1 + 1) / 2 = a + 1 by omega]
      ring
    rw [hframe, hhalf]
    omega

section Converters

variable {chroma : UInt32 → List UInt8} {argb : List UInt32} {w h : Nat}

/-- The length of the result, and the buffer behind it, where nothing overflows. -/
theorem resLength_eq (hsize : w * h * 3 < 2 ^ 31) :
    (toInt (toInt ((w : Int) * h) * 3)).tdiv 2 = (w * h * 3 / 2 : Nat) := by
  have hframe : toInt ((w : Int) * h) = (w * h : Nat) := by
    rw [← Int.natCast_mul, toInt_eq (by omega) (by omega)]
  have htriple : toInt (((w * h : Nat) : Int) * 3) = (w * h * 3 : Nat) := by
    rw [toInt_eq (by omega) (by omega)]
    rfl
  rw [hframe, htriple]
  rfl

/-- An allocation of less than 2 GiB has its size. -/
theorem size_malloc {n : Nat} (hn : n + 1 < 2 ^ 31) (heap : Nat → UInt8) :
    (malloc heap (n + 1)).size = n + 1 := by
  have hcast : toUnsigned ((n : Int) + 1) = (n + 1 : Nat) := by
    rw [toUnsigned_eq (by omega) (by omega)]
    rfl
  simp only [malloc, hcast]
  rw [if_pos (by omega), Int.toNat_natCast]

/-- A converter with two chroma bytes for a pair. -/
theorem fillsOnce_convertArgb_iff (hlen : ∀ x, (chroma x).length = 2)
    (hargb : argb.length = w * h) (hsize : w * h * 3 < 2 ^ 31) (heap : Nat → UInt8) :
    FillsOnce (w * h * 3 / 2)
        (convertArgb chroma ((w * h * 3 / 2 : Nat) : Int) heap argb w h) ↔
      w * h * 3 / 2 ≤ w * h + 2 * chromaCount w h 0 ∧
        w * h + 2 * chromaCount w h 0 ≤ w * h * 3 / 2 + 1 := by
  have hstores := stores_convertArgb hlen hargb (by omega) ((w * h * 3 / 2 : Nat) : Int) heap
  rw [hstores.filledOnce_iff (positions_perm hlen), size_malloc (by omega)]

/-- Both converters fill their result, each byte once, exactly if width and height are even,
or one of them is odd and the other one is two. -/
theorem fillsOnce_iff (hw : 1 ≤ w) (hh : 1 ≤ h) (hsize : w * h * 3 < 2 ^ 31)
    (hargb : argb.length = w * h) (heap : Nat → UInt8) :
    FillsOnce (w * h * 3 / 2) (argbIntToNV21Byte heap argb w h) ∧
        FillsOnce (w * h * 3 / 2) (argbIntToNV12Byte heap argb w h) ↔
      Even w ∧ Even h ∨ Odd w ∧ h = 2 ∨ w = 2 ∧ Odd h := by
  simp only [argbIntToNV21Byte, argbIntToNV12Byte, resLength_eq hsize]
  rw [fillsOnce_convertArgb_iff (fun _ => rfl) hargb hsize,
    fillsOnce_convertArgb_iff (fun _ => rfl) hargb hsize, and_self_iff, chromaCount_iff hw hh]

/-- Two by two pixels. -/
theorem fillsOnce_twoByTwo :
    FillsOnce 6 (argbIntToNV21Byte (fun _ => 0) [0, 0, 0, 0] 2 2) ∧
      FillsOnce 6 (argbIntToNV12Byte (fun _ => 0) [0, 0, 0, 0] 2 2) :=
  (fillsOnce_iff (w := 2) (h := 2) (by decide) (by decide) (by decide) rfl _).mpr
    (Or.inl ⟨even_two, even_two⟩)

/-- For three by three pixels the chroma bytes do not fit into the buffer. -/
theorem not_fillsOnce_threeByThree :
    (argbIntToNV21Byte (fun _ => 0) [0, 0, 0, 0, 0, 0, 0, 0, 0] 3 3).result = .error .write ∧
      ¬ FillsOnce 13 (argbIntToNV21Byte (fun _ => 0) [0, 0, 0, 0, 0, 0, 0, 0, 0] 3 3) := by
  have hfault : (argbIntToNV21Byte (fun _ => 0) [0, 0, 0, 0, 0, 0, 0, 0, 0] 3 3).result =
      .error .write := by decide +kernel
  refine ⟨hfault, fun h => ?_⟩
  obtain ⟨a, ha⟩ := h.1
  rw [hfault] at ha
  cases ha

end Converters

/-- A channel is a byte. -/
theorem channel_le (argb : UInt32) :
    (0 ≤ red argb ∧ red argb ≤ 255) ∧ (0 ≤ green argb ∧ green argb ≤ 255) ∧
      0 ≤ blue argb ∧ blue argb ≤ 255 := by
  have hred : argb.toNat &&& 0xff0000 ≤ 0xff0000 := Nat.and_le_right
  have hgreen : argb.toNat &&& 0xff00 ≤ 0xff00 := Nat.and_le_right
  have hblue : argb.toNat &&& 0xff ≤ 0xff := Nat.and_le_right
  have hsixteen : (16 : UInt32).toNat % 32 = 16 := rfl
  have height : (8 : UInt32).toNat % 32 = 8 := rfl
  have hmasks : (0xff0000 : UInt32).toNat = 0xff0000 ∧ (0xff00 : UInt32).toNat = 0xff00 ∧
      (0xff : UInt32).toNat = 0xff := ⟨rfl, rfl, rfl⟩
  unfold red green blue
  rw [UInt32.toNat_shiftRight, UInt32.toNat_shiftRight, UInt32.toNat_and, UInt32.toNat_and,
    UInt32.toNat_and, hsixteen, height, hmasks.1, hmasks.2.1, hmasks.2.2,
    Nat.shiftRight_eq_div_pow, Nat.shiftRight_eq_div_pow]
  omega

/-- The luma of a pixel is in the range of video. -/
theorem luma_range (argb : UInt32) : 16 ≤ luma argb ∧ luma argb ≤ 235 := by
  have h := channel_le argb
  simp only [luma, Int.shiftRight_eq_div_pow]
  omega

/-- So is its first chroma value. -/
theorem chromaU_range (argb : UInt32) : 16 ≤ chromaU argb ∧ chromaU argb ≤ 240 := by
  have h := channel_le argb
  simp only [chromaU, Int.shiftRight_eq_div_pow]
  omega

/-- So is its second. -/
theorem chromaV_range (argb : UInt32) : 16 ≤ chromaV argb ∧ chromaV argb ≤ 240 := by
  have h := channel_le argb
  simp only [chromaV, Int.shiftRight_eq_div_pow]
  omega

/-- The clamp leaves what a byte can hold. -/
theorem toNat_clamp {v : Int} (hlo : 0 ≤ v) (hhi : v ≤ 255) : ((clamp v).toNat : Int) = v := by
  rw [clamp, if_neg (by omega), if_neg (by omega), UInt8.toNat_ofNat']
  omega

section Values

variable {chroma : UInt32 → List UInt8} {argb : List UInt32} {w h c : Nat}

/-- The bytes of the result are those that are stored. -/
theorem convertArgb_bytes (chroma : UInt32 → List UInt8)
    (hlen : ∀ x, (chroma x).length = c) (hargb : argb.length = w * h)
    (hsize : w * h < 2 ^ 31) (heap : Nat → UInt8) {r : Int}
    (hroom : w * h + c * chromaCount w h 0 ≤ (malloc heap (r + 1)).size) :
    ∃ res, (convertArgb chroma r heap argb w h).result = .ok res ∧ res.length = r.toNat ∧
      ∀ k v, (k, v) ∈ frameStores chroma argb w h c → k < r.toNat → res[k]? = some v := by
  have hperm : ((frameStores chroma argb w h c).map Prod.fst).Perm
      (List.range (w * h + c * chromaCount w h 0)) := positions_perm hlen
  have hrun := (stores_convertArgb hlen hargb hsize r heap).fits
    ((fits_iff_of_perm hperm).mpr hroom)
  refine ⟨_, congrArg Logged.result hrun, Block.length_slice _ _ _, fun k v hmem hk => ?_⟩
  rw [Block.getElem?_slice _ hk, Nat.zero_add,
    Block.byte_put_of_nodup (hperm.nodup_iff.mpr List.nodup_range) hmem]

/-- A store of a pixel is one of the loops. -/
theorem mem_frameStores {j i : Nat} (hj : j < h) (hi : i < w) {x : Nat × UInt8}
    (hx : x ∈ pixelStores chroma argb w h c j i) : x ∈ frameStores chroma argb w h c :=
  List.mem_flatMap.mpr ⟨j, List.mem_range.mpr hj,
    List.mem_flatMap.mpr ⟨i, List.mem_range.mpr hi, hx⟩⟩

/-- Every luma byte is stored. -/
theorem luma_mem {k : Nat} (hk : k < w * h) :
    (k, clamp (luma (argb.getD k 0))) ∈ frameStores chroma argb w h c := by
  have hw : 0 < w := Nat.pos_of_mul_pos_right (Nat.zero_lt_of_lt hk)
  have hj : k / w < h := Nat.div_lt_of_lt_mul hk
  have hpixel : (k / w * w + k % w, clamp (luma (argb.getD (k / w * w + k % w) 0))) ∈
      frameStores chroma argb w h c := mem_frameStores hj (Nat.mod_lt k hw) List.mem_cons_self
  rwa [Nat.mul_comm, Nat.div_add_mod] at hpixel

/-- The pixel of a chroma pair. -/
def pixelOf (w k : Nat) : Nat := 2 * (k / (w / 2)) * w + 2 * (k % (w / 2))

/-- Every chroma byte is stored, for the first pixel of its square. -/
theorem chroma_mem (hw : Even w) (hh : Even h) {k e : Nat} (hk : k < w * h / 4) {v : UInt8}
    (hv : (chroma (argb.getD (pixelOf w k) 0))[e]? = some v) :
    (w * h + c * k + e, v) ∈ frameStores chroma argb w h c := by
  obtain ⟨a, rfl⟩ := hw.two_dvd
  obtain ⟨b, rfl⟩ := hh.two_dvd
  have hframe : 2 * a * (2 * b) = 4 * (a * b) := by ring
  have hcells : k < a * b := by omega
  have ha : 0 < a := Nat.pos_of_mul_pos_right (Nat.zero_lt_of_lt hcells)
  have hrow : k / a < b := Nat.div_lt_of_lt_mul hcells
  have hcolumn : k % a < a := Nat.mod_lt k ha
  rw [pixelOf, Nat.mul_div_cancel_left a Nat.two_pos] at hv
  have hcount : chromaCount (2 * a) (2 * (k / a)) (2 * (k % a)) = k := by
    rw [chromaCount, if_pos (Nat.mul_mod_right 2 _)]
    have hhalves : (2 * (k / a) + 1) / 2 = k / a ∧ (2 * a + 1) / 2 = a ∧
        (2 * (k % a) + 1) / 2 = k % a := by omega
    rw [hhalves.1, hhalves.2.1, hhalves.2.2, Nat.mul_comm, Nat.div_add_mod]
  refine mem_frameStores (j := 2 * (k / a)) (i := 2 * (k % a)) (by omega) (by omega)
    (List.mem_cons_of_mem _ ?_)
  rw [chromaStores, if_pos ⟨Nat.mul_mod_right 2 _, Nat.mul_mod_right 2 _⟩, hcount]
  exact mem_placed hv

end Values

/-- The byte stands for the value, which lies in a range that needs no clamp. -/
def Represents (byte : Option UInt8) (value lo hi : Int) : Prop :=
  lo ≤ value ∧ value ≤ hi ∧ ∃ b, byte = some b ∧ (b.toNat : Int) = value

/-- What the three results have in common, and what they hold. -/
structure Agree (argb : List UInt32) (w h : Nat) (nv21 nv12 gray : List UInt8) : Prop where
  length21 : nv21.length = w * h * 3 / 2
  length12 : nv12.length = w * h * 3 / 2
  gray21 : gray = nv21.take (w * h)
  gray12 : gray = nv12.take (w * h)
  first : ∀ k < w * h / 4, nv12[w * h + 2 * k]? = nv21[w * h + 2 * k + 1]?
  second : ∀ k < w * h / 4, nv12[w * h + 2 * k + 1]? = nv21[w * h + 2 * k]?
  luma : ∀ k < w * h, Represents nv21[k]? (luma (argb.getD k 0)) 16 235
  chromaV : ∀ k < w * h / 4,
    Represents nv21[w * h + 2 * k]? (chromaV (argb.getD (pixelOf w k) 0)) 16 240
  chromaU : ∀ k < w * h / 4,
    Represents nv21[w * h + 2 * k + 1]? (chromaU (argb.getD (pixelOf w k) 0)) 16 240

/-- All three converters end well, and their results agree. -/
def ConvertersAgree (heap : Nat → UInt8) (argb : List UInt32) (w h : Nat) : Prop :=
  ∃ nv21 nv12 gray, (argbIntToNV21Byte heap argb w h).result = .ok nv21 ∧
    (argbIntToNV12Byte heap argb w h).result = .ok nv12 ∧
    (argbIntToGrayNVByte heap argb w h).result = .ok gray ∧ Agree argb w h nv21 nv12 gray

section Agreement

variable {argb : List UInt32} {w h : Nat}

/-- An even image takes half as many chroma bytes as luma bytes. -/
theorem chromaCount_even (hw : Even w) (hh : Even h) :
    w * h + 2 * chromaCount w h 0 = w * h * 3 / 2 := by
  obtain ⟨a, rfl⟩ := hw.two_dvd
  obtain ⟨b, rfl⟩ := hh.two_dvd
  have hframe : 2 * a * (2 * b) = 4 * (b * a) := by ring
  have hcount : chromaCount (2 * a) (2 * b) 0 = b * a := by
    have hhalves : (2 * b + 1) / 2 = b ∧ (2 * a + 1) / 2 = a := by omega
    rw [chromaCount, if_pos (Nat.mul_mod_right 2 b), hhalves.1, hhalves.2]
    rfl
  omega

/-- A value in the range of a byte is stored as it is. -/
theorem represents_clamp {value lo hi : Int} {byte : Option UInt8}
    (hbyte : byte = some (clamp value)) (hrange : lo ≤ value ∧ value ≤ hi) (hlo : 0 ≤ lo)
    (hhi : hi ≤ 255) : Represents byte value lo hi :=
  ⟨hrange.1, hrange.2, clamp value, hbyte, toNat_clamp (by omega) (by omega)⟩

/-- A list that agrees with a beginning of another is that beginning. -/
theorem eq_take {n : Nat} {xs ys : List UInt8} (hlength : xs.length = n)
    (h : ∀ k < n, xs[k]? = ys[k]?) : xs = ys.take n := by
  apply List.ext_getElem?
  intro k
  rw [List.getElem?_take]
  split
  · rename_i hk
    exact h k hk
  · exact List.getElem?_eq_none (by omega)

/-- Where three times the number of pixels is an `int`, the converters agree. -/
theorem convertersAgree_of_lt (hw : Even w) (hh : Even h) (hargb : argb.length = w * h)
    (hsize : w * h * 3 < 2 ^ 31) (heap : Nat → UInt8) : ConvertersAgree heap argb w h := by
  have hroom : w * h + 2 * chromaCount w h 0 ≤
      (malloc heap (((w * h * 3 / 2 : Nat) : Int) + 1)).size := by
    rw [size_malloc (by omega), chromaCount_even hw hh]
    exact Nat.le_succ _
  have hroomGray : w * h + 0 * chromaCount w h 0 ≤
      (malloc heap (((w * h : Nat) : Int) + 1)).size := by
    rw [size_malloc (by omega), Nat.zero_mul]
    exact Nat.le_succ _
  obtain ⟨nv21, hrun21, hlen21, hbytes21⟩ := convertArgb_bytes
    (fun x => [clamp (chromaV x), clamp (chromaU x)]) (fun _ => rfl) hargb (by omega) heap hroom
  obtain ⟨nv12, hrun12, hlen12, hbytes12⟩ := convertArgb_bytes
    (fun x => [clamp (chromaU x), clamp (chromaV x)]) (fun _ => rfl) hargb (by omega) heap hroom
  obtain ⟨gray, hrunGray, hlenGray, hbytesGray⟩ := convertArgb_bytes
    (fun _ => []) (fun _ => rfl) hargb (by omega) heap hroomGray
  rw [Int.toNat_natCast] at hlen21 hbytes21 hlen12 hbytes12 hlenGray hbytesGray
  have hframe : toInt ((w : Int) * h) = (w * h : Nat) := by
    rw [← Int.natCast_mul, toInt_eq (by omega) (by omega)]
  have hluma21 := fun k (hk : k < w * h) => hbytes21 k _ (luma_mem hk) (by omega)
  have hluma12 := fun k (hk : k < w * h) => hbytes12 k _ (luma_mem hk) (by omega)
  have hlumaGray := fun k (hk : k < w * h) => hbytesGray k _ (luma_mem hk) hk
  have hV21 := fun k (hk : k < w * h / 4) =>
    hbytes21 _ _ (chroma_mem (e := 0) hw hh hk rfl) (by omega)
  have hU21 := fun k (hk : k < w * h / 4) =>
    hbytes21 _ _ (chroma_mem (e := 1) hw hh hk rfl) (by omega)
  have hU12 := fun k (hk : k < w * h / 4) =>
    hbytes12 _ _ (chroma_mem (e := 0) hw hh hk rfl) (by omega)
  have hV12 := fun k (hk : k < w * h / 4) =>
    hbytes12 _ _ (chroma_mem (e := 1) hw hh hk rfl) (by omega)
  refine ⟨nv21, nv12, gray, ?_, ?_, ?_, ?_⟩
  · simp only [argbIntToNV21Byte, resLength_eq hsize]
    exact hrun21
  · simp only [argbIntToNV12Byte, resLength_eq hsize]
    exact hrun12
  · simp only [argbIntToGrayNVByte, hframe]
    exact hrunGray
  · constructor
    · exact hlen21
    · exact hlen12
    · exact eq_take hlenGray fun k hk => (hlumaGray k hk).trans (hluma21 k hk).symm
    · exact eq_take hlenGray fun k hk => (hlumaGray k hk).trans (hluma12 k hk).symm
    · exact fun k hk => (hU12 k hk).trans (hU21 k hk).symm
    · exact fun k hk => (hV12 k hk).trans (hV21 k hk).symm
    · exact fun k hk => represents_clamp (hluma21 k hk) (luma_range _) (by decide) (by decide)
    · exact fun k hk => represents_clamp (hV21 k hk) (chromaV_range _) (by decide) (by decide)
    · exact fun k hk => represents_clamp (hU21 k hk) (chromaU_range _) (by decide) (by decide)

/-- The converters agree on every frame of even size whose pixels fit into memory: an `int[]` of
a 32-bit process has less than half of the address space, as every object has. -/
theorem convertersAgree (hw : Even w) (hh : Even h) (hargb : argb.length = w * h)
    (hbytes : 4 * argb.length < 2 ^ 31) (heap : Nat → UInt8) : ConvertersAgree heap argb w h :=
  convertersAgree_of_lt hw hh hargb (by omega) heap

/-- Two by two pixels. -/
theorem convertersAgree_twoByTwo :
    ConvertersAgree (fun _ => 0) [0xffff0000, 0xff00ff00, 0xff0000ff, 0xffffffff] 2 2 :=
  convertersAgree even_two even_two rfl (by decide) _

end Agreement

end YuvUtils

end Jrtplib4Android
