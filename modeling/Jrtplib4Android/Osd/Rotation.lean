import Jrtplib4Android.Core.Filling
import Mathlib.Algebra.Group.Nat.Even
import Mathlib.Data.Set.Function
import Mathlib.Tactic.Ring

/-!
# The rotation of a camera frame

`addOsd` turns a camera frame and converts it from NV21 to NV12 before it draws the
watermark. The target is filled from front to back, so a frame that is turned is told by
the order in which the loops visit the source. The image itself is a luma plane and a
chroma plane of half its size, and both are turned by the same map of points.
-/

namespace Jrtplib4Android

open CSem

/-- The members of `YuvUtils` that the conversion reads. -/
structure YuvUtils where
  frameWidth : Nat
  frameHeight : Nat
  rotation : Int

/-- The loops that turn a frame: the values of their counters `i` and `j`, for the luma and
for the chroma, and the offsets of the two bytes of a pair. -/
structure Scan where
  is : List Nat
  js : List Nat
  uvIs : List Nat
  uvJs : List Nat
  first : Nat → Nat → Nat
  second : Nat → Nat → Nat

namespace Scan

/-- `destData[k++] = nv21Src[j * frame_width + i]`. -/
def rotateY (scan : Scan) (nv21Src : Block) (frameWidth : Nat) :
    Block × Nat → Logged Nat (Block × Nat) :=
  Logged.forEach (fun s i => Logged.forEach (fun (destData, k) j => do
    let destData ← copyByte nv21Src destData k (j * frameWidth + i)
    return (destData, k + 1)) scan.js s) scan.is

/-- The pair of `destData[k]` and `destData[k + 1]`, and `k += 2`. -/
def rotateUV (scan : Scan) (nv21Src : Block) : Block × Nat → Logged Nat (Block × Nat) :=
  Logged.forEach (fun s i => Logged.forEach (fun (destData, k) j => do
    let destData ← copyByte nv21Src destData k (scan.first i j)
    let destData ← copyByte nv21Src destData (k + 1) (scan.second i j)
    return (destData, k + 2)) scan.uvJs s) scan.uvIs

/-- A branch of `addOsd` that turns the frame, with `k` from 0 on. -/
def rotateFrame (scan : Scan) (nv21Src destData : Block) (frameWidth : Nat) :
    Logged Nat Block := do
  let s ← scan.rotateY nv21Src frameWidth (destData, 0)
  let s ← scan.rotateUV nv21Src s
  return s.1

end Scan

namespace YuvUtils

def framesize (u : YuvUtils) : Nat := u.frameWidth * u.frameHeight

/-- The loops of `addOsd` for `rotation == 90`. -/
def scan90 (u : YuvUtils) : Scan where
  is := countUp 0 u.frameWidth 1
  js := countDown u.frameHeight 1
  uvIs := countUp 0 u.frameWidth 2
  uvJs := countDown (u.frameHeight >>> 1) 1
  first := fun i j => u.framesize + u.frameWidth * j + i + 1
  second := fun i j => u.framesize + u.frameWidth * j + i

/-- The loops of `addOsd` for `rotation == 270`. -/
def scan270 (u : YuvUtils) : Scan where
  is := countDown u.frameWidth 1
  js := countUp 0 u.frameHeight 1
  uvIs := countDown u.frameWidth 2
  uvJs := countUp 0 (u.frameHeight >>> 1) 1
  first := fun i j => u.framesize + u.frameWidth * j + i
  second := fun i j => u.framesize + u.frameWidth * j + i - 1

/-- The branch of `addOsd` for `rotation == 0`. -/
def copyFrame (u : YuvUtils) (nv21Src destData : Block) : Logged Nat Block := do
  let destData ← memcpyLogged destData 0 nv21Src 0 u.framesize
  Logged.forEach (fun destData j => do
      let destData ← copyByte nv21Src destData j (j + 1)
      copyByte nv21Src destData (j + 1) j)
    (countUp u.framesize (u.framesize + u.framesize / 2) 2) destData

/-- `addOsd` up to the watermark: `destData`, and `newFrameW`, which other angles than the
three leave unset. -/
def convertFrame (u : YuvUtils) (nv21Src destData : Block) : Logged Nat (Block × Option Nat) :=
  if u.rotation = 0 then do
    let destData ← u.copyFrame nv21Src destData
    return (destData, some u.frameWidth)
  else if u.rotation = 90 then do
    let destData ← u.scan90.rotateFrame nv21Src destData u.frameWidth
    return (destData, some u.frameHeight)
  else if u.rotation = 270 then do
    let destData ← u.scan270.rotateFrame nv21Src destData u.frameWidth
    return (destData, some u.frameHeight)
  else return (destData, none)

end YuvUtils

/-- A rectangle of values; a point is its column and its row. -/
structure Plane (α : Type) where
  width : Nat
  height : Nat
  value : Nat × Nat → α

/-- The angles that `addOsd` knows. -/
inductive Rotation where
  | upright
  | right
  | left

namespace Rotation

/-- The angle in `rotation`, clockwise. -/
def degrees : Rotation → Int
  | upright => 0
  | right => 90
  | left => 270

/-- Width and height of what is turned. -/
def size : Rotation → Nat → Nat → Nat × Nat
  | upright, w, h => (w, h)
  | right, w, h => (h, w)
  | left, w, h => (h, w)

/-- Where a point of a plane of `w` columns and `h` rows comes to lie. -/
def target : Rotation → Nat → Nat → Nat × Nat → Nat × Nat
  | upright, _, _, (x, y) => (x, y)
  | right, _, h, (x, y) => (h - 1 - y, x)
  | left, w, _, (x, y) => (y, w - 1 - x)

/-- The points of a plane. -/
def points (w h : Nat) : Set (Nat × Nat) := {p | p.1 < w ∧ p.2 < h}

/-- The turn that undoes a turn. -/
def inverse : Rotation → Rotation
  | upright => upright
  | right => left
  | left => right

/-- A turn maps the points of an image to those of the turned one. -/
theorem mapsTo_target (r : Rotation) (w h : Nat) :
    Set.MapsTo (r.target w h) (points w h) (points (r.size w h).1 (r.size w h).2) := by
  rintro ⟨x, y⟩ ⟨hx, hy⟩
  cases r <;> simp only [points, target, size, Set.mem_ofPred_eq] at * <;> omega

/-- The inverse turn of the turned plane leads back. -/
theorem target_inverse (r : Rotation) {w h : Nat} :
    Set.LeftInvOn (r.inverse.target (r.size w h).1 (r.size w h).2) (r.target w h)
      (points w h) := by
  rintro ⟨x, y⟩ ⟨hx, hy⟩
  cases r <;> simp only [inverse, target, size, Prod.mk.injEq, and_true, true_and] at * <;> omega

/-- The turn back, turned back. -/
theorem inverse_inverse (r : Rotation) : r.inverse.inverse = r := by cases r <;> rfl

/-- The turn back restores the size. -/
theorem size_inverse (r : Rotation) (w h : Nat) :
    r.inverse.size (r.size w h).1 (r.size w h).2 = (w, h) := by cases r <;> rfl

/-- A turn moves the points of the plane to those of the turned plane, one to one. -/
theorem bijOn_target (r : Rotation) (w h : Nat) :
    Set.BijOn (r.target w h) (points w h) (points (r.size w h).1 (r.size w h).2) := by
  have hback := r.inverse.mapsTo_target (r.size w h).1 (r.size w h).2
  have hright := r.inverse.target_inverse (w := (r.size w h).1) (h := (r.size w h).2)
  rw [size_inverse] at hback hright
  rw [inverse_inverse] at hright
  exact Set.InvOn.bijOn ⟨r.target_inverse, hright⟩ (r.mapsTo_target w h) hback

end Rotation

/-- One plane is the other one turned. -/
structure Plane.Turned {α : Type} (r : Rotation) (p q : Plane α) : Prop where
  size : (q.width, q.height) = r.size p.width p.height
  moved : ∀ x y, x < p.width → y < p.height →
    q.value (r.target p.width p.height (x, y)) = p.value (x, y)

/-- An image in 4:2:0: its luma, and a pair of chroma values, U and V, for each block of
two by two pixels. -/
structure Picture where
  luma : Plane UInt8
  chroma : Plane (UInt8 × UInt8)

/-- Both planes of an image are turned. -/
structure Picture.Turned (r : Rotation) (p q : Picture) : Prop where
  luma : p.luma.Turned r q.luma
  chroma : p.chroma.Turned r q.chroma

/-- The image of a frame whose chroma pairs are read by `pair`. -/
def picture (w h : Nat) (frame : Block) (pair : Nat → UInt8 × UInt8) : Picture where
  luma := ⟨w, h, fun (x, y) => frame.byte (y * w + x)⟩
  chroma := ⟨w / 2, h / 2, fun (x, y) => pair (w * h + (y * w + 2 * x))⟩

/-- The image of an NV21 frame, in which V stands in front of U. -/
def nv21 (w h : Nat) (frame : Block) : Picture :=
  picture w h frame fun i => (frame.byte (i + 1), frame.byte i)

/-- The image of an NV12 frame, in which U stands in front of V. -/
def nv12 (w h : Nat) (frame : Block) : Picture :=
  picture w h frame fun i => (frame.byte i, frame.byte (i + 1))

namespace Scan

variable {scan : Scan} {nv21Src destData : Block}

/-- The source offsets of the luma, in the order of the target. -/
def lumaOffsets (scan : Scan) (w : Nat) : List Nat :=
  scan.is.flatMap fun i => scan.js.flatMap fun j => [j * w + i]

/-- The source offsets of the chroma, in the order of the target. -/
def chromaOffsets (scan : Scan) : List Nat :=
  scan.uvIs.flatMap fun i => scan.uvJs.flatMap fun j => [scan.first i j, scan.second i j]

/-- The loops read as many luma bytes as they have rounds. -/
theorem length_lumaOffsets (scan : Scan) (w : Nat) :
    (scan.lumaOffsets w).length = scan.is.length * (scan.js.length * 1) :=
  length_flatMap_of_length fun _ _ => length_flatMap_of_length fun _ _ => rfl

/-- They read two chroma bytes in a round. -/
theorem length_chromaOffsets (scan : Scan) :
    scan.chromaOffsets.length = scan.uvIs.length * (scan.uvJs.length * 2) :=
  length_flatMap_of_length fun _ _ => length_flatMap_of_length fun _ _ => rfl

/-- The luma loops copy their bytes. -/
theorem copies_rotateY {k w : Nat}
    (hread : ∀ i ∈ scan.is, ∀ j ∈ scan.js, j * w + i < nv21Src.size)
    (hroom : k + (scan.lumaOffsets w).length ≤ destData.size) :
    Copies nv21Src destData k (scan.lumaOffsets w) (scan.rotateY nv21Src w (destData, k))
      fun d => (d, k + (scan.lumaOffsets w).length) := by
  rw [length_lumaOffsets] at hroom ⊢
  refine copies_grid (fun _ _ _ _ => rfl) (fun i hi j hj d k _ hk => ?_) hroom
  exact (copies_copyByte (hread i hi j hj) (by omega)).map fun d => (d, k + 1)

/-- The chroma loops copy theirs. -/
theorem copies_rotateUV {k : Nat}
    (hread : ∀ i ∈ scan.uvIs, ∀ j ∈ scan.uvJs,
      scan.first i j < nv21Src.size ∧ scan.second i j < nv21Src.size)
    (hroom : k + scan.chromaOffsets.length ≤ destData.size) :
    Copies nv21Src destData k scan.chromaOffsets (scan.rotateUV nv21Src (destData, k))
      fun d => (d, k + scan.chromaOffsets.length) := by
  rw [length_chromaOffsets] at hroom ⊢
  refine copies_grid (fun _ _ _ _ => rfl) (fun i hi j hj d k _ hk => ?_) hroom
  obtain ⟨hfirst, hsecond⟩ := hread i hi j hj
  refine (copies_copyByte hfirst (by omega)).bind fun d₁ hd₁ => ?_
  exact (copies_copyByte hsecond (by rw [hd₁, List.length_singleton]; omega)).map
    fun d => (d, k + 2)

/-- A branch that turns the frame fills the target with the luma and then the chroma. -/
theorem copies_rotateFrame {w : Nat}
    (hluma : ∀ i ∈ scan.is, ∀ j ∈ scan.js, j * w + i < nv21Src.size)
    (hchroma : ∀ i ∈ scan.uvIs, ∀ j ∈ scan.uvJs,
      scan.first i j < nv21Src.size ∧ scan.second i j < nv21Src.size)
    (hroom : (scan.lumaOffsets w).length + scan.chromaOffsets.length ≤ destData.size) :
    Copies nv21Src destData 0 (scan.lumaOffsets w ++ scan.chromaOffsets)
      (scan.rotateFrame nv21Src destData w) id := by
  refine (copies_rotateY hluma (by omega)).bind fun d hd => ?_
  exact (copies_rotateUV hchroma (by omega)).map Prod.fst

/-- The byte of the target that the cell of two luma counters fills. -/
theorem byte_luma {w : Nat}
    (hslice : destData.slice 0 (scan.lumaOffsets w ++ scan.chromaOffsets).length =
      (scan.lumaOffsets w ++ scan.chromaOffsets).map nv21Src.byte)
    {r c : Nat} (hr : r < scan.is.length) (hc : c < scan.js.length) :
    destData.byte (r * scan.js.length + c) = nv21Src.byte (scan.js[c] * w + scan.is[r]) := by
  apply byte_of_slice hslice
  have hgrid : (scan.lumaOffsets w)[r * scan.js.length + c]? =
      some (scan.js[c] * w + scan.is[r]) := by
    have h := getElem?_grid (f := fun i j => [j * w + i]) (m := 1) (fun _ _ _ _ => rfl) hr hc
      Nat.zero_lt_one
    simpa only [lumaOffsets, Nat.mul_one, Nat.add_zero, List.getElem?_cons_zero] using h
  obtain ⟨hlt, -⟩ := List.getElem?_eq_some_iff.mp hgrid
  rw [List.getElem?_append_left hlt, hgrid]

/-- The bytes of the target that the cell of two chroma counters fills. -/
theorem byte_chroma {w : Nat}
    (hslice : destData.slice 0 (scan.lumaOffsets w ++ scan.chromaOffsets).length =
      (scan.lumaOffsets w ++ scan.chromaOffsets).map nv21Src.byte)
    {r c e p : Nat} (hr : r < scan.uvIs.length) (hc : c < scan.uvJs.length) (he : e < 2)
    (hp : [scan.first scan.uvIs[r] scan.uvJs[c], scan.second scan.uvIs[r] scan.uvJs[c]][e]? =
      some p) :
    destData.byte (scan.is.length * scan.js.length + (r * (scan.uvJs.length * 2) + (c * 2 + e))) =
      nv21Src.byte p := by
  apply byte_of_slice hslice
  have hlen := scan.length_lumaOffsets w
  rw [Nat.mul_one] at hlen
  rw [List.getElem?_append_right (by omega), hlen, Nat.add_sub_cancel_left, ← hp]
  exact getElem?_grid (f := fun i j => [scan.first i j, scan.second i j]) (fun _ _ _ _ => rfl)
    hr hc he

end Scan

/-- A point of the image is in its luma bytes. -/
theorem luma_lt {w h x y : Nat} (hx : x < w) (hy : y < h) : y * w + x < w * h := by
  calc y * w + x < y * w + w := by omega
    _ = (y + 1) * w := (Nat.succ_mul y w).symm
    _ ≤ h * w := Nat.mul_le_mul_right w hy
    _ = w * h := Nat.mul_comm h w

/-- The pairs of a frame lie behind its luma, in half as many bytes. -/
theorem pair_lt {w h x y : Nat} (hw : Even w) (hh : Even h) (hx : x < w / 2) (hy : y < h / 2) :
    w * h + (y * w + 2 * x) + 1 < w * h * 3 / 2 := by
  obtain ⟨a, rfl⟩ := hw.two_dvd
  obtain ⟨b, rfl⟩ := hh.two_dvd
  have hcell : y * a + x < a * b := luma_lt (by omega) (by omega)
  have hframe : 2 * a * (2 * b) = 4 * (a * b) := by ring
  have hrow : y * (2 * a) = 2 * (y * a) := by ring
  omega

/-- The loops go over the source in the order in which the turned image is stored. -/
structure Scan.Follows (scan : Scan) (r : Rotation) (w h : Nat) : Prop where
  turns : r ≠ .upright
  is : scan.is.length = w
  js : scan.js.length = h
  uvIs : scan.uvIs.length = w / 2
  uvJs : scan.uvJs.length = h / 2
  luma : ∀ x y, x < w → y < h →
    scan.is[(r.target w h (x, y)).2]? = some x ∧ scan.js[(r.target w h (x, y)).1]? = some y
  chroma : ∀ x y, x < w / 2 → y < h / 2 →
    ∃ i j, scan.uvIs[(r.target (w / 2) (h / 2) (x, y)).2]? = some i ∧
      scan.uvJs[(r.target (w / 2) (h / 2) (x, y)).1]? = some j ∧
      scan.first i j = w * h + (y * w + 2 * x) + 1 ∧ scan.second i j = w * h + (y * w + 2 * x)

/-- Width and height change places, unless nothing is turned. -/
theorem Rotation.size_of_turns {r : Rotation} (h : r ≠ .upright) (a b : Nat) :
    r.size a b = (b, a) := by
  cases r with
  | upright => exact absurd rfl h
  | right => rfl
  | left => rfl

namespace YuvUtils

variable {u : YuvUtils}

/-- The loops for 90 degrees turn right. -/
theorem follows_scan90 (hw : Even u.frameWidth) (hh : Even u.frameHeight) :
    u.scan90.Follows .right u.frameWidth u.frameHeight := by
  obtain ⟨a, ha⟩ := hw.two_dvd
  obtain ⟨b, hb⟩ := hh.two_dvd
  have hshift : u.frameHeight >>> 1 = u.frameHeight / 2 := Nat.shiftRight_one _
  refine ⟨nofun, ?_, ?_, ?_, ?_, fun x y hx hy => ⟨?_, ?_⟩, fun x y hx hy => ?_⟩
  · exact (length_countUp ..).trans (by omega)
  · exact (length_countDown ..).trans (by omega)
  · exact (length_countUp ..).trans (by omega)
  · exact (length_countDown ..).trans (by omega)
  · change (countUp 0 u.frameWidth 1)[x]? = some x
    exact (getElem?_countUp (by omega)).trans (congrArg some (by omega))
  · change (countDown u.frameHeight 1)[u.frameHeight - 1 - y]? = some y
    exact (getElem?_countDown (by omega)).trans (congrArg some (by omega))
  · refine ⟨2 * x, y, ?_, ?_, ?_, ?_⟩
    · change (countUp 0 u.frameWidth 2)[x]? = some (2 * x)
      exact (getElem?_countUp (by omega)).trans (congrArg some (by omega))
    · change (countDown (u.frameHeight >>> 1) 1)[u.frameHeight / 2 - 1 - y]? = some y
      exact (getElem?_countDown (by omega)).trans (congrArg some (by omega))
    · simp only [scan90, framesize, Nat.mul_comm y, Nat.add_assoc]
    · simp only [scan90, framesize, Nat.mul_comm y, Nat.add_assoc]

/-- The loops for 270 degrees turn left. -/
theorem follows_scan270 (hw : Even u.frameWidth) (hh : Even u.frameHeight) :
    u.scan270.Follows .left u.frameWidth u.frameHeight := by
  obtain ⟨a, ha⟩ := hw.two_dvd
  obtain ⟨b, hb⟩ := hh.two_dvd
  have hshift : u.frameHeight >>> 1 = u.frameHeight / 2 := Nat.shiftRight_one _
  refine ⟨nofun, ?_, ?_, ?_, ?_, fun x y hx hy => ⟨?_, ?_⟩, fun x y hx hy => ?_⟩
  · exact (length_countDown ..).trans (by omega)
  · exact (length_countUp ..).trans (by omega)
  · exact (length_countDown ..).trans (by omega)
  · exact (length_countUp ..).trans (by omega)
  · change (countDown u.frameWidth 1)[u.frameWidth - 1 - x]? = some x
    exact (getElem?_countDown (by omega)).trans (congrArg some (by omega))
  · change (countUp 0 u.frameHeight 1)[y]? = some y
    exact (getElem?_countUp (by omega)).trans (congrArg some (by omega))
  · refine ⟨2 * x + 1, y, ?_, ?_, ?_, ?_⟩
    · change (countDown u.frameWidth 2)[u.frameWidth / 2 - 1 - x]? = some (2 * x + 1)
      exact (getElem?_countDown (by omega)).trans (congrArg some (by omega))
    · change (countUp 0 (u.frameHeight >>> 1) 1)[y]? = some y
      exact (getElem?_countUp (by omega)).trans (congrArg some (by omega))
    · simp only [scan270, framesize, Nat.mul_comm y, Nat.add_assoc]
    · simp only [scan270, framesize, Nat.mul_comm y]
      omega

end YuvUtils

namespace Scan.Follows

variable {scan : Scan} {r : Rotation} {w h : Nat}

/-- Every pair of luma counters belongs to a point of the source. -/
theorem luma_mem (hf : scan.Follows r w h) {i j : Nat} (hi : i ∈ scan.is) (hj : j ∈ scan.js) :
    i < w ∧ j < h := by
  obtain ⟨row, hrow, rfl⟩ := List.mem_iff_getElem.mp hi
  obtain ⟨col, hcol, rfl⟩ := List.mem_iff_getElem.mp hj
  have hpoint : (col, row) ∈ Rotation.points (r.size w h).1 (r.size w h).2 := by
    rw [Rotation.size_of_turns hf.turns]
    exact ⟨hf.js ▸ hcol, hf.is ▸ hrow⟩
  obtain ⟨⟨x, y⟩, ⟨hx, hy⟩, htarget⟩ := (r.bijOn_target w h).surjOn hpoint
  obtain ⟨his, hjs⟩ := hf.luma x y hx hy
  rw [htarget] at his hjs
  rw [(List.getElem_eq_iff hrow).mpr his, (List.getElem_eq_iff hcol).mpr hjs]
  exact ⟨hx, hy⟩

/-- Every pair of chroma counters belongs to a block of the source. -/
theorem chroma_mem (hf : scan.Follows r w h) {i j : Nat} (hi : i ∈ scan.uvIs)
    (hj : j ∈ scan.uvJs) :
    ∃ x y, x < w / 2 ∧ y < h / 2 ∧ scan.first i j = w * h + (y * w + 2 * x) + 1 ∧
      scan.second i j = w * h + (y * w + 2 * x) := by
  obtain ⟨row, hrow, rfl⟩ := List.mem_iff_getElem.mp hi
  obtain ⟨col, hcol, rfl⟩ := List.mem_iff_getElem.mp hj
  have hpoint : (col, row) ∈
      Rotation.points (r.size (w / 2) (h / 2)).1 (r.size (w / 2) (h / 2)).2 := by
    rw [Rotation.size_of_turns hf.turns]
    exact ⟨hf.uvJs ▸ hcol, hf.uvIs ▸ hrow⟩
  obtain ⟨⟨x, y⟩, ⟨hx, hy⟩, htarget⟩ := (r.bijOn_target (w / 2) (h / 2)).surjOn hpoint
  obtain ⟨i, j, his, hjs, hpair⟩ := hf.chroma x y hx hy
  rw [htarget] at his hjs
  rw [(List.getElem_eq_iff hrow).mpr his, (List.getElem_eq_iff hcol).mpr hjs]
  exact ⟨x, y, hx, hy, hpair⟩

/-- The luma and the chroma are one and a half bytes for each pixel. -/
theorem length_offsets (hf : scan.Follows r w h) (hw : Even w) (hh : Even h) :
    (scan.lumaOffsets w).length = w * h ∧
      (scan.lumaOffsets w ++ scan.chromaOffsets).length = w * h * 3 / 2 := by
  have hluma : (scan.lumaOffsets w).length = w * h := by
    rw [Scan.length_lumaOffsets, hf.is, hf.js, Nat.mul_one]
  refine ⟨hluma, ?_⟩
  rw [List.length_append, hluma, Scan.length_chromaOffsets, hf.uvIs, hf.uvJs]
  obtain ⟨a, rfl⟩ := hw.two_dvd
  obtain ⟨b, rfl⟩ := hh.two_dvd
  have hframe : 2 * a * (2 * b) = 4 * (a * b) := by ring
  have hhalf : 2 * a / 2 * (2 * b / 2 * 2) = 2 * (a * b) := by
    rw [Nat.mul_div_cancel_left a Nat.two_pos, Nat.mul_div_cancel_left b Nat.two_pos]
    ring
  omega

section Filled

variable {nv21Src destData : Block}
  (hslice : destData.slice 0 (scan.lumaOffsets w ++ scan.chromaOffsets).length =
    (scan.lumaOffsets w ++ scan.chromaOffsets).map nv21Src.byte)

include hslice

/-- The luma of the frame is turned. -/
theorem luma_turned (hf : scan.Follows r w h) :
    (nv21 w h nv21Src).luma.Turned r (nv12 (r.size w h).1 (r.size w h).2 destData).luma := by
  refine ⟨rfl, fun x y hx hy => ?_⟩
  obtain ⟨his, hjs⟩ := hf.luma x y hx hy
  change (nv12 _ _ destData).luma.value (r.target w h (x, y)) = nv21Src.byte (y * w + x)
  rcases htarget : r.target w h (x, y) with ⟨col, row⟩
  rw [htarget] at his hjs
  obtain ⟨hrow, hi⟩ := List.getElem?_eq_some_iff.mp his
  obtain ⟨hcol, hj⟩ := List.getElem?_eq_some_iff.mp hjs
  have hbyte := Scan.byte_luma hslice hrow hcol
  rw [hi, hj, hf.js] at hbyte
  change destData.byte (row * (r.size w h).1 + col) = nv21Src.byte (y * w + x)
  rw [Rotation.size_of_turns hf.turns, hbyte]

/-- Its chroma is turned. -/
theorem chroma_turned (hf : scan.Follows r w h) (hh : Even h) :
    (nv21 w h nv21Src).chroma.Turned r (nv12 (r.size w h).1 (r.size w h).2 destData).chroma := by
  rw [Rotation.size_of_turns hf.turns]
  refine ⟨(Rotation.size_of_turns hf.turns _ _).symm, fun x y hx hy => ?_⟩
  obtain ⟨i, j, his, hjs, hfirst, hsecond⟩ := hf.chroma x y hx hy
  change (nv12 h w destData).chroma.value (r.target (w / 2) (h / 2) (x, y)) =
    (nv21 w h nv21Src).chroma.value (x, y)
  rcases htarget : r.target (w / 2) (h / 2) (x, y) with ⟨col, row⟩
  rw [htarget] at his hjs
  obtain ⟨hrow, hi⟩ := List.getElem?_eq_some_iff.mp his
  obtain ⟨hcol, hj⟩ := List.getElem?_eq_some_iff.mp hjs
  have hpairs : scan.uvJs.length * 2 = h := by
    obtain ⟨b, hb⟩ := hh.two_dvd
    rw [hf.uvJs]
    omega
  have hu := Scan.byte_chroma hslice (e := 0) hrow hcol Nat.two_pos rfl
  have hv := Scan.byte_chroma hslice (e := 1) hrow hcol Nat.one_lt_two rfl
  rw [hf.is, hf.js, hpairs, Nat.mul_comm w h, Nat.mul_comm col 2] at hu hv
  rw [hi, hj, hfirst] at hu
  rw [hi, hj, hsecond] at hv
  apply Prod.ext
  · exact hu
  · exact hv

end Filled

/-- Loops in the order of a turned image write that image, each byte once. -/
theorem rotateFrame_eq (hf : scan.Follows r w h) (hw : Even w) (hh : Even h)
    {nv21Src destData : Block} (hsrc : nv21Src.size = w * h * 3 / 2)
    (hdest : w * h * 3 / 2 ≤ destData.size) :
    ∃ destData', scan.rotateFrame nv21Src destData w =
        ⟨List.range (w * h * 3 / 2), .ok destData'⟩ ∧ destData'.size = destData.size ∧
      (nv21 w h nv21Src).Turned r (nv12 (r.size w h).1 (r.size w h).2 destData') := by
  obtain ⟨hlumaLen, hlen⟩ := hf.length_offsets hw hh
  have hluma : ∀ i ∈ scan.is, ∀ j ∈ scan.js, j * w + i < nv21Src.size := by
    intro i hi j hj
    obtain ⟨hx, hy⟩ := hf.luma_mem hi hj
    have := luma_lt hx hy
    omega
  have hchroma : ∀ i ∈ scan.uvIs, ∀ j ∈ scan.uvJs,
      scan.first i j < nv21Src.size ∧ scan.second i j < nv21Src.size := by
    intro i hi j hj
    obtain ⟨x, y, hx, hy, hfirst, hsecond⟩ := hf.chroma_mem hi hj
    have := pair_lt hw hh hx hy
    omega
  obtain ⟨destData', hrun, hsize, hslice⟩ := Scan.copies_rotateFrame hluma hchroma
    (by rw [← List.length_append, hlen]; exact hdest)
  rw [Nat.zero_add, Block.slice_zero, List.nil_append] at hslice
  refine ⟨destData', ?_, hsize, luma_turned hslice hf, chroma_turned hslice hf hh⟩
  rw [hrun, hlen, List.range_eq_range']
  rfl

end Scan.Follows

namespace YuvUtils

variable {u : YuvUtils} {nv21Src destData : Block}

/-- The source offsets of the chroma of a frame that is not turned. -/
def swappedOffsets (u : YuvUtils) : List Nat :=
  (countUp u.framesize (u.framesize + u.framesize / 2) 2).flatMap fun j => [j + 1, j]

/-- The chroma bytes are half as many as those of luma. -/
theorem length_swappedOffsets (hfour : 4 ∣ u.framesize) :
    u.swappedOffsets.length = u.framesize / 2 := by
  rw [swappedOffsets, length_flatMap_of_length (m := 2) fun _ _ => rfl, length_countUp]
  omega

/-- The loop behind the luma. -/
theorem copies_swapPairs (hsrc : u.framesize * 3 / 2 ≤ nv21Src.size)
    (hdest : u.framesize * 3 / 2 ≤ destData.size) (hfour : 4 ∣ u.framesize) :
    Copies nv21Src destData u.framesize u.swappedOffsets
      (Logged.forEach (fun destData j => do
          let destData ← copyByte nv21Src destData j (j + 1)
          copyByte nv21Src destData (j + 1) j)
        (countUp u.framesize (u.framesize + u.framesize / 2) 2) destData) id := by
  refine copies_forEach_range' (fun _ => rfl) (fun j hj d hd hk => ?_) (by omega)
  obtain ⟨t, ht, rfl⟩ := List.mem_range'.mp hj
  refine (copies_copyByte (by omega) (by omega)).bind fun d₁ hd₁ => ?_
  exact copies_copyByte (by omega) (by rw [hd₁, List.length_singleton]; omega)

/-- Without a turn the frame is copied with its chroma bytes swapped. -/
theorem copies_copyFrame (hsrc : nv21Src.size = u.framesize * 3 / 2)
    (hdest : u.framesize * 3 / 2 ≤ destData.size) (hfour : 4 ∣ u.framesize) :
    Copies nv21Src destData 0 (List.range' 0 u.framesize ++ u.swappedOffsets)
      (u.copyFrame nv21Src destData) id := by
  refine (copies_memcpyLogged (by omega) (by omega)).bind fun d hd => ?_
  rw [List.length_range', Nat.zero_add]
  exact copies_swapPairs (by omega) (by rw [hd]; exact hdest) hfour

/-- The offset of one byte of a pair. -/
theorem getElem?_swappedOffsets {t e : Nat} (ht : t < u.framesize / 4) (he : e < 2) :
    u.swappedOffsets[t * 2 + e]? = [u.framesize + t * 2 + 1, u.framesize + t * 2][e]? := by
  have hin : t < (countUp u.framesize (u.framesize + u.framesize / 2) 2).length := by
    rw [length_countUp]
    omega
  have hcell := getElem?_flatMap_of_length (f := fun j => [j + 1, j]) (m := 2)
    (fun _ _ => rfl) hin he
  rw [(List.getElem_eq_iff hin).mpr (getElem?_countUp (by omega)), Nat.mul_comm 2 t] at hcell
  exact hcell

/-- The byte behind the luma that comes from a pair of the source. -/
theorem byte_swapped {t e p : Nat} (ht : t < u.framesize / 4)
    (hslice : destData.slice 0 (List.range' 0 u.framesize ++ u.swappedOffsets).length =
      (List.range' 0 u.framesize ++ u.swappedOffsets).map nv21Src.byte) (he : e < 2)
    (hp : [u.framesize + t * 2 + 1, u.framesize + t * 2][e]? = some p) :
    destData.byte (u.framesize + (t * 2 + e)) = nv21Src.byte p := by
  apply byte_of_slice hslice
  have hlen : (List.range' 0 u.framesize).length = u.framesize := List.length_range'
  rw [List.getElem?_append_right (by omega), hlen, Nat.add_sub_cancel_left,
    getElem?_swappedOffsets ht he, hp]

/-- A frame of even sides has whole squares. -/
theorem four_dvd_framesize (hw : Even u.frameWidth) (hh : Even u.frameHeight) :
    4 ∣ u.framesize :=
  mul_dvd_mul hw.two_dvd hh.two_dvd

/-- The frame is copied with its pairs swapped, each byte written once. -/
theorem copyFrame_eq (hw : Even u.frameWidth) (hh : Even u.frameHeight)
    (hsrc : nv21Src.size = u.framesize * 3 / 2) (hdest : u.framesize * 3 / 2 ≤ destData.size) :
    ∃ destData', u.copyFrame nv21Src destData =
        ⟨List.range (u.framesize * 3 / 2), .ok destData'⟩ ∧ destData'.size = destData.size ∧
      (nv21 u.frameWidth u.frameHeight nv21Src).Turned .upright
        (nv12 u.frameWidth u.frameHeight destData') := by
  have hfour := u.four_dvd_framesize hw hh
  obtain ⟨destData', hrun, hsize, hslice⟩ := copies_copyFrame hsrc hdest hfour
  have hlen : (List.range' 0 u.framesize ++ u.swappedOffsets).length = u.framesize * 3 / 2 := by
    rw [List.length_append, List.length_range', length_swappedOffsets hfour]
    omega
  rw [Nat.zero_add, Block.slice_zero, List.nil_append] at hslice
  refine ⟨destData', ?_, hsize, ⟨rfl, fun x y hx hy => ?_⟩, rfl, fun x y hx hy => ?_⟩
  · rw [hrun, hlen, List.range_eq_range']
    rfl
  · have hin : y * u.frameWidth + x < (List.range' 0 u.framesize).length := by
      rw [List.length_range']
      exact luma_lt hx hy
    refine byte_of_slice hslice ?_
    rw [List.getElem?_append_left hin, List.getElem?_eq_getElem hin, List.getElem_range']
    exact congrArg some (by omega)
  · change x < u.frameWidth / 2 at hx
    change y < u.frameHeight / 2 at hy
    obtain ⟨a, ha⟩ := hw.two_dvd
    have hpair : y * u.frameWidth + 2 * x = (y * a + x) * 2 := by
      rw [ha]
      ring
    have hbehind : u.framesize + (y * u.frameWidth + 2 * x) + 1 < u.framesize * 3 / 2 :=
      pair_lt hw hh hx hy
    have hin : y * a + x < u.framesize / 4 := by omega
    have hu := byte_swapped hin hslice Nat.two_pos rfl
    have hv := byte_swapped hin hslice Nat.one_lt_two rfl
    rw [← hpair] at hu hv
    apply Prod.ext
    · exact hu
    · exact hv

/-- In front of the watermark the target holds the NV12 image of the NV21 frame, turned
clockwise by the angle, and each of its bytes has been written once. -/
theorem convertFrame_turned {r : Rotation} (hr : u.rotation = r.degrees)
    (hw : Even u.frameWidth) (hh : Even u.frameHeight)
    (hsrc : nv21Src.size = u.frameWidth * u.frameHeight * 3 / 2)
    (hdest : u.frameWidth * u.frameHeight * 3 / 2 ≤ destData.size) :
    ∃ destData', u.convertFrame nv21Src destData =
        ⟨List.range (u.frameWidth * u.frameHeight * 3 / 2),
          .ok (destData', some (r.size u.frameWidth u.frameHeight).1)⟩ ∧
      destData'.size = destData.size ∧
      (nv21 u.frameWidth u.frameHeight nv21Src).Turned r
        (nv12 (r.size u.frameWidth u.frameHeight).1 (r.size u.frameWidth u.frameHeight).2
          destData') := by
  cases r with
  | upright =>
    obtain ⟨d, hrun, hsize, hturned⟩ := copyFrame_eq hw hh hsrc hdest
    have h₀ : u.rotation = 0 := hr
    refine ⟨d, ?_, hsize, hturned⟩
    rw [convertFrame, if_pos h₀, hrun, Logged.mk_bind_pure]
    rfl
  | right =>
    obtain ⟨d, hrun, hsize, hturned⟩ := (follows_scan90 hw hh).rotateFrame_eq hw hh hsrc hdest
    have h₉₀ : u.rotation = 90 := hr
    refine ⟨d, ?_, hsize, hturned⟩
    rw [convertFrame, if_neg (by omega), if_pos h₉₀, hrun, Logged.mk_bind_pure]
    rfl
  | left =>
    obtain ⟨d, hrun, hsize, hturned⟩ := (follows_scan270 hw hh).rotateFrame_eq hw hh hsrc hdest
    have h₂₇₀ : u.rotation = 270 := hr
    refine ⟨d, ?_, hsize, hturned⟩
    rw [convertFrame, if_neg (by omega), if_neg (by omega), if_pos h₂₇₀, hrun,
      Logged.mk_bind_pure]
    rfl

/-- A frame of two by four pixels, turned to the right. -/
theorem convertFrame_turned_twoByFour :
    ∃ destData', (⟨2, 4, 90⟩ : YuvUtils).convertFrame
        (.ofList [1, 2, 3, 4, 5, 6, 7, 8, 0x10, 0x11, 0x20, 0x21]) (.fill 12 0) =
        ⟨List.range 12, .ok (destData', some 4)⟩ ∧
      destData'.size = 12 ∧
      (nv21 2 4 (.ofList [1, 2, 3, 4, 5, 6, 7, 8, 0x10, 0x11, 0x20, 0x21])).Turned .right
        (nv12 4 2 destData') :=
  YuvUtils.convertFrame_turned (u := ⟨2, 4, 90⟩) (r := .right) rfl (by decide) (by decide) rfl
    (Nat.le_refl 12)

end YuvUtils

end Jrtplib4Android
