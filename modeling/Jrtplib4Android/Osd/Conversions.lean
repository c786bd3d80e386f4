import Jrtplib4Android.Core.Stores
import Jrtplib4Android.Osd.Rotation

/-!
# The conversions from NV21 to NV12

Three functions make an NV12 frame of an NV21 frame: `nv21ToNv12`, `addOsd` without a
rotation, and `swapNV21ToNV12` on the Java side. Each is compared with what the formats say:
the same luma, and behind it every pair of chroma bytes in the other order.
-/

namespace Jrtplib4Android

open CSem

/-- `nv21ToNv12`; both arrays are handed back to the caller. -/
def YuvUtils.nv21ToNv12 (nv21Src nv12Dest : Block) (width height : Nat) :
    Logged Nat (Block × Block) := do
  let framesize := width * height
  -- the source is the first argument of this `memcpy`
  let nv21Src ← memcpyLogged nv21Src 0 nv12Dest 0 framesize
  let nv12Dest ← Logged.forEach (fun nv12Dest j => do
      let nv12Dest ← copyByte nv21Src nv12Dest j (j + 1)
      copyByte nv21Src nv12Dest (j + 1) j)
    (countUp framesize (framesize + framesize / 2) 2) nv12Dest
  return (nv21Src, nv12Dest)

/-- `swapNV21ToNV12`, for two arrays that are not null. -/
def CameraHelper.swapNV21ToNV12 (nv21 nv12 : Block) (width height : Nat) : Logged Nat Block := do
  let framesize := width * height
  let nv12 ← memcpyLogged nv12 0 nv21 0 framesize
  let nv12 ← Logged.forEach (fun nv12 i => copyByte nv21 nv12 i i) (countUp 0 framesize 1) nv12
  let nv12 ← Logged.forEach (fun nv12 j => copyByte nv21 nv12 (framesize + j - 1) (j + framesize))
    (countUp 0 (framesize / 2) 2) nv12
  Logged.forEach (fun nv12 j => copyByte nv21 nv12 (framesize + j) (j + framesize - 1))
    (countUp 0 (framesize / 2) 2) nv12

/-- The NV12 frame of an NV21 frame with this many pixels. -/
structure SwapsPairs (nv21 : Block) (framesize : Nat) (nv12 : Block) : Prop where
  luma : ∀ p < framesize, nv12.byte p = nv21.byte p
  first : ∀ t < framesize / 4, nv12.byte (framesize + 2 * t) = nv21.byte (framesize + 2 * t + 1)
  second : ∀ t < framesize / 4, nv12.byte (framesize + 2 * t + 1) = nv21.byte (framesize + 2 * t)

/-- The run ends with the source unchanged and its NV12 frame in the target. -/
def Converts (nv21 : Block) (framesize : Nat) (run : Except Fault (Block × Block)) : Prop :=
  ∃ nv21' nv12, run = .ok (nv21', nv12) ∧ nv21'.size = nv21.size ∧
    (∀ p < nv21.size, nv21'.byte p = nv21.byte p) ∧ SwapsPairs nv21 framesize nv12

/-- The run of a conversion that only writes its target. -/
def keeping (nv21 : Block) (run : Except Fault Block) : Except Fault (Block × Block) :=
  run.map fun nv12 => (nv21, nv12)

theorem converts_keeping {nv21 nv12 : Block} {framesize : Nat} {run : Except Fault Block}
    (h : run = .ok nv12) :
    Converts nv21 framesize (keeping nv21 run) ↔ SwapsPairs nv21 framesize nv12 := by
  subst h
  constructor
  · rintro ⟨nv21', nv12', hrun, -, -, hswaps⟩
    cases hrun
    exact hswaps
  · exact fun hswaps => ⟨nv21, nv12, rfl, rfl, fun _ _ => rfl, hswaps⟩

namespace YuvUtils

/-- The loop over the pairs leaves the luma and swaps the pairs. -/
theorem swapPairs_bytes {framesize : Nat} (nv21Src destData : Block) (hfour : 4 ∣ framesize)
    (hsrc : framesize * 3 / 2 ≤ nv21Src.size) (hdest : framesize * 3 / 2 ≤ destData.size) :
    ∃ destData', (Logged.forEach (fun destData j => do
          let destData ← copyByte nv21Src destData j (j + 1)
          copyByte nv21Src destData (j + 1) j)
        (countUp framesize (framesize + framesize / 2) 2) destData).result = .ok destData' ∧
      (∀ p < framesize, destData'.byte p = destData.byte p) ∧
      (∀ t < framesize / 4,
        destData'.byte (framesize + 2 * t) = nv21Src.byte (framesize + 2 * t + 1)) ∧
      ∀ t < framesize / 4,
        destData'.byte (framesize + 2 * t + 1) = nv21Src.byte (framesize + 2 * t) := by
  have hsize : (⟨framesize, 1, 0⟩ : YuvUtils).framesize = framesize := Nat.mul_one framesize
  rw [← hsize] at hfour hsrc hdest
  obtain ⟨destData', hrun, -, hfront, hbehind⟩ := (copies_swapPairs hsrc hdest hfour).bytes
  rw [hsize] at hrun hfront hbehind
  refine ⟨destData', congrArg Logged.result hrun, hfront, fun t ht => ?_, fun t ht => ?_⟩
  · have hget := getElem?_swappedOffsets (u := ⟨framesize, 1, 0⟩) (e := 0)
      (by rw [hsize]; exact ht) Nat.two_pos
    rw [hsize, Nat.mul_comm t 2] at hget
    exact hbehind _ _ hget
  · have hget := getElem?_swappedOffsets (u := ⟨framesize, 1, 0⟩) (e := 1)
      (by rw [hsize]; exact ht) Nat.one_lt_two
    rw [hsize, Nat.mul_comm t 2] at hget
    exact hbehind _ _ hget

section Conversions

variable {w h : Nat} {nv21 nv12 : Block}

/-- `nv21ToNv12` converts a frame exactly if its luma is in the target already. -/
theorem converts_nv21ToNv12_iff (hw : Even w) (hh : Even h) (hsrc : nv21.size = w * h * 3 / 2)
    (hdest : w * h * 3 / 2 ≤ nv12.size) :
    Converts nv21 (w * h) (nv21ToNv12 nv21 nv12 w h).result ↔
      ∀ p < w * h, nv12.byte p = nv21.byte p := by
  have hfour : 4 ∣ w * h := mul_dvd_mul hw.two_dvd hh.two_dvd
  obtain ⟨nv12', hloop, hluma, hfirst, hsecond⟩ :=
    swapPairs_bytes (nv21.copy 0 nv12 0 (w * h)) nv12 hfour (Nat.le_of_eq hsrc.symm) hdest
  have hrun : (nv21ToNv12 nv21 nv12 w h).result = .ok (nv21.copy 0 nv12 0 (w * h), nv12') := by
    have hcopy := result_memcpyLogged nv21 0 nv12 0 (w * h) (by omega) (by omega)
    exact (Logged.result_bind_ok hcopy _).trans (Logged.result_bind_ok hloop _)
  have hkept : ∀ p, w * h ≤ p → (nv21.copy 0 nv12 0 (w * h)).byte p = nv21.byte p :=
    fun p hp => Block.byte_copy_of_le (by omega)
  have hover : ∀ p < w * h, (nv21.copy 0 nv12 0 (w * h)).byte p = nv12.byte p := by
    intro p hp
    rw [Block.byte_copy_of_mem (Nat.zero_le p) (by omega), Nat.zero_add, Nat.sub_zero]
  constructor
  · rintro ⟨nv21', nv12'', hok, -, hunchanged, -⟩ p hp
    rw [hrun] at hok
    cases hok
    rw [← hover p hp]
    exact hunchanged p (by omega)
  · intro hsame
    refine ⟨_, _, hrun, rfl, fun p _ => ?_, ⟨fun p hp => ?_, fun t ht => ?_, fun t ht => ?_⟩⟩
    · by_cases hp : p < w * h
      · rw [hover p hp, hsame p hp]
      · exact hkept p (by omega)
    · rw [hluma p hp, hsame p hp]
    · rw [hfirst t ht, hkept _ (by omega)]
    · rw [hsecond t ht, hkept _ (by omega)]

/-- `addOsd` without a rotation converts every frame. -/
theorem converts_convertFrame (hw : Even w) (hh : Even h) (hsrc : nv21.size = w * h * 3 / 2)
    (hdest : w * h * 3 / 2 ≤ nv12.size) :
    Converts nv21 (w * h)
      (keeping nv21 (((⟨w, h, 0⟩ : YuvUtils).convertFrame nv21 nv12).result.map Prod.fst)) := by
  have hfour : 4 ∣ w * h := mul_dvd_mul hw.two_dvd hh.two_dvd
  obtain ⟨nv12', hloop, hluma, hfirst, hsecond⟩ :=
    swapPairs_bytes nv21 (nv12.copy 0 nv21 0 (w * h)) hfour
      (Nat.le_of_eq hsrc.symm) hdest
  have hrun : (((⟨w, h, 0⟩ : YuvUtils).convertFrame nv21 nv12).result.map Prod.fst) =
      .ok nv12' := by
    have hcopy := result_memcpyLogged nv12 0 nv21 0 (w * h) (by omega) (by omega)
    have hframe : ((⟨w, h, 0⟩ : YuvUtils).copyFrame nv21 nv12).result = .ok nv12' :=
      (Logged.result_bind_ok hcopy _).trans hloop
    rw [convertFrame, if_pos rfl, Logged.result_bind_ok hframe]
    rfl
  rw [converts_keeping hrun]
  refine ⟨fun p hp => ?_, hfirst, hsecond⟩
  rw [hluma p hp, Block.byte_copy_of_mem (Nat.zero_le p) (by omega), Nat.zero_add, Nat.sub_zero]

end Conversions

end YuvUtils

namespace CameraHelper

/-- What `swapNV21ToNV12` leaves in the target: the pairs begin one byte too early, and each
byte of a pair comes from the next byte of the source but one. -/
structure Shifted (nv21 : Block) (framesize : Nat) (old nv12 : Block) : Prop where
  luma : ∀ p, p + 1 < framesize → nv12.byte p = nv21.byte p
  lastLuma : 0 < framesize → nv12.byte (framesize - 1) = nv21.byte framesize
  first : ∀ t < framesize / 4, nv12.byte (framesize + 2 * t) = nv21.byte (framesize + 2 * t - 1)
  second : ∀ t, t + 1 < framesize / 4 →
    nv12.byte (framesize + 2 * t + 1) = nv21.byte (framesize + 2 * t + 2)
  last : 0 < framesize →
    nv12.byte (framesize + framesize / 2 - 1) = old.byte (framesize + framesize / 2 - 1)

variable {w h : Nat} {nv21 nv12 : Block}

/-- The stores of the three loops. -/
def swapStores (nv21 : Block) (framesize : Nat) : List (Nat × UInt8) :=
  (countUp 0 framesize 1).map (fun i => (i, nv21.byte i)) ++
    ((countUp 0 (framesize / 2) 2).map (fun j => (framesize + j - 1, nv21.byte (j + framesize))) ++
      (countUp 0 (framesize / 2) 2).map fun j => (framesize + j, nv21.byte (j + framesize - 1)))

theorem mem_pairs {framesize j : Nat} (hfour : 4 ∣ framesize) :
    j ∈ countUp 0 (framesize / 2) 2 ↔ ∃ t < framesize / 4, j = 2 * t := by
  rw [mem_countUp]
  have hcount : (framesize / 2 - 0 + (2 - 1)) / 2 = framesize / 4 := by omega
  simp only [hcount, Nat.zero_add]

theorem swapNV21ToNV12_eq (hfour : 4 ∣ w * h) (hsrc : nv21.size = w * h * 3 / 2)
    (hdest : w * h * 3 / 2 ≤ nv12.size) : (swapNV21ToNV12 nv21 nv12 w h).result =
      .ok ((nv12.copy 0 nv21 0 (w * h)).put (swapStores nv21 (w * h))) := by
  have hcopy := result_memcpyLogged nv12 0 nv21 0 (w * h) (by omega) (by omega)
  have hloops : Stores (nv12.copy 0 nv21 0 (w * h)) (swapStores nv21 (w * h))
      (do
        let d ← Logged.forEach (fun d i => copyByte nv21 d i i) (countUp 0 (w * h) 1)
          (nv12.copy 0 nv21 0 (w * h))
        let d ← Logged.forEach (fun d j => copyByte nv21 d (w * h + j - 1) (j + w * h))
          (countUp 0 (w * h / 2) 2) d
        Logged.forEach (fun d j => copyByte nv21 d (w * h + j) (j + w * h - 1))
          (countUp 0 (w * h / 2) 2) d) id := by
    refine (stores_copyLoop (fun i hi => ?_) _).bind fun d _ =>
      (stores_copyLoop (fun j hj => ?_) d).bind fun d _ => stores_copyLoop (fun j hj => ?_) d
    · obtain ⟨t, ht, rfl⟩ := mem_countUp.mp hi
      omega
    · obtain ⟨t, ht, rfl⟩ := (mem_pairs hfour).mp hj
      omega
    · obtain ⟨t, ht, rfl⟩ := (mem_pairs hfour).mp hj
      omega
  have hfits : Fits (nv12.copy 0 nv21 0 (w * h)).size (swapStores nv21 (w * h)) := by
    change Fits nv12.size _
    refine fits_append.mpr ⟨?_, fits_append.mpr ⟨?_, ?_⟩⟩
    · rintro x hx
      obtain ⟨i, hi, rfl⟩ := List.mem_map.mp hx
      obtain ⟨t, ht, rfl⟩ := mem_countUp.mp hi
      change 0 + 1 * t < nv12.size
      omega
    · rintro x hx
      obtain ⟨j, hj, rfl⟩ := List.mem_map.mp hx
      obtain ⟨t, ht, rfl⟩ := (mem_pairs hfour).mp hj
      change w * h + 2 * t - 1 < nv12.size
      omega
    · rintro x hx
      obtain ⟨j, hj, rfl⟩ := List.mem_map.mp hx
      obtain ⟨t, ht, rfl⟩ := (mem_pairs hfour).mp hj
      change w * h + 2 * t < nv12.size
      omega
  exact (Logged.result_bind_ok hcopy _).trans (congrArg Logged.result (hloops.fits hfits))

section Bytes

variable {framesize : Nat} {d : Block}

/-- The first loop leaves what has been copied before. -/
theorem byte_lumaStores (p : Nat) (h : p < framesize → d.byte p = nv21.byte p) :
    (d.put ((countUp 0 framesize 1).map fun i => (i, nv21.byte i))).byte p = d.byte p := by
  by_cases hp : p < framesize
  · rw [h hp]
    apply Block.byte_put_of_mem
    · exact List.mem_map.mpr ⟨p, mem_countUp.mpr ⟨p, by omega, by omega⟩, rfl⟩
    · intro x hx hxp
      obtain ⟨i, -, rfl⟩ := List.mem_map.mp hx
      exact congrArg nv21.byte hxp
  · apply Block.byte_put_of_forall_ne
    intro x hx hxp
    obtain ⟨i, hi, rfl⟩ := List.mem_map.mp hx
    obtain ⟨t, ht, rfl⟩ := mem_countUp.mp hi
    exact hp (by omega)

/-- A loop over the pairs stores one byte for each of them. -/
theorem byte_pairStores (nv21 d : Block) {f g : Nat → Nat} (hfour : 4 ∣ framesize) {t : Nat}
    (ht : t < framesize / 4) (hinj : ∀ u < framesize / 4, f (2 * u) = f (2 * t) → u = t) :
    (d.put ((countUp 0 (framesize / 2) 2).map fun j => (f j, nv21.byte (g j)))).byte (f (2 * t)) =
      nv21.byte (g (2 * t)) := by
  apply Block.byte_put_of_mem
  · exact List.mem_map.mpr ⟨2 * t, (mem_pairs hfour).mpr ⟨t, ht, rfl⟩, rfl⟩
  · intro x hx hxp
    obtain ⟨j, hj, rfl⟩ := List.mem_map.mp hx
    obtain ⟨u, hu, rfl⟩ := (mem_pairs hfour).mp hj
    rw [hinj u hu hxp]

/-- Other bytes it leaves. -/
theorem byte_pairStores_of_ne {f g : Nat → Nat} (hfour : 4 ∣ framesize) {p : Nat}
    (hp : ∀ t < framesize / 4, f (2 * t) ≠ p) :
    (d.put ((countUp 0 (framesize / 2) 2).map fun j => (f j, nv21.byte (g j)))).byte p =
      d.byte p := by
  apply Block.byte_put_of_forall_ne
  intro x hx
  obtain ⟨j, hj, rfl⟩ := List.mem_map.mp hx
  obtain ⟨t, ht, rfl⟩ := (mem_pairs hfour).mp hj
  exact hp t ht

/-- The second loop reaches one byte into the luma, and the third one starts there. -/
theorem shifted_swapStores (hfour : 4 ∣ framesize) :
    Shifted nv21 framesize nv12
      ((nv12.copy 0 nv21 0 framesize).put (swapStores nv21 framesize)) := by
  have hcopied : ∀ p < framesize, (nv12.copy 0 nv21 0 framesize).byte p = nv21.byte p := by
    intro p hp
    rw [Block.byte_copy_of_mem (Nat.zero_le p) (by omega), Nat.zero_add, Nat.sub_zero]
  have hluma := fun p => byte_lumaStores p (hcopied p)
  rw [swapStores, Block.put_append, Block.put_append]
  refine ⟨fun p hp => ?_, fun hpos => ?_, fun t ht => ?_, fun t ht => ?_, fun hpos => ?_⟩
  · rw [byte_pairStores_of_ne hfour fun t _ => by omega,
      byte_pairStores_of_ne hfour fun t _ => by omega, hluma p, hcopied p (by omega)]
  · rw [byte_pairStores_of_ne hfour fun t _ => by omega]
    have hfirst := byte_pairStores nv21 ((nv12.copy 0 nv21 0 framesize).put
        ((countUp 0 framesize 1).map fun i => (i, nv21.byte i)))
      (f := fun j => framesize + j - 1) (g := fun j => j + framesize) (t := 0)
      hfour (by omega) fun u _ hu => by omega
    simpa only [Nat.mul_zero, Nat.add_zero, Nat.zero_add] using hfirst
  · rw [byte_pairStores nv21 _ (f := fun j => framesize + j) (g := fun j => j + framesize - 1)
      hfour ht fun u _ hu => by omega, Nat.add_comm]
  · rw [byte_pairStores_of_ne hfour fun u _ => by omega]
    have hnext := byte_pairStores nv21 ((nv12.copy 0 nv21 0 framesize).put
        ((countUp 0 framesize 1).map fun i => (i, nv21.byte i)))
      (f := fun j => framesize + j - 1) (g := fun j => j + framesize) (t := t + 1)
      hfour ht fun u _ hu => by omega
    have hat : framesize + 2 * (t + 1) - 1 = framesize + 2 * t + 1 := by omega
    have hfrom : 2 * (t + 1) + framesize = framesize + 2 * t + 2 := by omega
    rw [hat, hfrom] at hnext
    exact hnext
  · rw [byte_pairStores_of_ne hfour fun u hu => by omega,
      byte_pairStores_of_ne hfour fun u hu => by omega, byte_lumaStores _ (hcopied _),
      Block.byte_copy_of_le (by omega)]

/-- Where the shifted pairs are the swapped ones, each byte is the next one but one. -/
theorem pair_eq_of_swapsPairs {old : Block} (hs : Shifted nv21 framesize old nv12)
    (hswaps : SwapsPairs nv21 framesize nv12) {t : Nat} (ht : t < framesize / 4) :
    nv21.byte (framesize + 2 * t) = nv21.byte (framesize - 1) ∧
      nv21.byte (framesize + 2 * t + 1) = nv21.byte (framesize - 1) := by
  have hsecond := (hswaps.first t ht).symm.trans (hs.first t ht)
  induction t with
  | zero => exact ⟨(hs.lastLuma (by omega)).symm.trans (hswaps.luma _ (by omega)), hsecond⟩
  | succ t ih =>
    have hlt : t < framesize / 4 := Nat.lt_of_succ_lt ht
    obtain ⟨heven, hodd⟩ := ih hlt ((hswaps.first t hlt).symm.trans (hs.first t hlt))
    have hback : framesize + 2 * (t + 1) - 1 = framesize + 2 * t + 1 := by omega
    rw [hback, hodd] at hsecond
    refine ⟨?_, hsecond⟩
    calc nv21.byte (framesize + 2 * (t + 1)) = nv12.byte (framesize + 2 * t + 1) :=
          (hs.second t ht).symm
      _ = nv21.byte (framesize + 2 * t) := hswaps.second t hlt
      _ = nv21.byte (framesize - 1) := heven

/-- Where all chroma is the last luma byte, the shift does not show. -/
theorem swapsPairs_of_same (hfour : 4 ∣ framesize) {old : Block}
    (hs : Shifted nv21 framesize old nv12)
    (hsame : ∀ p < framesize / 2, nv21.byte (framesize + p) = nv21.byte (framesize - 1))
    (hold : 0 < framesize →
      old.byte (framesize + framesize / 2 - 1) = nv21.byte (framesize - 1)) :
    SwapsPairs nv21 framesize nv12 := by
  have hchroma : ∀ p, framesize - 1 ≤ p → p < framesize + framesize / 2 →
      nv21.byte p = nv21.byte (framesize - 1) := by
    intro p hlo hhi
    by_cases hp : p = framesize - 1
    · rw [hp]
    · have hchroma := hsame (p - framesize) (by omega)
      rwa [Nat.add_sub_cancel' (by omega)] at hchroma
  refine ⟨fun p hp => ?_, fun t ht => ?_, fun t ht => ?_⟩
  · by_cases hlast : p + 1 < framesize
    · exact hs.luma p hlast
    · obtain rfl : p = framesize - 1 := by omega
      rw [hs.lastLuma (by omega), hchroma _ (by omega) (by omega)]
  · rw [hs.first t ht]
    exact (hchroma _ (by omega) (by omega)).trans (hchroma _ (by omega) (by omega)).symm
  · by_cases hlast : t + 1 < framesize / 4
    · rw [hs.second t hlast]
      exact (hchroma _ (by omega) (by omega)).trans (hchroma _ (by omega) (by omega)).symm
    · have hend : framesize + 2 * t + 1 = framesize + framesize / 2 - 1 := by omega
      rw [hend, hs.last (by omega), hold (by omega)]
      exact (hchroma _ (by omega) (by omega)).symm

/-- The shifted pairs are the swapped ones exactly if all chroma is the last luma byte. -/
theorem swapsPairs_iff (hfour : 4 ∣ framesize) {old : Block}
    (hs : Shifted nv21 framesize old nv12) :
    SwapsPairs nv21 framesize nv12 ↔ (0 < framesize →
      (∀ p < framesize / 2, nv21.byte (framesize + p) = nv21.byte (framesize - 1)) ∧
      old.byte (framesize + framesize / 2 - 1) = nv21.byte (framesize - 1)) := by
  constructor
  · intro hswaps hpos
    refine ⟨fun p hp => ?_, ?_⟩
    · obtain ⟨heven, hodd⟩ := pair_eq_of_swapsPairs hs hswaps (t := p / 2) (by omega)
      rcases Nat.mod_two_eq_zero_or_one p with hmod | hmod
      · rwa [show 2 * (p / 2) = p by omega] at heven
      · rwa [Nat.add_assoc, show 2 * (p / 2) + 1 = p by omega] at hodd
    · have hlast : framesize + framesize / 2 - 1 = framesize + 2 * (framesize / 4 - 1) + 1 := by
        omega
      rw [← hs.last hpos, hlast, hswaps.second _ (by omega)]
      exact (pair_eq_of_swapsPairs hs hswaps (by omega)).1
  · intro hsame
    exact swapsPairs_of_same hfour hs (fun p hp => (hsame (by omega)).1 p hp)
      fun hpos => (hsame hpos).2

end Bytes

/-- `swapNV21ToNV12` converts a frame exactly if all its chroma, and what the target has at
its end, is the last luma byte. -/
theorem converts_swapNV21ToNV12_iff (hw : Even w) (hh : Even h)
    (hsrc : nv21.size = w * h * 3 / 2) (hdest : w * h * 3 / 2 ≤ nv12.size) :
    Converts nv21 (w * h) (keeping nv21 (swapNV21ToNV12 nv21 nv12 w h).result) ↔
      (0 < w * h → (∀ p < w * h / 2, nv21.byte (w * h + p) = nv21.byte (w * h - 1)) ∧
        nv12.byte (w * h + w * h / 2 - 1) = nv21.byte (w * h - 1)) := by
  have hfour : 4 ∣ w * h := mul_dvd_mul hw.two_dvd hh.two_dvd
  rw [converts_keeping (swapNV21ToNV12_eq hfour hsrc hdest)]
  exact swapsPairs_iff hfour (shifted_swapStores hfour)

end CameraHelper

/-- The three conversions all make the NV12 frame and leave the source, exactly if the target
of `nv21ToNv12` holds the luma already, and all chroma of the frame and the last byte in the
target of `swapNV21ToNV12` are the last luma byte. -/
theorem conversions_iff {w h : Nat} (hw : Even w) (hh : Even h) {nv21 dest₁ dest₂ dest₃ : Block}
    (hsrc : nv21.size = w * h * 3 / 2) (h₁ : w * h * 3 / 2 ≤ dest₁.size)
    (h₂ : w * h * 3 / 2 ≤ dest₂.size) (h₃ : w * h * 3 / 2 ≤ dest₃.size) :
    (Converts nv21 (w * h) (YuvUtils.nv21ToNv12 nv21 dest₁ w h).result ∧
      Converts nv21 (w * h)
        (keeping nv21 (((⟨w, h, 0⟩ : YuvUtils).convertFrame nv21 dest₂).result.map Prod.fst)) ∧
      Converts nv21 (w * h) (keeping nv21 (CameraHelper.swapNV21ToNV12 nv21 dest₃ w h).result)) ↔
    (∀ p < w * h, dest₁.byte p = nv21.byte p) ∧
      (0 < w * h → (∀ p < w * h / 2, nv21.byte (w * h + p) = nv21.byte (w * h - 1)) ∧
        dest₃.byte (w * h + w * h / 2 - 1) = nv21.byte (w * h - 1)) := by
  rw [YuvUtils.converts_nv21ToNv12_iff hw hh hsrc h₁,
    CameraHelper.converts_swapNV21ToNV12_iff hw hh hsrc h₃]
  exact and_congr_right fun _ => and_iff_right (YuvUtils.converts_convertFrame hw hh hsrc h₂)

/-- A grey frame of two by two pixels, and targets that hold it. -/
theorem conversions_iff_grey :
    (Converts (.fill 6 128) 4 (YuvUtils.nv21ToNv12 (.fill 6 128) (.fill 6 128) 2 2).result ∧
      Converts (.fill 6 128) 4 (keeping (.fill 6 128)
        (((⟨2, 2, 0⟩ : YuvUtils).convertFrame (.fill 6 128) (.fill 6 0)).result.map Prod.fst)) ∧
      Converts (.fill 6 128) 4 (keeping (.fill 6 128)
        (CameraHelper.swapNV21ToNV12 (.fill 6 128) (.fill 6 128) 2 2).result)) :=
  (conversions_iff (w := 2) (h := 2) even_two even_two rfl (Nat.le_refl 6) (Nat.le_refl 6)
    (Nat.le_refl 6)).mpr ⟨fun _ _ => rfl, fun _ => ⟨fun _ _ => rfl, rfl⟩⟩

/-- `nv21ToNv12` with a cleared target loses the luma of source and target, and
`swapNV21ToNV12` gives the last luma byte to the chroma. -/
theorem not_conversions_twoByTwo :
    ¬ Converts (.ofList [1, 2, 3, 4, 5, 6]) 4
        (YuvUtils.nv21ToNv12 (.ofList [1, 2, 3, 4, 5, 6]) (.fill 6 0) 2 2).result ∧
      ¬ Converts (.ofList [1, 2, 3, 4, 5, 6]) 4 (keeping (.ofList [1, 2, 3, 4, 5, 6])
        (CameraHelper.swapNV21ToNV12 (.ofList [1, 2, 3, 4, 5, 6]) (.fill 6 0) 2 2).result) := by
  constructor
  · intro h
    have hluma := (YuvUtils.converts_nv21ToNv12_iff even_two even_two rfl (Nat.le_refl 6)).mp h
    exact absurd (hluma 0 (by decide)) (by decide)
  · intro h
    have hchroma :=
      (CameraHelper.converts_swapNV21ToNV12_iff even_two even_two rfl (Nat.le_refl 6)).mp h
    exact absurd ((hchroma (by decide)).1 0 (by decide)) (by decide)

end Jrtplib4Android
