import Jrtplib4Android.Osd.Watermark

/-!
# The safety of the watermark

The table of the glyphs, the string, the row width and the place of the text are sized by
numbers that nothing compares. The accesses stay in range exactly for the configurations that
are told here.
-/

namespace Jrtplib4Android

open CSem

/-- The chroma that the turning loops write has room behind the luma. -/
theorem chroma_fits_iff (w h : Nat) :
    w * h + (w + 1) / 2 * (h / 2 * 2) ≤ w * h * 3 / 2 ↔ Even w ∨ h = 0 ∨ Odd h ∧ h ≤ w := by
  rcases Nat.even_or_odd' w with ⟨a, rfl | rfl⟩
  · refine iff_of_true ?_ (.inl (even_two_mul a))
    have hhalf : (2 * a + 1) / 2 = a := by omega
    have hframe : 2 * a * h = 2 * (a * h) := Nat.mul_assoc 2 a h
    have hrows : a * (h / 2 * 2) ≤ a * h := Nat.mul_le_mul_left a (by omega)
    rw [hhalf]
    omega
  · have hodd : ¬ Even (2 * a + 1) := Nat.not_even_two_mul_add_one a
    have hhalf : (2 * a + 1 + 1) / 2 = a + 1 := by omega
    rw [or_iff_right hodd, hhalf]
    rcases Nat.even_or_odd' h with ⟨b, rfl | rfl⟩
    · have heven : ¬ Odd (2 * b) := Nat.not_odd_iff_even.mpr (even_two_mul b)
      have hframe : (2 * a + 1) * (2 * b) = 4 * (a * b) + 2 * b := by ring
      have hchroma : (a + 1) * (2 * b / 2 * 2) = 2 * (a * b) + 2 * b := by
        rw [Nat.mul_div_cancel_left b Nat.two_pos]
        ring
      rw [or_iff_left (fun h => heven h.1)]
      omega
    · have hpos : 2 * b + 1 ≠ 0 := Nat.succ_ne_zero _
      have hframe : (2 * a + 1) * (2 * b + 1) = 4 * (a * b) + 2 * a + 2 * b + 1 := by ring
      have hrows : (2 * b + 1) / 2 = b := by omega
      have hchroma : (a + 1) * (b * 2) = 2 * (a * b) + 2 * b := by ring
      rw [or_iff_right hpos, and_iff_right (odd_two_mul_add_one b), hrows]
      omega

namespace Scan

variable {scan : Scan} {nv21Src destData : Block} {w h : Nat}

/-- A branch that turns the frame ends well exactly if the chroma has room. -/
theorem rotateFrame_ok_iff (his : scan.is.length = w) (hjs : scan.js.length = h)
    (huvIs : scan.uvIs.length = (w + 1) / 2) (huvJs : scan.uvJs.length = h / 2)
    (hluma : ∀ i ∈ scan.is, ∀ j ∈ scan.js, i < w ∧ j < h)
    (hchroma : w * h + (w + 1) / 2 * (h / 2 * 2) ≤ w * h * 3 / 2 →
      ∀ i ∈ scan.uvIs, ∀ j ∈ scan.uvJs,
        scan.first i j < w * h * 3 / 2 ∧ scan.second i j < w * h * 3 / 2)
    (hsrc : nv21Src.size = w * h * 3 / 2) (hdest : destData.size = w * h * 3 / 2) :
    (∃ d, (scan.rotateFrame nv21Src destData w).result = .ok d) ↔
      w * h + (w + 1) / 2 * (h / 2 * 2) ≤ w * h * 3 / 2 := by
  rw [(transfers_rotateFrame scan nv21Src destData w).ok_iff (Nat.zero_le _), List.length_append,
    length_lumaOffsets, length_chromaOffsets, his, hjs, huvIs, huvJs, Nat.mul_one, Nat.zero_add,
    hdest, hsrc]
  refine and_iff_right_of_imp fun hfits p hp => ?_
  rcases List.mem_append.mp hp with hp | hp
  · obtain ⟨i, hi, hp⟩ := List.mem_flatMap.mp hp
    obtain ⟨j, hj, hp⟩ := List.mem_flatMap.mp hp
    obtain ⟨hiw, hjh⟩ := hluma i hi j hj
    rw [List.mem_singleton.mp hp]
    exact Nat.lt_of_lt_of_le (luma_lt hiw hjh) (by omega)
  · obtain ⟨i, hi, hp⟩ := List.mem_flatMap.mp hp
    obtain ⟨j, hj, hp⟩ := List.mem_flatMap.mp hp
    obtain ⟨hfirst, hsecond⟩ := hchroma hfits i hi j hj
    rcases List.mem_cons.mp hp with rfl | hp
    · exact hfirst
    · exact List.mem_singleton.mp hp ▸ hsecond

end Scan

/-- The sizes whose frames of one and a half bytes for each pixel the conversion stays in. -/
def Convertible (rotation : Int) (w h : Nat) : Prop :=
  rotation = 0 ∧ Even (w * h / 2) ∨
    (rotation = 90 ∨ rotation = 270) ∧ (Even w ∨ h = 0 ∨ Odd h ∧ h ≤ w)

namespace YuvUtils

variable {u : YuvUtils} {nv21Src destData : Block}

/-- A row of pairs lies in the chroma. -/
theorem pairRow_lt {w h i j : Nat} (hi : i < w) (hj : j < h / 2) :
    w * h + w * j + i < w * h * 3 / 2 := by
  have hcell : j * w + i < w * (h / 2) := luma_lt hi hj
  have hrow : w * j = j * w := Nat.mul_comm w j
  have hhalf : 2 * (w * (h / 2)) ≤ w * h := by
    rw [Nat.mul_left_comm]
    exact Nat.mul_le_mul_left w (by omega)
  omega

theorem rotate90_ok_iff (hsrc : nv21Src.size = u.frameWidth * u.frameHeight * 3 / 2)
    (hdest : destData.size = u.frameWidth * u.frameHeight * 3 / 2) :
    (∃ d, (u.scan90.rotateFrame nv21Src destData u.frameWidth).result = .ok d) ↔
      Even u.frameWidth ∨ u.frameHeight = 0 ∨ Odd u.frameHeight ∧ u.frameHeight ≤ u.frameWidth := by
  have hshift : u.frameHeight >>> 1 = u.frameHeight / 2 := Nat.shiftRight_one _
  rw [← chroma_fits_iff]
  refine Scan.rotateFrame_ok_iff ?_ ?_ ?_ ?_ (fun i hi j hj => ?_) (fun hfits i hi j hj => ?_)
    hsrc hdest
  · exact (length_countUp ..).trans (by omega)
  · exact (length_countDown ..).trans (by omega)
  · exact (length_countUp ..).trans (by omega)
  · exact (length_countDown ..).trans (by omega)
  · exact ⟨lt_of_mem_countUp Nat.one_pos hi, lt_of_mem_countDown hj⟩
  · have hiw : i < u.frameWidth := lt_of_mem_countUp Nat.two_pos hi
    have hjh : j < u.frameHeight / 2 := hshift ▸ lt_of_mem_countDown hj
    refine ⟨?_, pairRow_lt hiw hjh⟩
    change u.framesize + u.frameWidth * j + i + 1 < _
    rcases Nat.lt_or_ge (i + 1) u.frameWidth with hnext | hlast
    · exact pairRow_lt hnext hjh
    · -- the last pair of an odd width begins at the last pixel
      obtain ⟨t, -, rfl⟩ := mem_countUp.mp hi
      have hwidth : u.frameWidth = 2 * t + 1 := by omega
      have hpairs : (u.frameWidth + 1) / 2 * (u.frameHeight / 2 * 2) =
          u.frameWidth * (u.frameHeight / 2) + u.frameHeight / 2 := by
        have hhalf : (2 * t + 1 + 1) / 2 = t + 1 := by omega
        rw [hwidth, hhalf]
        ring
      have hrow : u.frameWidth * (j + 1) ≤ u.frameWidth * (u.frameHeight / 2) :=
        Nat.mul_le_mul_left _ hjh
      rw [Nat.mul_succ] at hrow
      change u.frameWidth * u.frameHeight + u.frameWidth * j + _ + 1 < _
      omega

theorem rotate270_ok_iff (hsrc : nv21Src.size = u.frameWidth * u.frameHeight * 3 / 2)
    (hdest : destData.size = u.frameWidth * u.frameHeight * 3 / 2) :
    (∃ d, (u.scan270.rotateFrame nv21Src destData u.frameWidth).result = .ok d) ↔
      Even u.frameWidth ∨ u.frameHeight = 0 ∨ Odd u.frameHeight ∧ u.frameHeight ≤ u.frameWidth := by
  have hshift : u.frameHeight >>> 1 = u.frameHeight / 2 := Nat.shiftRight_one _
  rw [← chroma_fits_iff]
  refine Scan.rotateFrame_ok_iff ?_ ?_ ?_ ?_ (fun i hi j hj => ?_) (fun _ i hi j hj => ?_)
    hsrc hdest
  · exact (length_countDown ..).trans (by omega)
  · exact (length_countUp ..).trans (by omega)
  · exact (length_countDown ..).trans (by omega)
  · exact (length_countUp ..).trans (by omega)
  · exact ⟨lt_of_mem_countDown hi, lt_of_mem_countUp Nat.one_pos hj⟩
  · have hjh : j < u.frameHeight / 2 := hshift ▸ lt_of_mem_countUp Nat.one_pos hj
    have hfirst := pairRow_lt (lt_of_mem_countDown hi) hjh
    exact ⟨hfirst, Nat.lt_of_le_of_lt (Nat.sub_le _ 1) hfirst⟩

/-- The swapping loop writes whole pairs. -/
theorem copyFrame_ok_iff (hsrc : nv21Src.size = u.frameWidth * u.frameHeight * 3 / 2)
    (hdest : destData.size = u.frameWidth * u.frameHeight * 3 / 2) :
    (∃ d, (u.copyFrame nv21Src destData).result = .ok d) ↔
      Even (u.frameWidth * u.frameHeight / 2) := by
  rw [(u.guarded_copyFrame nv21Src destData).ok_iff]
  change nv21Src.size = u.framesize * 3 / 2 at hsrc
  change destData.size = u.framesize * 3 / 2 at hdest
  change _ ↔ Even (u.framesize / 2)
  constructor
  · rintro ⟨⟨-, hread⟩, -⟩
    by_contra hodd
    obtain ⟨m, hm⟩ := Nat.not_even_iff_odd.mp hodd
    have hlast := (hread (u.framesize + 2 * m) (mem_countUp.mpr ⟨m, by omega, rfl⟩)).1
    omega
  · rintro ⟨m, hm⟩
    have hpair : ∀ j ∈ countUp u.framesize (u.framesize + u.framesize / 2) 2,
        j + 1 < u.framesize * 3 / 2 := by
      intro j hj
      obtain ⟨t, ht, rfl⟩ := mem_countUp.mp hj
      omega
    refine ⟨⟨fun p hp => ?_, fun j hj => ?_⟩, fits_append.mpr ⟨?_, fun x hx => ?_⟩⟩
    · obtain ⟨t, ht, rfl⟩ := List.mem_range'.mp hp
      omega
    · have hlt := hpair j hj
      omega
    · rw [fits_placed (Nat.zero_le _), List.length_map, List.length_range']
      omega
    · obtain ⟨j, hj, hx⟩ := List.mem_flatMap.mp hx
      have hlt := hpair j hj
      rcases List.mem_cons.mp hx with rfl | hx
      · change j < destData.size
        omega
      · rw [List.mem_singleton.mp hx]
        change j + 1 < destData.size
        omega

/-- The conversion ends well and sets the row width exactly for the convertible sizes. -/
theorem convertFrame_ok_iff (hsrc : nv21Src.size = u.frameWidth * u.frameHeight * 3 / 2)
    (hdest : destData.size = u.frameWidth * u.frameHeight * 3 / 2) :
    (∃ d w, (u.convertFrame nv21Src destData).result = .ok (d, some w)) ↔
      Convertible u.rotation u.frameWidth u.frameHeight := by
  have hwith : ∀ (x : Logged Nat Block) (w' : Nat),
      (∃ d w, (x >>= fun d => pure (d, some w')).result = .ok (d, some w)) ↔
        ∃ d, x.result = .ok d := by
    intro x w'
    rw [Logged.result_bind]
    cases x.result with
    | error e =>
      refine iff_of_false (fun h => ?_) fun h => ?_
      · obtain ⟨d, w, h⟩ := h
        cases h
      · obtain ⟨d, h⟩ := h
        cases h
    | ok d => exact iff_of_true ⟨d, w', rfl⟩ ⟨d, rfl⟩
  unfold convertFrame Convertible
  split
  · rename_i h₀
    rw [hwith, copyFrame_ok_iff hsrc hdest, h₀]
    simp
  split
  · rename_i h₀ h₉₀
    rw [hwith, rotate90_ok_iff hsrc hdest, h₉₀]
    simp
  split
  · rename_i h₀ h₉₀ h₂₇₀
    rw [hwith, rotate270_ok_iff hsrc hdest, h₂₇₀]
    simp
  · rename_i h₀ h₉₀ h₂₇₀
    refine iff_of_false (fun h => by obtain ⟨d, w, h⟩ := h; cases h) fun h => ?_
    rcases h with ⟨h, -⟩ | ⟨h | h, -⟩
    · exact h₀ h
    · exact h₉₀ h
    · exact h₂₇₀ h

end YuvUtils

namespace Osd

/-- Every pixel that `addOsd` draws lies in the row it is meant for, in an output of `rows` rows
of `newFrameW` bytes. -/
def DrawsOnRow (u : Osd) (newFrameW rows : Nat) (date : List UInt16) : Prop :=
  ∀ i < u.dateLen.toNat, ∀ j < numHeight, ∀ k < numWidth, u.Marked date i j k →
    0 ≤ u.offY + j ∧ u.offY + j < rows ∧
      (u.offY + j) * newFrameW ≤ u.offset newFrameW i j k ∧
      u.offset newFrameW i j k < (u.offY + j + 1) * newFrameW

end Osd

/-- The rows of the output. -/
def newFrameH (rotation : Int) (frameWidth frameHeight : Nat) : Nat :=
  if rotation = 0 then frameHeight else frameWidth

/-- A new `YuvUtils` is initialised and the text drawn, with all accesses in range and the text
in its rows. -/
def SafeOsd (granted : Bool) (osdOffX osdOffY patternLen : Int) (frameWidth frameHeight : Nat)
    (rotationAngle : Int) (nv21Src destData : Block) (date : List UInt16) : Prop :=
  ∃ u, initOsd granted osdOffX osdOffY patternLen frameWidth frameHeight rotationAngle = .ok u ∧
    ∃ newFrameW, u.newFrameW = some newFrameW ∧
      (∃ after, (u.addOsd nv21Src destData date).result = .ok after) ∧
      u.DrawsOnRow newFrameW (newFrameH rotationAngle frameWidth frameHeight) date

namespace Osd

variable {u : Osd} {date : List UInt16}

/-- The pixel stands in its row exactly if its column is one of the row. -/
theorem offset_mem_row (u : Osd) (newFrameW i j k : Nat) :
    ((u.offY + j) * newFrameW ≤ u.offset newFrameW i j k ∧
        u.offset newFrameW i j k < (u.offY + j + 1) * newFrameW) ↔
      0 ≤ u.offX + numWidth * i + k ∧ u.offX + numWidth * i + k < newFrameW := by
  have hoffset : u.offset newFrameW i j k =
      (u.offY + j) * newFrameW + (u.offX + numWidth * i + k) := by
    unfold offset
    ring
  have hnext : (u.offY + j + 1) * newFrameW = (u.offY + j) * newFrameW + newFrameW := by ring
  rw [hoffset, hnext]
  omega

/-- A pixel in its row is in the luma. -/
theorem offset_lt {newFrameW rows i j k : Nat} (hrow : 0 ≤ u.offY + j) (hrows : u.offY + j < rows)
    (hlo : (u.offY + j) * newFrameW ≤ u.offset newFrameW i j k)
    (hhi : u.offset newFrameW i j k < (u.offY + j + 1) * newFrameW) :
    0 ≤ u.offset newFrameW i j k ∧ u.offset newFrameW i j k < (newFrameW * rows : Nat) := by
  have hpos : 0 ≤ (u.offY + j) * newFrameW := Int.mul_nonneg hrow (Int.natCast_nonneg _)
  have hlast : (u.offY + j + 1) * newFrameW ≤ rows * newFrameW :=
    Int.mul_le_mul_of_nonneg_right (by omega) (Int.natCast_nonneg _)
  refine ⟨by omega, ?_⟩
  push_cast
  rw [Int.mul_comm (newFrameW : Int)]
  omega

/-- If the pixels lie in their rows, drawing ends well exactly if the characters are there. -/
theorem drawDate_ok_iff (hglyphs : HoldsGlyphs u.mNumArrays) {newFrameW rows : Nat}
    (hrow : u.DrawsOnRow newFrameW rows date) {destData : Block}
    (hsize : newFrameW * rows ≤ destData.size) :
    (∃ after, (u.drawDate newFrameW date destData).result = .ok after) ↔
      u.dateLen.toNat ≤ date.length := by
  rw [(u.guarded_drawDate newFrameW date destData).ok_iff]
  constructor
  · rintro ⟨hread, -⟩
    by_contra hshort
    exact Nat.lt_irrefl _ (hread date.length (List.mem_range.mpr (Nat.lt_of_not_le hshort))).1
  · intro hdate
    refine ⟨fun i hi => ⟨?_, fun j hj k hk => ⟨?_, fun hmarked => ?_⟩⟩, fun x hx => ?_⟩
    · exact Nat.lt_of_lt_of_le (List.mem_range.mp hi) hdate
    · exact hglyphs.lt _ (List.mem_range.mp hj) (List.mem_range.mp hk)
    · obtain ⟨h₁, h₂, h₃, h₄⟩ := hrow i (List.mem_range.mp hi) j (List.mem_range.mp hj) k
        (List.mem_range.mp hk) hmarked
      exact (offset_lt h₁ h₂ h₃ h₄).1
    · obtain ⟨i, hi, j, hj, k, hk, hmarked, rfl⟩ := (u.mem_drawStores newFrameW date).mp hx
      obtain ⟨h₁, h₂, h₃, h₄⟩ := hrow i hi j hj k hk hmarked
      obtain ⟨hpos, hlt⟩ := offset_lt h₁ h₂ h₃ h₄
      change (u.offset newFrameW i j k).toNat < _
      omega

/-- `addOsd` ends well exactly if the conversion does and the text can be drawn. -/
theorem addOsd_ok_iff {nv21Src destData : Block} {newFrameW : Nat}
    (hwidth : u.newFrameW = some newFrameW) :
    (∃ after, (u.addOsd nv21Src destData date).result = .ok after) ↔
      ∃ d w, (u.convertFrame nv21Src destData).result = .ok (d, some w) ∧
        ∃ after, (u.drawDate newFrameW date d).result = .ok after := by
  cases hconvert : (u.convertFrame nv21Src destData).result with
  | error e =>
    refine iff_of_false (fun h => ?_) fun h => ?_
    · obtain ⟨after, h⟩ := h
      rw [addOsd_error hconvert] at h
      cases h
    · obtain ⟨d, w, h, -⟩ := h
      cases h
  | ok p =>
    obtain ⟨d, w⟩ := p
    have hw := (YuvUtils.convertFrame_ok hconvert).2
    rw [hwidth] at hw
    rw [addOsd, Logged.result_bind_ok hconvert, hw]
    constructor
    · intro h
      exact ⟨d, newFrameW, rfl, h⟩
    · rintro ⟨d', w', h, hdrawn⟩
      cases h
      exact hdrawn

end Osd

/-- The row width of the output. -/
def outputWidth (rotation : Int) (frameWidth frameHeight : Nat) : Nat :=
  if rotation = 0 then frameWidth else frameHeight

/-- Every pixel of the text is one of the output, which has `w` columns and `h` rows. -/
def TextFits (osdOffX osdOffY patternLen : Int) (w h : Nat) (date : List UInt16) : Prop :=
  ∀ i < patternLen.toNat, ∀ j < numHeight, ∀ k < numWidth, Glyph.Bit (date.getD i 0) j k →
    0 ≤ osdOffY + j ∧ osdOffY + j < h ∧ 0 ≤ osdOffX + numWidth * i + k ∧
      osdOffX + numWidth * i + k < w

theorem Osd.drawsOnRow_iff {u : Osd} {date : List UInt16} (hglyphs : HoldsGlyphs u.mNumArrays)
    (newFrameW rows : Nat) :
    u.DrawsOnRow newFrameW rows date ↔ TextFits u.offX u.offY u.dateLen newFrameW rows date := by
  refine forall₂_congr fun i _ => forall₂_congr fun j hj => forall₂_congr fun k hk => ?_
  rw [Osd.Marked, hglyphs.bit_iff _ hj hk, u.offset_mem_row]

theorem YuvUtils.newFrameW_of_convertible {u : YuvUtils}
    (h : Convertible u.rotation u.frameWidth u.frameHeight) :
    u.newFrameW = some (outputWidth u.rotation u.frameWidth u.frameHeight) := by
  unfold newFrameW outputWidth
  rcases h with ⟨h₀, -⟩ | ⟨h₉₀ | h₂₇₀, -⟩
  · rw [if_pos h₀, if_pos h₀]
  · rw [if_neg (by omega), if_pos h₉₀, if_neg (by omega)]
  · rw [if_neg (by omega), if_neg (by omega), if_pos h₂₇₀, if_neg (by omega)]

theorem outputWidth_mul_newFrameH (rotation : Int) (w h : Nat) :
    outputWidth rotation w h * newFrameH rotation w h = w * h := by
  unfold outputWidth newFrameH
  split
  · rfl
  · exact Nat.mul_comm h w

/-- With the glyphs in the table, what is left to check are the frame, the string and the
place of the text. -/
theorem Osd.draws_iff {u : Osd} (date : List UInt16) {nv21Src destData : Block}
    (hglyphs : HoldsGlyphs u.mNumArrays)
    (hsrc : nv21Src.size = u.frameWidth * u.frameHeight * 3 / 2)
    (hdest : destData.size = u.frameWidth * u.frameHeight * 3 / 2) :
    (∃ newFrameW, u.newFrameW = some newFrameW ∧
        (∃ after, (u.addOsd nv21Src destData date).result = .ok after) ∧
        u.DrawsOnRow newFrameW (newFrameH u.rotation u.frameWidth u.frameHeight) date) ↔
      Convertible u.rotation u.frameWidth u.frameHeight ∧ u.dateLen.toNat ≤ date.length ∧
        TextFits u.offX u.offY u.dateLen (outputWidth u.rotation u.frameWidth u.frameHeight)
          (newFrameH u.rotation u.frameWidth u.frameHeight) date := by
  have harea := outputWidth_mul_newFrameH u.rotation u.frameWidth u.frameHeight
  have hroom : ∀ {d w}, (u.convertFrame nv21Src destData).result = .ok (d, w) →
      outputWidth u.rotation u.frameWidth u.frameHeight *
        newFrameH u.rotation u.frameWidth u.frameHeight ≤ d.size := by
    intro d w hconvert
    rw [(YuvUtils.convertFrame_ok hconvert).1, harea, hdest]
    omega
  constructor
  · rintro ⟨newFrameW, hw, hok, hrow⟩
    obtain ⟨d, w, hconvert, hdrawn⟩ := (addOsd_ok_iff hw).mp hok
    have hconvertible := (YuvUtils.convertFrame_ok_iff hsrc hdest).mp ⟨d, w, hconvert⟩
    rw [YuvUtils.newFrameW_of_convertible hconvertible] at hw
    cases hw
    exact ⟨hconvertible, (drawDate_ok_iff hglyphs hrow (hroom hconvert)).mp hdrawn,
      (drawsOnRow_iff hglyphs _ _).mp hrow⟩
  · rintro ⟨hconvertible, hdate, hfits⟩
    have hw := YuvUtils.newFrameW_of_convertible hconvertible
    have hrow := (drawsOnRow_iff hglyphs _ _).mpr hfits
    obtain ⟨d, w, hconvert⟩ := (YuvUtils.convertFrame_ok_iff hsrc hdest).mpr hconvertible
    exact ⟨_, hw, (addOsd_ok_iff hw).mpr
      ⟨d, w, hconvert, (drawDate_ok_iff hglyphs hrow (hroom hconvert)).mpr hdate⟩, hrow⟩

/-- The watermark is safe exactly if the table holds the glyphs, the angle and the size are
ones that the conversion knows, the string is long enough and the text fits. -/
theorem safeOsd_iff {granted : Bool} {osdOffX osdOffY patternLen rotationAngle : Int}
    {frameWidth frameHeight : Nat} {nv21Src destData : Block} {date : List UInt16}
    (hlo : -2 ^ 31 ≤ patternLen) (hhi : patternLen < 2 ^ 31)
    (hsrc : nv21Src.size = frameWidth * frameHeight * 3 / 2)
    (hdest : destData.size = frameWidth * frameHeight * 3 / 2) :
    SafeOsd granted osdOffX osdOffY patternLen frameWidth frameHeight rotationAngle nv21Src
        destData date ↔
      (granted ∧ patternLen * glyphSize < 2 ^ 31 ∧ 16 ≤ patternLen) ∧
        Convertible rotationAngle frameWidth frameHeight ∧ patternLen ≤ date.length ∧
        TextFits osdOffX osdOffY patternLen (outputWidth rotationAngle frameWidth frameHeight)
          (newFrameH rotationAngle frameWidth frameHeight) date := by
  have hdraws : ∀ u, initOsd granted osdOffX osdOffY patternLen frameWidth frameHeight
      rotationAngle = .ok u → ((∃ newFrameW, u.newFrameW = some newFrameW ∧
        (∃ after, (u.addOsd nv21Src destData date).result = .ok after) ∧
        u.DrawsOnRow newFrameW (newFrameH rotationAngle frameWidth frameHeight) date) ↔
      Convertible rotationAngle frameWidth frameHeight ∧ patternLen ≤ date.length ∧
        TextFits osdOffX osdOffY patternLen (outputWidth rotationAngle frameWidth frameHeight)
          (newFrameH rotationAngle frameWidth frameHeight) date) := by
    intro u hu
    obtain ⟨hframe, hX, hY, hlen, hglyphs⟩ := initOsd_ok hu
    have hiff := Osd.draws_iff date hglyphs (hsrc.trans (by rw [hframe]))
      (hdest.trans (by rw [hframe]))
    rw [hframe, hX, hY, hlen, Int.toNat_le] at hiff
    rw [hframe]
    exact hiff
  rw [← initOsd_ok_iff granted osdOffX osdOffY frameWidth frameHeight rotationAngle hlo hhi]
  constructor
  · rintro ⟨u, hu, hdrawn⟩
    exact ⟨⟨u, hu⟩, (hdraws u hu).mp hdrawn⟩
  · rintro ⟨⟨u, hu⟩, hsafe⟩
    exact ⟨u, hu, (hdraws u hu).mpr hsafe⟩

/-- Sixteen zeros in a frame of their width are drawn inside it. -/
theorem safeOsd_iff_zeros :
    SafeOsd true 0 0 16 272 24 0 (.fill 9792 0) (.fill 9792 0) (.replicate 16 0x30) := by
  have hfits : TextFits 0 0 16 272 24 (.replicate 16 0x30) := by
    have hrows : numHeight = 23 := rfl
    have hcolumns : numWidth = 17 := rfl
    intro i hi j hj k hk _
    rw [hrows] at hj
    rw [hcolumns] at hk ⊢
    omega
  exact (safeOsd_iff (by decide) (by decide) rfl rfl).mpr
    ⟨⟨rfl, by decide, by decide⟩, .inl ⟨rfl, by decide⟩, by decide, hfits⟩

/-- A time without a date has fewer characters than the table must have room for. -/
theorem not_safeOsd_time :
    ¬ SafeOsd true 0 0 8 640 480 0 (.fill 460800 0) (.fill 460800 0)
      [0x31, 0x32, 0x3a, 0x30, 0x30, 0x3a, 0x30, 0x30] := by
  rintro ⟨u, hu, -⟩
  have hroom := (initOsd_ok_iff true 0 0 640 480 0 (by decide) (by decide)).mp ⟨u, hu⟩
  exact absurd hroom.2.2 (by decide)

end Jrtplib4Android
