import Jrtplib4Android.Core.CInt
import Jrtplib4Android.Core.Stores
import Jrtplib4Android.Osd.Glyphs
import Jrtplib4Android.Osd.Rotation

/-!
# The watermark

`initOsd` copies the glyphs into one table, and `addOsd` draws those of the date into the
converted frame, one column of 17 pixels behind the other. What is drawn is told by the list
of its stores.
-/

namespace Jrtplib4Android

open CSem

/-- `num_width`. -/
def numWidth : Nat := 17

/-- `num_height`. -/
def numHeight : Nat := 23

/-- `size`. -/
def glyphSize : Nat := numWidth * numHeight

/-- The members of `YuvUtils` that the watermark uses. -/
structure Osd extends YuvUtils where
  offX : Int
  offY : Int
  dateLen : Int
  mNumArrays : Block

/-- `calloc` for a `size_t` of 32 bits; `granted` says that the memory is there, which it never
is for half of the address space. -/
def calloc (granted : Bool) (count : Int) (size : Nat) : Option Block :=
  if granted ∧ toUnsigned count * size < 2 ^ 31 then
    some (.fill (toUnsigned count * size).toNat 0)
  else none

/-- `memcpy(mNumArrays + size * t, glyph, size)` for one glyph after the other. -/
def copyGlyphs (mNumArrays : Block) : Nat → List (List UInt8) → Except Fault Block
  | _, [] => .ok mNumArrays
  | t, glyph :: rest => do
    let mNumArrays ← memcpy mNumArrays (glyphSize * t) (.ofList glyph) (some 0) glyphSize
    copyGlyphs mNumArrays (t + 1) rest

/-- `initOsd` for a new `YuvUtils`. -/
def initOsd (granted : Bool) (osdOffX osdOffY patternLen : Int) (frameWidth frameHeight : Nat)
    (rotationAngle : Int) : Except Fault Osd :=
  match calloc granted patternLen glyphSize with
  | none => .error .null
  | some mNumArrays => do
    let mNumArrays ← copyGlyphs mNumArrays 0 glyphs
    return { frameWidth, frameHeight, rotation := rotationAngle, offX := osdOffX, offY := osdOffY,
             dateLen := patternLen, mNumArrays }

/-- `getIndex`. -/
def getIndex (c : UInt16) : Nat :=
  if '0'.toNat ≤ c.toNat ∧ c.toNat ≤ '9'.toNat then c.toNat - '0'.toNat
  else if c.toNat = '-'.toNat then 10
  else if c.toNat = ' '.toNat then 11
  else if c.toNat = ':'.toNat then 12
  else if c = 24180 then 13
  else if c = 26376 then 14
  else if c = 26085 then 15
  else 11

/-- `*(date + i)`. -/
def readChar (date : List UInt16) (i : Nat) : Except Fault UInt16 :=
  match date[i]? with
  | some c => .ok c
  | none => .error .read

/-- The colour of the text, `-21`. -/
def white : UInt8 := 0xeb

/-- `*(destIndex + k) = -21` at an offset from `destData`. -/
def drawPixel (destData : Block) (offset : Int) : Logged Nat Block :=
  if 0 ≤ offset then Logged.access offset.toNat (destData.store offset.toNat white)
  else Logged.lift (.error .write)

namespace Osd

/-- The offset of pixel `k` in row `j` of character `i`. -/
def offset (u : Osd) (newFrameW i j k : Nat) : Int :=
  u.offY * newFrameW + i * numWidth + j * newFrameW + u.offX + k

/-- The pixels of character `i`, whose glyph begins at `num`. -/
def drawGlyph (u : Osd) (newFrameW i num : Nat) (destData : Block) : Logged Nat Block :=
  Logged.forEach (fun destData j => Logged.forEach (fun destData k => do
      let v ← Logged.lift (u.mNumArrays.load (num + j * numWidth + k))
      if v ≠ 0 then drawPixel destData (u.offset newFrameW i j k) else pure destData)
    (countUp 0 numWidth 1) destData) (countUp 0 numHeight 1) destData

/-- The loop over the characters. -/
def drawDate (u : Osd) (newFrameW : Nat) (date : List UInt16) (destData : Block) :
    Logged Nat Block :=
  Logged.forEach (fun destData i => do
      let c ← Logged.lift (readChar date i)
      u.drawGlyph newFrameW i (glyphSize * getIndex c) destData)
    (countUp 0 u.dateLen.toNat 1) destData

/-- `addOsd`; without `newFrameW` the row to start in is not determined. -/
def addOsd (u : Osd) (nv21Src destData : Block) (date : List UInt16) : Logged Nat Block := do
  let (destData, newFrameW) ← u.convertFrame nv21Src destData
  match newFrameW with
  | some newFrameW => u.drawDate newFrameW date destData
  | none => Logged.lift (.error .read)

end Osd

/-- All glyphs have one size. -/
theorem length_glyph : ∀ glyph ∈ glyphs, glyph.length = glyphSize := by
  decide +kernel

/-- The table has room for the glyphs, and holds them one behind the other. -/
structure HoldsGlyphs (mNumArrays : Block) : Prop where
  room : glyphSize * glyphs.length ≤ mNumArrays.size
  byte : ∀ t b, b < glyphSize → ∀ glyph, glyphs[t]? = some glyph →
    mNumArrays.byte (glyphSize * t + b) = glyph.getD b 0

/-- The copies end well exactly if there is room for them. -/
theorem copyGlyphs_ok_iff {m : Block} {t : Nat} {gs : List (List UInt8)}
    (hlen : ∀ glyph ∈ gs, glyph.length = glyphSize) (ht : glyphSize * t ≤ m.size) :
    (∃ m', copyGlyphs m t gs = .ok m') ↔ glyphSize * (t + gs.length) ≤ m.size := by
  induction gs generalizing m t with
  | nil => exact iff_of_true ⟨m, rfl⟩ ht
  | cons glyph gs ih =>
    rw [List.forall_mem_cons] at hlen
    have hnext : glyphSize * (t + 1) = glyphSize * t + glyphSize := Nat.mul_succ _ _
    have hlength : t + (glyph :: gs).length = t + 1 + gs.length := by
      rw [List.length_cons]
      omega
    rw [copyGlyphs, hlength]
    by_cases hroom : glyphSize * (t + 1) ≤ m.size
    · rw [Block.memcpy_eq _ _ _ _ (by rw [Block.size_ofList, hlen.1, Nat.zero_add])
        (by omega)]
      exact ih (m := m.copy _ _ _ _) hlen.2 hroom
    · rw [Block.memcpy_of_room (by rw [Block.size_ofList, hlen.1, Nat.zero_add]) (by omega)]
      refine iff_of_false (fun h => by obtain ⟨m', hm'⟩ := h; cases hm') (fun h => hroom ?_)
      exact Nat.le_trans (Nat.mul_le_mul_left _ (Nat.le_add_right _ _)) h

/-- What the copies leave in front of them, and what they put there. -/
theorem copyGlyphs_bytes {m m' : Block} {t : Nat} {gs : List (List UInt8)}
    (hlen : ∀ glyph ∈ gs, glyph.length = glyphSize) (h : copyGlyphs m t gs = .ok m') :
    m'.size = m.size ∧ (∀ p < glyphSize * t, m'.byte p = m.byte p) ∧
      ∀ s b, b < glyphSize → ∀ glyph, gs[s]? = some glyph →
        m'.byte (glyphSize * (t + s) + b) = glyph.getD b 0 := by
  induction gs generalizing m t with
  | nil =>
    cases h
    exact ⟨rfl, fun _ _ => rfl, fun _ _ _ _ hs => by cases hs⟩
  | cons glyph gs ih =>
    rw [List.forall_mem_cons] at hlen
    have hnext : glyphSize * (t + 1) = glyphSize * t + glyphSize := Nat.mul_succ _ _
    have hsource : 0 + glyphSize ≤ (Block.ofList glyph).size := by
      rw [Block.size_ofList, hlen.1, Nat.zero_add]
    obtain ⟨m₁, hcopy, hrest⟩ := bind_eq_ok h
    have hroom : glyphSize * t + glyphSize ≤ m.size := by
      by_contra hroom
      rw [Block.memcpy_of_room hsource (by omega)] at hcopy
      cases hcopy
    rw [Block.memcpy_eq _ _ _ _ hsource hroom] at hcopy
    cases hcopy
    obtain ⟨hsize, hfront, hbehind⟩ := ih hlen.2 hrest
    refine ⟨hsize, fun p hp => ?_, fun s b hb g hg => ?_⟩
    · rw [hfront p (by omega), Block.byte_copy_of_lt hp]
    · cases s with
      | zero =>
        cases hg
        rw [Nat.add_zero, hfront _ (by omega), Block.byte_copy_of_mem (by omega) (by omega),
          Nat.zero_add, Nat.add_sub_cancel_left]
        rfl
      | succ s =>
        rw [List.getElem?_cons_succ] at hg
        rw [← hbehind s b hb g hg, Nat.add_assoc t 1 s, Nat.add_comm 1 s]

/-- `initOsd` ends well exactly if the table is there and holds the glyphs. -/
theorem initOsd_ok_iff (granted : Bool) (osdOffX osdOffY : Int) {patternLen : Int}
    (frameWidth frameHeight : Nat) (rotationAngle : Int) (hlo : -2 ^ 31 ≤ patternLen)
    (hhi : patternLen < 2 ^ 31) :
    (∃ u, initOsd granted osdOffX osdOffY patternLen frameWidth frameHeight rotationAngle = .ok u) ↔
      granted ∧ patternLen * glyphSize < 2 ^ 31 ∧ 16 ≤ patternLen := by
  unfold initOsd calloc
  have hsize : (glyphSize : Int) = 391 := rfl
  rw [hsize]
  by_cases hthere : granted ∧ toUnsigned patternLen * 391 < 2 ^ 31
  · rw [if_pos hthere]
    have hcopied := copyGlyphs_ok_iff (m := .fill (toUnsigned patternLen * 391).toNat 0)
      (t := 0) length_glyph (Nat.zero_le _)
    have hlen : toUnsigned patternLen = patternLen := by
      have h := hthere.2
      unfold toUnsigned at h ⊢
      omega
    have hcount : glyphSize * (0 + glyphs.length) = 6256 := rfl
    rw [hlen] at hthere hcopied ⊢
    rw [Block.size_fill, hcount] at hcopied
    constructor
    · rintro ⟨u, hu⟩
      obtain ⟨m, hm, -⟩ := bind_eq_ok hu
      have hroom := hcopied.mp ⟨m, hm⟩
      exact ⟨hthere.1, hthere.2, by omega⟩
    · rintro ⟨-, -, hroom⟩
      obtain ⟨m, hm⟩ := hcopied.mpr (by omega)
      simp only [hm]
      exact ⟨_, rfl⟩
  · rw [if_neg hthere]
    refine iff_of_false (fun h => by obtain ⟨u, hu⟩ := h; cases hu) fun h => hthere ?_
    obtain ⟨hgranted, hsmall, hroom⟩ := h
    rw [toUnsigned_eq (by omega) (by omega)]
    exact ⟨hgranted, hsmall⟩

/-- What `initOsd` accepts. -/
theorem initOsd_ok {granted : Bool} {osdOffX osdOffY patternLen : Int}
    {frameWidth frameHeight : Nat} {rotationAngle : Int} {u : Osd}
    (h : initOsd granted osdOffX osdOffY patternLen frameWidth frameHeight rotationAngle = .ok u) :
    u.toYuvUtils = ⟨frameWidth, frameHeight, rotationAngle⟩ ∧ u.offX = osdOffX ∧
      u.offY = osdOffY ∧ u.dateLen = patternLen ∧ HoldsGlyphs u.mNumArrays := by
  unfold initOsd at h
  split at h
  · cases h
  rename_i m hm
  obtain ⟨m', hm', hu⟩ := bind_eq_ok h
  cases hu
  obtain ⟨hsize, -, hbytes⟩ := copyGlyphs_bytes length_glyph hm'
  refine ⟨rfl, rfl, rfl, rfl, ?_, fun t b hb glyph hglyph => ?_⟩
  · have hroom := (copyGlyphs_ok_iff length_glyph (Nat.zero_le _)).mp ⟨m', hm'⟩
    rw [Nat.zero_add] at hroom
    exact hsize ▸ hroom
  · rw [← hbytes t b hb glyph hglyph, Nat.zero_add]

/-- What a turned frame is read from. -/
theorem transfers_rotateFrame (scan : Scan) (nv21Src destData : Block) (w : Nat) :
    Transfers nv21Src destData 0 (scan.lumaOffsets w ++ scan.chromaOffsets)
      (scan.rotateFrame nv21Src destData w) id := by
  have hluma : Transfers nv21Src destData 0 (scan.lumaOffsets w)
      (scan.rotateY nv21Src w (destData, 0)) fun d => (d, 0 + (scan.lumaOffsets w).length) := by
    refine transfers_forEach (fun i _ d k => transfers_forEach (fun j _ d k => ?_) d k) destData 0
    exact (transfers_copyByte nv21Src d k _).map fun d => (d, k + 1)
  refine hluma.bind fun d _ => ?_
  have hchroma : Transfers nv21Src d (0 + (scan.lumaOffsets w).length) scan.chromaOffsets
      (scan.rotateUV nv21Src (d, 0 + (scan.lumaOffsets w).length))
      fun d => (d, 0 + (scan.lumaOffsets w).length + scan.chromaOffsets.length) := by
    refine transfers_forEach (fun i _ d k => transfers_forEach (fun j _ d k => ?_) d k) d _
    exact (transfers_copyByte nv21Src d k _).bind fun d _ =>
      (transfers_copyByte nv21Src d (k + 1) _).map fun d => (d, k + 2)
  exact hchroma.map Prod.fst

namespace YuvUtils

variable {u : YuvUtils} {nv21Src destData : Block}

/-- What `copyFrame` reads is there. -/
def CopyReads (u : YuvUtils) (nv21Src : Block) : Prop :=
  (∀ p ∈ List.range' 0 u.framesize, p < nv21Src.size) ∧
    ∀ j ∈ countUp u.framesize (u.framesize + u.framesize / 2) 2,
      j + 1 < nv21Src.size ∧ j < nv21Src.size

/-- The stores of `copyFrame`. -/
def copyStores (u : YuvUtils) (nv21Src : Block) : List (Nat × UInt8) :=
  placed 0 ((List.range' 0 u.framesize).map nv21Src.byte) ++
    (countUp u.framesize (u.framesize + u.framesize / 2) 2).flatMap fun j =>
      [(j, nv21Src.byte (j + 1)), (j + 1, nv21Src.byte j)]

/-- What a copied frame stores, if it can be read. -/
theorem guarded_copyFrame (u : YuvUtils) (nv21Src destData : Block) :
    Guarded (u.CopyReads nv21Src) destData (u.copyStores nv21Src)
      (u.copyFrame nv21Src destData) id := by
  refine Guarded.bind (transfers_memcpyLogged (Nat.zero_le _) (Nat.zero_le _)) fun d _ => ?_
  refine guarded_forEach fun j _ d _ => ?_
  exact (guarded_copyByte nv21Src d j (j + 1)).bind fun d _ =>
    guarded_copyByte nv21Src d (j + 1) j

/-- The row width of the output, where `addOsd` sets it. -/
def newFrameW (u : YuvUtils) : Option Nat :=
  if u.rotation = 0 then some u.frameWidth
  else if u.rotation = 90 then some u.frameHeight
  else if u.rotation = 270 then some u.frameHeight
  else none

/-- The conversion keeps the size of the target, and sets the row width for three angles. -/
theorem convertFrame_ok {u : YuvUtils} {nv21Src destData destData' : Block} {w : Option Nat}
    (h : (u.convertFrame nv21Src destData).result = .ok (destData', w)) :
    destData'.size = destData.size ∧ w = u.newFrameW := by
  have hsize : ∀ {g ws} {x : Logged Nat Block}, Guarded g destData ws x id →
      ∀ w', (x >>= fun d => pure (d, w')).result = .ok (destData', w) →
        destData'.size = destData.size ∧ w = w' := by
    intro g ws x hx w' hok
    obtain ⟨hg, hfits⟩ := (hx.map fun d => (d, w')).ok_iff.mp ⟨_, hok⟩
    rw [((hx.map fun d => (d, w')).stores hg).fits hfits] at hok
    cases hok
    exact ⟨Block.size_put _ _, rfl⟩
  unfold convertFrame at h
  unfold newFrameW
  split
  · rename_i h₀
    rw [if_pos h₀] at h
    exact hsize (u.guarded_copyFrame nv21Src destData) _ h
  rename_i h₀
  rw [if_neg h₀] at h
  split
  · rename_i h₉₀
    rw [if_pos h₉₀] at h
    exact hsize (transfers_rotateFrame u.scan90 nv21Src destData u.frameWidth) _ h
  rename_i h₉₀
  rw [if_neg h₉₀] at h
  split
  · rename_i h₂₇₀
    rw [if_pos h₂₇₀] at h
    exact hsize (transfers_rotateFrame u.scan270 nv21Src destData u.frameWidth) _ h
  · rename_i h₂₇₀
    rw [if_neg h₂₇₀] at h
    cases h
    exact ⟨rfl, rfl⟩

end YuvUtils

/-- A pixel of the glyph for a character. -/
def Glyph.Bit (c : UInt16) (j k : Nat) : Prop :=
  ((glyphs.getD (getIndex c) []).getD (j * numWidth + k) 0) ≠ 0

/-- Every character has a glyph. -/
theorem getIndex_lt (c : UInt16) : getIndex c < glyphs.length := by
  unfold getIndex
  have hdigits : '9'.toNat = 57 ∧ '0'.toNat = 48 := ⟨rfl, rfl⟩
  change _ < 16
  split
  · omega
  · repeat (split; decide)
    decide

/-- The pixels of a glyph are in the table. -/
theorem HoldsGlyphs.lt {m : Block} (h : HoldsGlyphs m) (c : UInt16) {j k : Nat}
    (hj : j < numHeight) (hk : k < numWidth) :
    glyphSize * getIndex c + j * numWidth + k < m.size := by
  have hindex := getIndex_lt c
  have hroom := h.room
  change getIndex c < 16 at hindex
  change glyphSize * 16 ≤ m.size at hroom
  simp only [glyphSize, numWidth, numHeight] at *
  omega

/-- The table has the pixels of the glyphs. -/
theorem HoldsGlyphs.bit_iff {m : Block} (h : HoldsGlyphs m) (c : UInt16) {j k : Nat}
    (hj : j < numHeight) (hk : k < numWidth) :
    m.byte (glyphSize * getIndex c + j * numWidth + k) ≠ 0 ↔ Glyph.Bit c j k := by
  have hget : glyphs[getIndex c]? = some (glyphs.getD (getIndex c) []) := by
    rw [List.getD_eq_getElem?_getD, List.getElem?_eq_getElem (getIndex_lt c), Option.getD_some]
  have hpixel : j * numWidth + k < glyphSize := by
    simp only [glyphSize, numWidth, numHeight] at *
    omega
  rw [Glyph.Bit, Nat.add_assoc, h.byte _ _ hpixel _ hget]

/-- A character of the text can be read. -/
theorem readChar_eq {date : List UInt16} {i : Nat} (h : i < date.length) :
    readChar date i = .ok (date.getD i 0) := by
  simp only [readChar, List.getElem?_eq_getElem h, List.getD_eq_getElem?_getD, Option.getD_some]

/-- A pixel is drawn at an offset that is not negative. -/
theorem guarded_drawPixel (destData : Block) (offset : Int) :
    Guarded (0 ≤ offset) destData [(offset.toNat, white)] (drawPixel destData offset) id := by
  constructor
  · intro h
    rw [drawPixel, if_pos h]
    exact stores_store destData _ _
  · intro h
    rw [drawPixel, if_neg h]
    exact ⟨_, rfl⟩

namespace Osd

variable (u : Osd) (newFrameW : Nat) (date : List UInt16)

/-- The table has a pixel of the text there. -/
def Marked (i j k : Nat) : Prop :=
  u.mNumArrays.byte (glyphSize * getIndex (date.getD i 0) + j * numWidth + k) ≠ 0

instance (i j k : Nat) : Decidable (u.Marked date i j k) := by unfold Marked; infer_instance

/-- The store for a pixel. -/
def markStores (i j k : Nat) : List (Nat × UInt8) :=
  if u.Marked date i j k then [((u.offset newFrameW i j k).toNat, white)] else []

/-- All stores of the text. -/
def drawStores : List (Nat × UInt8) :=
  (List.range u.dateLen.toNat).flatMap fun i => (List.range numHeight).flatMap fun j =>
    (List.range numWidth).flatMap fun k => u.markStores newFrameW date i j k

/-- What is read for character `i` is there, and no pixel of it lies in front of the frame. -/
def Readable (i : Nat) : Prop :=
  i < date.length ∧ ∀ j ∈ List.range numHeight, ∀ k ∈ List.range numWidth,
    glyphSize * getIndex (date.getD i 0) + j * numWidth + k < u.mNumArrays.size ∧
      (u.Marked date i j k → 0 ≤ u.offset newFrameW i j k)

/-- A glyph is drawn pixel by pixel. -/
theorem guarded_drawGlyph (i : Nat) (destData : Block) :
    Guarded (∀ j ∈ List.range numHeight, ∀ k ∈ List.range numWidth,
      glyphSize * getIndex (date.getD i 0) + j * numWidth + k < u.mNumArrays.size ∧
        (u.Marked date i j k → 0 ≤ u.offset newFrameW i j k)) destData
      ((List.range numHeight).flatMap fun j => (List.range numWidth).flatMap fun k =>
        u.markStores newFrameW date i j k)
      (u.drawGlyph newFrameW i (glyphSize * getIndex (date.getD i 0)) destData) id := by
  rw [drawGlyph, countUp_one, countUp_one]
  refine guarded_forEach fun j _ d _ => guarded_forEach fun k _ d _ => ?_
  refine guarded_lift (v := u.mNumArrays.byte _) Block.load_eq (fun h => ?_) ?_
  · exact ⟨.read, by rw [Block.load, if_neg h]⟩
  · change Guarded _ d (if u.Marked date i j k then _ else [])
      (if u.Marked date i j k then _ else _) id
    by_cases hmarked : u.Marked date i j k
    · rw [if_pos hmarked, if_pos hmarked]
      exact (guarded_drawPixel d _).congr ⟨fun h _ => h, fun h => h hmarked⟩
    · rw [if_neg hmarked, if_neg hmarked]
      exact (stores_pure d id).guarded.congr (iff_of_true trivial fun h => absurd h hmarked)

/-- A text is drawn glyph by glyph. -/
theorem guarded_drawDate (destData : Block) :
    Guarded (∀ i ∈ List.range u.dateLen.toNat, u.Readable newFrameW date i) destData
      (u.drawStores newFrameW date) (u.drawDate newFrameW date destData) id := by
  rw [drawDate, countUp_one]
  refine guarded_forEach fun i _ d _ => ?_
  refine guarded_lift (v := date.getD i 0) readChar_eq (fun h => ?_)
    (u.guarded_drawGlyph newFrameW date i d)
  exact ⟨.read, by rw [readChar, List.getElem?_eq_none (Nat.le_of_not_lt h)]⟩

/-- What is stored for a text: white at the marked pixels. -/
theorem mem_drawStores {x : Nat × UInt8} : x ∈ u.drawStores newFrameW date ↔
    ∃ i < u.dateLen.toNat, ∃ j < numHeight, ∃ k < numWidth, u.Marked date i j k ∧
      x = ((u.offset newFrameW i j k).toNat, white) := by
  simp only [drawStores, List.mem_flatMap, List.mem_range, markStores]
  constructor
  · rintro ⟨i, hi, j, hj, k, hk, hx⟩
    split at hx
    · rename_i hmarked
      exact ⟨i, hi, j, hj, k, hk, hmarked, List.mem_singleton.mp hx⟩
    · cases hx
  · rintro ⟨i, hi, j, hj, k, hk, hmarked, rfl⟩
    exact ⟨i, hi, j, hj, k, hk, by rw [if_pos hmarked]; exact List.mem_cons_self⟩

end Osd

/-- The place of pixel `k` in row `j` of character `i`, in rows of `w` pixels. -/
def textPosition (w offX offY i j k : Nat) : Nat := (offY + j) * w + (offX + numWidth * i + k)

/-- The frames differ in the pixels of the text alone, which are white in the second one. -/
structure Watermarked (w offX offY n : Nat) (date : List UInt16) (before after : Block) : Prop where
  size : after.size = before.size
  marked : ∀ i < n, ∀ j < numHeight, ∀ k < numWidth, Glyph.Bit (date.getD i 0) j k →
    after.byte (textPosition w offX offY i j k) = white
  unmarked : ∀ i < n, ∀ j < numHeight, ∀ k < numWidth, ¬ Glyph.Bit (date.getD i 0) j k →
    after.byte (textPosition w offX offY i j k) = before.byte (textPosition w offX offY i j k)
  rest : ∀ p, (∀ i < n, ∀ j < numHeight, ∀ k < numWidth, p ≠ textPosition w offX offY i j k) →
    after.byte p = before.byte p

/-- Pixels of a text that ends inside its row have positions of their own. -/
theorem textPosition_inj {w offX offY n i j k i' j' k' : Nat} (hright : offX + numWidth * n ≤ w)
    (hi : i < n) (hk : k < numWidth) (hi' : i' < n) (hk' : k' < numWidth)
    (h : textPosition w offX offY i j k = textPosition w offX offY i' j' k') :
    i = i' ∧ j = j' ∧ k = k' := by
  simp only [textPosition, numWidth] at *
  obtain ⟨hrow, hcolumn⟩ := grid_inj (by omega) (by omega) h
  omega

namespace Osd

variable {u : Osd} {w X Y : Nat} {date : List UInt16}

/-- The offset of a pixel is its position. -/
theorem offset_eq (hX : u.offX = X) (hY : u.offY = Y) (i j k : Nat) :
    u.offset w i j k = (textPosition w X Y i j k : Nat) := by
  rw [offset, textPosition, hX, hY]
  push_cast
  ring

/-- Text that fits is drawn, and nothing else. -/
theorem drawDate_watermarked (hglyphs : HoldsGlyphs u.mNumArrays) (hX : u.offX = X)
    (hY : u.offY = Y) {n rows : Nat} (hn : u.dateLen.toNat = n) (hdate : n ≤ date.length)
    (hright : X + numWidth * n ≤ w) (hbottom : Y + numHeight ≤ rows) {before : Block}
    (hsize : w * rows ≤ before.size) :
    ∃ after, (u.drawDate w date before).result = .ok after ∧
      Watermarked w X Y n date before after := by
  subst hn
  have hlt : ∀ i < u.dateLen.toNat, ∀ j < numHeight, ∀ k < numWidth,
      textPosition w X Y i j k < before.size := by
    intro i hi j hj k hk
    refine Nat.lt_of_lt_of_le (luma_lt ?_ (by omega)) hsize
    simp only [numWidth] at *
    omega
  have hreadable : ∀ i ∈ List.range u.dateLen.toNat, u.Readable w date i := by
    intro i hi
    refine ⟨Nat.lt_of_lt_of_le (List.mem_range.mp hi) hdate, fun j hj k hk => ⟨?_, fun _ => ?_⟩⟩
    · exact hglyphs.lt _ (List.mem_range.mp hj) (List.mem_range.mp hk)
    · rw [offset_eq hX hY]
      exact Int.natCast_nonneg _
  have hfits : Fits before.size (u.drawStores w date) := by
    intro x hx
    obtain ⟨i, hi, j, hj, k, hk, -, rfl⟩ := (u.mem_drawStores w date).mp hx
    rw [offset_eq hX hY, Int.toNat_natCast]
    exact hlt i hi j hj k hk
  have hwhite : ∀ x ∈ u.drawStores w date, x.2 = white := by
    intro x hx
    obtain ⟨i, hi, j, hj, k, hk, -, rfl⟩ := (u.mem_drawStores w date).mp hx
    rfl
  have hrun := ((u.guarded_drawDate w date before).stores hreadable).fits hfits
  refine ⟨_, congrArg Logged.result hrun, Block.size_put _ _, fun i hi j hj k hk hbit => ?_,
    fun i hi j hj k hk hbit => ?_, fun p hp => ?_⟩
  · refine Block.byte_put_of_mem ((u.mem_drawStores w date).mpr ?_) fun x hx _ => hwhite x hx
    refine ⟨i, hi, j, hj, k, hk, (hglyphs.bit_iff _ hj hk).mpr hbit, ?_⟩
    rw [offset_eq hX hY, Int.toNat_natCast]
  · refine Block.byte_put_of_forall_ne fun x hx hxp => hbit ?_
    obtain ⟨i', hi', j', hj', k', hk', hmarked, rfl⟩ := (u.mem_drawStores w date).mp hx
    rw [offset_eq hX hY, Int.toNat_natCast] at hxp
    obtain ⟨rfl, rfl, rfl⟩ := textPosition_inj hright hi' hk' hi hk hxp
    exact (hglyphs.bit_iff _ hj hk).mp hmarked
  · refine Block.byte_put_of_forall_ne fun x hx hxp => ?_
    obtain ⟨i, hi, j, hj, k, hk, -, rfl⟩ := (u.mem_drawStores w date).mp hx
    rw [offset_eq hX hY, Int.toNat_natCast] at hxp
    exact hp i hi j hj k hk hxp.symm

/-- The area of the turned frame. -/
theorem size_mul_size (r : Rotation) (a b : Nat) : (r.size a b).1 * (r.size a b).2 = a * b := by
  cases r with
  | upright => rfl
  | right => exact Nat.mul_comm b a
  | left => exact Nat.mul_comm b a

/-- The width behind a turn is that of the turned image. -/
theorem newFrameW_degrees {v : YuvUtils} {r : Rotation} (h : v.rotation = r.degrees) :
    v.newFrameW = some (r.size v.frameWidth v.frameHeight).1 := by
  unfold YuvUtils.newFrameW
  rw [h]
  cases r <;> rfl

/-- After a conversion that faults nothing is drawn. -/
theorem addOsd_error {nv21Src destData : Block} {e : Fault}
    (h : (u.convertFrame nv21Src destData).result = .error e) :
    (u.addOsd nv21Src destData date).result = .error e := by
  rw [addOsd, Logged.result_bind, h]
  rfl

/-- In every configuration in which the text fits, the text is drawn into the converted frame,
and nothing else changes; the frames of an even size are converted. -/
theorem addOsd_watermarked {granted : Bool}
    {osdOffX osdOffY patternLen frameWidth frameHeight : Nat} {r : Rotation}
    (hinit : initOsd granted osdOffX osdOffY patternLen frameWidth frameHeight r.degrees = .ok u)
    (hright : osdOffX + numWidth * patternLen ≤ (r.size frameWidth frameHeight).1)
    (hbottom : osdOffY + numHeight ≤ (r.size frameWidth frameHeight).2)
    (hdate : patternLen ≤ date.length) {nv21Src destData : Block}
    (hsrc : nv21Src.size = frameWidth * frameHeight * 3 / 2)
    (hdest : destData.size = frameWidth * frameHeight * 3 / 2) :
    (∀ e, (u.convertFrame nv21Src destData).result = .error e →
        (u.addOsd nv21Src destData date).result = .error e) ∧
      (∀ before newFrameW, (u.convertFrame nv21Src destData).result = .ok (before, newFrameW) →
        newFrameW = some (r.size frameWidth frameHeight).1 ∧
        ∃ after, (u.addOsd nv21Src destData date).result = .ok after ∧
          Watermarked (r.size frameWidth frameHeight).1 osdOffX osdOffY patternLen date
            before after) ∧
      (Even frameWidth → Even frameHeight →
        ∃ before newFrameW,
          (u.convertFrame nv21Src destData).result = .ok (before, newFrameW)) := by
  obtain ⟨hu, hX, hY, hlen, hglyphs⟩ := initOsd_ok hinit
  have hrotation : u.rotation = r.degrees := by rw [hu]
  have hwidth : u.frameWidth = frameWidth := by rw [hu]
  have hheight : u.frameHeight = frameHeight := by rw [hu]
  refine ⟨fun e => addOsd_error, fun before w hconvert => ?_, fun hw hh => ?_⟩
  · obtain ⟨hsize, hw⟩ := YuvUtils.convertFrame_ok hconvert
    rw [newFrameW_degrees hrotation, hwidth, hheight] at hw
    refine ⟨hw, ?_⟩
    have harea := size_mul_size r frameWidth frameHeight
    rw [addOsd, Logged.result_bind_ok hconvert, hw]
    exact drawDate_watermarked hglyphs hX hY (by omega) hdate hright hbottom (by omega)
  · rw [← hwidth] at hw hsrc hdest
    rw [← hheight] at hh hsrc hdest
    obtain ⟨before, hconvert, -⟩ :=
      YuvUtils.convertFrame_turned hrotation hw hh hsrc (Nat.le_of_eq hdest.symm)
    exact ⟨before, _, congrArg Logged.result hconvert⟩

/-- Sixteen zeros at the top of a frame of their width and 24 rows. -/
theorem addOsd_watermarked_zeros :
    ∃ u, initOsd true 0 0 16 272 24 0 = .ok u ∧
      ∃ before after,
        (u.convertFrame (.fill 9792 0) (.fill 9792 0)).result = .ok (before, some 272) ∧
        (u.addOsd (.fill 9792 0) (.fill 9792 0) (.replicate 16 0x30)).result = .ok after ∧
        Watermarked 272 0 0 16 (.replicate 16 0x30) before after := by
  have hinit : ∃ u, initOsd true 0 0 16 272 24 0 = .ok u :=
    (initOsd_ok_iff true 0 0 272 24 0 (by decide) (by decide)).mpr ⟨rfl, by decide, by decide⟩
  have hdate : 16 ≤ (List.replicate 16 (0x30 : UInt16)).length := by decide
  have hframe : (Block.fill 9792 0).size = 272 * 24 * 3 / 2 := rfl
  obtain ⟨u, hu⟩ := hinit
  obtain ⟨-, hdrawn, hconverted⟩ := Osd.addOsd_watermarked (r := .upright) hu
    (Nat.le_refl (0 + 17 * 16)) (Nat.le_succ (0 + 23)) hdate hframe hframe
  obtain ⟨before, w, hconvert⟩ := hconverted (by decide) (by decide)
  obtain ⟨rfl, after, hafter, hmarked⟩ := hdrawn before w hconvert
  exact ⟨u, hu, before, after, hconvert, hafter, hmarked⟩

end Osd

end Jrtplib4Android
