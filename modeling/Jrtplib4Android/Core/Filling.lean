import Jrtplib4Android.Core.Logged

/-!
# Filling a block from front to back

A program that writes a block in the order of its positions, each byte copied from
another block, is told by the list of the source offsets. `Copies` says that a logged
computation does so; it has one rule for each way to put such programs together. The
offsets of nested loops are a grid, in which `getElem?_grid` finds the entry of a cell.
-/

namespace CSem

/-- The values of `i` in `for (i = start; i < stop; i += step)`. -/
def countUp (start stop step : Nat) : List Nat :=
  List.range' start ((stop - start + (step - 1)) / step) step

/-- The values of `i` in `for (i = n - 1; i >= 0; i -= step)`. -/
def countDown (n step : Nat) : List Nat :=
  (List.range ((n + (step - 1)) / step)).map fun t => n - 1 - t * step

/-- The rounds of a loop that counts up. -/
@[simp] theorem length_countUp (start stop step : Nat) :
    (countUp start stop step).length = (stop - start + (step - 1)) / step :=
  List.length_range'

/-- The rounds of a loop that counts down. -/
@[simp] theorem length_countDown (n step : Nat) :
    (countDown n step).length = (n + (step - 1)) / step := by
  rw [countDown, List.length_map, List.length_range]

/-- The index in a round of the one. -/
theorem getElem?_countUp {start stop step r : Nat} (h : r < (stop - start + (step - 1)) / step) :
    (countUp start stop step)[r]? = some (start + step * r) :=
  List.getElem?_range' h

/-- The index in a round of the other. -/
theorem getElem?_countDown {n step r : Nat} (h : r < (n + (step - 1)) / step) :
    (countDown n step)[r]? = some (n - 1 - r * step) := by
  simp only [countDown, List.getElem?_map, List.getElem?_range h, Option.map_some]

/-- The indices of a loop that counts up. -/
theorem mem_countUp {start stop step i : Nat} :
    i ∈ countUp start stop step ↔
      ∃ t < (stop - start + (step - 1)) / step, i = start + step * t :=
  List.mem_range'

/-- They stay below the bound. -/
theorem lt_of_mem_countUp {start stop step i : Nat} (hstep : 0 < step)
    (h : i ∈ countUp start stop step) : i < stop := by
  obtain ⟨t, ht, rfl⟩ := mem_countUp.mp h
  have hrounds := (Nat.le_div_iff_mul_le hstep).mp (Nat.succ_le_of_lt ht)
  rw [Nat.succ_mul, Nat.mul_comm] at hrounds
  omega

/-- A loop that counts down stays below its start. -/
theorem lt_of_mem_countDown {n step i : Nat} (h : i ∈ countDown n step) : i < n := by
  obtain ⟨t, ht, rfl⟩ := List.mem_map.mp h
  rw [List.mem_range] at ht
  rcases Nat.eq_zero_or_pos n with rfl | hpos
  · rcases Nat.eq_zero_or_pos step with rfl | hstep
    · exact absurd ht (Nat.not_lt_zero t)
    · rw [Nat.div_eq_of_lt (by omega)] at ht
      exact absurd ht (Nat.not_lt_zero t)
  · omega

/-- Counting up by one takes every index. -/
theorem countUp_one (n : Nat) : countUp 0 n 1 = List.range n := by
  have hcount : (n - 0 + (1 - 1)) / 1 = n := by omega
  rw [countUp, hcount, List.range_eq_range']

/-- Go through the loop body for each value of the counter. -/
def Logged.forEach {ω σ : Type} (body : σ → Nat → Logged ω σ) : List Nat → σ → Logged ω σ
  | [], s => pure s
  | i :: is, s => do
    let s ← body s i
    forEach body is s

/-- `dest[k] = src[p]`, with the position that is written as its access. -/
def copyByte (src dest : Block) (k p : Nat) : Logged Nat Block := do
  let v ← Logged.lift (src.load p)
  Logged.access k (dest.store k v)

/-- `memcpy(dest + d, src + s, n)`, with the positions that are written. -/
def memcpyLogged (dest : Block) (d : Nat) (src : Block) (s n : Nat) : Logged Nat Block :=
  ⟨List.range' d n, memcpy dest d src (some s) n⟩

/-- A copy that is logged is a copy. -/
theorem result_memcpyLogged (dest : Block) (d : Nat) (src : Block) (s n : Nat)
    (hsrc : s + n ≤ src.size) (hdest : d + n ≤ dest.size) :
    (memcpyLogged dest d src s n).result = .ok (dest.copy d src s n) :=
  Block.memcpy_eq _ _ _ _ hsrc hdest

/-- The computation writes the bytes of `src` at `ps`, in this order and each once, from
position `k` of `dest` on; `out` is its result on the block. -/
def Copies {α : Type} (src dest : Block) (k : Nat) (ps : List Nat) (x : Logged Nat α)
    (out : Block → α) : Prop :=
  ∃ dest' : Block, x = ⟨List.range' k ps.length, .ok (out dest')⟩ ∧ dest'.size = dest.size ∧
    dest'.slice 0 (k + ps.length) = dest.slice 0 k ++ ps.map src.byte

section Rules

variable {α β : Type} {src dest : Block} {k : Nat} {ps qs : List Nat}

/-- A computation that copies nothing. -/
theorem copies_pure (dest : Block) (out : Block → α) :
    Copies src dest k [] (pure (out dest)) out :=
  ⟨dest, rfl, rfl, (List.append_nil _).symm⟩

/-- One program behind the other. -/
theorem Copies.bind {x : Logged Nat α} {f : α → Logged Nat β} {out : Block → α}
    {out' : Block → β} (hx : Copies src dest k ps x out)
    (hf : ∀ dest', dest'.size = dest.size →
      Copies src dest' (k + ps.length) qs (f (out dest')) out') :
    Copies src dest k (ps ++ qs) (x >>= f) out' := by
  obtain ⟨d₁, rfl, hsize₁, hslice₁⟩ := hx
  obtain ⟨d₂, hrun, hsize₂, hslice₂⟩ := hf d₁ hsize₁
  refine ⟨d₂, ?_, hsize₂.trans hsize₁, ?_⟩
  · simp only [Bind.bind, hrun, List.length_append, List.range'_append_1]
  · rw [List.length_append, ← Nat.add_assoc, hslice₂, hslice₁, List.map_append,
      List.append_assoc]

/-- A pure step behind a program. -/
theorem Copies.map {x : Logged Nat α} {out : Block → α} (hx : Copies src dest k ps x out)
    (g : α → β) : Copies src dest k ps (x >>= fun a => pure (g a)) fun d => g (out d) := by
  rw [← List.append_nil ps]
  exact hx.bind fun dest' _ => copies_pure dest' fun d => g (out d)

/-- One byte is copied. -/
theorem copies_copyByte {p : Nat} (hp : p < src.size) (hk : k < dest.size) :
    Copies src dest k [p] (copyByte src dest k p) id := by
  refine ⟨{ dest with byte := fun j => if j = k then src.byte p else dest.byte j }, ?_, rfl, ?_⟩
  · simp only [copyByte, Block.load_eq hp, Block.store, hk, ite_true]
    rfl
  · rw [List.length_singleton, Block.slice_add]
    congr 1
    · apply Block.slice_congr
      intro i hi
      have hne : ¬ 0 + i = k := by omega
      simp only [hne, ite_false]
    · simp only [Block.slice, List.range_one, List.map_cons, List.map_nil, Nat.zero_add,
        Nat.add_zero, ite_true]

/-- A run of bytes is copied. -/
theorem copies_memcpyLogged {s n : Nat} (hsrc : s + n ≤ src.size) (hdest : k + n ≤ dest.size) :
    Copies src dest k (List.range' s n) (memcpyLogged dest k src s n) id := by
  refine ⟨dest.copy k src s n, ?_, rfl, ?_⟩
  · rw [memcpyLogged, Block.memcpy_eq _ _ _ _ hsrc hdest, List.length_range', id]
  · rw [List.length_range', Block.slice_copy_append, List.range'_eq_map_range, List.map_map]
    rfl

/-- A loop that keeps the position in a variable of its own. -/
theorem copies_forEach {body : Block × Nat → Nat → Logged Nat (Block × Nat)}
    {cell : Nat → List Nat} {is : List Nat}
    (hbody : ∀ i ∈ is, ∀ dest' k, dest'.size = dest.size → k + (cell i).length ≤ dest'.size →
      Copies src dest' k (cell i) (body (dest', k) i) fun d => (d, k + (cell i).length))
    (hroom : k + (is.flatMap cell).length ≤ dest.size) :
    Copies src dest k (is.flatMap cell) (Logged.forEach body is (dest, k))
      fun d => (d, k + (is.flatMap cell).length) := by
  induction is generalizing dest k with
  | nil => exact copies_pure dest fun d => (d, k)
  | cons i is ih =>
    rw [List.flatMap_cons, List.length_append] at hroom ⊢
    have hfirst := hbody i List.mem_cons_self dest k rfl (by omega)
    rw [← Nat.add_assoc]
    refine hfirst.bind fun dest' hsize => ih (fun j hj d k hd hk => ?_) (by omega)
    exact hbody j (List.mem_cons_of_mem i hj) d k (hd.trans hsize) hk

/-- A loop whose counter is the position. -/
theorem copies_forEach_range' {body : Block → Nat → Logged Nat Block} {cell : Nat → List Nat}
    {step n : Nat} (hlen : ∀ i, (cell i).length = step)
    (hbody : ∀ i ∈ List.range' k n step, ∀ dest', dest'.size = dest.size →
      i + step ≤ dest'.size → Copies src dest' i (cell i) (body dest' i) id)
    (hroom : k + step * n ≤ dest.size) :
    Copies src dest k ((List.range' k n step).flatMap cell)
      (Logged.forEach body (List.range' k n step) dest) id := by
  induction n generalizing dest k with
  | zero => exact copies_pure dest id
  | succ n ih =>
    rw [List.range'_succ] at hbody ⊢
    rw [Nat.mul_succ] at hroom
    rw [List.flatMap_cons]
    have hfirst := hbody k List.mem_cons_self dest rfl (by omega)
    refine hfirst.bind fun dest' hsize => ?_
    rw [hlen k]
    refine ih (fun i hi d hd hk => ?_) (by rw [hsize]; omega)
    exact hbody i (List.mem_cons_of_mem k hi) d (hd.trans hsize) hk

/-- What a block holds behind what it is filled from, and in front of it. -/
theorem Copies.bytes {x : Logged Nat α} {out : Block → α} (hx : Copies src dest k ps x out) :
    ∃ dest', x = ⟨List.range' k ps.length, .ok (out dest')⟩ ∧ dest'.size = dest.size ∧
      (∀ n < k, dest'.byte n = dest.byte n) ∧
      ∀ n p, ps[n]? = some p → dest'.byte (k + n) = src.byte p := by
  obtain ⟨dest', hrun, hsize, hslice⟩ := hx
  rw [Block.slice_add, Nat.zero_add] at hslice
  obtain ⟨hfront, hbehind⟩ := List.append_inj hslice (by simp only [Block.length_slice])
  refine ⟨dest', hrun, hsize, fun n hn => ?_, fun n p hp => ?_⟩
  · have hget := dest'.getElem?_slice (p := 0) hn
    rw [hfront, Block.getElem?_slice _ hn, Nat.zero_add] at hget
    exact (Option.some.inj hget).symm
  · obtain ⟨hn, -⟩ := List.getElem?_eq_some_iff.mp hp
    have hget := dest'.getElem?_slice (p := k) hn
    rw [hbehind, List.getElem?_map, hp, Option.map_some] at hget
    exact (Option.some.inj hget).symm

/-- What a block holds that is filled from its start. -/
theorem byte_of_slice {dest' : Block} {n p : Nat}
    (hslice : dest'.slice 0 ps.length = ps.map src.byte) (hp : ps[n]? = some p) :
    dest'.byte n = src.byte p := by
  obtain ⟨hn, -⟩ := List.getElem?_eq_some_iff.mp hp
  have hget := dest'.getElem?_slice (p := 0) hn
  rw [hslice, List.getElem?_map, hp, Option.map_some, Nat.zero_add] at hget
  exact (Option.some.inj hget).symm

end Rules

section Grids

variable {α β γ : Type}

/-- A cell of a grid is told by its place in it. -/
theorem grid_inj {m r r' c c' : Nat} (hc : c < m) (hc' : c' < m) (h : r * m + c = r' * m + c') :
    r = r' ∧ c = c' := by
  have hpos : 0 < m := Nat.zero_lt_of_lt hc
  have hrow : ∀ {r c}, c < m → (r * m + c) / m = r := by
    intro r c hc
    rw [Nat.add_comm, Nat.add_mul_div_right _ _ hpos, Nat.div_eq_of_lt hc, Nat.zero_add]
  have hr : r = r' := by
    have hsame := hrow (r := r) hc
    rw [h, hrow hc'] at hsame
    exact hsame.symm
  refine ⟨hr, ?_⟩
  rw [hr] at h
  exact Nat.add_left_cancel h

/-- Lists of one length, one behind the other. -/
theorem length_flatMap_of_length {f : α → List γ} {m : Nat} {l : List α}
    (hlen : ∀ a ∈ l, (f a).length = m) : (l.flatMap f).length = l.length * m := by
  rw [List.length_flatMap, List.map_congr_left hlen, List.map_const', List.sum_replicate_nat]

/-- Rows of equal length behind each other. -/
theorem getElem?_flatMap_of_length {f : α → List γ} {m : Nat} {l : List α}
    (hlen : ∀ a ∈ l, (f a).length = m) {r c : Nat} (hr : r < l.length) (hc : c < m) :
    (l.flatMap f)[r * m + c]? = (f l[r])[c]? := by
  induction l generalizing r with
  | nil => exact absurd hr (Nat.not_lt_zero r)
  | cons a l ih =>
    have hrow := hlen a List.mem_cons_self
    rw [List.flatMap_cons]
    cases r with
    | zero =>
      rw [Nat.zero_mul, Nat.zero_add, List.getElem?_append_left (by omega)]
      rfl
    | succ r =>
      rw [List.length_cons] at hr
      rw [Nat.succ_mul, List.getElem?_append_right (by omega), hrow]
      have hbehind : r * m + m + c - m = r * m + c := by omega
      rw [hbehind]
      exact ih (fun b hb => hlen b (List.mem_cons_of_mem a hb)) (by omega)

/-- Cells of equal length in rows of equal length. -/
theorem getElem?_grid {f : α → β → List γ} {m : Nat} {is : List α} {js : List β}
    (hlen : ∀ i ∈ is, ∀ j ∈ js, (f i j).length = m) {r c e : Nat} (hr : r < is.length)
    (hc : c < js.length) (he : e < m) :
    (is.flatMap fun i => js.flatMap (f i))[r * (js.length * m) + (c * m + e)]? =
      (f is[r] js[c])[e]? := by
  have hrows : ∀ i ∈ is, (js.flatMap (f i)).length = js.length * m :=
    fun i hi => length_flatMap_of_length (hlen i hi)
  have hcell : c * m + e < js.length * m := by
    calc c * m + e < c * m + m := by omega
      _ = (c + 1) * m := (Nat.succ_mul c m).symm
      _ ≤ js.length * m := Nat.mul_le_mul_right m hc
  rw [getElem?_flatMap_of_length hrows hr hcell,
    getElem?_flatMap_of_length (hlen _ (List.getElem_mem hr)) hc he]

/-- Ranges that meet make up one range. -/
theorem flatMap_range' {p : Nat → Nat} {n : Nat} (hmono : ∀ i < n, p i ≤ p (i + 1)) :
    (List.range n).flatMap (fun i => List.range' (p i) (p (i + 1) - p i)) =
      List.range' (p 0) (p n - p 0) := by
  have hle : p 0 ≤ p n ∧ (List.range n).flatMap (fun i => List.range' (p i) (p (i + 1) - p i)) =
      List.range' (p 0) (p n - p 0) := by
    induction n with
    | zero => exact ⟨Nat.le_refl _, by rw [Nat.sub_self]; rfl⟩
    | succ n ih =>
      obtain ⟨hle, heq⟩ := ih fun i hi => hmono i (Nat.lt_succ_of_lt hi)
      have hnext := hmono n (Nat.lt_succ_self n)
      have hsplit : p (n + 1) - p 0 = (p n - p 0) + (p (n + 1) - p n) := by omega
      refine ⟨Nat.le_trans hle hnext, ?_⟩
      rw [List.range_succ, List.flatMap_append, heq, List.flatMap_singleton, hsplit,
        ← List.range'_append_1, Nat.add_sub_cancel' hle]
  exact hle.2

/-- Two loops, one in the other, that keep the position in a variable of its own. -/
theorem copies_grid {src dest : Block} {k m : Nat}
    {body : Nat → Block × Nat → Nat → Logged Nat (Block × Nat)} {cell : Nat → Nat → List Nat}
    {is js : List Nat} (hlen : ∀ i ∈ is, ∀ j ∈ js, (cell i j).length = m)
    (hbody : ∀ i ∈ is, ∀ j ∈ js, ∀ dest' k, dest'.size = dest.size → k + m ≤ dest'.size →
      Copies src dest' k (cell i j) (body i (dest', k) j) fun d => (d, k + m))
    (hroom : k + is.length * (js.length * m) ≤ dest.size) :
    Copies src dest k (is.flatMap fun i => js.flatMap (cell i))
      (Logged.forEach (fun s i => Logged.forEach (body i) js s) is (dest, k))
      fun d => (d, k + is.length * (js.length * m)) := by
  have hrows : ∀ i ∈ is, (js.flatMap (cell i)).length = js.length * m :=
    fun i hi => length_flatMap_of_length (hlen i hi)
  have hgrid := length_flatMap_of_length hrows
  rw [← hgrid] at hroom ⊢
  refine copies_forEach (fun i hi dest' k hsize hk => ?_) hroom
  refine copies_forEach (fun j hj d k hd hk => ?_) hk
  rw [hlen i hi j hj] at hk ⊢
  exact hbody i hi j hj d k (hd.trans hsize) hk

end Grids

end CSem
