import Jrtplib4Android.Core.Filling
import Mathlib.Data.List.Nodup

/-!
# Stores in any order

A program that stores bytes at positions of its own choice is told by the list of its
stores. `Stores` says that a logged computation makes them, as long as they stay inside the
block, and faults as soon as one does not.
-/

namespace CSem

namespace Block

variable {b : Block}

/-- The effect of stores, one after another, without the range checks. -/
def put (b : Block) : List (Nat × UInt8) → Block
  | [] => b
  | (i, v) :: ws => put { b with byte := fun j => if j = i then v else b.byte j } ws

/-- Stores do not change the size. -/
@[simp] theorem size_put (b : Block) (ws : List (Nat × UInt8)) : (b.put ws).size = b.size := by
  induction ws generalizing b with
  | nil => rfl
  | cons w ws ih => exact ih _

/-- Stores one after the other. -/
theorem put_append (b : Block) (ws ws' : List (Nat × UInt8)) :
    b.put (ws ++ ws') = (b.put ws).put ws' := by
  induction ws generalizing b with
  | nil => rfl
  | cons w ws ih => exact ih _

/-- What is not stored to keeps its byte. -/
theorem byte_put_of_forall_ne {ws : List (Nat × UInt8)} {j : Nat} (h : ∀ w ∈ ws, w.1 ≠ j) :
    (b.put ws).byte j = b.byte j := by
  induction ws generalizing b with
  | nil => rfl
  | cons w ws ih =>
    rw [List.forall_mem_cons] at h
    exact (ih h.2).trans (if_neg (Ne.symm h.1))

/-- A position holds what is stored there, if all stores there agree. -/
theorem byte_put_of_mem {ws : List (Nat × UInt8)} {j : Nat} {v : UInt8} (hmem : (j, v) ∈ ws)
    (h : ∀ w ∈ ws, w.1 = j → w.2 = v) : (b.put ws).byte j = v := by
  induction ws generalizing b with
  | nil => cases hmem
  | cons w ws ih =>
    rw [List.forall_mem_cons] at h
    by_cases hlater : (j, v) ∈ ws
    · exact ih hlater h.2
    · obtain rfl : w = (j, v) := ((List.mem_cons.mp hmem).resolve_right hlater).symm
      have hlast : ∀ w ∈ ws, w.1 ≠ j := by
        intro w hw hj
        apply hlater
        rw [← hj, ← h.2 w hw hj]
        exact hw
      exact (byte_put_of_forall_ne hlast).trans (if_pos rfl)

/-- A position holds what is stored there, if each is stored to once. -/
theorem byte_put_of_nodup {ws : List (Nat × UInt8)} {j : Nat} {v : UInt8}
    (hnodup : (ws.map Prod.fst).Nodup) (hmem : (j, v) ∈ ws) : (b.put ws).byte j = v := by
  refine byte_put_of_mem hmem fun w hw hj => ?_
  rw [List.inj_on_of_nodup_map hnodup hw hmem hj]

end Block

/-- The bytes of a list at consecutive positions. -/
def placed (k : Nat) : List UInt8 → List (Nat × UInt8)
  | [] => []
  | v :: vs => (k, v) :: placed (k + 1) vs

/-- A run of bytes is stored at consecutive positions. -/
@[simp] theorem map_fst_placed (k : Nat) (vs : List UInt8) :
    (placed k vs).map Prod.fst = List.range' k vs.length := by
  induction vs generalizing k with
  | nil => rfl
  | cons v vs ih => rw [placed, List.map_cons, ih, List.length_cons, List.range'_succ]

/-- A run of bytes in two parts. -/
theorem placed_append (k : Nat) (vs vs' : List UInt8) :
    placed k (vs ++ vs') = placed k vs ++ placed (k + vs.length) vs' := by
  induction vs generalizing k with
  | nil => rfl
  | cons v vs ih =>
    rw [List.cons_append, placed, ih, placed, List.cons_append, List.length_cons,
      Nat.add_assoc, Nat.add_comm 1]

/-- Every byte of a run is stored at its place. -/
theorem mem_placed {k e : Nat} {vs : List UInt8} {v : UInt8} (h : vs[e]? = some v) :
    (k + e, v) ∈ placed k vs := by
  induction vs generalizing k e with
  | nil => cases h
  | cons u vs ih =>
    cases e with
    | zero =>
      rw [List.getElem?_cons_zero] at h
      rw [← Option.some.inj h]
      exact List.mem_cons_self
    | succ e =>
      rw [List.getElem?_cons_succ] at h
      rw [← Nat.add_assoc, Nat.add_right_comm]
      exact List.mem_cons_of_mem _ (ih h)

/-- `dest[k++] = v` for each value. -/
def storeRun (dest : Block) (k : Nat) : List UInt8 → Logged Nat (Block × Nat)
  | [] => pure (dest, k)
  | v :: vs => do
    let dest ← Logged.access k (dest.store k v)
    storeRun dest (k + 1) vs

/-- All stores are inside a block of this size. -/
def Fits (size : Nat) (ws : List (Nat × UInt8)) : Prop := ∀ w ∈ ws, w.1 < size

/-- Stores fit if both parts do. -/
theorem fits_append {size : Nat} {ws ws' : List (Nat × UInt8)} :
    Fits size (ws ++ ws') ↔ Fits size ws ∧ Fits size ws' :=
  List.forall_mem_append

/-- A run fits if its end does. -/
theorem fits_placed {size k : Nat} {vs : List UInt8} (hk : k ≤ size) :
    Fits size (placed k vs) ↔ k + vs.length ≤ size := by
  have hmem : ∀ w ∈ placed k vs, k ≤ w.1 ∧ w.1 < k + vs.length := by
    intro w hw
    have hin := List.mem_map_of_mem (f := Prod.fst) hw
    rwa [map_fst_placed, List.mem_range'_1] at hin
  constructor
  · intro h
    by_contra hlt
    have hlast : k + (vs.length - 1) ∈ (placed k vs).map Prod.fst := by
      rw [map_fst_placed, List.mem_range'_1]
      omega
    obtain ⟨w, hw, hwk⟩ := List.mem_map.mp hlast
    exact absurd (h w hw) (by omega)
  · intro hle w hw
    have := hmem w hw
    omega

/-- The computation makes the stores in this order, or faults with the first one that is
outside; `out` is its result on the block. -/
structure Stores {α : Type} (dest : Block) (ws : List (Nat × UInt8)) (x : Logged Nat α)
    (out : Block → α) : Prop where
  fits : Fits dest.size ws → x = ⟨ws.map Prod.fst, .ok (out (dest.put ws))⟩
  faults : ¬ Fits dest.size ws → x.result = .error .write

section Rules

variable {α β : Type} {dest : Block} {ws ws' : List (Nat × UInt8)}

/-- A computation that stores nothing. -/
theorem stores_pure (dest : Block) (out : Block → α) : Stores dest [] (pure (out dest)) out where
  fits _ := rfl
  faults h := absurd (fun _ hw => absurd hw List.not_mem_nil) h

/-- One byte is stored. -/
theorem stores_store (dest : Block) (k : Nat) (v : UInt8) :
    Stores dest [(k, v)] (Logged.access k (dest.store k v)) id := by
  have hfits : Fits dest.size [(k, v)] ↔ k < dest.size := List.forall_mem_singleton
  constructor
  · intro h
    rw [hfits] at h
    simp only [Block.store, h, ite_true]
    rfl
  · intro h
    rw [hfits] at h
    simp only [Block.store, h, ite_false, Logged.result_access]

/-- One program behind the other. -/
theorem Stores.bind {x : Logged Nat α} {f : α → Logged Nat β} {out : Block → α}
    {out' : Block → β} (hx : Stores dest ws x out)
    (hf : ∀ d, d.size = dest.size → Stores d ws' (f (out d)) out') :
    Stores dest (ws ++ ws') (x >>= f) out' := by
  have hrest := hf (dest.put ws) (Block.size_put dest ws)
  have hsize := Block.size_put dest ws
  constructor
  · intro h
    obtain ⟨hws, hws'⟩ := fits_append.mp h
    rw [hx.fits hws, Block.put_append, List.map_append]
    have hsecond := hrest.fits (hsize.symm ▸ hws')
    simp only [Bind.bind, hsecond]
  · intro h
    rw [Logged.result_bind]
    by_cases hws : Fits dest.size ws
    · have hws' : ¬ Fits dest.size ws' := fun hws' => h (fits_append.mpr ⟨hws, hws'⟩)
      rw [hx.fits hws]
      exact hrest.faults (hsize.symm ▸ hws')
    · rw [hx.faults hws]
      rfl

/-- A pure step behind a program. -/
theorem Stores.map {x : Logged Nat α} {out : Block → α} (hx : Stores dest ws x out) (g : α → β) :
    Stores dest ws (x >>= fun a => pure (g a)) fun d => g (out d) := by
  rw [← List.append_nil ws]
  exact hx.bind fun d _ => stores_pure d fun d => g (out d)

/-- A run of bytes is stored. -/
theorem stores_storeRun (dest : Block) (k : Nat) (vs : List UInt8) :
    Stores dest (placed k vs) (storeRun dest k vs) fun d => (d, k + vs.length) := by
  induction vs generalizing dest k with
  | nil => exact stores_pure dest fun d => (d, k)
  | cons v vs ih =>
    have hlength : k + (v :: vs).length = k + 1 + vs.length := by
      rw [List.length_cons]
      omega
    rw [hlength]
    exact (stores_store dest k v).bind fun d _ => ih d (k + 1)

/-- A byte that can be read is stored. -/
theorem stores_copyByte {src : Block} {p : Nat} (hp : p < src.size) (dest : Block) (k : Nat) :
    Stores dest [(k, src.byte p)] (copyByte src dest k p) id := by
  have hload : copyByte src dest k p = Logged.access k (dest.store k (src.byte p)) := by
    rw [copyByte, Block.load_eq hp]
    rfl
  rw [hload]
  exact stores_store dest k _

/-- A loop; `out t` is the state in front of its `t`-th pass. -/
theorem stores_forEach {body : α → Nat → Logged Nat α} {is : List Nat}
    {cell : Nat → List (Nat × UInt8)} {out : Nat → Block → α}
    (hbody : ∀ t (ht : t < is.length), ∀ d, d.size = dest.size →
      Stores d (cell t) (body (out t d) is[t]) (out (t + 1))) :
    Stores dest ((List.range is.length).flatMap cell) (Logged.forEach body is (out 0 dest))
      (out is.length) := by
  induction is generalizing dest cell out with
  | nil => exact stores_pure dest (out 0)
  | cons i is ih =>
    rw [List.length_cons, List.range_succ_eq_map, List.flatMap_cons, List.flatMap_map]
    refine (hbody 0 (Nat.succ_pos _) dest rfl).bind fun d hd => ?_
    exact @ih d (fun t => cell (t + 1)) (fun t => out (t + 1)) fun t ht d' hd' =>
      hbody (t + 1) (Nat.succ_lt_succ ht) d' (hd'.trans hd)

/-- `for (i = 0; i < n; i++)`. -/
theorem stores_count {body : α → Nat → Logged Nat α} {n : Nat} {cell : Nat → List (Nat × UInt8)}
    {o : Nat → Block → α}
    (hbody : ∀ t < n, ∀ d, d.size = dest.size → Stores d (cell t) (body (o t d) t) (o (t + 1))) :
    Stores dest ((List.range n).flatMap cell) (Logged.forEach body (countUp 0 n 1) (o 0 dest))
      (o n) := by
  rw [countUp_one]
  have hloop : Stores dest ((List.range (List.range n).length).flatMap cell)
      (Logged.forEach body (List.range n) (o 0 dest)) (o (List.range n).length) := by
    refine stores_forEach fun t ht d hd => ?_
    have hlt : t < n := by rwa [List.length_range] at ht
    rw [List.getElem_range]
    exact hbody t hlt d hd
  rwa [List.length_range] at hloop

/-- A loop of which each pass copies one byte. -/
theorem stores_copyLoop {src : Block} {f g : Nat → Nat} {is : List Nat}
    (hread : ∀ i ∈ is, g i < src.size) (dest : Block) :
    Stores dest (is.map fun i => (f i, src.byte (g i)))
      (Logged.forEach (fun d i => copyByte src d (f i) (g i)) is dest) id := by
  induction is generalizing dest with
  | nil => exact stores_pure dest id
  | cons i is ih =>
    rw [List.forall_mem_cons] at hread
    exact (stores_copyByte hread.1 dest (f i)).bind fun d _ => ih hread.2 d

/-- If `g` holds, which says that what is read is there, the computation makes the stores;
otherwise it faults. -/
structure Guarded {α : Type} (g : Prop) (dest : Block) (ws : List (Nat × UInt8))
    (x : Logged Nat α) (out : Block → α) : Prop where
  stores : g → Stores dest ws x out
  refuses : ¬ g → ∃ e, x.result = .error e

/-- Stores that need no guard. -/
theorem Stores.guarded {x : Logged Nat α} {out : Block → α} (hx : Stores dest ws x out) :
    Guarded True dest ws x out where
  stores _ := hx
  refuses h := absurd trivial h

variable {g g' : Prop}

/-- A guarded program ends well exactly if all its accesses are in range. -/
theorem Guarded.ok_iff {x : Logged Nat α} {out : Block → α} (hx : Guarded g dest ws x out) :
    (∃ a, x.result = .ok a) ↔ g ∧ Fits dest.size ws := by
  constructor
  · rintro ⟨a, ha⟩
    have hg : g := by
      by_contra hg
      obtain ⟨e, he⟩ := hx.refuses hg
      rw [he] at ha
      cases ha
    refine ⟨hg, ?_⟩
    by_contra hover
    rw [(hx.stores hg).faults hover] at ha
    cases ha
  · rintro ⟨hg, hfits⟩
    exact ⟨_, congrArg Logged.result ((hx.stores hg).fits hfits)⟩

/-- Another guard that says the same. -/
theorem Guarded.congr {x : Logged Nat α} {out : Block → α} (hx : Guarded g dest ws x out)
    (h : g ↔ g') : Guarded g' dest ws x out where
  stores hg := hx.stores (h.mpr hg)
  refuses hg := hx.refuses (mt h.mp hg)

/-- One program behind the other. -/
theorem Guarded.bind {x : Logged Nat α} {f : α → Logged Nat β} {out : Block → α}
    {out' : Block → β} (hx : Guarded g dest ws x out)
    (hf : ∀ d, d.size = dest.size → Guarded g' d ws' (f (out d)) out') :
    Guarded (g ∧ g') dest (ws ++ ws') (x >>= f) out' := by
  constructor
  · rintro ⟨hg, hg'⟩
    exact (hx.stores hg).bind fun d hd => (hf d hd).stores hg'
  · intro h
    rw [Logged.result_bind]
    by_cases hg : g
    · by_cases hfits : Fits dest.size ws
      · obtain ⟨e, he⟩ := (hf _ (Block.size_put dest ws)).refuses fun hg' => h ⟨hg, hg'⟩
        refine ⟨e, ?_⟩
        rw [(hx.stores hg).fits hfits]
        exact he
      · rw [(hx.stores hg).faults hfits]
        exact ⟨_, rfl⟩
    · obtain ⟨e, he⟩ := hx.refuses hg
      rw [he]
      exact ⟨e, rfl⟩

/-- A pure step behind a program. -/
theorem Guarded.map {x : Logged Nat α} {out : Block → α} (hx : Guarded g dest ws x out)
    (f : α → β) : Guarded g dest ws (x >>= fun a => pure (f a)) fun d => f (out d) where
  stores h := (hx.stores h).map f
  refuses h := by
    obtain ⟨e, he⟩ := hx.refuses h
    exact ⟨e, by rw [Logged.result_bind, he]; rfl⟩

/-- A value is read in front of the program. -/
theorem guarded_lift {r : Except Fault α} {v : α} {f : α → Logged Nat β} {out : Block → β}
    (hr : g → r = .ok v) (hrefuses : ¬ g → ∃ e, r = .error e)
    (hf : Guarded g' dest ws (f v) out) : Guarded (g ∧ g') dest ws (Logged.lift r >>= f) out := by
  constructor
  · rintro ⟨hg, hg'⟩
    rw [hr hg]
    exact hf.stores hg'
  · intro h
    by_cases hg : g
    · rw [hr hg]
      exact hf.refuses fun hg' => h ⟨hg, hg'⟩
    · obtain ⟨e, he⟩ := hrefuses hg
      rw [he]
      exact ⟨e, rfl⟩

/-- A byte is copied if it can be read. -/
theorem guarded_copyByte (src dest : Block) (k p : Nat) :
    Guarded (p < src.size) dest [(k, src.byte p)] (copyByte src dest k p) id := by
  refine (guarded_lift (v := src.byte p) (Block.load_eq) (fun hp => ?_)
    (stores_store dest k (src.byte p)).guarded).congr (iff_of_eq (and_true _))
  exact ⟨.read, by rw [Block.load, if_neg hp]⟩

/-- A loop over a list of counters. -/
theorem guarded_forEach {body : Block → Nat → Logged Nat Block} {cell : Nat → List (Nat × UInt8)}
    {G : Nat → Prop} {is : List Nat}
    (hbody : ∀ i ∈ is, ∀ d, d.size = dest.size → Guarded (G i) d (cell i) (body d i) id) :
    Guarded (∀ i ∈ is, G i) dest (is.flatMap cell) (Logged.forEach body is dest) id := by
  induction is generalizing dest with
  | nil =>
    exact (stores_pure dest id).guarded.congr (iff_of_true trivial fun _ h => by cases h)
  | cons i is ih =>
    rw [List.forall_mem_cons] at hbody ⊢
    exact (hbody.1 dest rfl).bind fun d hd => ih fun j hj d' hd' => hbody.2 j hj d' (hd'.trans hd)

/-- The computation transfers the bytes of `src` at `ps` to the positions from `k` on. -/
def Transfers {α : Type} (src dest : Block) (k : Nat) (ps : List Nat) (x : Logged Nat α)
    (out : Block → α) : Prop :=
  Guarded (∀ p ∈ ps, p < src.size) dest (placed k (ps.map src.byte)) x out

section Transfers

variable {src : Block} {k : Nat} {ps qs : List Nat}

/-- A computation that transfers nothing. -/
theorem transfers_pure (dest : Block) (out : Block → α) :
    Transfers src dest k [] (pure (out dest)) out :=
  (stores_pure dest out).guarded.congr (iff_of_true trivial fun _ h => by cases h)

/-- One byte is transferred. -/
theorem transfers_copyByte (src dest : Block) (k p : Nat) :
    Transfers src dest k [p] (copyByte src dest k p) id :=
  (guarded_copyByte src dest k p).congr
    (List.forall_mem_singleton (p := fun q => q < src.size)).symm

/-- Transfers one after the other. -/
theorem Transfers.bind {x : Logged Nat α} {f : α → Logged Nat β} {out : Block → α}
    {out' : Block → β} (hx : Transfers src dest k ps x out)
    (hf : ∀ d, d.size = dest.size → Transfers src d (k + ps.length) qs (f (out d)) out') :
    Transfers src dest k (ps ++ qs) (x >>= f) out' := by
  have hplaced : placed k ((ps ++ qs).map src.byte) =
      placed k (ps.map src.byte) ++ placed (k + ps.length) (qs.map src.byte) := by
    rw [List.map_append, placed_append, List.length_map]
  unfold Transfers
  rw [hplaced]
  exact (Guarded.bind hx hf).congr List.forall_mem_append.symm

/-- What a transfer returns. -/
theorem Transfers.map {x : Logged Nat α} {out : Block → α} (hx : Transfers src dest k ps x out)
    (f : α → β) : Transfers src dest k ps (x >>= fun a => pure (f a)) fun d => f (out d) := by
  rw [← List.append_nil ps]
  exact hx.bind fun d _ => transfers_pure d fun d => f (out d)

/-- A loop that keeps the position in a variable of its own. -/
theorem transfers_forEach {body : Block × Nat → Nat → Logged Nat (Block × Nat)}
    {cell : Nat → List Nat} {is : List Nat}
    (hbody : ∀ i ∈ is, ∀ d k, Transfers src d k (cell i) (body (d, k) i)
      fun d => (d, k + (cell i).length)) (dest : Block) (k : Nat) :
    Transfers src dest k (is.flatMap cell) (Logged.forEach body is (dest, k))
      fun d => (d, k + (is.flatMap cell).length) := by
  induction is generalizing dest k with
  | nil => exact transfers_pure dest fun d => (d, k)
  | cons i is ih =>
    rw [List.forall_mem_cons] at hbody
    rw [List.flatMap_cons, List.length_append, ← Nat.add_assoc]
    exact (hbody.1 dest k).bind fun d _ => ih hbody.2 d _

/-- A copy is the transfer of a range. -/
theorem copy_eq_put (dest src : Block) (k s n : Nat) :
    dest.copy k src s n = dest.put (placed k ((List.range' s n).map src.byte)) := by
  have hlength : ((List.range' s n).map src.byte).length = n := by
    rw [List.length_map, List.length_range']
  have hpositions := map_fst_placed k ((List.range' s n).map src.byte)
  rw [hlength] at hpositions
  have hbyte : (dest.copy k src s n).byte =
      (dest.put (placed k ((List.range' s n).map src.byte))).byte := by
    funext j
    by_cases hj : k ≤ j ∧ j < k + n
    · have hget : ((List.range' s n).map src.byte)[j - k]? = some (src.byte (s + (j - k))) := by
        rw [List.getElem?_map, List.getElem?_range' (by omega), Nat.one_mul, Option.map_some]
      have hmem := mem_placed (k := k) hget
      rw [Nat.add_sub_cancel' hj.1] at hmem
      rw [Block.byte_copy_of_mem hj.1 hj.2,
        Block.byte_put_of_nodup (hpositions ▸ List.nodup_range') hmem]
    · have houtside : ∀ w ∈ placed k ((List.range' s n).map src.byte), w.1 ≠ j := by
        intro w hw hwj
        have hin := List.mem_map_of_mem (f := Prod.fst) hw
        rw [hpositions, List.mem_range'_1] at hin
        exact hj (hwj ▸ hin)
      rw [Block.byte_put_of_forall_ne houtside]
      exact if_neg hj
  have hsize := Block.size_put dest (placed k ((List.range' s n).map src.byte))
  generalize dest.put (placed k ((List.range' s n).map src.byte)) = d at hbyte hsize
  cases d
  cases hsize
  cases hbyte
  rfl

/-- A copy transfers its bytes. -/
theorem transfers_memcpyLogged {s n : Nat} (hs : s ≤ src.size) (hk : k ≤ dest.size) :
    Transfers src dest k (List.range' s n) (memcpyLogged dest k src s n) id := by
  have hread : (∀ p ∈ List.range' s n, p < src.size) ↔ s + n ≤ src.size := by
    constructor
    · intro h
      by_contra hlt
      exact absurd (h (s + (n - 1)) (List.mem_range'_1.mpr (by omega))) (by omega)
    · intro h p hp
      have := List.mem_range'_1.mp hp
      omega
  have hfits : Fits dest.size (placed k ((List.range' s n).map src.byte)) ↔ k + n ≤ dest.size := by
    rw [fits_placed hk, List.length_map, List.length_range']
  refine Guarded.congr ⟨fun hg => ⟨fun h => ?_, fun h => ?_⟩, fun hg => ?_⟩ hread.symm
  · rw [memcpyLogged, Block.memcpy_eq _ _ _ _ hg (hfits.mp h), copy_eq_put, map_fst_placed,
      List.length_map, List.length_range', id]
  · rw [hfits] at h
    exact Block.memcpy_of_room hg (by omega)
  · exact ⟨.read, Block.memcpy_of_lt _ _ (by omega)⟩

/-- A transfer ends well exactly if all its bytes are there and have room. -/
theorem Transfers.ok_iff {x : Logged Nat α} {out : Block → α}
    (hx : Transfers src dest k ps x out) (hk : k ≤ dest.size) : (∃ a, x.result = .ok a) ↔
      (∀ p ∈ ps, p < src.size) ∧ k + ps.length ≤ dest.size := by
  rw [Guarded.ok_iff hx, fits_placed hk, List.length_map]

end Transfers

/-- The run ends well and has written each of the first `n` bytes once. -/
def FillsOnce (n : Nat) (x : Logged Nat α) : Prop :=
  (∃ a, x.result = .ok a) ∧ ∀ k < n, x.log.count k = 1

/-- Stores that take all positions up to `total`. -/
theorem fits_iff_of_perm {total size : Nat} (hperm : (ws.map Prod.fst).Perm (List.range total)) :
    Fits size ws ↔ total ≤ size := by
  have hmem : ∀ k, k ∈ ws.map Prod.fst ↔ k < total := by
    intro k
    rw [hperm.mem_iff, List.mem_range]
  constructor
  · intro h
    by_contra hlt
    obtain ⟨w, hw, hwk⟩ := List.mem_map.mp ((hmem size).mpr (by omega))
    exact absurd (h w hw) (by omega)
  · intro hle w hw
    have := (hmem w.1).mp (List.mem_map_of_mem hw)
    omega

/-- They fill the first `n` bytes once each if they are that many and stay in the block. -/
theorem Stores.filledOnce_iff {x : Logged Nat α} {out : Block → α} (hx : Stores dest ws x out)
    {n total : Nat} (hperm : (ws.map Prod.fst).Perm (List.range total)) :
    FillsOnce n x ↔ n ≤ total ∧ total ≤ dest.size := by
  rw [← fits_iff_of_perm hperm]
  constructor
  · rintro ⟨⟨a, hok⟩, hcount⟩
    have hfits : Fits dest.size ws := by
      by_contra hover
      rw [hx.faults hover] at hok
      cases hok
    refine ⟨?_, hfits⟩
    by_contra hshort
    have hone := hcount total (by omega)
    rw [hx.fits hfits, hperm.count_eq, List.count_eq_zero_of_not_mem (by simp)] at hone
    cases hone
  · rintro ⟨hfill, hfits⟩
    rw [hx.fits hfits]
    refine ⟨⟨_, rfl⟩, fun k hk => ?_⟩
    rw [hperm.count_eq]
    exact List.count_eq_one_of_mem List.nodup_range (List.mem_range.mpr (by omega))

end Rules

end CSem
