import Mathlib.Order.WellFounded
import Mathlib.Logic.Function.Basic

/-!
# Reorder buffers

A reorder buffer holds entries under the keys of a linear order. An entry is taken in unless
its key is held, and the entry that is given out is the one under the least key.
`Holds` says what list a buffer is: its entries, in the order of their keys. An entry is put in
between the smaller and the larger ones, and the head of the list is what is given out.
-/

namespace CSem

/-- What a buffer holds under each key. -/
@[ext] structure ReorderBuffer (κ ε : Type*) where
  held : κ → Option ε

namespace ReorderBuffer

variable {κ ε : Type*}

/-- The buffer that holds nothing. -/
def empty : ReorderBuffer κ ε := ⟨fun _ => none⟩

section

variable [DecidableEq κ] (b : ReorderBuffer κ ε)

/-- Takes an entry in, unless there is one under its key. -/
def offer (k : κ) (e : ε) : ReorderBuffer κ ε :=
  if (b.held k).isSome then b else ⟨Function.update b.held k (some e)⟩

/-- The buffer without the entry under a key. -/
def drop (k : κ) : ReorderBuffer κ ε := ⟨Function.update b.held k none⟩

theorem offer_of_held {k : κ} {e : ε} (h : (b.held k).isSome) : b.offer k e = b := if_pos h

theorem offer_of_free {k : κ} {e : ε} (h : b.held k = none) :
    b.offer k e = ⟨Function.update b.held k (some e)⟩ := if_neg (by simp [h])

end

variable [LinearOrder κ]

open Classical in
/-- Gives out the entry under the least key. -/
noncomputable def take [WellFoundedLT κ] (b : ReorderBuffer κ ε) :
    ReorderBuffer κ ε × Option ε :=
  if h : {k | (b.held k).isSome}.Nonempty then
    (b.drop (wellFounded_lt.min _ h), b.held (wellFounded_lt.min _ h))
  else (b, none)

/-- A list of entries in the order of their keys is a buffer. -/
structure Holds (key : ε → κ) (b : ReorderBuffer κ ε) (l : List ε) : Prop where
  sorted : l.Pairwise fun e e' => key e < key e'
  held : ∀ k e, b.held k = some e ↔ e ∈ l ∧ key e = k

variable {key : ε → κ} {b : ReorderBuffer κ ε} {l front back : List ε} {e : ε}

theorem holds_empty : (empty : ReorderBuffer κ ε).Holds key [] where
  sorted := .nil
  held k e := by simp [empty]

/-- Exactly the keys of the list are held. -/
theorem Holds.isSome_iff (h : b.Holds key l) {k : κ} :
    (b.held k).isSome ↔ ∃ e ∈ l, key e = k := by
  rw [Option.isSome_iff_exists]
  exact exists_congr fun e => h.held k e

theorem Holds.eq_none_iff (h : b.Holds key l) {k : κ} :
    b.held k = none ↔ ∀ e ∈ l, key e ≠ k := by
  rw [← Option.not_isSome_iff_eq_none, h.isSome_iff]
  push Not
  rfl

/-- An entry whose key is held stays out. -/
theorem Holds.offer_of_mem (h : b.Holds key l) {e' : ε} (hmem : e' ∈ l) (hkey : key e' = key e) :
    b.offer (key e) e = b :=
  b.offer_of_held (h.isSome_iff.mpr ⟨e', hmem, hkey⟩)

/-- Nothing is held under a key between the smaller and the larger ones. -/
theorem Holds.free (h : b.Holds key (front ++ back)) (hfront : ∀ e' ∈ front, key e' < key e)
    (hback : ∀ e' ∈ back, key e < key e') : b.held (key e) = none := by
  refine h.eq_none_iff.mpr fun e' he' => ?_
  rcases List.mem_append.mp he' with he' | he'
  · exact (hfront e' he').ne
  · exact (hback e' he').ne'

/-- An entry goes in between the smaller and the larger ones. -/
theorem Holds.insert (h : b.Holds key (front ++ back)) (hfront : ∀ e' ∈ front, key e' < key e)
    (hback : ∀ e' ∈ back, key e < key e') :
    (b.offer (key e) e).Holds key (front ++ e :: back) := by
  have hfree := h.free hfront hback
  obtain ⟨hf, hb, hfb⟩ := List.pairwise_append.mp h.sorted
  rw [b.offer_of_free hfree]
  refine ⟨List.pairwise_append.mpr ⟨hf, List.pairwise_cons.mpr ⟨hback, hb⟩, ?_⟩, ?_⟩
  · intro e₁ he₁ e₂ he₂
    rcases List.mem_cons.mp he₂ with rfl | he₂
    · exact hfront e₁ he₁
    · exact hfb e₁ he₁ e₂ he₂
  · intro k e'
    have hmem : e' ∈ front ++ e :: back ↔ e' = e ∨ e' ∈ front ++ back := by
      simp only [List.mem_append, List.mem_cons]
      tauto
    rw [hmem]
    change Function.update b.held (key e) (some e) k = some e' ↔ _
    by_cases hk : k = key e
    · subst hk
      rw [Function.update_self, Option.some_inj]
      constructor
      · rintro rfl
        exact ⟨Or.inl rfl, rfl⟩
      · rintro ⟨rfl | he', hkey⟩
        · rfl
        · exact absurd hkey (h.eq_none_iff.mp hfree e' he')
    · rw [Function.update_of_ne hk, h.held]
      refine and_congr_left fun hkey => ⟨Or.inr, ?_⟩
      rintro (rfl | he')
      · exact absurd hkey.symm hk
      · exact he'

/-- The rest of the list is the buffer that is left. -/
theorem Holds.tail (h : b.Holds key (e :: l)) : (b.drop (key e)).Holds key l := by
  obtain ⟨hhead, hsorted⟩ := List.pairwise_cons.mp h.sorted
  refine ⟨hsorted, fun k e' => ?_⟩
  change Function.update b.held (key e) none k = some e' ↔ _
  by_cases hk : k = key e
  · subst hk
    rw [Function.update_self]
    refine iff_of_false (by simp) ?_
    rintro ⟨he', hkey⟩
    exact (hhead e' he').ne hkey.symm
  · rw [Function.update_of_ne hk, h.held, List.mem_cons]
    refine and_congr_left fun hkey => ⟨?_, Or.inr⟩
    rintro (rfl | he')
    · exact absurd hkey.symm hk
    · exact he'

/-- A buffer is one list only. -/
theorem Holds.unique (h : b.Holds key l) {l' : List ε} (h' : b.Holds key l') : l = l' := by
  have hmem : ∀ e, e ∈ l ↔ e ∈ l' := fun e =>
    ⟨fun he => ((h'.held _ e).mp ((h.held _ e).mpr ⟨he, rfl⟩)).1,
      fun he => ((h.held _ e).mp ((h'.held _ e).mpr ⟨he, rfl⟩)).1⟩
  have hnodup : ∀ {l : List ε}, (l.Pairwise fun e e' => key e < key e') → l.Nodup :=
    fun hl => hl.imp fun hlt heq => (congrArg key heq ▸ hlt).ne rfl
  refine List.Perm.eq_of_pairwise (fun _ _ _ _ hlt hgt => absurd hgt hlt.asymm) h.sorted
    h'.sorted ?_
  exact (List.perm_ext_iff_of_nodup (hnodup h.sorted) (hnodup h'.sorted)).mpr hmem

/-- Takes entries in one after the other. -/
def offerAll (key : ε → κ) (b : ReorderBuffer κ ε) (es : List ε) : ReorderBuffer κ ε :=
  es.foldl (fun b e => b.offer (key e) e) b

/-- Entries with keys of their own that are not held are all taken in. -/
theorem held_offerAll {es : List ε} (hnodup : (es.map key).Nodup)
    (hfree : ∀ e ∈ es, b.held (key e) = none) {k : κ} {e : ε} :
    (b.offerAll key es).held k = some e ↔ b.held k = some e ∨ (e ∈ es ∧ key e = k) := by
  induction es generalizing b with
  | nil => simp [offerAll]
  | cons e₁ es ih =>
    obtain ⟨hfree₁, hfree⟩ := List.forall_mem_cons.mp hfree
    rw [List.map_cons, List.nodup_cons] at hnodup
    have hne : ∀ e ∈ es, key e ≠ key e₁ := fun e he heq =>
      hnodup.1 (heq ▸ List.mem_map_of_mem he)
    rw [offerAll, List.foldl_cons, ← offerAll, b.offer_of_free hfree₁, ih hnodup.2]
    · change Function.update b.held (key e₁) (some e₁) k = some e ∨ _ ↔ _
      by_cases hk : k = key e₁
      · subst hk
        rw [Function.update_self, hfree₁, Option.some_inj, List.mem_cons]
        constructor
        · rintro (rfl | ⟨he, heq⟩)
          · exact Or.inr ⟨Or.inl rfl, rfl⟩
          · exact Or.inr ⟨Or.inr he, heq⟩
        · rintro (h | ⟨rfl | he, heq⟩)
          · cases h
          · exact Or.inl rfl
          · exact Or.inr ⟨he, heq⟩
      · rw [Function.update_of_ne hk, List.mem_cons]
        refine or_congr_right (and_congr_left fun heq => ⟨Or.inr, ?_⟩)
        rintro (rfl | he)
        · exact absurd heq.symm hk
        · exact he
    · intro e he
      exact (Function.update_of_ne (hne e he) _ _).trans (hfree e he)

/-- Entries that arrive in any order are the list of them in the order of their keys. -/
theorem holds_offerAll {es : List ε} (hperm : es.Perm l)
    (hsorted : l.Pairwise fun e e' => key e < key e') :
    (empty.offerAll key es).Holds key l := by
  refine ⟨hsorted, fun k e => ?_⟩
  have hnodup : (l.map key).Nodup := (List.pairwise_map.mpr hsorted).imp fun hlt => hlt.ne
  rw [held_offerAll (((hperm.map key).nodup_iff).mpr hnodup) fun e he => rfl, hperm.mem_iff]
  exact or_iff_right (Option.some_ne_none e).symm

variable [WellFoundedLT κ]

/-- An empty list has nothing to give out. -/
theorem Holds.take_nil (h : b.Holds key []) : b.take = (b, none) := by
  refine dif_neg ?_
  rintro ⟨k, hk⟩
  obtain ⟨e, he, -⟩ := h.isSome_iff.mp hk
  exact absurd he List.not_mem_nil

/-- The head of the list is given out. -/
theorem Holds.take_cons (h : b.Holds key (e :: l)) : b.take = (b.drop (key e), some e) := by
  have he : b.held (key e) = some e := (h.held _ _).mpr ⟨List.mem_cons_self, rfl⟩
  have hne : {k | (b.held k).isSome}.Nonempty := ⟨key e, by simp [he]⟩
  have hleast : wellFounded_lt.min _ hne = key e := by
    refine le_antisymm (wellFounded_lt.min_le (s := {k | (b.held k).isSome}) (by simp [he])) ?_
    obtain ⟨e', he', hkey⟩ := h.isSome_iff.mp (wellFounded_lt.min_mem _ hne)
    rw [← hkey]
    rcases List.mem_cons.mp he' with rfl | he'
    · exact le_rfl
    · exact ((List.pairwise_cons.mp h.sorted).1 e' he').le
  rw [take, dif_pos hne, hleast, he]

end ReorderBuffer

end CSem
