import Mathlib.Data.List.Nodup
import Mathlib.Logic.Function.Basic
import Mathlib.Tactic.Common

/-!
# Doubly linked lists

The nodes of a list in memory are told by the two links of each node. `Linked prev next p xs q`
says that `xs` are linked in order, with `p` in front of the first and `q` behind the last;
`relink` stores a link in a node that need not exist. Unlinking a node, and linking one in
front of the list or behind it, are stores of at most two links each.
-/

namespace CSem

variable {α : Type*}

/-- The nodes are linked in order, with `p` in front of the first and `q` behind the last. -/
def Linked (prev next : α → Option α) : Option α → List α → Option α → Prop
  | _, [], _ => True
  | p, a :: xs, q => prev a = p ∧ next a = xs.head?.or q ∧ Linked prev next (some a) xs q

/-- Store a link in a node, if there is one. -/
def relink [DecidableEq α] (link : α → Option α) : Option α → Option α → α → Option α
  | none, _ => link
  | some a, v => Function.update link a v

variable {prev next prev' next' : α → Option α} {p q p' q' : Option α} {xs ys : List α} {a : α}

theorem linked_congr (hprev : ∀ a ∈ xs, prev' a = prev a) (hnext : ∀ a ∈ xs, next' a = next a)
    (h : Linked prev next p xs q) : Linked prev' next' p xs q := by
  induction xs generalizing p with
  | nil => trivial
  | cons a xs ih =>
    rw [List.forall_mem_cons] at hprev hnext
    exact ⟨hprev.1.trans h.1, hnext.1.trans h.2.1, ih hprev.2 hnext.2 h.2.2⟩

/-- Two parts are linked one behind the other. -/
theorem linked_append : Linked prev next p (xs ++ ys) q ↔
    Linked prev next p xs (ys.head?.or q) ∧ Linked prev next (xs.getLast?.or p) ys q := by
  induction xs generalizing p with
  | nil => exact (and_iff_right trivial).symm
  | cons a xs ih =>
    have hlast : (a :: xs).getLast?.or p = xs.getLast?.or (some a) := by
      cases xs with
      | nil => rfl
      | cons b xs => simp [List.getLast?_cons]
    rw [List.cons_append, Linked, Linked, ih, hlast, List.head?_append, Option.or_assoc, and_assoc,
      and_assoc]

/-- The links of a node in the middle. -/
theorem linked_middle {front back : List α} :
    Linked prev next p (front ++ a :: back) q ↔
      Linked prev next p front (some a) ∧ prev a = front.getLast?.or p ∧
        next a = back.head?.or q ∧ Linked prev next (some a) back q := by
  rw [linked_append, Linked, List.head?_cons, Option.some_or]

section

variable [DecidableEq α]

theorem relink_of_ne {link : α → Option α} {o v : Option α} (h : o ≠ some a) :
    relink link o v a = link a := by
  cases o with
  | none => rfl
  | some b =>
    have hne : a ≠ b := fun he => h (congrArg some he.symm)
    exact Function.update_of_ne hne _ _

/-- Another node behind the last one. -/
theorem linked_relink_next (h : Linked prev next p xs q) (hnodup : xs.Nodup) :
    Linked prev (relink next xs.getLast? q') p xs q' := by
  rcases List.eq_nil_or_concat xs with rfl | ⟨front, b, rfl⟩
  · trivial
  rw [List.concat_eq_append] at h hnodup ⊢
  rw [linked_middle] at h ⊢
  have hlast : (front ++ [b]).getLast? = some b := List.getLast?_concat
  have hb : b ∉ front := (List.nodup_append.mp hnodup).2.2 |> fun hdisj hmem =>
    hdisj b hmem b (List.mem_singleton.mpr rfl) rfl
  refine ⟨?_, h.2.1, ?_, trivial⟩
  · refine linked_congr (fun _ _ => rfl) (fun c hc => ?_) h.1
    refine relink_of_ne fun he => hb ?_
    rw [hlast, Option.some.injEq] at he
    exact he ▸ hc
  · rw [hlast]
    exact Function.update_self ..

/-- Another node in front of the first one. -/
theorem linked_relink_prev (h : Linked prev next p xs q) (hnodup : xs.Nodup) :
    Linked (relink prev xs.head? p') next p' xs q := by
  cases xs with
  | nil => trivial
  | cons b xs =>
    have hb : b ∉ xs := (List.nodup_cons.mp hnodup).1
    refine ⟨Function.update_self .., h.2.1, ?_⟩
    refine linked_congr (fun c hc => ?_) (fun _ _ => rfl) h.2.2
    refine relink_of_ne fun he => hb ?_
    rw [List.head?_cons, Option.some.injEq] at he
    exact he ▸ hc

/-- Two parts are linked to each other. -/
theorem linked_join (hxs : Linked prev next p xs q') (hys : Linked prev next p' ys q)
    (hnodup : (xs ++ ys).Nodup) :
    Linked (relink prev ys.head? (xs.getLast?.or p)) (relink next xs.getLast? (ys.head?.or q)) p
      (xs ++ ys) q := by
  obtain ⟨hnodup, hnodup', hdisjoint⟩ := List.nodup_append.mp hnodup
  rw [linked_append]
  constructor
  · refine linked_congr (fun a ha => relink_of_ne fun he => ?_) (fun _ _ => rfl)
      (linked_relink_next hxs hnodup)
    exact hdisjoint a ha a (List.mem_of_head? he) rfl
  · refine linked_congr (fun _ _ => rfl) (fun a ha => relink_of_ne fun he => ?_)
      (linked_relink_prev hys hnodup')
    exact hdisjoint a (List.mem_of_getLast? he) a ha rfl

/-- A node leaves the list once its neighbours are linked to each other. -/
theorem linked_unlink {front back : List α}
    (h : Linked prev next none (front ++ a :: back) none) (hnodup : (front ++ a :: back).Nodup) :
    Linked (relink prev (next a) (prev a)) (relink next (prev a) (next a)) none (front ++ back)
      none := by
  obtain ⟨hfront, hprev, hnext, hback⟩ := linked_middle.mp h
  rw [Option.or_none] at hprev hnext
  have hrest : (front ++ back).Nodup :=
    hnodup.sublist (List.Sublist.append_left (List.sublist_cons_self a back) front)
  have hjoin := linked_join hfront hback hrest
  rwa [Option.or_none, Option.or_none, ← hprev, ← hnext] at hjoin

/-- A node comes in front of the list. -/
theorem linked_push_front (h : Linked prev next none xs none) (hnodup : xs.Nodup) (ha : a ∉ xs) :
    Linked (relink (Function.update prev a none) xs.head? (some a))
      (Function.update next a xs.head?) none (a :: xs) none := by
  have hne : ∀ {f : α → Option α} {v : Option α}, ∀ b ∈ xs, Function.update f a v b = f b :=
    fun b hb => Function.update_of_ne (ne_of_mem_of_not_mem hb ha) _ _
  refine ⟨?_, ?_, ?_⟩
  · rw [relink_of_ne fun he => ha (List.mem_of_head? he), Function.update_self]
  · rw [Function.update_self, Option.or_none]
  · exact linked_relink_prev (linked_congr hne hne h) hnodup

/-- A node comes behind the list. -/
theorem linked_push_back (h : Linked prev next none xs none) (hnodup : xs.Nodup) (ha : a ∉ xs) :
    Linked (Function.update prev a xs.getLast?)
      (relink (Function.update next a none) xs.getLast? (some a)) none (xs ++ [a]) none := by
  have hne : ∀ {f : α → Option α} {v : Option α}, ∀ b ∈ xs, Function.update f a v b = f b :=
    fun b hb => Function.update_of_ne (ne_of_mem_of_not_mem hb ha) _ _
  rw [linked_middle, Option.or_none]
  refine ⟨?_, ?_, ?_, trivial⟩
  · exact linked_relink_next (linked_congr hne hne h) hnodup
  · rw [Function.update_self]
  · rw [relink_of_ne fun he => ha (List.mem_of_getLast? he), Function.update_self]
    rfl

end

end CSem
