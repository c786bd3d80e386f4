import Jrtplib4Android.Core.Block
import Mathlib.Data.List.Nodup
import Mathlib.Tactic.Common

/-!
# Maps with a cursor

A `CursorMap` keeps its entries in the order in which they were added, no key twice, and has a
cursor, which is on an entry, on none, not set yet, or left behind on an entry that was cleared
away. A cursor of the last two kinds cannot be followed. A `sweep` visits each entry once, in
order, while it updates some entries and deletes others.
-/

namespace CSem

variable {κ ε : Type}

/-- Where the cursor of a map is. -/
inductive Cursor (κ : Type) where
  | unset
  | null
  | on (k : κ)
  | dangling
  deriving DecidableEq

def Cursor.ofOption : Option κ → Cursor κ
  | none => .null
  | some k => .on k

/-- The cursor once its entry is gone. -/
def Cursor.leave : Cursor κ → Cursor κ
  | .unset => .unset
  | .null => .null
  | .on _ | .dangling => .dangling

/-- A cursor that is left behind is on no key. -/
theorem Cursor.leave_ne_on (c : Cursor κ) (k : κ) : c.leave ≠ .on k := by
  intro h
  cases c <;> cases h

/-- A cursor is on the key that there is. -/
@[simp] theorem Cursor.ofOption_eq_on {o : Option κ} {k : κ} :
    Cursor.ofOption o = .on k ↔ o = some k := by
  cases o <;> simp [Cursor.ofOption]

section

variable [DecidableEq κ]

/-- The key behind another one. -/
def keyAfter (k : κ) (ks : List κ) : Option κ := (ks.dropWhile (· ≠ k)).tail.head?

/-- The key in front of another one. -/
def keyBefore (k : κ) (ks : List κ) : Option κ := (ks.takeWhile (· ≠ k)).getLast?

/-- The key after another is the next one in the list. -/
theorem keyAfter_split {k : κ} {front back : List κ} (h : k ∉ front) :
    keyAfter k (front ++ k :: back) = back.head? := by
  have hfront : ∀ a ∈ front, decide (a ≠ k) = true :=
    fun a ha => decide_eq_true (ne_of_mem_of_not_mem ha h)
  rw [keyAfter, List.dropWhile_append_of_pos hfront, List.dropWhile_cons_of_neg (by simp)]
  rfl

/-- The key before another is the last one in front of it. -/
theorem keyBefore_split {k : κ} {front back : List κ} (h : k ∉ front) :
    keyBefore k (front ++ k :: back) = front.getLast? := by
  have hfront : ∀ a ∈ front, decide (a ≠ k) = true :=
    fun a ha => decide_eq_true (ne_of_mem_of_not_mem ha h)
  rw [keyBefore, List.takeWhile_append_of_pos hfront, List.takeWhile_cons_of_neg (by simp),
    List.append_nil]

/-- The key after another is in the list. -/
theorem mem_of_keyAfter {k k' : κ} {ks : List κ} (h : keyAfter k ks = some k') : k' ∈ ks :=
  (List.dropWhile_sublist _).subset (List.mem_of_mem_tail (List.mem_of_head? h))

/-- So is the key before it. -/
theorem mem_of_keyBefore {k k' : κ} {ks : List κ} (h : keyBefore k ks = some k') : k' ∈ ks :=
  (List.takeWhile_sublist _).subset (List.mem_of_getLast? h)

/-- The key after another is a different one. -/
theorem keyAfter_ne {k k' : κ} {ks : List κ} (hnodup : ks.Nodup)
    (h : keyAfter k ks = some k') : k' ≠ k := by
  have hdrop : (ks.dropWhile (· ≠ k)).Nodup := hnodup.sublist (List.dropWhile_sublist _)
  rw [keyAfter] at h
  cases hks : ks.dropWhile (· ≠ k) with
  | nil =>
    rw [hks] at h
    cases h
  | cons a rest =>
    rw [hks] at h hdrop
    have ha : a = k := by
      have hhead := List.head?_dropWhile_not (fun b => decide (b ≠ k)) ks
      rw [hks] at hhead
      simpa using hhead
    rw [← ha]
    exact ne_of_mem_of_not_mem (List.mem_of_head? h) (List.nodup_cons.mp hdrop).1

end

/-- Entries in the order of their arrival, no key twice, and a cursor. -/
structure CursorMap (κ ε : Type) where
  entries : List (κ × ε)
  cursor : Cursor κ
  nodup : (entries.map Prod.fst).Nodup
  on_mem : ∀ k, cursor = .on k → k ∈ entries.map Prod.fst

namespace CursorMap

/-- The keys in the order of their arrival. -/
def keys (m : CursorMap κ ε) : List κ := m.entries.map Prod.fst

/-- A map is its entries and its cursor. -/
@[ext] theorem ext {m m' : CursorMap κ ε} (hentries : m.entries = m'.entries)
    (hcursor : m.cursor = m'.cursor) : m = m' := by
  cases m
  cases m'
  cases hentries
  cases hcursor
  rfl

/-- No entries, and a cursor that is not set. -/
def empty : CursorMap κ ε := ⟨[], .unset, List.nodup_nil, fun _ h => by cases h⟩

/-- The cursor on a key, or on none. -/
def seek (m : CursorMap κ ε) (o : Option κ) (h : ∀ k, o = some k → k ∈ m.keys) :
    CursorMap κ ε :=
  ⟨m.entries, .ofOption o, m.nodup, fun k hk => h k (Cursor.ofOption_eq_on.mp hk)⟩

def goFirst (m : CursorMap κ ε) : CursorMap κ ε :=
  m.seek m.keys.head? fun _ h => List.mem_of_head? h

def goLast (m : CursorMap κ ε) : CursorMap κ ε :=
  m.seek m.keys.getLast? fun _ h => List.mem_of_getLast? h

/-- Whether the cursor is on an entry, as far as can be seen without following it. -/
def hasCurrent (m : CursorMap κ ε) : Except Fault Bool :=
  match m.cursor with
  | .unset => .error .read
  | .null => .ok false
  | .on _ | .dangling => .ok true

/-- The key under the cursor. -/
def current (m : CursorMap κ ε) : Except Fault (Option κ) :=
  match m.cursor with
  | .unset | .dangling => .error .read
  | .null => .ok none
  | .on k => .ok (some k)

section

variable [DecidableEq κ]

/-- The entry of a key. -/
def get? (m : CursorMap κ ε) (k : κ) : Option ε :=
  (m.entries.find? fun p => p.1 = k).map Prod.snd

/-- An entry is found under its key. -/
theorem get?_of_mem {m : CursorMap κ ε} {k : κ} {e : ε} (h : (k, e) ∈ m.entries) :
    m.get? k = some e := by
  obtain ⟨front, back, hentries⟩ := List.append_of_mem h
  have hnodup := m.nodup
  rw [hentries, List.map_append, List.map_cons] at hnodup
  have hfront : ∀ p ∈ front, ¬ decide (p.1 = k) = true := fun p hp heq =>
    (List.nodup_append.mp hnodup).2.2 p.1 (List.mem_map_of_mem hp) k List.mem_cons_self
      (of_decide_eq_true heq)
  rw [get?, hentries, List.find?_append, List.find?_eq_none.mpr hfront, Option.none_or,
    List.find?_cons]
  simp only [decide_true, Option.map_some]

/-- The entry under the cursor. -/
def getCurrent (m : CursorMap κ ε) : Except Fault (κ × ε) := do
  match ← m.current with
  | none => .error .null
  | some k =>
    match m.get? k with
    | some e => .ok (k, e)
    | none => .error .read

/-- The entry under a cursor that is on a key. -/
theorem getCurrent_eq {m : CursorMap κ ε} {k : κ} {e : ε} (hk : m.current = .ok (some k))
    (he : m.get? k = some e) : m.getCurrent = .ok (k, e) := by
  simp only [getCurrent, hk, he, bind, Except.bind]

/-- The cursor on a key, if it is there. -/
def goto (m : CursorMap κ ε) (k : κ) : CursorMap κ ε :=
  m.seek (if k ∈ m.keys then some k else none) fun k' h => by
    split at h
    · cases h
      assumption
    · cases h

/-- The cursor one entry on. -/
def goNext (m : CursorMap κ ε) : Except Fault (CursorMap κ ε) :=
  m.current.map fun
    | none => m
    | some k => m.seek (keyAfter k m.keys) fun _ h => mem_of_keyAfter h

/-- The cursor one entry back. -/
def goPrevious (m : CursorMap κ ε) : Except Fault (CursorMap κ ε) :=
  m.current.map fun
    | none => m
    | some k => m.seek (keyBefore k m.keys) fun _ h => mem_of_keyBefore h

/-- Another value for a key. -/
def modify (m : CursorMap κ ε) (k : κ) (f : ε → ε) : CursorMap κ ε :=
  have hkeys : (m.entries.map fun p => if p.1 = k then (p.1, f p.2) else p).map Prod.fst =
      m.entries.map Prod.fst := by
    rw [List.map_map]
    refine List.map_congr_left fun p _ => ?_
    rw [Function.comp_apply]
    split <;> rfl
  ⟨m.entries.map fun p => if p.1 = k then (p.1, f p.2) else p, m.cursor, hkeys ▸ m.nodup,
    hkeys ▸ m.on_mem⟩

/-- Another value under the cursor. -/
def updateCurrent (m : CursorMap κ ε) (f : ε → ε) : Except Fault (CursorMap κ ε) := do
  match ← m.current with
  | none => .error .null
  | some k => .ok (m.modify k f)

/-- A new key, behind the others. -/
def add (m : CursorMap κ ε) (k : κ) (e : ε) : CursorMap κ ε :=
  if h : k ∈ m.keys then m
  else
    have hkeys : (m.entries ++ [(k, e)]).map Prod.fst = m.keys ++ [k] := by
      rw [List.map_append]
      rfl
    ⟨m.entries ++ [(k, e)], m.cursor, by
      rw [hkeys, List.nodup_append]
      refine ⟨m.nodup, List.nodup_singleton k, fun a ha b hb => ?_⟩
      rw [List.mem_singleton.mp hb]
      exact ne_of_mem_of_not_mem ha h, fun k' hk' => by
      rw [hkeys]
      exact List.mem_append_left _ (m.on_mem k' hk')⟩

/-- A new entry is the last one. -/
theorem entries_add {m : CursorMap κ ε} {k : κ} (h : k ∉ m.keys) (e : ε) :
    (m.add k e).entries = m.entries ++ [(k, e)] := by
  rw [add, dif_neg h]

/-- Adding leaves the cursor. -/
theorem cursor_add (m : CursorMap κ ε) (k : κ) (e : ε) : (m.add k e).cursor = m.cursor := by
  rw [add]
  split <;> rfl

/-- A key goes, and the cursor is on the next one. -/
def erase (m : CursorMap κ ε) (k : κ) : CursorMap κ ε where
  entries := m.entries.filter fun p => p.1 ≠ k
  cursor := .ofOption (keyAfter k m.keys)
  nodup := m.nodup.sublist (List.filter_sublist.map _)
  on_mem k' hk' := by
    rw [Cursor.ofOption_eq_on] at hk'
    obtain ⟨p, hp, rfl⟩ := List.mem_map.mp (mem_of_keyAfter hk')
    refine List.mem_map_of_mem (List.mem_filter.mpr ⟨hp, decide_eq_true ?_⟩)
    exact keyAfter_ne m.nodup hk'

end

/-- The entries go, and a cursor that was on one of them is left behind. -/
def clear (m : CursorMap κ ε) : CursorMap κ ε where
  entries := []
  cursor := m.cursor.leave
  nodup := List.nodup_nil
  on_mem k hk := absurd hk (Cursor.leave_ne_on m.cursor k)

/-- Clearing leaves the cursor behind. -/
theorem cursor_clear (m : CursorMap κ ε) : m.clear.cursor = m.cursor.leave := rfl

end CursorMap

end CSem
