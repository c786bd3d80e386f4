import Jrtplib4Android.Core.CursorMap
import Jrtplib4Android.Rtp.KeyHashTable
import Mathlib.Data.List.Perm.Subperm

/-!
# The key hash table is a map with a cursor

The elements of an `RTPKeyHashTable` are linked in the list in the order of their arrival and
in each bucket the other way round; `Represents` says so of the addresses. Whatever is done
to the table, it replies as a `CursorMap` does, and an access faults exactly where the map
cannot follow its cursor or the index of a key is negative.
-/

namespace Jrtplib4Android

open CSem

namespace RTPKeyHashTable

variable {Key Element : Type}

/-- The key at an address. -/
def keyAt (t : RTPKeyHashTable Key Element) (a : Nat) : Option Key :=
  (t.elements a).map HashElement.key

/-- The entry at an address. -/
def entryAt (t : RTPKeyHashTable Key Element) (a : Nat) : Option (Key × Element) :=
  (t.elements a).map fun e => (e.key, e.element)

/-- The cursor that `curhashelem` stands for. -/
def cursor (t : RTPKeyHashTable Key Element) : Cursor Key :=
  match t.curhashelem with
  | none => .unset
  | some none => .null
  | some (some a) =>
    match t.elements a with
    | some e => .on e.key
    | none => .dangling

/-- Whether the element at an address is in a bucket. -/
def inBucket (t : RTPKeyHashTable Key Element) (i a : Nat) : Bool :=
  (t.elements a).any fun e => e.hashindex = i

/-- The addresses of a bucket. -/
def bucket (t : RTPKeyHashTable Key Element) (xs : List Nat) (i : Nat) : List Nat :=
  (xs.filter (t.inBucket i)).reverse

/-- The elements are at the addresses `xs`, in the order of their arrival, and linked. -/
structure Represents (getIndex : Key → Int) (hashsize : Nat)
    (t : RTPKeyHashTable Key Element) (xs : List Nat) : Prop where
  nodup : xs.Nodup
  live : ∀ a, (t.elements a).isSome ↔ a ∈ xs
  bound : ∀ a ∈ xs, a < t.unused
  cursor_bound : ∀ a, t.curhashelem = some (some a) → a < t.unused
  first : t.firsthashelem = xs.head?
  last : t.lasthashelem = xs.getLast?
  list : Linked t.listprev t.listnext none xs none
  hashed : ∀ a e, t.elements a = some e →
    tableIndex getIndex hashsize e.key = .ok (some e.hashindex)
  keys : ∀ a b k, t.keyAt a = some k → t.keyAt b = some k → a = b
  buckets : ∀ i < hashsize, t.table i = (t.bucket xs i).head? ∧
    Linked t.hashprev t.hashnext none (t.bucket xs i) none

variable {getIndex : Key → Int} {hashsize : Nat} {t : RTPKeyHashTable Key Element}
  {xs : List Nat}

/-- An index that is accepted is one of the table. -/
theorem tableIndex_lt {k : Key} {i : Nat}
    (h : tableIndex getIndex hashsize k = .ok (some i)) : i < hashsize := by
  rw [tableIndex] at h
  split at h
  · cases h
  split at h
  · cases h
  · cases h
    omega

/-- An element that is there can be stored to. -/
theorem storable_of_live {o : Option Nat} (h : ∀ a, o = some a → (t.elements a).isSome) :
    t.storable o = .ok () := by
  cases o with
  | none => rfl
  | some a => exact if_pos (h a rfl)

/-- An element that is there can be read. -/
theorem load_of_some {a : Nat} {e : HashElement Key Element} (h : t.elements a = some e) :
    t.load a = .ok e := by
  rw [load, h]

theorem keyAt_of_some {a : Nat} {e : HashElement Key Element} (h : t.elements a = some e) :
    t.keyAt a = some e.key := by
  rw [keyAt, h]
  rfl

namespace Represents

/-- The addresses of the list have elements. -/
theorem exists_element (h : t.Represents getIndex hashsize xs) {a : Nat} (ha : a ∈ xs) :
    ∃ e, t.elements a = some e := Option.isSome_iff_exists.mp ((h.live a).mpr ha)

/-- An element is in the list. -/
theorem mem_of_some (h : t.Represents getIndex hashsize xs) {a : Nat}
    {e : HashElement Key Element} (he : t.elements a = some e) : a ∈ xs :=
  (h.live a).mp (he ▸ rfl)

/-- Addresses of the list have keys. -/
theorem live_keyAt (h : t.Represents getIndex hashsize xs) {ys : List Nat}
    (hys : ∀ a ∈ ys, a ∈ xs) : ∀ a ∈ ys, (t.keyAt a).isSome := by
  intro a ha
  rw [keyAt, Option.isSome_map]
  exact (h.live a).mpr (hys a ha)

/-- The elements do not take more addresses than were given out. -/
theorem length_le (h : t.Represents getIndex hashsize xs) : xs.length ≤ t.unused := by
  have hsub : xs ⊆ List.range t.unused := fun a ha => List.mem_range.mpr (h.bound a ha)
  have hle := (h.nodup.subperm hsub).length_le
  rwa [List.length_range] at hle

/-- A bucket has the elements of its index. -/
theorem mem_bucket (h : t.Represents getIndex hashsize xs) {i a : Nat} :
    a ∈ t.bucket xs i ↔ ∃ e, t.elements a = some e ∧ e.hashindex = i := by
  rw [bucket, List.mem_reverse, List.mem_filter, inBucket]
  constructor
  · rintro ⟨ha, hany⟩
    obtain ⟨e, he⟩ := h.exists_element ha
    rw [he] at hany
    exact ⟨e, he, of_decide_eq_true hany⟩
  · rintro ⟨e, he, rfl⟩
    exact ⟨h.mem_of_some he, by rw [he]; exact decide_eq_true rfl⟩

/-- A bucket has every element once. -/
theorem nodup_bucket (h : t.Represents getIndex hashsize xs) (i : Nat) :
    (t.bucket xs i).Nodup :=
  List.nodup_reverse.mpr (h.nodup.sublist List.filter_sublist)

end Represents

section

variable [DecidableEq Key]

/-- The search finds the first element of a bucket that has the key. -/
theorem find_eq_of_linked {k : Key} {ys : List Nat} {p : Option Nat} {fuel : Nat}
    (hlinked : Linked t.hashprev t.hashnext p ys none)
    (hlive : ∀ a ∈ ys, ∃ e, t.elements a = some e) (hfuel : ys.length ≤ fuel) :
    t.find k fuel ys.head? = .ok (ys.find? fun a => t.keyAt a = some k) := by
  induction ys generalizing p fuel with
  | nil => cases fuel <;> rfl
  | cons a ys ih =>
    rw [List.forall_mem_cons] at hlive
    obtain ⟨⟨e, he⟩, hlive⟩ := hlive
    obtain ⟨fuel, rfl⟩ : ∃ n, fuel = n + 1 := ⟨fuel - 1, by rw [List.length_cons] at hfuel; omega⟩
    have hkey : t.keyAt a = some k ↔ e.key = k := by
      rw [keyAt_of_some he, Option.some.injEq]
    rw [List.head?_cons, find, load_of_some he, List.find?_cons]
    change (if e.key = k then _ else _) = _
    by_cases hk : e.key = k
    · rw [if_pos hk, decide_eq_true (hkey.mpr hk)]
      rfl
    · rw [if_neg hk, decide_eq_false (fun h => hk (hkey.mp h)), hlinked.2.1, Option.or_none]
      exact ih hlinked.2.2 hlive (Nat.le_of_succ_le_succ hfuel)

/-- An element that alone has a property is the one that is found. -/
theorem find?_eq_of_unique {α : Type} {p : α → Bool} {l : List α} {a : α} (ha : a ∈ l)
    (hp : p a = true) (h : ∀ b, p b = true → b = a) : l.find? p = some a := by
  cases hfind : l.find? p with
  | none => exact absurd hp (List.find?_eq_none.mp hfind a ha)
  | some b => rw [h b (List.find?_some hfind)]

/-- The bucket of a key has the element of the key, if there is one. -/
theorem Represents.find_eq (h : t.Represents getIndex hashsize xs) {k : Key}
    {i : Nat} (hk : tableIndex getIndex hashsize k = .ok (some i)) :
    t.find k t.unused (t.table i) = .ok (xs.find? fun a => t.keyAt a = some k) := by
  obtain ⟨htable, hlinked⟩ := h.buckets _ (tableIndex_lt hk)
  have hlive : ∀ a ∈ t.bucket xs i, ∃ e, t.elements a = some e := by
    intro a ha
    obtain ⟨e, he, -⟩ := h.mem_bucket.mp ha
    exact ⟨e, he⟩
  have hlength : (t.bucket xs i).length ≤ t.unused := by
    refine Nat.le_trans ?_ h.length_le
    rw [bucket, List.length_reverse]
    exact List.length_filter_le _ _
  rw [htable, find_eq_of_linked hlinked hlive hlength]
  refine congrArg Except.ok ?_
  by_cases hex : ∃ a, t.keyAt a = some k
  · obtain ⟨a, ha⟩ := hex
    obtain ⟨e, he, rfl⟩ := Option.map_eq_some_iff.mp ha
    have hunique : ∀ b, decide (t.keyAt b = some e.key) = true → b = a :=
      fun b hb => h.keys b a _ (of_decide_eq_true hb) ha
    have hindex : e.hashindex = i := by
      have hindex := (h.hashed a e he).symm.trans hk
      cases hindex
      rfl
    have hmem : a ∈ t.bucket xs i := h.mem_bucket.mpr ⟨e, he, hindex⟩
    rw [find?_eq_of_unique hmem (decide_eq_true ha) hunique,
      find?_eq_of_unique (h.mem_of_some he) (decide_eq_true ha) hunique]
  · have hnone : ∀ l : List Nat, l.find? (fun a => t.keyAt a = some k) = none :=
      fun l => List.find?_eq_none.mpr fun a _ ha => hex ⟨a, of_decide_eq_true ha⟩
    rw [hnone, hnone]

end

/-! ## Operations and replies -/

/-- What can be done to a table. -/
inductive HashOp (Key Element : Type) where
  | gotoFirst
  | gotoLast
  | gotoNext
  | gotoPrevious
  | hasCurrent
  | getCurrent
  | update (f : Element → Element)
  | goto (k : Key)
  | has (k : Key)
  | add (k : Key) (elem : Element) (granted : Bool)
  | deleteCurrent
  | delete (k : Key)
  | clear

/-- What comes back. -/
inductive HashReply (Key Element : Type) where
  | done
  | flag (b : Bool)
  | entry (p : Key × Element)
  | status (s : HashStatus)

section

variable [DecidableEq Key]

/-- An operation on the table. -/
def perform (getIndex : Key → Int) (hashsize : Nat) (t : RTPKeyHashTable Key Element) :
    HashOp Key Element → Except Fault (RTPKeyHashTable Key Element × HashReply Key Element)
  | .gotoFirst => .ok (t.gotoFirstElement, .done)
  | .gotoLast => .ok (t.gotoLastElement, .done)
  | .gotoNext => t.gotoNextElement.map (·, .done)
  | .gotoPrevious => t.gotoPreviousElement.map (·, .done)
  | .hasCurrent => t.hasCurrentElement.map (t, .flag ·)
  | .getCurrent => t.getCurrentElement.map (t, .entry ·)
  | .update f => (t.updateCurrentElement f).map (·, .done)
  | .goto k => (t.gotoElement getIndex hashsize k).map (Prod.map id .status)
  | .has k => (t.hasElement getIndex hashsize k).map (t, .flag ·)
  | .add k elem granted =>
    (t.addElement getIndex hashsize k elem granted).map (Prod.map id .status)
  | .deleteCurrent => t.deleteCurrentElement.map (Prod.map id .status)
  | .delete k => (t.deleteElement getIndex hashsize k).map (Prod.map id .status)
  | .clear => t.clear.map (·, .done)

/-- The same operation on a map. -/
def mapPerform (getIndex : Key → Int) (hashsize : Nat) (m : CursorMap Key Element) :
    HashOp Key Element → Except Fault (CursorMap Key Element × HashReply Key Element)
  | .gotoFirst => .ok (m.goFirst, .done)
  | .gotoLast => .ok (m.goLast, .done)
  | .gotoNext => m.goNext.map (·, .done)
  | .gotoPrevious => m.goPrevious.map (·, .done)
  | .hasCurrent => m.hasCurrent.map (m, .flag ·)
  | .getCurrent => m.getCurrent.map (m, .entry ·)
  | .update f => (m.updateCurrent f).map (·, .done)
  | .goto k => (tableIndex getIndex hashsize k).map fun
    | none => (m, .status .functionReturnedInvalidHashIndex)
    | some _ => (m.goto k, .status (if k ∈ m.keys then .ok else .keyNotFound))
  | .has k => (tableIndex getIndex hashsize k).map fun _ => (m, .flag (decide (k ∈ m.keys)))
  | .add k elem granted => (tableIndex getIndex hashsize k).map fun
    | none => (m, .status .functionReturnedInvalidHashIndex)
    | some _ =>
      if k ∈ m.keys then (m, .status .keyAlreadyExists)
      else if granted then (m.add k elem, .status .ok) else (m, .status .outOfMem)
  | .deleteCurrent => m.current.map fun
    | none => (m, .status .noCurrentElement)
    | some k => (m.erase k, .status .ok)
  | .delete k => (tableIndex getIndex hashsize k).map fun
    | none => (m, .status .functionReturnedInvalidHashIndex)
    | some _ =>
      if k ∈ m.keys then (m.erase k, .status .ok) else (m.goto k, .status .keyNotFound)
  | .clear => .ok (m.clear, .done)

end

/-- The table has the entries and the cursor of the map. -/
structure Shows (getIndex : Key → Int) (hashsize : Nat) (t : RTPKeyHashTable Key Element)
    (m : CursorMap Key Element) (xs : List Nat) : Prop where
  represents : t.Represents getIndex hashsize xs
  entries : m.entries = xs.filterMap t.entryAt
  cursor : m.cursor = t.cursor

variable {m : CursorMap Key Element}

/-- Where all elements are mapped, the first one is mapped first. -/
theorem head?_filterMap_of_live {α β : Type} {f : α → Option β} {ys : List α}
    (h : ∀ a ∈ ys, (f a).isSome) : (ys.filterMap f).head? = ys.head?.bind f := by
  cases ys with
  | nil => rfl
  | cons a ys =>
    obtain ⟨b, hb⟩ := Option.isSome_iff_exists.mp (h a List.mem_cons_self)
    rw [List.filterMap_cons_some hb, List.head?_cons, List.head?_cons, Option.bind_some, hb]

/-- The last one is mapped last. -/
theorem getLast?_filterMap_of_live {α β : Type} {f : α → Option β} {ys : List α}
    (h : ∀ a ∈ ys, (f a).isSome) : (ys.filterMap f).getLast? = ys.getLast?.bind f := by
  rw [List.getLast?_eq_head?_reverse, List.getLast?_eq_head?_reverse, ← List.filterMap_reverse]
  exact head?_filterMap_of_live fun a ha => h a (List.mem_reverse.mp ha)

namespace Shows

/-- The keys of the map are those of the elements, in their order. -/
theorem keys_eq (h : t.Shows getIndex hashsize m xs) : m.keys = xs.filterMap t.keyAt := by
  rw [CursorMap.keys, h.entries, List.map_filterMap]
  refine List.filterMap_congr fun a _ => ?_
  rw [entryAt, keyAt, Option.map_map]
  rfl

/-- A key is in the map exactly if an element has it. -/
theorem mem_keys (h : t.Shows getIndex hashsize m xs) {k : Key} :
    k ∈ m.keys ↔ ∃ a ∈ xs, t.keyAt a = some k := by
  rw [h.keys_eq, List.mem_filterMap]

/-- Around an element, the keys are those of its neighbours. -/
theorem keys_split (h : t.Shows getIndex hashsize m xs) {a : Nat} {e : HashElement Key Element}
    (he : t.elements a = some e) : ∃ front back, xs = front ++ a :: back ∧
      m.keys = front.filterMap t.keyAt ++ e.key :: back.filterMap t.keyAt ∧
      e.key ∉ front.filterMap t.keyAt := by
  obtain ⟨front, back, rfl⟩ := List.append_of_mem (h.represents.mem_of_some he)
  have hkeys : m.keys = front.filterMap t.keyAt ++ e.key :: back.filterMap t.keyAt := by
    rw [h.keys_eq, List.filterMap_append, List.filterMap_cons_some (keyAt_of_some he)]
  refine ⟨front, back, rfl, hkeys, fun hmem => ?_⟩
  have hnodup : m.keys.Nodup := m.nodup
  rw [hkeys] at hnodup
  exact (List.nodup_append.mp hnodup).2.2 _ hmem _ List.mem_cons_self rfl

/-- The cursor goes to an element of the list, or off it. -/
theorem seek (h : t.Shows getIndex hashsize m xs) {o : Option Nat} (ho : ∀ a, o = some a → a ∈ xs)
    {ko : Option Key} (hko : ko = o.bind t.keyAt) (hmem : ∀ k, ko = some k → k ∈ m.keys) :
    Shows getIndex hashsize { t with curhashelem := some o } (m.seek ko hmem) xs := by
  refine ⟨?_, h.entries, ?_⟩
  · have hr := h.represents
    refine ⟨hr.nodup, hr.live, hr.bound, fun a ha => ?_, hr.first, hr.last, hr.list, hr.hashed,
      hr.keys, hr.buckets⟩
    exact hr.bound a (ho a (Option.some.inj ha))
  · subst hko
    cases o with
    | none => rfl
    | some a =>
      obtain ⟨e, he⟩ := h.represents.exists_element (ho a rfl)
      change Cursor.ofOption (t.keyAt a) = match t.elements a with
        | some e => Cursor.on e.key
        | none => Cursor.dangling
      rw [he, keyAt_of_some he]
      rfl

end Shows

/-- A table shows a map at some addresses. -/
def Shown (getIndex : Key → Int) (hashsize : Nat) (t : RTPKeyHashTable Key Element)
    (m : CursorMap Key Element) : Prop := ∃ xs, t.Shows getIndex hashsize m xs

/-- Where the cursor can be. -/
theorem Shows.current_cases (h : t.Shows getIndex hashsize m xs) :
    t.current = .error .read ∧ m.current = .error .read ∧ m.hasCurrent = .error .read ∨
    t.current = .ok none ∧ m.current = .ok none ∧ m.hasCurrent = .ok false ∨
    (∃ a, t.current = .ok (some a) ∧ t.load a = .error .read ∧ m.current = .error .read ∧
      m.hasCurrent = .ok true) ∨
    ∃ a e, t.current = .ok (some a) ∧ t.elements a = some e ∧ m.current = .ok (some e.key) ∧
      m.hasCurrent = .ok true := by
  have hcursor := h.cursor
  rw [RTPKeyHashTable.cursor] at hcursor
  rw [RTPKeyHashTable.current, CursorMap.current, CursorMap.hasCurrent, hcursor]
  cases t.curhashelem with
  | none => exact .inl ⟨rfl, rfl, rfl⟩
  | some cur =>
    cases cur with
    | none => exact .inr (.inl ⟨rfl, rfl, rfl⟩)
    | some a =>
      dsimp only
      cases he : t.elements a with
      | none => exact .inr (.inr (.inl ⟨a, rfl, by rw [load, he], rfl, rfl⟩))
      | some e => exact .inr (.inr (.inr ⟨a, e, rfl, he, rfl, rfl⟩))

/-- The cursor on the first element. -/
theorem Shows.gotoFirst (h : t.Shows getIndex hashsize m xs) :
    Shows getIndex hashsize t.gotoFirstElement m.goFirst xs := by
  refine h.seek (fun a ha => ?_) ?_ _
  · rw [h.represents.first] at ha
    exact List.mem_of_head? ha
  · rw [h.keys_eq, h.represents.first]
    exact head?_filterMap_of_live (h.represents.live_keyAt fun _ ha => ha)

/-- The cursor on the last element. -/
theorem Shows.gotoLast (h : t.Shows getIndex hashsize m xs) :
    Shows getIndex hashsize t.gotoLastElement m.goLast xs := by
  refine h.seek (fun a ha => ?_) ?_ _
  · rw [h.represents.last] at ha
    exact List.mem_of_getLast? ha
  · rw [h.keys_eq, h.represents.last]
    exact getLast?_filterMap_of_live (h.represents.live_keyAt fun _ ha => ha)

section

variable [DecidableEq Key]

/-- The next element is the next entry, and an element that is gone has none. -/
theorem agree_gotoNext (h : t.Shows getIndex hashsize m xs) :
    Agree (Shown getIndex hashsize) (perform getIndex hashsize t .gotoNext)
      (mapPerform getIndex hashsize m .gotoNext) := by
  rw [perform, mapPerform, gotoNextElement, CursorMap.goNext]
  rcases h.current_cases with ⟨ht, hm, -⟩ | ⟨ht, hm, -⟩ | ⟨a, ht, hload, hm, -⟩ |
    ⟨a, e, ht, he, hm, -⟩
  · rw [ht, hm]
    exact .error _
  · rw [ht, hm]
    exact .ok _ ⟨xs, h⟩
  · rw [ht, hm]
    change Agree _ ((t.load a >>= fun _ => _).map _) _
    rw [hload]
    exact .error _
  · rw [ht, hm]
    change Agree _ ((t.load a >>= fun _ => _).map _) _
    rw [load_of_some he]
    obtain ⟨front, back, rfl, hkeys, hfront⟩ := h.keys_split he
    have hnext : t.listnext a = back.head? := by
      rw [(linked_middle.mp h.represents.list).2.2.1, Option.or_none]
    refine .ok _ ⟨_, h.seek (fun b hb => ?_) ?_ _⟩
    · rw [hnext] at hb
      exact List.mem_append_right _ (List.mem_cons_of_mem _ (List.mem_of_head? hb))
    · rw [hkeys, keyAfter_split hfront, hnext]
      exact head?_filterMap_of_live (h.represents.live_keyAt fun b hb =>
        List.mem_append_right _ (List.mem_cons_of_mem _ hb))

/-- The previous element is the previous entry. -/
theorem agree_gotoPrevious (h : t.Shows getIndex hashsize m xs) :
    Agree (Shown getIndex hashsize) (perform getIndex hashsize t .gotoPrevious)
      (mapPerform getIndex hashsize m .gotoPrevious) := by
  rw [perform, mapPerform, gotoPreviousElement, CursorMap.goPrevious]
  rcases h.current_cases with ⟨ht, hm, -⟩ | ⟨ht, hm, -⟩ | ⟨a, ht, hload, hm, -⟩ |
    ⟨a, e, ht, he, hm, -⟩
  · rw [ht, hm]
    exact .error _
  · rw [ht, hm]
    exact .ok _ ⟨xs, h⟩
  · rw [ht, hm]
    change Agree _ ((t.load a >>= fun _ => _).map _) _
    rw [hload]
    exact .error _
  · rw [ht, hm]
    change Agree _ ((t.load a >>= fun _ => _).map _) _
    rw [load_of_some he]
    obtain ⟨front, back, rfl, hkeys, hfront⟩ := h.keys_split he
    have hprev : t.listprev a = front.getLast? := by
      rw [(linked_middle.mp h.represents.list).2.1, Option.or_none]
    refine .ok _ ⟨_, h.seek (fun b hb => ?_) ?_ _⟩
    · rw [hprev] at hb
      exact List.mem_append_left _ (List.mem_of_getLast? hb)
    · rw [hkeys, keyBefore_split hfront, hprev]
      exact getLast?_filterMap_of_live (h.represents.live_keyAt fun b hb =>
        List.mem_append_left _ hb)

/-- The table has a current element where the map has one. -/
theorem agree_hasCurrent (h : t.Shows getIndex hashsize m xs) :
    Agree (Shown getIndex hashsize) (perform getIndex hashsize t .hasCurrent)
      (mapPerform getIndex hashsize m .hasCurrent) := by
  rw [perform, mapPerform, hasCurrentElement]
  rcases h.current_cases with ⟨ht, -, hm⟩ | ⟨ht, -, hm⟩ | ⟨a, ht, -, -, hm⟩ | ⟨a, e, ht, -, -, hm⟩
  · rw [ht, hm]
    exact .error _
  · rw [ht, hm]
    exact .ok _ ⟨xs, h⟩
  · rw [ht, hm]
    exact .ok _ ⟨xs, h⟩
  · rw [ht, hm]
    exact .ok _ ⟨xs, h⟩

/-- The entry of an element. -/
theorem Shows.get?_eq (h : t.Shows getIndex hashsize m xs) {a : Nat}
    {e : HashElement Key Element} (he : t.elements a = some e) : m.get? e.key = some e.element := by
  have hmem : (e.key, e.element) ∈ m.entries := by
    rw [h.entries, List.mem_filterMap]
    refine ⟨a, h.represents.mem_of_some he, ?_⟩
    rw [entryAt, he]
    rfl
  exact CursorMap.get?_of_mem hmem

/-- The current element is the current entry. -/
theorem agree_getCurrent (h : t.Shows getIndex hashsize m xs) :
    Agree (Shown getIndex hashsize) (perform getIndex hashsize t .getCurrent)
      (mapPerform getIndex hashsize m .getCurrent) := by
  rw [perform, mapPerform, getCurrentElement]
  rcases h.current_cases with ⟨ht, hm, -⟩ | ⟨ht, hm, -⟩ | ⟨a, ht, hload, hm, -⟩ |
    ⟨a, e, ht, he, hm, -⟩
  · rw [CursorMap.getCurrent, ht, hm]
    exact .error _
  · rw [CursorMap.getCurrent, ht, hm]
    exact .error _
  · rw [CursorMap.getCurrent, ht, hm]
    change Agree _ (((t.load a).map _).map _) _
    rw [hload]
    exact .error _
  · rw [CursorMap.getCurrent_eq hm (h.get?_eq he), ht]
    change Agree _ (((t.load a).map _).map _) _
    rw [load_of_some he]
    exact .ok _ ⟨xs, h⟩

/-- The search finds an element exactly for a key of the map. -/
theorem Shows.find_cases (h : t.Shows getIndex hashsize m xs) (k : Key) :
    (xs.find? fun a => t.keyAt a = some k) = none ∧ k ∉ m.keys ∨
      ∃ a e, (xs.find? fun a => t.keyAt a = some k) = some a ∧ t.elements a = some e ∧
        e.key = k ∧ k ∈ m.keys := by
  cases hfind : xs.find? fun a => t.keyAt a = some k with
  | none =>
    refine .inl ⟨rfl, ?_⟩
    rw [h.mem_keys]
    rintro ⟨a, ha, hk⟩
    exact List.find?_eq_none.mp hfind a ha (decide_eq_true hk)
  | some a =>
    have hkey : t.keyAt a = some k := of_decide_eq_true
      (List.find?_some (p := fun a => decide (t.keyAt a = some k)) hfind)
    obtain ⟨e, he, hek⟩ := Option.map_eq_some_iff.mp hkey
    exact .inr ⟨a, e, rfl, he, hek,
      h.mem_keys.mpr ⟨a, List.mem_of_find?_eq_some hfind, hkey⟩⟩

/-- The cursor on an element with the key, or off the list. -/
theorem Shows.goto (h : t.Shows getIndex hashsize m xs) (k : Key) :
    Shows getIndex hashsize
      { t with curhashelem := some (xs.find? fun a => t.keyAt a = some k) } (m.goto k) xs := by
  refine h.seek (fun a ha => List.mem_of_find?_eq_some ha) ?_ _
  rcases h.find_cases k with ⟨hfind, hnot⟩ | ⟨a, e, hfind, he, rfl, hmem⟩
  · rw [hfind]
    exact if_neg hnot
  · rw [hfind, Option.bind_some, keyAt_of_some he]
    exact if_pos hmem

/-- A key is found exactly if the map has it. -/
theorem agree_has (h : t.Shows getIndex hashsize m xs) (k : Key) :
    Agree (Shown getIndex hashsize) (perform getIndex hashsize t (.has k))
      (mapPerform getIndex hashsize m (.has k)) := by
  rw [perform, mapPerform, hasElement]
  cases hk : tableIndex getIndex hashsize k with
  | error e => exact .error e
  | ok index =>
    cases index with
    | none =>
      have hnot : k ∉ m.keys := by
        rw [h.mem_keys]
        rintro ⟨a, -, ha⟩
        obtain ⟨e, he, rfl⟩ := Option.map_eq_some_iff.mp ha
        have hindex := (h.represents.hashed a e he).symm.trans hk
        cases hindex
      rw [decide_eq_false hnot]
      exact .ok _ ⟨xs, h⟩
    | some i =>
      change Agree _ (((t.find k t.unused (t.table i)).map _).map _) _
      rw [h.represents.find_eq hk]
      rcases h.find_cases k with ⟨hfind, hnot⟩ | ⟨a, e, hfind, -, -, hmem⟩
      · rw [hfind, decide_eq_false hnot]
        exact .ok _ ⟨xs, h⟩
      · rw [hfind, decide_eq_true hmem]
        exact .ok _ ⟨xs, h⟩

/-- The cursor goes to the element with the key, or off the list. -/
theorem agree_goto (h : t.Shows getIndex hashsize m xs) (k : Key) :
    Agree (Shown getIndex hashsize) (perform getIndex hashsize t (.goto k))
      (mapPerform getIndex hashsize m (.goto k)) := by
  rw [perform, mapPerform, gotoElement]
  cases hk : tableIndex getIndex hashsize k with
  | error e => exact .error e
  | ok index =>
    cases index with
    | none => exact .ok _ ⟨xs, h⟩
    | some i =>
      have hgoto := h.goto k
      change Agree _ ((t.find k t.unused (t.table i) >>= fun _ => _).map _)
        (.ok (_, HashReply.status (ite ..)))
      rw [h.represents.find_eq hk]
      rcases h.find_cases k with ⟨hfind, hnot⟩ | ⟨a, e, hfind, -, -, hmem⟩
      · rw [if_neg hnot]
        rw [hfind] at hgoto ⊢
        exact .ok _ ⟨xs, hgoto⟩
      · rw [if_pos hmem]
        rw [hfind] at hgoto ⊢
        exact .ok _ ⟨xs, hgoto⟩

omit [DecidableEq Key] in
/-- Elements of the same keys in the same buckets. -/
theorem Represents.withElements (h : t.Represents getIndex hashsize xs)
    {elements : Nat → Option (HashElement Key Element)}
    (hkey : ∀ a, (elements a).map HashElement.key = (t.elements a).map HashElement.key)
    (hindex : ∀ a, (elements a).map HashElement.hashindex =
      (t.elements a).map HashElement.hashindex) :
    Represents getIndex hashsize { t with elements := elements } xs where
  nodup := h.nodup
  live a := by
    have hsome := congrArg Option.isSome (hkey a)
    rw [Option.isSome_map, Option.isSome_map] at hsome
    exact (Bool.eq_iff_iff.mp hsome).trans (h.live a)
  bound := h.bound
  cursor_bound := h.cursor_bound
  first := h.first
  last := h.last
  list := h.list
  hashed a e he := by
    have hk := hkey a
    have hi := hindex a
    dsimp only at he
    rw [he] at hk hi
    obtain ⟨e', he', hk'⟩ := Option.map_eq_some_iff.mp hk.symm
    rw [he', Option.map_some, Option.map_some, Option.some.injEq] at hi
    rw [hi, ← hk']
    exact h.hashed a e' he'
  keys a b k ha hb := by
    rw [keyAt] at ha hb
    exact h.keys a b k ((hkey a).symm.trans ha) ((hkey b).symm.trans hb)
  buckets i hi := by
    have hbucket : RTPKeyHashTable.bucket { t with elements := elements } xs i =
        t.bucket xs i := by
      refine congrArg List.reverse (List.filter_congr fun a _ => ?_)
      have hany : ∀ o : Option (HashElement Key Element),
          o.any (fun e => decide (e.hashindex = i)) =
            (o.map HashElement.hashindex).any fun n => decide (n = i) := by
        intro o
        cases o <;> rfl
      rw [inBucket, inBucket, hany, hany, hindex]
    rw [hbucket]
    exact h.buckets i hi

omit [DecidableEq Key] in
/-- The cursor depends on the element that it is on. -/
theorem cursor_congr {t' : RTPKeyHashTable Key Element} (hcur : t'.curhashelem = t.curhashelem)
    (helements : ∀ a, t.curhashelem = some (some a) → t.elements a = t'.elements a) :
    t.cursor = t'.cursor := by
  rw [cursor, cursor, hcur]
  cases hc : t.curhashelem with
  | none => rfl
  | some cur =>
    cases cur with
    | none => rfl
    | some a =>
      dsimp only
      rw [helements a hc]

omit [DecidableEq Key] in
/-- The cursor does not depend on the elements but for their keys. -/
theorem cursor_withElements {elements : Nat → Option (HashElement Key Element)}
    (hkey : ∀ a, (elements a).map HashElement.key = (t.elements a).map HashElement.key) :
    RTPKeyHashTable.cursor { t with elements := elements } = t.cursor := by
  have hmatch : ∀ o : Option (HashElement Key Element),
      (match o with
        | some e => Cursor.on e.key
        | none => .dangling) = ((o.map HashElement.key).elim .dangling .on : Cursor Key) := by
    intro o
    cases o <;> rfl
  rw [cursor, cursor]
  cases t.curhashelem with
  | none => rfl
  | some cur =>
    cases cur with
    | none => rfl
    | some a =>
      dsimp only
      rw [hmatch, hmatch, hkey]

/-- An element takes another value under its key. -/
theorem Shows.update (h : t.Shows getIndex hashsize m xs) {a : Nat}
    {e : HashElement Key Element} (he : t.elements a = some e) (f : Element → Element) :
    Shows getIndex hashsize
      { t with elements := Function.update t.elements a (some { e with element := f e.element }) }
      (m.modify e.key f) xs := by
  have hsame : ∀ {β : Type} (g : HashElement Key Element → β),
      g { e with element := f e.element } = g e → ∀ b,
        (Function.update t.elements a (some { e with element := f e.element }) b).map g =
          (t.elements b).map g := by
    intro β g hg b
    by_cases hb : b = a
    · rw [hb, Function.update_self, he, Option.map_some, Option.map_some, hg]
    · rw [Function.update_of_ne hb]
  refine ⟨h.represents.withElements (hsame _ rfl) (hsame _ rfl), ?_, ?_⟩
  · change m.entries.map _ = _
    rw [h.entries, List.map_filterMap]
    refine List.filterMap_congr fun b hb => ?_
    rw [entryAt, entryAt]
    dsimp only
    by_cases hba : b = a
    · rw [hba, Function.update_self, he, Option.map_some, Option.map_some, Option.map_some,
        if_pos rfl]
    · rw [Function.update_of_ne hba]
      obtain ⟨e', he'⟩ := h.represents.exists_element hb
      have hne : e'.key ≠ e.key := fun hk =>
        hba (h.represents.keys b a e.key ((keyAt_of_some he').trans (congrArg some hk))
          (keyAt_of_some he))
      rw [he', Option.map_some, Option.map_some, if_neg hne]
  · exact h.cursor.trans (cursor_withElements (hsame _ rfl)).symm

/-- What is done to the current element is done to the current entry. -/
theorem agree_update (h : t.Shows getIndex hashsize m xs) (f : Element → Element) :
    Agree (Shown getIndex hashsize) (perform getIndex hashsize t (.update f))
      (mapPerform getIndex hashsize m (.update f)) := by
  rw [perform, mapPerform, updateCurrentElement, CursorMap.updateCurrent]
  rcases h.current_cases with ⟨ht, hm, -⟩ | ⟨ht, hm, -⟩ | ⟨a, ht, hload, hm, -⟩ |
    ⟨a, e, ht, he, hm, -⟩
  · rw [ht, hm]
    exact .error _
  · rw [ht, hm]
    exact .error _
  · rw [ht, hm]
    change Agree _ ((t.load a >>= fun _ => _).map _) _
    rw [hload]
    exact .error _
  · rw [ht, hm]
    change Agree _ ((t.load a >>= fun _ => _).map _) _
    rw [load_of_some he]
    exact .ok _ ⟨xs, h.update he f⟩

omit [DecidableEq Key] in
/-- An element leaves a bucket whose other elements are there. -/
theorem relinkBucket_eq {a : Nat} (i : Nat)
    (hprev : ∀ b, t.hashprev a = some b → (t.elements b).isSome)
    (hnext : ∀ b, t.hashnext a = some b → (t.elements b).isSome) :
    t.relinkBucket a i = .ok { t with
      hashprev := relink t.hashprev (t.hashnext a) (t.hashprev a)
      hashnext := relink t.hashnext (t.hashprev a) (t.hashnext a)
      table := if t.hashprev a = none then Function.update t.table i (t.hashnext a)
        else t.table } := by
  have hsetprev : ∀ {t' : RTPKeyHashTable Key Element} (v : Option Nat),
      t'.elements = t.elements → t'.setHashprev (t.hashnext a) v =
        .ok { t' with hashprev := relink t'.hashprev (t.hashnext a) v } := by
    intro t' v ht'
    rw [setHashprev, storable_of_live (by rwa [ht'])]
    rfl
  rw [relinkBucket]
  cases hp : t.hashprev a with
  | none => exact hsetprev none rfl
  | some p =>
    have hset : t.setHashnext (some p) (t.hashnext a) =
        .ok { t with hashnext := relink t.hashnext (some p) (t.hashnext a) } := by
      rw [setHashnext, storable_of_live (by rwa [hp] at hprev)]
      rfl
    dsimp only
    rw [hset]
    exact hsetprev (some p) rfl

omit [DecidableEq Key] in
/-- An element leaves the list. -/
theorem relinkList_eq {a : Nat} (hprev : ∀ b, t.listprev a = some b → (t.elements b).isSome)
    (hnext : ∀ b, t.listnext a = some b → (t.elements b).isSome) :
    t.relinkList a = .ok { t with
      listprev := relink t.listprev (t.listnext a) (t.listprev a)
      listnext := relink t.listnext (t.listprev a) (t.listnext a)
      firsthashelem := if t.listprev a = none then t.listnext a else t.firsthashelem
      lasthashelem := if t.listnext a = none then t.listprev a else t.lasthashelem } := by
  have hsetnext : ∀ p v, t.listprev a = some p →
      t.setListnext (some p) v = .ok { t with listnext := relink t.listnext (some p) v } := by
    intro p v hp
    rw [setListnext, storable_of_live (by rwa [hp] at hprev)]
    rfl
  have hsetprev : ∀ {t' : RTPKeyHashTable Key Element} n v, t.listnext a = some n →
      t'.elements = t.elements → t'.setListprev (some n) v =
        .ok { t' with listprev := relink t'.listprev (some n) v } := by
    intro t' n v hn ht'
    rw [setListprev, storable_of_live (by rw [ht']; rwa [hn] at hnext)]
    rfl
  rw [relinkList]
  cases hp : t.listprev a with
  | none =>
    cases hn : t.listnext a with
    | none => rfl
    | some n => exact hsetprev n none hn rfl
  | some p =>
    dsimp only
    rw [hsetnext p _ hp]
    cases hn : t.listnext a with
    | none => rfl
    | some n => exact hsetprev n (some p) hn rfl

/-- The first element behind a removal. -/
theorem head?_remove {α : Type} {front back : List α} {a : α} :
    (if front.getLast? = none then back.head? else (front ++ a :: back).head?) =
      (front ++ back).head? := by
  cases front with
  | nil => rfl
  | cons b front => rw [if_neg (by simp)]; rfl

/-- The last element behind a removal. -/
theorem getLast?_remove {α : Type} {front back : List α} {a : α} :
    (if back.head? = none then front.getLast? else (front ++ a :: back).getLast?) =
      (front ++ back).getLast? := by
  cases back with
  | nil => rw [if_pos List.head?_nil, List.append_nil]
  | cons b back =>
    rw [if_neg (by simp), List.getLast?_append_cons, List.getLast?_append_cons,
      List.getLast?_cons_cons]

omit [DecidableEq Key] in
/-- A bucket around one of its elements. -/
theorem bucket_split {front back : List Nat} {a : Nat} {e : HashElement Key Element}
    (he : t.elements a = some e) (i : Nat) : t.bucket (front ++ a :: back) i =
      if e.hashindex = i then t.bucket back i ++ a :: t.bucket front i
      else t.bucket back i ++ t.bucket front i := by
  have ha : t.inBucket i a = decide (e.hashindex = i) := by
    rw [inBucket, he]
    rfl
  rw [bucket, List.filter_append, List.reverse_append, List.filter_cons, ha]
  by_cases hi : e.hashindex = i
  · rw [if_pos (decide_eq_true hi), if_pos hi, List.reverse_cons, List.append_assoc]
    rfl
  · rw [if_neg (by rw [decide_eq_false hi]; exact Bool.false_ne_true), if_neg hi]
    rfl

/-- The table behind the deletion of the element at `a`. -/
def withoutElement (t : RTPKeyHashTable Key Element) (a index : Nat) :
    RTPKeyHashTable Key Element :=
  { t with
    elements := Function.update t.elements a none
    hashprev := relink t.hashprev (t.hashnext a) (t.hashprev a)
    hashnext := relink t.hashnext (t.hashprev a) (t.hashnext a)
    listprev := relink t.listprev (t.listnext a) (t.listprev a)
    listnext := relink t.listnext (t.listprev a) (t.listnext a)
    table := if t.hashprev a = none then Function.update t.table index (t.hashnext a) else t.table
    firsthashelem := if t.listprev a = none then t.listnext a else t.firsthashelem
    lasthashelem := if t.listnext a = none then t.listprev a else t.lasthashelem
    curhashelem := some (t.listnext a) }

omit [DecidableEq Key] in
/-- The buckets behind the deletion, of which one is shorter. -/
theorem Represents.bucket_without {front back : List Nat} {a : Nat} {e : HashElement Key Element}
    (h : t.Represents getIndex hashsize (front ++ a :: back)) (he : t.elements a = some e)
    {i : Nat} (hi : i < hashsize) :
    (t.withoutElement a e.hashindex).table i = (t.bucket (front ++ back) i).head? ∧
      Linked (t.withoutElement a e.hashindex).hashprev (t.withoutElement a e.hashindex).hashnext
        none (t.bucket (front ++ back) i) none := by
  have hrest : t.bucket (front ++ back) i = t.bucket back i ++ t.bucket front i := by
    rw [bucket, List.filter_append, List.reverse_append]
    rfl
  obtain ⟨htable, hlinked⟩ := h.buckets i hi
  obtain ⟨-, hlinkeda⟩ := h.buckets _ (tableIndex_lt (h.hashed a e he))
  have hnodupa := h.nodup_bucket e.hashindex
  have hmem : ∀ b, b ∈ t.bucket (front ++ a :: back) e.hashindex →
      ∃ e', t.elements b = some e' ∧ e'.hashindex = e.hashindex := fun b hb => h.mem_bucket.mp hb
  rw [bucket_split he, if_pos rfl] at hlinkeda hnodupa hmem
  obtain ⟨-, hprev, hnext, -⟩ := linked_middle.mp hlinkeda
  rw [Option.or_none] at hprev hnext
  rw [hrest]
  by_cases hindex : e.hashindex = i
  · subst hindex
    rw [bucket_split he, if_pos rfl] at htable
    refine ⟨?_, linked_unlink hlinkeda hnodupa⟩
    change (if t.hashprev a = none then Function.update t.table e.hashindex (t.hashnext a)
      else t.table) e.hashindex = _
    rw [← head?_remove (a := a), ite_apply, Function.update_self, htable, hprev, hnext]
  · rw [bucket_split he, if_neg hindex, ← hrest] at htable hlinked
    rw [← hrest]
    have hother : ∀ b ∈ t.bucket (front ++ back) i, ∀ o : Option Nat,
        (∀ c, o = some c → c ∈ t.bucket back e.hashindex ++ a :: t.bucket front e.hashindex) →
        o ≠ some b := by
      intro b hb o ho hob
      obtain ⟨e', he', hindex'⟩ := hmem b (ho b hob)
      rw [bucket, List.mem_reverse, List.mem_filter, inBucket, he'] at hb
      exact hindex (hindex'.symm.trans (of_decide_eq_true hb.2))
    have hprevmem : ∀ c, t.hashprev a = some c →
        c ∈ t.bucket back e.hashindex ++ a :: t.bucket front e.hashindex := by
      intro c hc
      rw [hprev] at hc
      exact List.mem_append_left _ (List.mem_of_getLast? hc)
    have hnextmem : ∀ c, t.hashnext a = some c →
        c ∈ t.bucket back e.hashindex ++ a :: t.bucket front e.hashindex := by
      intro c hc
      rw [hnext] at hc
      exact List.mem_append_right _ (List.mem_cons_of_mem _ (List.mem_of_head? hc))
    refine ⟨?_, ?_⟩
    · change (if t.hashprev a = none then Function.update t.table e.hashindex (t.hashnext a)
        else t.table) i = _
      rw [ite_apply, Function.update_of_ne (Ne.symm hindex), ite_self, htable]
    · exact linked_congr (fun b hb => relink_of_ne (hother b hb _ hnextmem))
        (fun b hb => relink_of_ne (hother b hb _ hprevmem)) hlinked

omit [DecidableEq Key] in
/-- What is linked behind the deletion. -/
theorem Represents.without {front back : List Nat} {a : Nat} {e : HashElement Key Element}
    (h : t.Represents getIndex hashsize (front ++ a :: back)) (he : t.elements a = some e) :
    Represents getIndex hashsize (t.withoutElement a e.hashindex) (front ++ back) := by
  obtain ⟨-, hprev, hnext, -⟩ := linked_middle.mp h.list
  rw [Option.or_none] at hprev hnext
  have hsub : (front ++ back).Sublist (front ++ a :: back) :=
    List.Sublist.append_left (List.sublist_cons_self a back) front
  have hnodup : (front ++ back).Nodup := h.nodup.sublist hsub
  have hnot : a ∉ front ++ back := (List.nodup_middle.mp h.nodup).notMem
  have helements : ∀ b, b ≠ a → (t.withoutElement a e.hashindex).elements b = t.elements b :=
    fun b hb => Function.update_of_ne hb _ _
  have hgone : (t.withoutElement a e.hashindex).elements a = none := Function.update_self ..
  have hold : ∀ b e', (t.withoutElement a e.hashindex).elements b = some e' →
      t.elements b = some e' := by
    intro b e' hb
    by_cases hba : b = a
    · rw [hba, hgone] at hb
      cases hb
    · rwa [helements b hba] at hb
  have hkey : ∀ b k, (t.withoutElement a e.hashindex).keyAt b = some k → t.keyAt b = some k := by
    intro b k hb
    obtain ⟨e', he', rfl⟩ := Option.map_eq_some_iff.mp hb
    exact keyAt_of_some (hold b e' he')
  refine ⟨hnodup, fun b => ?_, fun b hb => h.bound b (hsub.subset hb), fun b hb => ?_, ?_, ?_,
    linked_unlink h.list h.nodup, fun b e' hb => h.hashed b e' (hold b e' hb),
    fun b c k hb hc => h.keys b c k (hkey b k hb) (hkey c k hc), fun i hi => ?_⟩
  · by_cases hba : b = a
    · rw [hba, hgone]
      exact iff_of_false Bool.false_ne_true hnot
    · rw [helements b hba, h.live, List.mem_append, List.mem_append, List.mem_cons,
        or_iff_right hba]
  · have hb' : t.listnext a = some b := Option.some.inj hb
    rw [hnext] at hb'
    refine h.bound b (List.mem_append_right _ (List.mem_cons_of_mem _ ?_))
    exact List.mem_of_head? hb'
  · change (if t.listprev a = none then t.listnext a else t.firsthashelem) = _
    rw [hprev, hnext, h.first, head?_remove]
  · change (if t.listnext a = none then t.listprev a else t.lasthashelem) = _
    rw [hprev, hnext, h.last, getLast?_remove]
  · have hin : ∀ ys : List Nat, ys ⊆ front ++ back →
        (t.withoutElement a e.hashindex).bucket ys i = t.bucket ys i := by
      intro ys hys
      refine congrArg List.reverse (List.filter_congr fun b hb => ?_)
      rw [inBucket, inBucket, helements b fun hba => hnot (hba ▸ hys hb)]
    rw [hin _ (List.Subset.refl _)]
    exact h.bucket_without he hi

/-- The map behind the deletion. -/
theorem Shows.without (h : t.Shows getIndex hashsize m xs) {a : Nat}
    {e : HashElement Key Element} (he : t.elements a = some e) :
    Shown getIndex hashsize (t.withoutElement a e.hashindex) (m.erase e.key) := by
  obtain ⟨front, back, rfl, hkeys, hfront⟩ := h.keys_split he
  have hrep := h.represents
  have hnot : a ∉ front ++ back := (List.nodup_middle.mp hrep.nodup).notMem
  have helements : ∀ b ∈ front ++ back,
      (t.withoutElement a e.hashindex).elements b = t.elements b :=
    fun b hb => Function.update_of_ne (ne_of_mem_of_not_mem hb hnot) _ _
  refine ⟨front ++ back, hrep.without he, ?_, ?_⟩
  · change m.entries.filter _ = _
    have hfilter : ∀ b, b ≠ a → (t.entryAt b).filter (fun p => p.1 ≠ e.key) = t.entryAt b := by
      intro b hb
      cases he' : t.elements b with
      | none => rw [entryAt, he']; rfl
      | some e' =>
        have hne : e'.key ≠ e.key := fun hk =>
          hb (hrep.keys b a e.key ((keyAt_of_some he').trans (congrArg some hk)) (keyAt_of_some he))
        rw [entryAt, he', Option.map_some, Option.filter_some, if_pos (decide_eq_true hne)]
    have hgone : (t.entryAt a).filter (fun p => p.1 ≠ e.key) = none := by
      rw [entryAt, he, Option.map_some, Option.filter_some, if_neg (by simp)]
    rw [h.entries, List.filter_filterMap, List.filterMap_append, List.filterMap_cons, hgone]
    dsimp only
    rw [← List.filterMap_append]
    refine List.filterMap_congr fun b hb => ?_
    rw [hfilter b (ne_of_mem_of_not_mem hb hnot), entryAt, entryAt, helements b hb]
  · have hnext : t.listnext a = back.head? := by
      rw [(linked_middle.mp hrep.list).2.2.1, Option.or_none]
    change Cursor.ofOption (keyAfter e.key m.keys) = _
    rw [hkeys, keyAfter_split hfront, head?_filterMap_of_live (hrep.live_keyAt fun b hb =>
      List.mem_append_right _ (List.mem_cons_of_mem _ hb))]
    change _ = match some (t.listnext a) with
      | none => Cursor.unset
      | some none => .null
      | some (some b) =>
        match (t.withoutElement a e.hashindex).elements b with
        | some e' => .on e'.key
        | none => .dangling
    rw [hnext]
    cases hb : back.head? with
    | none => rfl
    | some b =>
      have hmem : b ∈ back := List.mem_of_head? hb
      obtain ⟨e', he'⟩ := hrep.exists_element
        (List.mem_append_right front (List.mem_cons_of_mem a hmem))
      dsimp only
      rw [helements b (List.mem_append_right _ hmem), he', Option.bind_some, keyAt_of_some he']
      rfl

omit [DecidableEq Key] in
/-- The current element is deleted. -/
theorem Represents.deleteCurrentElement_eq (h : t.Represents getIndex hashsize xs) {a : Nat}
    {e : HashElement Key Element} (ht : t.current = .ok (some a)) (he : t.elements a = some e) :
    t.deleteCurrentElement = .ok (t.withoutElement a e.hashindex, .ok) := by
  obtain ⟨front, back, rfl⟩ := List.append_of_mem (h.mem_of_some he)
  obtain ⟨-, hprev, hnext, -⟩ := linked_middle.mp h.list
  obtain ⟨-, hlinked⟩ := h.buckets _ (tableIndex_lt (h.hashed a e he))
  have hmem := fun b => h.mem_bucket (i := e.hashindex) (a := b)
  rw [bucket_split he, if_pos rfl] at hlinked hmem
  obtain ⟨-, hprev', hnext', -⟩ := linked_middle.mp hlinked
  rw [Option.or_none] at hprev hnext hprev' hnext'
  have hbucket : ∀ b ∈ t.bucket back e.hashindex ++ a :: t.bucket front e.hashindex,
      (t.elements b).isSome := by
    intro b hb
    obtain ⟨e', he', -⟩ := (hmem b).mp hb
    rw [he']
    rfl
  have hbuckets := relinkBucket_eq (t := t) (a := a) e.hashindex
    (fun b hb => hbucket b (List.mem_append_left _ (List.mem_of_getLast? (hprev'.symm.trans hb))))
    (fun b hb => hbucket b (List.mem_append_right _ (List.mem_cons_of_mem _
      (List.mem_of_head? (hnext'.symm.trans hb)))))
  rw [deleteCurrentElement, ht]
  change (t.load a >>= fun _ => _) = _
  rw [load_of_some he]
  change (t.relinkBucket a e.hashindex >>= fun _ => _) = _
  rw [hbuckets]
  have hlist := fun t' : RTPKeyHashTable Key Element => relinkList_eq (t := t') (a := a)
  change (relinkList _ a >>= fun _ => _) = _
  rw [hlist]
  · rfl
  · exact fun b hb => (h.live b).mpr (List.mem_append_left _
      (List.mem_of_getLast? (hprev.symm.trans hb)))
  · exact fun b hb => (h.live b).mpr (List.mem_append_right _ (List.mem_cons_of_mem _
      (List.mem_of_head? (hnext.symm.trans hb))))

/-- Deleting the current element deletes the current entry. -/
theorem agree_deleteCurrent (h : t.Shows getIndex hashsize m xs) :
    Agree (Shown getIndex hashsize) (perform getIndex hashsize t .deleteCurrent)
      (mapPerform getIndex hashsize m .deleteCurrent) := by
  rw [perform, mapPerform]
  rcases h.current_cases with ⟨ht, hm, -⟩ | ⟨ht, hm, -⟩ | ⟨a, ht, hload, hm, -⟩ |
    ⟨a, e, ht, he, hm, -⟩
  · rw [deleteCurrentElement, ht, hm]
    exact .error _
  · rw [deleteCurrentElement, ht, hm]
    exact .ok _ ⟨xs, h⟩
  · rw [deleteCurrentElement, ht, hm]
    change Agree _ ((t.load a >>= fun _ => _).map _) _
    rw [hload]
    exact .error _
  · rw [h.represents.deleteCurrentElement_eq ht he, hm]
    exact .ok _ (h.without he)

/-- Deleting a key deletes its entry, or sets the cursor to none. -/
theorem agree_delete (h : t.Shows getIndex hashsize m xs) (k : Key) :
    Agree (Shown getIndex hashsize) (perform getIndex hashsize t (.delete k))
      (mapPerform getIndex hashsize m (.delete k)) := by
  rw [perform, mapPerform, deleteElement, gotoElement]
  cases hk : tableIndex getIndex hashsize k with
  | error e => exact .error e
  | ok index =>
    cases index with
    | none => exact .ok _ ⟨xs, h⟩
    | some i =>
      have hgoto := h.goto k
      change Agree _ (((t.find k t.unused (t.table i) >>= fun _ => _) >>= fun _ => _).map _)
        (.ok (ite ..))
      rw [h.represents.find_eq hk]
      rcases h.find_cases k with ⟨hfind, hnot⟩ | ⟨a, e, hfind, he, rfl, hmem⟩
      · rw [if_neg hnot]
        rw [hfind] at hgoto ⊢
        exact .ok _ ⟨xs, hgoto⟩
      · rw [if_pos hmem]
        rw [hfind] at hgoto ⊢
        change Agree _
          (Except.map _ (deleteCurrentElement { t with curhashelem := some (some a) })) _
        have hdelete := hgoto.represents.deleteCurrentElement_eq (a := a) rfl he
        have herase : (m.goto e.key).erase e.key = m.erase e.key := rfl
        rw [hdelete, ← herase]
        exact .ok _ (hgoto.without he)

/-! ## Adding an element -/

/-- The table behind the addition of an element. -/
def withElement (t : RTPKeyHashTable Key Element) (i : Nat) (k : Key) (elem : Element) :
    RTPKeyHashTable Key Element :=
  { t with
    elements := Function.update t.elements t.unused (some ⟨i, k, elem⟩)
    hashprev := relink (Function.update t.hashprev t.unused none) (t.table i) (some t.unused)
    hashnext := Function.update t.hashnext t.unused (t.table i)
    listprev := Function.update t.listprev t.unused t.lasthashelem
    listnext := relink (Function.update t.listnext t.unused none) t.lasthashelem (some t.unused)
    unused := t.unused + 1
    table := Function.update t.table i (some t.unused)
    firsthashelem := t.firsthashelem.or (some t.unused)
    lasthashelem := some t.unused }

omit [DecidableEq Key] in
/-- A new key is added. -/
theorem Represents.insertElement_eq (h : t.Represents getIndex hashsize xs) {i : Nat}
    (hi : i < hashsize) (k : Key) (elem : Element) :
    t.insertElement i k elem = .ok (t.withElement i k elem, .ok) := by
  have hlive : ∀ {t' : RTPKeyHashTable Key Element} {a : Nat}, a ∈ xs →
      t'.elements = Function.update t.elements t.unused (some ⟨i, k, elem⟩) →
      (t'.elements a).isSome := by
    intro t' a ha ht'
    rw [ht', Function.update_of_ne (Nat.ne_of_lt (h.bound a ha))]
    exact (h.live a).mpr ha
  have hhead : ∀ a, t.table i = some a → a ∈ xs := by
    intro a ha
    rw [(h.buckets _ hi).1] at ha
    exact List.mem_of_mem_filter (List.mem_reverse.mp (List.mem_of_head? ha))
  rw [insertElement]
  change (setHashprev _ (t.table i) (some t.unused) >>= fun _ => _) = _
  rw [setHashprev, storable_of_live fun a ha => hlive (hhead a ha) rfl]
  have hfirst := h.first
  have hlast := h.last
  rw [withElement]
  rcases List.eq_nil_or_concat xs with rfl | ⟨front, b, rfl⟩
  · rw [hfirst, hlast]
    rfl
  · rw [List.concat_eq_append] at hfirst hlast hlive
    obtain ⟨c, hc⟩ : ∃ c, t.firsthashelem = some c := by
      rw [hfirst]
      cases front with
      | nil => exact ⟨b, rfl⟩
      | cons c front => exact ⟨c, rfl⟩
    have hb : t.lasthashelem = some b := hlast.trans List.getLast?_concat
    rw [hc, hb]
    change (setListnext _ (some b) (some t.unused) >>= fun _ => _) = _
    rw [setListnext, storable_of_live fun a ha => hlive (List.mem_append_right front
      (List.mem_singleton.mpr (Option.some.inj ha).symm)) rfl]
    change Except.ok _ = Except.ok _
    rw [Function.update_idem]
    rfl

omit [DecidableEq Key] in
/-- The buckets behind the addition, of which one is longer. -/
theorem Represents.buckets_with (h : t.Represents getIndex hashsize xs) {j : Nat}
    (hj : j < hashsize) {i : Nat} (hi : i < hashsize) (k : Key) (elem : Element) :
    (t.withElement j k elem).table i =
        ((t.withElement j k elem).bucket (xs ++ [t.unused]) i).head? ∧
      Linked (t.withElement j k elem).hashprev
        (t.withElement j k elem).hashnext none
        ((t.withElement j k elem).bucket (xs ++ [t.unused]) i) none := by
  have hnot : t.unused ∉ xs := fun hmem => Nat.lt_irrefl _ (h.bound _ hmem)
  have hadded : (t.withElement j k elem).elements t.unused =
      some ⟨j, k, elem⟩ := Function.update_self ..
  have hsame : (t.withElement j k elem).bucket xs i = t.bucket xs i := by
    refine congrArg List.reverse (List.filter_congr fun b hb => ?_)
    rw [inBucket, inBucket]
    exact congrArg (Option.any _) (Function.update_of_ne (ne_of_mem_of_not_mem hb hnot) _ _)
  have hmem : ∀ j, ∀ b ∈ t.bucket xs j, b ∈ xs := fun j b hb =>
    List.mem_of_mem_filter (List.mem_reverse.mp hb)
  obtain ⟨htable, hlinked⟩ := h.buckets i hi
  rw [bucket_split hadded, hsame]
  change _ = (if j = i then [] ++ _ else [] ++ _).head? ∧
    Linked _ _ none (if j = i then [] ++ _ else [] ++ _) none
  by_cases hindex : j = i
  · subst hindex
    rw [if_pos rfl]
    refine ⟨Function.update_self .., ?_⟩
    have hpush := linked_push_front hlinked (h.nodup_bucket _) fun hb => hnot (hmem _ _ hb)
    rwa [← htable] at hpush
  · rw [if_neg hindex]
    refine ⟨(Function.update_of_ne (Ne.symm hindex) _ _).trans htable, ?_⟩
    refine linked_congr (fun b hb => ?_) (fun b hb => ?_) hlinked
    · have hne : t.table j ≠ some b := by
        intro he
        rw [(h.buckets _ hj).1] at he
        obtain ⟨e, hb', hi'⟩ := h.mem_bucket.mp (List.mem_of_head? he)
        obtain ⟨e', hb'', hi''⟩ := h.mem_bucket.mp hb
        rw [hb'] at hb''
        cases hb''
        exact hindex (hi'.symm.trans hi'')
      exact (relink_of_ne hne).trans
        (Function.update_of_ne (ne_of_mem_of_not_mem (hmem i b hb) hnot) _ _)
    · exact Function.update_of_ne (ne_of_mem_of_not_mem (hmem i b hb) hnot) _ _

omit [DecidableEq Key] in
/-- What is linked behind the addition. -/
theorem Represents.with (h : t.Represents getIndex hashsize xs) {k : Key} {i : Nat}
    (hk : tableIndex getIndex hashsize k = .ok (some i)) (hnew : ∀ a, t.keyAt a ≠ some k)
    (elem : Element) :
    Represents getIndex hashsize (t.withElement i k elem) (xs ++ [t.unused]) := by
  have hnot : t.unused ∉ xs := fun hmem => Nat.lt_irrefl _ (h.bound _ hmem)
  have helements : ∀ b, b ≠ t.unused →
      (t.withElement i k elem).elements b = t.elements b :=
    fun b hb => Function.update_of_ne hb _ _
  have hadded : (t.withElement i k elem).elements t.unused =
      some ⟨i, k, elem⟩ := Function.update_self ..
  have hkeyAt : ∀ b, (t.withElement i k elem).keyAt b =
      if b = t.unused then some k else t.keyAt b := by
    intro b
    rw [keyAt, keyAt]
    split
    case isTrue hb => rw [hb, hadded]; rfl
    case isFalse hb => rw [helements b hb]
  refine ⟨?_, fun b => ?_, fun b hb => ?_, fun b hb => Nat.lt_succ_of_lt (h.cursor_bound b hb),
    ?_, ?_, ?_, fun b e hb => ?_, fun b c k' hb hc => ?_, fun j hj => ?_⟩
  · exact List.nodup_append.mpr ⟨h.nodup, List.nodup_singleton _, fun a ha b hb => by
      rw [List.mem_singleton.mp hb]
      exact ne_of_mem_of_not_mem ha hnot⟩
  · rw [List.mem_append, List.mem_singleton]
    by_cases hb : b = t.unused
    · rw [hb, hadded]
      exact iff_of_true rfl (.inr rfl)
    · rw [helements b hb, h.live, or_iff_left hb]
  · rcases List.mem_append.mp hb with hb | hb
    · exact Nat.lt_succ_of_lt (h.bound b hb)
    · rw [List.mem_singleton.mp hb]
      exact Nat.lt_succ_self _
  · rw [List.head?_append, ← h.first]
    rfl
  · rw [List.getLast?_concat]
    rfl
  · have hpush := linked_push_back h.list h.nodup hnot
    rwa [← h.last] at hpush
  · by_cases hbu : b = t.unused
    · rw [hbu, hadded, Option.some.injEq] at hb
      rw [← hb]
      exact hk
    · rw [helements b hbu] at hb
      exact h.hashed b e hb
  · rw [hkeyAt] at hb hc
    split at hb
    case isTrue hbu =>
      split at hc
      case isTrue hcu => rw [hbu, hcu]
      case isFalse => exact absurd (hc.trans hb.symm) (hnew c)
    case isFalse =>
      split at hc
      case isTrue => exact absurd (hb.trans hc.symm) (hnew b)
      case isFalse => exact h.keys b c k' hb hc
  · exact h.buckets_with (tableIndex_lt hk) hj k elem

omit [DecidableEq Key] in
/-- No element has a key that the map does not have. -/
theorem Shows.keyAt_ne (h : t.Shows getIndex hashsize m xs) {k : Key} (hnew : k ∉ m.keys)
    (a : Nat) : t.keyAt a ≠ some k := by
  intro ha
  obtain ⟨e, he, -⟩ := Option.map_eq_some_iff.mp ha
  exact hnew (h.mem_keys.mpr ⟨a, h.represents.mem_of_some he, ha⟩)

/-- The map behind the addition. -/
theorem Shows.with (h : t.Shows getIndex hashsize m xs) {k : Key} {i : Nat}
    (hk : tableIndex getIndex hashsize k = .ok (some i)) (hnew : k ∉ m.keys) (elem : Element) :
    Shows getIndex hashsize (t.withElement i k elem) (m.add k elem)
      (xs ++ [t.unused]) := by
  have hrep := h.represents
  have hnot : t.unused ∉ xs := fun hmem => Nat.lt_irrefl _ (hrep.bound _ hmem)
  have helements : ∀ b, b ≠ t.unused →
      (t.withElement i k elem).elements b = t.elements b :=
    fun b hb => Function.update_of_ne hb _ _
  have hadded : (t.withElement i k elem).elements t.unused =
      some ⟨i, k, elem⟩ := Function.update_self ..
  refine ⟨hrep.with hk (h.keyAt_ne hnew) elem, ?_, ?_⟩
  · have hlast : (t.withElement i k elem).entryAt t.unused = some (k, elem) := by
      rw [entryAt, hadded]
      rfl
    rw [CursorMap.entries_add hnew, h.entries, List.filterMap_append,
      List.filterMap_cons_some hlast, List.filterMap_nil]
    refine congrArg (· ++ [(k, elem)]) (List.filterMap_congr fun b hb => ?_)
    rw [entryAt, entryAt, helements b (ne_of_mem_of_not_mem hb hnot)]
  · rw [CursorMap.cursor_add, h.cursor]
    refine cursor_congr rfl fun a ha => (helements a ?_).symm
    exact Nat.ne_of_lt (hrep.cursor_bound a ha)

/-- An element that is added is the last entry; a key that is there, or no memory, adds nothing.
-/
theorem agree_add (h : t.Shows getIndex hashsize m xs) (k : Key) (elem : Element)
    (granted : Bool) :
    Agree (Shown getIndex hashsize) (perform getIndex hashsize t (.add k elem granted))
      (mapPerform getIndex hashsize m (.add k elem granted)) := by
  rw [perform, mapPerform, addElement]
  cases hk : tableIndex getIndex hashsize k with
  | error e => exact .error e
  | ok index =>
    cases index with
    | none => exact .ok _ ⟨xs, h⟩
    | some i =>
      change Agree _ ((t.find k t.unused (t.table i) >>= fun _ => _).map _) (.ok (ite ..))
      rw [h.represents.find_eq hk]
      rcases h.find_cases k with ⟨hfind, hnot⟩ | ⟨a, e, hfind, -, -, hmem⟩
      · rw [if_neg hnot, hfind]
        cases granted with
        | false => exact .ok _ ⟨xs, h⟩
        | true =>
          change Agree _ ((t.insertElement i k elem).map _) _
          rw [h.represents.insertElement_eq (tableIndex_lt hk)]
          exact .ok _ ⟨_, h.with hk hnot elem⟩
      · rw [if_pos hmem, hfind]
        exact .ok _ ⟨xs, h⟩

omit [DecidableEq Key] in
/-- The loop of `Clear` frees the elements that are linked from here on. -/
theorem freeAll_eq {p : Option Nat} {ys : List Nat} {fuel : Nat}
    (hlinked : Linked t.listprev t.listnext p ys none) (hnodup : ys.Nodup)
    (hlive : ∀ a ∈ ys, (t.elements a).isSome) (hfuel : ys.length ≤ fuel) :
    t.freeAll fuel ys.head? =
      .ok { t with elements := fun a => if a ∈ ys then none else t.elements a } := by
  induction ys generalizing t p fuel with
  | nil =>
    have helements : t.elements = fun a => if a ∈ ([] : List Nat) then none else t.elements a := by
      funext a
      rw [if_neg List.not_mem_nil]
    rw [← helements]
    cases fuel <;> rfl
  | cons a ys ih =>
    rw [List.forall_mem_cons] at hlive
    obtain ⟨hnot, hnodup⟩ := List.nodup_cons.mp hnodup
    obtain ⟨e, he⟩ := Option.isSome_iff_exists.mp hlive.1
    obtain ⟨fuel, rfl⟩ : ∃ n, fuel = n + 1 := ⟨fuel - 1, by rw [List.length_cons] at hfuel; omega⟩
    have hlive' : ∀ b ∈ ys, (Function.update t.elements a none b).isSome := by
      intro b hb
      rw [Function.update_of_ne (ne_of_mem_of_not_mem hb hnot)]
      exact hlive.2 b hb
    have helements : (fun b => if b ∈ a :: ys then none else t.elements b) =
        fun b => if b ∈ ys then none else Function.update t.elements a none b := by
      funext b
      by_cases hb : b = a
      · rw [hb, if_pos List.mem_cons_self, if_neg hnot, Function.update_self]
      · rw [Function.update_of_ne hb]
        exact if_congr (by rw [List.mem_cons, or_iff_right hb]) rfl rfl
    have hrest := ih (t := { t with elements := Function.update t.elements a none })
      hlinked.2.2 hnodup hlive' (Nat.le_of_succ_le_succ hfuel)
    rw [List.head?_cons, freeAll, load_of_some he, helements]
    change freeAll { t with elements := Function.update t.elements a none } fuel (t.listnext a) = _
    rw [hlinked.2.1, Option.or_none]
    exact hrest

omit [DecidableEq Key] in
/-- The table behind `Clear`. -/
theorem Represents.clear_eq (h : t.Represents getIndex hashsize xs) :
    t.clear = .ok { t with
      elements := fun _ => none
      table := fun _ => none
      firsthashelem := none
      lasthashelem := none } := by
  have hfree : freeAll { t with table := fun _ => none } t.unused xs.head? = _ :=
    freeAll_eq h.list h.nodup (fun a ha => (h.live a).mpr ha) h.length_le
  have hnone : (fun a => if a ∈ xs then none else t.elements a) = fun _ => none := by
    funext a
    by_cases ha : a ∈ xs
    · rw [if_pos ha]
    · rw [if_neg ha]
      exact Option.not_isSome_iff_eq_none.mp fun hsome => ha ((h.live a).mp hsome)
  rw [hnone, ← h.first] at hfree
  rw [clear, hfree]
  rfl

/-- A table that is cleared is empty, and its cursor is left where it was. -/
theorem agree_clear (h : t.Shows getIndex hashsize m xs) :
    Agree (Shown getIndex hashsize) (perform getIndex hashsize t .clear)
      (mapPerform getIndex hashsize m .clear) := by
  rw [perform, mapPerform, h.represents.clear_eq]
  refine .ok _ ⟨[], ?_, rfl, ?_⟩
  · refine ⟨List.nodup_nil, fun a => iff_of_false Bool.false_ne_true List.not_mem_nil,
      fun a ha => absurd ha List.not_mem_nil, h.represents.cursor_bound, rfl, rfl, trivial,
      fun a e he => ?_, fun a b k ha => ?_, fun i _ => ⟨rfl, trivial⟩⟩
    · cases he
    · cases ha
  · rw [CursorMap.cursor_clear, h.cursor, cursor, cursor]
    cases t.curhashelem with
    | none => rfl
    | some cur =>
      cases cur with
      | none => rfl
      | some a =>
        dsimp only
        cases t.elements a <;> rfl

/-- Whatever is done, the table replies as the map does. -/
theorem agree_perform (op : HashOp Key Element) (h : Shown getIndex hashsize t m) :
    Agree (Shown getIndex hashsize) (perform getIndex hashsize t op)
      (mapPerform getIndex hashsize m op) := by
  obtain ⟨xs, h⟩ := h
  cases op with
  | gotoFirst => exact .ok _ ⟨xs, h.gotoFirst⟩
  | gotoLast => exact .ok _ ⟨xs, h.gotoLast⟩
  | gotoNext => exact agree_gotoNext h
  | gotoPrevious => exact agree_gotoPrevious h
  | hasCurrent => exact agree_hasCurrent h
  | getCurrent => exact agree_getCurrent h
  | update f => exact agree_update h f
  | goto k => exact agree_goto h k
  | has k => exact agree_has h k
  | add k elem granted => exact agree_add h k elem granted
  | deleteCurrent => exact agree_deleteCurrent h
  | delete k => exact agree_delete h k
  | clear => exact agree_clear h

omit [DecidableEq Key] in
/-- The constructor leaves an empty map. -/
theorem shown_init : Shown getIndex hashsize (init : RTPKeyHashTable Key Element) .empty := by
  refine ⟨[], ⟨List.nodup_nil, fun a => iff_of_false Bool.false_ne_true List.not_mem_nil,
    fun a ha => absurd ha List.not_mem_nil, fun a ha => ?_, rfl, rfl, trivial, fun a e he => ?_,
    fun a b k ha => ?_, fun i _ => ⟨rfl, trivial⟩⟩, rfl, rfl⟩
  · cases ha
  · cases he
  · cases ha

end

end RTPKeyHashTable

end Jrtplib4Android
