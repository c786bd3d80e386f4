import Jrtplib4Android.Core.Block
import Jrtplib4Android.Core.DoublyLinked
import Jrtplib4Android.Core.Run

/-!
# The key hash table

`RTPKeyHashTable` keeps its elements in hash buckets and in one list in the order of their
arrival, both doubly linked, and a pointer to a current element. Every member of an element
is a map of its own from addresses, and an access to an element that is gone faults.
-/

namespace Jrtplib4Android

open CSem

/-- The members of `HashElement` that never change. The table has been read at `hashindex`. -/
structure HashElement (Key Element : Type) where
  hashindex : Nat
  key : Key
  element : Element

/-- What the operations of the table return. -/
inductive HashStatus where
  | ok
  | functionReturnedInvalidHashIndex
  | keyAlreadyExists
  | keyNotFound
  | noCurrentElement
  | outOfMem
  deriving DecidableEq

/-- `RTPKeyHashTable`, with the elements that are allocated and their links. Addresses from
`unused` on are free. -/
structure RTPKeyHashTable (Key Element : Type) where
  elements : Nat → Option (HashElement Key Element)
  hashprev : Nat → Option Nat
  hashnext : Nat → Option Nat
  listprev : Nat → Option Nat
  listnext : Nat → Option Nat
  unused : Nat
  table : Nat → Option Nat
  firsthashelem : Option Nat
  lasthashelem : Option Nat
  /-- Not set by the constructor. -/
  curhashelem : Option (Option Nat)

namespace RTPKeyHashTable

variable {Key Element : Type}

/-- The constructor. -/
def init : RTPKeyHashTable Key Element where
  elements _ := none
  hashprev _ := none
  hashnext _ := none
  listprev _ := none
  listnext _ := none
  unused := 0
  table _ := none
  firsthashelem := none
  lasthashelem := none
  curhashelem := none

/-- The element at an address. -/
def load (t : RTPKeyHashTable Key Element) (a : Nat) : Except Fault (HashElement Key Element) :=
  match t.elements a with
  | some e => .ok e
  | none => .error .read

/-- `curhashelem`. -/
def current (t : RTPKeyHashTable Key Element) : Except Fault (Option Nat) :=
  match t.curhashelem with
  | some cur => .ok cur
  | none => .error .read

/-- Whether a member of the element can be stored to, if there is one. -/
def storable (t : RTPKeyHashTable Key Element) : Option Nat → Except Fault Unit
  | none => .ok ()
  | some a => if (t.elements a).isSome then .ok () else .error .write

/-- `p->hashprev = v`, for an element that need not exist. -/
def setHashprev (t : RTPKeyHashTable Key Element) (p v : Option Nat) :
    Except Fault (RTPKeyHashTable Key Element) :=
  (t.storable p).map fun _ => { t with hashprev := relink t.hashprev p v }

def setHashnext (t : RTPKeyHashTable Key Element) (p v : Option Nat) :
    Except Fault (RTPKeyHashTable Key Element) :=
  (t.storable p).map fun _ => { t with hashnext := relink t.hashnext p v }

def setListprev (t : RTPKeyHashTable Key Element) (p v : Option Nat) :
    Except Fault (RTPKeyHashTable Key Element) :=
  (t.storable p).map fun _ => { t with listprev := relink t.listprev p v }

def setListnext (t : RTPKeyHashTable Key Element) (p v : Option Nat) :
    Except Fault (RTPKeyHashTable Key Element) :=
  (t.storable p).map fun _ => { t with listnext := relink t.listnext p v }

/-- `GotoFirstElement`. -/
def gotoFirstElement (t : RTPKeyHashTable Key Element) : RTPKeyHashTable Key Element :=
  { t with curhashelem := some t.firsthashelem }

/-- `GotoLastElement`. -/
def gotoLastElement (t : RTPKeyHashTable Key Element) : RTPKeyHashTable Key Element :=
  { t with curhashelem := some t.lasthashelem }

/-- `HasCurrentElement`. -/
def hasCurrentElement (t : RTPKeyHashTable Key Element) : Except Fault Bool :=
  t.current.map Option.isSome

/-- `GetCurrentKey` and `GetCurrentElement`. -/
def getCurrentElement (t : RTPKeyHashTable Key Element) : Except Fault (Key × Element) := do
  match ← t.current with
  | none => .error .null
  | some a => (t.load a).map fun e => (e.key, e.element)

/-- What the caller does to the current element through the reference to it. -/
def updateCurrentElement (t : RTPKeyHashTable Key Element) (f : Element → Element) :
    Except Fault (RTPKeyHashTable Key Element) := do
  match ← t.current with
  | none => .error .null
  | some a =>
    let e ← t.load a
    return { t with
      elements := Function.update t.elements a (some { e with element := f e.element }) }

/-- `GotoNextElement`. -/
def gotoNextElement (t : RTPKeyHashTable Key Element) :
    Except Fault (RTPKeyHashTable Key Element) := do
  match ← t.current with
  | none => return t
  | some a =>
    let _ ← t.load a
    return { t with curhashelem := some (t.listnext a) }

/-- `GotoPreviousElement`. -/
def gotoPreviousElement (t : RTPKeyHashTable Key Element) :
    Except Fault (RTPKeyHashTable Key Element) := do
  match ← t.current with
  | none => return t
  | some a =>
    let _ ← t.load a
    return { t with curhashelem := some (t.listprev a) }

/-- The first part of `DeleteCurrentElement`: without an element in front, the bucket begins
with the one behind. -/
def relinkBucket (t : RTPKeyHashTable Key Element) (a index : Nat) :
    Except Fault (RTPKeyHashTable Key Element) := do
  let tmp1 := t.hashprev a
  let tmp2 := t.hashnext a
  match tmp1 with
  | none => setHashprev { t with table := Function.update t.table index tmp2 } tmp2 none
  | some p => (← t.setHashnext (some p) tmp2).setHashprev tmp2 (some p)

/-- The second part: without an element in front or behind, the list begins or ends with the
other one. -/
def relinkList (t : RTPKeyHashTable Key Element) (a : Nat) :
    Except Fault (RTPKeyHashTable Key Element) := do
  let tmp1 := t.listprev a
  let tmp2 := t.listnext a
  let t ← match tmp1 with
    | none => .ok { t with firsthashelem := tmp2 }
    | some p => t.setListnext (some p) tmp2
  match tmp2 with
  | none => return { t with lasthashelem := tmp1 }
  | some n => t.setListprev (some n) tmp1

/-- `DeleteCurrentElement`. -/
def deleteCurrentElement (t : RTPKeyHashTable Key Element) :
    Except Fault (RTPKeyHashTable Key Element × HashStatus) := do
  match ← t.current with
  | none => return (t, .noCurrentElement)
  | some a =>
    let e ← t.load a
    let t ← t.relinkBucket a e.hashindex
    let tmp2 := t.listnext a
    let t ← t.relinkList a
    return ({ t with
      elements := Function.update t.elements a none
      curhashelem := some tmp2 }, .ok)

section

variable [DecidableEq Key]

/-- The search for a key along a bucket. -/
def find (t : RTPKeyHashTable Key Element) (k : Key) : Nat → Option Nat → Except Fault (Option Nat)
  | _, none => .ok none
  | 0, some _ => .error .spin
  | fuel + 1, some a => do
    let e ← t.load a
    if e.key = k then return some a else t.find k fuel (t.hashnext a)

variable (getIndex : Key → Int) (hashsize : Nat)

/-- The index of a key in the table, if it is accepted. `GetIndex` has an `int` as its result,
which is tested from above alone, and a negative one is read at in front of the table. -/
def tableIndex (k : Key) : Except Fault (Option Nat) :=
  if hashsize ≤ getIndex k then .ok none
  else if getIndex k < 0 then .error .read
  else .ok (some (getIndex k).toNat)

/-- `GotoElement`. -/
def gotoElement (t : RTPKeyHashTable Key Element) (k : Key) :
    Except Fault (RTPKeyHashTable Key Element × HashStatus) := do
  match ← tableIndex getIndex hashsize k with
  | none => return (t, .functionReturnedInvalidHashIndex)
  | some index =>
    let cur ← t.find k t.unused (t.table index)
    return ({ t with curhashelem := some cur }, if cur.isSome then .ok else .keyNotFound)

/-- `HasElement`. -/
def hasElement (t : RTPKeyHashTable Key Element) (k : Key) : Except Fault Bool := do
  match ← tableIndex getIndex hashsize k with
  | none => return false
  | some index => (t.find k t.unused (t.table index)).map Option.isSome

/-- `AddElement` behind the search for the key. -/
def insertElement (t : RTPKeyHashTable Key Element) (index : Nat) (k : Key) (elem : Element) :
    Except Fault (RTPKeyHashTable Key Element × HashStatus) := do
  let newelem := t.unused
  let e := t.table index
  let t := { t with
    elements := Function.update t.elements newelem (some ⟨index, k, elem⟩)
    hashprev := Function.update t.hashprev newelem none
    hashnext := Function.update t.hashnext newelem e
    listprev := Function.update t.listprev newelem none
    listnext := Function.update t.listnext newelem none
    unused := newelem + 1
    table := Function.update t.table index (some newelem) }
  let t ← t.setHashprev e (some newelem)
  match t.firsthashelem with
  | none => return ({ t with firsthashelem := some newelem, lasthashelem := some newelem }, .ok)
  | some _ =>
    -- the list is not empty, so there is a last element
    match t.lasthashelem with
    | none => .error .null
    | some last =>
      let t ← t.setListnext (some last) (some newelem)
      return ({ t with
        listprev := Function.update t.listprev newelem (some last)
        lasthashelem := some newelem }, .ok)

/-- `AddElement`; `granted` says whether there is memory for the element. -/
def addElement (t : RTPKeyHashTable Key Element) (k : Key) (elem : Element) (granted : Bool) :
    Except Fault (RTPKeyHashTable Key Element × HashStatus) := do
  match ← tableIndex getIndex hashsize k with
  | none => return (t, .functionReturnedInvalidHashIndex)
  | some index =>
    if (← t.find k t.unused (t.table index)).isSome then return (t, .keyAlreadyExists)
    if granted then t.insertElement index k elem else return (t, .outOfMem)

/-- `DeleteElement`. -/
def deleteElement (t : RTPKeyHashTable Key Element) (k : Key) :
    Except Fault (RTPKeyHashTable Key Element × HashStatus) := do
  let (t, status) ← t.gotoElement getIndex hashsize k
  if status = .ok then t.deleteCurrentElement else return (t, status)

end

/-- The loop of `Clear`, which frees one element after the other. -/
def freeAll (t : RTPKeyHashTable Key Element) : Nat → Option Nat →
    Except Fault (RTPKeyHashTable Key Element)
  | _, none => .ok t
  | 0, some _ => .error .spin
  | fuel + 1, some tmp1 => do
    let _ ← t.load tmp1
    let tmp2 := t.listnext tmp1
    { t with elements := Function.update t.elements tmp1 none }.freeAll fuel tmp2

/-- `Clear`, which leaves `curhashelem` as it is. -/
def clear (t : RTPKeyHashTable Key Element) : Except Fault (RTPKeyHashTable Key Element) := do
  let t ← { t with table := fun _ => none }.freeAll t.unused t.firsthashelem
  return { t with firsthashelem := none, lasthashelem := none }

end RTPKeyHashTable

end Jrtplib4Android
