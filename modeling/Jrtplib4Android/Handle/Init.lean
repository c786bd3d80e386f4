import Mathlib.Data.Finset.Basic
import Mathlib.Data.Finset.Lattice.Lemmas
import Jrtplib4Android.Core.Run

/-!
# Handles

A handle owns the sender and the receiver that are made with it. The three init
functions return on the first call that fails and delete nothing, so a session created
before that call stays up without an owner.
-/

namespace Jrtplib4Android

open CSem

/-- Which of the two objects of a handle. -/
inductive Role where
  | sender
  | receiver
  deriving DecidableEq

/-- A sender or receiver object, named after the handle it was made for. -/
structure RtpObject where
  handle : Nat
  role : Role
  deriving DecidableEq

/-- A session that is up: its sockets are bound and its poll thread runs. -/
structure LiveSession where
  owner : RtpObject
  portbase : UInt16
  deriving DecidableEq

/-- `RtpHandle`: which of the two pointers are set. -/
structure RtpHandle where
  sender : Bool
  receiver : Bool
  deriving DecidableEq

def RtpHandle.has (h : RtpHandle) : Role → Bool
  | .sender => h.sender
  | .receiver => h.receiver

/-- The handles that were allocated, by number, with `none` for a deleted one, the
sender and receiver objects that are allocated, and the sessions that are up. -/
structure RtpProcess where
  handles : List (Option RtpHandle)
  objects : Finset RtpObject
  live : Finset LiveSession
  deriving DecidableEq

/-- How the calls of one initialisation come out: the value that `s_init` or `m_init` has in
the new object, which no constructor sets, and the status of each library call. -/
structure InitAnswers where
  found : Bool
  setUsePollThread : Int
  create : Int
  addDestination : Int
  deriving DecidableEq

namespace InitAnswers

/-- The session is created. -/
def Creates (a : InitAnswers) : Prop := a.found = false ∧ 0 ≤ a.setUsePollThread ∧ 0 ≤ a.create

instance (a : InitAnswers) : Decidable a.Creates := inferInstanceAs (Decidable (_ ∧ _ ∧ _))

/-- Nothing fails. -/
def ok : InitAnswers := ⟨false, 0, 0, 0⟩

/-- The ports of the session are in use. -/
def portInUse : InitAnswers := ⟨false, 0, -1, 0⟩

end InitAnswers

namespace RtpProcess

/-- `new RtpHandle()`. -/
def newHandle (p : RtpProcess) : RtpProcess :=
  { p with handles := p.handles ++ [some ⟨false, false⟩] }

/-- `new CRTPSender` or `new CRTPReceiver`. -/
def newObject (p : RtpProcess) (o : RtpObject) : RtpProcess :=
  { p with objects := insert o p.objects }

/-- `Create` with its success; a failure leaves no session. The port is a `jint` that is
passed as a `uint16_t`. -/
def create (p : RtpProcess) (o : RtpObject) (portBase : Int) : RtpProcess :=
  { p with live := insert ⟨o, UInt16.ofInt portBase⟩ p.live }

/-- `handle->sender = …` or `handle->receiver = …`. -/
def setPointer (p : RtpProcess) (o : RtpObject) : RtpProcess :=
  { p with handles := p.handles.modify o.handle <| Option.map fun h =>
      match o.role with
      | .sender => { h with sender := true }
      | .receiver => { h with receiver := true } }

/-- `CRTPSender::initParam` on a new object. -/
def initParam (p : RtpProcess) (o : RtpObject) (portBase : Int) (a : InitAnswers) :
    RtpProcess × Bool :=
  if a.found then (p, false)
  else if a.setUsePollThread < 0 then (p, false)
  else if a.create < 0 then (p, false)
  else if a.addDestination < 0 then (p.create o portBase, false)
  else (p.create o portBase, true)

/-- `CRTPReceiver::init` on a new object. -/
def init (p : RtpProcess) (o : RtpObject) (portBase : Int) (a : InitAnswers) :
    RtpProcess × Bool :=
  if a.found then (p, false)
  else if a.setUsePollThread < 0 then (p, false)
  else if a.create < 0 then (p, false)
  else (p.create o portBase, true)

/-- `initSendHandle_`; `none` is the result 0. -/
def initSendHandle (p : RtpProcess) (localport : Int) (a : InitAnswers) :
    RtpProcess × Option Nat :=
  let handle := p.handles.length
  let crtpSender := ⟨handle, .sender⟩
  match (p.newHandle.newObject crtpSender).initParam crtpSender localport a with
  | (p, false) => (p, none)
  | (p, true) => (p.setPointer crtpSender, some handle)

/-- `initReceiveHandle_`. -/
def initReceiveHandle (p : RtpProcess) (localreceiveport : Int) (a : InitAnswers) :
    RtpProcess × Option Nat :=
  let handle := p.handles.length
  let crtpReceiver := ⟨handle, .receiver⟩
  match (p.newHandle.newObject crtpReceiver).init crtpReceiver localreceiveport a with
  | (p, false) => (p, none)
  | (p, true) => (p.setPointer crtpReceiver, some handle)

/-- `initReceiveAndSendHandle_`. -/
def initReceiveAndSendHandle (p : RtpProcess) (localreceiveport localsendport : Int)
    (a b : InitAnswers) : RtpProcess × Option Nat :=
  let handle := p.handles.length
  let crtpSender := ⟨handle, .sender⟩
  match (p.newHandle.newObject crtpSender).initParam crtpSender localsendport a with
  | (p, false) => (p, none)
  | (p, true) =>
    let crtpReceiver := ⟨handle, .receiver⟩
    match ((p.setPointer crtpSender).newObject crtpReceiver).init crtpReceiver localreceiveport b
    with
    | (p, false) => (p, none)
    | (p, true) => (p.setPointer crtpReceiver, some handle)

/-- `fini` and `delete` for an object. -/
def destroy (p : RtpProcess) (o : RtpObject) : RtpProcess :=
  { p with
    objects := p.objects.erase o
    live := p.live.filter fun s => s.owner ≠ o }

/-- `finiHandle_` on a handle that is allocated. -/
def finiHandle (p : RtpProcess) (handle : Nat) : RtpProcess :=
  match p.handles[handle]? with
  | some (some h) =>
    let p := if h.sender then p.destroy ⟨handle, .sender⟩ else p
    let p := if h.receiver then p.destroy ⟨handle, .receiver⟩ else p
    { p with handles := p.handles.set handle none }
  | _ => p

variable (p : RtpProcess) (o : RtpObject) (portBase : Int)

@[simp] theorem newHandle_handles :
    p.newHandle.handles = p.handles ++ [some ⟨false, false⟩] := rfl

@[simp] theorem newHandle_live : p.newHandle.live = p.live := rfl

@[simp] theorem newObject_handles : (p.newObject o).handles = p.handles := rfl

@[simp] theorem newObject_live : (p.newObject o).live = p.live := rfl

@[simp] theorem create_handles : (p.create o portBase).handles = p.handles := rfl

@[simp] theorem create_live :
    (p.create o portBase).live = insert ⟨o, UInt16.ofInt portBase⟩ p.live := rfl

/-- How one initialisation ends, by the answers it gets. -/
theorem initParam_eq (a : InitAnswers) :
    p.initParam o portBase a =
      (if a.Creates then p.create o portBase else p,
        decide (a.Creates ∧ 0 ≤ a.addDestination)) := by
  unfold initParam InitAnswers.Creates
  grind

/-- A session is created exactly if its answers say so. -/
theorem init_eq (a : InitAnswers) :
    p.init o portBase a = (if a.Creates then p.create o portBase else p, decide a.Creates) := by
  unfold init InitAnswers.Creates
  grind

/-- `finiHandle_` takes down the sessions of the objects that the handle points to. -/
theorem mem_finiHandle_live {handle : Nat} {h : RtpHandle}
    (hget : p.handles[handle]? = some (some h)) {s : LiveSession} :
    s ∈ (p.finiHandle handle).live ↔
      s ∈ p.live ∧ ¬ (s.owner.handle = handle ∧ h.has s.owner.role = true) := by
  obtain ⟨⟨owner, role⟩, port⟩ := s
  obtain ⟨sender, receiver⟩ := h
  simp only [finiHandle, hget]
  cases sender <;> cases receiver <;> cases role <;>
    simp [destroy, RtpHandle.has]

end RtpProcess

/-- A call of one of the init functions, with the outcomes of the calls it makes. -/
inductive InitCall where
  | send (localport : Int) (a : InitAnswers)
  | receive (localreceiveport : Int) (a : InitAnswers)
  | receiveAndSend (localreceiveport localsendport : Int) (a b : InitAnswers)

namespace InitCall

def run (p : RtpProcess) : InitCall → RtpProcess × Option Nat
  | send localport a => p.initSendHandle localport a
  | receive localreceiveport a => p.initReceiveHandle localreceiveport a
  | receiveAndSend localreceiveport localsendport a b =>
    p.initReceiveAndSendHandle localreceiveport localsendport a b

/-- Nothing that the call needs fails. -/
def Succeeds : InitCall → Prop
  | send _ a => a.Creates ∧ 0 ≤ a.addDestination
  | receive _ a => a.Creates
  | receiveAndSend _ _ a b => (a.Creates ∧ 0 ≤ a.addDestination) ∧ b.Creates

instance : (c : InitCall) → Decidable c.Succeeds
  | send _ a => inferInstanceAs (Decidable (a.Creates ∧ 0 ≤ a.addDestination))
  | receive _ a => inferInstanceAs (Decidable a.Creates)
  | receiveAndSend _ _ a b =>
    inferInstanceAs (Decidable ((a.Creates ∧ 0 ≤ a.addDestination) ∧ b.Creates))

/-- Nothing that the call needs fails once a session is up. -/
def Clean : InitCall → Prop
  | send _ a => a.Creates → 0 ≤ a.addDestination
  | receive _ _ => True
  | receiveAndSend _ _ a b => a.Creates → 0 ≤ a.addDestination ∧ b.Creates

/-- The sessions that the handle is to own. -/
def sessions (handle : Nat) : InitCall → Finset LiveSession
  | send localport _ => {⟨⟨handle, .sender⟩, UInt16.ofInt localport⟩}
  | receive localreceiveport _ => {⟨⟨handle, .receiver⟩, UInt16.ofInt localreceiveport⟩}
  | receiveAndSend localreceiveport localsendport _ _ =>
    {⟨⟨handle, .sender⟩, UInt16.ofInt localsendport⟩,
      ⟨⟨handle, .receiver⟩, UInt16.ofInt localreceiveport⟩}

/-- The sessions that come up in the call. -/
def created (handle : Nat) : InitCall → Finset LiveSession
  | send localport a =>
    if a.Creates then {⟨⟨handle, .sender⟩, UInt16.ofInt localport⟩} else ∅
  | receive localreceiveport a =>
    if a.Creates then {⟨⟨handle, .receiver⟩, UInt16.ofInt localreceiveport⟩} else ∅
  | receiveAndSend localreceiveport localsendport a b =>
    if a.Creates then
      insert ⟨⟨handle, .sender⟩, UInt16.ofInt localsendport⟩ <|
        if 0 ≤ a.addDestination ∧ b.Creates then
          {⟨⟨handle, .receiver⟩, UInt16.ofInt localreceiveport⟩}
        else ∅
    else ∅

/-- The pointers of the handle after the call. -/
def pointers : InitCall → RtpHandle
  | send _ a => ⟨decide (a.Creates ∧ 0 ≤ a.addDestination), false⟩
  | receive _ a => ⟨false, decide a.Creates⟩
  | receiveAndSend _ _ a b =>
    ⟨decide (a.Creates ∧ 0 ≤ a.addDestination),
      decide ((a.Creates ∧ 0 ≤ a.addDestination) ∧ b.Creates)⟩

/-- Setting a pointer of the handle that was allocated last. -/
theorem modify_last {α : Type*} (xs : List α) (x : α) (f : α → α) :
    (xs ++ [x]).modify xs.length f = xs ++ [f x] := by
  induction xs with
  | nil => rfl
  | cons y ys ih => rw [List.cons_append, List.length_cons, List.modify_succ_cons, ih]; rfl

/-- A call leaves its handle and its sessions, and returns the handle if all went well. -/
theorem run_eq (c : InitCall) (p : RtpProcess) :
    (c.run p).1.handles = p.handles ++ [some c.pointers] ∧
    (c.run p).1.live = p.live ∪ c.created p.handles.length ∧
    (c.run p).2 = if c.Succeeds then some p.handles.length else none := by
  cases c with
  | send localport a =>
    by_cases hc : a.Creates <;> by_cases hd : 0 ≤ a.addDestination <;>
      simp [run, pointers, created, Succeeds, RtpProcess.initSendHandle, RtpProcess.initParam_eq,
        RtpProcess.setPointer, modify_last, Finset.union_singleton, hc, hd]
  | receive localreceiveport a =>
    by_cases hc : a.Creates <;>
      simp [run, pointers, created, Succeeds, RtpProcess.initReceiveHandle, RtpProcess.init_eq,
        RtpProcess.setPointer, modify_last, Finset.union_singleton, hc]
  | receiveAndSend localreceiveport localsendport a b =>
    by_cases hc : a.Creates <;> by_cases hd : 0 ≤ a.addDestination <;>
      by_cases hb : b.Creates <;>
      simp [run, pointers, created, Succeeds, RtpProcess.initReceiveAndSendHandle,
        RtpProcess.initParam_eq, RtpProcess.init_eq, RtpProcess.setPointer, modify_last,
        Finset.union_singleton, Finset.union_insert, Finset.insert_comm, hc, hd, hb]

variable {c : InitCall} {handle : Nat}

/-- A call that goes well brings up what its handle is to own, and sets its pointers. -/
theorem created_eq (h : c.Succeeds) : c.created handle = c.sessions handle := by
  cases c with
  | send localport a => simp [created, sessions, h.1]
  | receive localreceiveport a => simp [created, sessions, show a.Creates from h]
  | receiveAndSend localreceiveport localsendport a b =>
    simp [created, sessions, h.1.1, h.1.2, h.2]

/-- The sessions of a call that succeeds belong to its handle. -/
theorem has_pointers (h : c.Succeeds) {s : LiveSession} (hs : s ∈ c.sessions handle) :
    s.owner.handle = handle ∧ c.pointers.has s.owner.role = true := by
  cases c with
  | send localport a =>
    simp only [sessions, Finset.mem_singleton] at hs
    subst hs
    simp [pointers, RtpHandle.has, h.1, h.2]
  | receive localreceiveport a =>
    simp only [sessions, Finset.mem_singleton] at hs
    subst hs
    simp [pointers, RtpHandle.has, show a.Creates from h]
  | receiveAndSend localreceiveport localsendport a b =>
    simp only [sessions, Finset.mem_insert, Finset.mem_singleton] at hs
    rcases hs with rfl | rfl <;> simp [pointers, RtpHandle.has, h.1.1, h.1.2, h.2]

/-- What comes up in a call is the new handle's. -/
theorem handle_of_mem_created {s : LiveSession} (hs : s ∈ c.created handle) :
    s.owner.handle = handle := by
  unfold created at hs
  cases c <;> grind

/-- A call that fails is clean if and only if no session came up in it. -/
theorem clean_iff (handle : Nat) (h : ¬ c.Succeeds) : c.Clean ↔ c.created handle = ∅ := by
  cases c with
  | send localport a =>
    by_cases hc : a.Creates <;> simp_all [Clean, Succeeds, created]
  | receive localreceiveport a =>
    simp_all [Clean, Succeeds, created]
  | receiveAndSend localreceiveport localsendport a b =>
    by_cases hc : a.Creates <;> simp_all [Clean, Succeeds, created]

/-- Nothing fails in a call that succeeds. -/
theorem clean_of_succeeds (h : c.Succeeds) : c.Clean := by
  cases c with
  | send localport a => exact fun _ => h.2
  | receive localreceiveport a => trivial
  | receiveAndSend localreceiveport localsendport a b => exact fun _ => ⟨h.1.2, h.2⟩

/-- A call that returns 0 has left its handle behind. -/
theorem unchanged_iff (c : InitCall) (p : RtpProcess) :
    ((c.run p).2 = none → (c.run p).1 = p) ↔ c.Succeeds := by
  obtain ⟨hhandles, -, hresult⟩ := run_eq c p
  rw [hresult]
  by_cases hc : c.Succeeds
  · simp [hc]
  · refine iff_of_false (fun h => ?_) hc
    have hsame : (c.run p).1.handles = p.handles := by rw [h (if_neg hc)]
    rw [hhandles] at hsame
    simp at hsame

end InitCall

/-- A process with the sessions of the handles that were returned and are not finished. -/
structure HandleRun where
  process : RtpProcess
  owned : Finset LiveSession
  deriving DecidableEq

inductive HandleEvent where
  | init (c : InitCall)
  | fini (handle : Nat)

/-- An init call fails only while no session is up in it. -/
def HandleEvent.Clean : HandleEvent → Prop
  | init c => c.Clean
  | fini _ => True

namespace HandleRun

/-- A process that has made no call. -/
def start : HandleRun := ⟨⟨[], ∅, ∅⟩, ∅⟩

def step (r : HandleRun) : HandleEvent → HandleRun
  | .init c =>
    ⟨(c.run r.process).1,
      match (c.run r.process).2 with
      | some handle => r.owned ∪ c.sessions handle
      | none => r.owned⟩
  | .fini handle =>
    ⟨r.process.finiHandle handle, r.owned.filter fun s => s.owner.handle ≠ handle⟩

/-- Only a handle that was returned and is not finished is passed to `finiHandle_`. -/
def Allowed (r : HandleRun) : HandleEvent → Prop
  | .init _ => True
  | .fini handle => ∃ s ∈ r.owned, s.owner.handle = handle

/-- The sessions that are up are those of the handles returned and not finished. -/
def Balanced (r : HandleRun) : Prop := r.process.live = r.owned

instance (r : HandleRun) : Decidable r.Balanced := inferInstanceAs (Decidable (_ = _))

/-- The handle of a session that is owned points to its object. -/
def Pointed (r : HandleRun) : Prop :=
  ∀ s ∈ r.owned, ∃ h, r.process.handles[s.owner.handle]? = some (some h) ∧
    h.has s.owner.role = true

variable {r : HandleRun}

/-- The handle of a session that is owned is one of the process. -/
theorem Pointed.lt_length (h : r.Pointed) {s : LiveSession} (hs : s ∈ r.owned) :
    s.owner.handle < r.process.handles.length := by
  obtain ⟨_, hget, -⟩ := h s hs
  exact (List.getElem?_eq_some_iff.mp hget).1

/-- An initialisation keeps that. -/
theorem pointed_init (h : r.Pointed) (c : InitCall) : (r.step (.init c)).Pointed := by
  obtain ⟨hhandles, -, hresult⟩ := InitCall.run_eq c r.process
  intro s hs
  simp only [step, hresult] at hs ⊢
  rw [hhandles]
  have hold : ∀ s ∈ r.owned, ∃ h, (r.process.handles ++ [some c.pointers])[s.owner.handle]? =
      some (some h) ∧ h.has s.owner.role = true := by
    intro s hs
    rw [List.getElem?_append_left (h.lt_length hs)]
    exact h s hs
  by_cases hc : c.Succeeds
  · simp only [if_pos hc, Finset.mem_union] at hs
    rcases hs with hs | hs
    · exact hold s hs
    · obtain ⟨hhandle, hrole⟩ := InitCall.has_pointers hc hs
      exact ⟨c.pointers, by rw [hhandle]; simp, hrole⟩
  · simp only [if_neg hc] at hs
    exact hold s hs

/-- So does the end of a handle. -/
theorem pointed_fini (h : r.Pointed) (handle : Nat) : (r.step (.fini handle)).Pointed := by
  intro s hs
  obtain ⟨hs, hne⟩ := Finset.mem_filter.mp hs
  obtain ⟨hd, hget, hrole⟩ := h s hs
  refine ⟨hd, ?_, hrole⟩
  simp only [step, RtpProcess.finiHandle]
  split
  · rename_i heq
    rw [List.getElem?_set_ne (Ne.symm hne)]
    split <;> split <;> exact hget
  · exact hget

/-- An init call keeps the balance exactly if it is clean. -/
theorem balanced_init_iff (hp : r.Pointed) (hb : r.Balanced) (c : InitCall) :
    (r.step (.init c)).Balanced ↔ c.Clean := by
  obtain ⟨-, hlive, hresult⟩ := InitCall.run_eq c r.process
  simp only [Balanced, step, hlive, hresult]
  rw [show r.process.live = r.owned from hb]
  by_cases hc : c.Succeeds
  · simp only [if_pos hc, InitCall.created_eq hc]
    exact iff_of_true trivial (InitCall.clean_of_succeeds hc)
  · simp only [if_neg hc]
    rw [InitCall.clean_iff r.process.handles.length hc, Finset.union_eq_left]
    constructor
    · intro hsub
      refine Finset.eq_empty_of_forall_notMem fun s hs => ?_
      have hlt := hp.lt_length (hsub hs)
      rw [InitCall.handle_of_mem_created hs] at hlt
      exact absurd hlt (Nat.lt_irrefl _)
    · intro hempty
      rw [hempty]
      exact Finset.empty_subset _

/-- What `finiHandle_` destroys is what the handle owns. -/
theorem balanced_fini (hp : r.Pointed) (hb : r.Balanced) {handle : Nat}
    (hopen : ∃ s ∈ r.owned, s.owner.handle = handle) : (r.step (.fini handle)).Balanced := by
  obtain ⟨_, hs₀, rfl⟩ := hopen
  obtain ⟨h, hget, -⟩ := hp _ hs₀
  ext s
  simp only [step]
  rw [RtpProcess.mem_finiHandle_live _ hget, Finset.mem_filter,
    show r.process.live = r.owned from hb]
  refine and_congr_right fun hs => not_congr ?_
  refine ⟨And.left, fun heq => ⟨heq, ?_⟩⟩
  -- the handle that owns the session points to its object
  obtain ⟨h', hget', hrole⟩ := hp s hs
  rw [heq, hget] at hget'
  cases hget'
  exact hrole

/-- An allowed event keeps the balance exactly if it is clean. -/
theorem balanced_step_iff (hp : r.Pointed) (hb : r.Balanced) {e : HandleEvent}
    (hallowed : r.Allowed e) : (r.step e).Balanced ↔ e.Clean := by
  cases e with
  | init c => exact balanced_init_iff hp hb c
  | fini handle => exact iff_of_true (balanced_fini hp hb hallowed) trivial

/-- Every event does. -/
theorem pointed_step (hp : r.Pointed) (e : HandleEvent) : (r.step e).Pointed := by
  cases e with
  | init c => exact pointed_init hp c
  | fini handle => exact pointed_fini hp handle

/-- At the start there is no session. -/
theorem pointed_start : start.Pointed := fun _ hs => absurd hs (Finset.notMem_empty _)

/-- A call that returns 0 never leaves the process as it was. In a run from a process that
has made no call, the sessions that are up are those of the handles returned and not
finished throughout, exactly if no init call fails with a session up. -/
theorem leavesNothing_iff (c : InitCall) (p : RtpProcess) (es : List HandleEvent)
    (hallowed : ∀ q ∈ trace step start es, q.1.Allowed q.2) :
    (((c.run p).2 = none → (c.run p).1 = p) ↔ c.Succeeds) ∧
    ((∀ n, (after step start (es.take n)).Balanced) ↔ ∀ e ∈ es, e.Clean) := by
  refine ⟨InitCall.unchanged_iff c p, ?_⟩
  have hbalanced : start.Balanced := rfl
  rw [forall_take_iff (J := Pointed) (A := Allowed) (G := fun _ e => e.Clean) pointed_start
    hbalanced hallowed (fun _ e hp _ => pointed_step hp e)
    fun _ _ hp hb he => balanced_step_iff hp hb he]
  exact forall_trace_iff

/-- Both sessions come up and go with the handle. -/
theorem leavesNothing_iff_finished :
    (after step start
      [.init (.receiveAndSend 5004 5000 .ok .ok), .fini 0]).Balanced := by
  refine ((leavesNothing_iff (.receiveAndSend 5004 5000 .ok .ok) start.process
    [.init (.receiveAndSend 5004 5000 .ok .ok), .fini 0] ?_).2.mpr ?_) 2
  · simp only [forall_trace_cons, forall_trace_nil, and_true]
    exact ⟨trivial, ⟨⟨0, .sender⟩, 5000⟩, by decide, rfl⟩
  · simp only [List.forall_mem_cons, List.not_mem_nil, false_imp_iff, implies_true, and_true]
    exact ⟨fun _ => ⟨by decide, by decide⟩, trivial⟩

/-- The receiver's port is in use: 0 is returned, and the sender's session stays up. -/
theorem not_leavesNothing_receivePort :
    ((InitCall.receiveAndSend 5004 5000 .ok .portInUse).run start.process).2 = none ∧
    ((InitCall.receiveAndSend 5004 5000 .ok .portInUse).run start.process).1 ≠ start.process ∧
    ¬ (after step start [.init (.receiveAndSend 5004 5000 .ok .portInUse)]).Balanced := by
  decide

end HandleRun

end Jrtplib4Android
