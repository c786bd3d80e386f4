import Jrtplib4Android.Core.Run
import Jrtplib4Android.Receiver.Reassembly
import Jrtplib4Android.Receiver.Sources

/-!
# Callbacks and the active stop

`fini` clears `m_init` first and stops the poll thread after it, so the poll thread may
handle any number of events in between. The RTCP and BYE callbacks look at `m_init`; the
frame callback looks at the environment pointer alone.
-/

namespace Jrtplib4Android

open CSem

/-- A receiver object with what its poll thread works on. -/
structure PollState where
  java : JavaAccess
  receiver : CRTPReceiver
  globals : PsGlobals
  destinations : Finset RTPIPv4Address

/-- What happens to a receiver object, one thing at a time. -/
inductive PollEvent where
  /-- `fini`, up to its call of `BYEDestroy`. -/
  | fini
  /-- `OnPollThreadStart`, with the status of `AttachCurrentThread`. -/
  | pollThreadStart (status : Int)
  /-- `OnPollThreadStop`, out of `BYEDestroy`. -/
  | pollThreadStop
  | rtpPacket (packet : RTPPacket)
  | rtcpCompoundPacket (sender : RTPIPv4Address)
  | newSource (srcdat : RTPSourceData)
  | removeSource (srcdat : RTPSourceData)
  | byePacket (srcdat : RTPSourceData)

namespace PollState

/-- An event: the state after it and the callback made in it. -/
def handle (s : PollState) : PollEvent → Except Fault (PollState × Option Callback)
  | .fini => .ok ({ s with java := { s.java with mInit := false } }, none)
  | .pollThreadStart status =>
    .ok ({ s with java := { s.java with isAttach := 0 ≤ status, env := 0 ≤ status } }, none)
  | .pollThreadStop =>
    .ok ({ s with java := { s.java with isAttach := false, env := false } }, none)
  | .rtpPacket packet => do
    let (receiver, globals, effect) ← processRtpPacket s.receiver s.globals packet
    return ({ s with receiver := receiver, globals := globals },
      effect.frame.bind (callbackRtp s.java))
  | .rtcpCompoundPacket sender => .ok (s, onRTCPCompoundPacket s.java sender)
  | .newSource srcdat =>
    let (destinations, callback) := onNewSource s.java s.destinations srcdat
    .ok ({ s with destinations := destinations }, callback)
  | .removeSource srcdat =>
    let (destinations, callback) := onRemoveSource s.java s.destinations srcdat
    .ok ({ s with destinations := destinations }, callback)
  | .byePacket srcdat =>
    let (destinations, callback) := onBYEPacket s.java s.destinations srcdat
    .ok ({ s with destinations := destinations }, callback)

/-- A run ends with the first event that leaves defined memory. -/
def step (s : Option PollState) (e : PollEvent) : Option PollState :=
  s.bind fun s =>
    match s.handle e with
    | .ok (s, _) => some s
    | .error _ => none

/-- The callback made in an event. -/
def made (s : PollState) (e : PollEvent) : Option Callback :=
  match s.handle e with
  | .ok (_, callback) => callback
  | .error _ => none

end PollState

/-- The packet starts a pack, and the pending one has `n` bytes of video. -/
def PsGlobals.HandsOver (g : PsGlobals) (packet : RTPPacket) (n : Nat) : Prop :=
  0 < n ∧ packet.payload ≠ [] ∧ g.psLen + packet.payload.length < psBufSize ∧ 0 < g.psLen ∧
    (g.appended packet).startsWith g.psLen [0, 0, 1, 0xba] = .ok true ∧
    ∃ frame, getH246FromPs (g.appended packet) g.psLen g.h264buf = .ok (n, frame)

/-- The size of the buffer is kept. -/
theorem size_of_processRtpPacket {r : CRTPReceiver} {g : PsGlobals}
    (hsize : g.psBuf.size = psBufSize) {packet : RTPPacket}
    {result : CRTPReceiver × PsGlobals × Effect}
    (hok : processRtpPacket r g packet = .ok result) : result.2.1.psBuf.size = psBufSize := by
  rw [processRtpPacket_eq r hsize packet] at hok
  split at hok
  · cases hok
    exact hsize
  split at hok
  · cases hok
    exact hsize
  obtain ⟨isStart, -, hrest⟩ := bind_eq_ok hok
  split at hrest
  · obtain ⟨_, -, hflush⟩ := bind_eq_ok hrest
    cases hflush
    exact hsize
  · cases hrest
    exact hsize

/-- A call has a frame of `n` bytes to deliver if and only if its packet hands one over. -/
theorem processRtpPacket_frame_iff (r : CRTPReceiver) {g : PsGlobals}
    (hsize : g.psBuf.size = psBufSize) (packet : RTPPacket) (n : Nat) :
    (∃ result frame, processRtpPacket r g packet = .ok result ∧
      result.2.2.frame = some frame ∧ frame.data.length = n) ↔ g.HandsOver packet n := by
  rw [processRtpPacket_eq r hsize packet]
  constructor
  · rintro ⟨result, frame, hok, hframe, hn⟩
    split at hok
    · cases hok
      cases hframe
    rename_i hne
    split at hok
    · cases hok
      cases hframe
    rename_i hfit
    obtain ⟨isStart, hstart, hrest⟩ := bind_eq_ok hok
    split at hrest
    · rename_i hflush
      obtain ⟨⟨length, out⟩, hdemux, hdone⟩ := bind_eq_ok hrest
      obtain ⟨hisStart, hpos⟩ := Bool.and_eq_true_iff.mp hflush
      rw [hisStart] at hstart
      cases hdone
      have hlength : 0 < length ∧ length = n := by
        simp only [Effect.frame] at hframe
        split at hframe
        · rename_i hlength
          cases hframe
          rw [Block.length_slice] at hn
          exact ⟨hlength, by omega⟩
        · cases hframe
      obtain ⟨hlength, rfl⟩ := hlength
      exact ⟨by omega, hne, not_not.mp hfit, of_decide_eq_true hpos, hstart, out, hdemux⟩
    · cases hrest
      cases hframe
  · rintro ⟨hn, hne, hfit, hpos, hstart, out, hdemux⟩
    simp only [if_neg hne, if_neg (not_not.mpr hfit), hstart, hdemux, bind, Except.bind,
      Bool.true_and, decide_eq_true hpos, ite_true, Int.natCast_pos, if_pos hn, Int.toNat_natCast]
    exact ⟨_, _, rfl, rfl, Block.length_slice ..⟩

/-- What a call that returns has to deliver. -/
theorem handsOver_iff {r : CRTPReceiver} {g : PsGlobals} (hsize : g.psBuf.size = psBufSize)
    {packet : RTPPacket} {result : CRTPReceiver × PsGlobals × Effect}
    (hok : processRtpPacket r g packet = .ok result) (n : Nat) :
    g.HandsOver packet n ↔ ∃ frame, result.2.2.frame = some frame ∧ frame.data.length = n := by
  rw [← processRtpPacket_frame_iff r hsize packet n]
  constructor
  · rintro ⟨result', frame, hok', hframe, hn⟩
    rw [hok] at hok'
    cases hok'
    exact ⟨frame, hframe, hn⟩
  · rintro ⟨frame, hframe, hn⟩
    exact ⟨result, frame, hok, hframe, hn⟩

/-- A call that leaves defined memory has nothing to deliver. -/
theorem not_handsOver {r : CRTPReceiver} {g : PsGlobals} (hsize : g.psBuf.size = psBufSize)
    {packet : RTPPacket} {fault : Fault} (herror : processRtpPacket r g packet = .error fault)
    (n : Nat) : ¬ g.HandsOver packet n := by
  rw [← processRtpPacket_frame_iff r hsize packet n]
  rintro ⟨result, frame, hok, -⟩
  rw [herror] at hok
  cases hok

namespace PollState

/-- The packet is handed over while the thread is attached; nothing else gets past a
cleared `m_init`. -/
def Unguarded (s : PollState) : PollEvent → Prop
  | .rtpPacket packet => s.java.env = true ∧ ∃ n, s.globals.HandsOver packet n
  | _ => False

/-- The buffer is the one that the library allocated. -/
def Allocated (s : PollState) : Prop := s.globals.psBuf.size = psBufSize

variable {s : PollState}

theorem allocated_handle (h : s.Allocated) {e : PollEvent} {result : PollState × Option Callback}
    (hok : s.handle e = .ok result) : result.1.Allocated := by
  cases e with
  | rtpPacket packet =>
    obtain ⟨_, hpacket, hdone⟩ := bind_eq_ok hok
    cases hdone
    exact size_of_processRtpPacket h hpacket
  | _ =>
    cases hok
    exact h

/-- A packet makes a callback exactly if it is handed over while the thread is attached. -/
theorem made_rtpPacket_eq_none_iff (h : s.Allocated) (packet : RTPPacket) :
    s.made (.rtpPacket packet) = none ↔
      ¬ (s.java.env = true ∧ ∃ n, s.globals.HandsOver packet n) := by
  cases hok : processRtpPacket s.receiver s.globals packet with
  | error fault => simp [made, handle, hok, not_handsOver h hok, bind, Except.bind]
  | ok result =>
    simp only [handsOver_iff h hok]
    obtain ⟨receiver, globals, effect⟩ := result
    cases hframe : effect.frame <;> cases henv : s.java.env <;>
      simp [made, handle, hok, hframe, callbackRtp, henv, bind, Except.bind, pure, Except.pure]

/-- With `m_init` cleared, exactly an unguarded event makes a callback. -/
theorem made_eq_none_iff (h : s.Allocated) (hinit : s.java.mInit = false) (e : PollEvent) :
    s.made e = none ↔ ¬ s.Unguarded e := by
  cases e with
  | rtpPacket packet => exact made_rtpPacket_eq_none_iff h packet
  | rtcpCompoundPacket sender =>
    exact iff_of_true (onRTCPCompoundPacket_stopped hinit sender) id
  | newSource srcdat => exact iff_of_true (processSourceData_stopped hinit _ srcdat _) id
  | removeSource srcdat => exact iff_of_true (processSourceData_stopped hinit _ srcdat _) id
  | byePacket srcdat => exact iff_of_true (processSourceData_stopped hinit _ srcdat _) id
  | fini => exact iff_of_true rfl id
  | pollThreadStart status => exact iff_of_true rfl id
  | pollThreadStop => exact iff_of_true rfl id

theorem allocated_step {s : Option PollState} (h : ∀ t ∈ s, t.Allocated) (e : PollEvent) :
    ∀ t ∈ step s e, t.Allocated := by
  cases s with
  | none => simp [step]
  | some s =>
    intro t ht
    simp only [step, Option.bind_some] at ht
    split at ht
    · cases ht
      exact allocated_handle (h s rfl) ‹_›
    · cases ht

/-- No callback is made in a run once `m_init` is cleared, exactly if no packet is then
handed over before the poll thread has stopped. -/
theorem quiet_run_iff (s : PollState) (h : s.Allocated) (es : List PollEvent) :
    (∀ p ∈ trace step (some s) es, ∀ t ∈ p.1, t.java.mInit = false → t.made p.2 = none) ↔
      ∀ p ∈ trace step (some s) es, ∀ t ∈ p.1, t.java.mInit = false → ¬ t.Unguarded p.2 := by
  have hallocated : ∀ p ∈ trace step (some s) es, ∀ t ∈ p.1, t.Allocated :=
    trace_invariant (I := fun s : Option PollState => ∀ t ∈ s, t.Allocated)
      (by rintro t ⟨⟩; exact h) fun _ e h => allocated_step h e
  refine forall₂_congr fun p hp => forall₂_congr fun t ht => ?_
  exact imp_congr_right fun hinit => made_eq_none_iff (hallocated p hp t ht) hinit p.2

/-- A receiver object whose poll thread is attached. -/
def attached : PollState := ⟨⟨true, true, true⟩, ⟨0, true, 0⟩, psGlobals₀, ∅⟩

/-- With nothing pending the stop is quiet. -/
theorem quiet_run_iff_nothingPending :
    PollState.made ⟨⟨false, true, true⟩, ⟨0, true, 0⟩, psGlobals₀, ∅⟩
      (.rtpPacket twoPacketPack.first) = none := by
  refine (quiet_run_iff attached rfl [.fini, .rtpPacket twoPacketPack.first]).mpr ?_
    (some ⟨⟨false, true, true⟩, ⟨0, true, 0⟩, psGlobals₀, ∅⟩, .rtpPacket twoPacketPack.first)
    (List.mem_cons_of_mem _ (List.mem_singleton_self _)) _ rfl rfl
  simp only [forall_trace_cons, forall_trace_nil, and_true]
  refine ⟨fun t ht _ h => h, ?_⟩
  rintro t ⟨⟩ - ⟨-, n, -, -, -, hpos, -⟩
  exact absurd hpos (by decide)

/-- A pack that is pending at the stop is delivered behind it. -/
theorem not_quiet_pendingPack :
    (after step (some attached)
        [.rtpPacket (plainPacket twoPacketPack.bytes (by decide)), .fini]).map (fun t =>
      (t.java.mInit, t.made (.rtpPacket (plainPacket twoPacketPack.bytes (by decide))))) =
    some (false, some (.receiveRtpData ⟨[0x67, 0x42], true⟩)) := by
  decide +kernel

end PollState

end Jrtplib4Android
