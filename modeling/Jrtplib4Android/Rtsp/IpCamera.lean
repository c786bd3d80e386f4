import Jrtplib4Android.Core.Run
import Jrtplib4Android.Rtsp.Segmentation

/-!
# The listener of an IP camera

`IpCameraHelper` drives the client from one request to the next: each event that it is
told leads to the call of one method. Its `fini` may come from another thread at any time.
-/

namespace Jrtplib4Android

open CSem

namespace IpCameraHelper

/-- `setOnRtspEventListener`; the state is whether `rtspClient` is set. -/
def listener (localPort : Int) : Listener Bool
  | held, .status .init => (held, [.method .doOption])
  | held, .status .options => (held, [.method .doDescribe])
  | held, .status .describe => (held, [.method (.doSetup localPort)])
  | held, .status .setup => (held, [.method .doPlay])
  | held, .status .error => (false, if held then [.method .doTeardown, .shutdown] else [])
  | _, .closed => (false, [])
  | held, .status _ => (held, [])

/-- The part of `fini` that is about the client. -/
def fini (localPort : Int) (s : RtspSession Bool) : RtspSession Bool :=
  if s.listener then
    match s.calls (listener localPort) [.method .doTeardown, .shutdown] with
    | (s, true) => s
    | (s, false) => { s with listener := false }
  else s

/-- What happens to the client: a pass of `run`, a read in a pass, or `fini`. -/
inductive Event where
  | pass
  | read (data : Option (List UInt8))
  | fini

def step (decode : List UInt8 → List Char) (localPort : Int) (s : RtspSession Bool) :
    Event → RtspSession Bool
  | .pass =>
    -- the loop of `run` ends with the flag, and `shutdown` follows it
    if s.client.shutdown then s.shutdown (listener localPort)
    else if s.client.sysStatus = .init then (s.notify (listener localPort)).1
    else s
  | .read data =>
    if s.client.shutdown then s else s.read decode (listener localPort) data
  | .fini => fini localPort s

/-- The connected client of a camera. -/
def start (address : List Char) : RtspSession Bool := ⟨.start address, true, [], false⟩

end IpCameraHelper

/-- A SETUP request announces the pair. -/
def Request.Announces (pair : Int × Int) : Request → Prop
  | .setup _ _ _ clientPort => clientPort = pair
  | _ => True

/-- A call of `doSetup` leads to such a request. -/
def RtspCall.Announces (pair : Int × Int) : RtspCall → Prop
  | .method (.doSetup localPort) => RTSPClient.clientPort localPort = pair
  | _ => True

/-- The SETUP requests written announce the pair. -/
def RTSPClient.Announces (pair : Int × Int) (c : RTSPClient) : Prop :=
  ∀ r ∈ c.written, r.Announces pair

variable {σ : Type} {pair : Int × Int}

/-- A request of a method that announces the ports announces them. -/
theorem RTSPClient.announces_requestOf (c : RTSPClient) {m : Method}
    (hm : (RtspCall.method m).Announces pair) : ∀ r ∈ c.requestOf m, r.Announces pair := by
  intro r hr
  cases m with
  | doOption =>
    obtain ⟨base, -, rfl⟩ := Option.map_eq_some_iff.mp hr
    trivial
  | doSetup localPort =>
    cases hr
    exact hm
  | doDescribe | doPlay | doPause | doTeardown =>
    cases hr
    trivial

/-- Only `doSetup` announces a pair. -/
theorem RTSPClient.Announces.run {c : RTSPClient} (h : c.Announces pair) {m : Method}
    (hm : (RtspCall.method m).Announces pair) : (c.run m).1.Announces pair := by
  rcases c.run_cases m with ⟨-, hrun⟩ | ⟨-, -, seq, -, hrun⟩ | ⟨-, r, hr, -, hrun⟩
  · rw [hrun]
    exact h
  · rw [hrun]
    exact h
  · rw [hrun]
    refine List.forall_mem_append.mpr ⟨h, List.forall_mem_singleton.mpr ?_⟩
    exact c.announces_requestOf hm r hr

namespace RtspSession

variable {l : Listener σ} {s : RtspSession σ}

/-- Closing announces nothing else. -/
theorem announces_shutdown (h : s.client.Announces pair) :
    (s.shutdown l).client.Announces pair := by
  rw [(s.client_shutdown l).1]
  exact h

/-- Nor does a listener whose calls all announce them. -/
theorem announces_calls {cs : List RtspCall} (hcs : ∀ c ∈ cs, c.Announces pair)
    (h : s.client.Announces pair) : (s.calls l cs).1.client.Announces pair := by
  refine calls_invariant (P := fun s => s.client.Announces pair) ?_ h
  intro c hc s hs
  cases c with
  | method m => exact hs.run (hcs _ hc)
  | shutdown => exact announces_shutdown hs

/-- What a listener calls when it is told of an event. -/
theorem announces_notify (hl : ∀ state event, ∀ c ∈ (l state event).2, c.Announces pair)
    (h : s.client.Announces pair) : (s.notify l).1.client.Announces pair :=
  announces_calls (hl _ _) h

/-- Nor does such a listener on a response. -/
theorem announces_answered (hl : ∀ state event, ∀ c ∈ (l state event).2, c.Announces pair)
    (h : s.client.Announces pair) (tmp : List Char) :
    (s.answered l fun c => c.obtainKeyData tmp).1.client.Announces pair := by
  apply answered_invariant (P := fun c => c.Announces pair)
  · exact fun s => announces_notify hl
  · intro c
    rw [RTSPClient.obtainKeyData_eq]
    exact ⟨rfl, rfl⟩
  · intro c hwritten _
    rw [RTSPClient.Announces, hwritten]
    exact h

/-- Nor does it on a read. -/
theorem announces_read (decode : List UInt8 → List Char)
    (hl : ∀ state event, ∀ c ∈ (l state event).2, c.Announces pair) (h : s.client.Announces pair)
    (data : Option (List UInt8)) : (s.read decode l data).client.Announces pair := by
  have hreceived : (s.client.recieve data).1.Announces pair := by
    obtain ⟨n, hn⟩ := s.client.recieve_fst data
    rw [hn]
    exact h
  rcases s.read_cases decode l data rfl with
    ⟨-, hread⟩ | ⟨-, ⟨-, hread⟩ | ⟨msg, -, ⟨-, hread⟩ | ⟨-, hread⟩⟩⟩
  · rw [hread]
    exact h
  · rw [hread]
    exact announces_notify (s := { s with client := _ }) hl hreceived
  · rw [hread]
    exact hreceived
  · rw [hread]
    exact announces_answered (s := { s with client := _ }) hl hreceived (decode msg)

end RtspSession

namespace IpCameraHelper

variable {decode : List UInt8 → List Char} {localPort : Int} {s : RtspSession Bool}

/-- The listener sets up with the port that it was made with. -/
theorem announces_listener (held : Bool) (event : RtspEvent) :
    ∀ c ∈ (listener localPort held event).2, c.Announces (RTSPClient.clientPort localPort) := by
  intro c hc
  cases event with
  | closed =>
    cases hc
  | status status =>
    cases status <;> cases held <;> simp [listener] at hc <;> try (subst hc; trivial)
    · rcases hc with rfl | rfl <;> trivial

/-- The listener of a camera is one. -/
theorem announces_step (h : s.client.Announces (RTSPClient.clientPort localPort)) (e : Event) :
    (step decode localPort s e).client.Announces (RTSPClient.clientPort localPort) := by
  cases e with
  | pass =>
    simp only [step]
    split
    · exact RtspSession.announces_shutdown h
    split
    · exact RtspSession.announces_notify announces_listener h
    · exact h
  | read data =>
    simp only [step]
    split
    · exact h
    · exact RtspSession.announces_read decode announces_listener h data
  | fini =>
    simp only [step, fini]
    split
    · have hcs : ∀ c ∈ [RtspCall.method .doTeardown, .shutdown],
          c.Announces (RTSPClient.clientPort localPort) := by simp [RtspCall.Announces]
      have hcalls := RtspSession.announces_calls (l := listener localPort) hcs h
      split
      · next s' hthrown =>
        rw [hthrown] at hcalls
        exact hcalls
      · next s' hdone =>
        rw [hdone] at hcalls
        exact hcalls
    · exact h

/-- In every run, whatever the server sends, each SETUP request announces the pair of the
port that the helper was made with. -/
theorem announces_run (address : List Char) (es : List Event) :
    (after (step decode localPort) (start address) es).client.Announces
      (RTSPClient.clientPort localPort) := by
  have hstart : (start address).client.Announces (RTSPClient.clientPort localPort) :=
    fun r hr => absurd hr List.not_mem_nil
  exact after_invariant
    (I := fun s : RtspSession Bool => s.client.Announces (RTSPClient.clientPort localPort))
    hstart fun p _ h => announces_step h p.2

end IpCameraHelper

end Jrtplib4Android
