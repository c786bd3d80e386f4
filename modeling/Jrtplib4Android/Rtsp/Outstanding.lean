import Jrtplib4Android.Core.Run
import Jrtplib4Android.Rtsp.Segmentation

/-!
# The outstanding request

The flag `isSended` is raised by each request and lowered by a `200 OK` alone. As long as
no other response comes it says whether a request is on its way.
-/

namespace Jrtplib4Android

open CSem

variable {σ : Type}

/-- With `n` responses so far, the flag is up for one request without response. -/
structure RTSPClient.Balanced (n : Nat) (c : RTSPClient) : Prop where
  answered : n ≤ c.written.length
  flag : c.isSended = true ↔ c.written.length = n + 1
  atMost : c.written.length ≤ n + 1

namespace RTSPClient

/-- A client with the same flag and requests is balanced as well. -/
theorem Balanced.congr {n : Nat} {c c' : RTSPClient} (h : c.Balanced n)
    (hflag : c'.isSended = c.isSended) (hwritten : c'.written = c.written) : c'.Balanced n := by
  obtain ⟨hanswered, hiff, hmost⟩ := h
  refine ⟨?_, ?_, ?_⟩
  · rwa [hwritten]
  · rwa [hflag, hwritten]
  · rwa [hwritten]

/-- A request goes out only when none is on its way. -/
theorem Balanced.run {n : Nat} {c : RTSPClient} (h : c.Balanced n) (m : Method) :
    (c.run m).1.Balanced n := by
  rcases c.run_cases m with ⟨-, hrun⟩ | ⟨-, -, seq, -, hrun⟩ | ⟨hallows, r, -, -, hrun⟩
  · rw [hrun]
    exact h
  · rw [hrun]
    exact h.congr rfl rfl
  · have hnone : c.written.length = n := by
      have hne : ¬ c.written.length = n + 1 := fun heq => by
        have hflag := h.flag.mpr heq
        rw [hallows.free] at hflag
        cases hflag
      have := h.answered
      have := h.atMost
      omega
    rw [hrun]
    refine ⟨?_, ?_, ?_⟩
    · simp only [List.length_append, List.length_singleton, hnone]
      omega
    · simp only [List.length_append, List.length_singleton, hnone]
    · simp only [List.length_append, List.length_singleton, hnone, le_refl]

/-- A response answers the one request on its way. -/
theorem Balanced.answer {n : Nat} {c : RTSPClient} (h : c.Balanced n)
    (hsent : n < c.written.length) : { c with isSended := false }.Balanced (n + 1) := by
  have := h.atMost
  exact ⟨by simp only; omega, by simp; omega, by simp only; omega⟩

end RTSPClient

namespace RtspSession

theorem balanced_call {n : Nat} {l : Listener σ} {s : RtspSession σ} (h : s.client.Balanced n)
    (c : RtspCall) : (s.call l c).1.client.Balanced n := by
  cases c with
  | method m => exact h.run m
  | shutdown =>
    change (s.shutdown l).client.Balanced n
    rw [(s.client_shutdown l).1]
    exact h.congr rfl rfl

theorem balanced_notify {n : Nat} {l : Listener σ} {s : RtspSession σ} (h : s.client.Balanced n) :
    (s.notify l).1.client.Balanced n :=
  calls_invariant (P := fun s => s.client.Balanced n) (fun c _ _ hs => balanced_call hs c)
    (h.congr rfl rfl)

/-- After a `200 OK` the request is answered, and the listener may have sent the next. -/
theorem balanced_respond {n : Nat} {l : Listener σ} {s : RtspSession σ} {k : KeyData}
    (h : s.client.Balanced n) (hsent : n < s.client.written.length)
    (hvalid : (s.client.connected && !s.cancelled) = true) :
    (s.respond l k).client.Balanced (n + 1) := by
  rw [respond, if_pos hvalid]
  change (s.answered l fun c => c.adopt k).1.client.Balanced (n + 1)
  apply answered_invariant (P := fun c => c.Balanced (n + 1))
  · exact fun s => balanced_notify
  · exact fun c => ⟨rfl, rfl⟩
  · exact fun c hwritten hflag => (h.answer hsent).congr hflag hwritten

end RtspSession

/-- A session and the number of responses that have come. -/
structure Exchange (σ : Type) where
  session : RtspSession σ
  answers : Nat

/-- A call from any thread, a pass of `run`, or a response that one read returns. -/
inductive ExchangeEvent where
  | call (c : RtspCall)
  | pass
  | response (msg : Chunk)

/-- The response is a `200 OK`. -/
def ExchangeEvent.Good (decode : List UInt8 → List Char) : ExchangeEvent → Prop
  | .response msg => RTSPClient.rtspOk <+: decode msg.1
  | _ => True

instance (decode : List UInt8 → List Char) (e : ExchangeEvent) : Decidable (e.Good decode) :=
  match e with
  | .response msg => inferInstanceAs (Decidable (RTSPClient.rtspOk <+: decode msg.1))
  | .call _ => isTrue trivial
  | .pass => isTrue trivial

namespace Exchange

/-- What an event does. -/
def step (decode : List UInt8 → List Char) (l : Listener σ) (x : Exchange σ) :
    ExchangeEvent → Exchange σ
  | .call c => { x with session := (x.session.call l c).1 }
  | .pass =>
    if x.session.client.sysStatus = .init then { x with session := (x.session.notify l).1 } else x
  | .response msg =>
    { session := x.session.read decode l (some msg.1), answers := x.answers + 1 }

/-- A response is read from a connected channel, to a request that has none. -/
def Allowed (x : Exchange σ) : ExchangeEvent → Prop
  | .response _ =>
    (x.session.client.connected && !x.session.cancelled) = true ∧
      x.answers < x.session.client.written.length
  | _ => True

instance (x : Exchange σ) (e : ExchangeEvent) : Decidable (x.Allowed e) :=
  match e with
  | .response _ => inferInstanceAs (Decidable ((_ && _) = true ∧ _ < _))
  | .call _ => isTrue trivial
  | .pass => isTrue trivial

def start (address : List Char) (listener : σ) : Exchange σ where
  session := ⟨.start address, listener, [], false⟩
  answers := 0

/-- The number of requests that no response has come for. -/
def outstanding (x : Exchange σ) : Int := x.session.client.written.length - x.answers

/-- There is one request without response, or none, and the flag tells which. When there is
none the client can at least tear down. -/
structure OneOutstanding (x : Exchange σ) : Prop where
  range : x.outstanding = 0 ∨ x.outstanding = 1
  flag : x.session.client.isSended = true ↔ x.outstanding = 1
  teardown : x.outstanding = 0 → ∀ c, c = x.session.client → c.connected = true →
    c.sysStatus ≠ .init → c.sysStatus ≠ .teardown →
    (Request.teardown c.address c.sessionid c.seq).size ≤ RTSPClient.bufferSize →
    c.doTeardown.1.written = c.written ++ [.teardown c.address c.sessionid c.seq]

theorem oneOutstanding_iff (x : Exchange σ) :
    x.OneOutstanding ↔ x.session.client.Balanced x.answers := by
  constructor
  · rintro ⟨hrange, hflag, -⟩
    rw [outstanding] at hrange hflag
    exact ⟨by omega, hflag.trans (by omega), by omega⟩
  · rintro ⟨hanswered, hflag, hmost⟩
    refine ⟨by rw [outstanding]; omega, hflag.trans (by rw [outstanding]; omega), ?_⟩
    rintro hnone c rfl hconn hinit htorn hsize
    have hfree : x.session.client.isSended = false := by
      rw [outstanding] at hnone
      rw [Bool.eq_false_iff, ne_eq, hflag]
      omega
    rw [RTSPClient.doTeardown,
      RTSPClient.request_eq .teardown hconn hfree (not_or.mpr ⟨hinit, htorn⟩) hsize]

/-- An allowed event keeps the balance exactly if it is no response but a `200 OK`. -/
theorem balanced_step_iff {decode : List UInt8 → List Char} {l : Listener σ} {x : Exchange σ}
    {e : ExchangeEvent} (h : x.session.client.Balanced x.answers) (hallowed : x.Allowed e) :
    (step decode l x e).session.client.Balanced (step decode l x e).answers ↔ e.Good decode := by
  cases e with
  | call c => exact iff_of_true (RtspSession.balanced_call h c) trivial
  | pass =>
    refine iff_of_true ?_ trivial
    simp only [step]
    split
    · exact RtspSession.balanced_notify h
    · exact h
  | response msg =>
    obtain ⟨hvalid, hsent⟩ := hallowed
    simp only [step, ExchangeEvent.Good, RtspSession.read_chunk]
    by_cases hok : RTSPClient.rtspOk <+: decode msg.1
    · rw [if_pos hok]
      exact iff_of_true (RtspSession.balanced_respond h hsent hvalid) hok
    · rw [if_neg hok]
      refine iff_of_false (fun hbad => ?_) hok
      have hmost := h.atMost
      have hflag := hbad.flag.mp (h.flag.mpr (by omega))
      omega

/-- In every run from the connected client, with any listener, there is one request without
response or none throughout, and the flag tells which, exactly if every response is a
`200 OK`. -/
theorem oneOutstanding_run_iff (decode : List UInt8 → List Char) (l : Listener σ)
    (address : List Char) (listener : σ) (es : List ExchangeEvent)
    (hallowed : ∀ p ∈ trace (step decode l) (start address listener) es, p.1.Allowed p.2) :
    (∀ n, (after (step decode l) (start address listener) (es.take n)).OneOutstanding) ↔
      ∀ e ∈ es, e.Good decode := by
  have hstart : (start address listener).session.client.Balanced 0 :=
    ⟨Nat.le_refl 0, by simp [start, RTSPClient.start], Nat.zero_le _⟩
  have hgood : (∀ p ∈ trace (step decode l) (start address listener) es, p.2.Good decode) ↔
      ∀ e ∈ es, e.Good decode := forall_trace_iff
  rw [← hgood]
  exact forall_take_iff (J := fun _ => True) (A := Allowed) (G := fun _ e => e.Good decode) trivial
    ((oneOutstanding_iff _).mpr hstart) hallowed (fun _ _ _ _ => trivial) fun x e _ hx he => by
      rw [oneOutstanding_iff] at hx ⊢
      exact balanced_step_iff hx he

/-- A listener that opens with OPTIONS. -/
def opener : Listener Unit
  | (), .status .init => ((), [.method .doOption])
  | (), _ => ((), [])

/-- OPTIONS and its response, one step after the other. -/
theorem oneOutstanding_run_iff_options :
    (after (step ascii opener) (start "rtsp://a/b".toList ())
      [.pass, .response ⟨okResponse, okResponse_chunk⟩]).OneOutstanding :=
  (oneOutstanding_run_iff ascii opener "rtsp://a/b".toList ()
    [.pass, .response ⟨okResponse, okResponse_chunk⟩] (by decide +kernel)).mpr
    (by decide +kernel) 2

def errorResponse : List UInt8 :=
  "RTSP/1.0 404 Not Found\r\nCSeq: 1\r\n\r\n".toList.map fun c => UInt8.ofNat c.toNat

theorem errorResponse_chunk :
    errorResponse ≠ [] ∧ errorResponse.length ≤ RTSPClient.bufferSize := by decide

/-- After an error response the flag stays up with no request on its way. -/
theorem not_oneOutstanding_error :
    (∀ p ∈ trace (step ascii opener) (start "rtsp://a/b".toList ())
      [.pass, .response ⟨errorResponse, errorResponse_chunk⟩], p.1.Allowed p.2) ∧
    ¬ (after (step ascii opener) (start "rtsp://a/b".toList ())
      [.pass, .response ⟨errorResponse, errorResponse_chunk⟩]).OneOutstanding :=
  ⟨by decide +kernel, fun h => absurd (h.flag.mp (by decide +kernel)) (by decide +kernel)⟩

end Exchange

end Jrtplib4Android
