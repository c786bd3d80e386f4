import Jrtplib4Android.Core.Run
import Jrtplib4Android.Rtsp.Wire

/-!
# The worker of a client

`run` goes round as long as the flag `shutdown` is down, and closes the channel when it is up.
The flag is raised in one place alone, at the `200 OK` that comes for a PAUSE: neither that of a
TEARDOWN nor a call of `shutdown()` raises it.
-/

namespace Jrtplib4Android

open CSem

/-- The status that a request goes out in. -/
def Request.status : Request → RtspStatus
  | .options .. => .options
  | .describe .. => .describe
  | .setup .. => .setup
  | .play .. => .play
  | .pause .. => .pause
  | .teardown .. => .teardown

/-- The request of a method has its status. -/
theorem RTSPClient.status_requestOf {c : RTSPClient} {m : Method} {r : Request}
    (hr : r ∈ c.requestOf m) : r.status = m.status := by
  cases m with
  | doOption =>
    obtain ⟨base, -, rfl⟩ := Option.map_eq_some_iff.mp hr
    rfl
  | doDescribe | doSetup | doPlay | doPause | doTeardown =>
    cases hr
    rfl

/-- Where the worker is: at the test of its loop, in `select`, or behind `run`. -/
inductive WorkerPlace where
  | test
  | select
  | ended
  deriving DecidableEq

/-- A client with the thread that runs it, and what has become of its requests. -/
structure Worker where
  session : RtspSession Unit
  place : WorkerPlace
  /-- The number of responses that have come. -/
  answers : Nat
  /-- The requests that a `200 OK` has come for. -/
  acknowledged : List Request
  /-- Whether `shutdown()` has been called. -/
  called : Bool

/-- A call of the listener or of another thread, a move of the worker, or a complete response
that its `select` finds. -/
inductive WorkerEvent where
  | call (c : RtspCall)
  | turn
  | response (msg : Chunk)
  deriving DecidableEq

namespace Worker

def start (address : List Char) : Worker := ⟨RTSPClient.begin address, .test, 0, [], false⟩

/-- The move of the worker by itself. -/
def turn (w : Worker) : Worker :=
  match w.place with
  | .test =>
    if w.session.client.shutdown then
      -- the loop of `run` ends with the flag, and `shutdown` follows it
      { w with session := w.session.shutdown RTSPClient.quiet, place := .ended, called := true }
    else if w.session.client.sysStatus = .init then
      { w with session := (w.session.notify RTSPClient.quiet).1, place := .select }
    else { w with place := .select }
  | .select => { w with place := .test }
  | .ended => w

/-- The request that the next response is for. -/
def waiting (w : Worker) : Option Request := w.session.client.written[w.answers]?

def step (decode : List UInt8 → List Char) (w : Worker) : WorkerEvent → Worker
  | .call c =>
    { w with
      session := (w.session.call RTSPClient.quiet c).1
      called := w.called || decide (c = .shutdown) }
  | .turn => w.turn
  | .response msg =>
    { w with
      session := w.session.read decode RTSPClient.quiet (some msg.1)
      place := .test
      answers := w.answers + 1
      acknowledged :=
        if RTSPClient.rtspOk <+: decode msg.1 then w.acknowledged ++ w.waiting.toList
        else w.acknowledged }

/-- A response is read in `select` from a connected channel, to a request that has none. -/
def Allowed (w : Worker) : WorkerEvent → Prop
  | .response _ =>
    w.place = .select ∧ (w.session.client.connected && !w.session.cancelled) = true ∧
      w.answers < w.session.client.written.length
  | _ => True

instance (w : Worker) (e : WorkerEvent) : Decidable (w.Allowed e) :=
  match e with
  | .response _ => inferInstanceAs (Decidable (_ = _ ∧ (_ && _) = true ∧ _ < _))
  | .call _ => isTrue trivial
  | .turn => isTrue trivial

/-- The event is a `200 OK` for a request that went out in the status. -/
def Acknowledges (decode : List UInt8 → List Char) (w : Worker) (status : RtspStatus) :
    WorkerEvent → Prop
  | .response msg => RTSPClient.rtspOk <+: decode msg.1 ∧ ∃ r ∈ w.waiting, r.status = status
  | _ => False

instance (decode : List UInt8 → List Char) (w : Worker) (status : RtspStatus) (e : WorkerEvent) :
    Decidable (w.Acknowledges decode status e) :=
  match e with
  | .response _ => inferInstanceAs (Decidable (_ ∧ ∃ r ∈ w.waiting, _))
  | .call _ => isFalse not_false
  | .turn => isFalse not_false

/-- A request of the status has been acknowledged. -/
def Acknowledged (w : Worker) (status : RtspStatus) : Prop :=
  ∃ r ∈ w.acknowledged, r.status = status

instance (w : Worker) (status : RtspStatus) : Decidable (w.Acknowledged status) :=
  inferInstanceAs (Decidable (∃ r ∈ _, _))

/-- A client that runs on with its session and can be torn down. -/
structure LeftRunning (c c' : RTSPClient) : Prop where
  running : c'.shutdown = false
  session : c'.sessionid = c.sessionid
  teardown : c'.Allows .doTeardown

/-- The flag is up exactly if a TEARDOWN has been acknowledged or `shutdown()` called. -/
def FlagRight (w : Worker) : Prop :=
  w.session.client.shutdown = true ↔ w.Acknowledged .teardown ∨ w.called = true

instance (w : Worker) : Decidable w.FlagRight := inferInstanceAs (Decidable (_ ↔ _ ∨ _))

/-- The worker ends when it should: the flag is right throughout the run, and an acknowledged
PAUSE leaves the client running. -/
structure EndsRight (decode : List UInt8 → List Char) (address : List Char)
    (es : List WorkerEvent) : Prop where
  flag : ∀ n, (after (step decode) (start address) (es.take n)).FlagRight
  paused : ∀ p ∈ trace (step decode) (start address) es, p.1.Acknowledges decode .pause p.2 →
    LeftRunning p.1.session.client (step decode p.1 p.2).session.client

/-- The event acknowledges a PAUSE or a TEARDOWN, or it is a call of `shutdown()`. -/
def Stops (decode : List UInt8 → List Char) (w : Worker) (e : WorkerEvent) : Prop :=
  e = .call .shutdown ∨ w.Acknowledges decode .pause e ∨ w.Acknowledges decode .teardown e

instance (decode : List UInt8 → List Char) (w : Worker) (e : WorkerEvent) :
    Decidable (w.Stops decode e) :=
  inferInstanceAs (Decidable (_ ∨ _ ∨ _))

/-- The request on its way went out in the status that the client is in. -/
structure Matched (w : Worker) : Prop where
  answered : w.answers ≤ w.session.client.written.length
  atMost : w.session.client.written.length ≤ w.answers + 1
  flag : w.answers < w.session.client.written.length → w.session.client.isSended = true
  status : ∀ r ∈ w.waiting, r.status = w.session.client.sysStatus

/-- A `200 OK` lowers one flag, and in PAUSE it raises the other. -/
structure Answers (c c' : RTSPClient) : Prop where
  written : c'.written = c.written
  isSended : c'.isSended = false
  sysStatus : c'.sysStatus = c.sysStatus
  shutdown : c'.shutdown = true ↔ c.shutdown = true ∨ c.sysStatus = .pause

/-- What the client does with a response does so. -/
theorem answers_clientAnswered (c : RTSPClient) (k : KeyData) :
    Answers c (RtspSession.clientAnswered c fun c => c.adopt k) := by
  obtain ⟨address, connected, status, isSended, seq, sessionid, trackInfo, shutdown, errorTimes,
    written⟩ := c
  cases status with
  | pause => exact ⟨rfl, rfl, rfl, iff_of_true rfl (Or.inr rfl)⟩
  | init | options | describe | setup | play | teardown | error =>
    exact ⟨rfl, rfl, rfl, (or_iff_left (by simp)).symm⟩

/-- Nothing happens to the requests and the flags. -/
structure Keeps (w w' : Worker) : Prop where
  written : w'.session.client.written = w.session.client.written
  isSended : w'.session.client.isSended = w.session.client.isSended
  sysStatus : w'.session.client.sysStatus = w.session.client.sysStatus
  shutdown : w'.session.client.shutdown = w.session.client.shutdown
  answers : w'.answers = w.answers

variable {decode : List UInt8 → List Char} {w : Worker}

/-- A change of the connection alone does nothing to them. -/
theorem keeps_of_client {w w' : Worker} {connected : Bool}
    (hclient : w'.session.client = { w.session.client with connected := connected })
    (hanswers : w'.answers = w.answers) : Keeps w w' :=
  ⟨by rw [hclient], by rw [hclient], by rw [hclient], by rw [hclient], hanswers⟩

/-- Nor does closing the connection. -/
theorem keeps_shutdown (w : Worker) : Keeps w (w.step decode (.call .shutdown)) :=
  keeps_of_client (w.session.client_shutdown RTSPClient.quiet).1 rfl

/-- With the flag up the test ends the loop; any other move only changes the place. -/
theorem turn_cases (w : Worker) :
    (w.place = .test ∧ w.session.client.shutdown = true ∧
      w.turn = { w with
        session := w.session.shutdown RTSPClient.quiet
        place := .ended
        called := true }) ∨
    (w.place = .test → w.session.client.shutdown = false) ∧
      ∃ session place, session.client = w.session.client ∧
        w.turn = { w with session := session, place := place } := by
  cases hplace : w.place with
  | test =>
    cases hflag : w.session.client.shutdown with
    | true => exact Or.inl ⟨rfl, rfl, by simp only [turn, hplace, hflag, ite_true]⟩
    | false =>
      refine Or.inr ⟨fun _ => rfl, ?_⟩
      simp only [turn, hplace, hflag, Bool.false_eq_true, ite_false]
      split
      · exact ⟨(w.session.notify RTSPClient.quiet).1, .select, rfl, rfl⟩
      · exact ⟨w.session, .select, rfl, rfl⟩
  | select =>
    have hturn : w.turn = { w with place := .test } := by simp only [turn, hplace]
    exact Or.inr ⟨(fun h => by cases h), w.session, .test, rfl, hturn⟩
  | ended =>
    have hturn : w.turn = w := by simp only [turn, hplace]
    exact Or.inr ⟨(fun h => by cases h), w.session, w.place, rfl, hturn⟩

/-- Nor does a turn of the worker. -/
theorem keeps_turn (w : Worker) : Keeps w w.turn := by
  rcases w.turn_cases with ⟨-, -, hturn⟩ | ⟨-, session, place, hclient, hturn⟩
  · rw [hturn]
    exact keeps_of_client (w.session.client_shutdown RTSPClient.quiet).1 rfl
  · rw [hturn]
    exact keeps_of_client hclient rfl

/-- A response changes the client if it is a `200 OK`. -/
theorem client_response {msg : Chunk} (hallowed : w.Allowed (.response msg)) :
    (w.step decode (.response msg)).session.client =
      if RTSPClient.rtspOk <+: decode msg.1 then
        RtspSession.clientAnswered w.session.client fun c => c.adopt (keyData (decode msg.1))
      else w.session.client := by
  change (w.session.read decode RTSPClient.quiet (some msg.1)).client = _
  rw [RtspSession.read_chunk]
  split
  · rw [RtspSession.respond, if_pos hallowed.2.1]
    exact (RTSPClient.answered_quiet _).1
  · rfl

/-- When no request waits for a response, nothing is left to say. -/
theorem matched_of_none (hnone : w.session.client.written.length = w.answers) : w.Matched where
  answered := Nat.le_of_eq hnone.symm
  atMost := Nat.le_succ_of_le (Nat.le_of_eq hnone)
  flag := fun hlt => absurd hlt (by omega)
  status := by
    intro r hr
    rw [waiting, List.getElem?_eq_none (Nat.le_of_eq hnone)] at hr
    cases hr

/-- What keeps the client keeps the match. -/
theorem Matched.congr {w' : Worker} (h : w.Matched) (hkeeps : Keeps w w') : w'.Matched := by
  obtain ⟨hwritten, hflag, hstatus, -, hanswers⟩ := hkeeps
  refine ⟨?_, ?_, ?_, ?_⟩
  · rw [hwritten, hanswers]
    exact h.answered
  · rw [hwritten, hanswers]
    exact h.atMost
  · rw [hwritten, hanswers, hflag]
    exact h.flag
  · rw [waiting, hwritten, hanswers, hstatus]
    exact h.status

/-- A free channel has no request without response. -/
theorem Matched.length_of_free (h : w.Matched) (hfree : w.session.client.isSended = false) :
    w.session.client.written.length = w.answers := by
  by_contra hne
  have hflag := h.flag (Nat.lt_of_le_of_ne h.answered (Ne.symm hne))
  rw [hfree] at hflag
  cases hflag

/-- Sending a request keeps the match. -/
theorem Matched.method (h : w.Matched) (m : RTSPClient.Method) :
    (w.step decode (.call (.method m))).Matched := by
  have hclient : (w.step decode (.call (.method m))).session.client =
      (w.session.client.run m).1 := rfl
  have hanswers : (w.step decode (.call (.method m))).answers = w.answers := rfl
  rcases w.session.client.run_cases m with ⟨-, hrun⟩ | ⟨hallows, -, seq, -, hrun⟩ |
    ⟨hallows, r, hr, -, hrun⟩
  · rw [hrun] at hclient
    exact h.congr (keeps_of_client hclient hanswers)
  · refine matched_of_none ?_
    rw [hclient, hrun, hanswers]
    exact h.length_of_free hallows.free
  · have hlength := h.length_of_free hallows.free
    have hwritten : (w.step decode (.call (.method m))).session.client.written =
        w.session.client.written ++ [r] := by rw [hclient, hrun]
    refine ⟨?_, ?_, fun _ => by rw [hclient, hrun], fun r' hr' => ?_⟩
    · rw [hwritten, hanswers, List.length_append]
      omega
    · rw [hwritten, hanswers, List.length_append, List.length_singleton]
      omega
    · rw [waiting, hwritten, hanswers, List.getElem?_append_right (by omega), hlength,
        Nat.sub_self] at hr'
      cases hr'
      rw [hclient, hrun]
      exact RTSPClient.status_requestOf hr

/-- Every allowed event does. -/
theorem Matched.step (h : w.Matched) {e : WorkerEvent} (hallowed : w.Allowed e) :
    (w.step decode e).Matched := by
  cases e with
  | call c =>
    cases c with
    | method m => exact h.method m
    | shutdown => exact h.congr (keeps_shutdown w)
  | turn => exact h.congr (keeps_turn w)
  | response msg =>
    have hwritten : (w.step decode (.response msg)).session.client.written =
        w.session.client.written := by
      rw [client_response hallowed]
      split
      · exact (answers_clientAnswered _ _).written
      · rfl
    refine matched_of_none ?_
    have hmost := h.atMost
    have hsent := hallowed.2.2
    have hanswers : (w.step decode (.response msg)).answers = w.answers + 1 := rfl
    rw [hwritten, hanswers]
    omega

/-- An event acknowledges what it adds to what has been acknowledged. -/
theorem acknowledged_step_iff (w : Worker) (e : WorkerEvent) (status : RtspStatus) :
    (w.step decode e).Acknowledged status ↔
      w.Acknowledged status ∨ w.Acknowledges decode status e := by
  cases e with
  | call c => exact (or_iff_left not_false).symm
  | turn =>
    have hkeep : w.turn.acknowledged = w.acknowledged := by
      rcases w.turn_cases with ⟨-, -, hturn⟩ | ⟨-, session, place, -, hturn⟩
      · rw [hturn]
      · rw [hturn]
    change w.turn.Acknowledged status ↔ _
    rw [Acknowledged, hkeep]
    exact (or_iff_left not_false).symm
  | response msg =>
    by_cases hok : RTSPClient.rtspOk <+: decode msg.1
    · have hacknowledged : (w.step decode (.response msg)).acknowledged =
          w.acknowledged ++ w.waiting.toList := if_pos hok
      rw [Acknowledged, hacknowledged, Acknowledges, and_iff_right hok]
      simp only [List.mem_append, Option.mem_toList, or_and_right, exists_or]
      rfl
    · have hacknowledged : (w.step decode (.response msg)).acknowledged = w.acknowledged :=
        if_neg hok
      rw [Acknowledged, hacknowledged]
      exact (or_iff_left fun h => hok h.1).symm

/-- The `200 OK` of a PAUSE raises the flag, and nothing else changes it. -/
theorem shutdown_step_iff (h : w.Matched) {e : WorkerEvent} (hallowed : w.Allowed e) :
    (w.step decode e).session.client.shutdown = true ↔
      w.session.client.shutdown = true ∨ w.Acknowledges decode .pause e := by
  cases e with
  | call c =>
    refine Iff.trans ?_ (or_iff_left not_false).symm
    cases c with
    | method m =>
      change (w.session.client.run m).1.shutdown = true ↔ _
      rcases w.session.client.run_cases m with ⟨-, hrun⟩ | ⟨-, -, seq, -, hrun⟩ |
        ⟨-, r, -, -, hrun⟩ <;> rw [hrun]
    | shutdown => rw [(keeps_shutdown w).shutdown]
  | turn =>
    refine Iff.trans ?_ (or_iff_left not_false).symm
    change w.turn.session.client.shutdown = true ↔ _
    rw [(keeps_turn w).shutdown]
  | response msg =>
    obtain ⟨r, hr⟩ : ∃ r, w.waiting = some r :=
      ⟨_, List.getElem?_eq_getElem hallowed.2.2⟩
    have hstatus := h.status r hr
    rw [client_response hallowed, Acknowledges, hr]
    by_cases hok : RTSPClient.rtspOk <+: decode msg.1
    · rw [if_pos hok, and_iff_right hok, (answers_clientAnswered _ _).shutdown, ← hstatus]
      simp only [Option.mem_some_iff, exists_eq_left']
    · rw [if_neg hok]
      exact (or_iff_left fun h => hok h.1).symm

/-- As long as the flag is down `shutdown()` is called from elsewhere alone. -/
theorem called_step_iff (hdown : w.session.client.shutdown = false) (e : WorkerEvent) :
    (w.step decode e).called = true ↔ w.called = true ∨ e = .call .shutdown := by
  cases e with
  | call c =>
    change (w.called || decide (c = .shutdown)) = true ↔ _
    rw [Bool.or_eq_true, decide_eq_true_eq, WorkerEvent.call.injEq]
  | turn =>
    have hkeep : w.turn.called = w.called := by
      rcases w.turn_cases with ⟨-, hflag, -⟩ | ⟨-, session, place, -, hturn⟩
      · rw [hdown] at hflag
        cases hflag
      · rw [hturn]
    change w.turn.called = true ↔ _
    rw [hkeep]
    exact (or_iff_left (by simp)).symm
  | response msg => exact (or_iff_left (by simp)).symm

/-- In every run the flag is up exactly if a PAUSE has been acknowledged. -/
theorem shutdown_run_iff (decode : List UInt8 → List Char) (address : List Char)
    (es : List WorkerEvent)
    (hallowed : ∀ p ∈ trace (step decode) (start address) es, p.1.Allowed p.2) :
    (after (step decode) (start address) es).session.client.shutdown = true ↔
      (after (step decode) (start address) es).Acknowledged .pause := by
  have hstart : (start address).Matched := matched_of_none rfl
  have hdown : (start address).session.client.shutdown = true ↔
      (start address).Acknowledged .pause :=
    iff_of_false (fun h => by cases h) fun ⟨_, hr, _⟩ => List.not_mem_nil hr
  refine (after_invariant (I := fun w : Worker => w.Matched ∧
    (w.session.client.shutdown = true ↔ w.Acknowledged .pause)) ⟨hstart, hdown⟩ ?_).2
  rintro p hp ⟨hmatched, hflag⟩
  refine ⟨hmatched.step (hallowed p hp), ?_⟩
  rw [shutdown_step_iff hmatched (hallowed p hp), acknowledged_step_iff, hflag]

/-- Behind the `200 OK` of a PAUSE the worker ends, and nothing can be torn down any more. -/
theorem ended_of_pause (h : w.Matched) {e : WorkerEvent} (hallowed : w.Allowed e)
    (hpause : w.Acknowledges decode .pause e) :
    (w.step decode e).turn.place = .ended ∧
      ¬ (w.step decode e).turn.session.client.Allows .doTeardown := by
  have hflag := (shutdown_step_iff h hallowed).mpr (Or.inr hpause)
  have hplace : (w.step decode e).place = .test := by
    cases e with
    | call c => exact hpause.elim
    | turn => exact hpause.elim
    | response msg => rfl
  rcases (w.step decode e).turn_cases with ⟨-, -, hturn⟩ | ⟨hdown, -⟩
  · rw [hturn]
    refine ⟨rfl, fun hallows => ?_⟩
    have hclosed := hallows.connected
    rw [((w.step decode e).session.client_shutdown RTSPClient.quiet).1] at hclosed
    cases hclosed
  · rw [hdown hplace] at hflag
    cases hflag

/-- Nothing has happened that should raise the flag, and it is down. -/
structure Unstopped (w : Worker) : Prop where
  matched : w.Matched
  down : w.session.client.shutdown = false
  untorn : ¬ w.Acknowledged .teardown
  uncalled : w.called = false

/-- What a step from there makes of the flag. -/
theorem Unstopped.flagRight_step_iff (h : w.Unstopped) {e : WorkerEvent}
    (hallowed : w.Allowed e) :
    (w.step decode e).FlagRight ↔
      (w.Acknowledges decode .pause e ↔
        w.Acknowledges decode .teardown e ∨ e = .call .shutdown) := by
  rw [FlagRight, shutdown_step_iff h.matched hallowed, acknowledged_step_iff,
    called_step_iff h.down, h.down, h.uncalled]
  simp only [h.untorn, Bool.false_eq_true, false_or]

/-- An event that does not stop the worker leaves it running. -/
theorem Unstopped.step (h : w.Unstopped) {e : WorkerEvent} (hallowed : w.Allowed e)
    (hstops : ¬ w.Stops decode e) : (w.step decode e).Unstopped := by
  obtain ⟨hshutdown, hpause, hteardown⟩ : e ≠ .call .shutdown ∧
      ¬ w.Acknowledges decode .pause e ∧ ¬ w.Acknowledges decode .teardown e := by
    simpa only [Stops, not_or] using hstops
  refine ⟨h.matched.step hallowed, ?_, ?_, ?_⟩
  · rw [← Bool.not_eq_true, shutdown_step_iff h.matched hallowed, h.down]
    simpa using hpause
  · rw [acknowledged_step_iff]
    exact not_or.mpr ⟨h.untorn, hteardown⟩
  · rw [← Bool.not_eq_true, called_step_iff h.down, h.uncalled]
    simpa using hshutdown

/-- The flag is right behind the event, and a PAUSE leaves the client running, exactly if the
event does not stop the worker. -/
theorem Unstopped.right_step_iff (h : w.Unstopped) {e : WorkerEvent} (hallowed : w.Allowed e) :
    ((w.step decode e).FlagRight ∧ (w.Acknowledges decode .pause e →
      LeftRunning w.session.client (w.step decode e).session.client)) ↔ ¬ w.Stops decode e := by
  rw [h.flagRight_step_iff hallowed, Stops]
  constructor
  · rintro ⟨hflag, hpaused⟩ hstops
    have hpause : w.Acknowledges decode .pause e := by
      rcases hstops with hshutdown | hpause | hteardown
      · exact hflag.mpr (Or.inr hshutdown)
      · exact hpause
      · exact hflag.mpr (Or.inl hteardown)
    have hdown := (hpaused hpause).running
    have hup := (shutdown_step_iff h.matched hallowed).mpr (Or.inr hpause)
    rw [hdown] at hup
    cases hup
  · intro hstops
    obtain ⟨hshutdown, hpause, hteardown⟩ : e ≠ .call .shutdown ∧
        ¬ w.Acknowledges decode .pause e ∧ ¬ w.Acknowledges decode .teardown e := by
      simpa only [not_or] using hstops
    exact ⟨iff_of_false hpause (not_or.mpr ⟨hteardown, hshutdown⟩), fun h => absurd h hpause⟩

/-- In a run of requests and complete responses the worker ends when it should exactly if no
PAUSE and no TEARDOWN is acknowledged and `shutdown()` is not called. -/
theorem endsRight_iff (decode : List UInt8 → List Char) (address : List Char)
    (es : List WorkerEvent)
    (hallowed : ∀ p ∈ trace (step decode) (start address) es, p.1.Allowed p.2) :
    EndsRight decode address es ↔
      ∀ p ∈ trace (step decode) (start address) es, ¬ p.1.Stops decode p.2 := by
  have hstart : (start address).Unstopped :=
    ⟨matched_of_none rfl, rfl, fun ⟨_, hr, _⟩ => List.not_mem_nil hr, rfl⟩
  have hright : (start address).FlagRight :=
    iff_of_false (fun h => by cases h) (not_or.mpr ⟨hstart.untorn, fun h => by cases h⟩)
  rw [← forall_trace_congr (J := Unstopped) (A := Allowed)
    (G := fun w e => ¬ w.Stops decode e) hstart hallowed (fun w e h he => h.step he)
    fun w e h he => h.right_step_iff he]
  constructor
  · rintro ⟨hflag, hpaused⟩ p hp
    exact ⟨(forall_take_iff_trace.mp hflag).2 p hp, hpaused p hp⟩
  · intro hsteps
    exact ⟨forall_take_iff_trace.mpr ⟨hright, fun p hp => (hsteps p hp).1⟩,
      fun p hp => (hsteps p hp).2⟩

def sessionResponse : List UInt8 :=
  "RTSP/1.0 200 OK\r\nSession: 7\r\n\r\n".toList.map fun c => UInt8.ofNat c.toNat

theorem sessionResponse_chunk :
    sessionResponse ≠ [] ∧ sessionResponse.length ≤ RTSPClient.bufferSize := by decide

/-- A method, and its response in the next pass. -/
def answeredMethod (m : RTSPClient.Method) (msg : Chunk) : List WorkerEvent :=
  [.call (.method m), .turn, .response msg]

/-- A stream is set up and played. -/
def toPlay : List WorkerEvent :=
  answeredMethod .doDescribe ⟨okResponse, okResponse_chunk⟩ ++
    answeredMethod (.doSetup 5000) ⟨sessionResponse, sessionResponse_chunk⟩ ++
    answeredMethod .doPlay ⟨okResponse, okResponse_chunk⟩

/-- The equivalence on a run up to PLAY. -/
theorem endsRight_iff_toPlay : EndsRight ascii "rtsp://a/b".toList toPlay :=
  (endsRight_iff ascii "rtsp://a/b".toList toPlay (by decide +kernel)).mpr (by decide +kernel)

/-- And then it is paused. -/
def toPause : List WorkerEvent :=
  toPlay ++ answeredMethod .doPause ⟨okResponse, okResponse_chunk⟩

/-- The `200 OK` of the PAUSE raises the flag, with no TEARDOWN and no call of `shutdown()`. -/
theorem not_endsRight_toPause :
    (∀ p ∈ trace (step ascii) (start "rtsp://a/b".toList) toPause, p.1.Allowed p.2) ∧
      ¬ EndsRight ascii "rtsp://a/b".toList toPause := by
  have hwrong : ¬ (after (step ascii) (start "rtsp://a/b".toList)
      (toPause.take 12)).FlagRight := by decide +kernel
  exact ⟨by decide +kernel, fun h => hwrong (h.flag 12)⟩

end Worker

/-- A client that is not paused, and whose worker goes on. -/
structure RTSPClient.Unpaused (c : RTSPClient) : Prop where
  status : c.sysStatus ≠ .pause
  down : c.shutdown = false

variable {σ : Type}

/-- A client that is not asked to pause is not. -/
theorem RTSPClient.Unpaused.run {c : RTSPClient} (h : c.Unpaused) {m : Method}
    (hm : m ≠ .doPause) : (c.run m).1.Unpaused := by
  have hstatus : m.status ≠ .pause := by
    cases m with
    | doPause => exact absurd rfl hm
    | doOption | doDescribe | doSetup | doPlay | doTeardown => exact fun h => by cases h
  rcases c.run_cases m with ⟨-, hrun⟩ | ⟨-, -, seq, -, hrun⟩ | ⟨-, r, -, -, hrun⟩
  · rw [hrun]
    exact h
  · rw [hrun]
    exact ⟨hstatus, h.down⟩
  · rw [hrun]
    exact ⟨hstatus, h.down⟩

namespace RtspSession

variable {l : Listener σ} {s : RtspSession σ}

/-- Nor is one whose listener does not ask. -/
theorem unpaused_calls {cs : List RtspCall} (hcs : .method .doPause ∉ cs)
    (h : s.client.Unpaused) : (s.calls l cs).1.client.Unpaused := by
  refine calls_invariant (P := fun s => s.client.Unpaused) ?_ h
  intro c hc s hs
  cases c with
  | method m => exact hs.run fun hm => hcs (hm ▸ hc)
  | shutdown =>
    change (s.shutdown l).client.Unpaused
    rw [(s.client_shutdown l).1]
    exact ⟨hs.status, hs.down⟩

/-- A listener that never pauses keeps the client unpaused, whatever is read. -/
theorem unpaused_read (decode : List UInt8 → List Char)
    (hl : ∀ state event, .method .doPause ∉ (l state event).2) (h : s.client.Unpaused)
    (data : Option (List UInt8)) : (s.read decode l data).client.Unpaused := by
  have hreceived : (s.client.recieve data).1.Unpaused := by
    obtain ⟨n, hn⟩ := s.client.recieve_fst data
    rw [hn]
    exact ⟨h.status, h.down⟩
  have hnotify (s : RtspSession σ) (hs : s.client.Unpaused) : (s.notify l).1.client.Unpaused :=
    unpaused_calls (s := { s with notified := _, listener := _ }) (hl _ _) hs
  rcases s.read_cases decode l data rfl with
    ⟨-, hread⟩ | ⟨-, ⟨-, hread⟩ | ⟨msg, -, ⟨-, hread⟩ | ⟨-, hread⟩⟩⟩
  · rw [hread]
    exact h
  · rw [hread]
    exact hnotify { s with client := _ } hreceived
  · rw [hread]
    exact hreceived
  · have hanswered : (clientAnswered (s.client.recieve data).1
        fun c => c.obtainKeyData (decode msg)).Unpaused := by
      simp only [RTSPClient.obtainKeyData_eq]
      have hanswers := Worker.answers_clientAnswered (s.client.recieve data).1
        (keyData (decode msg))
      refine ⟨hanswers.sysStatus.trans_ne hreceived.status, ?_⟩
      rw [← Bool.not_eq_true, hanswers.shutdown, hreceived.down]
      exact not_or.mpr ⟨Bool.false_ne_true, hreceived.status⟩
    rw [hread]
    rcases answered_eq l { s with client := (s.client.recieve data).1 }
      fun c => c.obtainKeyData (decode msg) with ⟨-, htold⟩ | ⟨-, hsilent⟩
    · rw [htold]
      exact hnotify { s with client := _ } hanswered
    · rw [hsilent]
      exact hanswered

end RtspSession

namespace IpCameraHelper

/-- The helper never pauses. -/
theorem doPause_notMem_listener (localPort : Int) (held : Bool) (event : RtspEvent) :
    .method .doPause ∉ (listener localPort held event).2 := by
  cases event with
  | closed => exact List.not_mem_nil
  | status status => cases status <;> cases held <;> simp [listener]

/-- The listener of a camera never does. -/
theorem unpaused_step (decode : List UInt8 → List Char) (localPort : Int) {s : RtspSession Bool}
    (h : s.client.Unpaused) (e : Event) : (step decode localPort s e).client.Unpaused := by
  have hl := doPause_notMem_listener localPort
  cases e with
  | pass =>
    simp only [step]
    split
    · rw [(s.client_shutdown (listener localPort)).1]
      exact ⟨h.status, h.down⟩
    split
    · exact RtspSession.unpaused_calls (s := { s with notified := _, listener := _ }) (hl _ _) h
    · exact h
  | read data =>
    simp only [step]
    split
    · exact h
    · exact RtspSession.unpaused_read decode hl h data
  | fini =>
    simp only [step, fini]
    split
    · have hcalls : (s.calls (listener localPort)
          [.method .doTeardown, .shutdown]).1.client.Unpaused :=
        RtspSession.unpaused_calls (by decide) h
      split
      · next s' hthrown =>
        rw [hthrown] at hcalls
        exact hcalls
      · next s' hdone =>
        rw [hdone] at hcalls
        exact hcalls
    · exact h

/-- The flag stays down in every run of a camera, so its worker goes round for ever, behind
`fini` too. -/
theorem shutdown_run (decode : List UInt8 → List Char) (localPort : Int) (address : List Char)
    (es : List Event) :
    (after (step decode localPort) (start address) es).client.shutdown = false := by
  have hstart : (start address).client.Unpaused := ⟨(fun h => by cases h), rfl⟩
  have hrun : (after (step decode localPort) (start address) es).client.Unpaused :=
    after_invariant (I := fun s : RtspSession Bool => s.client.Unpaused) hstart
      fun p _ h => unpaused_step decode localPort h p.2
  exact hrun.down

end IpCameraHelper

end Jrtplib4Android
