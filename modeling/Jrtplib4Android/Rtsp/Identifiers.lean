import Jrtplib4Android.Rtsp.IpCamera
import Mathlib.Tactic.IntervalCases

/-!
# The identifiers in requests

SETUP names the track of a DESCRIBE response, and the requests behind it carry the session of a
SETUP response. Each method asks for less than that, so a camera sends other identifiers as
well: exactly in the steps that are told here.
-/

namespace Jrtplib4Android

open CSem

/-- The request carries an identifier that has been taken from a response to the request that
asks for it. -/
def Request.Carries (tracks sessions : List (List Char)) : Request → Prop
  | options _ _ | describe _ _ => True
  | setup _ trackInfo _ _ => ∃ track ∈ trackInfo, track ∈ tracks ∧ track ≠ []
  | play _ sessionid _ | pause _ sessionid _ | teardown _ sessionid _ =>
    ∃ id ∈ sessionid, id ∈ sessions ∧ id ≠ []

/-- More identifiers that have been taken allow what fewer do. -/
theorem Request.Carries.mono {tracks tracks' sessions sessions' : List (List Char)} {r : Request}
    (h : r.Carries tracks sessions) (ht : tracks ⊆ tracks') (hs : sessions ⊆ sessions') :
    r.Carries tracks' sessions' := by
  cases r with
  | options | describe => trivial
  | setup =>
    obtain ⟨track, htrack, hmem, hne⟩ := h
    exact ⟨track, htrack, ht hmem, hne⟩
  | play | pause | teardown =>
    obtain ⟨id, hid, hmem, hne⟩ := h
    exact ⟨id, hid, hs hmem, hne⟩

/-- A method called in a client whose requests carry their identifiers keeps that up exactly if
the request that it sends does. -/
theorem RTSPClient.carries_run_iff {c : RTSPClient} {tracks sessions : List (List Char)}
    (h : ∀ r ∈ c.written, r.Carries tracks sessions) (m : Method) :
    (∀ r ∈ (c.run m).1.written, r.Carries tracks sessions) ↔
      (c.Allows m → ∀ r ∈ c.requestOf m, r.size ≤ bufferSize → r.Carries tracks sessions) := by
  rcases c.run_cases m with ⟨hno, hrun⟩ | ⟨-, hover, seq, -, hrun⟩ | ⟨hallows, r, hr, hsize, hrun⟩
  · rw [hrun]
    exact iff_of_true h fun hallows => absurd hallows hno
  · rw [hrun]
    exact iff_of_true h fun _ r hr hsize => absurd (hover r hr) (Nat.not_lt_of_le hsize)
  · rw [hrun]
    simp only [List.forall_mem_append, List.forall_mem_singleton]
    constructor
    · rintro ⟨-, hcarries⟩ - r' hr' -
      rw [Option.mem_def] at hr hr'
      rw [hr, Option.some_inj] at hr'
      exact hr' ▸ hcarries
    · intro hcarries
      exact ⟨h, hcarries hallows r hr hsize⟩

namespace IpCameraHelper

/-- A read reaches the channel. -/
def Reads (s : RtspSession Bool) : Prop :=
  s.client.shutdown = false ∧ s.client.connected = true ∧ s.cancelled = false

instance (s : RtspSession Bool) : Decidable (Reads s) := inferInstanceAs (Decidable (_ ∧ _ ∧ _))

/-- The `200 OK` that an event reads. -/
def response (decode : List UInt8 → List Char) (s : RtspSession Bool) : Event → Option (List Char)
  | .read data =>
    if Reads s then ((s.client.recieve data).2.map decode).filter (RTSPClient.rtspOk <+: ·)
    else none
  | _ => none

/-- The event is a read that fails. -/
def Fails (s : RtspSession Bool) : Event → Prop
  | .read data => Reads s ∧ (s.client.recieve data).2 = none
  | _ => False

/-- A camera's client, and what it has taken: the tracks from responses to DESCRIBE, and the
sessions from responses to SETUP. An identifier is whatever `keyData` finds in the response,
on the line that it takes for it. -/
structure Taken where
  session : RtspSession Bool
  tracks : List (List Char)
  sessions : List (List Char)

namespace Taken

def step (decode : List UInt8 → List Char) (localPort : Int) (x : Taken) (e : Event) : Taken where
  session := IpCameraHelper.step decode localPort x.session e
  tracks :=
    match x.session.client.sysStatus with
    | .describe => x.tracks ++
        ((response decode x.session e).bind fun tmp => (keyData tmp).trackInfo).toList
    | _ => x.tracks
  sessions :=
    match x.session.client.sysStatus with
    | .setup => x.sessions ++
        ((response decode x.session e).bind fun tmp => (keyData tmp).sessionid).toList
    | _ => x.sessions

def start (address : List Char) : Taken := ⟨IpCameraHelper.start address, [], []⟩

/-- Every request written carries its identifier. -/
def Negotiated (x : Taken) : Prop :=
  ∀ r ∈ x.session.client.written, r.Carries x.tracks x.sessions

/-- The event leads to no request without its identifier: no read fails behind a response to
DESCRIBE, a response to SETUP has a session unless nothing has been taken for one before, and
`fini` finds no free client in front of PLAY. A text that is too long is not sent. -/
structure Good (decode : List UInt8 → List Char) (localPort : Int) (x : Taken) (e : Event) :
    Prop where
  failed : Fails x.session e → x.session.client.sysStatus = .describe →
    x.session.client.isSended = false →
    ∀ r ∈ x.session.client.requestOf (.doSetup localPort), RTSPClient.bufferSize < r.size
  answered : ∀ tmp ∈ response decode x.session e, x.session.client.sysStatus = .setup →
    (keyData tmp).sessionid = none → x.session.client.sessionid.getD [] ≠ [] →
    ∀ r ∈ x.session.client.requestOf .doPlay, RTSPClient.bufferSize < r.size
  finished : e = .fini → x.session.listener = true → x.session.client.Allows .doTeardown →
    x.session.client.sysStatus ≠ .play →
    ∀ r ∈ x.session.client.requestOf .doTeardown, RTSPClient.bufferSize < r.size

end Taken

/-- There has been no SETUP yet. -/
def BeforeSetup : RtspStatus → Prop
  | .init | .options | .describe => True
  | .setup | .play | .pause | .teardown | .error => False

/-- The number of the next request is at most this one. -/
def number : RtspStatus → Int
  | .init => 1
  | .options => 2
  | .describe => 3
  | .setup => 4
  | .play => 5
  | .pause | .teardown | .error => 6

theorem number_le (status : RtspStatus) : number status ≤ 6 := by
  cases status <;> decide

/-- What holds of a client whose methods the camera calls one after the other: the track comes
with DESCRIBE and leads to SETUP, and a session that comes with SETUP leads to PLAY. -/
structure Settled (sessions : List (List Char)) (c : RTSPClient) (cancelled : Bool) : Prop where
  status : c.sysStatus ≠ .error ∧ c.sysStatus ≠ .pause
  numbered : 1 ≤ c.seq ∧ c.seq ≤ number c.sysStatus
  track : BeforeSetup c.sysStatus → c.trackInfo = none
  session : BeforeSetup c.sysStatus ∨ c.sysStatus = .setup → ∀ id ∈ sessions, id = []
  waiting : c.sysStatus = .setup → c.isSended = false → cancelled = false →
    c.sessionid.getD [] = []
  playing : c.sysStatus = .play →
    (∃ address seq, Request.play address c.sessionid seq ∈ c.written) ∨
      ∀ r ∈ c.requestOf .doTeardown, RTSPClient.bufferSize < r.size

/-- The size of a request is that of its text. -/
theorem size_eq_sum (r : Request) : r.size = (r.text.map Char.utf8Size).sum := by
  rw [List.sum_eq_foldl, List.foldl_map]
  rfl

/-- Where a PLAY request is too long, the TEARDOWN request behind it is as well. -/
theorem size_play_lt_size_teardown (address : List Char) (sessionid : Option (List Char))
    {seq seq' : Int} (h : 1 ≤ seq ∧ seq ≤ 9) (h' : 1 ≤ seq' ∧ seq' ≤ 9) :
    (Request.play address sessionid seq).size < (Request.teardown address sessionid seq').size := by
  have hdigit : ∀ {n : Int}, 1 ≤ n ∧ n ≤ 9 →
      ((Request.cseq n).map Char.utf8Size).sum = 9 := by
    rintro n ⟨hlo, hhi⟩
    interval_cases n <;> decide
  have hplay : (Request.play address sessionid seq).text =
      "PLAY ".toList ++ address ++ Request.version ++ Request.session sessionid ++
        Request.cseq seq ++ Request.userAgent := rfl
  have hteardown : (Request.teardown address sessionid seq').text =
      "TEARDOWN ".toList ++ address ++ "/".toList ++ Request.version ++ Request.cseq seq' ++
        "User-Agent: Wtoe Android /1.0.0 \r\n".toList ++ Request.session sessionid := rfl
  have hmethod : ("PLAY ".toList.map Char.utf8Size).sum <
      ("TEARDOWN ".toList.map Char.utf8Size).sum := by decide
  have hagent : (Request.userAgent.map Char.utf8Size).sum <
      ("User-Agent: Wtoe Android /1.0.0 \r\n".toList.map Char.utf8Size).sum := by decide
  rw [size_eq_sum, size_eq_sum, hplay, hteardown]
  simp only [List.map_append, List.sum_append, hdigit h, hdigit h']
  omega

variable {sessions : List (List Char)} {c : RTSPClient} {cancelled : Bool}

/-- A method that is allowed, where it leaves what comes with its status. -/
theorem settled_run {m : RTSPClient.Method} (hallows : c.Allows m) (hm : m ≠ .doPause)
    (hseq : 1 ≤ c.seq ∧ c.seq ≤ number c.sysStatus)
    (hnumber : number c.sysStatus < number m.status)
    (htrack : BeforeSetup m.status → c.trackInfo = none)
    (hsession : BeforeSetup m.status ∨ m.status = .setup → ∀ id ∈ sessions, id = [])
    (hthrown : m.status = .setup → (c.run m).2 = true → cancelled = true) :
    Settled sessions (c.run m).1 cancelled := by
  have hstatus : m.status ≠ .error ∧ m.status ≠ .pause := by
    cases m with
    | doPause => exact absurd rfl hm
    | doOption | doDescribe | doSetup | doPlay | doTeardown =>
      exact ⟨RtspStatus.noConfusion, RtspStatus.noConfusion⟩
  have hmost := number_le m.status
  have hnext : toInt (c.seq + 1) = c.seq + 1 := toInt_eq (by omega) (by omega)
  rcases c.run_cases m with ⟨hno, -⟩ | ⟨-, hover, seq, hseqs, hrun⟩ | ⟨-, r, hr, -, hrun⟩
  · exact absurd hallows hno
  · have hseq' : 1 ≤ seq ∧ seq ≤ number m.status := by omega
    rw [hrun] at hthrown ⊢
    refine ⟨hstatus, hseq', htrack, hsession, fun hsetup _ hvalid => ?_, fun hplay => Or.inr ?_⟩
    · rw [hthrown hsetup rfl] at hvalid
      cases hvalid
    · cases m with
      | doPlay =>
        have hlonger : (Request.play c.address c.sessionid c.seq).size <
            (Request.teardown c.address c.sessionid seq).size :=
          size_play_lt_size_teardown c.address c.sessionid (by omega) (by omega)
        rintro r hr
        cases hr
        exact (hover _ rfl).trans hlonger
      | doOption | doDescribe | doSetup | doPause | doTeardown => cases hplay
  · have hseq' : 1 ≤ toInt (c.seq + 1) ∧ toInt (c.seq + 1) ≤ number m.status := by omega
    rw [hrun]
    refine ⟨hstatus, hseq', htrack, hsession, fun _ hfree => ?_, fun hplay => Or.inl ?_⟩
    · cases hfree
    · cases m with
      | doPlay =>
        cases hr
        exact ⟨c.address, c.seq, List.mem_append_right _ (List.mem_singleton_self _)⟩
      | doOption | doDescribe | doSetup | doPause | doTeardown => cases hplay

/-- The method that the camera calls when it is told of a status. -/
def nextMethod (localPort : Int) : RtspStatus → Option RTSPClient.Method
  | .init => some .doOption
  | .options => some .doDescribe
  | .describe => some (.doSetup localPort)
  | .setup => some .doPlay
  | .play | .pause | .teardown | .error => none

/-- The camera goes on. -/
theorem number_lt_of_nextMethod {localPort : Int} {status : RtspStatus} {m : RTSPClient.Method}
    (h : nextMethod localPort status = some m) :
    m ≠ .doPause ∧ number status < number m.status := by
  cases status with
  | init | options | setup =>
    cases h
    exact ⟨RTSPClient.Method.noConfusion, by decide⟩
  | describe =>
    cases h
    exact ⟨RTSPClient.Method.noConfusion, (by decide : (3 : Int) < 4)⟩
  | play | pause | teardown | error => cases h

/-- What the call does to the client. -/
def reply (localPort : Int) (c : RTSPClient) : RTSPClient × Bool :=
  match nextMethod localPort c.sysStatus with
  | some m => c.run m
  | none => (c, false)

/-- A camera that is told replies with one method or none. -/
theorem notify_camera (localPort : Int) {s : RtspSession Bool}
    (hstatus : s.client.sysStatus ≠ .error) :
    (s.notify (listener localPort)).1.client = (reply localPort s.client).1 ∧
      (s.notify (listener localPort)).1.cancelled = s.cancelled ∧
      (s.notify (listener localPort)).2 = (reply localPort s.client).2 := by
  obtain ⟨⟨address, connected, status, _⟩, held, notified, cancelled⟩ := s
  cases status with
  | error => exact absurd rfl hstatus
  | play | pause | teardown => exact ⟨rfl, rfl, rfl⟩
  | init | options | describe | setup =>
    unfold RtspSession.notify
    simp only [listener, RtspSession.calls_singleton]
    exact ⟨rfl, rfl, rfl⟩

/-- What a read does to a camera's client: it counts, it fails, or it has a response, of which
the camera is told or not. -/
inductive ReadOutcome (decode : List UInt8 → List Char) (localPort : Int) (s : RtspSession Bool)
    (e : Event) : RTSPClient → Bool → Prop
  | counted (n : Nat) (hfails : ¬ Fails s e) (hresponse : response decode s e = none) :
    ReadOutcome decode localPort s e { s.client with errorTimes := n } s.cancelled
  | failed (n : Nat) (hfails : Fails s e) (hresponse : response decode s e = none)
    (hconn : s.client.connected = true) (hvalid : s.cancelled = false) :
    ReadOutcome decode localPort s e (reply localPort { s.client with errorTimes := n }).1 true
  | told (n : Nat) (tmp : List Char) (c : RTSPClient) (hfails : ¬ Fails s e)
    (hresponse : response decode s e = some tmp) (hconn : s.client.connected = true)
    (hc : c = RtspSession.clientAnswered { s.client with errorTimes := n }
      fun c => c.obtainKeyData tmp)
    (htells : RtspSession.Tells { s.client with errorTimes := n } fun c => c.obtainKeyData tmp) :
    ReadOutcome decode localPort s e (reply localPort c).1 (reply localPort c).2
  | silent (n : Nat) (tmp : List Char) (c : RTSPClient) (hfails : ¬ Fails s e)
    (hresponse : response decode s e = some tmp)
    (hc : c = RtspSession.clientAnswered { s.client with errorTimes := n }
      fun c => c.obtainKeyData tmp)
    (htells : ¬ RtspSession.Tells { s.client with errorTimes := n }
      fun c => c.obtainKeyData tmp) :
    ReadOutcome decode localPort s e c false

/-- An answer leaves the status as it is. -/
theorem sysStatus_clientAnswered (c : RTSPClient) (tmp : List Char) :
    (RtspSession.clientAnswered c fun c => c.obtainKeyData tmp).sysStatus = c.sysStatus := by
  unfold RtspSession.clientAnswered
  simp only [RTSPClient.obtainKeyData_eq]
  split <;> rfl

/-- A read that the session does not make changes nothing. -/
theorem step_read_of_not_reads (decode : List UInt8 → List Char) (localPort : Int)
    {s : RtspSession Bool} (h : ¬ Reads s) (data : Option (List UInt8)) :
    step decode localPort s (.read data) = s := by
  simp only [step]
  split
  · rfl
  · next hdown =>
    rcases s.read_cases decode (listener localPort) data rfl with ⟨-, hread⟩ | ⟨hvalid, -⟩
    · exact hread
    · obtain ⟨hconn, hkey⟩ := Bool.and_eq_true_iff.mp hvalid
      rw [Bool.not_eq_true'] at hkey
      rw [Bool.not_eq_true] at hdown
      exact absurd ⟨hdown, hconn, hkey⟩ h

theorem readOutcome_answered (decode : List UInt8 → List Char) (localPort : Int)
    {s : RtspSession Bool} (hstatus : s.client.sysStatus ≠ .error) {e : Event} {n : Nat}
    {tmp : List Char} (hfails : ¬ Fails s e) (hresponse : response decode s e = some tmp)
    (hconn : s.client.connected = true) {s' : RtspSession Bool × Bool}
    (hs' : s' = RtspSession.answered (listener localPort)
      { s with client := { s.client with errorTimes := n } } fun c => c.obtainKeyData tmp) :
    ReadOutcome decode localPort s e s'.1.client s'.2 := by
  subst hs'
  rcases RtspSession.answered_eq (listener localPort)
    { s with client := { s.client with errorTimes := n } }
    (fun c => c.obtainKeyData tmp) with ⟨htells, htold⟩ | ⟨htells, hsilent⟩
  · obtain ⟨c, hc⟩ : ∃ c, c = RtspSession.clientAnswered { s.client with errorTimes := n }
      (fun c => c.obtainKeyData tmp) := ⟨_, rfl⟩
    have hanswered : c.sysStatus ≠ .error := by
      rw [hc, sysStatus_clientAnswered]
      exact hstatus
    have hnotify := notify_camera localPort (s := { s with client := c }) hanswered
    rw [htold]
    subst hc
    rw [hnotify.1, hnotify.2.2]
    exact .told n tmp _ hfails hresponse hconn rfl htells
  · rw [hsilent]
    exact .silent n tmp _ hfails hresponse rfl htells

/-- A read has one of the outcomes. -/
theorem readOutcome_step (decode : List UInt8 → List Char) (localPort : Int)
    {s : RtspSession Bool} (hstatus : s.client.sysStatus ≠ .error) (data : Option (List UInt8)) :
    ReadOutcome decode localPort s (.read data) (step decode localPort s (.read data)).client
      (step decode localPort s (.read data)).cancelled := by
  by_cases hreads : Reads s
  · have ⟨hdown, hconn, hvalid⟩ := hreads
    have hstep : step decode localPort s (.read data) =
        s.read decode (listener localPort) data := by
      simp only [step, hdown, Bool.false_eq_true, ite_false]
    have hopen : (s.client.connected && !s.cancelled) = true := by rw [hconn, hvalid]; rfl
    have hresponse : ∀ msg, (s.client.recieve data).2 = msg →
        response decode s (.read data) = (msg.map decode).filter (RTSPClient.rtspOk <+: ·) := by
      rintro msg rfl
      rw [response, if_pos hreads]
    have hfails : ∀ msg, (s.client.recieve data).2 = some msg → ¬ Fails s (.read data) := by
      intro msg hmsg h
      rw [h.2] at hmsg
      cases hmsg
    obtain ⟨n, hn⟩ := s.client.recieve_fst data
    rw [hstep]
    rcases s.read_cases decode (listener localPort) data rfl with ⟨hno, -⟩ | ⟨-, hread⟩
    · rw [hopen] at hno
      cases hno
    rw [hn] at hread
    rcases hread with ⟨hnone, hread⟩ | ⟨msg, hmsg, ⟨hbad, hread⟩ | ⟨hok, hread⟩⟩
    · have hnotify := notify_camera localPort
        (s := { s with client := { s.client with errorTimes := n } }) hstatus
      rw [hread]
      change ReadOutcome decode localPort s _ (RtspSession.notify _ _).1.client true
      rw [hnotify.1]
      exact .failed n ⟨hreads, hnone⟩ (hresponse none hnone) hconn hvalid
    · have hother : response decode s (.read data) = none := by
        rw [hresponse _ hmsg, Option.map_some, Option.filter_some, if_neg (by simpa using hbad)]
      have hcounted : ReadOutcome decode localPort s (.read data) _ _ :=
        .counted n (hfails msg hmsg) hother
      rw [hvalid] at hcounted
      rw [hread]
      exact hcounted
    · have hgood : response decode s (.read data) = some (decode msg) := by
        rw [hresponse _ hmsg, Option.map_some, Option.filter_some, if_pos (by simpa using hok)]
      rw [hread]
      exact readOutcome_answered decode localPort hstatus (hfails msg hmsg) hgood hconn rfl
  · rw [step_read_of_not_reads decode localPort hreads]
    exact .counted s.client.errorTimes (fun h => hreads h.1) (if_neg hreads)

/-! ## One step -/

/-- A response to DESCRIBE or SETUP lowers the flag and sets the keys that it has. -/
theorem clientAnswered_keys (h : c.sysStatus = .describe ∨ c.sysStatus = .setup) (n : Nat)
    (tmp : List Char) :
    (RtspSession.clientAnswered { c with errorTimes := n } fun c => c.obtainKeyData tmp) =
      { c with
        isSended := false
        trackInfo := (keyData tmp).trackInfo.or c.trackInfo
        sessionid := (keyData tmp).sessionid.or c.sessionid
        errorTimes := n } := by
  unfold RtspSession.clientAnswered
  simp only [RTSPClient.obtainKeyData_eq]
  rcases h with h | h <;> rw [h] <;> rfl

/-- The camera is told of an answer to DESCRIBE exactly if a track is known behind it. -/
theorem tells_describe_iff (h : c.sysStatus = .describe) (n : Nat) (tmp : List Char) :
    (RtspSession.Tells { c with errorTimes := n } fun c => c.obtainKeyData tmp) ↔
      ((keyData tmp).trackInfo.or c.trackInfo).getD [] ≠ [] := by
  unfold RtspSession.Tells
  rw [clientAnswered_keys (Or.inl h)]
  simp only [h]

/-- It is told of an answer to SETUP exactly if a session is. -/
theorem tells_setup_iff (h : c.sysStatus = .setup) (n : Nat) (tmp : List Char) :
    (RtspSession.Tells { c with errorTimes := n } fun c => c.obtainKeyData tmp) ↔
      ((keyData tmp).sessionid.or c.sessionid).getD [] ≠ [] := by
  unfold RtspSession.Tells
  rw [clientAnswered_keys (Or.inr h)]
  simp only [h]

/-- Any other response has no keys. -/
theorem Settled.answered (h : Settled sessions c cancelled) (hdescribe : c.sysStatus ≠ .describe)
    (hsetup : c.sysStatus ≠ .setup) (obtain' : RTSPClient → RTSPClient) (b : Bool) :
    Settled sessions (RtspSession.clientAnswered c obtain') b ∧
      (RtspSession.clientAnswered c obtain').written = c.written ∧
      (RtspSession.clientAnswered c obtain').sysStatus = c.sysStatus := by
  obtain ⟨hstatus, hseq, htrack, hsession, -, hplaying⟩ := h
  obtain ⟨address, connected, status, _⟩ := c
  cases status with
  | describe => exact absurd rfl hdescribe
  | setup => exact absurd rfl hsetup
  | error => exact absurd rfl hstatus.1
  | pause => exact absurd rfl hstatus.2
  | init =>
    exact ⟨⟨hstatus, hseq, fun _ => rfl, hsession, fun heq => absurd heq hsetup,
      RtspStatus.noConfusion⟩, rfl, rfl⟩
  | options | play | teardown =>
    exact ⟨⟨hstatus, hseq, htrack, hsession, fun heq => absurd heq hsetup, hplaying⟩, rfl, rfl⟩

/-- The listener sends the next request. -/
theorem reply_eq {localPort : Int} {m : RTSPClient.Method}
    (h : nextMethod localPort c.sysStatus = some m) : reply localPort c = c.run m := by
  rw [reply, h]

/-- There is none behind the last one. -/
theorem reply_none {localPort : Int} (h : nextMethod localPort c.sysStatus = none) :
    reply localPort c = (c, false) := by
  rw [reply, h]

/-- In front of the responses that have keys the camera asks for them. -/
theorem settled_opening (localPort : Int) (h : Settled sessions c cancelled)
    (hopening : c.sysStatus = .init ∨ c.sysStatus = .options) (b : Bool) :
    Settled sessions (reply localPort c).1 b ∧ ∀ {tracks sessions' : List (List Char)},
      (∀ r ∈ c.written, r.Carries tracks sessions') →
        ∀ r ∈ (reply localPort c).1.written, r.Carries tracks sessions' := by
  have hbefore : BeforeSetup c.sysStatus := by
    rcases hopening with hstatus | hstatus <;> rw [hstatus] <;> trivial
  have hsession := h.session (Or.inl hbefore)
  have hkept : Settled sessions c b := by
    refine ⟨h.status, h.numbered, h.track, h.session, fun hsetup => ?_, h.playing⟩
    rw [hsetup] at hbefore
    exact hbefore.elim
  obtain ⟨m, hnext, hstatus, hrequest⟩ : ∃ m, nextMethod localPort c.sysStatus = some m ∧
      m.status ≠ .setup ∧ ∀ r ∈ c.requestOf m, ∀ tracks sessions', r.Carries tracks sessions' := by
    rcases hopening with hstatus | hstatus
    · refine ⟨.doOption, by rw [hstatus]; rfl, RtspStatus.noConfusion, fun r hr _ _ => ?_⟩
      obtain ⟨base, -, rfl⟩ := Option.map_eq_some_iff.mp hr
      trivial
    · refine ⟨.doDescribe, by rw [hstatus]; rfl, RtspStatus.noConfusion, fun r hr _ _ => ?_⟩
      cases hr
      trivial
  obtain ⟨hm, hnumber⟩ := number_lt_of_nextMethod hnext
  rw [reply_eq hnext]
  refine ⟨?_, fun hcarries => (c.carries_run_iff hcarries m).mpr fun _ r hr _ => hrequest r hr _ _⟩
  by_cases hallows : c.Allows m
  · exact settled_run hallows hm h.numbered hnumber (fun _ => h.track hbefore)
      (fun _ => hsession) fun hsetup => absurd hsetup hstatus
  · rw [RTSPClient.run_eq_self hallows]
    exact hkept

/-- Whether there is a channel does not matter to the order. -/
theorem Settled.disconnected (h : Settled sessions c cancelled) (b : Bool) :
    Settled sessions { c with connected := b } cancelled :=
  ⟨h.status, h.numbered, h.track, h.session, h.waiting, h.playing⟩

/-- Empty reads do not matter either. -/
theorem Settled.counted (h : Settled sessions c cancelled) (n : Nat) :
    Settled sessions { c with errorTimes := n } cancelled :=
  ⟨h.status, h.numbered, h.track, h.session, h.waiting, h.playing⟩

/-- A client whose key is cancelled reads no more. -/
theorem Settled.cancel (h : Settled sessions c cancelled) : Settled sessions c true :=
  ⟨h.status, h.numbered, h.track, h.session, fun _ _ hvalid => (by cases hvalid), h.playing⟩

/-- A SETUP request without a track. -/
theorem not_carries_setup {localPort : Int} {tracks sessions : List (List Char)}
    (htrack : c.trackInfo = none) :
    ∀ r ∈ c.requestOf (.doSetup localPort), ¬ r.Carries tracks sessions := by
  rintro r hr
  cases hr
  rintro ⟨track, hmem, -⟩
  rw [htrack] at hmem
  cases hmem

/-- `fini` calls `doTeardown`, and closes the channel behind it. -/
theorem client_fini (localPort : Int) {s : RtspSession Bool} (hheld : s.listener = true) :
    (fini localPort s).cancelled = s.cancelled ∧
      ∃ b, (fini localPort s).client = { (s.client.run .doTeardown).1 with connected := b } := by
  unfold fini
  rw [if_pos hheld]
  simp only [RtspSession.calls, RtspSession.call]
  cases (s.client.run .doTeardown).2 with
  | true => exact ⟨rfl, _, rfl⟩
  | false =>
    obtain ⟨hclient, hcancelled⟩ := RtspSession.client_shutdown (listener localPort)
      { s with client := (s.client.run .doTeardown).1 }
    exact ⟨hcancelled, false, hclient⟩

namespace Taken

variable {decode : List UInt8 → List Char} {localPort : Int} {x : Taken} {e : Event}

def Settled (x : Taken) : Prop :=
  IpCameraHelper.Settled x.sessions x.session.client x.session.cancelled

/-- What is to be shown of a step: it keeps the order, and the identifiers exactly if it is
good. -/
structure Exact (decode : List UInt8 → List Char) (localPort : Int) (x : Taken) (e : Event) :
    Prop where
  settled : (x.step decode localPort e).Settled
  negotiated : x.Negotiated → ((x.step decode localPort e).Negotiated ↔ x.Good decode localPort e)

/-- A step whose results are known. -/
theorem exact_of_eq {c : RTSPClient} {b : Bool} {tracks sessions : List (List Char)}
    (hc : (IpCameraHelper.step decode localPort x.session e).client = c)
    (hb : (IpCameraHelper.step decode localPort x.session e).cancelled = b)
    (htracks : (x.step decode localPort e).tracks = tracks)
    (hsessions : (x.step decode localPort e).sessions = sessions)
    (hsettled : IpCameraHelper.Settled sessions c b)
    (hcarries : x.Negotiated →
      ((∀ r ∈ c.written, r.Carries tracks sessions) ↔ x.Good decode localPort e)) :
    Exact decode localPort x e := by
  subst hc hb htracks hsessions
  exact ⟨hsettled, hcarries⟩

/-- Tracks are taken in DESCRIBE alone. -/
theorem tracks_step (h : x.session.client.sysStatus ≠ .describe) :
    (x.step decode localPort e).tracks = x.tracks := by
  simp only [step]

/-- Sessions are taken in SETUP alone. -/
theorem sessions_step (h : x.session.client.sysStatus ≠ .setup) :
    (x.step decode localPort e).sessions = x.sessions := by
  simp only [step]

/-- Without a response nothing is taken. -/
theorem exact_of_none {c : RTSPClient} {b : Bool} (h : response decode x.session e = none)
    (hc : (IpCameraHelper.step decode localPort x.session e).client = c)
    (hb : (IpCameraHelper.step decode localPort x.session e).cancelled = b)
    (hsettled : IpCameraHelper.Settled x.sessions c b)
    (hcarries : x.Negotiated →
      ((∀ r ∈ c.written, r.Carries x.tracks x.sessions) ↔ x.Good decode localPort e)) :
    Exact decode localPort x e := by
  refine exact_of_eq hc hb ?_ ?_ hsettled hcarries
  · simp only [step, h]
    split
    · exact List.append_nil _
    · rfl
  · simp only [step, h]
    split
    · exact List.append_nil _
    · rfl

theorem good_pass : x.Good decode localPort .pass where
  failed hfails := hfails.elim
  answered _ htmp := (Option.not_mem_none _ htmp).elim
  finished he := by cases he

/-- A turn without an event keeps the law. -/
theorem exact_pass (h : x.Settled) : Exact decode localPort x .pass := by
  by_cases hdown : x.session.client.shutdown
  · have hstep : IpCameraHelper.step decode localPort x.session .pass =
        x.session.shutdown (listener localPort) := if_pos hdown
    obtain ⟨hclient, hcancelled⟩ := RtspSession.client_shutdown (listener localPort) x.session
    rw [← hstep] at hclient hcancelled
    exact exact_of_none rfl hclient hcancelled (h.disconnected false)
      fun hcarries => iff_of_true hcarries good_pass
  by_cases hinit : x.session.client.sysStatus = .init
  · have hstep : IpCameraHelper.step decode localPort x.session .pass =
        (x.session.notify (listener localPort)).1 := by
      simp only [IpCameraHelper.step, if_neg hdown, if_pos hinit]
    have hclient := (notify_camera localPort h.status.1).1
    rw [← hstep] at hclient
    have hopening := settled_opening localPort h (Or.inl hinit)
    exact exact_of_none rfl hclient rfl (hopening _).1
      fun hcarries => iff_of_true ((hopening false).2 hcarries) good_pass
  · have hstep : IpCameraHelper.step decode localPort x.session .pass = x.session := by
      simp only [IpCameraHelper.step, if_neg hdown, if_neg hinit]
    refine exact_of_none rfl rfl rfl ?_ fun hcarries => iff_of_true ?_ good_pass
    · rw [hstep]
      exact h
    · rw [hstep]
      exact hcarries

/-- In PLAY the client has the session that its PLAY request carried, and before that none that a
response to SETUP has given. -/
theorem exact_teardown (h : x.Settled) (hcarries : x.Negotiated)
    (hallows : x.session.client.Allows .doTeardown) :
    (∀ r ∈ x.session.client.requestOf .doTeardown, r.size ≤ RTSPClient.bufferSize →
        r.Carries x.tracks x.sessions) ↔
      (x.session.client.sysStatus ≠ .play →
        ∀ r ∈ x.session.client.requestOf .doTeardown, RTSPClient.bufferSize < r.size) := by
  constructor
  · intro hruns hother r hr
    refine Nat.lt_of_not_le fun hsize => ?_
    have hearly : BeforeSetup x.session.client.sysStatus ∨ x.session.client.sysStatus = .setup := by
      cases hstatus : x.session.client.sysStatus with
      | init | options | describe => exact Or.inl trivial
      | setup => exact Or.inr rfl
      | play => exact absurd hstatus hother
      | pause => exact absurd hstatus h.status.2
      | teardown => exact absurd (Or.inr hstatus) hallows.status
      | error => exact absurd hstatus h.status.1
    have hid := hruns r hr hsize
    cases hr
    obtain ⟨id, -, hmem, hne⟩ := hid
    exact hne (h.session hearly id hmem)
  · intro hother r hr hsize
    by_cases hplay : x.session.client.sysStatus = .play
    · rcases h.playing hplay with ⟨address, seq, hwritten⟩ | hover
      · have hid := hcarries _ hwritten
        cases hr
        exact hid
      · exact absurd (hover r hr) (Nat.not_lt_of_le hsize)
    · exact absurd (hother hplay r hr) (Nat.not_lt_of_le hsize)

/-- Closing keeps the law exactly if it is a good step. -/
theorem exact_fini (h : x.Settled) : Exact decode localPort x .fini := by
  have hgood : (x.session.listener = true → x.session.client.Allows .doTeardown →
      x.session.client.sysStatus ≠ .play → ∀ r ∈ x.session.client.requestOf .doTeardown,
        RTSPClient.bufferSize < r.size) ↔ x.Good decode localPort .fini :=
    ⟨fun hfinished => ⟨fun hfails => hfails.elim,
      fun _ htmp => (Option.not_mem_none _ htmp).elim, fun _ => hfinished⟩,
      fun h => h.finished rfl⟩
  by_cases hheld : x.session.listener
  · obtain ⟨hcancelled, b, hclient⟩ := client_fini localPort hheld
    refine exact_of_none rfl hclient hcancelled ?_ fun hcarries => ?_
    · apply IpCameraHelper.Settled.disconnected
      by_cases hallows : x.session.client.Allows .doTeardown
      · have hnumber : number x.session.client.sysStatus <
            number RTSPClient.Method.doTeardown.status := by
          cases hstatus : x.session.client.sysStatus with
          | pause => exact absurd hstatus h.status.2
          | teardown => exact absurd (Or.inr hstatus) hallows.status
          | error => exact absurd hstatus h.status.1
          | init | options | describe | setup | play => decide
        exact settled_run hallows RTSPClient.Method.noConfusion h.numbered hnumber False.elim
          (fun hbefore => hbefore.elim False.elim RtspStatus.noConfusion) RtspStatus.noConfusion
      · rw [RTSPClient.run_eq_self hallows]
        exact h
    · rw [← hgood]
      refine (RTSPClient.carries_run_iff hcarries .doTeardown).trans ⟨fun hruns _ hallows => ?_,
        fun hfinished hallows => ?_⟩
      · exact (exact_teardown h hcarries hallows).mp (hruns hallows)
      · exact (exact_teardown h hcarries hallows).mpr (hfinished hheld hallows)
  · have hstep : IpCameraHelper.step decode localPort x.session .fini = x.session :=
      if_neg hheld
    refine exact_of_none rfl rfl rfl ?_ fun hcarries =>
      iff_of_true ?_ (hgood.mp fun hlistener => absurd hlistener hheld)
    · rw [hstep]
      exact h
    · rw [hstep]
      exact hcarries

/-- A read that does not fail in DESCRIBE and has no response in SETUP. -/
theorem good_read {data : Option (List UInt8)}
    (hfailed : Fails x.session (.read data) → x.session.client.sysStatus ≠ .describe)
    (hanswered : response decode x.session (.read data) ≠ none →
      x.session.client.sysStatus ≠ .setup) : x.Good decode localPort (.read data) where
  failed hfails hdescribe := absurd hdescribe (hfailed hfails)
  answered tmp htmp hsetup := by
    refine absurd hsetup (hanswered ?_)
    rw [htmp]
    exact Option.some_ne_none tmp
  finished he := by cases he

section Failed

variable {data : Option (List UInt8)} {n : Nat}

variable (h : x.Settled) (hfails : Fails x.session (.read data))
  (hresponse : response decode x.session (.read data) = none)
  (hconn : x.session.client.connected = true) (hvalid : x.session.cancelled = false)
  (hclient : (IpCameraHelper.step decode localPort x.session (.read data)).client =
    (reply localPort { x.session.client with errorTimes := n }).1)
  (hcancelled : (IpCameraHelper.step decode localPort x.session (.read data)).cancelled = true)

include h hfails hresponse hconn hclient hcancelled

/-- A read that fails in DESCRIBE leads to a SETUP request without a track. -/
theorem exact_failed_describe (hstatus : x.session.client.sysStatus = .describe) :
    Exact decode localPort x (.read data) := by
  have hbefore : BeforeSetup x.session.client.sysStatus := by
    rw [hstatus]
    trivial
  have hnext : nextMethod localPort x.session.client.sysStatus = some (.doSetup localPort) := by
    rw [hstatus]
    rfl
  obtain ⟨hm, hnumber⟩ := number_lt_of_nextMethod hnext
  rw [reply_eq (c := { x.session.client with errorTimes := n }) hnext] at hclient
  refine exact_of_none hresponse hclient hcancelled ?_ fun hcarries => ?_
  · by_cases hallows :
      ({ x.session.client with errorTimes := n } : RTSPClient).Allows (.doSetup localPort)
    · exact settled_run hallows hm h.numbered hnumber False.elim
        (fun _ => h.session (Or.inl hbefore)) fun _ _ => rfl
    · rw [RTSPClient.run_eq_self hallows]
      exact (IpCameraHelper.Settled.counted h n).cancel
  · have hruns_iff := RTSPClient.carries_run_iff
      (c := { x.session.client with errorTimes := n }) hcarries (.doSetup localPort)
    refine hruns_iff.trans ⟨fun hruns => ?_, fun hgood hallows r hr hsize => ?_⟩
    · refine ⟨fun _ _ hfree r hr => Nat.lt_of_not_le fun hsize => ?_, fun tmp htmp => ?_,
        fun he => by cases he⟩
      · refine not_carries_setup (h.track hbefore) r hr (hruns ?_ r hr hsize)
        exact ⟨hconn, hfree, not_not.mpr hstatus⟩
      · rw [hresponse] at htmp
        cases htmp
    · have hover := hgood.failed hfails hstatus hallows.free r hr
      exact absurd hover (Nat.not_lt_of_le hsize)

include hvalid

/-- In another status a read that fails leads to no request that has an identifier. -/
theorem exact_failed : Exact decode localPort x (.read data) := by
  have hcounted := IpCameraHelper.Settled.counted h n
  have hsilent : response decode x.session (.read data) ≠ none →
      x.session.client.sysStatus ≠ .setup := fun hne => absurd hresponse hne
  have hopening : x.session.client.sysStatus = .init ∨ x.session.client.sysStatus = .options →
      Exact decode localPort x (.read data) := by
    intro hstatus
    have hreply := settled_opening localPort hcounted hstatus true
    refine exact_of_none hresponse hclient hcancelled hreply.1 fun hcarries =>
      iff_of_true (hreply.2 hcarries) (good_read (fun _ hdescribe => ?_) hsilent)
    rw [hdescribe] at hstatus
    rcases hstatus with hstatus | hstatus <;> cases hstatus
  have hquiet : reply localPort { x.session.client with errorTimes := n } =
        ({ x.session.client with errorTimes := n }, false) →
      x.session.client.sysStatus ≠ .describe → Exact decode localPort x (.read data) := by
    intro hreply hstatus
    rw [hreply] at hclient
    exact exact_of_none hresponse hclient hcancelled hcounted.cancel fun hcarries =>
      iff_of_true hcarries (good_read (fun _ => hstatus) hsilent)
  cases hstatus : x.session.client.sysStatus with
  | init => exact hopening (Or.inl hstatus)
  | options => exact hopening (Or.inr hstatus)
  | error => exact absurd hstatus h.status.1
  | describe => exact exact_failed_describe h hfails hresponse hconn hclient hcancelled hstatus
  | play | pause | teardown =>
    refine hquiet (reply_none ?_) ?_
    · rw [hstatus]
      rfl
    · rw [hstatus]
      exact RtspStatus.noConfusion
  | setup =>
    refine hquiet ?_ ?_
    · rw [reply_eq (m := .doPlay) (by rw [hstatus]; rfl)]
      refine RTSPClient.run_eq_self fun hallows => hallows.status (Or.inr ?_)
      exact h.waiting hstatus hallows.free hvalid
    · rw [hstatus]
      exact RtspStatus.noConfusion

end Failed

/-- A response to SETUP is about the PLAY request. -/
theorem good_answered {data : Option (List UInt8)} {tmp : List Char}
    (hfails : ¬ Fails x.session (.read data))
    (hresponse : response decode x.session (.read data) = some tmp)
    (hstatus : x.session.client.sysStatus = .setup) :
    x.Good decode localPort (.read data) ↔ ((keyData tmp).sessionid = none →
      x.session.client.sessionid.getD [] ≠ [] →
      ∀ r ∈ x.session.client.requestOf .doPlay, RTSPClient.bufferSize < r.size) := by
  constructor
  · intro hgood
    exact hgood.answered tmp hresponse hstatus
  · intro hanswered
    refine ⟨fun h => absurd h hfails, fun tmp' htmp' _ => ?_, fun he => by cases he⟩
    rw [hresponse] at htmp'
    cases htmp'
    exact hanswered

section Answered

variable {data : Option (List UInt8)} {n : Nat} {tmp : List Char} {c : RTSPClient}

variable (h : x.Settled) (hfails : ¬ Fails x.session (.read data))
  (hresponse : response decode x.session (.read data) = some tmp)
  (hc : c = RtspSession.clientAnswered { x.session.client with errorTimes := n }
    fun c => c.obtainKeyData tmp)

include h hfails hc

section Told

variable (hconn : x.session.client.connected = true)
  (htells : RtspSession.Tells { x.session.client with errorTimes := n }
    fun c => c.obtainKeyData tmp)
  (hclient : (IpCameraHelper.step decode localPort x.session (.read data)).client =
    (reply localPort c).1)
  (hcancelled : (IpCameraHelper.step decode localPort x.session (.read data)).cancelled =
    (reply localPort c).2)

include hclient hcancelled

/-- A response without keys. -/
theorem exact_other (hdescribe : x.session.client.sysStatus ≠ .describe)
    (hsetup : x.session.client.sysStatus ≠ .setup) : Exact decode localPort x (.read data) := by
  obtain ⟨hsettled, hwritten, hstatus⟩ := (IpCameraHelper.Settled.counted h n).answered
    hdescribe hsetup (fun c => c.obtainKeyData tmp) (reply localPort c).2
  rw [← hc] at hsettled hwritten hstatus
  have hgood : x.Good decode localPort (.read data) :=
    good_read (fun h => absurd h hfails) fun _ => hsetup
  have hwritten' : x.Negotiated → ∀ r ∈ c.written, r.Carries x.tracks x.sessions := by
    intro hcarries
    rw [hwritten]
    exact hcarries
  by_cases hopening : c.sysStatus = .init ∨ c.sysStatus = .options
  · have hreply := settled_opening localPort hsettled hopening (reply localPort c).2
    exact exact_of_eq hclient hcancelled (tracks_step hdescribe) (sessions_step hsetup) hreply.1
      fun hcarries => iff_of_true (hreply.2 (hwritten' hcarries)) hgood
  · have hnext : nextMethod localPort c.sysStatus = none := by
      cases hcase : c.sysStatus with
      | init => exact absurd (Or.inl hcase) hopening
      | options => exact absurd (Or.inr hcase) hopening
      | describe => exact absurd (hstatus.symm.trans hcase) hdescribe
      | setup => exact absurd (hstatus.symm.trans hcase) hsetup
      | play | pause | teardown | error => rfl
    rw [reply_none hnext] at hclient hcancelled hsettled
    exact exact_of_eq hclient hcancelled (tracks_step hdescribe) (sessions_step hsetup) hsettled
      fun hcarries => iff_of_true (hwritten' hcarries) hgood

include hresponse hconn htells

/-- A response to DESCRIBE leads to SETUP once it has a track. -/
theorem exact_describe (hstatus : x.session.client.sysStatus = .describe) :
    Exact decode localPort x (.read data) := by
  have hbefore : BeforeSetup x.session.client.sysStatus := by
    rw [hstatus]
    trivial
  have hsetup : x.session.client.sysStatus ≠ .setup := by
    rw [hstatus]
    exact RtspStatus.noConfusion
  have hkeys := hc.trans (clientAnswered_keys (Or.inl hstatus) n tmp)
  rw [tells_describe_iff hstatus, h.track hbefore, Option.or_none] at htells
  obtain ⟨track, hkey, hne⟩ : ∃ track, (keyData tmp).trackInfo = some track ∧ track ≠ [] := by
    cases hkey : (keyData tmp).trackInfo with
    | none =>
      rw [hkey] at htells
      exact absurd rfl htells
    | some track =>
      rw [hkey] at htells
      exact ⟨track, rfl, htells⟩
  have htracks : (x.step decode localPort (.read data)).tracks = x.tracks ++ [track] := by
    simp only [step, hstatus, hresponse, Option.bind_some, hkey, Option.toList_some]
  have hnext : nextMethod localPort c.sysStatus = some (.doSetup localPort) := by
    rw [hkeys]
    simp only [hstatus, nextMethod]
  have hallows : c.Allows (.doSetup localPort) := by
    rw [hkeys]
    exact ⟨hconn, rfl, not_not.mpr hstatus⟩
  have hseq : 1 ≤ c.seq ∧ c.seq ≤ number c.sysStatus := by
    rw [hkeys]
    exact h.numbered
  obtain ⟨hm, hnumber⟩ := number_lt_of_nextMethod hnext
  rw [reply_eq hnext] at hclient hcancelled
  refine exact_of_eq hclient hcancelled htracks (sessions_step hsetup) ?_ fun hcarries => ?_
  · exact settled_run hallows hm hseq hnumber False.elim (fun _ => h.session (Or.inl hbefore))
      fun _ => id
  · have hwritten : ∀ r ∈ c.written, r.Carries (x.tracks ++ [track]) x.sessions := by
      rw [hkeys]
      exact fun r hr => (hcarries r hr).mono (List.subset_append_left _ _) (List.Subset.refl _)
    refine iff_of_true ((RTSPClient.carries_run_iff hwritten _).mpr fun _ r hr _ => ?_)
      (good_read (fun h => absurd h hfails) fun _ => hsetup)
    cases hr
    refine ⟨track, ?_, List.mem_append_right _ (List.mem_singleton_self _), hne⟩
    rw [hkeys]
    simp only [hkey, Option.some_or, Option.mem_def]

/-- A response to SETUP leads to PLAY, with the session that is there. -/
theorem exact_setup (hstatus : x.session.client.sysStatus = .setup) :
    Exact decode localPort x (.read data) := by
  have hdescribe : x.session.client.sysStatus ≠ .describe := by
    rw [hstatus]
    exact RtspStatus.noConfusion
  have hkeys := hc.trans (clientAnswered_keys (Or.inr hstatus) n tmp)
  rw [tells_setup_iff hstatus] at htells
  have hsessions : (x.step decode localPort (.read data)).sessions =
      x.sessions ++ (keyData tmp).sessionid.toList := by
    simp only [step, hstatus, hresponse, Option.bind_some]
  have hnext : nextMethod localPort c.sysStatus = some .doPlay := by
    rw [hkeys]
    simp only [hstatus, nextMethod]
  have hallows : c.Allows .doPlay := by
    rw [hkeys]
    exact ⟨hconn, rfl, fun hrefused => hrefused.elim (absurd hstatus) htells⟩
  have hseq : 1 ≤ c.seq ∧ c.seq ≤ number c.sysStatus := by
    rw [hkeys]
    exact h.numbered
  obtain ⟨hm, hnumber⟩ := number_lt_of_nextMethod hnext
  rw [reply_eq hnext] at hclient hcancelled
  refine exact_of_eq hclient hcancelled (tracks_step hdescribe) hsessions ?_ fun hcarries => ?_
  · exact settled_run hallows hm hseq hnumber False.elim
      (fun hbefore => hbefore.elim False.elim RtspStatus.noConfusion) RtspStatus.noConfusion
  have hwritten : ∀ r ∈ c.written, r.Carries x.tracks
      (x.sessions ++ (keyData tmp).sessionid.toList) := by
    rw [hkeys]
    exact fun r hr => (hcarries r hr).mono (List.Subset.refl _) (List.subset_append_left _ _)
  rw [RTSPClient.carries_run_iff hwritten, good_answered hfails hresponse hstatus]
  have hsessionid : c.sessionid = (keyData tmp).sessionid.or x.session.client.sessionid := by
    rw [hkeys]
  cases hkey : (keyData tmp).sessionid with
  | some id =>
    rw [hkey, Option.some_or] at hsessionid htells
    refine iff_of_true (fun _ r hr _ => ?_) fun hnone => by cases hnone
    cases hr
    exact ⟨id, hsessionid, List.mem_append_right _ (List.mem_singleton_self _), htells⟩
  | none =>
    rw [hkey, Option.none_or] at hsessionid htells
    have hrequest : c.requestOf .doPlay = x.session.client.requestOf .doPlay := by
      rw [RTSPClient.requestOf, hsessionid, hkeys]
      rfl
    -- what is there has come with another response
    have hother : ∀ r ∈ c.requestOf .doPlay, ¬ r.Carries x.tracks (x.sessions ++ []) := by
      intro r hr
      cases hr
      rintro ⟨id, -, hmem, hne⟩
      rw [List.append_nil] at hmem
      exact hne (h.session (Or.inr hstatus) id hmem)
    rw [← hrequest]
    constructor
    · intro hruns _ _ r hr
      exact Nat.lt_of_not_le fun hsize => hother r hr (hruns hallows r hr hsize)
    · intro hover _ r hr hsize
      exact absurd (hover rfl htells r hr) (Nat.not_lt_of_le hsize)

/-- A response that the camera is told of. -/
theorem exact_told : Exact decode localPort x (.read data) := by
  by_cases hdescribe : x.session.client.sysStatus = .describe
  · exact exact_describe h hfails hresponse hc hconn htells hclient hcancelled hdescribe
  by_cases hsetup : x.session.client.sysStatus = .setup
  · exact exact_setup h hfails hresponse hc hconn htells hclient hcancelled hsetup
  · exact exact_other h hfails hc hclient hcancelled hdescribe hsetup

end Told

section Silent

variable (htells : ¬ RtspSession.Tells { x.session.client with errorTimes := n }
    fun c => c.obtainKeyData tmp)
  (hclient : (IpCameraHelper.step decode localPort x.session (.read data)).client = c)
  (hcancelled : (IpCameraHelper.step decode localPort x.session (.read data)).cancelled = false)

include hresponse htells hclient hcancelled

/-- A response to DESCRIBE without a track. -/
theorem exact_silent_describe (hstatus : x.session.client.sysStatus = .describe) :
    Exact decode localPort x (.read data) := by
  have hbefore : BeforeSetup x.session.client.sysStatus := by
    rw [hstatus]
    trivial
  have hsetup : x.session.client.sysStatus ≠ .setup := by
    rw [hstatus]
    exact RtspStatus.noConfusion
  rw [tells_describe_iff hstatus, h.track hbefore, Option.or_none, not_not] at htells
  have hkey : (keyData tmp).trackInfo = none := by
    cases hkey : (keyData tmp).trackInfo with
    | none => rfl
    | some track =>
      rw [hkey] at htells
      exact absurd (hkey.trans (congrArg some htells)) (keyData_trackInfo_ne_nil tmp)
  have htracks : (x.step decode localPort (.read data)).tracks = x.tracks := by
    simp only [step, hstatus, hresponse, Option.bind_some, hkey, Option.toList_none,
      List.append_nil]
  rw [hc.trans (clientAnswered_keys (Or.inl hstatus) n tmp)] at hclient
  refine exact_of_eq hclient hcancelled htracks (sessions_step hsetup) ?_ fun hcarries =>
    iff_of_true hcarries (good_read (fun h => absurd h hfails) fun _ => hsetup)
  refine ⟨h.status, h.numbered, fun hbefore => ?_, h.session, fun heq => absurd heq hsetup,
    fun hplay => ?_⟩
  · simp only [hkey, h.track hbefore, Option.or_none]
  · cases hstatus.symm.trans hplay

/-- A response to SETUP when there is no session. -/
theorem exact_silent_setup (hstatus : x.session.client.sysStatus = .setup) :
    Exact decode localPort x (.read data) := by
  have hdescribe : x.session.client.sysStatus ≠ .describe := by
    rw [hstatus]
    exact RtspStatus.noConfusion
  rw [tells_setup_iff hstatus, not_not] at htells
  have hsessions : (x.step decode localPort (.read data)).sessions =
      x.sessions ++ (keyData tmp).sessionid.toList := by
    simp only [step, hstatus, hresponse, Option.bind_some]
  have hempty : ∀ id ∈ (keyData tmp).sessionid.toList, id = [] := by
    intro id hid
    rw [Option.mem_toList] at hid
    rw [hid] at htells
    exact htells
  rw [hc.trans (clientAnswered_keys (Or.inr hstatus) n tmp)] at hclient
  refine exact_of_eq hclient hcancelled (tracks_step hdescribe) hsessions ?_ fun hcarries =>
    iff_of_true ?_ ((good_answered hfails hresponse hstatus).mpr fun hkey hne => ?_)
  · refine ⟨h.status, h.numbered, fun hbefore => ?_, fun hbefore =>
      List.forall_mem_append.mpr ⟨h.session hbefore, hempty⟩, fun _ _ _ => htells,
      fun hplay => ?_⟩
    · change BeforeSetup x.session.client.sysStatus at hbefore
      rw [hstatus] at hbefore
      exact hbefore.elim
    · cases hstatus.symm.trans hplay
  · exact fun r hr =>
      (hcarries r hr).mono (List.Subset.refl _) (List.subset_append_left _ _)
  · rw [hkey, Option.none_or] at htells
    exact absurd htells hne

/-- A response of which the camera is not told lacks its key. -/
theorem exact_silent : Exact decode localPort x (.read data) := by
  cases hstatus : x.session.client.sysStatus with
  | describe => exact exact_silent_describe h hfails hresponse hc htells hclient hcancelled hstatus
  | setup => exact exact_silent_setup h hfails hresponse hc htells hclient hcancelled hstatus
  | error => exact absurd hstatus h.status.1
  | init | options | play | pause | teardown =>
    refine absurd ?_ htells
    unfold RtspSession.Tells
    simp only [hstatus]

end Silent

end Answered

/-- So does a read. -/
theorem exact_read (h : x.Settled) (data : Option (List UInt8)) :
    Exact decode localPort x (.read data) := by
  have houtcome := readOutcome_step decode localPort h.status.1 data
  generalize hclient : (IpCameraHelper.step decode localPort x.session (.read data)).client = c
    at houtcome
  generalize hcancelled :
    (IpCameraHelper.step decode localPort x.session (.read data)).cancelled = b at houtcome
  cases houtcome with
  | counted n hfails hresponse =>
    refine exact_of_none hresponse hclient hcancelled (IpCameraHelper.Settled.counted h n)
      fun hcarries => iff_of_true hcarries (good_read (fun h => absurd h hfails) fun hne => ?_)
    exact absurd hresponse hne
  | failed n hfails hresponse hconn hvalid =>
    exact exact_failed h hfails hresponse hconn hvalid hclient hcancelled
  | told n tmp c hfails hresponse hconn hc htells =>
    exact exact_told h hfails hresponse hc hconn htells hclient hcancelled
  | silent n tmp c hfails hresponse hc htells =>
    exact exact_silent h hfails hresponse hc htells hclient hcancelled

/-- So does every event. -/
theorem exact_step (h : x.Settled) (e : Event) : Exact decode localPort x e := by
  cases e with
  | pass => exact exact_pass h
  | read data => exact exact_read h data
  | fini => exact exact_fini h

/-- A camera starts settled. -/
theorem settled_start (address : List Char) : (start address).Settled :=
  ⟨⟨RtspStatus.noConfusion, RtspStatus.noConfusion⟩, ⟨Int.le_refl 1, Int.le_refl 1⟩, fun _ => rfl,
    fun _ _ hid => absurd hid List.not_mem_nil, fun _ _ _ => rfl, RtspStatus.noConfusion⟩

/-- It starts with nothing to negotiate. -/
theorem negotiated_start (address : List Char) : (start address).Negotiated :=
  fun _ hr => absurd hr List.not_mem_nil

/-- In every run the requests carry their identifiers exactly as long as each step is good. -/
theorem negotiated_run_iff (decode : List UInt8 → List Char) (localPort : Int)
    (address : List Char) (es : List Event) :
    (∀ n, (after (step decode localPort) (start address) (es.take n)).Negotiated) ↔
      ∀ p ∈ trace (step decode localPort) (start address) es, p.1.Good decode localPort p.2 := by
  have hkeep : ∀ (x : Taken) e, x.Settled → True → (x.step decode localPort e).Settled :=
    fun _ e h _ => (exact_step h e).settled
  exact forall_take_iff (J := Settled) (I := Negotiated) (A := fun _ _ => True)
    (G := Good decode localPort) (settled_start address) (negotiated_start address)
    (fun _ _ => trivial) hkeep fun _ e h hcarries _ => (exact_step h e).negotiated hcarries

/-- A response to DESCRIBE without a track, and what comes behind it. -/
def trackless (e : Event) : List Event :=
  [.pass, .read (some okResponse), .read (some okResponse), e]

/-- `fini` sends a TEARDOWN request without a session there, and a read that fails a SETUP request
without a track. -/
theorem not_negotiated_trackless :
    .teardown "rtsp://a/b".toList none 3 ∈
        (after (step ascii 6000) (start "rtsp://a/b".toList)
          (trackless .fini)).session.client.written ∧
      ¬ (after (step ascii 6000) (start "rtsp://a/b".toList) (trackless .fini)).Negotiated ∧
      .setup "rtsp://a/b".toList none 3 (6000, 6001) ∈
        (after (step ascii 6000) (start "rtsp://a/b".toList)
          (trackless (.read none))).session.client.written ∧
      ¬ (after (step ascii 6000) (start "rtsp://a/b".toList)
        (trackless (.read none))).Negotiated := by
  have hteardown : .teardown "rtsp://a/b".toList none 3 ∈
      (after (step ascii 6000) (start "rtsp://a/b".toList)
        (trackless .fini)).session.client.written := by decide +kernel
  have hsetup : .setup "rtsp://a/b".toList none 3 (6000, 6001) ∈
      (after (step ascii 6000) (start "rtsp://a/b".toList)
        (trackless (.read none))).session.client.written := by decide +kernel
  refine ⟨hteardown, fun h => ?_, hsetup, fun h => ?_⟩
  · obtain ⟨id, hid, -⟩ := h _ hteardown
    cases hid
  · obtain ⟨track, htrack, -⟩ := h _ hsetup
    cases htrack

end Taken

end IpCameraHelper

end Jrtplib4Android
