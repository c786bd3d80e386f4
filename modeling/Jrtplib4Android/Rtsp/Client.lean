import Jrtplib4Android.Core.CInt
import Jrtplib4Android.Core.Text

/-!
# The RTSP client

`RTSPClient` keeps one status and one flag for the request on its way. The six `do…`
methods share a guard and a helper that sends; `handle` looks at each chunk that a read
returns by itself. The listener is a machine of its own: told of an event, it goes to a
new state and calls the client back.
-/

namespace Jrtplib4Android

open CSem

/-- `RtspStatus`. -/
inductive RtspStatus where
  | init
  | options
  | describe
  | setup
  | play
  | pause
  | teardown
  | error
  deriving DecidableEq

/-- The second argument of `setOnRtspEventListener`: a status, or the literal `10`. -/
inductive RtspEvent where
  | status (s : RtspStatus)
  | closed
  deriving DecidableEq

/-- A request with the data that its text shows. -/
inductive Request where
  | options (base : List Char) (seq : Int)
  | describe (address : List Char) (seq : Int)
  | setup (address : List Char) (trackInfo : Option (List Char)) (seq : Int)
      (clientPort : Int × Int)
  | play (address : List Char) (sessionid : Option (List Char)) (seq : Int)
  | pause (address : List Char) (sessionid : Option (List Char)) (seq : Int)
  | teardown (address : List Char) (sessionid : Option (List Char)) (seq : Int)
  deriving DecidableEq

namespace Request

def version : List Char := " RTSP/1.0\r\n".toList

def cseq (seq : Int) : List Char := "CSeq: ".toList ++ (toString seq).toList ++ "\r\n".toList

def userAgent : List Char := "User-Agent: Wtoe Android /1.0.0\r\n".toList

/-- An appended reference, `null` included. -/
def shown (s : Option (List Char)) : List Char := s.getD "null".toList

def session (sessionid : Option (List Char)) : List Char :=
  "Session: ".toList ++ shown sessionid ++ "\r\n".toList

/-- The text that is sent. -/
def text : Request → List Char
  | options base seq => "OPTIONS ".toList ++ base ++ version ++ cseq seq ++ userAgent
  | describe address seq => "DESCRIBE ".toList ++ address ++ version ++ cseq seq ++ userAgent
  | setup address trackInfo seq (rtp, rtcp) =>
    "SETUP ".toList ++ address ++ "/".toList ++ shown trackInfo ++ version ++ cseq seq ++
      "Transport: RTP/AVP;UNICAST;client_port=".toList ++ (toString rtp).toList ++ "-".toList ++
      (toString rtcp).toList ++ ";mode=play\r\n".toList ++ userAgent
  | play address sessionid seq =>
    "PLAY ".toList ++ address ++ version ++ session sessionid ++ cseq seq ++ userAgent
  | pause address sessionid seq =>
    "PAUSE ".toList ++ address ++ "/".toList ++ version ++ cseq seq ++ session sessionid ++
      userAgent
  | teardown address sessionid seq =>
    "TEARDOWN ".toList ++ address ++ "/".toList ++ version ++ cseq seq ++
      "User-Agent: Wtoe Android /1.0.0 \r\n".toList ++ session sessionid

/-- The length of `getBytes`, in UTF-8. -/
def size (r : Request) : Nat := r.text.foldl (fun n c => n + c.utf8Size) 0

end Request

/-- The members of `RTSPClient`, and the requests it has written. -/
structure RTSPClient where
  address : List Char
  /-- Whether there is a channel and it is connected. -/
  connected : Bool
  sysStatus : RtspStatus
  isSended : Bool
  seq : Int
  sessionid : Option (List Char)
  trackInfo : Option (List Char)
  shutdown : Bool
  errorTimes : Nat
  written : List Request

namespace RTSPClient

def bufferSize : Nat := 8192

/-- The client as it is constructed, once the channel is connected. -/
def start (address : List Char) : RTSPClient where
  address := address
  connected := true
  sysStatus := .init
  isSended := false
  seq := 1
  sessionid := none
  trackInfo := none
  shutdown := false
  errorTimes := 0
  written := []

/-- `send`; the second result is an exception, of the buffer that the text overflows. -/
def send (c : RTSPClient) (r : Request) : RTSPClient × Bool :=
  if bufferSize < r.size then (c, true)
  else ({ c with isSended := true, written := c.written ++ [r] }, false)

/-- The common shape of the six methods: nothing unless the channel is free, nothing in a
status that the method refuses, else the new status and the request with the next number.
A request whose text cannot be made is an exception behind the change of status. -/
def request (c : RTSPClient) (refused : Prop) [Decidable refused] (status : RtspStatus)
    (r : Option Request) : RTSPClient × Bool :=
  if c.connected && !c.isSended then
    if refused then (c, false)
    else
      match r with
      | none => ({ c with sysStatus := status }, true)
      | some r => { c with sysStatus := status, seq := toInt (c.seq + 1) }.send r
  else (c, false)

theorem request_eq {c : RTSPClient} {refused : Prop} [Decidable refused] (status : RtspStatus)
    {r : Request} (hconn : c.connected = true) (hfree : c.isSended = false)
    (hallowed : ¬ refused) (hsize : r.size ≤ bufferSize) :
    c.request refused status (some r) =
      ({ c with
        sysStatus := status
        isSended := true
        seq := toInt (c.seq + 1)
        written := c.written ++ [r] }, false) := by
  have hroom : ¬ bufferSize < r.size := by omega
  simp only [request, hconn, hfree, hallowed, send, hroom, Bool.not_false, Bool.and_self,
    ite_true, ite_false]

def doTeardown (c : RTSPClient) : RTSPClient × Bool :=
  c.request (c.sysStatus = .init ∨ c.sysStatus = .teardown) .teardown
    (some (.teardown c.address c.sessionid c.seq))

def doPlay (c : RTSPClient) : RTSPClient × Bool :=
  c.request (c.sysStatus ≠ .setup ∨ c.sessionid.getD [] = []) .play
    (some (.play c.address c.sessionid c.seq))

/-- RTCP has the odd port of the pair, RTP the even one. -/
def clientPort (localPort : Int) : Int × Int :=
  if localPort % 2 = 0 then (localPort, localPort + 1) else (localPort - 1, localPort)

def doSetup (c : RTSPClient) (localPort : Int) : RTSPClient × Bool :=
  c.request (c.sysStatus ≠ .describe) .setup
    (some (.setup c.address c.trackInfo c.seq (clientPort localPort)))

def doOption (c : RTSPClient) : RTSPClient × Bool :=
  c.request False .options
    ((Text.beforeLast '/' c.address).map fun base => .options base c.seq)

def doDescribe (c : RTSPClient) : RTSPClient × Bool :=
  c.request False .describe (some (.describe c.address c.seq))

def doPause (c : RTSPClient) : RTSPClient × Bool :=
  c.request (c.sysStatus ≠ .play) .pause (some (.pause c.address c.sessionid c.seq))

/-- The methods that send a request. -/
inductive Method where
  | doOption
  | doDescribe
  | doSetup (localPort : Int)
  | doPlay
  | doPause
  | doTeardown
  deriving DecidableEq

/-- Call a method. -/
def run (c : RTSPClient) : Method → RTSPClient × Bool
  | .doOption => c.doOption
  | .doDescribe => c.doDescribe
  | .doSetup localPort => c.doSetup localPort
  | .doPlay => c.doPlay
  | .doPause => c.doPause
  | .doTeardown => c.doTeardown

/-- The status that a method goes to. -/
def Method.status : Method → RtspStatus
  | .doOption => .options
  | .doDescribe => .describe
  | .doSetup _ => .setup
  | .doPlay => .play
  | .doPause => .pause
  | .doTeardown => .teardown

/-- The method refuses the status. -/
def Refuses (c : RTSPClient) : Method → Prop
  | .doOption => False
  | .doDescribe => False
  | .doSetup _ => c.sysStatus ≠ .describe
  | .doPlay => c.sysStatus ≠ .setup ∨ c.sessionid.getD [] = []
  | .doPause => c.sysStatus ≠ .play
  | .doTeardown => c.sysStatus = .init ∨ c.sysStatus = .teardown

instance (c : RTSPClient) (m : Method) : Decidable (c.Refuses m) :=
  match m with
  | .doOption | .doDescribe => inferInstanceAs (Decidable False)
  | .doSetup _ | .doPause => inferInstanceAs (Decidable (_ ≠ _))
  | .doPlay | .doTeardown => inferInstanceAs (Decidable (_ ∨ _))

/-- The request of a method, where its text can be made. -/
def requestOf (c : RTSPClient) : Method → Option Request
  | .doOption => (Text.beforeLast '/' c.address).map fun base => .options base c.seq
  | .doDescribe => some (.describe c.address c.seq)
  | .doSetup localPort => some (.setup c.address c.trackInfo c.seq (clientPort localPort))
  | .doPlay => some (.play c.address c.sessionid c.seq)
  | .doPause => some (.pause c.address c.sessionid c.seq)
  | .doTeardown => some (.teardown c.address c.sessionid c.seq)

theorem run_eq (c : RTSPClient) (m : Method) :
    c.run m = c.request (c.Refuses m) m.status (c.requestOf m) := by
  cases m <;> rfl

/-- The method gets past its guards. -/
structure Allows (c : RTSPClient) (m : Method) : Prop where
  connected : c.connected = true
  free : c.isSended = false
  status : ¬ c.Refuses m

/-- What a method does: nothing, or the change of status with an exception, or the request. -/
theorem run_cases (c : RTSPClient) (m : Method) :
    ¬ c.Allows m ∧ c.run m = (c, false) ∨
    (c.Allows m ∧ (∀ r ∈ c.requestOf m, bufferSize < r.size) ∧
      ∃ seq, (seq = c.seq ∨ seq = toInt (c.seq + 1)) ∧
        c.run m = ({ c with sysStatus := m.status, seq := seq }, true)) ∨
    c.Allows m ∧ ∃ r ∈ c.requestOf m, r.size ≤ bufferSize ∧
      c.run m = ({ c with
        sysStatus := m.status
        isSended := true
        seq := toInt (c.seq + 1)
        written := c.written ++ [r] }, false) := by
  rw [run_eq]
  by_cases hallows : c.Allows m
  · have hguard : (c.connected && !c.isSended) = true := by
      rw [hallows.connected, hallows.free]
      rfl
    unfold request
    rw [if_pos hguard, if_neg hallows.status]
    refine Or.inr ?_
    cases hr : c.requestOf m with
    | none =>
      exact Or.inl ⟨hallows, fun _ h => (Option.not_mem_none _ h).elim, c.seq, Or.inl rfl, rfl⟩
    | some r =>
      by_cases hsize : bufferSize < r.size
      · refine Or.inl ⟨hallows, fun r' h => ?_, toInt (c.seq + 1), Or.inr rfl, ?_⟩
        · cases h
          exact hsize
        · simp only [send, if_pos hsize]
      · refine Or.inr ⟨hallows, r, rfl, Nat.le_of_not_lt hsize, ?_⟩
        simp only [send, if_neg hsize]
  · refine Or.inl ⟨hallows, ?_⟩
    unfold request
    split
    · next hguard =>
      obtain ⟨hconn, hfree⟩ := Bool.and_eq_true_iff.mp hguard
      rw [Bool.not_eq_true'] at hfree
      rw [if_pos (not_not.mp fun h => hallows ⟨hconn, hfree, h⟩)]
    · rfl

theorem run_eq_self {c : RTSPClient} {m : Method} (h : ¬ c.Allows m) : c.run m = (c, false) := by
  rcases c.run_cases m with ⟨-, hrun⟩ | ⟨hallows, -⟩ | ⟨hallows, -⟩
  · exact hrun
  · exact absurd hallows h
  · exact absurd hallows h

def rtspOk : List Char := "RTSP/1.0 200 OK".toList

def trackMark : List Char := "a=control:trackID".toList

def sessionMark : List Char := "Session".toList

/-- What one line of a response changes. -/
def obtainLine (c : RTSPClient) (line : List Char) : RTSPClient :=
  if line = [] then c
  else if trackMark <:+: line then
    { c with trackInfo := some (Text.trim (Text.afterFirst ':' line)) }
  else if sessionMark <:+: line then
    { c with sessionid := some (Text.trim (Text.afterFirst ':' line)) }
  else c

def obtainKeyData (c : RTSPClient) (tmp : List Char) : RTSPClient :=
  (Text.lines tmp).foldl obtainLine c

/-- `recieve`, given the bytes that the channel has or an I/O error: the array returned, or
null. -/
def recieve (c : RTSPClient) : Option (List UInt8) → RTSPClient × Option (List UInt8)
  | none => (c, none)
  | some data =>
    if !c.connected then (c, none)
    else if data ≠ [] then (c, some data)
    else if 1 < c.errorTimes then (c, none)
    else ({ c with errorTimes := c.errorTimes + 1 }, some [])

/-- `recieve` counts empty reads, and changes nothing else. -/
theorem recieve_fst (c : RTSPClient) (data : Option (List UInt8)) :
    ∃ n, (c.recieve data).1 = { c with errorTimes := n } := by
  unfold recieve
  cases data with
  | none => exact ⟨c.errorTimes, rfl⟩
  | some data =>
    simp only
    split
    · exact ⟨c.errorTimes, rfl⟩
    split
    · exact ⟨c.errorTimes, rfl⟩
    split
    · exact ⟨c.errorTimes, rfl⟩
    · exact ⟨c.errorTimes + 1, rfl⟩

end RTSPClient

/-- What a listener or another thread calls. -/
inductive RtspCall where
  | method (m : RTSPClient.Method)
  | shutdown
  deriving DecidableEq

/-- A client with its listener, the events that the listener was told, and whether the
channel's key is cancelled. -/
structure RtspSession (σ : Type) where
  client : RTSPClient
  listener : σ
  notified : List RtspEvent
  cancelled : Bool

/-- What a listener does when it is told of an event. -/
abbrev Listener (σ : Type) := σ → RtspEvent → σ × List RtspCall

namespace RtspSession

variable {σ : Type}

/-- `shutdown`. What the listener calls when it is told finds the channel closed, and does
nothing. -/
def shutdown (l : Listener σ) (s : RtspSession σ) : RtspSession σ :=
  if s.client.connected then
    { s with
      client := { s.client with connected := false }
      listener := (l s.listener .closed).1
      notified := s.notified ++ [.closed] }
  else s

/-- The channel is closed. -/
theorem client_shutdown (l : Listener σ) (s : RtspSession σ) :
    (s.shutdown l).client = { s.client with connected := false } ∧
      (s.shutdown l).cancelled = s.cancelled := by
  unfold shutdown
  split
  · exact ⟨rfl, rfl⟩
  · next hconn =>
    rw [Bool.not_eq_true] at hconn
    exact ⟨by rw [← hconn], rfl⟩

/-- One call; the second result is an exception. -/
def call (l : Listener σ) (s : RtspSession σ) : RtspCall → RtspSession σ × Bool
  | .method m =>
    let (c, thrown) := s.client.run m
    ({ s with client := c }, thrown)
  | .shutdown => (s.shutdown l, false)

/-- The calls of a listener, up to the first exception. -/
def calls (l : Listener σ) (s : RtspSession σ) : List RtspCall → RtspSession σ × Bool
  | [] => (s, false)
  | c :: cs =>
    match s.call l c with
    | (s, true) => (s, true)
    | (s, false) => s.calls l cs

/-- What each of the calls keeps is kept by all of them. -/
theorem calls_invariant {P : RtspSession σ → Prop} {l : Listener σ} {cs : List RtspCall}
    (hcall : ∀ c ∈ cs, ∀ s, P s → P (s.call l c).1) {s : RtspSession σ} (h : P s) :
    P (s.calls l cs).1 := by
  induction cs generalizing s with
  | nil => exact h
  | cons c cs ih =>
    rw [List.forall_mem_cons] at hcall
    have hc := hcall.1 s h
    unfold calls
    split
    · next s' hthrown =>
      rw [hthrown] at hc
      exact hc
    · next s' hdone =>
      rw [hdone] at hc
      exact ih hcall.2 hc

theorem calls_singleton (l : Listener σ) (s : RtspSession σ) (c : RtspCall) :
    s.calls l [c] = s.call l c := by
  unfold calls
  split
  · next s' hthrown => exact hthrown.symm
  · next s' hdone => exact hdone.symm

/-- `rtspListener.setOnRtspEventListener(this, sysStatus)`. -/
def notify (l : Listener σ) (s : RtspSession σ) : RtspSession σ × Bool :=
  let event := RtspEvent.status s.client.sysStatus
  let (state, cs) := l s.listener event
  { s with listener := state, notified := s.notified ++ [event] }.calls l cs

/-- A listener that calls one method back. -/
theorem notify_eq {l : Listener σ} {s : RtspSession σ} {state : σ} {m : RTSPClient.Method}
    {c : RTSPClient} (hl : l s.listener (.status s.client.sysStatus) = (state, [.method m]))
    (hm : s.client.run m = (c, false)) :
    s.notify l = ({ s with
      client := c
      listener := state
      notified := s.notified ++ [.status s.client.sysStatus] }, false) := by
  simp only [notify, hl, calls, call, hm]

/-- The branch of `handle` for a `200 OK`, where `obtain` is the reading of the keys. -/
def answered (l : Listener σ) (s : RtspSession σ) (obtain : RTSPClient → RTSPClient) :
    RtspSession σ × Bool :=
  let c := { s.client with isSended := false }
  match c.sysStatus with
  | .init => { s with client := { c with trackInfo := none, sessionid := none } }.notify l
  | .play | .options | .teardown => { s with client := c }.notify l
  | .describe =>
    let c := obtain c
    if c.trackInfo.getD [] = [] then ({ s with client := c }, false)
    else { s with client := c }.notify l
  | .setup =>
    let c := obtain c
    if c.sessionid.getD [] = [] then ({ s with client := c }, false)
    else { s with client := c }.notify l
  | .pause => { s with client := { c with shutdown := true } }.notify l
  | .error => ({ s with client := c }, false)

/-- What a `200 OK` changes before the listener is told. -/
def clientAnswered (c : RTSPClient) (obtain : RTSPClient → RTSPClient) : RTSPClient :=
  let c := { c with isSended := false }
  match c.sysStatus with
  | .init => { c with trackInfo := none, sessionid := none }
  | .describe | .setup => obtain c
  | .pause => { c with shutdown := true }
  | .play | .options | .teardown | .error => c

/-- The listener is told of the `200 OK`, in DESCRIBE and SETUP once the key is there. -/
def Tells (c : RTSPClient) (obtain : RTSPClient → RTSPClient) : Prop :=
  match c.sysStatus with
  | .describe => (clientAnswered c obtain).trackInfo.getD [] ≠ []
  | .setup => (clientAnswered c obtain).sessionid.getD [] ≠ []
  | .error => False
  | .init | .play | .options | .teardown | .pause => True

/-- The client changes, and then the listener is told or not. -/
theorem answered_eq (l : Listener σ) (s : RtspSession σ) (obtain' : RTSPClient → RTSPClient) :
    (Tells s.client obtain' ∧
      s.answered l obtain' = { s with client := clientAnswered s.client obtain' }.notify l) ∨
    (¬ Tells s.client obtain' ∧
      s.answered l obtain' = ({ s with client := clientAnswered s.client obtain' }, false)) := by
  obtain ⟨⟨address, connected, status, _⟩, listener, notified, cancelled⟩ := s
  cases status with
  | init | play | options | teardown | pause => exact Or.inl ⟨trivial, rfl⟩
  | error => exact Or.inr ⟨not_false, rfl⟩
  | describe | setup =>
    unfold answered
    simp only
    split
    · next hempty => exact Or.inr ⟨not_not.mpr hempty, rfl⟩
    · next hkey => exact Or.inl ⟨hkey, rfl⟩

/-- What a client with the requests of the session and the flag down satisfies, and each
notification keeps, holds after the response. -/
theorem answered_invariant {P : RTSPClient → Prop} {l : Listener σ} {s : RtspSession σ}
    {obtain' : RTSPClient → RTSPClient}
    (hnotify : ∀ s : RtspSession σ, P s.client → P (s.notify l).1.client)
    (hobtain : ∀ c, (obtain' c).written = c.written ∧ (obtain' c).isSended = c.isSended)
    (hP : ∀ c : RTSPClient, c.written = s.client.written → c.isSended = false → P c) :
    P (s.answered l obtain').1.client := by
  have hclient : P (clientAnswered s.client obtain') := by
    unfold clientAnswered
    simp only
    split
    · exact hP _ rfl rfl
    · exact hP _ (hobtain _).1 (hobtain _).2
    · exact hP _ (hobtain _).1 (hobtain _).2
    · exact hP _ rfl rfl
    all_goals exact hP _ rfl rfl
  rcases answered_eq l s obtain' with ⟨-, htold⟩ | ⟨-, hsilent⟩
  · rw [htold]
    exact hnotify _ hclient
  · rw [hsilent]
    exact hclient

/-- `handle`. -/
def handle (l : Listener σ) (s : RtspSession σ) (tmp : List Char) : RtspSession σ × Bool :=
  if RTSPClient.rtspOk <+: tmp then s.answered l fun c => c.obtainKeyData tmp
  else (s, false)

/-- `read`, with `new String` as a parameter. `select` calls it for a key that is valid: the
channel is open, and no exception has cancelled the key. -/
def read (decode : List UInt8 → List Char) (l : Listener σ) (s : RtspSession σ)
    (data : Option (List UInt8)) : RtspSession σ :=
  if s.client.connected && !s.cancelled then
    match s.client.recieve data with
    | (c, some msg) =>
      let (s, thrown) := { s with client := c }.handle l (decode msg)
      { s with cancelled := thrown }
    | (c, none) => { ({ s with client := c }.notify l).1 with cancelled := true }
  else s

/-- What a read comes to: nothing, a failure, a text that is no `200 OK`, or one that is. -/
theorem read_cases (decode : List UInt8 → List Char) (l : Listener σ) (s : RtspSession σ)
    (data : Option (List UInt8)) {s' : RtspSession σ}
    (hs' : s' = { s with client := (s.client.recieve data).1 }) :
    (s.client.connected && !s.cancelled) = false ∧ s.read decode l data = s ∨
    (s.client.connected && !s.cancelled) = true ∧
      ((s.client.recieve data).2 = none ∧
          s.read decode l data = { (s'.notify l).1 with cancelled := true } ∨
        ∃ msg, (s.client.recieve data).2 = some msg ∧
          (¬ RTSPClient.rtspOk <+: decode msg ∧
              s.read decode l data = { s' with cancelled := false } ∨
            RTSPClient.rtspOk <+: decode msg ∧
              s.read decode l data =
                { (s'.answered l fun c => c.obtainKeyData (decode msg)).1 with
                  cancelled := (s'.answered l fun c => c.obtainKeyData (decode msg)).2 })) := by
  subst hs'
  unfold read
  cases hvalid : s.client.connected && !s.cancelled with
  | false => exact Or.inl ⟨rfl, rfl⟩
  | true =>
    refine Or.inr ⟨rfl, ?_⟩
    rw [if_pos rfl]
    obtain ⟨c, msg⟩ := s.client.recieve data
    cases msg with
    | none => exact Or.inl ⟨rfl, rfl⟩
    | some msg =>
      refine Or.inr ⟨msg, rfl, ?_⟩
      unfold handle
      by_cases hok : RTSPClient.rtspOk <+: decode msg
      · refine Or.inr ⟨hok, ?_⟩
        simp only [if_pos hok]
      · refine Or.inl ⟨hok, ?_⟩
        simp only [if_neg hok]

end RtspSession

end Jrtplib4Android
