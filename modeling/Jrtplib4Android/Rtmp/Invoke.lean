import Jrtplib4Android.Core.Run
import Jrtplib4Android.Rtmp.Session

/-!
# The handshake of commands

`HandleInvoke`, `HandleCtrl` and the loop of `RTMP_ConnectStream` of `rtmp.c`: what the client
does with each packet of its peer until it may push or play. A result is matched with the
remote call that it answers and the call leaves the queue, so the commands of a publisher go
out in their order and once, whatever the peer sends: `Publisher` is what every packet keeps.
-/

namespace Jrtplib4Android

open CSem

/-- A complete packet of the peer, with the time of the media channel when it is handled. -/
structure PeerPacket where
  mPacketType : UInt8
  body : List UInt8
  mediaTime : Int

namespace RTMPSession

section

variable (amf3Decode : List UInt8 → Int → Except Fault (AMFAnswer (List AMFObjectProperty)))
variable (mem : AMFMemory) (decodeTEA : AVal → AVal → AVal)
variable (answer : Nat → WriteStatus) (close : RTMPSession → Except Fault RTMPSession)

/-- A command function whose result is not looked at. -/
def call (c : Int → Invoke) (r : RTMPSession) : Except Fault RTMPSession :=
  (r.invoke answer close c).map Prod.fst

/-- `RTMP_SendPacket` for a packet that takes no transaction number. -/
def put (cmd : Option RTMPCommand) (r : RTMPSession) : Except Fault RTMPSession :=
  (r.post answer close cmd).map Prod.fst

/-- The answer to a secure token. -/
def answerToken (obj : List AMFObjectProperty) (r : RTMPSession) : Except Fault RTMPSession :=
  if r.link.token.length = 0 then .ok r
  else match rtmpFindFirstMatchingProperty (avc "secureToken") obj with
    | none => .ok r
    | some p => do
      let bv ← p.getString mem
      put answer close (sendSecureTokenResponse (decodeTEA r.link.token bv)).command r

/-- The result of `connect`. -/
def connectResult (obj : List AMFObjectProperty) (r : RTMPSession) :
    Except Fault RTMPSession := do
  let r ← answerToken mem decodeTEA answer close obj r
  if r.link.write then
    let r ← call answer close (sendReleaseStream r.link) r
    let r ← call answer close (sendFCPublish r.link) r
    call answer close sendCreateStream r
  else
    let r ← put answer close (some (sendServerBW r.link.mNServerBW)) r
    let r ← put answer close (some (sendCtrl 3 0 300)) r
    let r ← call answer close sendCreateStream r
    if r.link.subscribepath.length ≠ 0 then
      call answer close (sendFCSubscribe r.link.subscribepath) r
    else if r.link.lfLive then call answer close (sendFCSubscribe r.link.playpath) r
    else return r

/-- The result of `createStream`. -/
def createStreamResult (obj : List AMFObjectProperty) (r : RTMPSession) :
    Except Fault RTMPSession := do
  let p ← amfGetPropAt mem obj 3
  let r := { r with mStreamId := Double.truncate (p.getNumber mem) }
  if r.link.write then call answer close (sendPublish r.link r.mStreamId) r
  else
    let r ← if r.link.lfPlst then put answer close (sendPlaylist r.link r.mStreamId) r else .ok r
    let r ← call answer close (sendPlay r.link r.mStreamId) r
    put answer close (some (sendCtrl 3 (toUnsigned r.mStreamId).toNat r.link.mNBufferMS.toNat)) r

/-- A result, which is dropped unless a call waits for it. -/
def handleResult (obj : List AMFObjectProperty) (txn : Int) (r : RTMPSession) :
    Except Fault RTMPSession :=
  match r.mMethodCalls.find? fun m => m.num = txn with
  | none => .ok r
  | some m =>
    let r := r.erased fun m => m.num = txn
    if m.name = avc "connect" then connectResult mem decodeTEA answer close obj r
    else if m.name = avc "createStream" then createStreamResult mem answer close obj r
    else if m.name = avc "play" ∨ m.name = avc "publish" then .ok { r with mBPlaying := true }
    else .ok r

/-- `onStatus`; the second part is 1 where `HandleInvoke` returns it. -/
def handleStatus (obj : List AMFObjectProperty) (r : RTMPSession) :
    Except Fault (RTMPSession × Nat) := do
  let p ← amfGetPropAt mem obj 3
  let obj2 ← p.getObject mem
  let code ← (amfGetPropNamed obj2 (avc "code")).getString mem
  let _level ← (amfGetPropNamed obj2 (avc "level")).getString mem
  if code = avc "NetStream.Failed" ∨ code = avc "NetStream.Play.Failed" ∨
      code = avc "NetStream.Play.StreamNotFound" ∨
      code = avc "NetConnection.Connect.InvalidApp" then
    return (← close { r with mStreamId := -1 }, 0)
  else if code = avc "NetStream.Play.Start" then
    return ({ r with mBPlaying := true }.erased fun m => m.name = avc "play", 0)
  else if code = avc "NetStream.Publish.Start" then
    return ({ r with mBPlaying := true }.erased fun m => m.name = avc "publish", 0)
  else if code = avc "NetStream.Play.Complete" ∨ code = avc "NetStream.Play.Stop" ∨
      code = avc "NetStream.Play.UnpublishNotify" then
    return (← close r, 1)
  else if code = avc "NetStream.Pause.Notify" then
    if r.mPausing = 1 ∨ r.mPausing = 2 then
      let r ← call answer close (sendPause false r.mPauseStamp) r
      return ({ r with mPausing := 3 }, 0)
    else return (r, 0)
  -- NetStream.Seek.Notify changes the state of the reader alone
  else return (r, 0)

/-- What `HandleInvoke` does with a method that is no result and no status. -/
def handleMethod (method : AVal) (txn : Int) (r : RTMPSession) :
    Except Fault (RTMPSession × Nat) :=
  if method = avc "onBWDone" then
    if r.mNBWCheckCounter = 0 then (call answer close sendCheckBW r).map (·, 0) else .ok (r, 0)
  else if method = avc "onFCUnsubscribe" then (close r).map (·, 1)
  else if method = avc "ping" then
    (put answer close (sendPong r.mNBWCheckCounter (Double.ofInt txn)).command r).map (·, 0)
  else if method = avc "_onbwcheck" then
    (put answer close (sendCheckBWResult r.mNBWCheckCounter (Double.ofInt txn)).command
      { r with mNBWCheckCounter := r.mNBWCheckCounter + 1 }).map (·, 0)
  else if method = avc "_onbwdone" then .ok (r.erased fun m => m.name = avc "_checkbw", 0)
  else if method = avc "close" then (close r).map (·, 0)
  else if method = avc "playlist_ready" then
    .ok (r.erased fun m => m.name = avc "set_playlist", 0)
  else .ok (r, 0)

/-- `HandleInvoke`. -/
def handleInvoke (body : List UInt8) (r : RTMPSession) : Except Fault (RTMPSession × Nat) := do
  if (← amfDecodeInt 1 body) ≠ 2 then return (r, 0)
  match ← amfDecode amf3Decode body body.length false with
  | none => return (r, 0)
  | some (obj, _) =>
    let method ← (← amfGetPropAt mem obj 0).getString mem
    let txn := Double.truncate ((← amfGetPropAt mem obj 1).getNumber mem)
    if method = avc "_result" then
      return (← handleResult mem decodeTEA answer close obj txn r, 0)
    else if method = avc "onStatus" then handleStatus mem answer close obj r
    else handleMethod answer close method txn r

/-- `HandleCtrl`. -/
def handleCtrl (body : List UInt8) (mediaTime : Int) (r : RTMPSession) :
    Except Fault RTMPSession := do
  if body.length < 6 then return r
  let nType ← amfDecodeInt 2 body
  let tmp ← amfDecodeInt 4 (body.drop 2)
  if nType = 1 then return if r.mPausing = 1 then { r with mPausing := 2 } else r
  else if nType = 6 then put answer close (some (sendCtrl 0x07 tmp 0)) r
  else if nType = 31 ∧ r.link.lfBufx then
    if r.mPausing = 0 then
      let r ← call answer close (sendPause true mediaTime) { r with mPauseStamp := mediaTime }
      return { r with mPausing := 1 }
    else if r.mPausing = 2 then
      let r ← call answer close (sendPause false r.mPauseStamp) r
      return { r with mPausing := 3 }
    else return r
  else return r

/-- `RTMP_ClientPacket`, as far as it changes the session. -/
def rtmpClientPacket (packet : PeerPacket) (r : RTMPSession) : Except Fault RTMPSession :=
  if packet.mPacketType = 0x04 then handleCtrl answer close packet.body packet.mediaTime r
  else if packet.mPacketType = 0x05 then
    (amfDecodeInt 4 packet.body).map fun n => { r with link := { r.link with mNServerBW := n } }
  else if packet.mPacketType = 0x06 then (amfDecodeInt 4 packet.body).map fun _ => r
  else if packet.mPacketType = 0x11 then
    (handleInvoke amf3Decode mem decodeTEA answer close (packet.body.drop 1) r).map Prod.fst
  else if packet.mPacketType = rtmpPacketTypeInvoke then
    (handleInvoke amf3Decode mem decodeTEA answer close packet.body r).map Prod.fst
  else .ok r

/-- One round of the loop of `RTMP_ConnectStream`, which is over once the stream plays or the
connection is closed. The bytes of the packet are there: what `ReadN` does on the way to them,
the acknowledgement that it sends included, is left out. -/
def connectStreamStep (r : RTMPSession) (packet : PeerPacket) : Except Fault RTMPSession :=
  if r.mBPlaying ∨ r.connected = false then .ok r
  else if packet.body = [] then .ok r
  else if packet.mPacketType = 0x08 ∨ packet.mPacketType = 0x09 ∨ packet.mPacketType = 0x12 then
    .ok r
  else rtmpClientPacket amf3Decode mem decodeTEA answer close packet r

/-- `RTMP_ConnectStream` over the packets of the peer. -/
def connectStream (packets : List PeerPacket) (r : RTMPSession) : Except Fault RTMPSession :=
  packets.foldlM (connectStreamStep amf3Decode mem decodeTEA answer close) r

/-- How `RtmpUtils` opens its stream, from the command of `RTMP_Connect1` on. -/
def openStream (packets : List PeerPacket) (r : RTMPSession) :
    Except Fault (RTMPSession × Bool) := do
  let (r, sent) ← r.invoke answer close (sendConnectPacket r.link)
  let r ← if sent then connectStream amf3Decode mem decodeTEA answer close packets r else .ok r
  if sent ∧ r.mBPlaying then return (r, true) else return (← close r, false)

end

/-- A session behind `RTMP_EnableWrite`, as the socket is connected. -/
def fresh (link : RTMPLink) : RTMPSession where
  link := { link with write := true }
  connected := true
  mStreamId := 0
  mBPlaying := false
  mNumInvokes := 0
  mMethodCalls := []
  mNBWCheckCounter := 0
  mPausing := 0
  mPauseStamp := 0
  writes := 0
  sent := []

/-! ## The handshake of a publisher -/

/-- The commands that open a stream for writing, in their order. -/
def handshake : List AVal :=
  [avc "connect", avc "releaseStream", avc "FCPublish", avc "createStream", avc "publish"]

/-- The method and the stream of a packet, if it belongs to the handshake. -/
def handshakePart (cmd : RTMPCommand) : Option (AVal × Int) :=
  if cmd.mPacketType = rtmpPacketTypeInvoke then
    match queuedMethod cmd.body with
    | .ok m => if m.name ∈ handshake then some (m.name, cmd.mNInfoField2) else none
    | .error _ => none
  else none

/-- What was sent of the handshake. -/
def handshakeSent (r : RTMPSession) : List (AVal × Int) := r.sent.filterMap handshakePart

/-- The calls of the handshake that wait for their result. -/
def handshakePending (r : RTMPSession) : List AVal :=
  (r.mMethodCalls.map RTMPMethod.name).filter (· ∈ handshake)

/-- How far the handshake has come: what waits for a result, and what was sent. -/
inductive HandshakeStage : List AVal → List AVal → Prop where
  | connecting : HandshakeStage [avc "connect"] [avc "connect"]
  | creating {sent : List AVal}
      (hsent : sent.Sublist [avc "connect", avc "releaseStream", avc "FCPublish",
        avc "createStream"]) (hcreate : avc "createStream" ∈ sent) :
      HandshakeStage [avc "createStream"] sent
  | settled {pending sent : List AVal} (hpending : ∀ m ∈ pending, m = avc "publish")
      (hsent : sent.Sublist handshake)
      (hcreate : avc "publish" ∈ sent → avc "createStream" ∈ sent) :
      HandshakeStage pending sent

/-- What every packet of the peer leaves of a session that writes. -/
structure Publisher (r : RTMPSession) : Prop where
  write : r.link.write = true
  stage : HandshakeStage r.handshakePending (r.handshakeSent.map Prod.fst)
  stream : r.connected = true → ∀ p ∈ r.handshakeSent, p.1 = avc "publish" → p.2 = r.mStreamId

/-- A stage survives a close, and a result of `publish`. -/
theorem HandshakeStage.settle {pending pending' sent : List AVal}
    (h : HandshakeStage pending sent) (hpending : ∀ m ∈ pending', m = avc "publish") :
    HandshakeStage pending' sent := by
  cases h with
  | connecting => exact .settled hpending (by decide) (by decide)
  | creating hsent hcreate =>
    exact .settled hpending (hsent.trans (by decide)) fun _ => hcreate
  | settled _ hsent hcreate => exact .settled hpending hsent hcreate

/-- At every stage the commands were sent in their order. -/
theorem HandshakeStage.sublist {pending sent : List AVal} (h : HandshakeStage pending sent) :
    sent.Sublist handshake := by
  cases h with
  | connecting => exact List.IsPrefix.sublist ⟨_, rfl⟩
  | creating hsent _ => exact hsent.trans (List.IsPrefix.sublist ⟨[avc "publish"], rfl⟩)
  | settled _ hsent _ => exact hsent

/-- What waits for a result once the stream is published. -/
theorem HandshakeStage.published {pending sent : List AVal} (h : HandshakeStage pending sent)
    (hpublish : avc "publish" ∈ sent) :
    avc "createStream" ∈ sent ∧ ∀ m ∈ pending, m = avc "publish" := by
  cases h with
  | connecting => exact absurd hpublish (by decide)
  | creating hsent _ => exact absurd (hsent.subset hpublish) (by decide)
  | settled hpending _ hcreate => exact ⟨hcreate hpublish, hpending⟩

/-- A step that sends nothing of the handshake and answers nothing of it. -/
structure Keeps (r r' : RTMPSession) : Prop where
  write : r'.link.write = r.link.write
  sent : r'.handshakeSent = r.handshakeSent
  pending : r'.handshakePending = r.handshakePending ∨ r'.handshakePending = []
  stream : r'.connected = true → r.connected = true ∧ r'.mStreamId = r.mStreamId

theorem Keeps.refl (r : RTMPSession) : Keeps r r := ⟨rfl, rfl, .inl rfl, fun h => ⟨h, rfl⟩⟩

/-- Two such steps. -/
theorem Keeps.trans {r r' r'' : RTMPSession} (h : Keeps r r') (h' : Keeps r' r'') :
    Keeps r r'' where
  write := h'.write.trans h.write
  sent := h'.sent.trans h.sent
  pending := by
    rcases h'.pending with he | he
    · rw [he]
      exact h.pending
    · exact .inr he
  stream hconnected := by
    obtain ⟨hr', hid'⟩ := h'.stream hconnected
    obtain ⟨hr, hid⟩ := h.stream hr'
    exact ⟨hr, hid'.trans hid⟩

/-- Such a step keeps the invariant. -/
theorem Keeps.publisher {r r' : RTMPSession} (h : Keeps r r') (hr : r.Publisher) :
    r'.Publisher where
  write := h.write.trans hr.write
  stage := by
    rw [h.sent]
    rcases h.pending with he | he
    · rw [he]
      exact hr.stage
    · exact hr.stage.settle fun m hm => by rw [he] at hm; cases hm
  stream hconnected p hp hname := by
    obtain ⟨hr', hid⟩ := h.stream hconnected
    rw [h.sent] at hp
    rw [hid]
    exact hr.stream hr' p hp hname

/-- A session in which nothing of the handshake waits for a result. -/
structure Idle (sent : List AVal) (r : RTMPSession) : Prop where
  write : r.link.write = true
  pending : r.handshakePending = []
  sent : (r.handshakeSent.map Prod.fst).Sublist sent

/-- More may have been sent. -/
theorem Idle.mono {sent sent' : List AVal} {r : RTMPSession} (h : r.Idle sent)
    (hsent : sent.Sublist sent') : r.Idle sent' :=
  ⟨h.write, h.pending, h.sent.trans hsent⟩

/-- Such a step leaves an idle session idle. -/
theorem Keeps.idle {sent : List AVal} {r r' : RTMPSession} (h : Keeps r r') (hr : r.Idle sent) :
    r'.Idle sent where
  write := h.write.trans hr.write
  pending := h.pending.elim (fun he => he.trans hr.pending) id
  sent := by
    rw [h.sent]
    exact hr.sent

/-- An idle session that has not sent the publish command has published nothing. -/
theorem Idle.not_published {sent : List AVal} {r : RTMPSession} (h : r.Idle sent)
    (hpublish : avc "publish" ∉ sent) {p : AVal × Int} (hp : p ∈ r.handshakeSent) :
    p.1 ≠ avc "publish" := by
  intro hname
  rw [← hname] at hpublish
  exact hpublish (h.sent.subset (List.mem_map_of_mem hp))

/-- An idle session that has not published. -/
theorem Idle.publisher {sent : List AVal} {r : RTMPSession} (h : r.Idle sent)
    (hsent : sent.Sublist handshake) (hpublish : avc "publish" ∉ sent) : r.Publisher where
  write := h.write
  stage := by
    rw [h.pending]
    exact .settled (fun m hm => nomatch hm) (h.sent.trans hsent)
      fun hmem => absurd (h.sent.subset hmem) hpublish
  stream _ _ hp hname := absurd hname (h.not_published hpublish hp)

/-- A close that says nothing of the handshake. -/
structure Closes (r r' : RTMPSession) : Prop where
  write : r'.link.write = r.link.write
  sent : r'.handshakeSent = r.handshakeSent
  calls : r'.mMethodCalls = []
  connected : r'.connected = false

/-- A close behind such a step is one. -/
theorem Closes.keeps {r r0 r' : RTMPSession} (h : Closes r r') (hr : Keeps r0 r) :
    Keeps r0 r' where
  write := h.write.trans hr.write
  sent := h.sent.trans hr.sent
  pending := .inr (by rw [handshakePending, h.calls]; rfl)
  stream hconnected := by
    rw [h.connected] at hconnected
    cases hconnected

variable {answer : Nat → WriteStatus} {close : RTMPSession → Except Fault RTMPSession}

/-- The first call that meets a condition leaves the queue. -/
theorem handshakePending_erased {r : RTMPSession} {p : RTMPMethod → Bool} {m : RTMPMethod}
    (h : r.mMethodCalls.find? p = some m) :
    ∃ front back, r.handshakePending =
        (if m.name ∈ handshake then front ++ m.name :: back else front ++ back) ∧
      (r.erased p).handshakePending = front ++ back := by
  obtain ⟨hp, as, bs, hcalls, has⟩ := List.find?_eq_some_iff_append.mp h
  refine ⟨(as.map RTMPMethod.name).filter (· ∈ handshake),
    (bs.map RTMPMethod.name).filter (· ∈ handshake), ?_, ?_⟩
  · rw [handshakePending, hcalls, List.map_append, List.filter_append, List.map_cons]
    split
    case isTrue hm => simp only [List.filter_cons, hm, decide_true, if_true]
    case isFalse hm =>
      simp only [List.filter_cons, hm, decide_false, Bool.false_eq_true, if_false]
  · have herase : (r.erased p).mMethodCalls = as ++ bs := by
      have hnone : ∀ b ∈ as, ¬ p b = true := fun b hb => by simpa using has b hb
      rw [erased, hcalls, List.eraseP_append_right _ hnone, List.eraseP_cons_of_pos hp]
    rw [handshakePending, herase, List.map_append, List.filter_append]

/-- A list around an element that has one element is that element. -/
theorem append_cons_eq_singleton {α : Type} {front back : List α} {x y : α}
    (h : front ++ x :: back = [y]) : front = [] ∧ x = y ∧ back = [] := by
  cases front with
  | nil =>
    cases h
    exact ⟨rfl, rfl, rfl⟩
  | cons z front =>
    rw [List.cons_append, List.cons.injEq] at h
    exact absurd h.2 (List.append_ne_nil_of_right_ne_nil _ (List.cons_ne_nil _ _))

/-- Where a packet that is taken belongs to the handshake, it is sent. -/
theorem handshakeSent_taken (r : RTMPSession) (cmd : RTMPCommand) (m : RTMPMethod) :
    (r.taken cmd m).handshakeSent = r.handshakeSent ++ (handshakePart cmd).toList := by
  have hsent : (r.taken cmd m).sent = r.sent ++ [cmd] := by
    rw [taken]
    split <;> rfl
  rw [handshakeSent, hsent, List.filterMap_append]
  cases h : handshakePart cmd <;>
    simp only [List.filterMap_cons, h, List.filterMap_nil, Option.toList_none,
      Option.toList_some] <;> rfl

/-- Where it is queued, it waits for its result. -/
theorem handshakePending_taken (r : RTMPSession) (cmd : RTMPCommand) (m : RTMPMethod) :
    (r.taken cmd m).handshakePending = r.handshakePending ++
      if cmd.queue = true ∧ m.name ∈ handshake then [m.name] else [] := by
  rw [taken]
  split
  case isTrue hqueue =>
    change ((r.mMethodCalls ++ [m]).map RTMPMethod.name).filter (· ∈ handshake) = _
    rw [List.map_append, List.filter_append, List.map_singleton]
    by_cases hm : m.name ∈ handshake
    · rw [if_pos ⟨hqueue, hm⟩]
      simp only [List.filter_cons, hm, decide_true, if_true, List.filter_nil]
      rfl
    · rw [if_neg fun h => hm h.2]
      simp only [List.filter_cons, hm, decide_false, Bool.false_eq_true, if_false, List.filter_nil]
      rfl
  case isFalse hqueue =>
    rw [if_neg fun h => hqueue h.1, List.append_nil]
    rfl

/-- The session that a command function with a new transaction starts from. -/
theorem call_eq (c : Int → Invoke) (r : RTMPSession) :
    call answer close c r = put answer close (c (r.mNumInvokes + 1)).command
      { r with mNumInvokes := r.mNumInvokes + 1 } := rfl

section

variable (hclose : ∀ r r', close r = .ok r' → Closes r r')

include hclose

/-- What a command function does to the handshake. -/
theorem put_handshake {r r' : RTMPSession} {c : Invoke} {method : AVal} {v : UInt64}
    {rest : List AMFObjectProperty}
    (hargs : c.args = argString method :: argNumber v :: rest) (hmethod : method.length < 65536)
    (h : put answer close c.command r = .ok r') :
    Keeps r r' ∨ r'.link.write = r.link.write ∧ r.connected = true ∧
      r'.mStreamId = r.mStreamId ∧
      r'.handshakeSent =
        r.handshakeSent ++ (if method ∈ handshake then [(method, c.mNInfoField2)] else []) ∧
      r'.handshakePending = r.handshakePending ++
        (if c.queue = true ∧ method ∈ handshake then [method] else []) := by
  rw [put] at h
  cases hpost : r.post answer close c.command with
  | error e =>
    rw [hpost] at h
    cases h
  | ok res =>
    obtain ⟨r1, ok⟩ := res
    rw [hpost] at h
    cases h
    rcases post_cases hargs hmethod hpost with ⟨n, rfl⟩ | hsent | ⟨n, hclosed⟩
    · exact .inl ⟨rfl, rfl, .inl rfl, fun hr => ⟨hr, rfl⟩⟩
    · obtain ⟨hconnected, n, cmd, htype, hqueue, hinfo, hread, rfl⟩ := hsent
      have hpart : handshakePart cmd =
          if method ∈ handshake then some (method, c.mNInfoField2) else none := by
        rw [handshakePart, if_pos htype, hread, hinfo]
      refine .inr ⟨?_, hconnected, ?_, ?_, ?_⟩
      · rw [taken]
        split <;> rfl
      · rw [taken]
        split <;> rfl
      · rw [handshakeSent_taken, hpart]
        split <;> rfl
      · rw [handshakePending_taken, hqueue]
        rfl
    · exact .inl ((hclose _ _ hclosed).keeps ⟨rfl, rfl, .inl rfl, fun hr => ⟨hr, rfl⟩⟩)

/-- A command outside the handshake. -/
theorem keeps_put {r r' : RTMPSession} {c : Invoke} {method : AVal} {v : UInt64}
    {rest : List AMFObjectProperty}
    (hargs : c.args = argString method :: argNumber v :: rest) (hmethod : method.length < 65536)
    (hother : method ∉ handshake) (h : put answer close c.command r = .ok r') : Keeps r r' := by
  rcases put_handshake hclose hargs hmethod h with hkeeps | ⟨hwrite, hr, hid, hsent, hpending⟩
  · exact hkeeps
  · rw [if_neg hother, List.append_nil] at hsent
    rw [if_neg fun h => hother h.2, List.append_nil] at hpending
    exact ⟨hwrite, hsent, .inl hpending, fun _ => ⟨hr, hid⟩⟩

/-- A command outside the handshake, with a new transaction. -/
theorem keeps_call {r r' : RTMPSession} {c : Int → Invoke} {method : AVal} {v : Int → UInt64}
    {rest : Int → List AMFObjectProperty}
    (hargs : ∀ txn, (c txn).args = argString method :: argNumber (v txn) :: rest txn)
    (hmethod : method.length < 65536) (hother : method ∉ handshake)
    (h : call answer close c r = .ok r') : Keeps r r' := by
  rw [call_eq] at h
  have hkeeps := keeps_put hclose (hargs _) hmethod hother h
  exact ⟨hkeeps.write, hkeeps.sent, hkeeps.pending, hkeeps.stream⟩

/-- A packet that is no command. -/
theorem keeps_put_other {r r' : RTMPSession} {cmd : RTMPCommand}
    (htype : cmd.mPacketType ≠ rtmpPacketTypeInvoke) (h : put answer close (some cmd) r = .ok r') :
    Keeps r r' := by
  rw [put, post] at h
  rcases hwrites : writeChunks (r.status answer) r.writes (chunkWrites cmd.body.length)
    with ⟨_ | _ | _, n⟩
  · rw [send_other htype hwrites] at h
    cases h
    refine ⟨rfl, ?_, .inl rfl, fun hr => ⟨hr, rfl⟩⟩
    have hpart : handshakePart cmd = none := if_neg htype
    rw [handshakeSent, List.filterMap_append, List.filterMap_cons_none hpart, List.filterMap_nil,
      List.append_nil]
    rfl
  · rw [send_stopped hwrites] at h
    cases h
    exact ⟨rfl, rfl, .inl rfl, fun hr => ⟨hr, rfl⟩⟩
  · rw [send_closed hwrites] at h
    obtain ⟨⟨r1, ok⟩, hclosed, rfl⟩ := map_eq_ok h
    obtain ⟨r2, hr2, heq⟩ := map_eq_ok hclosed
    cases heq
    exact (hclose _ _ hr2).keeps ⟨rfl, rfl, .inl rfl, fun hr => ⟨hr, rfl⟩⟩

/-- A command of the handshake that waits for no result. -/
theorem idle_call {r r' : RTMPSession} {c : Int → Invoke} {method : AVal} {v : Int → UInt64}
    {rest : Int → List AMFObjectProperty} {sent : List AVal}
    (hargs : ∀ txn, (c txn).args = argString method :: argNumber (v txn) :: rest txn)
    (hmethod : method.length < 65536) (hqueue : ∀ txn, (c txn).queue = false)
    (h : call answer close c r = .ok r') (hr : r.Idle sent) : r'.Idle (sent ++ [method]) := by
  rw [call_eq] at h
  rcases put_handshake hclose (hargs _) hmethod h with hkeeps | ⟨hwrite, -, -, hsent, hpending⟩
  · have hkeeps' : Keeps r r' := ⟨hkeeps.write, hkeeps.sent, hkeeps.pending, hkeeps.stream⟩
    exact (hkeeps'.idle hr).mono (List.sublist_append_left _ _)
  · refine ⟨hwrite.trans hr.write, ?_, ?_⟩
    · rw [hpending, if_neg fun hq => Bool.false_ne_true ((hqueue _).symm.trans hq.1),
        List.append_nil]
      exact hr.pending
    · rw [hsent, List.map_append]
      refine hr.sent.append ?_
      split
      · exact List.Sublist.refl _
      · exact List.nil_sublist _

/-- A command of the handshake that waits for its result. -/
theorem awaits_call {r r' : RTMPSession} {c : Int → Invoke} {method : AVal} {v : Int → UInt64}
    {rest : Int → List AMFObjectProperty} {sent : List AVal} {info : Int}
    (hargs : ∀ txn, (c txn).args = argString method :: argNumber (v txn) :: rest txn)
    (hlen : method.length < 65536) (hmethod : method ∈ handshake)
    (hqueue : ∀ txn, (c txn).queue = true) (hinfo : ∀ txn, (c txn).mNInfoField2 = info)
    (h : call answer close c r = .ok r') (hr : r.Idle sent) :
    r'.Idle sent ∨ r'.link.write = true ∧ r'.handshakePending = [method] ∧
      r'.handshakeSent = r.handshakeSent ++ [(method, info)] ∧ r'.mStreamId = r.mStreamId := by
  rw [call_eq] at h
  rcases put_handshake hclose (hargs _) hlen h with hkeeps | ⟨hwrite, -, hid, hsent, hpending⟩
  · have hkeeps' : Keeps r r' := ⟨hkeeps.write, hkeeps.sent, hkeeps.pending, hkeeps.stream⟩
    exact .inl (hkeeps'.idle hr)
  · rw [if_pos hmethod, hinfo] at hsent
    rw [if_pos ⟨hqueue _, hmethod⟩] at hpending
    have hnone : r.handshakePending = [] := hr.pending
    refine .inr ⟨hwrite.trans hr.write, ?_, hsent, hid⟩
    exact hpending.trans (congrArg (· ++ [method]) hnone)

variable {mem : AMFMemory} {decodeTEA : AVal → AVal → AVal}

/-- The answer to a token is outside the handshake. -/
theorem keeps_answerToken {obj : List AMFObjectProperty} {r r' : RTMPSession}
    (h : answerToken mem decodeTEA answer close obj r = .ok r') : Keeps r r' := by
  rw [answerToken] at h
  split at h
  · cases h
    exact Keeps.refl r
  · split at h
    · cases h
      exact Keeps.refl r
    · obtain ⟨bv, -, h⟩ := bind_eq_ok h
      exact keeps_put hclose rfl (by decide) (by decide) h

/-- Behind the result of `connect` the stream is asked for. -/
theorem publisher_connectResult {obj : List AMFObjectProperty} {r r' : RTMPSession}
    (hr : r.Idle [avc "connect"])
    (h : connectResult mem decodeTEA answer close obj r = .ok r') : r'.Publisher := by
  rw [connectResult] at h
  obtain ⟨r1, htoken, h⟩ := bind_eq_ok h
  have h1 := (keeps_answerToken hclose htoken).idle hr
  rw [if_pos h1.write] at h
  obtain ⟨r2, hrelease, h⟩ := bind_eq_ok h
  have h2 := idle_call hclose (fun _ => rfl) (by decide) (fun _ => rfl) hrelease h1
  obtain ⟨r3, hpublish, h⟩ := bind_eq_ok h
  have h3 := idle_call hclose (fun _ => rfl) (by decide) (fun _ => rfl) hpublish h2
  have hinfo : ∀ txn, (sendCreateStream txn).mNInfoField2 = 0 := fun _ => rfl
  rcases awaits_call hclose (fun _ => rfl) (by decide) (by decide) (fun _ => rfl) hinfo h h3
    with hidle | ⟨hwrite, hpending, hsent, -⟩
  · exact hidle.publisher (List.IsPrefix.sublist ⟨[avc "createStream", avc "publish"], rfl⟩)
      (by decide)
  · have hmap : r'.handshakeSent.map Prod.fst =
        r3.handshakeSent.map Prod.fst ++ [avc "createStream"] := by
      rw [hsent, List.map_append]
      rfl
    refine ⟨hwrite, ?_, ?_⟩
    · rw [hpending, hmap]
      exact .creating (h3.sent.append (List.Sublist.refl _))
        (List.mem_append_right _ (List.mem_singleton.mpr rfl))
    · rw [hsent]
      intro _ p hp hname
      rcases List.mem_append.mp hp with hp | hp
      · exact absurd hname (h3.not_published (by decide) hp)
      · rw [List.mem_singleton.mp hp] at hname
        exact absurd hname (by decide)

/-- Behind the result of `createStream` the stream is published. -/
theorem publisher_createStreamResult {obj : List AMFObjectProperty} {r r' : RTMPSession}
    (hr : r.Idle [avc "connect", avc "releaseStream", avc "FCPublish", avc "createStream"])
    (hcreate : avc "createStream" ∈ r.handshakeSent.map Prod.fst)
    (h : createStreamResult mem answer close obj r = .ok r') : r'.Publisher := by
  rw [createStreamResult] at h
  obtain ⟨p, -, h⟩ := bind_eq_ok h
  dsimp only at h
  rw [if_pos hr.write] at h
  have hr' : Idle _ { r with mStreamId := Double.truncate (p.getNumber mem) } :=
    ⟨hr.write, hr.pending, hr.sent⟩
  have hinfo : ∀ txn, (sendPublish r.link (Double.truncate (p.getNumber mem)) txn).mNInfoField2 =
      Double.truncate (p.getNumber mem) := fun _ => rfl
  rcases awaits_call hclose (fun _ => rfl) (by decide) (by decide) (fun _ => rfl) hinfo h hr'
    with hidle | ⟨hwrite, hpending, hsent, hid⟩
  · exact hidle.publisher (List.IsPrefix.sublist ⟨[avc "publish"], rfl⟩) (by decide)
  · have hmap : r'.handshakeSent.map Prod.fst =
        r.handshakeSent.map Prod.fst ++ [avc "publish"] := by
      rw [hsent, List.map_append]
      rfl
    refine ⟨hwrite, ?_, ?_⟩
    · rw [hpending, hmap]
      exact .settled (fun m hm => List.mem_singleton.mp hm)
        (hr.sent.append (List.Sublist.refl _)) fun _ => List.mem_append_left _ hcreate
    · rw [hsent, hid]
      intro _ p hp hname
      rcases List.mem_append.mp hp with hp | hp
      · exact absurd hname (hr'.not_published (by decide) hp)
      · rw [List.mem_singleton.mp hp]

omit hclose in
/-- The call of `publish` may leave the queue. -/
theorem publisher_erased {r : RTMPSession} {p : RTMPMethod → Bool} {m : RTMPMethod}
    (hr : r.Publisher) (hfind : r.mMethodCalls.find? p = some m)
    (hname : m.name = avc "publish") : (r.erased p).Publisher := by
  obtain ⟨front, back, hpending, herased⟩ := handshakePending_erased hfind
  rw [if_pos (by rw [hname]; decide), hname] at hpending
  refine ⟨hr.write, ?_, hr.stream⟩
  have hstage := hr.stage
  rw [herased]
  rw [hpending] at hstage
  change HandshakeStage _ (r.handshakeSent.map Prod.fst)
  refine hstage.settle fun n hn => ?_
  generalize hall : front ++ avc "publish" :: back = pending at hstage
  generalize r.handshakeSent.map Prod.fst = sent at hstage
  cases hstage with
  | connecting =>
    obtain ⟨-, habsurd, -⟩ := append_cons_eq_singleton hall
    exact absurd habsurd (by decide)
  | creating =>
    obtain ⟨-, habsurd, -⟩ := append_cons_eq_singleton hall
    exact absurd habsurd (by decide)
  | settled hpublish =>
    refine hpublish n ?_
    rw [← hall]
    rcases List.mem_append.mp hn with hn | hn
    · exact List.mem_append_left _ hn
    · exact List.mem_append_right _ (List.mem_cons_of_mem _ hn)

omit hclose in
/-- So may any call outside the handshake. -/
theorem keeps_erased {r : RTMPSession} {p : RTMPMethod → Bool}
    (hother : ∀ m, p m = true → m.name ∉ handshake) : Keeps r (r.erased p) := by
  refine ⟨rfl, rfl, .inl ?_, fun hc => ⟨hc, rfl⟩⟩
  cases hfind : r.mMethodCalls.find? p with
  | none =>
    have hnone : ∀ m ∈ r.mMethodCalls, ¬ p m = true := List.find?_eq_none.mp hfind
    rw [handshakePending, erased, List.eraseP_of_forall_not hnone]
    rfl
  | some m =>
    obtain ⟨front, back, hpending, herased⟩ := handshakePending_erased hfind
    rw [if_neg (hother m (List.find?_some hfind))] at hpending
    rw [herased, hpending]

/-- A result is taken for the call that waits for it, if the handshake has come to it. -/
theorem publisher_handleResult {obj : List AMFObjectProperty} {txn : Int} {r r' : RTMPSession}
    (hr : r.Publisher) (h : handleResult mem decodeTEA answer close obj txn r = .ok r') :
    r'.Publisher := by
  rw [handleResult] at h
  cases hfind : r.mMethodCalls.find? fun m => m.num = txn with
  | none =>
    rw [hfind] at h
    cases h
    exact hr
  | some m =>
    rw [hfind] at h
    dsimp only at h
    obtain ⟨front, back, hpending, herased⟩ := handshakePending_erased hfind
    by_cases hm : m.name ∈ handshake
    · rw [if_pos hm] at hpending
      have hstage := hr.stage
      generalize hsent : r.handshakeSent.map Prod.fst = sent at hstage
      rw [hpending] at hstage
      generalize hall : front ++ m.name :: back = pending at hstage
      cases hstage with
      | connecting =>
        obtain ⟨rfl, hname, rfl⟩ := append_cons_eq_singleton hall
        rw [if_pos hname] at h
        have hsub : (r.handshakeSent.map Prod.fst).Sublist [avc "connect"] :=
          hsent ▸ List.Sublist.refl _
        have hidle : Idle [avc "connect"] (r.erased fun m => m.num = txn) :=
          ⟨hr.write, herased, hsub⟩
        exact publisher_connectResult hclose hidle h
      | creating hsub hcreate =>
        obtain ⟨rfl, hname, rfl⟩ := append_cons_eq_singleton hall
        rw [if_neg (by rw [hname]; decide), if_pos hname] at h
        rw [← hsent] at hsub hcreate
        have hidle : Idle _ (r.erased fun m => m.num = txn) := ⟨hr.write, herased, hsub⟩
        exact publisher_createStreamResult hclose hidle hcreate h
      | settled hpublish hsub hcreate =>
        have hname : m.name = avc "publish" := by
          refine hpublish _ ?_
          rw [← hall]
          exact List.mem_append_right _ List.mem_cons_self
        rw [if_neg (by rw [hname]; decide), if_neg (by rw [hname]; decide),
          if_pos (.inr hname)] at h
        cases h
        have herase := publisher_erased hr hfind hname
        exact ⟨herase.write, herase.stage, herase.stream⟩
    · rw [if_neg hm] at hpending
      have hkeeps : Keeps r (r.erased fun m => m.num = txn) :=
        ⟨rfl, rfl, .inl (herased.trans hpending.symm), fun hc => ⟨hc, rfl⟩⟩
      have hno : ∀ n ∈ handshake, m.name ≠ n := fun n hn he => hm (he ▸ hn)
      rw [if_neg (hno _ (by decide)), if_neg (hno _ (by decide))] at h
      split at h
      · cases h
        have hplays : Keeps (r.erased fun m => m.num = txn)
            { r.erased (fun m => m.num = txn) with mBPlaying := true } :=
          ⟨rfl, rfl, .inl rfl, fun hc => ⟨hc, rfl⟩⟩
        exact (hkeeps.trans hplays).publisher hr
      · cases h
        exact hkeeps.publisher hr

omit hclose in
/-- The call of `publish` may leave the queue. -/
theorem publisher_erased_publish {r : RTMPSession} (hr : r.Publisher) :
    (r.erased fun m => m.name = avc "publish").Publisher := by
  cases hfind : r.mMethodCalls.find? fun m => m.name = avc "publish" with
  | none =>
    have hnone : ∀ m ∈ r.mMethodCalls, ¬ decide (m.name = avc "publish") = true :=
      List.find?_eq_none.mp hfind
    rw [erased, List.eraseP_of_forall_not hnone]
    exact hr
  | some m =>
    have hname : decide (m.name = avc "publish") = true :=
      List.find?_some (p := fun m : RTMPMethod => decide (m.name = avc "publish")) hfind
    exact publisher_erased hr hfind (of_decide_eq_true hname)

/-- A status closes the stream, or says that it is published, or changes nothing here. -/
theorem publisher_handleStatus {obj : List AMFObjectProperty} {r : RTMPSession}
    {res : RTMPSession × Nat} (hr : r.Publisher)
    (h : handleStatus mem answer close obj r = .ok res) : res.1.Publisher := by
  rw [handleStatus] at h
  obtain ⟨p, -, h⟩ := bind_eq_ok h
  obtain ⟨obj2, -, h⟩ := bind_eq_ok h
  obtain ⟨code, -, h⟩ := bind_eq_ok h
  obtain ⟨level, -, h⟩ := bind_eq_ok h
  split at h
  · obtain ⟨r', hclosed, h⟩ := bind_eq_ok h
    cases h
    have hc : Closes r r' := by
      have hc' := hclose _ _ hclosed
      exact ⟨hc'.write, hc'.sent, hc'.calls, hc'.connected⟩
    exact (hc.keeps (Keeps.refl r)).publisher hr
  split at h
  · cases h
    have hplays : Keeps r { r with mBPlaying := true } :=
      ⟨rfl, rfl, .inl rfl, fun hc => ⟨hc, rfl⟩⟩
    refine (hplays.trans (keeps_erased fun m hm => ?_)).publisher hr
    rw [of_decide_eq_true hm]
    decide
  split at h
  · cases h
    have hplays : ({ r with mBPlaying := true } : RTMPSession).Publisher :=
      ⟨hr.write, hr.stage, hr.stream⟩
    exact publisher_erased_publish hplays
  split at h
  · obtain ⟨r', hclosed, h⟩ := bind_eq_ok h
    cases h
    exact ((hclose _ _ hclosed).keeps (Keeps.refl r)).publisher hr
  split at h
  · split at h
    · obtain ⟨r', hcall, h⟩ := bind_eq_ok h
      cases h
      have hkeeps := keeps_call hclose (fun _ => rfl) (by decide) (by decide) hcall
      have hpaused : Keeps r' { r' with mPausing := 3 } :=
        ⟨rfl, rfl, .inl rfl, fun hc => ⟨hc, rfl⟩⟩
      exact (hkeeps.trans hpaused).publisher hr
    · cases h
      exact hr
  · cases h
    exact hr

/-- The other methods of the peer say nothing of the handshake. -/
theorem keeps_handleMethod {method : AVal} {txn : Int} {r : RTMPSession}
    {res : RTMPSession × Nat} (h : handleMethod answer close method txn r = .ok res) :
    Keeps r res.1 := by
  rw [handleMethod] at h
  split at h
  · split at h
    · obtain ⟨r', hcall, rfl⟩ := map_eq_ok h
      exact keeps_call hclose (fun _ => rfl) (by decide) (by decide) hcall
    · cases h
      exact Keeps.refl r
  split at h
  · obtain ⟨r', hclosed, rfl⟩ := map_eq_ok h
    exact (hclose _ _ hclosed).keeps (Keeps.refl r)
  split at h
  · obtain ⟨r', hput, rfl⟩ := map_eq_ok h
    exact keeps_put hclose rfl (by decide) (by decide) hput
  split at h
  · obtain ⟨r', hput, rfl⟩ := map_eq_ok h
    have hkeeps := keeps_put hclose rfl (by decide) (by decide) hput
    exact ⟨hkeeps.write, hkeeps.sent, hkeeps.pending, hkeeps.stream⟩
  split at h
  · cases h
    refine keeps_erased fun m hm => ?_
    rw [of_decide_eq_true hm]
    decide
  split at h
  · obtain ⟨r', hclosed, rfl⟩ := map_eq_ok h
    exact (hclose _ _ hclosed).keeps (Keeps.refl r)
  split at h
  · cases h
    refine keeps_erased fun m hm => ?_
    rw [of_decide_eq_true hm]
    decide
  · cases h
    exact Keeps.refl r

variable {amf3Decode : List UInt8 → Int → Except Fault (AMFAnswer (List AMFObjectProperty))}

/-- Every invoke packet of the peer keeps the invariant. -/
theorem publisher_handleInvoke {body : List UInt8} {r : RTMPSession} {res : RTMPSession × Nat}
    (hr : r.Publisher)
    (h : handleInvoke amf3Decode mem decodeTEA answer close body r = .ok res) :
    res.1.Publisher := by
  rw [handleInvoke] at h
  obtain ⟨first, -, h⟩ := bind_eq_ok h
  split at h
  · cases h
    exact hr
  obtain ⟨decoded, -, h⟩ := bind_eq_ok h
  split at h
  · cases h
    exact hr
  · obtain ⟨named, -, h⟩ := bind_eq_ok h
    obtain ⟨method, -, h⟩ := bind_eq_ok h
    obtain ⟨numbered, -, h⟩ := bind_eq_ok h
    dsimp only at h
    split at h
    · obtain ⟨r', hresult, h⟩ := bind_eq_ok h
      cases h
      exact publisher_handleResult hclose hr hresult
    split at h
    · exact publisher_handleStatus hclose hr h
    · exact (keeps_handleMethod hclose h).publisher hr

/-- A control packet is outside the handshake. -/
theorem keeps_handleCtrl {body : List UInt8} {mediaTime : Int} {r r' : RTMPSession}
    (h : handleCtrl answer close body mediaTime r = .ok r') : Keeps r r' := by
  have hpause : ∀ {r r' r'' : RTMPSession} {now n : Int} {pause : Bool}, Keeps r'' r →
      call answer close (sendPause pause now) r = .ok r' →
        Keeps r'' { r' with mPausing := n } := by
    intro r r' r'' now n pause hkeeps hcall
    have hcalled := hkeeps.trans
      (keeps_call hclose (fun _ => rfl) (by decide) (by decide) hcall)
    exact ⟨hcalled.write, hcalled.sent, hcalled.pending, hcalled.stream⟩
  rw [handleCtrl] at h
  split at h
  · cases h
    exact Keeps.refl r
  obtain ⟨nType, -, h⟩ := bind_eq_ok h
  obtain ⟨tmp, -, h⟩ := bind_eq_ok h
  split at h
  · cases h
    split
    · exact ⟨rfl, rfl, .inl rfl, fun hc => ⟨hc, rfl⟩⟩
    · exact Keeps.refl r
  split at h
  · have htype : (sendCtrl 7 tmp 0).mPacketType ≠ rtmpPacketTypeInvoke := by
      have htype' : (sendCtrl 7 tmp 0).mPacketType = 0x04 := rfl
      rw [htype']
      decide
    exact keeps_put_other hclose htype h
  split at h
  · split at h
    · obtain ⟨r1, hcall, h⟩ := bind_eq_ok h
      cases h
      have hstamped : Keeps r { r with mPauseStamp := mediaTime } :=
        ⟨rfl, rfl, .inl rfl, fun hc => ⟨hc, rfl⟩⟩
      exact hpause hstamped hcall
    split at h
    · obtain ⟨r1, hcall, h⟩ := bind_eq_ok h
      cases h
      exact hpause (Keeps.refl r) hcall
    · cases h
      exact Keeps.refl r
  · cases h
    exact Keeps.refl r

/-- Every packet of the peer keeps the invariant. -/
theorem publisher_rtmpClientPacket {packet : PeerPacket} {r r' : RTMPSession} (hr : r.Publisher)
    (h : rtmpClientPacket amf3Decode mem decodeTEA answer close packet r = .ok r') :
    r'.Publisher := by
  rw [rtmpClientPacket] at h
  split at h
  · exact (keeps_handleCtrl hclose h).publisher hr
  split at h
  · obtain ⟨n, -, rfl⟩ := map_eq_ok h
    exact ⟨hr.write, hr.stage, hr.stream⟩
  split at h
  · obtain ⟨n, -, rfl⟩ := map_eq_ok h
    exact hr
  split at h
  · obtain ⟨res, hinvoke, rfl⟩ := map_eq_ok h
    exact publisher_handleInvoke hclose hr hinvoke
  split at h
  · obtain ⟨res, hinvoke, rfl⟩ := map_eq_ok h
    exact publisher_handleInvoke hclose hr hinvoke
  · cases h
    exact hr

/-- What one packet of the peer keeps. -/
theorem publisher_connectStreamStep {packet : PeerPacket} {r r' : RTMPSession}
    (hr : r.Publisher)
    (h : connectStreamStep amf3Decode mem decodeTEA answer close r packet = .ok r') :
    r'.Publisher := by
  rw [connectStreamStep] at h
  split at h
  · cases h
    exact hr
  split at h
  · cases h
    exact hr
  split at h
  · cases h
    exact hr
  · exact publisher_rtmpClientPacket hclose hr h

/-- What all of them keep. -/
theorem publisher_connectStream {packets : List PeerPacket} {r r' : RTMPSession}
    (hr : r.Publisher)
    (h : connectStream amf3Decode mem decodeTEA answer close packets r = .ok r') :
    r'.Publisher := by
  induction packets generalizing r with
  | nil =>
    cases h
    exact hr
  | cons packet packets ih =>
    rw [connectStream, List.foldlM_cons] at h
    obtain ⟨r1, hstep, h⟩ := bind_eq_ok h
    exact ih (publisher_connectStreamStep hclose hr hstep) h

/-- One level of the close says nothing of the handshake, if the deeper ones do not. -/
theorem closes_closeWith {r r' : RTMPSession} (h : r.closeWith answer close = .ok r') :
    Closes r r' := by
  have hdelete : ∀ {r1 r' : RTMPSession} {i : Int}, Keeps r r1 → (do
      let (r2, _) ← { r1 with mStreamId := 0 }.invoke answer close
        (sendDeleteStream (Double.ofInt i))
      return r2.closed : Except Fault RTMPSession) = .ok r' → Closes r r' := by
    intro r1 r' i hkeeps h
    obtain ⟨⟨r2, ok⟩, hinvoke, h⟩ := bind_eq_ok h
    cases h
    have hcall : call answer close (sendDeleteStream (Double.ofInt i))
        { r1 with mStreamId := 0 } = .ok r2 := by
      rw [call, hinvoke]
      rfl
    have hdeleted := keeps_call hclose (fun _ => rfl) (by decide) (by decide) hcall
    exact ⟨hdeleted.write.trans hkeeps.write, hdeleted.sent.trans hkeeps.sent, rfl, rfl⟩
  by_cases hstream : r.connected = true ∧ 0 < r.mStreamId
  · by_cases hwrite : r.link.write = true
    · rw [closeWith_of_write hstream hwrite] at h
      obtain ⟨⟨r1, ok⟩, hinvoke, h⟩ := bind_eq_ok h
      have hcall : call answer close (sendFCUnpublish r.link) r = .ok r1 := by
        rw [call, hinvoke]
        rfl
      exact hdelete (keeps_call hclose (fun _ => rfl) (by decide) (by decide) hcall) h
    · rw [closeWith_of_read hstream hwrite] at h
      exact hdelete (Keeps.refl r) h
  · rw [closeWith, if_neg hstream] at h
    cases h
    exact ⟨rfl, rfl, rfl, rfl⟩

/-- The command of `RTMP_Connect1`. -/
theorem publisher_connect {link : RTMPLink} {r : RTMPSession}
    (h : call answer close (sendConnectPacket (fresh link).link) (fresh link) = .ok r) :
    r.Publisher := by
  have hfresh : (fresh link).Idle [] := ⟨rfl, rfl, List.Sublist.refl _⟩
  have hinfo : ∀ txn, (sendConnectPacket (fresh link).link txn).mNInfoField2 = 0 := fun _ => rfl
  rcases awaits_call hclose (fun _ => rfl) (by decide) (by decide) (fun _ => rfl) hinfo h hfresh
    with hidle | ⟨hwrite, hpending, hsent, -⟩
  · exact hidle.publisher (List.nil_sublist _) (by decide)
  · refine ⟨hwrite, ?_, ?_⟩
    · rw [hpending, hsent]
      exact .connecting
    · rw [hsent]
      intro _ p hp hname
      rw [List.mem_singleton.mp hp] at hname
      exact absurd hname (by decide)

/-- What a stream that is opened, or could not be, leaves. -/
theorem publisher_openStream {packets : List PeerPacket} {link : RTMPLink} {r : RTMPSession}
    {ok : Bool}
    (h : openStream amf3Decode mem decodeTEA answer close packets (fresh link) = .ok (r, ok)) :
    r.Publisher := by
  rw [openStream] at h
  obtain ⟨⟨r1, sent⟩, hinvoke, h⟩ := bind_eq_ok h
  have hcall : call answer close (sendConnectPacket (fresh link).link) (fresh link) = .ok r1 := by
    rw [call, hinvoke]
    rfl
  have h1 := publisher_connect hclose hcall
  have hended : ∀ r2 : RTMPSession, r2.Publisher →
      (if sent = true ∧ r2.mBPlaying = true then Except.ok (r2, true)
        else do return (← close r2, false)) = .ok (r, ok) → r.Publisher := by
    intro r2 h2 h
    split at h
    · cases h
      exact h2
    · obtain ⟨r3, hclosed, h⟩ := bind_eq_ok h
      cases h
      exact ((hclose _ _ hclosed).keeps (Keeps.refl r2)).publisher h2
  dsimp only at h
  split at h
  · obtain ⟨r2, hstream, h⟩ := bind_eq_ok h
    exact hended r2 (publisher_connectStream hclose h1 hstream) h
  · exact hended r1 h1 h

end

/-- `RTMP_Close` says nothing of the handshake, however deep it goes. -/
theorem closes_rtmpClose {depth : Nat} {r r' : RTMPSession}
    (h : rtmpClose answer depth r = .ok r') : Closes r r' := by
  induction depth generalizing r r' with
  | zero => cases h
  | succ depth ih => exact closes_closeWith (fun _ _ => ih) h

/-- Whatever the peer sends and however the writes end, the commands that open a stream for
writing go out in their order and once each; the stream is published behind the result of
`createStream`, and under the number that the media packets carry. -/
theorem openStream_handshake
    {amf3Decode : List UInt8 → Int → Except Fault (AMFAnswer (List AMFObjectProperty))}
    {mem : AMFMemory} {decodeTEA : AVal → AVal → AVal} {answer : Nat → WriteStatus}
    {depth : Nat} {packets : List PeerPacket} {link : RTMPLink} {r : RTMPSession} {ok : Bool}
    (h : openStream amf3Decode mem decodeTEA answer (rtmpClose answer depth) packets
      (fresh link) = .ok (r, ok)) :
    (r.handshakeSent.map Prod.fst).Sublist handshake ∧
      (avc "publish" ∈ r.handshakeSent.map Prod.fst →
        avc "createStream" ∈ r.handshakeSent.map Prod.fst ∧
          ∀ m ∈ r.handshakePending, m = avc "publish") ∧
      (r.connected = true →
        ∀ p ∈ r.handshakeSent, p.1 = avc "publish" → p.2 = r.mStreamId) := by
  have hr : r.Publisher := publisher_openStream (fun _ _ => closes_rtmpClose) h
  refine ⟨?_, ?_, hr.stream⟩
  · exact hr.stage.sublist
  · exact hr.stage.published

/-- An invoke packet of the peer. -/
def peerInvoke (args : List AMFObjectProperty) : PeerPacket where
  mPacketType := rtmpPacketTypeInvoke
  body := (encodeAll amfEncodeArg 256 args).getD []
  mediaTime := 0

/-- A server that answers what it is asked. -/
def serverPackets : List PeerPacket :=
  [peerInvoke [argString (avc "_result"), argNumber (Double.ofNat 1), .null [], .null []],
    peerInvoke [argString (avc "onBWDone"), argNumber (Double.ofNat 0)],
    peerInvoke [argString (avc "_result"), argNumber (Double.ofNat 4), .null [],
      argNumber (Double.ofNat 1)],
    peerInvoke [argString (avc "_result"), argNumber (Double.ofNat 6), .null [], .null []]]

/-- How a stream is opened there. -/
def serverRun : Except Fault (RTMPSession × Bool) :=
  openStream (fun _ _ => .ok none) ⟨.invalid, fun _ => 0, fun _ => .ok [], fun _ => .ok []⟩
    (fun _ bv => bv) (fun _ => .done) (rtmpClose (fun _ => .done) 2) serverPackets
    (fresh rtmpInit)

/-- All the commands are sent there, and the stream is open. -/
theorem openStream_handshake_sample :
    ∃ r, serverRun = .ok (r, true) ∧ r.handshakeSent.map Prod.fst = handshake ∧
      ∀ p ∈ r.handshakeSent, p.1 = avc "publish" → p.2 = r.mStreamId := by
  have hresult : serverRun.map (fun x => (x.1.handshakeSent.map Prod.fst, x.1.connected, x.2)) =
      .ok (handshake, true, true) := rfl
  obtain ⟨⟨r, ok⟩, hrun, hr⟩ := map_eq_ok hresult
  obtain ⟨hsent, hconnected, rfl⟩ : r.handshakeSent.map Prod.fst = handshake ∧
      r.connected = true ∧ ok = true := by
    rw [Prod.mk.injEq, Prod.mk.injEq] at hr
    exact hr
  exact ⟨r, hrun, hsent, (openStream_handshake hrun).2.2 hconnected⟩

end RTMPSession

end Jrtplib4Android
