import Jrtplib4Android.Rtmp.Commands

/-!
# RTMP sessions

What the client does with the commands of its peer: `RTMP_ClientPacket` and `HandleInvoke`
of `rtmp.c`, with the queue of remote calls that wait for a result. A packet is written chunk
by chunk, and `answer` says how the n-th call of `WriteN` ends; the recursion of `RTMP_Close`,
which sends and is called by a write that fails, is bounded by a depth.

What a decoder leaves undefined is a parameter: `AMFMemory` says what is read in the slot
behind the last property and from a member of the union that was not written.
-/

namespace Jrtplib4Android

open CSem

/-- What is read where nothing was written. -/
structure AMFMemory where
  slot : AMFObjectProperty
  number : AMFObjectProperty → UInt64
  aval : AMFObjectProperty → Except Fault AVal
  object : AMFObjectProperty → Except Fault (List AMFObjectProperty)

namespace AMFObjectProperty

/-- `AMFProp_GetName`. -/
def name : AMFObjectProperty → AVal
  | .invalid => []
  | .number p_name _ | .boolean p_name _ | .string p_name _ | .object p_name _ | .null p_name
  | .date p_name _ _ => p_name

/-- `AMFProp_GetNumber`; the invalid property is all zero. -/
def getNumber (mem : AMFMemory) : AMFObjectProperty → UInt64
  | .number _ v | .boolean _ v | .date _ v _ => v
  | .invalid => 0
  | p => mem.number p

/-- `AMFProp_GetString`. -/
def getString (mem : AMFMemory) : AMFObjectProperty → Except Fault AVal
  | .string _ bv => .ok bv
  | .invalid => .ok []
  | p => mem.aval p

/-- `AMFProp_GetObject`. -/
def getObject (mem : AMFMemory) : AMFObjectProperty → Except Fault (List AMFObjectProperty)
  | .object _ o => .ok o
  | .invalid => .ok []
  | p => mem.object p

end AMFObjectProperty

/-- `AMF_GetProp` by index, which looks one property too far; `o_props` is `NULL` in an empty
object. -/
def amfGetPropAt (mem : AMFMemory) (o : List AMFObjectProperty) (nIndex : Nat) :
    Except Fault AMFObjectProperty :=
  if nIndex < o.length then .ok (o.getD nIndex .invalid)
  else if nIndex = o.length then if o.isEmpty then .error .null else .ok mem.slot
  else .ok .invalid

/-- `AMF_GetProp` by name. -/
def amfGetPropNamed (o : List AMFObjectProperty) (name : AVal) : AMFObjectProperty :=
  (o.find? fun p => p.name = name).getD .invalid

mutual

/-- The property or one inside it with the name. -/
def amfFindIn (name : AVal) : AMFObjectProperty → Option AMFObjectProperty
  | .object p_name o =>
    if p_name = name then some (.object p_name o) else rtmpFindFirstMatchingProperty name o
  | p => if p.name = name then some p else none

/-- `RTMP_FindFirstMatchingProperty`. -/
def rtmpFindFirstMatchingProperty (name : AVal) :
    List AMFObjectProperty → Option AMFObjectProperty
  | [] => none
  | p :: ps =>
    match amfFindIn name p with
    | some q => some q
    | none => rtmpFindFirstMatchingProperty name ps

end

/-- `RTMP_METHOD`. -/
structure RTMPMethod where
  name : AVal
  num : Int
  deriving DecidableEq

/-- The members of `RTMP` that the handlers use, how often `WriteN` was called, and the packets
that were written whole. -/
structure RTMPSession where
  link : RTMPLink
  connected : Bool
  mStreamId : Int
  mBPlaying : Bool
  mNumInvokes : Int
  mMethodCalls : List RTMPMethod
  mNBWCheckCounter : Int
  mPausing : Int
  mPauseStamp : Int
  writes : Nat
  sent : List RTMPCommand

/-- The method of an invoke packet and its transaction, as `RTMP_SendPacket` reads them. -/
def queuedMethod (body : List UInt8) : Except Fault RTMPMethod := do
  let method ← amfDecodeAVal 2 (body.drop 1)
  let v ← amfDecodeNumber (body.drop (1 + (3 + method.length)))
  return ⟨method, Double.truncate v⟩

/-- The calls of `WriteN` for a body: one for each chunk of `RTMP_DEFAULT_CHUNKSIZE` bytes, and
one for the header alone. -/
def chunkWrites (nBodySize : Nat) : Nat := max 1 ((nBodySize + 127) / 128)

/-- The calls of `WriteN` for a packet, of which the first has the number `n`, up to one that
fails: how the last one ends, and the number of the next. -/
def writeChunks (write : Nat → WriteStatus) : Nat → Nat → WriteStatus × Nat
  | n, 0 => (.done, n)
  | n, k + 1 =>
    match write n with
    | .done => writeChunks write (n + 1) k
    | .stopped => (.stopped, n + 1)
    | .closed => (.closed, n + 1)

namespace RTMPSession

/-- What `RTMP_Close` leaves. The play path is not given up here, though `Link.playpath0`, which
has its bytes, is freed. -/
def closed (r : RTMPSession) : RTMPSession :=
  { r with
    connected := false
    mStreamId := -1
    mBPlaying := false
    mNumInvokes := 0
    mMethodCalls := []
    mNBWCheckCounter := 0 }

/-- `AV_erase` of the first call that meets the condition. -/
def erased (r : RTMPSession) (p : RTMPMethod → Bool) : RTMPSession :=
  { r with mMethodCalls := r.mMethodCalls.eraseP p }

/-- `AV_queue`. -/
def queued (r : RTMPSession) (m : RTMPMethod) : RTMPSession :=
  { r with mMethodCalls := r.mMethodCalls ++ [m] }

section

-- how the calls of `WriteN` end on an open socket, and `RTMP_Close`
variable (answer : Nat → WriteStatus) (close : RTMPSession → Except Fault RTMPSession)

/-- How a call of `WriteN` ends. A write to a closed socket fails. -/
def status (r : RTMPSession) (n : Nat) : WriteStatus := if r.connected then answer n else .closed

/-- The session once the calls of `WriteN` before `n` are made. -/
def wrote (r : RTMPSession) (n : Nat) : RTMPSession := { r with writes := n }

/-- `RTMP_SendPacket`, chunk by chunk up to a write that fails. -/
def send (r : RTMPSession) (cmd : RTMPCommand) : Except Fault (RTMPSession × Bool) := do
  let (status, n) := writeChunks (r.status answer) r.writes (chunkWrites cmd.body.length)
  let r := r.wrote n
  match status with
  | .closed => return (← close r, false)
  | .stopped => return (r, false)
  | .done =>
    let r := { r with sent := r.sent ++ [cmd] }
    if cmd.mPacketType = rtmpPacketTypeInvoke then
      let method ← queuedMethod cmd.body
      return (if cmd.queue then r.queued method else r, true)
    return (r, true)

/-- A command function that has filled its packet, or could not. -/
def post (r : RTMPSession) : Option RTMPCommand → Except Fault (RTMPSession × Bool)
  | none => .ok (r, false)
  | some cmd => r.send answer close cmd

/-- A command function that takes a new transaction number. -/
def invoke (r : RTMPSession) (c : Int → Invoke) : Except Fault (RTMPSession × Bool) :=
  { r with mNumInvokes := r.mNumInvokes + 1 }.post answer close (c (r.mNumInvokes + 1)).command

/-- One level of `RTMP_Close`. -/
def closeWith (r : RTMPSession) : Except Fault RTMPSession := do
  if r.connected ∧ 0 < r.mStreamId then
    let mut r := r
    if r.link.write then
      r := (← r.invoke answer close (sendFCUnpublish r.link)).1
    let i := r.mStreamId
    let (r', _) ← { r with mStreamId := 0 }.invoke answer close (sendDeleteStream (Double.ofInt i))
    return r'.closed
  return r.closed

end

/-- `RTMP_Close`. -/
def rtmpClose (answer : Nat → WriteStatus) : Nat → RTMPSession → Except Fault RTMPSession
  | 0, _ => .error .spin
  | depth + 1, r => r.closeWith answer (rtmpClose answer depth)

end RTMPSession

/-- The packet of a command carries its fields, and `RTMP_SendPacket` finds its name and its
transaction. -/
theorem Invoke.command_fields {c : Invoke} {method : AVal} {v : UInt64}
    {rest : List AMFObjectProperty} (hargs : c.args = argString method :: argNumber v :: rest)
    (hmethod : method.length < 65536) {cmd : RTMPCommand} (h : c.command = some cmd) :
    cmd.mPacketType = rtmpPacketTypeInvoke ∧ cmd.queue = c.queue ∧
      cmd.mNInfoField2 = c.mNInfoField2 ∧
      queuedMethod cmd.body = .ok ⟨method, Double.truncate v⟩ := by
  rw [Invoke.command, hargs, Option.bind_eq_bind, Option.bind_eq_some_iff] at h
  obtain ⟨bs, hbs, h⟩ := h
  obtain ⟨more, hmore, h⟩ := Option.bind_eq_some_iff.mp h
  cases h
  refine ⟨rfl, rfl, rfl, ?_⟩
  rw [encodeAll, Option.bind_eq_bind, Option.bind_eq_some_iff] at hbs
  obtain ⟨xs, hxs, hbs⟩ := hbs
  obtain ⟨ys, hys, hbs⟩ := Option.bind_eq_some_iff.mp hbs
  cases hbs
  rw [encodeAll, Option.bind_eq_bind, Option.bind_eq_some_iff] at hys
  obtain ⟨zs, hzs, hys⟩ := hys
  obtain ⟨ws, hws, hys⟩ := Option.bind_eq_some_iff.mp hys
  cases hys
  obtain ⟨-, rfl⟩ := amfEncodeString_eq_some.mp hxs
  obtain ⟨-, rfl⟩ := amfEncodeNumber_eq_some.mp hzs
  rw [if_pos hmethod]
  have hbody : ∀ tail : List UInt8,
      queuedMethod (AMFDataType.string.code :: (beBytes 2 method.length ++ (method ++
        AMFDataType.number.code :: (beBytes 8 v.toNat ++ tail)))) =
          .ok ⟨method, Double.truncate v⟩ := by
    intro tail
    have hnumber : (AMFDataType.string.code :: (beBytes 2 method.length ++ (method ++
        AMFDataType.number.code :: (beBytes 8 v.toNat ++ tail)))).drop
          (1 + (3 + method.length)) = beBytes 8 v.toNat ++ tail := by
      rw [show 1 + (3 + method.length) = (2 + (method.length + 1)) + 1 by omega,
        List.drop_succ_cons, ← List.drop_drop, List.drop_left' (length_beBytes 2 _),
        ← List.drop_drop, List.drop_left, List.drop_one, List.tail_cons]
    rw [queuedMethod, List.drop_one, List.tail_cons,
      amfDecodeAVal_append (show _ < 256 ^ 2 from hmethod)]
    simp only [bind, Except.bind, hnumber, amfDecodeNumber_beBytes, pure, Except.pure]
  have heq := hbody (ws ++ more)
  simpa only [List.cons_append, List.append_assoc] using heq

/-- Arguments that fit are the body, with the properties behind them. -/
theorem Invoke.command_body {c : Invoke} {bs more : List UInt8}
    (hargs : encodeAll amfEncodeArg (c.size - rtmpMaxHeaderSize) c.args = some bs)
    (hextras : encodeAll amfPropEncode (c.size - rtmpMaxHeaderSize - bs.length) c.extras =
      some more) :
    ∃ cmd, c.command = some cmd ∧ cmd.body = bs ++ more := by
  rw [Invoke.command, hargs, Option.bind_eq_bind, Option.bind_some, hextras]
  exact ⟨_, rfl, rfl⟩

/-- Either all calls of `WriteN` are done, or they end with the first that is not. -/
theorem writeChunks_cases (write : Nat → WriteStatus) (n k : Nat) :
    (∀ i < k, write (n + i) = .done) ∧ writeChunks write n k = (.done, n + k) ∨
      ∃ j < k, (∀ i < j, write (n + i) = .done) ∧ write (n + j) ≠ .done ∧
        writeChunks write n k = (write (n + j), n + j + 1) := by
  induction k generalizing n with
  | zero => exact .inl ⟨fun i hi => absurd hi (Nat.not_lt_zero i), rfl⟩
  | succ k ih =>
    have hfails : ∀ status, write n = status → status ≠ .done →
        writeChunks write n (k + 1) = (status, n + 1) →
        ∃ j < k + 1, (∀ i < j, write (n + i) = .done) ∧ write (n + j) ≠ .done ∧
          writeChunks write n (k + 1) = (write (n + j), n + j + 1) := by
      intro status hn hne heq
      exact ⟨0, Nat.succ_pos k, fun i hi => absurd hi (Nat.not_lt_zero i), hn ▸ hne, hn ▸ heq⟩
    cases hn : write n with
    | stopped => exact .inr (hfails _ hn nofun (by rw [writeChunks, hn]))
    | closed => exact .inr (hfails _ hn nofun (by rw [writeChunks, hn]))
    | done =>
      have hdone : ∀ j, (∀ i < j, write (n + 1 + i) = .done) →
          ∀ i < j + 1, write (n + i) = .done := by
        intro j hj i hi
        cases i with
        | zero => exact hn
        | succ i => exact Nat.add_right_comm n 1 i ▸ hj i (Nat.lt_of_succ_lt_succ hi)
      have hrest : writeChunks write n (k + 1) = writeChunks write (n + 1) k := by
        rw [writeChunks, hn]
      rcases ih (n + 1) with ⟨hall, heq⟩ | ⟨j, hj, hall, hne, heq⟩
      · exact .inl ⟨hdone k hall, by rw [hrest, heq, Nat.add_right_comm, Nat.add_assoc]⟩
      · refine .inr ⟨j + 1, Nat.succ_lt_succ hj, hdone j hall, ?_, ?_⟩
        · rwa [← Nat.add_assoc, Nat.add_right_comm]
        · rw [hrest, heq, ← Nat.add_assoc, Nat.add_right_comm n j 1]

/-- Where the last call is done, all are. -/
theorem writeChunks_done {write : Nat → WriteStatus} {n k m : Nat}
    (h : writeChunks write n k = (.done, m)) : ∀ i < k, write (n + i) = .done := by
  rcases writeChunks_cases write n k with ⟨hall, -⟩ | ⟨j, -, -, hne, heq⟩
  · exact hall
  · rw [heq, Prod.mk.injEq] at h
    exact absurd h.1 hne

/-- Calls of which one is not done end with one that fails, if none of them is cut short. -/
theorem writeChunks_closed {write : Nat → WriteStatus} {n k : Nat}
    (hstopped : ∀ m, n ≤ m → write m ≠ .stopped) (hdone : ∃ i < k, write (n + i) ≠ .done) :
    ∃ m, n ≤ m ∧ writeChunks write n k = (.closed, m) := by
  obtain ⟨i, hi, hne⟩ := hdone
  rcases writeChunks_cases write n k with ⟨hall, -⟩ | ⟨j, -, -, hne', heq⟩
  · exact absurd (hall i hi) hne
  · refine ⟨n + j + 1, by omega, ?_⟩
    rw [heq]
    cases hj : write (n + j) with
    | done => exact absurd hj hne'
    | stopped => exact absurd hj (hstopped _ (Nat.le_add_right n j))
    | closed => rfl

/-- A call that fails comes before one that is cut short, and before as many that are done as
there are. -/
theorem lt_of_writeChunks_closed {write : Nat → WriteStatus} {n k l m : Nat}
    (h : writeChunks write n k = (.closed, m))
    (hl : write (n + l) = .stopped ∨ ∀ i < k, write (n + l + i) = .done) :
    ∃ j < l, m = n + j + 1 := by
  rcases writeChunks_cases write n k with ⟨-, heq⟩ | ⟨j, hj, hdone, hne, heq⟩
  · rw [heq] at h
    cases h
  · rw [heq, Prod.mk.injEq] at h
    refine ⟨j, ?_, h.2.symm⟩
    by_contra hle
    rcases hl with hstopped | hrow
    · rcases Nat.lt_or_ge l j with hlt | hge
      · rw [hdone l hlt] at hstopped
        cases hstopped
      · rw [show l = j by omega, h.1] at hstopped
        cases hstopped
    · have hin := hrow (j - l) (by omega)
      rw [show n + l + (j - l) = n + j by omega] at hin
      exact hne hin

/-- Every packet is written at least once. -/
theorem chunkWrites_pos (nBodySize : Nat) : 0 < chunkWrites nBodySize :=
  Nat.lt_of_lt_of_le Nat.one_pos (Nat.le_max_left _ _)

namespace RTMPSession

variable {answer : Nat → WriteStatus} {close : RTMPSession → Except Fault RTMPSession}

/-- The session behind an invoke packet that was written. -/
def taken (r : RTMPSession) (cmd : RTMPCommand) (method : RTMPMethod) : RTMPSession :=
  let r := { r with sent := r.sent ++ [cmd] }
  if cmd.queue then r.queued method else r

/-- A packet on a socket that is open for all its writes. -/
theorem connected_of_done {r : RTMPSession} {nBodySize n : Nat}
    (h : writeChunks (r.status answer) r.writes (chunkWrites nBodySize) = (.done, n)) :
    r.connected = true := by
  have hfirst := writeChunks_done h 0 (chunkWrites_pos nBodySize)
  cases hr : r.connected with
  | true => rfl
  | false =>
    rw [status, hr] at hfirst
    cases hfirst

/-- A write that fails closes the connection. -/
theorem send_closed {r : RTMPSession} {cmd : RTMPCommand} {n : Nat}
    (h : writeChunks (r.status answer) r.writes (chunkWrites cmd.body.length) = (.closed, n)) :
    r.send answer close cmd = (close (r.wrote n)).map fun r => (r, false) := by
  unfold send
  rw [h]
  change (do return (← close (r.wrote n), false)) = _
  cases close (r.wrote n) <;> rfl

/-- A write that is cut short leaves it open. -/
theorem send_stopped {r : RTMPSession} {cmd : RTMPCommand} {n : Nat}
    (h : writeChunks (r.status answer) r.writes (chunkWrites cmd.body.length) = (.stopped, n)) :
    r.send answer close cmd = .ok (r.wrote n, false) := by
  unfold send
  rw [h]
  rfl

/-- An invoke packet that is written is queued if it asks for it. -/
theorem send_invoke {r : RTMPSession} {cmd : RTMPCommand} {method : RTMPMethod} {n : Nat}
    (htype : cmd.mPacketType = rtmpPacketTypeInvoke)
    (hmethod : queuedMethod cmd.body = .ok method)
    (h : writeChunks (r.status answer) r.writes (chunkWrites cmd.body.length) = (.done, n)) :
    r.send answer close cmd = .ok ((r.wrote n).taken cmd method, true) := by
  unfold send
  rw [h]
  simp only [htype, if_true, hmethod, bind, Except.bind, pure, Except.pure]
  rfl

/-- A packet of another type is not looked into. -/
theorem send_other {r : RTMPSession} {cmd : RTMPCommand} {n : Nat}
    (htype : cmd.mPacketType ≠ rtmpPacketTypeInvoke)
    (h : writeChunks (r.status answer) r.writes (chunkWrites cmd.body.length) = (.done, n)) :
    r.send answer close cmd = .ok ({ r.wrote n with sent := r.sent ++ [cmd] }, true) := by
  unfold send
  rw [h]
  simp only [htype, if_false]
  rfl

/-- What a command function can do with its packet: write some of its chunks or all of them, or
close the connection. -/
theorem post_cases {r r' : RTMPSession} {c : Invoke} {method : AVal} {v : UInt64}
    {rest : List AMFObjectProperty} {ok : Bool}
    (hargs : c.args = argString method :: argNumber v :: rest) (hmethod : method.length < 65536)
    (h : r.post answer close c.command = .ok (r', ok)) :
    (∃ n, r' = r.wrote n) ∨
      (r.connected = true ∧ ∃ n cmd, cmd.mPacketType = rtmpPacketTypeInvoke ∧
        cmd.queue = c.queue ∧ cmd.mNInfoField2 = c.mNInfoField2 ∧
        queuedMethod cmd.body = .ok ⟨method, Double.truncate v⟩ ∧
        r' = (r.wrote n).taken cmd ⟨method, Double.truncate v⟩) ∨
      ∃ n, close (r.wrote n) = .ok r' := by
  cases hc : c.command with
  | none =>
    rw [hc] at h
    cases h
    exact .inl ⟨r.writes, rfl⟩
  | some cmd =>
    obtain ⟨htype, hqueue, hinfo, hread⟩ := Invoke.command_fields hargs hmethod hc
    rw [hc, post] at h
    rcases hwrites : writeChunks (r.status answer) r.writes (chunkWrites cmd.body.length)
      with ⟨_ | _ | _, n⟩
    · rw [send_invoke htype hread hwrites] at h
      cases h
      exact .inr (.inl ⟨connected_of_done hwrites, n, cmd, htype, hqueue, hinfo, hread, rfl⟩)
    · rw [send_stopped hwrites] at h
      cases h
      exact .inl ⟨n, rfl⟩
    · rw [send_closed hwrites] at h
      obtain ⟨r'', hclose, heq⟩ := map_eq_ok h
      cases heq
      exact .inr (.inr ⟨n, hclose⟩)

/-- A connection without a stream is closed without a packet. -/
theorem rtmpClose_of_no_stream {r : RTMPSession} (h : r.mStreamId ≤ 0) (depth : Nat) :
    rtmpClose answer (depth + 1) r = .ok r.closed := by
  rw [rtmpClose, closeWith, if_neg fun hr => by omega]
  rfl

/-- A command function returns if the close behind a failed write does. -/
theorem invoke_returns {r : RTMPSession} {c : Int → Invoke} {method : AVal} {v : Int → UInt64}
    {rest : Int → List AMFObjectProperty}
    (hargs : ∀ txn, (c txn).args = argString method :: argNumber (v txn) :: rest txn)
    (hmethod : method.length < 65536)
    (hclose : ∀ cmd n, (c (r.mNumInvokes + 1)).command = some cmd →
      writeChunks (r.status answer) r.writes (chunkWrites cmd.body.length) = (.closed, n) →
      ∃ r', close ({ r with mNumInvokes := r.mNumInvokes + 1 }.wrote n) = .ok r') :
    ∃ r' ok, r.invoke answer close c = .ok (r', ok) := by
  rw [invoke]
  cases hc : (c (r.mNumInvokes + 1)).command with
  | none => exact ⟨_, _, rfl⟩
  | some cmd =>
    obtain ⟨htype, -, -, hread⟩ := Invoke.command_fields (hargs _) hmethod hc
    rw [post]
    rcases hwrites : writeChunks (r.status answer) r.writes (chunkWrites cmd.body.length)
      with ⟨_ | _ | _, n⟩
    · exact ⟨_, _, send_invoke htype hread hwrites⟩
    · exact ⟨_, _, send_stopped hwrites⟩
    · obtain ⟨r', hr'⟩ := hclose cmd n hc hwrites
      refine ⟨r', false,
        (send_closed (r := { r with mNumInvokes := r.mNumInvokes + 1 }) hwrites).trans ?_⟩
      rw [hr']
      rfl

/-- An argument in front of others is written with them behind it. -/
theorem encodeAll_cons_eq_some {encode : Nat → AMFObjectProperty → Option (List UInt8)}
    {room : Nat} {p : AMFObjectProperty} {ps : List AMFObjectProperty} {bs : List UInt8} :
    encodeAll encode room (p :: ps) = some bs ↔ ∃ xs ys, encode room p = some xs ∧
      encodeAll encode (room - xs.length) ps = some ys ∧ bs = xs ++ ys := by
  simp only [encodeAll, Option.bind_eq_bind, Option.bind_eq_some_iff, Option.some.injEq,
    exists_and_left, @eq_comm _ bs]

/-- What `SendFCUnpublish` puts into its buffer, if it fits. -/
theorem encodeAll_sendFCUnpublish {link : RTMPLink} {txn : Int} {bs : List UInt8} :
    encodeAll amfEncodeArg 1006 (sendFCUnpublish link txn).args = some bs ↔
      link.playpath.length ≤ 977 ∧
        bs = AMFDataType.string.code :: (beBytes 2 11 ++ avc "FCUnpublish") ++
          (AMFDataType.number.code :: beBytes 8 (Double.ofInt txn).toNat ++
            ([AMFDataType.null.code] ++
              (AMFDataType.string.code :: (beBytes 2 link.playpath.length ++ link.playpath) ++
                []))) := by
  have hname : (avc "FCUnpublish").length = 11 := rfl
  simp only [sendFCUnpublish, encodeAll_cons_eq_some]
  constructor
  · rintro ⟨xs, _, hxs, ⟨ys, _, hys, ⟨zs, _, hzs, ⟨ws, _, hws, hend, rfl⟩, rfl⟩, rfl⟩, rfl⟩
    obtain ⟨-, rfl⟩ := amfEncodeString_eq_some.mp hxs
    obtain ⟨-, rfl⟩ := amfEncodeNumber_eq_some.mp hys
    cases hzs
    cases hend
    obtain ⟨hroom, rfl⟩ := amfEncodeString_eq_some.mp hws
    simp only [hname, show 11 < 65536 by omega, if_true, List.length_cons, List.length_append,
      length_beBytes, List.length_nil] at hroom
    rw [hname, if_pos (by omega), if_pos (by omega)]
    exact ⟨by omega, rfl⟩
  · rintro ⟨hfits, rfl⟩
    refine ⟨_, _, rfl, ⟨_, _, rfl, ⟨_, _, rfl, ⟨_, _,
      amfEncodeString_eq_some.mpr ⟨?_, (if_pos (by omega)).symm⟩, rfl, rfl⟩, rfl⟩, rfl⟩, rfl⟩
    simp only [List.length_cons, List.length_append, length_beBytes, hname, List.length_nil]
    omega

/-- A play path that is too long is not announced. -/
theorem sendFCUnpublish_of_long {link : RTMPLink} (h : ¬ link.playpath.length ≤ 977)
    (txn : Int) : (sendFCUnpublish link txn).command = none := by
  have hnone : encodeAll amfEncodeArg 1006 (sendFCUnpublish link txn).args = none :=
    Option.eq_none_iff_forall_ne_some.mpr fun bs hbs => h (encodeAll_sendFCUnpublish.mp hbs).1
  change ((encodeAll amfEncodeArg 1006 (sendFCUnpublish link txn).args).bind _) = none
  rw [hnone]
  rfl

/-- A stream that `RTMP_Close` announces the end of. -/
structure Publishing (r : RTMPSession) : Prop where
  connected : r.connected = true
  stream : 0 < r.mStreamId
  write : r.link.write = true
  fits : r.link.playpath.length ≤ 977

/-- With a stream to write, the end of publishing is announced in front of the rest. -/
theorem closeWith_of_write {r : RTMPSession} (h : r.connected = true ∧ 0 < r.mStreamId)
    (hwrite : r.link.write = true) :
    r.closeWith answer close = do
      let (r1, _) ← r.invoke answer close (sendFCUnpublish r.link)
      let (r2, _) ← { r1 with mStreamId := 0 }.invoke answer close
        (sendDeleteStream (Double.ofInt r1.mStreamId))
      return r2.closed := by
  rw [closeWith, if_pos h, if_pos hwrite]

/-- A stream that is read is deleted at once. -/
theorem closeWith_of_read {r : RTMPSession} (h : r.connected = true ∧ 0 < r.mStreamId)
    (hwrite : ¬ r.link.write = true) :
    r.closeWith answer close = do
      let (r2, _) ← { r with mStreamId := 0 }.invoke answer close
        (sendDeleteStream (Double.ofInt r.mStreamId))
      return r2.closed := by
  rw [closeWith, if_pos h, if_neg hwrite]

/-- The calls of `WriteN` that announcing the end of publishing takes. -/
def announceWrites (link : RTMPLink) : Nat := chunkWrites (27 + link.playpath.length)

/-- The announcement fits its buffer, and takes that many writes. -/
theorem Publishing.announcement {r : RTMPSession} (h : r.Publishing) (txn : Int) :
    ∃ cmd, (sendFCUnpublish r.link txn).command = some cmd ∧
      chunkWrites cmd.body.length = announceWrites r.link := by
  obtain ⟨cmd, hcmd, hbody⟩ := Invoke.command_body (c := sendFCUnpublish r.link txn)
    (encodeAll_sendFCUnpublish.mpr ⟨h.fits, rfl⟩) rfl
  refine ⟨cmd, hcmd, congrArg chunkWrites ?_⟩
  rw [hbody]
  simp only [List.length_append, List.length_cons, List.length_nil, length_beBytes,
    show (avc "FCUnpublish").length = 11 from rfl]
  omega

/-- What it takes of the socket. -/
theorem Publishing.writeChunks_eq {r : RTMPSession} (h : r.Publishing) {cmd : RTMPCommand}
    (hcmd : (sendFCUnpublish r.link (r.mNumInvokes + 1)).command = some cmd) :
    writeChunks (r.status answer) r.writes (chunkWrites cmd.body.length) =
      writeChunks answer r.writes (announceWrites r.link) := by
  have hstatus : r.status answer = answer := funext fun n => if_pos h.connected
  obtain ⟨cmd', hcmd', hlength⟩ := h.announcement (r.mNumInvokes + 1)
  rw [hcmd] at hcmd'
  cases hcmd'
  rw [hstatus, hlength]

/-- The stream is still published for the close that the announcement calls. -/
theorem Publishing.next {r : RTMPSession} (h : r.Publishing) (n : Nat) :
    ({ r with mNumInvokes := r.mNumInvokes + 1 }.wrote n).Publishing :=
  ⟨h.connected, h.stream, h.write, h.fits⟩

/-- While some write of every announcement fails, closing a stream that is published calls
itself. -/
theorem rtmpClose_spins {r : RTMPSession} (h : r.Publishing)
    (hanswer : ∀ n, r.writes ≤ n → answer n ≠ .stopped ∧
      ∃ i < announceWrites r.link, answer (n + i) ≠ .done) (depth : Nat) :
    rtmpClose answer depth r = .error .spin := by
  induction depth generalizing r with
  | zero => rfl
  | succ depth ih =>
    obtain ⟨cmd, hcmd, -⟩ := h.announcement (r.mNumInvokes + 1)
    obtain ⟨n, hn, hwrites⟩ := writeChunks_closed (fun n hn => (hanswer n hn).1)
      (hanswer r.writes (Nat.le_refl _)).2
    rw [← h.writeChunks_eq hcmd] at hwrites
    have hnext := ih (h.next n) fun m hm => hanswer m (hn.trans hm)
    rw [rtmpClose, closeWith_of_write ⟨h.connected, h.stream⟩ h.write, invoke, hcmd, post,
      send_closed (r := { r with mNumInvokes := r.mNumInvokes + 1 }) hwrites, hnext]
    rfl

/-- Behind the announcement the close goes through. -/
theorem closeWith_deleteStream (r : RTMPSession) (i : Int) (depth : Nat) :
    ∃ r', (do
      let (r2, _) ← { r with mStreamId := 0 }.invoke answer (rtmpClose answer (depth + 1))
        (sendDeleteStream (Double.ofInt i))
      return r2.closed : Except Fault RTMPSession) = .ok r' := by
  obtain ⟨r2, ok, h⟩ : ∃ r2 ok, { r with mStreamId := 0 }.invoke answer
      (rtmpClose answer (depth + 1)) (sendDeleteStream (Double.ofInt i)) = .ok (r2, ok) :=
    invoke_returns (fun txn => rfl) (by decide)
      fun _ _ _ _ => ⟨_, rtmpClose_of_no_stream (Int.le_refl 0) depth⟩
  rw [h]
  exact ⟨_, rfl⟩

/-- The close of a published stream returns once a write is cut short, or as many in a row are
done as the announcement takes. -/
theorem rtmpClose_returns {r : RTMPSession} {k depth : Nat} (h : r.Publishing)
    (hanswer : answer (r.writes + k) = .stopped ∨
      ∀ i < announceWrites r.link, answer (r.writes + k + i) = .done) (hdepth : k + 2 ≤ depth) :
    ∃ r', rtmpClose answer depth r = .ok r' := by
  -- on how many writes are left before those that do not fail
  induction k using Nat.strong_induction_on generalizing r depth with
  | _ k ih =>
    obtain ⟨depth, rfl⟩ : ∃ d, depth = d + 2 := ⟨depth - 2, by omega⟩
    obtain ⟨r1, ok, hinvoke⟩ : ∃ r1 ok, r.invoke answer (rtmpClose answer (depth + 1))
        (sendFCUnpublish r.link) = .ok (r1, ok) := by
      refine invoke_returns (fun txn => rfl) (by decide) fun cmd n hcmd hwrites => ?_
      rw [h.writeChunks_eq hcmd] at hwrites
      obtain ⟨j, hj, rfl⟩ := lt_of_writeChunks_closed hwrites hanswer
      have hindex : r.writes + j + 1 + (k - (j + 1)) = r.writes + k := by omega
      refine ih (k - (j + 1)) (by omega) (h.next _) ?_ (by omega)
      change answer (r.writes + j + 1 + (k - (j + 1))) = .stopped ∨
        ∀ i < announceWrites r.link, answer (r.writes + j + 1 + (k - (j + 1)) + i) = .done
      rwa [hindex]
    rw [rtmpClose, closeWith_of_write ⟨h.connected, h.stream⟩ h.write, hinvoke]
    exact closeWith_deleteStream r1 _ depth

/-- The close of anything else returns at once. -/
theorem rtmpClose_of_not_publishing {r : RTMPSession} (h : ¬ r.Publishing) :
    ∃ r', rtmpClose answer 2 r = .ok r' := by
  by_cases hstream : r.connected = true ∧ 0 < r.mStreamId
  · rw [rtmpClose]
    by_cases hwrite : r.link.write = true
    · have hlong : ¬ r.link.playpath.length ≤ 977 := fun hfits =>
        h ⟨hstream.1, hstream.2, hwrite, hfits⟩
      rw [closeWith_of_write hstream hwrite, invoke, sendFCUnpublish_of_long hlong, post]
      exact closeWith_deleteStream _ _ 0
    · rw [closeWith_of_read hstream hwrite]
      exact closeWith_deleteStream r _ 0
  · refine ⟨r.closed, ?_⟩
    rw [rtmpClose, closeWith, if_neg hstream]
    rfl

/-- `RTMP_Close`, which every failed write calls, comes to an end exactly if no stream is
published, or one of the following writes is cut short without an error, or as many of them in
a row are done as the packet of `SendFCUnpublish` takes. -/
theorem rtmpClose_returns_iff (answer : Nat → WriteStatus) (r : RTMPSession) :
    (∃ depth r', rtmpClose answer depth r = .ok r') ↔
      (r.Publishing → ∃ n, r.writes ≤ n ∧ (answer n = .stopped ∨
        ∀ i < announceWrites r.link, answer (n + i) = .done)) := by
  constructor
  · rintro ⟨depth, r', hr'⟩ h
    by_contra hnone
    have hanswer : ∀ n, r.writes ≤ n → answer n ≠ .stopped ∧
        ∃ i < announceWrites r.link, answer (n + i) ≠ .done := by
      intro n hn
      refine ⟨fun hstopped => hnone ⟨n, hn, .inl hstopped⟩, ?_⟩
      by_contra hrow
      exact hnone ⟨n, hn, .inr fun i hi => by_contra fun hne => hrow ⟨i, hi, hne⟩⟩
    rw [rtmpClose_spins h hanswer] at hr'
    cases hr'
  · intro h
    by_cases hr : r.Publishing
    · obtain ⟨n, hn, hanswer⟩ := h hr
      obtain ⟨k, rfl⟩ := Nat.exists_eq_add_of_le hn
      exact ⟨k + 2, rtmpClose_returns hr hanswer (Nat.le_refl _)⟩
    · exact ⟨2, rtmpClose_of_not_publishing hr⟩

end RTMPSession

end Jrtplib4Android
