import Jrtplib4Android.Rtmp.AmfWire
import Jrtplib4Android.Rtmp.ChunkWriter

/-!
# RTMP commands

The `Send*` functions of `rtmp.c` fill a buffer on the stack behind the header room, one
value after another, and hand a packet to `RTMP_SendPacket`. An `Invoke` is what one of them
writes: the arguments in order, where `AMF_EncodeString(enc, pend, &av_x)` is a string
without a name, and so on. A command that does not fit is not sent; one that is sent is read
back argument by argument.
-/

namespace Jrtplib4Android

open CSem

/-- `AVC`: the bytes of a string constant. -/
def avc (s : String) : AVal := s.toList.map fun c => UInt8.ofNat c.toNat

/-- Encoders one after another, each in the room that is left. -/
def encodeAll (encode : Nat → AMFObjectProperty → Option (List UInt8)) (room : Nat) :
    List AMFObjectProperty → Option (List UInt8)
  | [] => some []
  | p :: ps => do
    let bs ← encode room p
    let rest ← encodeAll encode (room - bs.length) ps
    some (bs ++ rest)

/-- A property of the object of `SendConnectPacket`. -/
def amfEncodeNamedProp (room : Nat) : AMFObjectProperty → Option (List UInt8)
  | .string p_name bv => amfEncodeNamedString room p_name bv
  | .number p_name v => amfEncodeNamedNumber room p_name v
  | .boolean p_name v => amfEncodeNamedBoolean room p_name (!Double.isZero v)
  | .invalid | .object _ _ | .null _ | .date _ _ _ => none

/-- An argument of a command. The byte of a null and the mark of an object are put down
without a check. -/
def amfEncodeArg (room : Nat) : AMFObjectProperty → Option (List UInt8)
  | .string _ bv => amfEncodeString room bv
  | .number _ v => amfEncodeNumber room v
  | .boolean _ v => amfEncodeBoolean room (!Double.isZero v)
  | .null _ => some [AMFDataType.null.code]
  | .object _ o => do
    let props ← encodeAll amfEncodeNamedProp (room - 1) o
    if room - 1 - props.length ≤ 3 then none
    else some (AMFDataType.object.code :: (props ++ [0, 0, 9]))
  | .invalid | .date _ _ _ => none

/-- A packet that is handed to `RTMP_SendPacket`, with its last argument. -/
structure RTMPCommand where
  mNChannel : Int
  mHeaderType : UInt8
  mPacketType : UInt8
  mNTimeStamp : Int
  mNInfoField2 : Int
  body : List UInt8
  queue : Bool

/-- `RTMP_PACKET_TYPE_INVOKE`. -/
def rtmpPacketTypeInvoke : UInt8 := 0x14

/-- What a command function writes into its buffer of `size` bytes; `extras` are written by
`AMFProp_Encode`. -/
structure Invoke where
  size : Nat
  mNChannel : Int := 0x03
  mHeaderType : UInt8 := rtmpPacketSizeMedium
  mNTimeStamp : Int := 0
  mNInfoField2 : Int := 0
  args : List AMFObjectProperty
  extras : List AMFObjectProperty := []
  queue : Bool

/-- The packet of a command, unless an encoder returns `NULL`. -/
def Invoke.command (c : Invoke) : Option RTMPCommand := do
  let bs ← encodeAll amfEncodeArg (c.size - rtmpMaxHeaderSize) c.args
  let more ← encodeAll amfPropEncode (c.size - rtmpMaxHeaderSize - bs.length) c.extras
  some {
    mNChannel := c.mNChannel
    mHeaderType := c.mHeaderType
    mPacketType := rtmpPacketTypeInvoke
    mNTimeStamp := c.mNTimeStamp
    mNInfoField2 := c.mNInfoField2
    body := bs ++ more
    queue := c.queue }

/-- The members of `RTMP_LNK` and of `RTMP` that the commands are made of. -/
structure RTMPLink where
  app : AVal
  flashVer : AVal
  swfUrl : AVal
  tcUrl : AVal
  pageUrl : AVal
  auth : AVal
  token : AVal
  playpath : AVal
  subscribepath : AVal
  extras : List AMFObjectProperty
  seekTime : Int
  stopTime : Int
  /-- `protocol & RTMP_FEATURE_WRITE`. -/
  write : Bool
  /-- The bits `RTMP_LF_AUTH`, `RTMP_LF_LIVE`, `RTMP_LF_PLST` and `RTMP_LF_BUFX` of `lFlags`. -/
  lfAuth : Bool
  lfLive : Bool
  lfPlst : Bool
  lfBufx : Bool
  mFAudioCodecs : UInt64
  mFVideoCodecs : UInt64
  mFEncoding : UInt64
  mBSendEncoding : Bool
  mNServerBW : Int
  mNBufferMS : Int

/-- A string constant as an argument. -/
def argString (bv : AVal) : AMFObjectProperty := .string [] bv

/-- A number as an argument. -/
def argNumber (v : UInt64) : AMFObjectProperty := .number [] v

/-- `TRUE` or `FALSE` as a number. -/
def boolNumber (b : Bool) : UInt64 := if b then Double.ofNat 1 else Double.ofNat 0

/-- The object of `SendConnectPacket`. -/
def connectObject (link : RTMPLink) : List AMFObjectProperty :=
  [.string (avc "app") link.app] ++
  (if link.write then [.string (avc "type") (avc "nonprivate")] else []) ++
  (if link.flashVer.length = 0 then [] else [.string (avc "flashVer") link.flashVer]) ++
  (if link.swfUrl.length = 0 then [] else [.string (avc "swfUrl") link.swfUrl]) ++
  (if link.tcUrl.length = 0 then [] else [.string (avc "tcUrl") link.tcUrl]) ++
  (if link.write then [] else
    [.boolean (avc "fpad") (boolNumber false),
      .number (avc "capabilities") (Double.ofNat 15),
      .number (avc "audioCodecs") link.mFAudioCodecs,
      .number (avc "videoCodecs") link.mFVideoCodecs,
      .number (avc "videoFunction") (Double.ofNat 1)] ++
    (if link.pageUrl.length = 0 then [] else [.string (avc "pageUrl") link.pageUrl])) ++
  (if Double.isZero link.mFEncoding ∧ link.mBSendEncoding = false then []
    else [.number (avc "objectEncoding") link.mFEncoding])

/-- `SendConnectPacket` without a packet of the caller's; `txn` is `++m_numInvokes`. -/
def sendConnectPacket (link : RTMPLink) (txn : Int) : Invoke where
  size := 4096
  mHeaderType := rtmpPacketSizeLarge
  args := [argString (avc "connect"), argNumber (Double.ofInt txn), .object [] (connectObject link)]
    ++ if link.auth.length = 0 then []
      else [.boolean [] (boolNumber link.lfAuth), argString link.auth]
  extras := link.extras
  queue := true

/-- `RTMP_SendCreateStream`. -/
def sendCreateStream (txn : Int) : Invoke where
  size := 256
  args := [argString (avc "createStream"), argNumber (Double.ofInt txn), .null []]
  queue := true

/-- `SendFCSubscribe`. -/
def sendFCSubscribe (subscribepath : AVal) (txn : Int) : Invoke where
  size := 512
  args := [argString (avc "FCSubscribe"), argNumber (Double.ofInt txn), .null [],
    argString subscribepath]
  queue := true

/-- `SendReleaseStream`. -/
def sendReleaseStream (link : RTMPLink) (txn : Int) : Invoke where
  size := 1024
  args := [argString (avc "releaseStream"), argNumber (Double.ofInt txn), .null [],
    argString link.playpath]
  queue := false

/-- `SendFCPublish`. -/
def sendFCPublish (link : RTMPLink) (txn : Int) : Invoke where
  size := 1024
  args := [argString (avc "FCPublish"), argNumber (Double.ofInt txn), .null [],
    argString link.playpath]
  queue := false

/-- `SendFCUnpublish`. -/
def sendFCUnpublish (link : RTMPLink) (txn : Int) : Invoke where
  size := 1024
  args := [argString (avc "FCUnpublish"), argNumber (Double.ofInt txn), .null [],
    argString link.playpath]
  queue := false

/-- `SendPublish`. -/
def sendPublish (link : RTMPLink) (mStreamId txn : Int) : Invoke where
  size := 1024
  mNChannel := 0x04
  mHeaderType := rtmpPacketSizeLarge
  mNInfoField2 := mStreamId
  args := [argString (avc "publish"), argNumber (Double.ofInt txn), .null [],
    argString link.playpath, argString (avc "live")]
  queue := true

/-- `SendDeleteStream`. -/
def sendDeleteStream (dStreamId : UInt64) (txn : Int) : Invoke where
  size := 256
  args := [argString (avc "deleteStream"), argNumber (Double.ofInt txn), .null [],
    argNumber dStreamId]
  queue := false

/-- `RTMP_SendPause`. -/
def sendPause (doPause : Bool) (iTime txn : Int) : Invoke where
  size := 256
  mNChannel := 0x08
  args := [argString (avc "pause"), argNumber (Double.ofInt txn), .null [],
    .boolean [] (boolNumber doPause), argNumber (Double.ofInt iTime)]
  queue := true

/-- `RTMP_SendSeek`. -/
def sendSeek (iTime txn : Int) : Invoke where
  size := 256
  mNChannel := 0x08
  args := [argString (avc "seek"), argNumber (Double.ofInt txn), .null [],
    argNumber (Double.ofInt iTime)]
  queue := true

/-- `SendCheckBW`, which is not queued. -/
def sendCheckBW (txn : Int) : Invoke where
  size := 256
  mHeaderType := rtmpPacketSizeLarge
  args := [argString (avc "_checkbw"), argNumber (Double.ofInt txn), .null []]
  queue := false

/-- `SendCheckBWResult`, in front of the increment of the counter. -/
def sendCheckBWResult (mNBWCheckCounter : Int) (txn : UInt64) : Invoke where
  size := 256
  mNTimeStamp := 0x16 * mNBWCheckCounter
  args := [argString (avc "_result"), argNumber txn, .null [],
    argNumber (Double.ofInt mNBWCheckCounter)]
  queue := false

/-- `SendPong`. -/
def sendPong (mNBWCheckCounter : Int) (txn : UInt64) : Invoke where
  size := 256
  mNTimeStamp := 0x16 * mNBWCheckCounter
  args := [argString (avc "pong"), argNumber txn, .null []]
  queue := false

/-- `SendPlay`. -/
def sendPlay (link : RTMPLink) (mStreamId txn : Int) : Invoke where
  size := 1024
  mNChannel := 0x08
  mHeaderType := rtmpPacketSizeLarge
  mNInfoField2 := mStreamId
  args := [argString (avc "play"), argNumber (Double.ofInt txn), .null [],
    argString link.playpath,
    argNumber (if link.lfLive then Double.ofInt (-1000)
      else if 0 < link.seekTime then Double.ofInt link.seekTime else Double.ofNat 0)] ++
    if link.stopTime = 0 then []
    else [argNumber (Double.ofInt (toInt (link.stopTime - link.seekTime)))]
  queue := true

/-- `SendSecureTokenResponse`. -/
def sendSecureTokenResponse (resp : AVal) : Invoke where
  size := 1024
  args := [argString (avc "secureTokenResponse"), argNumber (Double.ofNat 0), .null [],
    argString resp]
  queue := false

/-- `SendPlaylist`, with the array written by hand. -/
def sendPlaylist (link : RTMPLink) (mStreamId : Int) : Option RTMPCommand := do
  let room := 1024 - rtmpMaxHeaderSize
  let bs ← encodeAll amfEncodeArg room
    [argString (avc "set_playlist"), argNumber (Double.ofNat 0), .null []]
  let array := [AMFDataType.ecmaArray.code, 0, 0, 0, AMFDataType.object.code]
  let path ← amfEncodeNamedString (room - bs.length - array.length) (avc "0") link.playpath
  if room - bs.length - array.length - path.length ≤ 3 then none
  else some {
    mNChannel := 0x08
    mHeaderType := rtmpPacketSizeLarge
    mPacketType := rtmpPacketTypeInvoke
    mNTimeStamp := 0
    mNInfoField2 := mStreamId
    body := bs ++ array ++ path ++ [0, 0, 9]
    queue := true }

/-- `RTMP_SendServerBW`. -/
def sendServerBW (mNServerBW : Int) : RTMPCommand where
  mNChannel := 0x02
  mHeaderType := rtmpPacketSizeLarge
  mPacketType := 0x05
  mNTimeStamp := 0
  mNInfoField2 := 0
  body := encodeInt32 mNServerBW
  queue := false

/-- `RTMP_SendCtrl`, for the types that carry numbers. -/
def sendCtrl (nType nObject nTime : Nat) : RTMPCommand where
  mNChannel := 0x02
  mHeaderType := rtmpPacketSizeMedium
  mPacketType := 0x04
  mNTimeStamp := 0
  mNInfoField2 := 0
  body := beBytes 2 nType ++
    if nType = 0x1A then beBytes 1 nObject
    else beBytes 4 nObject ++ if nType = 0x03 then beBytes 4 nTime else []
  queue := false

/-! ## A command is read back -/

/-- A property that is named by hand is written as `AMFProp_Encode` does it. -/
theorem amfEncodeNamed_eq_some {room : Nat} {strName : AVal}
    {value : Nat → Option (List UInt8)} {bs : List UInt8} :
    amfEncodeNamed room strName value = some bs ↔ 2 + strName.length ≤ room ∧
      ∃ vs, value (room - 2 - strName.length) = some vs ∧
        bs = beBytes 2 strName.length ++ (strName ++ vs) := by
  rw [amfEncodeNamed]
  split
  case isTrue h => exact iff_of_false nofun fun h' => by omega
  case isFalse h =>
    have hroom : 2 + strName.length ≤ room := by omega
    have hsize : amfEncodeInt16 room strName.length = some (beBytes 2 strName.length) :=
      if_neg (by omega)
    rw [hsize, Option.bind_eq_bind, Option.bind_some, Option.bind_eq_some_iff]
    simp only [Option.some.injEq, hroom, true_and, eq_comm]

theorem amfEncodeNumber_eq_some {room : Nat} {v : UInt64} {bs : List UInt8} :
    amfEncodeNumber room v = some bs ↔
      9 ≤ room ∧ bs = AMFDataType.number.code :: beBytes 8 v.toNat := by
  rw [amfEncodeNumber, Option.ite_none_left_eq_some, Option.some.injEq, Nat.not_lt, eq_comm]

theorem amfEncodeBoolean_eq_some {room : Nat} {v : UInt64} {bs : List UInt8} :
    amfEncodeBoolean room (!Double.isZero v) = some bs ↔
      2 ≤ room ∧ bs = [AMFDataType.boolean.code, if Double.isZero v then 0 else 1] := by
  rw [amfEncodeBoolean, Option.ite_none_left_eq_some, Option.some.injEq, Nat.not_lt, eq_comm]
  cases Double.isZero v <;> rfl

/-- A property of the object of `SendConnectPacket` is written whole. -/
theorem amfEncodeNamedProp_eq {room : Nat} {p : AMFObjectProperty} {bs : List UInt8}
    (hp : p.Plain true) (h : amfEncodeNamedProp room p = some bs) :
    bs = amfWire p ∧ bs.length ≤ room := by
  cases p with
  | invalid | object | null | date => cases h
  | number p_name v =>
    rw [amfEncodeNamedProp, amfEncodeNamedNumber, amfEncodeNamed_eq_some] at h
    obtain ⟨hname, vs, hvs, rfl⟩ := h
    obtain ⟨hroom, rfl⟩ := amfEncodeNumber_eq_some.mp hvs
    rw [amfWire, amfNameWire_of_named hp.1, List.append_assoc]
    simp only [List.length_append, List.length_cons, length_beBytes, true_and]
    omega
  | boolean p_name v =>
    rw [amfEncodeNamedProp, amfEncodeNamedBoolean, amfEncodeNamed_eq_some] at h
    obtain ⟨hname, vs, hvs, rfl⟩ := h
    obtain ⟨hroom, rfl⟩ := amfEncodeBoolean_eq_some.mp hvs
    rw [amfWire, amfNameWire_of_named hp, List.append_assoc]
    simp only [List.length_append, List.length_cons, List.length_nil, length_beBytes, true_and]
    omega
  | string p_name bv =>
    rw [amfEncodeNamedProp, amfEncodeNamedString, amfEncodeNamed_eq_some] at h
    obtain ⟨hname, vs, hvs, rfl⟩ := h
    obtain ⟨hroom, rfl⟩ := amfEncodeString_eq_some.mp hvs
    rw [amfWire, amfNameWire_of_named hp.1, List.append_assoc]
    refine ⟨rfl, ?_⟩
    split <;> simp only [List.length_append, List.length_cons, length_beBytes] <;> omega

/-- Encoders that write their properties whole and inside the room do so one after another. -/
theorem encodeAll_eq {encode : Nat → AMFObjectProperty → Option (List UInt8)}
    {ps : List AMFObjectProperty}
    (hencode : ∀ p ∈ ps, ∀ room bs, encode room p = some bs → bs = amfWire p ∧ bs.length ≤ room)
    {room : Nat} {bs : List UInt8} (h : encodeAll encode room ps = some bs) :
    bs = amfPropsWire ps ∧ bs.length ≤ room := by
  induction ps generalizing room bs with
  | nil =>
    cases h
    exact ⟨rfl, Nat.zero_le _⟩
  | cons p ps ih =>
    rw [List.forall_mem_cons] at hencode
    rw [encodeAll, Option.bind_eq_bind, Option.bind_eq_some_iff] at h
    obtain ⟨xs, hxs, h⟩ := h
    obtain ⟨ys, hys, h⟩ := Option.bind_eq_some_iff.mp h
    cases h
    obtain ⟨hwire, hle⟩ := hencode.1 _ _ hxs
    obtain ⟨hrest, hroom⟩ := ih hencode.2 hys
    rw [amfPropsWire, ← hwire, ← hrest, List.length_append]
    exact ⟨rfl, by omega⟩

theorem amfPlain_iff {o : List AMFObjectProperty} : AMFPlain o ↔ ∀ p ∈ o, p.Plain true := by
  induction o with
  | nil => exact iff_of_true trivial fun _ hp => absurd hp List.not_mem_nil
  | cons p o ih => rw [AMFPlain, ih, List.forall_mem_cons]

/-- An argument is written whole, and inside the room unless it is a null. -/
theorem amfEncodeArg_eq {room : Nat} {p : AMFObjectProperty} {bs : List UInt8}
    (hp : p.Plain false) (h : amfEncodeArg room p = some bs) :
    bs = amfWire p ∧ ((∀ p_name, p ≠ .null p_name) → bs.length ≤ room) := by
  cases p with
  | invalid | date => cases h
  | null p_name =>
    cases h
    exact ⟨by rw [amfWire], fun hnull => absurd rfl (hnull p_name)⟩
  | number p_name v =>
    rw [amfEncodeArg, amfEncodeNumber_eq_some] at h
    obtain ⟨hroom, rfl⟩ := h
    rw [amfWire, amfNameWire_of_unnamed hp.1, List.nil_append]
    exact ⟨rfl, fun _ => hroom⟩
  | boolean p_name v =>
    rw [amfEncodeArg, amfEncodeBoolean_eq_some] at h
    obtain ⟨hroom, rfl⟩ := h
    rw [amfWire, amfNameWire_of_unnamed hp, List.nil_append]
    exact ⟨rfl, fun _ => hroom⟩
  | string p_name bv =>
    rw [amfEncodeArg, amfEncodeString_eq_some] at h
    obtain ⟨hroom, rfl⟩ := h
    rw [amfWire, amfNameWire_of_unnamed hp.1, List.nil_append]
    refine ⟨rfl, fun _ => ?_⟩
    split <;> simp only [List.length_append, List.length_cons, length_beBytes] <;> omega
  | object p_name o =>
    rw [amfEncodeArg, Option.bind_eq_bind, Option.bind_eq_some_iff] at h
    obtain ⟨props, hprops, h⟩ := h
    rw [Option.ite_none_left_eq_some, Option.some.injEq] at h
    obtain ⟨hroom, rfl⟩ := h
    obtain ⟨rfl, hle⟩ := encodeAll_eq
      (fun p hmem room bs h => amfEncodeNamedProp_eq (amfPlain_iff.mp hp.2 p hmem) h) hprops
    rw [amfWire, amfNameWire_of_unnamed hp.1, List.nil_append]
    refine ⟨rfl, fun _ => ?_⟩
    simp only [List.length_cons, List.length_append, List.length_nil]
    omega

/-- Arguments are written whole, and inside the room if there is room for every null. -/
theorem encodeAll_amfEncodeArg {room : Nat} {args : List AMFObjectProperty} {bs : List UInt8}
    (hargs : ∀ p ∈ args, p.Plain false) (h : encodeAll amfEncodeArg room args = some bs) :
    bs = amfPropsWire args ∧
      ((∀ before p_name after, args = before ++ .null p_name :: after →
        (amfPropsWire before).length < room) → bs.length ≤ room) := by
  induction args generalizing room bs with
  | nil =>
    cases h
    exact ⟨rfl, fun _ => Nat.zero_le _⟩
  | cons p args ih =>
    rw [List.forall_mem_cons] at hargs
    rw [encodeAll, Option.bind_eq_bind, Option.bind_eq_some_iff] at h
    obtain ⟨xs, hxs, h⟩ := h
    obtain ⟨ys, hys, h⟩ := Option.bind_eq_some_iff.mp h
    cases h
    obtain ⟨hwire, hle⟩ := amfEncodeArg_eq hargs.1 hxs
    obtain ⟨hrest, hroom⟩ := ih hargs.2 hys
    refine ⟨by rw [amfPropsWire, ← hwire, ← hrest], fun hnull => ?_⟩
    have hhead : xs.length ≤ room := by
      by_cases hp : ∃ p_name, p = .null p_name
      · obtain ⟨p_name, rfl⟩ := hp
        cases hxs
        exact hnull [] p_name args rfl
      · exact hle fun p_name he => hp ⟨p_name, he⟩
    have htail : ys.length ≤ room - xs.length := by
      refine hroom fun before p_name after he => ?_
      have hlt := hnull (p :: before) p_name after (by rw [he, List.cons_append])
      rw [amfPropsWire, ← hwire, List.length_append] at hlt
      omega
    rw [List.length_append]
    omega

/-- What `AMFProp_Encode` keeps of properties that are written one after another. -/
def amfExtrasKept (room : Nat) : List AMFObjectProperty → List AMFObjectProperty
  | [] => []
  | p :: ps =>
    amfKept room p :: amfExtrasKept (room - ((amfPropEncode room p).getD []).length) ps

/-- A property is written inside the room. -/
theorem amfPropEncode_le {room : Nat} {p : AMFObjectProperty} {bs : List UInt8}
    (h : amfPropEncode room p = some bs) : bs.length ≤ room := by
  have hname : ∀ p_name : AVal, (amfNameWire p_name).length ≤ p_name.length + 2 := by
    intro p_name
    rw [amfNameWire]
    split
    · exact Nat.zero_le _
    · rw [List.length_append, length_beBytes]
      omega
  cases p with
  | invalid => cases h
  | null p_name =>
    rw [amfPropEncode, Option.ite_none_left_eq_some, Option.some.injEq] at h
    rw [← h.2, List.length_singleton]
    omega
  | date p_name v p_UTCoffset =>
    rw [amfPropEncode, amfPropEncodeWith_eq_some] at h
    obtain ⟨-, vs, hvs, -⟩ := h
    cases hvs
  | number p_name v =>
    rw [amfPropEncode, amfPropEncodeWith_eq_some] at h
    obtain ⟨hroom, vs, hvs, rfl⟩ := h
    obtain ⟨hvalue, rfl⟩ := amfEncodeNumber_eq_some.mp hvs
    have hle := hname p_name
    simp only [List.length_append, List.length_cons, length_beBytes]
    omega
  | boolean p_name v =>
    rw [amfPropEncode, amfPropEncodeWith_eq_some] at h
    obtain ⟨hroom, vs, hvs, rfl⟩ := h
    obtain ⟨hvalue, rfl⟩ := amfEncodeBoolean_eq_some.mp hvs
    have hle := hname p_name
    simp only [List.length_append, List.length_cons, List.length_nil]
    omega
  | string p_name bv =>
    rw [amfPropEncode, amfPropEncodeWith_eq_some] at h
    obtain ⟨hroom, vs, hvs, rfl⟩ := h
    obtain ⟨hvalue, rfl⟩ := amfEncodeString_eq_some.mp hvs
    have hle := hname p_name
    rw [List.length_append]
    split <;> simp only [List.length_append, List.length_cons, length_beBytes] <;> omega
  | object p_name o =>
    rw [amfPropEncode, amfPropEncodeWith_eq_some] at h
    obtain ⟨hroom, vs, hvs, rfl⟩ := h
    obtain ⟨-, hvalue, rfl⟩ := amfEncodeWith_eq_some.mp hvs
    have hle := hname p_name
    simp only [List.length_append, List.length_cons, List.length_nil]
    omega

/-- Properties that are written one after another are those that were kept. -/
theorem encodeAll_amfPropEncode {room : Nat} {ps : List AMFObjectProperty} {bs : List UInt8}
    (hps : ∀ p ∈ ps, p.Plain false) (h : encodeAll amfPropEncode room ps = some bs) :
    bs = amfPropsWire (amfExtrasKept room ps) ∧ bs.length ≤ room ∧
      ∀ p ∈ amfExtrasKept room ps, p.Plain false := by
  induction ps generalizing room bs with
  | nil =>
    cases h
    exact ⟨rfl, Nat.zero_le _, fun _ hp => absurd hp List.not_mem_nil⟩
  | cons p ps ih =>
    rw [List.forall_mem_cons] at hps
    rw [encodeAll, Option.bind_eq_bind, Option.bind_eq_some_iff] at h
    obtain ⟨xs, hxs, h⟩ := h
    obtain ⟨ys, hys, h⟩ := Option.bind_eq_some_iff.mp h
    cases h
    obtain ⟨hwire, hplain⟩ := amfPropEncode_eq_some hps.1 hxs
    have hle := amfPropEncode_le hxs
    obtain ⟨hrest, hroom, hall⟩ := ih hps.2 hys
    rw [amfExtrasKept, hxs, Option.getD_some, amfPropsWire, ← hwire, ← hrest, List.length_append,
      List.forall_mem_cons]
    exact ⟨rfl, by omega, hplain, hall⟩

/-- Values that fill a buffer are read back. -/
theorem amfDecode_propsWire
    (amf3Decode : List UInt8 → Int → Except Fault (AMFAnswer (List AMFObjectProperty)))
    {ps : List AMFObjectProperty} (hps : ∀ p ∈ ps, p.Plain false) :
    amfDecode amf3Decode (amfPropsWire ps) (amfPropsWire ps).length false =
      .ok (some (ps.map amfRead, (amfPropsWire ps).length)) := by
  have hflat : ∀ ps : List AMFObjectProperty,
      (ps.map fun p => (amfWire p, amfRead p)).flatMap Prod.fst = amfPropsWire ps := by
    intro ps
    induction ps with
    | nil => rfl
    | cons p ps ih => rw [List.map_cons, List.flatMap_cons, ih, amfPropsWire]
  have hlen : ∀ {ps : List AMFObjectProperty}, ∀ p ∈ ps,
      (amfWire p).length ≤ (amfPropsWire ps).length := by
    intro ps
    induction ps with
    | nil => exact fun _ hp => absurd hp List.not_mem_nil
    | cons q ps ih =>
      rw [List.forall_mem_cons, amfPropsWire, List.length_append]
      exact ⟨Nat.le_add_right _ _, fun p hp => (ih p hp).trans (Nat.le_add_left _ _)⟩
  have hitems : ∀ i ∈ ps.map fun p => (amfWire p, amfRead p),
      AMFItem (amfPropDecode amf3Decode ((amfPropsWire ps).length + 1) false) i.1 i.2 := by
    intro i hi
    obtain ⟨p, hp, rfl⟩ := List.mem_map.mp hi
    exact amfItem_wire (hps p hp) (Nat.le_succ_of_le (hlen p hp))
  have hread := amfDecodeWith_items hitems
  rw [hflat, List.map_map] at hread
  exact hread

/-- What a command function leaves of its extra properties. -/
def Invoke.keptExtras (c : Invoke) : List AMFObjectProperty :=
  amfExtrasKept (c.size - rtmpMaxHeaderSize - (amfPropsWire c.args).length) c.extras

/-- A command whose values can be read back, with room in front of every null. -/
structure Invoke.Sound (c : Invoke) : Prop where
  args : ∀ p ∈ c.args, p.Plain false
  extras : ∀ p ∈ c.extras, p.Plain false
  nulls : ∀ before p_name after, c.args = before ++ .null p_name :: after →
    (amfPropsWire before).length < c.size - rtmpMaxHeaderSize

/-- A command that is sent stays inside its buffer, and its body is read back as its
arguments and what was kept of its extra properties. -/
theorem Invoke.Sound.read_back {c : Invoke} (hc : c.Sound)
    (amf3Decode : List UInt8 → Int → Except Fault (AMFAnswer (List AMFObjectProperty)))
    {cmd : RTMPCommand} (h : c.command = some cmd) :
    cmd.body.length ≤ c.size - rtmpMaxHeaderSize ∧
      amfDecode amf3Decode cmd.body cmd.body.length false =
        .ok (some ((c.args ++ c.keptExtras).map amfRead, cmd.body.length)) := by
  rw [Invoke.command, Option.bind_eq_bind, Option.bind_eq_some_iff] at h
  obtain ⟨bs, hbs, h⟩ := h
  obtain ⟨more, hmore, h⟩ := Option.bind_eq_some_iff.mp h
  cases h
  obtain ⟨rfl, hle⟩ := encodeAll_amfEncodeArg hc.args hbs
  obtain ⟨rfl, hroom, hplain⟩ := encodeAll_amfPropEncode hc.extras hmore
  have hargsLe := hle hc.nulls
  constructor
  · rw [List.length_append]
    omega
  · have happend : ∀ ps qs : List AMFObjectProperty,
        amfPropsWire ps ++ amfPropsWire qs = amfPropsWire (ps ++ qs) := by
      intro ps qs
      induction ps with
      | nil => rfl
      | cons p ps ih => rw [amfPropsWire, List.append_assoc, ih, List.cons_append, amfPropsWire]
    rw [happend]
    refine amfDecode_propsWire amf3Decode fun p hp => ?_
    rcases List.mem_append.mp hp with hp | hp
    · exact hc.args p hp
    · exact hplain p hp

/-- The number of an `int` is no end mark. -/
theorem ofInt_ne_mark {x : Int} (hlo : -2 ^ 31 ≤ x) (hhi : x < 2 ^ 31) :
    (Double.ofInt x).toNat / 2 ^ 48 ≠ 9 := by
  have hnat : ∀ n : Nat, n < 2 ^ 53 → (Double.ofNat n).toNat = 0 ∨
      1022 * 2 ^ 52 ≤ (Double.ofNat n).toNat ∧ (Double.ofNat n).toNat < 2 ^ 63 := by
    intro n hn
    rcases Nat.eq_zero_or_pos n with rfl | hpos
    · exact .inl rfl
    · have hne : n ≠ 0 := by omega
      have hlog : n.log2 < 53 := (Nat.log2_lt hne).mpr hn
      obtain ⟨-, hhigh⟩ := Double.significand_bounds hne hn
      rw [Double.toNat_ofNat hne hn]
      exact .inr ⟨by omega, by omega⟩
  rw [Double.ofInt]
  split
  · rcases hnat x.natAbs (by omega) with h | ⟨hlow, hhigh⟩ <;>
      rw [UInt64.toNat_add, UInt64.toNat_ofNat'] <;> omega
  · rcases hnat x.toNat (by omega) with h | ⟨hlow, hhigh⟩ <;> omega

/-- A command that puts its null behind a short name and the transaction. -/
theorem Invoke.sound_of_null {c : Invoke} {method : AVal} {v : UInt64}
    {rest : List AMFObjectProperty}
    (hargs : c.args = argString method :: argNumber v :: .null [] :: rest)
    (hextras : c.extras = []) (hsize : 256 ≤ c.size)
    (hmethod : method.length ≤ 200) (hv : v.toNat / 2 ^ 48 ≠ 9)
    (hrest : ∀ p ∈ rest, p.Plain false ∧ ∀ p_name, p ≠ .null p_name) : c.Sound where
  args := by
    rw [hargs, List.forall_mem_cons, List.forall_mem_cons, List.forall_mem_cons]
    exact ⟨⟨amfNamed_false.mpr rfl, by omega⟩, ⟨amfNamed_false.mpr rfl, .inr hv⟩, ⟨rfl, rfl⟩,
      fun p hp => (hrest p hp).1⟩
  extras := by
    rw [hextras]
    exact fun _ hp => absurd hp List.not_mem_nil
  nulls := by
    rw [hargs]
    intro before p_name after he
    match before with
    | [] => cases he
    | [_] => cases he
    | [_, _] =>
      cases he
      have hshort : method.length < 65536 := by omega
      simp only [amfPropsWire, argString, argNumber, amfWire, amfNameWire, hshort, if_true,
        List.length_nil, List.nil_append, List.append_nil, List.length_append, List.length_cons,
        length_beBytes, rtmpMaxHeaderSize]
      omega
    | _ :: _ :: _ :: before =>
      simp only [List.cons_append, List.cons.injEq] at he
      obtain ⟨-, -, -, he⟩ := he
      have hmem : AMFObjectProperty.null p_name ∈ rest := by
        rw [he]
        exact List.mem_append_right _ List.mem_cons_self
      exact absurd rfl ((hrest _ hmem).2 p_name)

/-- The lengths and the times are `int`s, and the extra properties can be read back. -/
structure RTMPLink.Valid (link : RTMPLink) : Prop where
  strings : ∀ bv ∈ [link.app, link.flashVer, link.swfUrl, link.tcUrl, link.pageUrl, link.auth,
    link.playpath, link.subscribepath], bv.length < 2 ^ 31
  extras : ∀ p ∈ link.extras, p.Plain false
  seekTime : -2 ^ 31 ≤ link.seekTime ∧ link.seekTime < 2 ^ 31

/-- The commands of a session, for a stream, a transaction, a time, and a `double` where one is
an argument. -/
def commands (link : RTMPLink) (mStreamId txn iTime : Int) (doPause : Bool) (resp : AVal)
    (number : UInt64) : List Invoke :=
  [sendConnectPacket link txn, sendCreateStream txn, sendFCSubscribe link.subscribepath txn,
    sendReleaseStream link txn, sendFCPublish link txn, sendFCUnpublish link txn,
    sendPublish link mStreamId txn, sendDeleteStream number txn, sendPause doPause iTime txn,
    sendSeek iTime txn, sendCheckBW txn, sendCheckBWResult iTime number, sendPong iTime number,
    sendPlay link mStreamId txn, sendSecureTokenResponse resp]

/-- The object of `SendConnectPacket` can be read back. -/
theorem amfPlain_connectObject {link : RTMPLink} (hlink : link.Valid) :
    AMFPlain (connectObject link) := by
  have hstrings := hlink.strings
  simp only [List.forall_mem_cons] at hstrings
  obtain ⟨happ, hflash, hswf, htc, hpage, -⟩ := hstrings
  have hstring : ∀ (s : String) {bv : AVal}, 0 < (avc s).length → (avc s).length < 65536 →
      bv.length < 2 ^ 31 → (AMFObjectProperty.string (avc s) bv).Plain true :=
    fun s bv hpos hlt hbv => ⟨⟨hpos, hlt⟩, hbv⟩
  have hnumber : ∀ (s : String) (v : UInt64), 0 < (avc s).length → (avc s).length < 65536 →
      (AMFObjectProperty.number (avc s) v).Plain true :=
    fun s v hpos hlt => ⟨⟨hpos, hlt⟩, .inl rfl⟩
  have hboolean : ∀ (s : String) (v : UInt64), 0 < (avc s).length → (avc s).length < 65536 →
      (AMFObjectProperty.boolean (avc s) v).Plain true :=
    fun s v hpos hlt => ⟨hpos, hlt⟩
  rw [amfPlain_iff]
  intro p hp
  simp only [connectObject, List.mem_append, List.mem_ite_nil_left, List.mem_ite_nil_right,
    List.mem_cons, List.not_mem_nil, or_false] at hp
  rcases hp with (((((rfl | ⟨-, rfl⟩) | ⟨-, rfl⟩) | ⟨-, rfl⟩) | ⟨-, rfl⟩) |
    ⟨-, (rfl | rfl | rfl | rfl | rfl) | ⟨-, rfl⟩⟩) | ⟨-, rfl⟩
  · exact hstring "app" (by decide) (by decide) happ
  · exact hstring "type" (by decide) (by decide) (by decide)
  · exact hstring "flashVer" (by decide) (by decide) hflash
  · exact hstring "swfUrl" (by decide) (by decide) hswf
  · exact hstring "tcUrl" (by decide) (by decide) htc
  · exact hboolean "fpad" _ (by decide) (by decide)
  · exact hnumber "capabilities" _ (by decide) (by decide)
  · exact hnumber "audioCodecs" _ (by decide) (by decide)
  · exact hnumber "videoCodecs" _ (by decide) (by decide)
  · exact hnumber "videoFunction" _ (by decide) (by decide)
  · exact hstring "pageUrl" (by decide) (by decide) hpage
  · exact hnumber "objectEncoding" _ (by decide) (by decide)

/-- The connect command can be read back. -/
theorem sound_sendConnectPacket {link : RTMPLink} (hlink : link.Valid) {txn : Int}
    (hv : (Double.ofInt txn).toNat / 2 ^ 48 ≠ 9) : (sendConnectPacket link txn).Sound := by
  have hstrings := hlink.strings
  simp only [List.forall_mem_cons] at hstrings
  have hargs : ∀ p ∈ (sendConnectPacket link txn).args,
      p.Plain false ∧ ∀ p_name, p ≠ .null p_name := by
    intro p hp
    simp only [sendConnectPacket, List.mem_append, List.mem_ite_nil_left, List.mem_cons,
      List.not_mem_nil, or_false] at hp
    rcases hp with (rfl | rfl | rfl) | ⟨-, rfl | rfl⟩
    · exact ⟨⟨amfNamed_false.mpr rfl, by decide⟩, nofun⟩
    · exact ⟨⟨amfNamed_false.mpr rfl, .inr hv⟩, nofun⟩
    · exact ⟨⟨amfNamed_false.mpr rfl, amfPlain_connectObject hlink⟩, nofun⟩
    · exact ⟨amfNamed_false.mpr rfl, nofun⟩
    · exact ⟨⟨amfNamed_false.mpr rfl, hstrings.2.2.2.2.2.1⟩, nofun⟩
  refine ⟨fun p hp => (hargs p hp).1, hlink.extras, fun before p_name after he => ?_⟩
  have hmem : AMFObjectProperty.null p_name ∈ (sendConnectPacket link txn).args := by
    rw [he]
    exact List.mem_append_right _ List.mem_cons_self
  exact absurd rfl ((hargs _ hmem).2 p_name)

/-- Every command of a session can be read back. -/
theorem sound_of_mem_commands {link : RTMPLink} (hlink : link.Valid) {mStreamId txn iTime : Int}
    {doPause : Bool} {resp : AVal} {number : UInt64} (htxn : -2 ^ 31 ≤ txn ∧ txn < 2 ^ 31)
    (htime : -2 ^ 31 ≤ iTime ∧ iTime < 2 ^ 31) (hresp : resp.length < 2 ^ 31)
    (hvnumber : number.toNat / 2 ^ 48 ≠ 9) {c : Invoke}
    (hc : c ∈ commands link mStreamId txn iTime doPause resp number) : c.Sound := by
  have hstrings := hlink.strings
  simp only [List.forall_mem_cons] at hstrings
  obtain ⟨-, -, -, -, -, -, hplay, hsubscribe, -⟩ := hstrings
  have hv := ofInt_ne_mark htxn.1 htxn.2
  have hvtime := ofInt_ne_mark htime.1 htime.2
  have hstring : ∀ {bv : AVal}, bv.length < 2 ^ 31 → (argString bv).Plain false ∧
      ∀ p_name, argString bv ≠ .null p_name :=
    fun hbv => ⟨⟨amfNamed_false.mpr rfl, hbv⟩, nofun⟩
  have hnumber : ∀ {v : UInt64}, v.toNat / 2 ^ 48 ≠ 9 → (argNumber v).Plain false ∧
      ∀ p_name, argNumber v ≠ .null p_name :=
    fun hv => ⟨⟨amfNamed_false.mpr rfl, .inr hv⟩, nofun⟩
  have hnone : ∀ p ∈ ([] : List AMFObjectProperty), p.Plain false ∧ ∀ p_name, p ≠ .null p_name :=
    fun _ hp => absurd hp List.not_mem_nil
  simp only [commands, List.mem_cons, List.not_mem_nil, or_false] at hc
  rcases hc with rfl | rfl | rfl | rfl | rfl | rfl | rfl | rfl | rfl | rfl | rfl | rfl | rfl |
    rfl | rfl
  · exact sound_sendConnectPacket hlink hv
  · exact Invoke.sound_of_null rfl rfl (Nat.le_of_ble_eq_true rfl) (by decide) hv hnone
  · exact Invoke.sound_of_null rfl rfl (Nat.le_of_ble_eq_true rfl) (by decide) hv
      (List.forall_mem_singleton.mpr (hstring hsubscribe))
  · exact Invoke.sound_of_null rfl rfl (Nat.le_of_ble_eq_true rfl) (by decide) hv
      (List.forall_mem_singleton.mpr (hstring hplay))
  · exact Invoke.sound_of_null rfl rfl (Nat.le_of_ble_eq_true rfl) (by decide) hv
      (List.forall_mem_singleton.mpr (hstring hplay))
  · exact Invoke.sound_of_null rfl rfl (Nat.le_of_ble_eq_true rfl) (by decide) hv
      (List.forall_mem_singleton.mpr (hstring hplay))
  · refine Invoke.sound_of_null rfl rfl (Nat.le_of_ble_eq_true rfl) (by decide) hv ?_
    exact List.forall_mem_cons.mpr
      ⟨hstring hplay, List.forall_mem_singleton.mpr (hstring (by decide))⟩
  · exact Invoke.sound_of_null rfl rfl (Nat.le_of_ble_eq_true rfl) (by decide) hv
      (List.forall_mem_singleton.mpr (hnumber hvnumber))
  · refine Invoke.sound_of_null rfl rfl (Nat.le_of_ble_eq_true rfl) (by decide) hv ?_
    exact List.forall_mem_cons.mpr
      ⟨⟨amfNamed_false.mpr rfl, nofun⟩, List.forall_mem_singleton.mpr (hnumber hvtime)⟩
  · exact Invoke.sound_of_null rfl rfl (Nat.le_of_ble_eq_true rfl) (by decide) hv
      (List.forall_mem_singleton.mpr (hnumber hvtime))
  · exact Invoke.sound_of_null rfl rfl (Nat.le_of_ble_eq_true rfl) (by decide) hv hnone
  · exact Invoke.sound_of_null rfl rfl (Nat.le_of_ble_eq_true rfl) (by decide) hvnumber
      (List.forall_mem_singleton.mpr (hnumber hvtime))
  · exact Invoke.sound_of_null rfl rfl (Nat.le_of_ble_eq_true rfl) (by decide) hvnumber hnone
  · refine Invoke.sound_of_null rfl rfl (Nat.le_of_ble_eq_true rfl) (by decide) hv ?_
    intro p hp
    change p ∈ [argString link.playpath, argNumber _] ++ _ at hp
    simp only [List.mem_append, List.mem_ite_nil_left, List.mem_cons, List.not_mem_nil,
      or_false] at hp
    rcases hp with (rfl | rfl) | ⟨-, rfl⟩
    · exact hstring hplay
    · refine hnumber ?_
      split
      · exact ofInt_ne_mark (by decide) (by decide)
      · split
        · exact ofInt_ne_mark hlink.seekTime.1 hlink.seekTime.2
        · decide
    · refine hnumber (ofInt_ne_mark ?_ ?_) <;> unfold toInt <;> split <;> omega
  · exact Invoke.sound_of_null rfl rfl (Nat.le_of_ble_eq_true rfl) (by decide) (by decide)
      (List.forall_mem_singleton.mpr (hstring hresp))

/-- The values of `RTMP_Init`. -/
def rtmpInit : RTMPLink where
  app := []
  flashVer := []
  swfUrl := []
  tcUrl := []
  pageUrl := []
  auth := []
  token := []
  playpath := []
  subscribepath := []
  extras := []
  seekTime := 0
  stopTime := 0
  write := false
  lfAuth := false
  lfLive := false
  lfPlst := false
  lfBufx := false
  mFAudioCodecs := Double.ofNat 3191
  mFVideoCodecs := Double.ofNat 252
  mFEncoding := Double.ofNat 0
  mBSendEncoding := false
  mNServerBW := 2500000
  mNBufferMS := 30000

theorem valid_rtmpInit : rtmpInit.Valid :=
  ⟨by decide, fun _ hp => absurd hp List.not_mem_nil, by decide⟩

end Jrtplib4Android
