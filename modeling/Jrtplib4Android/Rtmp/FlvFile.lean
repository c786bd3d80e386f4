import Mathlib.Data.List.Basic
import Mathlib.Tactic.IntervalCases
import Jrtplib4Android.Core.File
import Jrtplib4Android.Core.Loop
import Jrtplib4Android.Rtmp.Flv
import Jrtplib4Android.Rtmp.Packet

/-!
# Publishing an FLV file

`pushFlvFile` walks the tags of a file with reads, peeks and seeks and sends the
audio and video ones. The fields are decoded in place: a read overwrites the first
bytes of a 32-bit variable, in little-endian memory, and a macro swaps them. The
loop is modelled from the connected stream on, without the clock that paces it.
-/

namespace Jrtplib4Android

open CSem

variable {ω : Type}

/-- `HTON24`. -/
def hton24 (x : UInt32) : UInt32 :=
  (x >>> 16 &&& (0xff : UInt32)) ||| (x <<< 16 &&& (0xff0000 : UInt32)) |||
    (x &&& (0xff00 : UInt32))

/-- `HTON32`. -/
def hton32 (x : UInt32) : UInt32 :=
  (x >>> 24 &&& (0xff : UInt32)) ||| (x >>> 8 &&& (0xff00 : UInt32)) |||
    (x <<< 8 &&& (0xff0000 : UInt32)) ||| (x <<< 24 &&& (0xff000000 : UInt32))

/-- `HTONTIME`. -/
def htontime (x : UInt32) : UInt32 :=
  (x >>> 16 &&& (0xff : UInt32)) ||| (x <<< 16 &&& (0xff0000 : UInt32)) |||
    (x &&& (0xff00 : UInt32)) ||| (x &&& (0xff000000 : UInt32))

/-- `fread(x, n, 1, fp)` into a 32-bit variable; `none` when the item is not complete. -/
def readItem (n : Nat) (x : UInt32) (fp : File) : Option (UInt32 × File) :=
  let (bs, fp) := fp.fread n
  if bs.length = n then some (overlay x bs, fp) else none

/-- `ReadU8`. -/
def readU8 (u8 : UInt32) (fp : File) : Option (UInt32 × File) := readItem 1 u8 fp

/-- `ReadU24`. -/
def readU24 (u24 : UInt32) (fp : File) : Option (UInt32 × File) := do
  let (u24, fp) ← readItem 3 u24 fp
  return (hton24 u24, fp)

/-- `ReadU32`. -/
def readU32 (u32 : UInt32) (fp : File) : Option (UInt32 × File) := do
  let (u32, fp) ← readItem 4 u32 fp
  return (hton32 u32, fp)

/-- `PeekU8`. -/
def peekU8 (u8 : UInt32) (fp : File) : Option (UInt32 × File) := do
  let (u8, fp) ← readItem 1 u8 fp
  return (u8, (fp.fseek (-1)).getD fp)

/-- `ReadTime`. -/
def readTime (utime : UInt32) (fp : File) : Option (UInt32 × File) := do
  let (utime, fp) ← readItem 4 utime fp
  return (htontime utime, fp)

/-- The variables of `pushFlvFile` at the loop head, and the messages handed over. -/
structure FlvPush (ω : Type) where
  rtmp : RTMP ω
  packet : RTMPPacket
  fp : File
  bNextIsKey : Int
  preTagsize : UInt32
  type : UInt32
  datalength : UInt32
  timestamp : UInt32
  streamid : UInt32
  sent : List Message

namespace FlvPush

/-- The four reads at the head of the loop; `none` is a `break`. -/
def readHeader (s : FlvPush ω) : Option (FlvPush ω) := do
  let (type, fp) ← readU8 s.type s.fp
  let (datalength, fp) ← readU24 s.datalength fp
  let (timestamp, fp) ← readTime s.timestamp fp
  let (streamid, fp) ← readU24 s.streamid fp
  return { s with
    fp := fp
    type := type
    datalength := datalength
    timestamp := timestamp
    streamid := streamid }

/-- The packet of the tag that was read, with its body. -/
def tagPacket (s : FlvPush ω) (body : Block) : RTMPPacket :=
  { s.packet with
    mBody := body
    mHeaderType := rtmpPacketSizeLarge
    mNTimeStamp := s.timestamp
    mPacketType := s.type.toUInt8
    mNBodySize := s.datalength }

/-- The packet that `sendTag` hands over: the body has to be complete. -/
def tagOffered (s : FlvPush ω) : Option RTMPPacket := do
  let (bs, _) := s.fp.fread s.datalength.toNat
  let body ← (memcpy s.packet.mBody 0 (.ofList bs) (some 0) bs.length).toOption
  if bs.length = s.datalength.toNat then some (s.tagPacket body) else none

/-- Read the body into the packet and send it; `false` is a `break`. -/
def sendTag (net : ω → RTMPPacket → ω × SendReply) (s : FlvPush ω) :
    Except Fault (Bool × FlvPush ω) := do
  let (bs, fp) := s.fp.fread s.datalength.toNat
  let body ← memcpy s.packet.mBody 0 (.ofList bs) (some 0) bs.length
  if bs.length ≠ s.datalength.toNat then
    return (false, { s with fp := fp, packet := { s.packet with mBody := body } })
  let packet := s.tagPacket body
  if s.rtmp.isConnected then
    let (rtmp, packet, ok, message) ← s.rtmp.sendPacket net packet
    return (ok, { s with rtmp := rtmp, packet := packet, fp := fp, sent := s.sent ++ [message] })
  else return (false, { s with fp := fp, packet := packet })

/-- The reads behind a sent tag, with the look-ahead at the next video tag; `none` is a
`break`. -/
def lookAhead (s : FlvPush ω) : Option (FlvPush ω) := do
  let (preTagsize, fp) ← readU32 s.preTagsize s.fp
  let (type, fp) ← peekU8 s.type fp
  if type = 0x09 then
    let fp ← fp.fseek 11
    let (type, fp) ← peekU8 type fp
    return { s with
      fp := (fp.fseek (-11)).getD fp
      bNextIsKey := if type = 0x17 then 1 else 0
      preTagsize := preTagsize
      type := type }
  else return { s with fp := fp, preTagsize := preTagsize, type := type }

/-- The packet that a pass hands over, if it comes to an audio or video tag. -/
def offered (s : FlvPush ω) : Option RTMPPacket := do
  let s ← s.readHeader
  if s.type ≠ 0x08 ∧ s.type ≠ 0x09 then none else s.tagOffered

/-- One pass of the loop. -/
def pass (net : ω → RTMPPacket → ω × SendReply) (s : FlvPush ω) :
    Pass (FlvPush ω) (Except Fault (List Message)) :=
  match s.readHeader with
  | none => .leave (.ok s.sent)
  | some s =>
    if s.type ≠ 0x08 ∧ s.type ≠ 0x09 then
      .again { s with fp := (s.fp.fseek (s.datalength + 4).toNat).getD s.fp }
    else Pass.attempt do
      let (ok, s) ← s.sendTag net
      if ok then
        match s.lookAhead with
        | none => return .leave (.ok s.sent)
        | some s => return .again s
      else return .leave (.ok s.sent)

/-- The variables when the loop is entered, behind the file header and the first
`PreviousTagSize`. -/
def start (rtmp : RTMP ω) (bytes : List UInt8) : FlvPush ω where
  rtmp := rtmp
  packet := { RTMPPacket.alloc (1024 * 64) with
    mHasAbsTimestamp := 0
    mNChannel := 0x04
    mNInfoField2 := rtmp.mStreamId }
  fp := ⟨bytes, 9 + 4⟩
  bNextIsKey := 1
  preTagsize := 0
  type := 0
  datalength := 0
  timestamp := 0
  streamid := 0
  sent := []

end FlvPush

/-- `pushFlvFile` on a file with the given bytes: the messages handed over. -/
def pushFlvFile (net : ω → RTMPPacket → ω × SendReply) (rtmp : RTMP ω) (bytes : List UInt8) :
    Except Fault (List Message) :=
  (loop (FlvPush.pass net) (bytes.length + 1) (.start rtmp bytes)).getD (.error .spin)

theorem hton24_overlay (x : UInt32) (b₂ b₁ b₀ : UInt8) :
    hton24 (overlay x [b₂, b₁, b₀]) = leWord b₀ b₁ b₂ 0 := by
  apply UInt32.eq_of_toBitVec_eq
  simp only [hton24, overlay, leWord, List.getD_cons_zero, List.getD_cons_succ]
  ext i hi
  interval_cases i <;> simp

/-- A 24-bit field read into a word holds its value. -/
theorem hton24_overlay_field (x : UInt32) {bs : List UInt8} (h : bs.length = 3) :
    hton24 (overlay x bs) = UInt32.ofNat (beNat bs) := by
  obtain ⟨b₂, b₁, b₀, rfl⟩ := List.length_eq_three.mp h
  have h₀ := b₀.toNat_lt
  have h₁ := b₁.toNat_lt
  have h₂ := b₂.toNat_lt
  apply UInt32.toNat_inj.mp
  rw [hton24_overlay, toNat_leWord, UInt32.toNat_ofNat']
  simp only [beNat, List.foldl_cons, List.foldl_nil, UInt8.toNat_zero]
  omega

theorem htontime_overlay (x : UInt32) (b₂ b₁ b₀ b₃ : UInt8) :
    htontime (overlay x [b₂, b₁, b₀, b₃]) = leWord b₀ b₁ b₂ b₃ := by
  apply UInt32.eq_of_toBitVec_eq
  simp only [htontime, overlay, leWord, List.getD_cons_zero, List.getD_cons_succ]
  ext i hi
  interval_cases i <;> simp

/-- A field in front of the rest is read whole. -/
theorem readItem_append {n : Nat} {fp : File} {xs ys : List UInt8} (x : UInt32)
    (h : fp.rest = xs ++ ys) (hn : xs.length = n) :
    readItem n x fp = some (overlay x xs, fp.forward n) := by
  simp only [readItem, File.fread_append h hn, hn, ite_true]

/-- At the end of the file there is no field. -/
theorem readItem_eof {n : Nat} {fp : File} (x : UInt32) (h : fp.rest = []) (hn : 0 < n) :
    readItem n x fp = none := by
  have hne : ¬ ([] : List UInt8).length = n := by
    rw [List.length_nil]
    omega
  simp only [readItem, File.fread_of_rest_nil h, hne, ite_false]

/-- A peek leaves the file alone. -/
theorem peekU8_cons {fp : File} {b : UInt8} {ys : List UInt8} (x : UInt32)
    (h : fp.rest = b :: ys) : peekU8 x fp = some (overlay x [b], fp) := by
  have hcons : fp.rest = [b] ++ ys := h
  have hread := readItem_append (n := 1) x hcons rfl
  have hback := fp.fseek_back 1
  simp only [Nat.cast_one] at hback
  simp only [peekU8, hread, Option.bind_eq_bind, Option.bind_some, hback, Option.getD_some]
  rfl

/-- A type read into the reused variable is the byte itself. -/
theorem leWord_type (b : UInt8) : leWord b 0 0 0 = b.toUInt32 := by
  revert b
  exact forall_byte (by decide +kernel)

/-- A type read into the reused variable is neither audio nor video exactly if its byte is. -/
theorem leWord_ne_iff (b : UInt8) :
    (leWord b 0 0 0 ≠ 0x08 ∧ leWord b 0 0 0 ≠ 0x09) ↔ ¬ (b = 0x08 ∨ b = 0x09) := by
  revert b
  exact forall_byte (by decide +kernel)

namespace FlvPush

/-- The variables once the header of a tag is read. -/
def headed (s : FlvPush ω) (t : FlvTag) (streamid : UInt32) : FlvPush ω :=
  { s with
    fp := s.fp.forward 11
    type := leWord t.type 0 0 0
    datalength := UInt32.ofNat t.body.length
    timestamp := t.timestamp
    streamid := streamid }

/-- The variables once a body of `n` bytes is read and its message handed over. -/
def handed (s : FlvPush ω) (n : Nat) (message : Message) (rtmp : RTMP ω) (packet : RTMPPacket) :
    FlvPush ω :=
  { s with
    rtmp := rtmp
    packet := packet
    fp := s.fp.forward n
    sent := s.sent ++ [message] }

/-- The variables in front of the tag behind a sent one. -/
def ahead (s : FlvPush ω) (key : Int) (preTagsize : UInt32) (c : UInt8) : FlvPush ω :=
  { s with
    fp := s.fp.forward 4
    bNextIsKey := key
    preTagsize := preTagsize
    type := leWord c 0 0 0 }

/-- The head of the loop reads eleven bytes, whatever they are. -/
theorem readHeader_cons {s : FlvPush ω} {b c : UInt8} {size time ids ys : List UInt8}
    (hrest : s.fp.rest = b :: (size ++ (time ++ (ids ++ ys)))) (hsize : size.length = 3)
    (htime : time.length = 4) (hids : ids.length = 3) (htype : s.type = leWord c 0 0 0) :
    s.readHeader = some { s with
      fp := s.fp.forward 11
      type := leWord b 0 0 0
      datalength := UInt32.ofNat (beNat size)
      timestamp := htontime (overlay s.timestamp time)
      streamid := hton24 (overlay s.streamid ids) } := by
  have r₀ : s.fp.rest = [b] ++ (size ++ (time ++ (ids ++ ys))) := hrest
  have h₁ := readItem_append (n := 1) s.type r₀ rfl
  have r₁ := File.rest_forward_append (n := 1) r₀ rfl
  have h₂ := readItem_append (n := 3) s.datalength r₁ hsize
  have r₂ := File.rest_forward_append (n := 3) r₁ hsize
  have h₃ := readItem_append (n := 4) s.timestamp r₂ htime
  have r₃ := File.rest_forward_append (n := 4) r₂ htime
  have h₄ := readItem_append (n := 3) s.streamid r₃ hids
  rw [htype, overlay_one] at h₁
  simp only [readHeader, readU8, readU24, readTime, htype, h₁, h₂, h₃, h₄, Option.bind_eq_bind,
    Option.bind_some, pure, hton24_overlay_field _ hsize]
  rfl

/-- The head of the loop reads the tag header and stops in front of the body. -/
theorem readHeader_eq {s : FlvPush ω} {t : FlvTag} {ys : List UInt8} {c : UInt8}
    (hrest : s.fp.rest = t.header ++ ys) (htype : s.type = leWord c 0 0 0) :
    ∃ streamid, s.readHeader = some (s.headed t streamid) := by
  have r₀ : s.fp.rest = t.type :: (beBytes 3 t.body.length ++
      ([byteAt t.timestamp 2, byteAt t.timestamp 1, byteAt t.timestamp 0, byteAt t.timestamp 3] ++
        (t.streamId ++ ys))) := by
    rw [hrest, FlvTag.header]
    simp only [List.cons_append, List.nil_append, List.append_assoc]
  have hread := readHeader_cons r₀ (length_beBytes 3 _) rfl t.streamId_length htype
  rw [beNat_beBytes (by simpa using t.body_lt), htontime_overlay, leWord_byteAt] at hread
  exact ⟨_, hread⟩

/-- Behind the last tag the loop is left. -/
theorem lookAhead_eof {s : FlvPush ω} {prevSize : List UInt8}
    (hrest : s.fp.rest = prevSize ++ []) (hprev : prevSize.length = 4) : s.lookAhead = none := by
  have h₁ := readItem_append (n := 4) s.preTagsize hrest hprev
  have r₁ := File.rest_forward_append hrest hprev
  have h₂ := readItem_eof (n := 1) s.type r₁ (by decide)
  simp only [lookAhead, readU32, peekU8, h₁, h₂, Option.bind_eq_bind, Option.bind_some,
    Option.bind_none, pure]

/-- With sixteen bytes left the cursor ends up behind the tag size, whether the look-ahead
takes place or not. -/
theorem lookAhead_of_le {s : FlvPush ω} {c : UInt8} (hlen : 16 ≤ s.fp.rest.length)
    (htype : s.type = leWord c 0 0 0) :
    ∃ key preTagsize c', s.lookAhead = some (s.ahead key preTagsize c') := by
  have r₀ : s.fp.rest = s.fp.rest.take 4 ++ s.fp.rest.drop 4 := (List.take_append_drop 4 _).symm
  have h₁ := readItem_append (n := 4) s.preTagsize r₀ (by rw [List.length_take]; omega)
  obtain ⟨b, ys, hb⟩ := List.exists_cons_of_length_pos
    (by rw [File.rest_forward, List.length_drop]; omega : 0 < (s.fp.forward 4).rest.length)
  have h₂ := peekU8_cons s.type hb
  rw [htype, overlay_one] at h₂
  by_cases hvideo : leWord b 0 0 0 = 0x09
  · obtain ⟨b', ys', hb'⟩ := List.exists_cons_of_length_pos
      (by rw [File.rest_forward, File.rest_forward, List.length_drop, List.length_drop]; omega :
        0 < ((s.fp.forward 4).forward 11).rest.length)
    have h₃ := peekU8_cons (leWord b 0 0 0) hb'
    rw [overlay_one, hvideo] at h₃
    have hseek := (s.fp.forward 4).fseek_forward 11
    have hback := (s.fp.forward 4).fseek_back 11
    simp only [Nat.cast_ofNat] at hseek hback
    refine ⟨if leWord b' 0 0 0 = 0x17 then 1 else 0,
      hton32 (overlay s.preTagsize (s.fp.rest.take 4)), b', ?_⟩
    simp only [lookAhead, readU32, h₁, htype, h₂, hvideo, ite_true, Option.bind_eq_bind,
      Option.bind_some, pure, hseek, h₃, hback, Option.getD_some]
    rfl
  · refine ⟨s.bNextIsKey, hton32 (overlay s.preTagsize (s.fp.rest.take 4)), b, ?_⟩
    simp only [lookAhead, readU32, h₁, htype, h₂, hvideo, ite_false, Option.bind_eq_bind,
      Option.bind_some, pure]
    rfl

/-- In front of another tag the look-ahead ends up on that tag: at least the tag size
follows the tag header. -/
theorem lookAhead_eq {s : FlvPush ω} {t : FlvTag} {prevSize ys : List UInt8} {c : UInt8}
    (hrest : s.fp.rest = prevSize ++ (t.bytes ++ ys)) (hprev : prevSize.length = 4)
    (htype : s.type = leWord c 0 0 0) :
    ∃ key preTagsize c', s.lookAhead = some (s.ahead key preTagsize c') := by
  refine lookAhead_of_le ?_ htype
  rw [hrest, List.length_append, List.length_append, FlvTag.length_bytes, hprev]
  omega

end FlvPush

/-- The network accepts every packet and keeps the connection open. -/
def Accepts (net : ω → RTMPPacket → ω × SendReply) : Prop :=
  ∀ io packet, (net io packet).2.ok = true ∧ (net io packet).2.closed = false

/-- The network accepts the packets that the loop hands over from `s` on, and keeps the
connection open. -/
def FlvPush.Accepted (net : ω → RTMPPacket → ω × SendReply) (s : FlvPush ω) : Prop :=
  ∀ s' packet, Visits (FlvPush.pass net) s s' → s'.offered = some packet →
    (net s'.rtmp.io packet).2.ok = true ∧ (net s'.rtmp.io packet).2.closed = false

/-- What is to be handed over for an audio or video tag. -/
def FlvTag.message (sid : Int) (t : FlvTag) : Message where
  headerType := rtmpPacketSizeLarge
  packetType := t.type
  hasAbsTimestamp := 0
  channel := 4
  timestamp := t.timestamp
  streamId := sid
  bodySize := UInt32.ofNat t.body.length
  body := t.body

/-- The connection is open and the packet prepared for the stream `sid`. -/
structure Publishing (sid : Int) (rtmp : RTMP ω) (packet : RTMPPacket) : Prop where
  connected : rtmp.connected = true
  size : packet.mBody.size = 65536
  absolute : packet.mHasAbsTimestamp = 0
  channel : packet.mNChannel = 4
  streamId : packet.mNInfoField2 = sid

namespace FlvPush

/-- The loop head in front of the remaining tags. The bytes above the lowest one of the
reused type variable stay zero. -/
structure AtTag (sid : Int) (s : FlvPush ω) (tags : List FlvTag) : Prop where
  publishing : Publishing sid s.rtmp s.packet
  rest : s.fp.rest = tags.flatMap FlvTag.bytes
  type : ∃ c, s.type = leWord c 0 0 0

/-- The head of the loop has read the tag. -/
structure HasRead (s : FlvPush ω) (t : FlvTag) : Prop where
  type : s.type = leWord t.type 0 0 0
  datalength : s.datalength.toNat = t.body.length
  timestamp : s.timestamp = t.timestamp

/-- The packet of a tag that was read is the tag's message. -/
theorem message_tagPacket {sid : Int} {s : FlvPush ω} {t : FlvTag} {body : Block}
    (hpub : Publishing sid s.rtmp s.packet) (hread : HasRead s t) (hbody : body.Begins t.body) :
    (s.tagPacket body).message = t.message sid := by
  have htype : s.type.toUInt8 = t.type := by
    rw [hread.type, leWord_type, UInt8.toUInt8_toUInt32]
  have hsize : s.datalength = UInt32.ofNat t.body.length := by
    rw [← hread.datalength, UInt32.ofNat_toNat]
  have hslice : body.slice 0 s.datalength.toNat = t.body := by
    rw [hread.datalength]
    exact hbody
  simp only [tagPacket, RTMPPacket.message, FlvTag.message, htype, hslice, hread.timestamp,
    hpub.absolute, hpub.channel, hpub.streamId]
  rw [hsize]

/-- A body that is read whole is handed over with what the packet holds then. -/
theorem sendTag_handed {net : ω → RTMPPacket → ω × SendReply} {s : FlvPush ω} {bs : List UInt8}
    {body : Block} {io : ω} {reply : SendReply}
    (hread : s.fp.fread s.datalength.toNat = (bs, s.fp.forward s.datalength.toNat))
    (hfull : bs.length = s.datalength.toNat)
    (hcopy : memcpy s.packet.mBody 0 (.ofList bs) (some 0) s.datalength.toNat = .ok body)
    (hroom : s.datalength.toNat ≤ body.size) (hconn : s.rtmp.connected = true)
    (hnet : net s.rtmp.io (s.tagPacket body) = (io, reply)) :
    s.sendTag net = .ok (reply.ok, s.handed s.datalength.toNat (s.tagPacket body).message
      (s.rtmp.answered io reply) ((s.tagPacket body).returned reply)) := by
  have hsend := RTMP.sendPacket_eq hnet hroom
  simp only [sendTag, hread, hfull, hcopy, RTMP.isConnected, hconn, hsend, ne_eq, not_true,
    ite_true, ite_false, bind, Except.bind]
  rfl

/-- What is accepted from `s` on is accepted behind its next pass. -/
theorem Accepted.again {net : ω → RTMPPacket → ω × SendReply} {s s' : FlvPush ω}
    (h : s.Accepted net) (hpass : s.pass net = .again s') : s'.Accepted net :=
  fun _ _ hvisits => h _ _ (Relation.ReflTransGen.head hpass hvisits)

/-- A body that fits is read and sent with its tag's type and timestamp. -/
theorem sendTag_eq {net : ω → RTMPPacket → ω × SendReply} {sid : Int} {s : FlvPush ω}
    {t : FlvTag} {ys : List UInt8} (hpub : Publishing sid s.rtmp s.packet)
    (haccepted : ∀ packet, s.tagOffered = some packet →
      (net s.rtmp.io packet).2.ok = true ∧ (net s.rtmp.io packet).2.closed = false)
    (hread : HasRead s t) (hrest : s.fp.rest = t.body ++ ys) (hbody : t.body.length ≤ 65536) :
    ∃ rtmp packet, s.sendTag net =
      .ok (true, s.handed t.body.length (t.message sid) rtmp packet) ∧
      Publishing sid rtmp packet := by
  obtain ⟨body, hcopy, hsize, hbegins⟩ := Block.memcpy_begins t.body (i := 0)
    s.packet.mBody.begins_nil rfl (by rw [hpub.size]; omega)
  rcases hnet : net s.rtmp.io (s.tagPacket body) with ⟨io, reply⟩
  have hfull := hread.datalength.symm
  have hfread := File.fread_append hrest rfl
  rw [hfull] at hcopy hfread
  have hoffered : s.tagOffered = some (s.tagPacket body) := by
    simp only [tagOffered, hfread, hfull, hcopy, Except.toOption, Option.bind_eq_bind,
      Option.bind_some, ite_true]
  obtain ⟨hok, hclosed⟩ := haccepted _ hoffered
  rw [hnet] at hok hclosed
  have hsend := sendTag_handed hfread hfull hcopy
    (by rw [hread.datalength, hsize, hpub.size]; omega) hpub.connected hnet
  rw [message_tagPacket hpub hread hbegins, hok, hread.datalength] at hsend
  refine ⟨s.rtmp.answered io reply, (s.tagPacket body).returned reply, hsend, ?_, ?_,
    hpub.absolute, hpub.channel, hpub.streamId⟩
  · rw [RTMP.connected_answered, hpub.connected, hclosed]
    rfl
  · exact hsize.trans hpub.size

/-- The bytes of the first tag lie in front of those of the others. -/
private theorem rest_cons {s : FlvPush ω} {t : FlvTag} {tags : List FlvTag} {sid : Int}
    (h : AtTag sid s (t :: tags)) :
    s.fp.rest = t.header ++ (t.body ++ (t.prevSize ++ tags.flatMap FlvTag.bytes)) := by
  rw [h.rest, List.flatMap_cons, FlvTag.bytes, List.append_assoc, List.append_assoc]

/-- The tag is skipped exactly if it is neither audio nor video. -/
private theorem skipped_iff (t : FlvTag) :
    leWord t.type 0 0 0 ≠ 0x08 ∧ leWord t.type 0 0 0 ≠ 0x09 ↔ t.isAv = false := by
  rw [leWord_ne_iff, FlvTag.isAv, ← Bool.not_eq_true, Bool.or_eq_true, decide_eq_true_iff,
    decide_eq_true_iff]

/-- A pass in front of a tag that is neither audio nor video lands on the next tag. -/
theorem pass_skip (net : ω → RTMPPacket → ω × SendReply) {sid : Int} {s : FlvPush ω} {t : FlvTag}
    {tags : List FlvTag} (h : AtTag sid s (t :: tags)) (hskip : t.isAv = false) :
    ∃ s', s.pass net = .again s' ∧ AtTag sid s' tags ∧ s'.sent = s.sent := by
  obtain ⟨c, htype⟩ := h.type
  obtain ⟨streamid, hread⟩ := readHeader_eq (rest_cons h) htype
  have hbody := t.body_lt
  have r₁ := File.rest_forward_append (rest_cons h) t.length_header
  rw [← List.append_assoc] at r₁
  have r₂ := File.rest_forward_append (n := t.body.length + 4) r₁ (by
    rw [List.length_append, t.prevSize_length])
  have hoff : (UInt32.ofNat t.body.length + 4).toNat = t.body.length + 4 := by
    rw [UInt32.toNat_add, UInt32.toNat_ofNat']
    simp only [UInt32.reduceToNat]
    omega
  refine ⟨{ s.headed t streamid with fp := (s.fp.forward 11).forward (t.body.length + 4) }, ?_,
    ⟨h.publishing, r₂, t.type, rfl⟩, rfl⟩
  simp only [pass, hread, headed, if_pos ((skipped_iff t).mpr hskip), hoff, File.fseek_forward,
    Option.getD_some]

/-- A pass in front of an audio or video tag hands over its message. It lands on the next
tag or, behind the last one, leaves the loop. -/
theorem pass_send {net : ω → RTMPPacket → ω × SendReply} {sid : Int} {s : FlvPush ω}
    {t : FlvTag} {tags : List FlvTag} (haccepted : s.Accepted net) (h : AtTag sid s (t :: tags))
    (hav : t.isAv = true) (hbody : t.body.length ≤ 65536) :
    (tags = [] ∧ s.pass net = .leave (.ok (s.sent ++ [t.message sid]))) ∨
      ∃ s', s.pass net = .again s' ∧ AtTag sid s' tags ∧ s'.sent = s.sent ++ [t.message sid] := by
  obtain ⟨c, htype⟩ := h.type
  obtain ⟨streamid, hread⟩ := readHeader_eq (rest_cons h) htype
  have hlt := t.body_lt
  have r₁ := File.rest_forward_append (rest_cons h) t.length_header
  have r₂ := File.rest_forward_append r₁ rfl
  have hlen : (UInt32.ofNat t.body.length).toNat = t.body.length := by
    rw [UInt32.toNat_ofNat']
    omega
  have hsent : ¬ ((s.headed t streamid).type ≠ 0x08 ∧ (s.headed t streamid).type ≠ 0x09) := by
    change ¬ (leWord t.type 0 0 0 ≠ 0x08 ∧ leWord t.type 0 0 0 ≠ 0x09)
    rw [skipped_iff, hav]
    decide
  have hoffered : s.offered = (s.headed t streamid).tagOffered := by
    simp only [offered, hread, Option.bind_eq_bind, Option.bind_some, if_neg hsent]
  obtain ⟨rtmp, packet, hsend, hpub⟩ :=
    sendTag_eq (s := s.headed t streamid) h.publishing
      (fun packet hpacket => haccepted s packet .refl (hoffered.trans hpacket))
      ⟨rfl, hlen, rfl⟩ r₁ hbody
  cases tags with
  | nil =>
    left
    have hlook := lookAhead_eof
      (s := (s.headed t streamid).handed t.body.length (t.message sid) rtmp packet)
      r₂ t.prevSize_length
    refine ⟨rfl, ?_⟩
    simp only [pass, hread, if_neg hsent, hsend, bind, Except.bind, ite_true, hlook]
    rfl
  | cons t' tags =>
    right
    rw [List.flatMap_cons] at r₂
    obtain ⟨key, preTagsize, c', hlook⟩ := lookAhead_eq
      (s := (s.headed t streamid).handed t.body.length (t.message sid) rtmp packet)
      r₂ t.prevSize_length rfl
    have r₃ := File.rest_forward_append r₂ t.prevSize_length
    refine ⟨((s.headed t streamid).handed t.body.length (t.message sid) rtmp packet).ahead key
      preTagsize c', ?_, ⟨hpub, r₃, c', rfl⟩, rfl⟩
    simp only [pass, hread, if_neg hsent, hsend, bind, Except.bind, ite_true, hlook]
    rfl

/-- Behind the last tag the loop is left without another message. -/
theorem pass_eof (net : ω → RTMPPacket → ω × SendReply) {sid : Int} {s : FlvPush ω}
    (h : AtTag sid s []) : s.pass net = .leave (.ok s.sent) := by
  have hread : s.readHeader = none := by
    simp only [readHeader, readU8, readItem_eof s.type h.rest Nat.one_pos, Option.bind_eq_bind,
      Option.bind_none]
  simp only [pass, hread]

/-- The loop hands over the audio and video tags in front of it, in order. -/
theorem loop_pass {net : ω → RTMPPacket → ω × SendReply} {sid : Int}
    {tags : List FlvTag} (hbody : ∀ t ∈ tags, t.isAv = true → t.body.length ≤ 65536)
    {s : FlvPush ω} (haccepted : s.Accepted net) (h : AtTag sid s tags) {fuel : Nat}
    (hfuel : tags.length < fuel) :
    loop (pass net) fuel s =
      some (.ok (s.sent ++ (tags.filter FlvTag.isAv).map (FlvTag.message sid))) := by
  induction tags generalizing s fuel with
  | nil =>
    rw [loop_leave (pass_eof net h) hfuel, List.filter_nil, List.map_nil, List.append_nil]
  | cons t tags ih =>
    rw [List.forall_mem_cons] at hbody
    rw [List.length_cons] at hfuel
    obtain ⟨n, rfl⟩ : ∃ n, fuel = n + 1 := ⟨fuel - 1, by omega⟩
    cases hav : t.isAv with
    | false =>
      obtain ⟨s', hpass, h', hsent⟩ := pass_skip net h hav
      rw [loop_again hpass, ih hbody.2 (haccepted.again hpass) h' (by omega), hsent,
        List.filter_cons_of_neg (by rw [hav]; decide)]
    | true =>
      rw [List.filter_cons_of_pos hav, List.map_cons]
      rcases pass_send haccepted h hav (hbody.1 hav) with ⟨rfl, hpass⟩ | ⟨s', hpass, h', hsent⟩
      · rw [loop_leave hpass (by omega), List.filter_nil, List.map_nil]
      · rw [loop_again hpass, ih hbody.2 (haccepted.again hpass) h' (by omega), hsent,
          List.append_assoc, List.singleton_append]

/-- The loop is entered in front of the first tag. -/
theorem atTag_start {rtmp : RTMP ω} {header : List UInt8} {tags : List FlvTag}
    (hheader : header.length = 9 + 4) (hconn : rtmp.connected = true) :
    AtTag rtmp.mStreamId (start rtmp (header ++ tags.flatMap FlvTag.bytes)) tags where
  publishing := ⟨hconn, rfl, rfl, rfl, rfl⟩
  rest := List.drop_left' hheader
  type := ⟨0, rfl⟩

end FlvPush

/-- On a file of `tags` behind its 13 header bytes, with the connection open and every send of
the run accepted, the loop ends, and what it hands over is exactly the audio and video tags
in order, each with its type, its body and its timestamp. -/
theorem pushFlvFile_eq (net : ω → RTMPPacket → ω × SendReply) (rtmp : RTMP ω)
    (header : List UInt8) (tags : List FlvTag) (hheader : header.length = 9 + 4)
    (hbody : ∀ t ∈ tags, t.isAv = true → t.body.length ≤ 65536)
    (hconn : rtmp.connected = true)
    (haccepted :
      (FlvPush.start rtmp (header ++ tags.flatMap FlvTag.bytes)).Accepted net) :
    pushFlvFile net rtmp (header ++ tags.flatMap FlvTag.bytes) =
      .ok ((tags.filter FlvTag.isAv).map (FlvTag.message rtmp.mStreamId)) := by
  have hfuel : tags.length < (header ++ tags.flatMap FlvTag.bytes).length + 1 := by
    have := FlvTag.length_le_flatMap_bytes tags
    rw [List.length_append]
    omega
  rw [pushFlvFile,
    FlvPush.loop_pass hbody haccepted (FlvPush.atTag_start hheader hconn) hfuel]
  rfl

/-- `RTMP_SendPacket` on an open connection and a body that fits one chunk. -/
def oneChunk (io : Unit) (packet : RTMPPacket) : Unit × SendReply :=
  (io, ⟨true, false, packet.mHeaderType, packet.mBody.byte⟩)

def scriptTag : FlvTag := ⟨0x12, 0, [0, 0, 0], [2, 0], [0, 0, 0, 13], rfl, by decide, rfl⟩

def videoTag : FlvTag :=
  ⟨0x09, 0x01020304, [0, 0, 0], [0x17, 1, 0], [0, 0, 0, 14], rfl, by decide, rfl⟩

def audioTag : FlvTag := ⟨0x08, 40, [0, 0, 0], [0xaf], [0, 0, 0, 12], rfl, by decide, rfl⟩

/-- A script tag between a video and an audio tag is skipped. -/
theorem pushFlvFile_eq_threeTags :
    pushFlvFile oneChunk ⟨true, 1, ()⟩ ([0x46, 0x4c, 0x56, 1, 5, 0, 0, 0, 9, 0, 0, 0, 0] ++
      [videoTag, scriptTag, audioTag].flatMap FlvTag.bytes) =
      .ok [videoTag.message 1, audioTag.message 1] :=
  pushFlvFile_eq oneChunk ⟨true, 1, ()⟩ [0x46, 0x4c, 0x56, 1, 5, 0, 0, 0, 9, 0, 0, 0, 0]
    [videoTag, scriptTag, audioTag] rfl (by decide) rfl (fun _ _ _ _ => ⟨rfl, rfl⟩)

end Jrtplib4Android
