import Jrtplib4Android.Rtmp.Overrun

/-!
# Room for the bodies of a file

`pushFlvFile` reads every audio or video body into one packet of 65536 bytes. Whether
they have room is a property of the bytes: the sizes in the tag headers lead from tag
to tag, and every body on the way is read whole, or up to the end of the file.
-/

namespace Jrtplib4Android

open CSem

variable {ω : Type}

/-- The body sizes of the audio and video tags that following the size fields leads to,
each cut off at the end of the file. -/
def avBodySizes (bytes : List UInt8) : List Nat :=
  if bytes.length < 11 then []
  else
    let size := beNat ((bytes.drop 1).take 3)
    let body := bytes.drop 11
    (if bytes.headD 0 = 0x08 ∨ bytes.headD 0 = 0x09 then [min size body.length] else []) ++
      avBodySizes (body.drop (size + 4))
termination_by bytes.length
decreasing_by
  simp only [List.length_drop]
  omega

/-- Every audio and video body of the file fits the packet body. -/
def FileFits (bytes : List UInt8) : Prop := ∀ n ∈ avBodySizes bytes, n ≤ 65536

theorem avBodySizes_cons {b : UInt8} {size time ids ys : List UInt8} (hsize : size.length = 3)
    (htime : time.length = 4) (hids : ids.length = 3) :
    avBodySizes (b :: (size ++ (time ++ (ids ++ ys)))) =
      (if b = 0x08 ∨ b = 0x09 then [min (beNat size) ys.length] else []) ++
        avBodySizes (ys.drop (beNat size + 4)) := by
  have hlen : ¬ (b :: (size ++ (time ++ (ids ++ ys)))).length < 11 := by
    simp only [List.length_cons, List.length_append]
    omega
  have hbody : (b :: (size ++ (time ++ (ids ++ ys)))).drop 11 = ys := by
    rw [← List.append_assoc, ← List.append_assoc, List.drop_succ_cons]
    exact List.drop_left' (by simp only [List.length_append]; omega)
  have hfield : ((b :: (size ++ (time ++ (ids ++ ys)))).drop 1).take 3 = size :=
    List.take_left' hsize
  rw [avBodySizes, if_neg hlen, hbody, hfield]
  rfl

/-- Every body lies behind a tag header. -/
theorem add_le_of_mem_avBodySizes {bytes : List UInt8} {n : Nat} (h : n ∈ avBodySizes bytes) :
    n + 11 ≤ bytes.length := by
  induction bytes using avBodySizes.induct with
  | case1 bytes hshort =>
    rw [avBodySizes, if_pos hshort] at h
    cases h
  | case2 bytes hlong size body ih =>
    rw [avBodySizes, if_neg hlong] at h
    rcases List.mem_append.mp h with h | h
    · split at h
      · rw [List.mem_singleton.mp h, List.length_drop]
        omega
      · cases h
    · have hle := ih h
      simp only [body, List.length_drop] at hle
      omega

/-- A file fits if its first body does and what follows the first tag fits. -/
theorem fileFits_cons_iff {b : UInt8} {size time ids ys : List UInt8} (hsize : size.length = 3)
    (htime : time.length = 4) (hids : ids.length = 3) :
    FileFits (b :: (size ++ (time ++ (ids ++ ys)))) ↔
      (b = 0x08 ∨ b = 0x09 → min (beNat size) ys.length ≤ 65536) ∧
        FileFits (ys.drop (beNat size + 4)) := by
  rw [FileFits, avBodySizes_cons hsize htime hids, List.forall_mem_append]
  refine and_congr ?_ Iff.rfl
  split
  · next hav => simp [hav]
  · next hav => simp [hav]

/-- Where no body has room for a byte the file fits. -/
theorem fileFits_of_length_le {bytes : List UInt8} (h : bytes.length ≤ 65536) :
    FileFits bytes := fun n hn => by
  have := add_le_of_mem_avBodySizes hn
  omega

/-- A complete item lies in front of the cursor. -/
theorem readItem_eq_some {n : Nat} {x y : UInt32} {fp fp' : File}
    (h : readItem n x fp = some (y, fp')) : n ≤ fp.rest.length ∧ fp' = fp.forward n := by
  unfold readItem File.fread at h
  simp only [List.length_take] at h
  split at h
  · next hlen =>
    cases h
    exact ⟨by omega, by rw [hlen]⟩
  · cases h

/-- A peek that succeeds leaves the file alone and overwrites the lowest byte. -/
theorem peekU8_eq_some {x y : UInt32} {fp fp' : File} (h : peekU8 x fp = some (y, fp')) :
    fp' = fp ∧ ∃ b, y = overlay x [b] := by
  cases hrest : fp.rest with
  | nil =>
    simp only [peekU8, readItem_eof x hrest Nat.one_pos, Option.bind_eq_bind,
      Option.bind_none] at h
    cases h
  | cons b ys =>
    rw [peekU8_cons x hrest] at h
    cases h
    exact ⟨rfl, b, rfl⟩

namespace FlvPush

/-- A tag header that is read was complete. -/
theorem readHeader_length {s s' : FlvPush ω} (h : s.readHeader = some s') :
    11 ≤ s.fp.rest.length := by
  simp only [readHeader, readU8, readU24, readTime, Option.bind_eq_bind,
    Option.bind_eq_some_iff, Prod.exists] at h
  obtain ⟨_, f₁, h₁, _, f₂, ⟨_, f₂', h₂, e₂⟩, _, f₃, ⟨_, f₃', h₃, e₃⟩, _, f₄, ⟨_, f₄', h₄, -⟩, -⟩
    := h
  cases e₂
  cases e₃
  obtain ⟨l₁, rfl⟩ := readItem_eq_some h₁
  obtain ⟨l₂, rfl⟩ := readItem_eq_some h₂
  obtain ⟨l₃, rfl⟩ := readItem_eq_some h₃
  obtain ⟨l₄, -⟩ := readItem_eq_some h₄
  simp only [File.rest_forward, List.length_drop] at l₂ l₃ l₄
  omega

/-- A look-ahead that succeeds stands behind the tag size. -/
theorem lookAhead_eq_some {s s' : FlvPush ω} {c : UInt8} (h : s.lookAhead = some s')
    (htype : s.type = leWord c 0 0 0) :
    ∃ key preTagsize c', s' = s.ahead key preTagsize c' := by
  simp only [lookAhead, readU32, Option.bind_eq_bind, Option.bind_eq_some_iff, Prod.exists] at h
  obtain ⟨preTagsize, f₁, ⟨_, f₁', h₁, e₁⟩, type, f₂, h₂, h⟩ := h
  cases e₁
  obtain ⟨-, rfl⟩ := readItem_eq_some h₁
  obtain ⟨rfl, b, rfl⟩ := peekU8_eq_some h₂
  rw [htype, overlay_one] at h
  split at h
  · simp only [Option.bind_eq_some_iff, Prod.exists] at h
    obtain ⟨f₃, hseek, type', f₄, h₄, h⟩ := h
    obtain ⟨rfl, b', rfl⟩ := peekU8_eq_some h₄
    have hforward := (s.fp.forward 4).fseek_forward 11
    have hback := (s.fp.forward 4).fseek_back 11
    simp only [Nat.cast_ofNat] at hforward hback
    rw [hforward] at hseek
    cases hseek
    rw [hback, overlay_one] at h
    cases h
    exact ⟨_, _, b', rfl⟩
  · cases h
    exact ⟨_, _, b, rfl⟩

/-- A body that fits is read, and the send that follows leaves the loop or stands behind
the body. -/
theorem sendTag_ok (net : ω → RTMPPacket → ω × SendReply) {s : FlvPush ω}
    (hsize : s.packet.mBody.size = 65536)
    (hfit : min s.datalength.toNat s.fp.rest.length ≤ 65536) :
    ∃ ok s', s.sendTag net = .ok (ok, s') ∧ s'.packet.mBody.size = 65536 ∧ s'.type = s.type ∧
      (ok = true → s'.fp.rest = s.fp.rest.drop s.datalength.toNat) ∧
      (Accepts net → s.rtmp.connected = true →
        s'.rtmp.connected = true ∧ (ok = false → s.fp.rest.length < s.datalength.toNat)) := by
  obtain ⟨bs, hbs⟩ : ∃ bs, bs = s.fp.rest.take s.datalength.toNat := ⟨_, rfl⟩
  have hread : s.fp.fread s.datalength.toNat = (bs, s.fp.forward bs.length) := by
    rw [hbs, File.fread]
  have hlen : bs.length = min s.datalength.toNat s.fp.rest.length := by
    rw [hbs, List.length_take]
  have hcopy := Block.memcpy_eq s.packet.mBody 0 (.ofList bs) 0 (n := bs.length)
    (by rw [Block.size_ofList]; omega) (by omega)
  by_cases hfull : bs.length = s.datalength.toNat
  swap
  · refine ⟨false, { s with
      fp := s.fp.forward bs.length
      packet := { s.packet with mBody := s.packet.mBody.copy 0 (.ofList bs) 0 bs.length } },
      ?_, hsize, rfl, by simp, fun _ hconn => ⟨hconn, fun _ => by omega⟩⟩
    simp only [sendTag, hread, hcopy, ne_eq, hfull, not_false_eq_true, ite_true, bind,
      Except.bind]
    rfl
  rw [hfull] at hread hcopy
  cases hconn : s.rtmp.connected with
  | false =>
    refine ⟨false, { s with
      fp := s.fp.forward s.datalength.toNat
      packet := s.tagPacket (s.packet.mBody.copy 0 (.ofList bs) 0 s.datalength.toNat) },
      ?_, hsize, rfl, by simp, by simp⟩
    simp only [sendTag, hread, hcopy, ne_eq, hfull, not_true, ite_false, RTMP.isConnected, hconn,
      Bool.false_eq_true, bind, Except.bind]
    rfl
  | true =>
    rcases hnet : net s.rtmp.io
      (s.tagPacket (s.packet.mBody.copy 0 (.ofList bs) 0 s.datalength.toNat)) with ⟨io, reply⟩
    refine ⟨reply.ok, _, sendTag_handed hread hfull hcopy ?_ hconn hnet, hsize, rfl, fun _ => ?_,
      fun haccepts _ => ?_⟩
    · change _ ≤ s.packet.mBody.size
      omega
    · exact s.fp.rest_forward _
    · obtain ⟨hok, hclosed⟩ := haccepts s.rtmp.io _
      rw [hnet] at hok hclosed
      refine ⟨?_, fun h => ?_⟩
      · change (s.rtmp.answered io reply).connected = true
        rw [RTMP.connected_answered, hconn, hclosed]
        rfl
      · rw [hok] at h
        cases h

/-- A body that does not fit overruns the packet. -/
theorem sendTag_overrun (net : ω → RTMPPacket → ω × SendReply) {s : FlvPush ω}
    (hsize : s.packet.mBody.size = 65536)
    (hfit : 65536 < min s.datalength.toNat s.fp.rest.length) :
    s.sendTag net = .error .write := by
  have hlen : (s.fp.rest.take s.datalength.toNat).length =
      min s.datalength.toNat s.fp.rest.length := List.length_take
  have hcopy : memcpy s.packet.mBody 0 (.ofList (s.fp.rest.take s.datalength.toNat)) (some 0)
      (s.fp.rest.take s.datalength.toNat).length = .error .write :=
    Block.memcpy_of_room (by rw [Block.size_ofList]; omega) (by rw [hsize, hlen]; omega)
  simp only [sendTag, File.fread, hcopy, bind, Except.bind]

/-- What every pass keeps of the packet and of the reused type variable. -/
structure Walks (s : FlvPush ω) : Prop where
  size : s.packet.mBody.size = 65536
  type : ∃ c, s.type = leWord c 0 0 0

/-- What a pass can lead to. Only with an open connection does it get to all the bodies. -/
inductive Walked (net : ω → RTMPPacket → ω × SendReply) (s : FlvPush ω) :
    Pass (FlvPush ω) (Except Fault (List Message)) → Prop
  | next {s' : FlvPush ω} (walks : s'.Walks) (shorter : s'.fp.rest.length < s.fp.rest.length)
      (fits : FileFits s.fp.rest ↔ FileFits s'.fp.rest)
      (connected : Accepts net → s.rtmp.connected = true → s'.rtmp.connected = true) :
      Walked net s (.again s')
  | stop (sent : List Message)
      (fits : Accepts net → s.rtmp.connected = true → FileFits s.fp.rest) :
      Walked net s (.leave (.ok sent))
  | overrun (fits : ¬ FileFits s.fp.rest) : Walked net s (.leave (.error .write))

/-- Eleven bytes are a tag header. -/
private theorem exists_header {bytes : List UInt8} (h : 11 ≤ bytes.length) :
    ∃ b size time ids ys, bytes = b :: (size ++ (time ++ (ids ++ ys))) ∧
      size.length = 3 ∧ time.length = 4 ∧ ids.length = 3 := by
  obtain ⟨b, bs, rfl⟩ := List.exists_cons_of_length_pos (by omega : 0 < bytes.length)
  rw [List.length_cons] at h
  refine ⟨b, bs.take 3, (bs.drop 3).take 4, (bs.drop 7).take 3, bs.drop 10, ?_, ?_, ?_, ?_⟩
  · have h₁ := List.take_append_drop 3 bs
    have h₂ := List.take_append_drop 4 (bs.drop 3)
    have h₃ := List.take_append_drop 3 (bs.drop 7)
    rw [List.drop_drop] at h₂ h₃
    rw [h₃, h₂, h₁]
  all_goals
    simp only [List.length_take, List.length_drop]
    omega

/-- The header of a tag with `n` bytes of data has been read, and `ys` stands behind it. -/
structure HeaderRead (s t : FlvPush ω) (b : UInt8) (n : Nat) (ys : List UInt8) : Prop where
  read : s.readHeader = some t
  type : t.type = leWord b 0 0 0
  datalength : t.datalength.toNat = n
  small : n < 256 ^ 3
  size : t.packet.mBody.size = 65536
  rest : t.fp.rest = ys
  connected : t.rtmp.connected = s.rtmp.connected
  behind : s.fp.rest.length = ys.length + 11
  fits : FileFits s.fp.rest ↔
    (b = 0x08 ∨ b = 0x09 → min n ys.length ≤ 65536) ∧ FileFits (ys.drop (n + 4))

/-- Where eleven bytes are left a header is read. -/
theorem exists_headerRead {s : FlvPush ω} (h : s.Walks) (hlong : 11 ≤ s.fp.rest.length) :
    ∃ t b n ys, HeaderRead s t b n ys := by
  obtain ⟨c, htype⟩ := h.type
  obtain ⟨b, size, time, ids, ys, hrest, hsize, htime, hids⟩ := exists_header hlong
  have hlt : beNat size < 256 ^ 3 := by
    simpa only [hsize] using beNat_lt size
  have hdata : (UInt32.ofNat (beNat size)).toNat = beNat size := by
    rw [UInt32.toNat_ofNat']
    omega
  have r₀ : s.fp.rest = (b :: (size ++ (time ++ ids))) ++ ys := by
    rw [hrest, List.cons_append, List.append_assoc, List.append_assoc]
  have r₁ := File.rest_forward_append (n := 11) r₀ (by
    simp only [List.length_cons, List.length_append]
    omega)
  have hbehind : s.fp.rest.length = ys.length + 11 := by
    simp only [hrest, List.length_cons, List.length_append]
    omega
  refine ⟨_, b, beNat size, ys, readHeader_cons hrest hsize htime hids htype, rfl, hdata, hlt,
    h.size, r₁, rfl, hbehind, ?_⟩
  rw [hrest]
  exact fileFits_cons_iff hsize htime hids

/-- A tag that is neither audio nor video is skipped. -/
theorem walked_skipped (net : ω → RTMPPacket → ω × SendReply) {s t : FlvPush ω} {b : UInt8}
    {n : Nat} {ys : List UInt8} (h : HeaderRead s t b n ys) (hav : ¬ (b = 0x08 ∨ b = 0x09)) :
    s.Walked net (s.pass net) := by
  have hskip : t.type ≠ 0x08 ∧ t.type ≠ 0x09 := by
    rw [h.type]
    exact (leWord_ne_iff b).mpr hav
  have hoff : (t.datalength + 4).toNat = n + 4 := by
    have hsmall := h.small
    rw [UInt32.toNat_add, h.datalength]
    simp only [UInt32.reduceToNat]
    omega
  have hrest := t.fp.rest_forward (n + 4)
  rw [h.rest] at hrest
  simp only [pass, h.read, if_pos hskip, hoff, File.fseek_forward, Option.getD_some]
  refine .next ⟨h.size, b, h.type⟩ ?_ ?_ fun _ hconn => h.connected.trans hconn
  · have hbehind := h.behind
    rw [hrest, List.length_drop]
    omega
  · rw [h.fits, hrest]
    exact and_iff_right fun hb => absurd hb hav

/-- A tag of audio or video is sent, or its body is written past the end. -/
theorem walked_sent (net : ω → RTMPPacket → ω × SendReply) {s t : FlvPush ω} {b : UInt8}
    {n : Nat} {ys : List UInt8} (h : HeaderRead s t b n ys) (hav : b = 0x08 ∨ b = 0x09) :
    s.Walked net (s.pass net) := by
  have hskip : ¬ (t.type ≠ 0x08 ∧ t.type ≠ 0x09) := by
    rw [h.type]
    exact fun hne => (leWord_ne_iff b).mp hne hav
  simp only [pass, h.read, if_neg hskip]
  rcases Nat.lt_or_ge 65536 (min n ys.length) with hover | hroom
  · rw [sendTag_overrun net h.size (by rwa [h.datalength, h.rest])]
    exact .overrun fun hall => absurd ((h.fits.mp hall).1 hav) (by omega)
  obtain ⟨ok, t', hsend, hsize', htype', hrest', hopen⟩ :=
    sendTag_ok net h.size (by rwa [h.datalength, h.rest])
  rw [h.datalength, h.rest] at hrest' hopen
  simp only [hsend, bind, Except.bind]
  cases ok with
  | false =>
    refine .stop _ fun haccepts hconn => h.fits.mpr ⟨fun _ => hroom, fileFits_of_length_le ?_⟩
    have := (hopen haccepts (h.connected.trans hconn)).2 rfl
    rw [List.length_drop]
    omega
  | true =>
    have r₂ := hrest' rfl
    have htype₂ := htype'.trans h.type
    cases hlook : t'.lookAhead with
    | none =>
      refine .stop _ fun _ _ => h.fits.mpr ⟨fun _ => hroom, fileFits_of_length_le ?_⟩
      rcases Nat.lt_or_ge t'.fp.rest.length 16 with hend | hmore
      · rw [r₂, List.length_drop] at hend
        rw [List.length_drop]
        omega
      · obtain ⟨key, preTagsize, c', hsome⟩ := lookAhead_of_le hmore htype₂
        rw [hsome] at hlook
        cases hlook
    | some t'' =>
      obtain ⟨key, preTagsize, c', rfl⟩ := lookAhead_eq_some hlook htype₂
      have r₃ : (t'.ahead key preTagsize c').fp.rest = ys.drop (n + 4) := by
        rw [ahead, File.rest_forward, r₂, List.drop_drop]
      refine .next ⟨hsize', c', rfl⟩ ?_ ?_ fun haccepts hconn => ?_
      · have hbehind := h.behind
        rw [r₃, List.length_drop]
        omega
      · rw [h.fits, r₃]
        exact and_iff_right fun _ => hroom
      · exact (hopen haccepts (h.connected.trans hconn)).1

/-- A pass reads one tag, and stays inside the body if the tag's does. -/
theorem pass_walked (net : ω → RTMPPacket → ω × SendReply) {s : FlvPush ω} (h : s.Walks) :
    s.Walked net (s.pass net) := by
  rcases Nat.lt_or_ge s.fp.rest.length 11 with hshort | hlong
  · have hread : s.readHeader = none := by
      cases hread : s.readHeader with
      | none => rfl
      | some s' => exact absurd (readHeader_length hread) (by omega)
    simp only [pass, hread]
    exact .stop _ fun _ _ => fileFits_of_length_le (by omega)
  obtain ⟨t, b, n, ys, hheader⟩ := exists_headerRead h hlong
  by_cases hav : b = 0x08 ∨ b = 0x09
  · exact walked_sent net hheader hav
  · exact walked_skipped net hheader hav

/-- A file that fits is walked inside the body. -/
theorem not_overruns_loop (net : ω → RTMPPacket → ω × SendReply) {s : FlvPush ω}
    (h : s.Walks) (hfits : FileFits s.fp.rest) {fuel : Nat}
    {r : Except Fault (List Message)} (hloop : loop (pass net) fuel s = some r) :
    ¬ Overruns r := by
  refine loop_post (I := fun s => s.Walks ∧ FileFits s.fp.rest) (Q := fun r => ¬ Overruns r)
    ?_ ?_ fuel s r ⟨h, hfits⟩ hloop
  · rintro s s' ⟨hwalks, hfits⟩ hpass
    have hstep := pass_walked net hwalks
    rw [hpass] at hstep
    cases hstep with
    | next walks _ fits _ => exact ⟨walks, fits.mp hfits⟩
  · rintro s r ⟨hwalks, hfits⟩ hpass
    have hstep := pass_walked net hwalks
    rw [hpass] at hstep
    cases hstep with
    | stop sent _ => exact not_overruns_ok sent
    | overrun fits => exact absurd hfits fits

/-- With an open connection that accepts everything the loop gets to the body that does
not fit. -/
theorem loop_overrun {net : ω → RTMPPacket → ω × SendReply} (haccepts : Accepts net)
    {s : FlvPush ω} (h : s.Walks) (hconn : s.rtmp.connected = true)
    (hfits : ¬ FileFits s.fp.rest) {fuel : Nat} (hfuel : s.fp.rest.length < fuel) :
    loop (pass net) fuel s = some (.error .write) := by
  have hagain : ∀ s s' : FlvPush ω,
      (s.Walks ∧ s.rtmp.connected = true ∧ ¬ FileFits s.fp.rest) → s.pass net = .again s' →
      (s'.Walks ∧ s'.rtmp.connected = true ∧ ¬ FileFits s'.fp.rest) ∧
        s'.fp.rest.length < s.fp.rest.length := by
    rintro s s' ⟨hwalks, hconn, hfits⟩ hpass
    have hstep := pass_walked net hwalks
    rw [hpass] at hstep
    cases hstep with
    | next walks shorter fits connected =>
      exact ⟨⟨walks, connected haccepts hconn, fun h => hfits (fits.mpr h)⟩, shorter⟩
  have hleave : ∀ (s : FlvPush ω) r,
      (s.Walks ∧ s.rtmp.connected = true ∧ ¬ FileFits s.fp.rest) → s.pass net = .leave r →
      r = .error .write := by
    rintro s r ⟨hwalks, hconn, hfits⟩ hpass
    have hstep := pass_walked net hwalks
    rw [hpass] at hstep
    cases hstep with
    | stop sent fits => exact absurd (fits haccepts hconn) hfits
    | overrun _ => rfl
  obtain ⟨r, hloop, rfl⟩ := loop_eq_some (μ := fun s : FlvPush ω => s.fp.rest.length) hagain
    hleave fuel s ⟨h, hconn, hfits⟩ hfuel
  exact hloop

end FlvPush

/-- Whatever the network answers, a file is pushed inside the packet body exactly if all
the bodies on the way through it fit. -/
theorem not_overruns_pushFlvFile_iff (bytes : List UInt8) :
    (∀ (ω : Type) (net : ω → RTMPPacket → ω × SendReply) (rtmp : RTMP ω),
      ¬ Overruns (pushFlvFile net rtmp bytes)) ↔ FileFits (bytes.drop (9 + 4)) := by
  constructor
  · intro h
    by_contra hfits
    have hloop : loop (FlvPush.pass oneChunk) (bytes.length + 1)
        (.start ⟨true, 1, ()⟩ bytes) = some (.error .write) :=
      FlvPush.loop_overrun (s := .start ⟨true, 1, ()⟩ bytes) (fun _ _ => ⟨rfl, rfl⟩)
        ⟨rfl, 0, rfl⟩ rfl hfits (by
        simp only [FlvPush.start, File.rest, List.length_drop]
        omega)
    refine h Unit oneChunk ⟨true, 1, ()⟩ ?_
    rw [pushFlvFile, hloop]
    exact Or.inl rfl
  · intro hfits ω net rtmp
    rw [pushFlvFile]
    cases hloop : loop (FlvPush.pass net) (bytes.length + 1) (.start rtmp bytes) with
    | none => simp [Overruns, faultOf]
    | some r =>
      exact FlvPush.not_overruns_loop net (s := .start rtmp bytes) ⟨rfl, 0, rfl⟩ hfits hloop

/-- A push writes inside the packet body exactly for the input that fits it: a call on a
handle in any state, and a file whatever the network answers. What does not fit and can be
read is written behind the body. -/
theorem pushes_inside_iff {net : ω → RTMPPacket → ω × SendReply} {u : RtmpUtils ω}
    (hreached : u.Reached net) (c : RtmpCall) (bytes : List UInt8) :
    ((u.WithinBody net c ↔ c.Fits) ∧ (c.Readable → ¬ c.Fits → Overruns (c.run net u))) ∧
      ((∀ (ω : Type) (net : ω → RTMPPacket → ω × SendReply) (rtmp : RTMP ω),
        ¬ Overruns (pushFlvFile net rtmp bytes)) ↔ FileFits (bytes.drop (9 + 4))) :=
  ⟨⟨RtmpUtils.withinBody_iff hreached c,
    RtmpUtils.overruns_run net (RtmpUtils.size_of_reached hreached)⟩,
    not_overruns_pushFlvFile_iff bytes⟩

/-- The bytes of a file with three short tags. -/
def threeTags : List UInt8 :=
  [0x46, 0x4c, 0x56, 1, 5, 0, 0, 0, 9, 0, 0, 0, 0] ++
    [videoTag, scriptTag, audioTag].flatMap FlvTag.bytes

/-- A slice of ten bytes, and that file. -/
theorem pushes_inside_iff_short :
    (RtmpUtils.initRtmpHandle ⟨true, 1, ()⟩ 0).WithinBody oneChunk
      (.avc (.h264 (.fill 10 0x41) 10 false)) ∧
    ¬ Overruns (pushFlvFile oneChunk ⟨true, 1, ()⟩ threeTags) := by
  obtain ⟨⟨hcall, -⟩, hfile⟩ := pushes_inside_iff
    (.init ⟨true, 1, ()⟩ 0) (.avc (.h264 (.fill 10 0x41) 10 false)) threeTags
  exact ⟨hcall.mpr ⟨by decide, by decide⟩,
    hfile.mpr (fileFits_of_length_le (by decide)) Unit oneChunk _⟩

/-- A key frame of 524280 bytes: the nine bytes in front of it leave room for one less. -/
theorem not_withinBody_keyFrame :
    ¬ (RtmpUtils.initRtmpHandle ⟨true, 1, ()⟩ 0).WithinBody oneChunk
      (.avc (.h264 (.fill 524280 0x65) 524280 true)) :=
  fun h => h.inside (by decide)

end Jrtplib4Android
