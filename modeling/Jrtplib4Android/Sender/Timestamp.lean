import Jrtplib4Android.Sender.FuTrain

/-!
# The timestamp discipline

A run of send calls, recorded step by step. `Stamped` is what one call owes the
next: its packets leave at the clock it found, a packet moves the clock by one
frame period exactly when it carries the marker, and a call that ends a picture
leaves the clock one period further. `SendRtpData` sets marker and increment
together; the NAL unit paths set the marker only, so `SendCall.Regular` asks of
the sticky increment what their packets need.
-/

namespace Jrtplib4Android

open CSem

variable {τ : Type}

/-- A call of one of the two send functions. -/
inductive SendCall where
  | nalu (m_h264Buf : Block) (buflen : Int) (isSpsOrPps : Bool)
  | rtpData (m_rtpBuf : Block) (buflen : Int) (isMarker : Bool)

/-- The call on a sender. -/
def SendCall.perform (net : τ → BuiltPacket → Int × τ) (s : CRTPSender τ) : SendCall → Sending τ
  | .nalu buf buflen isSpsOrPps => s.sendH264Nalu net buf buflen isSpsOrPps
  | .rtpData buf buflen isMarker => s.sendRtpData net buf buflen isMarker

/-- The calls that end a picture: slices, and RTP data with the marker. -/
def SendCall.closes : SendCall → Bool
  | .nalu _ buflen isSpsOrPps => decide (4 ≤ buflen) && !isSpsOrPps
  | .rtpData _ buflen isMarker => decide (4 ≤ buflen) && isMarker

/-- One call of a run. -/
structure SendStep (τ : Type) where
  before : CRTPSender τ
  call : SendCall
  result : Sending τ

/-- The calls of a run in order, up to the first one that faults. -/
def sendRun (net : τ → BuiltPacket → Int × τ) (s : CRTPSender τ) :
    List SendCall → List (SendStep τ)
  | [] => []
  | call :: calls =>
    let result := call.perform net s
    ⟨s, call, result⟩ :: match result.outcome with
      | .fault _ => []
      | .ret _ => sendRun net result.sender calls
      | .fallsOff => sendRun net result.sender calls

/-- What a unit of `n` bytes needs of the default increment it finds: a parameter set
inherits it unmarked, a short slice inherits it marked, and a long one sets its own
but ends the picture only with a fragment that is left over. -/
def IncrementFits (s : CRTPSender τ) (isSpsOrPps : Bool) (n : Nat) : Prop :=
  if isSpsOrPps then s.packetbuilder.defaulttimestampinc = 0
  else if n ≤ maxRtpPktLength then s.packetbuilder.defaulttimestampinc = s.pts
  else n % maxRtpPktLength ≠ 0

instance (s : CRTPSender τ) (isSpsOrPps : Bool) (n : Nat) :
    Decidable (IncrementFits s isSpsOrPps n) :=
  inferInstanceAs (Decidable (if isSpsOrPps then s.packetbuilder.defaulttimestampinc = 0
    else if n ≤ maxRtpPktLength then s.packetbuilder.defaulttimestampinc = s.pts
    else n % maxRtpPktLength ≠ 0))

/-- A call whose packets get the increment their marker asks for. -/
def SendCall.Regular (s : CRTPSender τ) : SendCall → Prop
  | .nalu buf buflen isSpsOrPps =>
    4 ≤ buflen → match stripStartCode buf buflen.toNat with
      | .error _ => True
      | .ok (_, n) => IncrementFits s isSpsOrPps n
  | .rtpData .. => True

instance (s : CRTPSender τ) : (call : SendCall) → Decidable (call.Regular s)
  | .nalu buf buflen isSpsOrPps =>
    have : Decidable (match stripStartCode buf buflen.toNat with
        | .error _ => True
        | .ok (_, n) => IncrementFits s isSpsOrPps n) :=
      match stripStartCode buf buflen.toNat with
      | .error _ => instDecidableTrue
      | .ok (_, n) => inferInstanceAs (Decidable (IncrementFits s isSpsOrPps n))
    inferInstanceAs (Decidable (4 ≤ buflen → match stripStartCode buf buflen.toNat with
      | .error _ => True
      | .ok (_, n) => IncrementFits s isSpsOrPps n))
  | .rtpData .. => instDecidableTrue

/-- The session is created and its builder initialised. -/
structure CRTPSender.Ready (s : CRTPSender τ) : Prop where
  created : s.created = true
  init : s.packetbuilder.init = true

/-- `s'` is ready, keeps the frame rate of `s` and is `inc` ahead of its clock. -/
structure Ahead (s s' : CRTPSender τ) (inc : UInt32) : Prop where
  ready : s'.Ready
  pts : s'.pts = s.pts
  clock : s'.packetbuilder.timestamp = s.packetbuilder.timestamp + inc

/-- The discipline of one packet handed over during a call on `s`. -/
def Disciplined (s : CRTPSender τ) (e : Handed) : Prop :=
  e.timestamp = s.packetbuilder.timestamp ∧ e.next = e.timestamp + if e.mark then s.pts else 0

/-- The discipline of one call on `s`. -/
structure Stamped (s : CRTPSender τ) (closes : Bool) (r : Sending τ) : Prop where
  packets : ∀ e ∈ r.handed, Disciplined s e
  after : (∀ f, r.outcome ≠ .fault f) → Ahead s r.sender (if closes then s.pts else 0)

theorem Ahead.refl {s : CRTPSender τ} (h : s.Ready) : Ahead s s 0 :=
  ⟨h, rfl, (UInt32.add_zero _).symm⟩

theorem Ahead.trans {s s' s'' : CRTPSender τ} {inc inc' : UInt32} (h : Ahead s s' inc)
    (h' : Ahead s' s'' inc') : Ahead s s'' (inc + inc') :=
  ⟨h'.ready, h'.pts.trans h.pts, by rw [h'.clock, h.clock, UInt32.add_assoc]⟩

/-- Setters in front of a call do not touch the clock, so its discipline is that of the
whole. -/
theorem Stamped.of_ahead {s s' : CRTPSender τ} {closes : Bool} {r : Sending τ}
    (h : Ahead s s' 0) (hr : Stamped s' closes r) : Stamped s closes r := by
  have hclock : s'.packetbuilder.timestamp = s.packetbuilder.timestamp := by
    rw [h.clock, UInt32.add_zero]
  constructor
  · intro e he
    obtain ⟨ht, hn⟩ := hr.packets e he
    exact ⟨ht.trans hclock, by rw [hn, h.pts]⟩
  · intro hf
    have ha := h.trans (hr.after hf)
    rwa [UInt32.zero_add, h.pts] at ha

section Setters

variable {s : CRTPSender τ}

theorem CRTPSender.Ready.count (h : s.Ready) : Ahead s s.count 0 :=
  ⟨⟨h.created, h.init⟩, rfl, (UInt32.add_zero _).symm⟩

theorem CRTPSender.Ready.setDefaultMark_eq (h : s.Ready) (m : Bool) : s.setDefaultMark m =
    { s with packetbuilder := { s.packetbuilder with defmarkset := true, defaultmark := m } } := by
  simp only [CRTPSender.setDefaultMark, RTPSession.setDefaultMark,
    RTPPacketBuilder.setDefaultMark, h.created, h.init, ite_true]

theorem CRTPSender.Ready.setDefaultMark (h : s.Ready) (m : Bool) :
    Ahead s (s.setDefaultMark m) 0 := by
  rw [h.setDefaultMark_eq]
  exact ⟨⟨h.created, h.init⟩, rfl, (UInt32.add_zero _).symm⟩

theorem CRTPSender.Ready.setDefaultTimestampIncrement_eq (h : s.Ready) (inc : UInt32) :
    s.setDefaultTimestampIncrement inc =
      { s with packetbuilder :=
        { s.packetbuilder with deftsset := true, defaulttimestampinc := inc } } := by
  simp only [CRTPSender.setDefaultTimestampIncrement, RTPSession.setDefaultTimestampIncrement,
    RTPPacketBuilder.setDefaultTimestampIncrement, h.created, h.init, ite_true]

theorem CRTPSender.Ready.setDefaultTimestampIncrement (h : s.Ready) (inc : UInt32) :
    Ahead s (s.setDefaultTimestampIncrement inc) 0 := by
  rw [h.setDefaultTimestampIncrement_eq]
  exact ⟨⟨h.created, h.init⟩, rfl, (UInt32.add_zero _).symm⟩

end Setters

/-- An accepted packet leaves the session ahead by its increment. -/
theorem Ahead.of_accepted {s : CRTPSender τ} {session : RTPSession τ} {e : Handed} {len : Nat}
    {inc : UInt32} (h : s.Ready) (ha : RTPSession.Accepted s.toRTPSession session e len inc) :
    Ahead s { s with toRTPSession := session } inc := by
  refine ⟨⟨ha.created', ?_⟩, rfl, ?_⟩
  · simp only [ha.builder, RTPPacketBuilder.advance]
    exact h.init
  · simp only [ha.builder, RTPPacketBuilder.advance]

/-- An accepted packet whose increment goes with its marker is disciplined. -/
theorem Disciplined.of_accepted {s s' : CRTPSender τ} {session : RTPSession τ} {e : Handed}
    {len : Nat} {inc : UInt32} (h : Ahead s s' 0)
    (ha : RTPSession.Accepted s'.toRTPSession session e len inc)
    (hinc : inc = if e.mark then s.pts else 0) : Disciplined s e := by
  have hclock : s'.packetbuilder.timestamp = s.packetbuilder.timestamp := by
    rw [h.clock, UInt32.add_zero]
  exact ⟨ha.timestamp.trans hclock, by rw [ha.next, ha.timestamp, hinc]⟩

/-- The tail of every unfragmented path: the marker and the increment are the session
defaults. -/
theorem sendAndCheck_stamped (net : τ → BuiltPacket → Int × τ) {s : CRTPSender τ}
    (hready : s.Ready) (data : Block) (len : Nat)
    (hinc : s.packetbuilder.defaulttimestampinc =
      if s.packetbuilder.defaultmark then s.pts else 0)
    (haccepted : ∀ e ∈ (s.sendAndCheck net data len).handed, 0 ≤ e.status) :
    Stamped s s.packetbuilder.defaultmark (s.sendAndCheck net data len) := by
  unfold CRTPSender.sendAndCheck at haccepted ⊢
  split at haccepted
  · next f hf =>
    exact ⟨by simp, fun h => absurd rfl (h f)⟩
  · next session e he =>
    have hs := haccepted e (List.mem_singleton_self e)
    have ha := RTPSession.sendPacket_accepted he hs
    have hmark := (RTPSession.sendPacket_recorded he).2
    constructor
    · intro e' he'
      rw [List.mem_singleton.mp he']
      exact .of_accepted (.refl hready) ha (by rw [hinc, hmark])
    · intro _
      rw [← hinc]
      exact .of_accepted hready ha

/-- Setters in front of the tail leave the discipline to the marker and the increment
that they end with. -/
theorem sendAndCheck_stamped_of_ahead (net : τ → BuiltPacket → Int × τ) {s s' : CRTPSender τ}
    {m : Bool} (h : Ahead s s' 0) (hmark : s'.packetbuilder.defaultmark = m)
    (hinc : s'.packetbuilder.defaulttimestampinc = if m then s.pts else 0)
    (data : Block) (len : Nat)
    (haccepted : ∀ e ∈ (s'.sendAndCheck net data len).handed, 0 ≤ e.status) :
    Stamped s m (s'.sendAndCheck net data len) := by
  subst hmark
  rw [← h.pts] at hinc
  exact .of_ahead h (sendAndCheck_stamped net h.ready data len hinc haccepted)

/-- The fragments of a slice that is no whole number of packet lengths. -/
theorem sendFragments_stamped (net : τ → BuiltPacket → Int × τ) {s : CRTPSender τ}
    (hready : s.Ready) (buf : Block) (p : Nat) {n : Nat} (hn : maxRtpPktLength < n)
    (hl : n % maxRtpPktLength ≠ 0)
    (haccepted : ∀ e ∈ (s.sendFragments net buf p n).handed, 0 ≤ e.status) :
    Stamped s true (s.sendFragments net buf p n) := by
  refine sendFragments_induct net s buf p hn
    (I := fun st => (∀ e ∈ st.handed, Disciplined s e) ∧
      Ahead s st.sender (if st.t ≤ n / maxRtpPktLength then 0 else s.pts))
    (Q := fun r => (∀ e ∈ r.handed, 0 ≤ e.status) → Stamped s true r)
    ⟨by simp, by simpa using hready.setDefaultMark false⟩ ?_ ?_ haccepted
  · rintro st st' ⟨hpackets, hahead⟩ hs
    cases hs with
    | sent session e ht hpayload hmark hstatus hacc =>
      have hle : st.t ≤ n / maxRtpPktLength := by omega
      rw [if_pos hle] at hahead
      have hsender : Ahead s (fuSender (n / maxRtpPktLength) st) 0 := by
        unfold fuSender
        split
        · simpa using hahead.trans (hahead.ready.setDefaultMark true)
        · exact hahead
      have hinc : fuIncrement (n / maxRtpPktLength) st =
          if st.t = n / maxRtpPktLength then s.pts else 0 := by
        rw [fuIncrement, hahead.pts]
      constructor
      · intro e' he'
        rcases List.mem_append.mp he' with he' | he'
        · exact hpackets e' he'
        · rw [List.mem_singleton.mp he']
          exact .of_accepted hsender hacc (by rw [hinc, hmark]; simp)
      · have hnext := hsender.trans (.of_accepted hsender.ready hacc)
        rw [UInt32.zero_add, hinc] at hnext
        simp only at hnext ⊢
        by_cases heq : st.t = n / maxRtpPktLength
        · rw [if_pos heq] at hnext
          rwa [if_neg (by omega)]
        · rw [if_neg heq] at hnext
          rwa [if_pos (by omega)]
  · rintro st r ⟨hpackets, hahead⟩ hs hok
    cases hs with
    | done hend =>
      rw [if_neg (by omega)] at hahead
      exact ⟨hpackets, fun _ => hahead⟩
    | fault sender f ht hout => exact ⟨hpackets, fun h => absurd rfl (h f)⟩
    | refused sender e ht hpayload hmark hstatus =>
      have hpos := hok e (by simp only [List.mem_append, List.mem_singleton, or_true])
      omega

/-- A parameter set leaves unmarked, so the increment it inherits has to be zero. -/
theorem sendSpsOrPps_stamped (net : τ → BuiltPacket → Int × τ) {s : CRTPSender τ}
    (hready : s.Ready) (buf : Block) (p n : Nat)
    (hinc : s.packetbuilder.defaulttimestampinc = 0)
    (haccepted : ∀ e ∈ (s.sendSpsOrPps net buf p n).handed, 0 ≤ e.status) :
    Stamped s false (s.sendSpsOrPps net buf p n) := by
  unfold CRTPSender.sendSpsOrPps at haccepted ⊢
  split at haccepted
  · next f _ => exact ⟨by simp, fun h => absurd rfl (h f)⟩
  · next sendbuf _ =>
    have hset := hready.setDefaultMark false
    rw [hready.setDefaultMark_eq] at hset haccepted ⊢
    exact sendAndCheck_stamped_of_ahead net hset rfl hinc sendbuf n haccepted

/-- A short slice leaves marked, so the increment it inherits has to be one period. -/
theorem sendSingle_stamped (net : τ → BuiltPacket → Int × τ) {s : CRTPSender τ}
    (hready : s.Ready) (buf : Block) (p n : Nat)
    (hinc : s.packetbuilder.defaulttimestampinc = s.pts)
    (haccepted : ∀ e ∈ (s.sendSingle net buf p n).handed, 0 ≤ e.status) :
    Stamped s true (s.sendSingle net buf p n) := by
  unfold CRTPSender.sendSingle at haccepted ⊢
  split at haccepted
  · next f _ => exact ⟨by simp, fun h => absurd rfl (h f)⟩
  · next sendbuf _ =>
    have hset := hready.setDefaultMark true
    rw [hready.setDefaultMark_eq] at hset haccepted ⊢
    exact sendAndCheck_stamped_of_ahead net hset rfl hinc sendbuf n haccepted

/-- A call that sends nothing leaves the clock alone. -/
theorem nothing_stamped {s : CRTPSender τ} (hready : s.Ready) :
    Stamped s false ⟨s, [], .ret false⟩ :=
  ⟨by simp, fun _ => .refl hready⟩

/-- A regular call of `SendH264Nalu` keeps the discipline. -/
theorem sendH264Nalu_stamped (net : τ → BuiltPacket → Int × τ) {s : CRTPSender τ}
    (hready : s.Ready) (buf : Block) (buflen : Int) (isSpsOrPps : Bool)
    (hregular : (SendCall.nalu buf buflen isSpsOrPps).Regular s)
    (haccepted : ∀ e ∈ (s.sendH264Nalu net buf buflen isSpsOrPps).handed, 0 ≤ e.status) :
    Stamped s (SendCall.nalu buf buflen isSpsOrPps).closes
      (s.sendH264Nalu net buf buflen isSpsOrPps) := by
  simp only [SendCall.Regular, SendCall.closes] at hregular ⊢
  unfold CRTPSender.sendH264Nalu at haccepted ⊢
  by_cases h4 : buflen < 4
  · rw [if_pos h4, decide_eq_false (by omega), Bool.false_and]
    exact nothing_stamped hready
  have hcount := hready.count
  rw [if_neg h4] at haccepted ⊢
  rw [decide_eq_true (by omega : 4 ≤ buflen), Bool.true_and]
  replace hregular := hregular (by omega)
  cases hstrip : stripStartCode buf buflen.toNat with
  | error f => exact ⟨by simp, fun h => absurd rfl (h f)⟩
  | ok r =>
    obtain ⟨p, n⟩ := r
    rw [hstrip] at haccepted hregular
    simp only [IncrementFits] at haccepted hregular ⊢
    cases isSpsOrPps with
    | true =>
      exact .of_ahead hcount
        (sendSpsOrPps_stamped net hcount.ready buf p n hregular haccepted)
    | false =>
      simp only [Bool.false_eq_true, ite_false, Bool.not_false] at haccepted hregular ⊢
      by_cases hn : n ≤ maxRtpPktLength
      · rw [if_pos hn] at haccepted hregular ⊢
        exact .of_ahead hcount
          (sendSingle_stamped net hcount.ready buf p n hregular haccepted)
      · rw [if_neg hn] at haccepted hregular ⊢
        exact .of_ahead hcount
          (sendFragments_stamped net hcount.ready buf p (by omega) hregular haccepted)

/-- `SendRtpData` sets marker and increment together, so it always keeps the discipline. -/
theorem sendRtpData_stamped (net : τ → BuiltPacket → Int × τ) {s : CRTPSender τ}
    (hready : s.Ready) (buf : Block) (buflen : Int) (isMarker : Bool)
    (haccepted : ∀ e ∈ (s.sendRtpData net buf buflen isMarker).handed, 0 ≤ e.status) :
    Stamped s (SendCall.rtpData buf buflen isMarker).closes
      (s.sendRtpData net buf buflen isMarker) := by
  simp only [SendCall.closes]
  unfold CRTPSender.sendRtpData at haccepted ⊢
  by_cases h4 : buflen < 4
  · rw [if_pos h4, decide_eq_false (by omega), Bool.false_and]
    exact nothing_stamped hready
  rw [if_neg h4] at haccepted ⊢
  rw [decide_eq_true (by omega : 4 ≤ buflen), Bool.true_and]
  have hmark := hready.count.ready.setDefaultMark isMarker
  have hset (inc : UInt32) :
      Ahead s ((s.count.setDefaultMark isMarker).setDefaultTimestampIncrement inc) 0 := by
    simpa using (hready.count.trans hmark).trans (hmark.ready.setDefaultTimestampIncrement inc)
  have hsend (inc : UInt32) (hinc : inc = if isMarker then s.pts else 0) :=
    sendAndCheck_stamped_of_ahead net (m := isMarker) (hset inc)
      (by rw [hmark.ready.setDefaultTimestampIncrement_eq, hready.count.ready.setDefaultMark_eq])
      (by rw [hmark.ready.setDefaultTimestampIncrement_eq, hinc]) buf buflen.toNat
  cases isMarker with
  | true =>
    simp only [ite_true] at haccepted ⊢
    exact hsend _ rfl haccepted
  | false =>
    simp only [Bool.false_eq_true, ite_false] at haccepted ⊢
    exact hsend _ rfl haccepted

/-- A regular call keeps the discipline. -/
theorem perform_stamped (net : τ → BuiltPacket → Int × τ) {s : CRTPSender τ}
    (hready : s.Ready) (call : SendCall) (hregular : call.Regular s)
    (haccepted : ∀ e ∈ (call.perform net s).handed, 0 ≤ e.status) :
    Stamped s call.closes (call.perform net s) := by
  cases call with
  | nalu buf buflen isSpsOrPps =>
    exact sendH264Nalu_stamped net hready buf buflen isSpsOrPps hregular haccepted
  | rtpData buf buflen isMarker =>
    exact sendRtpData_stamped net hready buf buflen isMarker haccepted

/-- The pictures that the first calls of a run have ended. -/
def pictures (calls : List SendCall) : UInt32 := UInt32.ofNat (calls.countP SendCall.closes)

theorem pictures_cons (call : SendCall) (calls : List SendCall) (pts : UInt32) :
    (if call.closes then pts else 0) + pts * pictures calls =
      pts * pictures (call :: calls) := by
  unfold pictures
  rw [List.countP_cons]
  cases call.closes with
  | true => simp [UInt32.ofNat_add, UInt32.mul_add, UInt32.add_comm]
  | false => simp

/-- A call that does not fault is followed by the run of the calls behind it. -/
theorem sendRun_cons (net : τ → BuiltPacket → Int × τ) (s : CRTPSender τ) (call : SendCall)
    (calls : List SendCall) :
    ∃ rest, sendRun net s (call :: calls) = ⟨s, call, call.perform net s⟩ :: rest ∧
      (rest = [] ∨ (∀ f, (call.perform net s).outcome ≠ .fault f) ∧
        rest = sendRun net (call.perform net s).sender calls) := by
  rw [sendRun]
  refine ⟨_, rfl, ?_⟩
  cases (call.perform net s).outcome with
  | fault f => exact Or.inl rfl
  | ret b => exact Or.inr ⟨by simp, rfl⟩
  | fallsOff => exact Or.inr ⟨by simp, rfl⟩

/-- In a run of regular calls every call finds the clock one period ahead for each
picture ended before it, and keeps the discipline. -/
theorem sendRun_stamped (net : τ → BuiltPacket → Int × τ) {s : CRTPSender τ} (hready : s.Ready)
    (calls : List SendCall)
    (hregular : ∀ step ∈ sendRun net s calls, step.call.Regular step.before)
    (haccepted : ∀ step ∈ sendRun net s calls, ∀ e ∈ step.result.handed, 0 ≤ e.status) :
    ∀ i (hi : i < (sendRun net s calls).length),
      Ahead s (sendRun net s calls)[i].before (s.pts * pictures (calls.take i)) ∧
        Stamped (sendRun net s calls)[i].before (sendRun net s calls)[i].call.closes
          (sendRun net s calls)[i].result := by
  induction calls generalizing s with
  | nil => intro i hi; simp [sendRun] at hi
  | cons call calls ih =>
    obtain ⟨rest, hrun, hrest⟩ := sendRun_cons net s call calls
    simp only [hrun] at hregular haccepted ⊢
    have hstamped := perform_stamped net hready call (hregular _ (List.mem_cons_self ..))
      (haccepted _ (List.mem_cons_self ..))
    intro i hi
    cases i with
    | zero => exact ⟨by simpa [pictures] using Ahead.refl hready, hstamped⟩
    | succ i =>
      rcases hrest with rfl | ⟨hok, rfl⟩
      · simp at hi
      · have hafter := hstamped.after hok
        obtain ⟨hahead, hlater⟩ := ih hafter.ready
          (fun step hstep => hregular step (List.mem_cons_of_mem _ hstep))
          (fun step hstep => haccepted step (List.mem_cons_of_mem _ hstep)) i
          (by simpa using hi)
        refine ⟨?_, hlater⟩
        have htotal := hafter.trans hahead
        rwa [hafter.pts, pictures_cons] at htotal

/-- A sender is ready once `initParam` has opened it. -/
theorem CRTPSender.ready_opened (trans : τ) (framerate : Int) (timestamp : UInt32)
    (seqnr : UInt16) : (CRTPSender.opened trans framerate timestamp seqnr).Ready :=
  ⟨rfl, rfl⟩

/-- After `initParam`, in every run of regular calls whose packets are accepted, each
packet moves the clock by one period if it carries the marker and not at all
otherwise, and it leaves one period later for each picture ended before its call.
The condition is sufficient only: other runs can keep the law as well. -/
theorem sendRun_timestamps (net : τ → BuiltPacket → Int × τ) (trans : τ) (framerate : Int)
    (timestamp : UInt32) (seqnr : UInt16) (calls : List SendCall)
    (hregular : ∀ step ∈ sendRun net (.opened trans framerate timestamp seqnr) calls,
      step.call.Regular step.before)
    (haccepted : ∀ step ∈ sendRun net (.opened trans framerate timestamp seqnr) calls,
      ∀ e ∈ step.result.handed, 0 ≤ e.status) :
    let s := CRTPSender.opened trans framerate timestamp seqnr
    ∀ i (hi : i < (sendRun net s calls).length), ∀ e ∈ (sendRun net s calls)[i].result.handed,
      e.next = e.timestamp + (if e.mark then s.pts else 0) ∧
        e.timestamp = timestamp + s.pts * pictures (calls.take i) := by
  intro s i hi e he
  obtain ⟨hahead, hstamped⟩ := sendRun_stamped net
    (CRTPSender.ready_opened trans framerate timestamp seqnr) calls hregular haccepted i hi
  obtain ⟨ht, hn⟩ := hstamped.packets e he
  exact ⟨by rw [hn, hahead.pts], by rw [ht, hahead.clock]; rfl⟩

/-- RTP data without the marker resets the increment, so the parameter set behind it is
regular, and the marker ends the picture of both. -/
def forwardedPicture : List SendCall :=
  [.rtpData (Block.ofList [0x41, 0x9a, 2, 3]) 4 false,
    .nalu (Block.ofList [0, 0, 1, 0x67, 0x42]) 5 true,
    .rtpData (Block.ofList [0x41, 0x9a, 2, 3]) 4 true]

/-- The three packets of a forwarded picture. -/
theorem sendRun_timestamps_forwardedPicture :
    let s := CRTPSender.opened () 30 7 0
    ∀ i (hi : i < (sendRun (fun (_ : Unit) _ => (0, ())) s forwardedPicture).length),
      ∀ e ∈ (sendRun (fun (_ : Unit) _ => (0, ())) s forwardedPicture)[i].result.handed,
        e.next = e.timestamp + (if e.mark then s.pts else 0) ∧
          e.timestamp = 7 + s.pts * pictures (forwardedPicture.take i) :=
  sendRun_timestamps _ () 30 7 0 forwardedPicture (by decide +kernel) (by decide +kernel)

/-- The first call of a stream, a parameter set: its packet is accepted without the
marker and moves the clock all the same. -/
theorem not_disciplined_firstParameterSet :
    let s := CRTPSender.opened () 30 0 0
    let run := sendRun (fun (_ : Unit) _ => (0, ())) s
      [.nalu (Block.ofList [0, 0, 0, 1, 0x67, 0x42]) 6 true]
    (∀ step ∈ run, ∀ e ∈ step.result.handed, 0 ≤ e.status) ∧
      ¬ ∀ step ∈ run, ∀ e ∈ step.result.handed,
        e.next = e.timestamp + if e.mark then s.pts else 0 := by
  decide +kernel

end Jrtplib4Android
