import Jrtplib4Android.Rtmp.Overrun

/-!
# Stream time

`PushH264Data` stamps its message with a counter that every call of it advances by 40,
`PushSPSPPS` with zero. The time of a stream therefore goes back at each parameter set
that comes behind more than one frame.
-/

namespace Jrtplib4Android

open CSem

variable {ω : Type}

namespace AvcCall

def isH264 : AvcCall → Bool
  | spsPps .. => false
  | h264 .. => true

/-- The call reads what its pointers reach and writes what fits the body. -/
def Defined (c : AvcCall) : Prop := (RtmpCall.avc c).Readable ∧ (RtmpCall.avc c).Fits

instance (c : AvcCall) : Decidable c.Defined :=
  match c with
  | spsPps sps spsLen pps ppsLen => inferInstanceAs (Decidable
      ((4 ≤ sps.size ∧ spsLen ≤ sps.size ∧ ppsLen ≤ pps.size) ∧
        0 ≤ spsLen ∧ 0 ≤ ppsLen ∧ spsLen + ppsLen + 16 ≤ 524288))
  | h264 data dataLen _ =>
    inferInstanceAs (Decidable (dataLen ≤ data.size ∧ 0 ≤ dataLen ∧ dataLen + 9 ≤ 524288))

/-- How many frames the call adds to the stream. -/
def frames (c : AvcCall) : Nat := if c.isH264 then 1 else 0

/-- The timestamp of the call behind `n` frames. -/
def stamp (c : AvcCall) (n : Nat) : UInt32 := if c.isH264 then UInt32.ofNat (40 * n) else 0

end AvcCall

/-- The calls that are made before one leaves defined memory. -/
def defined (calls : List AvcCall) : List AvcCall := calls.takeWhile fun c => c.Defined

theorem defined_cons_of_pos {c : AvcCall} (h : c.Defined) (calls : List AvcCall) :
    defined (c :: calls) = c :: defined calls := by
  simp only [defined, List.takeWhile_cons, h, decide_true, ite_true]

theorem defined_cons_of_neg {c : AvcCall} (h : ¬ c.Defined) (calls : List AvcCall) :
    defined (c :: calls) = [] := by
  simp only [defined, List.takeWhile_cons, h, decide_false, Bool.false_eq_true, ite_false]

/-- The messages that the calls hand over, in order. -/
def streamed (net : ω → RTMPPacket → ω × SendReply) (u : RtmpUtils ω) :
    List AvcCall → List Message
  | [] => []
  | c :: cs =>
    match c.run net u with
    | .error _ => []
    | .ok (u, _, message) => message.toList ++ streamed net u cs

/-- The timestamps of the calls behind `n` frames. -/
def stamps (n : Nat) : List AvcCall → List UInt32
  | [] => []
  | c :: cs => c.stamp n :: stamps (n + c.frames) cs

namespace RtmpUtils

/-- A packet inside its body can be sent. -/
theorem send_ok (net : ω → RTMPPacket → ω × SendReply) {u : RtmpUtils ω}
    (hsize : u.packet.mNBodySize.toNat ≤ u.packet.mBody.size) :
    ∃ u' status message, u.send net = .ok (u', status, message) := by
  unfold send
  split
  · rw [RTMP.sendPacket_eq (Prod.mk.eta.symm) hsize]
    exact ⟨_, _, _, rfl⟩
  · exact ⟨_, _, _, rfl⟩

end RtmpUtils

namespace AvcCall

/-- A call that ends was defined. -/
theorem defined_of_run {net : ω → RTMPPacket → ω × SendReply} {u u' : RtmpUtils ω} {c : AvcCall}
    {status : Int} {message : Option Message} (hsize : u.packet.mBody.size = 524288)
    (h : c.run net u = .ok (u', status, message)) : c.Defined := by
  refine ⟨?_, (RtmpUtils.fits_of_run (c := .avc c) hsize h).1⟩
  cases c with
  | spsPps sps spsLen pps ppsLen =>
    obtain ⟨body, hbody, -⟩ := bind_eq_ok h
    exact (RtmpUtils.room_of_spsPpsBody hbody).2.1
  | h264 data dataLen isIdr =>
    obtain ⟨body, hbody, -⟩ := bind_eq_ok h
    exact (RtmpUtils.room_of_h264Body hbody).2.1

/-- A defined call ends. -/
theorem run_ok (net : ω → RTMPPacket → ω × SendReply) {u : RtmpUtils ω}
    (hsize : u.packet.mBody.size = 524288) {c : AvcCall} (hc : c.Defined) :
    ∃ u' status message, c.run net u = .ok (u', status, message) := by
  cases c with
  | spsPps sps spsLen pps ppsLen =>
    obtain ⟨⟨hfour, hsps, hpps⟩, hspsLen, hppsLen, hroom⟩ := hc
    rcases RtmpUtils.settles_spsPpsBody u.packet.mBody hfour hsps hpps with hover | ⟨body, hbody⟩
    · exact absurd hover (RtmpUtils.not_overruns_spsPpsBody sps pps hspsLen hppsLen (by omega))
    · have hkept := (RtmpUtils.room_of_spsPpsBody hbody).2.2
      obtain ⟨n, hn⟩ := Int.eq_ofNat_of_zero_le (by omega : 0 ≤ spsLen + ppsLen + 16)
      simp only [run, RtmpUtils.pushSPSPPS, hbody, bind, Except.bind]
      refine RtmpUtils.send_ok net ?_
      rw [hn]
      simp only [toNat_ofInt (by omega : n < 2 ^ 32)]
      omega
  | h264 data dataLen isIdr =>
    obtain ⟨hdata, hlen, hroom⟩ := hc
    rcases RtmpUtils.settles_h264Body u.packet.reset.mBody isIdr hdata with hover | ⟨body, hbody⟩
    · exact absurd hover (RtmpUtils.not_overruns_h264Body data isIdr hlen
        (by rw [RTMPPacket.reset_mBody]; omega))
    · have hkept := (RtmpUtils.room_of_h264Body hbody).2.2
      rw [RTMPPacket.reset_mBody] at hkept
      obtain ⟨n, hn⟩ := Int.eq_ofNat_of_zero_le (by omega : 0 ≤ dataLen + 9)
      simp only [run, RtmpUtils.pushH264Data, hbody, bind, Except.bind]
      refine RtmpUtils.send_ok net ?_
      rw [hn]
      simp only [toNat_ofInt (by omega : n < 2 ^ 32)]
      omega

/-- What a call behind `n` frames does to the clock, and the stamp of its message. -/
theorem run_cases {net : ω → RTMPPacket → ω × SendReply} {u u' : RtmpUtils ω} {c : AvcCall}
    {status : Int} {message : Option Message} {n : Nat} (hclock : u.mTimestamp = 40 * n)
    (h : c.run net u = .ok (u', status, message)) :
    u'.mTimestamp = 40 * (n + c.frames : Nat) ∧
      (u.rtmp.connected = true ∧ (∃ m, message = some m ∧ m.timestamp = c.stamp n) ∧
          (Accepts net → u'.rtmp.connected = true) ∨
        u.rtmp.connected = false ∧ message = none ∧ u'.rtmp.connected = false) := by
  cases c with
  | spsPps sps spsLen pps ppsLen =>
    obtain ⟨body, -, hsend⟩ := bind_eq_ok h
    obtain ⟨hkept, hcases⟩ := RtmpUtils.send_cases hsend
    refine ⟨hkept.timestamp.trans hclock, ?_⟩
    rcases hcases with ⟨hconn, hmessage, hopen⟩ | hclosed
    · exact Or.inl ⟨hconn, ⟨_, hmessage, rfl⟩, hopen⟩
    · exact Or.inr hclosed
  | h264 data dataLen isIdr =>
    obtain ⟨body, -, hsend⟩ := bind_eq_ok h
    obtain ⟨hkept, hcases⟩ := RtmpUtils.send_cases hsend
    have hnext : u.mTimestamp + 40 = 40 * ((n + 1 : Nat) : Int) := by omega
    have hstamp : UInt32.ofInt u.mTimestamp = UInt32.ofNat (40 * n) := by
      have hcast : u.mTimestamp = ((40 * n : Nat) : Int) := by omega
      rw [hcast, ofInt_natCast]
    refine ⟨hkept.timestamp.trans hnext, ?_⟩
    rcases hcases with ⟨hconn, hmessage, hopen⟩ | hclosed
    · exact Or.inl ⟨hconn, ⟨_, hmessage, hstamp⟩, hopen⟩
    · exact Or.inr hclosed

end AvcCall

variable {net : ω → RTMPPacket → ω × SendReply}

/-- Nothing is handed over once the connection is closed. -/
theorem streamed_closed (calls : List AvcCall) {u : RtmpUtils ω} {n : Nat}
    (hclock : u.mTimestamp = 40 * n) (hclosed : u.rtmp.connected = false) :
    streamed net u calls = [] := by
  induction calls generalizing u n with
  | nil => rfl
  | cons c calls ih =>
    unfold streamed
    split
    · rfl
    · next u' status message hrun =>
      obtain ⟨hclock', ⟨hopen, -⟩ | ⟨-, rfl, hclosed'⟩⟩ := c.run_cases hclock hrun
      · rw [hclosed] at hopen
        cases hopen
      · exact ih hclock' hclosed'

/-- The messages carry the stamps of the first calls. -/
theorem timestamps_streamed (calls : List AvcCall) {u : RtmpUtils ω} {n : Nat}
    (hsize : u.packet.mBody.size = 524288) (hclock : u.mTimestamp = 40 * n) :
    (streamed net u calls).map Message.timestamp <+: stamps n (defined calls) := by
  induction calls generalizing u n with
  | nil => exact List.prefix_rfl
  | cons c calls ih =>
    unfold streamed
    split
    · exact List.nil_prefix
    · next u' status message hrun =>
      obtain ⟨hclock', hcases⟩ := c.run_cases hclock hrun
      have hsize' := (RtmpUtils.fits_of_run (c := .avc c) hsize hrun).2
      rw [defined_cons_of_pos (c.defined_of_run hsize hrun), stamps]
      rcases hcases with ⟨-, ⟨m, rfl, hstamp⟩, -⟩ | ⟨-, rfl, hclosed⟩
      · rw [Option.toList_some, List.singleton_append, List.map_cons, hstamp,
          List.prefix_cons_inj]
        exact ih hsize' hclock'
      · rw [streamed_closed calls hclock' hclosed]
        exact List.nil_prefix

/-- An open connection that accepts everything is handed all the stamps. -/
theorem timestamps_streamed_eq (haccepts : Accepts net) (calls : List AvcCall)
    {u : RtmpUtils ω} {n : Nat} (hsize : u.packet.mBody.size = 524288)
    (hclock : u.mTimestamp = 40 * n) (hopen : u.rtmp.connected = true) :
    (streamed net u calls).map Message.timestamp = stamps n (defined calls) := by
  induction calls generalizing u n with
  | nil => rfl
  | cons c calls ih =>
    unfold streamed
    by_cases hc : c.Defined
    · obtain ⟨u', status, message, hrun⟩ := c.run_ok net hsize hc
      obtain ⟨hclock', ⟨-, ⟨m, rfl, hstamp⟩, hopen'⟩ | ⟨hclosed, -⟩⟩ := c.run_cases hclock hrun
      · have hsize' := (RtmpUtils.fits_of_run (c := .avc c) hsize hrun).2
        simp only [hrun]
        rw [defined_cons_of_pos hc, stamps, Option.toList_some, List.singleton_append,
          List.map_cons, hstamp]
        exact congrArg _ (ih hsize' hclock' (hopen' haccepts))
      · rw [hopen] at hclosed
        cases hclosed
    · split
      · rw [defined_cons_of_neg hc]
        rfl
      · next u' status message hrun => exact absurd (c.defined_of_run hsize hrun) hc

/-- The number of frames that the calls add to the stream. -/
def frames (calls : List AvcCall) : Nat := (calls.map AvcCall.frames).sum

/-- Behind `n` frames, every parameter set comes before the second frame. -/
def Timely (n : Nat) (calls : List AvcCall) : Prop :=
  ∀ before c behind, calls = before ++ c :: behind → c.isH264 = false → n + frames before ≤ 1

@[simp] theorem timely_nil (n : Nat) : Timely n [] := fun before _ _ h => by
  cases before <;> cases h

theorem timely_cons_iff {n : Nat} {c : AvcCall} {calls : List AvcCall} :
    Timely n (c :: calls) ↔ (c.isH264 = false → n ≤ 1) ∧ Timely (n + c.frames) calls := by
  constructor
  · intro h
    refine ⟨h [] c calls rfl, fun before c' behind hcalls hset => ?_⟩
    have := h (c :: before) c' behind (by rw [hcalls, List.cons_append]) hset
    rw [frames, List.map_cons, List.sum_cons] at this
    rw [frames]
    omega
  · rintro ⟨hfirst, hrest⟩ before c' behind hcalls hset
    rcases before with _ | ⟨c₀, before⟩
    · cases hcalls
      exact hfirst hset
    · cases hcalls
      have := hrest before c' behind rfl hset
      rw [frames] at this
      rw [frames, List.map_cons, List.sum_cons]
      omega

private theorem ofNat_le_ofNat_iff {m n : Nat} (hm : m < 2 ^ 32) (hn : n < 2 ^ 32) :
    UInt32.ofNat m ≤ UInt32.ofNat n ↔ m ≤ n := by
  rw [UInt32.le_iff_toNat_le, UInt32.toNat_ofNat', UInt32.toNat_ofNat', Nat.mod_eq_of_lt hm,
    Nat.mod_eq_of_lt hn]

/-- Behind the stamp of the last of `n` frames the stamps ascend exactly if the parameter
sets are timely. -/
theorem isChain_stamps_iff {n : Nat} {calls : List AvcCall}
    (hdur : 40 * (n + frames calls) < 2 ^ 32) :
    List.IsChain (· ≤ ·) (UInt32.ofNat (40 * (n - 1)) :: stamps n calls) ↔ Timely n calls := by
  induction calls generalizing n with
  | nil => simp [stamps]
  | cons c calls ih =>
    rw [frames, List.map_cons, List.sum_cons, ← frames] at hdur
    rw [stamps, List.isChain_cons_cons, timely_cons_iff]
    cases hset : c.isH264 with
    | false =>
      have hframes : c.frames = 0 := by
        simp only [AvcCall.frames, hset, Bool.false_eq_true, ite_false]
      have hstamp : c.stamp n = UInt32.ofNat 0 := by
        simp only [AvcCall.stamp, hset, Bool.false_eq_true, ite_false]
        rfl
      rw [hframes] at hdur
      rw [hstamp, hframes, ofNat_le_ofNat_iff (by omega) (by omega), Nat.add_zero]
      have hlast : 40 * (n - 1) ≤ 0 ↔ n ≤ 1 := by omega
      rw [hlast]
      constructor
      · rintro ⟨hn, hchain⟩
        have hzero : 40 * (n - 1) = 0 := by omega
        rw [← hzero, ih (by omega)] at hchain
        exact ⟨fun _ => hn, hchain⟩
      · rintro ⟨hn, htimely⟩
        have hzero : 40 * (n - 1) = 0 := by have := hn rfl; omega
        rw [← ih (by omega), hzero] at htimely
        exact ⟨hn rfl, htimely⟩
    | true =>
      have hframes : c.frames = 1 := by simp only [AvcCall.frames, hset, ite_true]
      have hstamp : c.stamp n = UInt32.ofNat (40 * (n + 1 - 1)) := by
        simp only [AvcCall.stamp, hset, ite_true, Nat.add_sub_cancel]
      rw [hframes] at hdur
      rw [hstamp, hframes, ofNat_le_ofNat_iff (by omega) (by omega), ih (by omega)]
      constructor
      · rintro ⟨-, htimely⟩
        exact ⟨fun h => absurd h (by decide), htimely⟩
      · rintro ⟨-, htimely⟩
        exact ⟨by omega, htimely⟩

theorem frames_defined_le (calls : List AvcCall) : frames (defined calls) ≤ frames calls := by
  have hsplit : defined calls ++ calls.dropWhile (fun c => decide c.Defined) = calls :=
    List.takeWhile_append_dropWhile
  calc frames (defined calls)
    _ ≤ frames (defined calls ++ calls.dropWhile (fun c => decide c.Defined)) := by
      simp only [frames, List.map_append, List.sum_append]
      omega
    _ = frames calls := by rw [hsplit]

/-- Whatever the network answers, the stream time of the calls on an initialised handle
does not go back, exactly if no parameter set that is reached in defined memory comes
behind more than one frame. -/
theorem streamed_ascends_iff (calls : List AvcCall) (hdur : 40 * frames calls < 2 ^ 32) :
    (∀ (ω : Type) (net : ω → RTMPPacket → ω × SendReply) (rtmp : RTMP ω),
      ((streamed net (.initRtmpHandle rtmp 0) calls).map Message.timestamp).Pairwise (· ≤ ·)) ↔
      Timely 0 (defined calls) := by
  have hdefined := frames_defined_le calls
  have hchain : List.IsChain (· ≤ ·) (UInt32.ofNat (40 * (0 - 1)) :: stamps 0 (defined calls)) ↔
      Timely 0 (defined calls) := isChain_stamps_iff (by omega)
  have hascends : List.IsChain (· ≤ ·) (UInt32.ofNat (40 * (0 - 1)) :: stamps 0 (defined calls)) ↔
      (stamps 0 (defined calls)).Pairwise (· ≤ ·) := by
    rw [List.isChain_iff_pairwise, List.pairwise_cons]
    refine and_iff_right fun x _ => ?_
    rw [UInt32.le_iff_toNat_le]
    exact Nat.zero_le _
  rw [← hchain, hascends]
  constructor
  · intro h
    have hall := h Unit oneChunk ⟨true, 1, ()⟩
    rwa [timestamps_streamed_eq (n := 0) (fun _ _ => ⟨rfl, rfl⟩) calls rfl rfl rfl] at hall
  · intro h ω net rtmp
    exact h.sublist (timestamps_streamed calls rfl rfl).sublist

def parameterSets : AvcCall :=
  .spsPps (.ofList [0x67, 66, 0, 30]) 4 (.ofList [0x68, 0xce]) 2

def keyFrame : AvcCall := .h264 (.ofList [0x65, 0x88, 0x84]) 3 true

/-- One parameter set in front of the frames. -/
theorem streamed_ascends_iff_once :
    ((streamed oneChunk (.initRtmpHandle ⟨true, 1, ()⟩ 0)
      [parameterSets, keyFrame, keyFrame]).map Message.timestamp).Pairwise (· ≤ ·) :=
  (streamed_ascends_iff [parameterSets, keyFrame, keyFrame] (by decide)).mpr (by
    rw [defined_cons_of_pos (by decide), defined_cons_of_pos (by decide),
      defined_cons_of_pos (by decide)]
    simp [timely_cons_iff, defined, parameterSets, keyFrame, AvcCall.isH264])
    Unit oneChunk _

/-- With the parameter set repeated in front of the third frame the time jumps from 40 back
to 0. -/
theorem not_streamed_ascends_repeated :
    ¬ ((streamed oneChunk (.initRtmpHandle ⟨true, 1, ()⟩ 0)
      [parameterSets, keyFrame, keyFrame, parameterSets, keyFrame]).map
        Message.timestamp).Pairwise (· ≤ ·) := by
  rw [timestamps_streamed_eq (n := 0) (fun _ _ => ⟨rfl, rfl⟩) _ rfl rfl rfl]
  decide

end Jrtplib4Android
