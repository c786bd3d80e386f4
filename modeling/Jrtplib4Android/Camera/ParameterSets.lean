import Jrtplib4Android.Core.Filling
import Jrtplib4Android.Core.Run
import Mathlib.Data.List.Induction

/-!
# The parameter sets of the encoder

The encoder hands out its codec configuration, key frames and other frames. `CameraHelper`
takes the two parameter sets out of the configuration and sends them in front of the key
frames. An output is numbered by its callback, so that what is sent can be told apart.
-/

namespace Jrtplib4Android

open CSem

namespace CameraHelper

/-- The start code of a NAL unit. -/
def startCode : List UInt8 := [0x00, 0x00, 0x00, 0x01]

/-- The two parameter sets. The first start code behind them tells where the first one ends. -/
structure Configuration where
  sps : List UInt8
  pps : List UInt8
  unmarked : ¬ startCode <:+: sps
  nonempty : pps ≠ []

/-- The buffer that the encoder makes of them. -/
def Configuration.bytes (c : Configuration) : List UInt8 := startCode ++ c.sps ++ startCode ++ c.pps

/-- `BUFFER_FLAG_KEY_FRAME`. -/
def bufferFlagKeyFrame : Nat := 1

/-- `BUFFER_FLAG_CODEC_CONFIG`. -/
def bufferFlagCodecConfig : Nat := 2

/-- An output of the encoder. -/
inductive Output where
  | config (c : Configuration)
  | keyFrame (data : List UInt8)
  | other (flags : Nat) (data : List UInt8)
      (hflags : flags ≠ bufferFlagKeyFrame ∧ flags ≠ bufferFlagCodecConfig)

namespace Output

/-- `info.flags`. -/
def flags : Output → Nat
  | config _ => bufferFlagCodecConfig
  | keyFrame _ => bufferFlagKeyFrame
  | other flags _ _ => flags

/-- The content of the output buffer. -/
def data : Output → List UInt8
  | config c => c.bytes
  | keyFrame data => data
  | other _ data _ => data

def IsConfig (o : Output) : Prop := o.flags = bufferFlagCodecConfig

def IsKeyFrame (o : Output) : Prop := o.flags = bufferFlagKeyFrame

instance : DecidablePred IsKeyFrame := fun o => Nat.decEq o.flags bufferFlagKeyFrame

@[simp] theorem isConfig_config (c : Configuration) : (config c).IsConfig := rfl

/-- A configuration is no key frame. -/
@[simp] theorem not_isKeyFrame_config (c : Configuration) : ¬ (config c).IsKeyFrame :=
  Nat.succ_ne_self 1

@[simp] theorem isKeyFrame_keyFrame (data : List UInt8) : (keyFrame data).IsKeyFrame := rfl

/-- A key frame is no configuration. -/
@[simp] theorem not_isConfig_keyFrame (data : List UInt8) : ¬ (keyFrame data).IsConfig :=
  (Nat.succ_ne_self 1).symm

end Output

/-- A call of `sendData`, and in which callback it is made. -/
structure Sending where
  callback : Nat
  h264Data : Option (List UInt8)
  isSpsOrPps : Bool

/-- The fields of `CameraHelper` that the callback uses; and what it has received, passed to
`sendData` and released so far. -/
structure Encoder where
  sps : Option (List UInt8)
  pps : Option (List UInt8)
  isFirstFrame : Bool
  received : List Output
  sent : List Sending
  released : Nat

/-- An exception of Java. -/
inductive Thrown where
  | negativeArraySize
  | arrayIndexOutOfBounds
  deriving DecidableEq

/-- Code of the callback. An exception leaves the fields as they are then. -/
abbrev Callback := EStateM Thrown Encoder

/-- `new byte[n]`. -/
def newBytes (n : Int) : Callback (List UInt8) :=
  if n < 0 then throw .negativeArraySize else pure (List.replicate n.toNat 0)

/-- `System.arraycopy`; the result is the new content of `dest`. -/
def arraycopy (src : List UInt8) (srcPos : Int) (dest : List UInt8) (destPos length : Int) :
    Callback (List UInt8) :=
  if 0 ≤ srcPos ∧ 0 ≤ destPos ∧ 0 ≤ length ∧ srcPos + length ≤ src.length ∧
      destPos + length ≤ dest.length then
    pure (dest.take destPos.toNat ++ (src.drop srcPos.toNat).take length.toNat ++
      dest.drop (destPos + length).toNat)
  else throw .arrayIndexOutOfBounds

/-- The condition in the loop of `findSpsAndPps`. -/
def StartsAt (config : List UInt8) (i : Nat) : Prop :=
  config[i]? = some 0x00 ∧ config[i + 1]? = some 0x00 ∧ config[i + 2]? = some 0x00 ∧
    config[i + 3]? = some 0x01

instance (config : List UInt8) : DecidablePred (StartsAt config) :=
  fun i => by unfold StartsAt; infer_instance

/-- `spsEnd` behind the loop. -/
def spsEnd (config : List UInt8) : Int :=
  match (countUp 4 (config.length - 4) 1).find? (StartsAt config) with
  | some i => i - 1
  | none => 1

def findSpsAndPps (config : List UInt8) : Callback Unit := do
  let spsEnd := spsEnd config
  let sps ← newBytes (spsEnd - 3)
  modify fun s => { s with sps := some sps }
  let pps ← newBytes (config.length - spsEnd - 5)
  modify fun s => { s with pps := some pps }
  let sps ← arraycopy config 4 sps 0 (spsEnd - 3)
  modify fun s => { s with sps := some sps }
  let pps ← arraycopy config (spsEnd + 5) pps 0 (config.length - spsEnd - 5)
  modify fun s => { s with pps := some pps }

/-- `sendData`, with an executor that takes tasks. The output of the running callback is not
counted yet. -/
def sendData (h264Data : Option (List UInt8)) (isSpsOrPps : Bool) : Callback Unit :=
  modify fun s => { s with sent := s.sent ++ [⟨s.received.length, h264Data, isSpsOrPps⟩] }

/-- Both parameter sets. -/
def sendParameterSets : Callback Unit := do
  sendData (← get).sps true
  sendData (← get).pps true

/-- The body of `try` in `onOutputBufferAvailable`. -/
def onOutputBuffer (flags : Nat) (outData : List UInt8) : Callback Unit := do
  if flags = bufferFlagCodecConfig then findSpsAndPps outData
  else if flags = bufferFlagKeyFrame then
    if (← get).isFirstFrame = false then sendParameterSets
    modify fun s => { s with isFirstFrame := false }
  if (← get).isFirstFrame then sendParameterSets
  else sendData (some outData) false
  modify fun s => { s with released := s.released + 1 }

namespace Encoder

/-- `onOutputBufferAvailable`; an exception is caught and printed. -/
def onOutputBufferAvailable (s : Encoder) (o : Output) : Encoder :=
  let s :=
    match (onOutputBuffer o.flags o.data).run s with
    | .ok _ s => s
    | .error _ s => s
  { s with received := s.received ++ [o] }

/-- A camera helper before the first output. -/
def start : Encoder := ⟨none, none, true, [], [], 0⟩

end Encoder

/-- The four comparisons find a start code. -/
theorem startsAt_iff {config : List UInt8} {i : Nat} :
    StartsAt config i ↔ startCode <+: config.drop i := by
  have hat : ∀ k, (config.drop i)[k]? = config[i + k]? := fun k => List.getElem?_drop
  constructor
  · rintro ⟨h₀, h₁, h₂, h₃⟩
    rw [List.prefix_iff_getElem?]
    intro k hk
    rw [hat]
    match k, hk with
    | 0, _ => exact h₀
    | 1, _ => exact h₁
    | 2, _ => exact h₂
    | 3, _ => exact h₃
  · intro h
    rw [List.prefix_iff_getElem?] at h
    simp only [hat] at h
    exact ⟨h 0 (by decide), h 1 (by decide), h 2 (by decide), h 3 (by decide)⟩

/-- In front of the first start code none begins, not even one that ends in it. -/
theorem not_startsAt {sps : List UInt8} (h : ¬ startCode <:+: sps) (rest : List UInt8) {p : Nat}
    (hp : p < sps.length) : ¬ StartsAt (startCode ++ sps ++ startCode ++ rest) (4 + p) := by
  have hbehind : (startCode ++ sps ++ startCode ++ rest).drop (4 + p) =
      sps.drop p ++ (startCode ++ rest) := by
    rw [List.append_assoc, List.append_assoc, ← List.drop_drop]
    exact List.drop_append_of_le_length (Nat.le_of_lt hp)
  rw [startsAt_iff, hbehind]
  intro hcode
  by_cases hin : startCode.length ≤ (sps.drop p).length
  · apply h
    exact (List.prefix_of_prefix_length_le hcode (List.prefix_append _ _) hin).isInfix.trans
      (List.drop_suffix p sps).isInfix
  · -- its last byte would be one of the zeros of the start code behind
    rw [List.prefix_iff_getElem?] at hcode
    have hlast := hcode 3 (by decide)
    rw [List.length_drop] at hin
    have hcase : sps.length = p + 1 ∨ sps.length = p + 2 ∨ sps.length = p + 3 := by
      simp only [startCode, List.length_cons, List.length_nil] at hin
      omega
    rw [List.getElem?_append_right (by rw [List.length_drop]; omega), List.length_drop] at hlast
    rcases hcase with heq | heq | heq
    · rw [heq, Nat.add_sub_cancel_left] at hlast
      cases hlast
    · rw [heq, Nat.add_sub_cancel_left] at hlast
      cases hlast
    · rw [heq, Nat.add_sub_cancel_left] at hlast
      cases hlast

/-- A configuration has two start codes. -/
theorem Configuration.length_bytes (c : Configuration) :
    c.bytes.length = 8 + c.sps.length + c.pps.length := by
  simp only [Configuration.bytes, startCode, List.length_append, List.length_cons, List.length_nil]
  omega

/-- The positions that the loop looks at. -/
theorem mem_loop {config : List UInt8} {i : Nat} :
    i ∈ countUp 4 (config.length - 4) 1 ↔ 4 ≤ i ∧ i + 4 < config.length := by
  rw [countUp, List.mem_range'_1]
  omega

/-- The search finds the start code behind the first parameter set. -/
theorem Configuration.spsEnd_eq (c : Configuration) : spsEnd c.bytes = c.sps.length + 3 := by
  have hpps := List.length_pos_iff.mpr c.nonempty
  have hfirst : (countUp 4 (c.bytes.length - 4) 1).find? (StartsAt c.bytes) =
      some (4 + c.sps.length) := by
    apply List.find?_range'_eq_some.mpr
    refine ⟨?_, mem_loop.mpr ?_, fun j hj hlt => ?_⟩
    · rw [decide_eq_true_eq, startsAt_iff, Configuration.bytes, List.append_assoc,
        List.drop_left' (by rw [List.length_append, startCode, List.length_cons]; rfl)]
      exact List.prefix_append _ _
    · rw [c.length_bytes]
      omega
    · have hno := not_startsAt c.unmarked c.pps (p := j - 4) (by omega)
      rw [Nat.add_sub_cancel' hj] at hno
      rw [Bool.not_eq_true', decide_eq_false_iff_not]
      exact hno
  rw [spsEnd, hfirst]
  change ((4 + c.sps.length : Nat) : Int) - 1 = _
  omega

/-- Where the search ends without a find, `spsEnd` keeps its first value. -/
theorem spsEnd_eq_one {config : List UInt8}
    (h : ∀ i, 4 ≤ i → i + 4 < config.length → ¬ startCode <+: config.drop i) :
    spsEnd config = 1 := by
  have hnone : (countUp 4 (config.length - 4) 1).find? (StartsAt config) = none := by
    rw [List.find?_eq_none]
    intro i hi
    obtain ⟨hlo, hhi⟩ := mem_loop.mp hi
    rw [decide_eq_true_eq, startsAt_iff]
    exact h i hlo hhi
  rw [spsEnd, hnone]

section Callbacks

variable {s : Encoder}

/-- A new array is zero. -/
theorem newBytes_run (n : Nat) : (newBytes n).run s = .ok (List.replicate n 0) s := by
  rw [newBytes, if_neg (by omega)]
  rfl

/-- A part of an array is copied over the whole of another one. -/
theorem arraycopy_run {src pre mid post : List UInt8} (h : src = pre ++ mid ++ post) {p n : Int}
    (hp : p = pre.length) (hn : n = mid.length) :
    (arraycopy src p (List.replicate mid.length 0) 0 n).run s = .ok mid s := by
  subst h hp hn
  have hin : (0 : Int) ≤ pre.length ∧ (0 : Int) ≤ 0 ∧ (0 : Int) ≤ mid.length ∧
      (pre.length : Int) + mid.length ≤ (pre ++ mid ++ post).length ∧
      (0 : Int) + mid.length ≤ (List.replicate mid.length (0 : UInt8)).length := by
    simp only [List.length_append, List.length_replicate]
    omega
  rw [arraycopy, if_pos hin]
  simp only [Int.toNat_zero, List.take_zero, List.nil_append, Int.toNat_natCast, Int.zero_add,
    List.drop_replicate, Nat.sub_self, List.replicate_zero, List.append_nil, List.append_assoc,
    List.drop_left, List.take_left]
  rfl

/-- A configuration is split into its parameter sets. -/
theorem Configuration.findSpsAndPps_run (c : Configuration) (s : Encoder) :
    (findSpsAndPps c.bytes).run s = .ok () { s with sps := some c.sps, pps := some c.pps } := by
  have hlenSps : spsEnd c.bytes - 3 = c.sps.length := by
    rw [c.spsEnd_eq]
    omega
  have hlenPps : (c.bytes.length : Int) - spsEnd c.bytes - 5 = c.pps.length := by
    rw [c.spsEnd_eq, c.length_bytes]
    omega
  have hbehind : spsEnd c.bytes + 5 = (startCode ++ c.sps ++ startCode).length := by
    rw [c.spsEnd_eq, List.length_append, List.length_append]
    simp only [startCode, List.length_cons, List.length_nil]
    omega
  have hfront : (4 : Int) = startCode.length := rfl
  have hsps : c.bytes = startCode ++ c.sps ++ (startCode ++ c.pps) := List.append_assoc ..
  have hpps : c.bytes = startCode ++ c.sps ++ startCode ++ c.pps ++ [] := (List.append_nil _).symm
  simp only [findSpsAndPps, EStateM.run_bind, EStateM.run_modify, hlenSps, hlenPps, newBytes_run,
    arraycopy_run hsps hfront rfl, arraycopy_run hpps hbehind rfl]

/-- Without a second start code that has something behind it, nothing is split. -/
theorem findSpsAndPps_throws {config : List UInt8}
    (h : ∀ i, 4 ≤ i → i + 4 < config.length → ¬ startCode <+: config.drop i) (s : Encoder) :
    (findSpsAndPps config).run s = .error .negativeArraySize s := by
  rw [findSpsAndPps, spsEnd_eq_one h]
  rfl

end Callbacks

/-- A configuration is split into exactly its two parameter sets, and what has no second
start code with a byte behind it is refused before a field changes. -/
theorem findSpsAndPps_splits (s : Encoder) :
    (∀ sps pps, ¬ startCode <:+: sps → pps ≠ [] →
      (findSpsAndPps (startCode ++ sps ++ startCode ++ pps)).run s =
        .ok () { s with sps := some sps, pps := some pps }) ∧
    ∀ config, (∀ i, 4 ≤ i → i + 4 < config.length → ¬ startCode <+: config.drop i) →
      (findSpsAndPps config).run s = .error .negativeArraySize s :=
  ⟨fun sps pps hsps hpps => Configuration.findSpsAndPps_run ⟨sps, pps, hsps, hpps⟩ s,
    fun _ h => findSpsAndPps_throws h s⟩

/-- A first set that ends in zeros in front of a second one that holds a start code, and a
configuration that ends with its second start code. -/
theorem findSpsAndPps_splits_zeros :
    (findSpsAndPps (startCode ++ [0x67, 0, 0] ++ startCode ++ 0x68 :: startCode)).run .start =
        .ok () { Encoder.start with sps := some [0x67, 0, 0], pps := some (0x68 :: startCode) } ∧
      (findSpsAndPps (startCode ++ [0x67] ++ startCode)).run .start =
        .error .negativeArraySize .start := by
  refine ⟨(findSpsAndPps_splits .start).1 _ _ (by decide) (by decide), ?_⟩
  refine (findSpsAndPps_splits .start).2 _ fun i hlo hhi => ?_
  simp only [startCode, List.length_append, List.length_cons, List.length_nil] at hhi
  obtain rfl : i = 4 := by omega
  decide

/-- The parameter sets in a configuration. -/
def Output.config? : Output → Option Configuration
  | .config c => some c
  | _ => none

/-- The latest of the configurations. -/
def latestConfig (os : List Output) : Option Configuration := (os.filterMap Output.config?).getLast?

/-- What is passed to `sendData`. -/
def Sending.passed (x : Sending) : Option (List UInt8) × Bool := (x.h264Data, x.isSpsOrPps)

/-- The parameter sets as they are passed to `sendData`. -/
def Configuration.sets (c : Configuration) : List (Option (List UInt8) × Bool) :=
  [(some c.sps, true), (some c.pps, true)]

/-- A frame that is sent behind `front` can be decoded there: it is no configuration, a key
frame has been received, and if it is one itself, the latest parameter sets stand in front. -/
structure Accompanied (received : List Output) (front : List Sending) (x : Sending) : Prop where
  noConfig : ∀ o, received[x.callback]? = some o → ¬ o.IsConfig
  begun : ∃ o ∈ received.take (x.callback + 1), o.IsKeyFrame
  keyFrame : ∀ o, received[x.callback]? = some o → o.IsKeyFrame →
    ∃ c, latestConfig (received.take x.callback) = some c ∧ c.sets <:+ front.map Sending.passed

namespace Encoder

/-- What has been sent can be decoded from each key frame on, and no frame is missing behind
the first one. -/
structure Decodable (s : Encoder) : Prop where
  frames : ∀ front x, front ++ [x] <+: s.sent → x.isSpsOrPps = false →
    Accompanied s.received front x
  complete : ∀ n o, s.received[n]? = some o → ¬ o.IsConfig →
    (∃ k ∈ s.received.take (n + 1), k.IsKeyFrame) → ⟨n, some o.data, false⟩ ∈ s.sent

/-- The flag says that no key frame has been received, the fields hold the latest
configuration, and in front of the first key frame its parameter sets are sent last. -/
structure Consistent (s : Encoder) : Prop where
  first : s.isFirstFrame = true ↔ ∀ o ∈ s.received, ¬ o.IsKeyFrame
  latest : ∃ c, latestConfig s.received = some c ∧ s.sps = some c.sps ∧ s.pps = some c.pps ∧
    (s.isFirstFrame = true → c.sets <:+ s.sent.map Sending.passed)
  numbered : ∀ x ∈ s.sent, x.callback < s.received.length

/-- `sps` and `pps` after an output. -/
def setsAfter (s : Encoder) : Output → Option (List UInt8) × Option (List UInt8)
  | .config c => (some c.sps, some c.pps)
  | _ => (s.sps, s.pps)

/-- The parameter sets that a callback sends. -/
def sentSets (s : Encoder) (o : Output) : List Sending :=
  if o.IsKeyFrame ↔ s.isFirstFrame = true then []
  else [⟨s.received.length, (s.setsAfter o).1, true⟩, ⟨s.received.length, (s.setsAfter o).2, true⟩]

/-- The frame that a callback sends. -/
def sentFrame (s : Encoder) (o : Output) : List Sending :=
  if s.isFirstFrame = true ∧ ¬ o.IsKeyFrame then []
  else [⟨s.received.length, some o.data, false⟩]

/-- Both parameter sets are sent. -/
theorem sendParameterSets_run (s : Encoder) :
    sendParameterSets.run s = .ok () { s with
      sent := s.sent ++ [⟨s.received.length, s.sps, true⟩, ⟨s.received.length, s.pps, true⟩] } := by
  simp only [sendParameterSets, sendData, EStateM.run_bind, EStateM.run_get, EStateM.run_modify,
    List.append_assoc, List.singleton_append]

/-- What a callback takes and sends. -/
theorem onOutputBufferAvailable_eq (s : Encoder) (o : Output) : s.onOutputBufferAvailable o =
    { sps := (s.setsAfter o).1
      pps := (s.setsAfter o).2
      isFirstFrame := s.isFirstFrame && !decide o.IsKeyFrame
      received := s.received ++ [o]
      sent := s.sent ++ s.sentSets o ++ s.sentFrame o
      released := s.released + 1 } := by
  cases o with
  | config c =>
    have hconfig : (Output.config c).flags = bufferFlagCodecConfig := rfl
    have hdata : (Output.config c).data = c.bytes := rfl
    cases hfirst : s.isFirstFrame <;>
      simp [onOutputBufferAvailable, onOutputBuffer, hconfig, hdata, c.findSpsAndPps_run, hfirst,
        sendData, sendParameterSets_run, sentSets, sentFrame, setsAfter]
  | keyFrame data =>
    have hflags : (Output.keyFrame data).flags = bufferFlagKeyFrame := rfl
    have hother : bufferFlagKeyFrame ≠ bufferFlagCodecConfig := by decide
    cases hfirst : s.isFirstFrame <;>
      simp [onOutputBufferAvailable, onOutputBuffer, hflags, hother, hfirst, sendData,
        sendParameterSets_run, sentSets, sentFrame, setsAfter]
  | other flags data hflags =>
    have hkey : ¬ (Output.other flags data hflags).IsKeyFrame := hflags.1
    have heq : (Output.other flags data hflags).flags = flags := rfl
    cases hfirst : s.isFirstFrame <;>
      simp [onOutputBufferAvailable, onOutputBuffer, heq, hflags.1, hflags.2, hkey, hfirst,
        sendData, sendParameterSets_run, sentSets, sentFrame, setsAfter]

variable {s : Encoder} {o : Output}

/-- What is sent as a parameter set is marked as one. -/
theorem mem_sentSets {x : Sending} (hx : x ∈ s.sentSets o) :
    x.callback = s.received.length ∧ x.isSpsOrPps = true := by
  unfold sentSets at hx
  split at hx
  · cases hx
  · simp only [List.mem_cons, List.not_mem_nil, or_false] at hx
    rcases hx with rfl | rfl
    · exact ⟨rfl, rfl⟩
    · exact ⟨rfl, rfl⟩

/-- A frame is sent as it was received. -/
theorem mem_sentFrame {x : Sending} (hx : x ∈ s.sentFrame o) :
    x = ⟨s.received.length, some o.data, false⟩ := by
  unfold sentFrame at hx
  split at hx
  · cases hx
  · exact List.mem_singleton.mp hx

/-- The latest configuration is that of the last buffer, if it has one. -/
theorem latestConfig_concat (os : List Output) (o : Output) :
    latestConfig (os ++ [o]) = o.config?.or (latestConfig os) := by
  cases h : o.config? <;> simp [latestConfig, h]

/-- Later outputs do not matter to a frame. -/
theorem accompanied_concat_iff {received : List Output} {front : List Sending} {x : Sending}
    (hx : x.callback < received.length) :
    Accompanied (received ++ [o]) front x ↔ Accompanied received front x := by
  have hget : (received ++ [o])[x.callback]? = received[x.callback]? :=
    List.getElem?_append_left hx
  have htake : ∀ n, n ≤ received.length → (received ++ [o]).take n = received.take n :=
    fun n hn => List.take_append_of_le_length hn
  constructor
  · rintro ⟨hno, hbegun, hkey⟩
    rw [hget] at hno hkey
    rw [htake _ hx] at hbegun
    rw [htake _ (Nat.le_of_lt hx)] at hkey
    exact ⟨hno, hbegun, hkey⟩
  · rintro ⟨hno, hbegun, hkey⟩
    rw [← hget] at hno hkey
    rw [← htake _ hx] at hbegun
    rw [← htake _ (Nat.le_of_lt hx)] at hkey
    exact ⟨hno, hbegun, hkey⟩

/-- In front of the first key frame a callback sends both sets and no frame. -/
theorem sets_suffix {c : Configuration} (hfirst : s.isFirstFrame = true) (hkey : ¬ o.IsKeyFrame)
    (hafter : s.setsAfter o = (some c.sps, some c.pps)) :
    c.sets <:+ (s.sent ++ s.sentSets o ++ s.sentFrame o).map Sending.passed := by
  rw [sentFrame, if_pos ⟨hfirst, hkey⟩, List.append_nil, sentSets,
    if_neg (fun hiff => hkey (hiff.mpr hfirst)), hafter, List.map_append]
  exact List.suffix_append _ _

/-- The first configuration. -/
theorem consistent_first (c : Configuration) :
    (start.onOutputBufferAvailable (.config c)).Consistent := by
  rw [onOutputBufferAvailable_eq]
  constructor
  · simp [start]
  · exact ⟨c, rfl, rfl, rfl, fun _ => sets_suffix rfl (Output.not_isKeyFrame_config c) rfl⟩
  · simp [start, sentSets, sentFrame]

/-- The flag, the fields and the latest sets after a callback. -/
theorem consistent_step (h : s.Consistent) (o : Output) :
    (s.onOutputBufferAvailable o).Consistent := by
  rw [onOutputBufferAvailable_eq]
  obtain ⟨c, hlatest, hsps, hpps, hsets⟩ := h.latest
  constructor
  · simp only [Bool.and_eq_true, Bool.not_eq_true', decide_eq_false_iff_not, h.first,
      List.forall_mem_append, List.forall_mem_singleton]
  · have hkept : ∀ {o : Output}, s.setsAfter o = (s.sps, s.pps) → o.config? = none →
        ∃ c, latestConfig (s.received ++ [o]) = some c ∧ (s.setsAfter o).1 = some c.sps ∧
          (s.setsAfter o).2 = some c.pps ∧ ((s.isFirstFrame && !decide o.IsKeyFrame) = true →
            c.sets <:+ (s.sent ++ s.sentSets o ++ s.sentFrame o).map Sending.passed) := by
      intro o hafter hnone
      rw [latestConfig_concat, hnone, Option.none_or, hlatest, hafter]
      refine ⟨c, rfl, hsps, hpps, fun hfirst => ?_⟩
      rw [Bool.and_eq_true, Bool.not_eq_true', decide_eq_false_iff_not] at hfirst
      exact sets_suffix hfirst.1 hfirst.2 (hafter.trans (by rw [hsps, hpps]))
    cases o with
    | config c' =>
      refine ⟨c', ?_, rfl, rfl, fun hfirst => ?_⟩
      · rw [latestConfig_concat]
        rfl
      · rw [Bool.and_eq_true] at hfirst
        exact sets_suffix hfirst.1 (Output.not_isKeyFrame_config c') rfl
    | keyFrame data => exact hkept rfl rfl
    | other flags data hflags => exact hkept rfl rfl
  · intro x hx
    rw [List.length_append, List.length_singleton, Nat.lt_succ_iff]
    rw [List.mem_append, List.mem_append] at hx
    rcases hx with (hx | hx) | hx
    · exact Nat.le_of_lt (h.numbered x hx)
    · exact Nat.le_of_eq (mem_sentSets hx).1
    · exact Nat.le_of_eq (congrArg Sending.callback (mem_sentFrame hx))

/-- What stands behind a list is in what it is continued by. -/
theorem prefix_append_cases {α : Type} {front l ys : List α} {x : α}
    (h : front ++ [x] <+: l ++ ys) : front ++ [x] <+: l ∨ x ∈ ys := by
  induction ys using List.reverseRecOn with
  | nil =>
    rw [List.append_nil] at h
    exact Or.inl h
  | append_singleton ys y ih =>
    rw [← List.append_assoc, List.prefix_concat_iff] at h
    rcases h with heq | h
    · right
      have hlast := (List.append_inj' heq rfl).2
      exact List.mem_append_right ys (hlast ▸ List.mem_singleton_self x)
    · exact (ih h).imp_right (List.mem_append_left [y])

/-- The frame of a callback, unless it is a configuration. -/
theorem accompanied_sentFrame (h : s.Consistent)
    (hsent : ¬ (s.isFirstFrame = true ∧ ¬ o.IsKeyFrame)) (hno : ¬ o.IsConfig) :
    Accompanied (s.received ++ [o]) (s.sent ++ s.sentSets o)
      ⟨s.received.length, some o.data, false⟩ := by
  have hget : ∀ o', (s.received ++ [o])[s.received.length]? = some o' → o' = o := by
    intro o' ho'
    rw [List.getElem?_concat_length] at ho'
    exact (Option.some.inj ho').symm
  have htake : (s.received ++ [o]).take (s.received.length + 1) = s.received ++ [o] :=
    List.take_of_length_le (Nat.le_of_eq List.length_append)
  constructor
  · intro o' ho'
    rw [hget o' ho']
    exact hno
  · rw [htake]
    by_cases hkey : o.IsKeyFrame
    · exact ⟨o, List.mem_append_right _ (List.mem_singleton_self o), hkey⟩
    · have hfirst := mt h.first.mpr fun hfirst => hsent ⟨hfirst, hkey⟩
      push Not at hfirst
      obtain ⟨k, hk, hkk⟩ := hfirst
      exact ⟨k, List.mem_append_left _ hk, hkk⟩
  · intro o' ho' hkey
    rw [hget o' ho'] at hkey
    obtain ⟨c, hlatest, hsps, hpps, hsets⟩ := h.latest
    refine ⟨c, ?_, ?_⟩
    · rw [List.take_left]
      exact hlatest
    by_cases hfirst : s.isFirstFrame = true
    · rw [sentSets, if_pos (iff_of_true hkey hfirst), List.append_nil]
      exact hsets hfirst
    · have hafter : s.setsAfter o = (s.sps, s.pps) := by
        cases o with
        | config c => exact absurd rfl hno
        | keyFrame data => rfl
        | other flags data hflags => rfl
      rw [sentSets, if_neg (fun hiff => hfirst (hiff.mp hkey)), hafter, hsps, hpps, List.map_append]
      exact List.suffix_append _ _

/-- What has been sent before a callback can be decoded if what has been sent behind it can. -/
theorem decodable_of_step (h : s.Consistent) (hstep : (s.onOutputBufferAvailable o).Decodable) :
    s.Decodable := by
  rw [onOutputBufferAvailable_eq] at hstep
  obtain ⟨hframes, hcomplete⟩ := hstep
  constructor
  · intro front x hx hframe
    have hin : x ∈ s.sent := hx.subset (List.mem_append_right _ (List.mem_singleton_self x))
    rw [← accompanied_concat_iff (h.numbered x hin)]
    refine hframes front x (hx.trans ?_) hframe
    rw [List.append_assoc]
    exact List.prefix_append _ _
  · intro n o' hn hno hbegun
    obtain ⟨hlt, -⟩ := List.getElem?_eq_some_iff.mp hn
    have hmem := hcomplete n o' ((List.getElem?_append_left hlt).trans hn) hno
      (by rw [List.take_append_of_le_length hlt]; exact hbegun)
    rw [List.mem_append, List.mem_append] at hmem
    rcases hmem with (hsent | hsets) | hframe
    · exact hsent
    · cases (mem_sentSets hsets).2
    · have heq := congrArg Sending.callback (mem_sentFrame hframe)
      exact absurd heq (Nat.ne_of_lt hlt)

/-- A configuration behind the first key frame is sent as a frame. -/
theorem isFirstFrame_of_decodable (hstep : (s.onOutputBufferAvailable o).Decodable)
    (hconfig : o.IsConfig) : s.isFirstFrame = true := by
  rw [onOutputBufferAvailable_eq] at hstep
  by_contra hfirst
  have hsent : s.sentFrame o = [⟨s.received.length, some o.data, false⟩] := by
    rw [sentFrame, if_neg fun hboth => hfirst hboth.1]
  have hprefix := List.prefix_rfl (l := s.sent ++ s.sentSets o ++ s.sentFrame o)
  nth_rewrite 1 [hsent] at hprefix
  exact (hstep.frames _ _ hprefix rfl).noConfig o List.getElem?_concat_length hconfig

/-- Each frame that has been sent behind a callback. -/
theorem accompanied_step (h : s.Consistent) (hd : s.Decodable)
    (hgood : o.IsConfig → s.isFirstFrame = true) {front : List Sending} {x : Sending}
    (hx : front ++ [x] <+: s.sent ++ s.sentSets o ++ s.sentFrame o)
    (hframe : x.isSpsOrPps = false) : Accompanied (s.received ++ [o]) front x := by
  have hno : ¬ (s.isFirstFrame = true ∧ ¬ o.IsKeyFrame) → ¬ o.IsConfig := by
    intro hsent hconfig
    have hkey := fun hkey => hsent ⟨hgood hconfig, hkey⟩
    cases o with
    | config c => exact hkey (Output.not_isKeyFrame_config c)
    | keyFrame data => exact Output.not_isConfig_keyFrame data hconfig
    | other flags data hflags => exact hflags.2 hconfig
  have hbefore : front ++ [x] <+: s.sent ++ s.sentSets o →
      Accompanied (s.received ++ [o]) front x := by
    intro hx
    rcases prefix_append_cases hx with hx | hx
    · have hin : x ∈ s.sent := hx.subset (List.mem_append_right _ (List.mem_singleton_self x))
      exact (accompanied_concat_iff (h.numbered x hin)).mpr (hd.frames front x hx hframe)
    · rw [(mem_sentSets hx).2] at hframe
      cases hframe
  unfold sentFrame at hx
  split at hx
  · rw [List.append_nil] at hx
    exact hbefore hx
  · next hsent =>
    rcases List.prefix_concat_iff.mp hx with heq | hx
    · obtain ⟨rfl, hlast⟩ := List.append_inj' heq rfl
      rw [List.singleton_inj.mp hlast]
      exact accompanied_sentFrame h hsent (hno hsent)
    · exact hbefore hx

/-- Each output behind the first key frame is sent. -/
theorem mem_sent_step (h : s.Consistent) (hd : s.Decodable) {n : Nat} {o' : Output}
    (hn : (s.received ++ [o])[n]? = some o') (hno : ¬ o'.IsConfig)
    (hbegun : ∃ k ∈ (s.received ++ [o]).take (n + 1), k.IsKeyFrame) :
    ⟨n, some o'.data, false⟩ ∈ s.sent ++ s.sentSets o ++ s.sentFrame o := by
  rw [List.append_assoc]
  by_cases hlt : n < s.received.length
  · rw [List.getElem?_append_left hlt] at hn
    rw [List.take_append_of_le_length hlt] at hbegun
    exact List.mem_append_left _ (hd.complete n o' hn hno hbegun)
  · obtain ⟨hle, -⟩ := List.getElem?_eq_some_iff.mp hn
    rw [List.length_append, List.length_singleton] at hle
    obtain rfl : n = s.received.length := by omega
    rw [List.getElem?_concat_length] at hn
    obtain rfl := Option.some.inj hn
    have hsent : ¬ (s.isFirstFrame = true ∧ ¬ o.IsKeyFrame) := by
      rintro ⟨hfirst, hkey⟩
      obtain ⟨k, hk, hkk⟩ := hbegun
      rcases List.mem_append.mp (List.mem_of_mem_take hk) with hk | hk
      · exact h.first.mp hfirst k hk hkk
      · exact hkey (List.mem_singleton.mp hk ▸ hkk)
    rw [sentFrame, if_neg hsent]
    exact List.mem_append_right _ (List.mem_append_right _ List.mem_cons_self)

/-- Behind the first key frame a configuration must not come. -/
theorem decodable_step_iff (h : s.Consistent) (o : Output) :
    (s.onOutputBufferAvailable o).Decodable ↔
      s.Decodable ∧ (o.IsConfig → s.isFirstFrame = true) := by
  constructor
  · intro hstep
    exact ⟨decodable_of_step h hstep, isFirstFrame_of_decodable hstep⟩
  · rintro ⟨hd, hgood⟩
    rw [onOutputBufferAvailable_eq]
    exact ⟨fun _ _ hx hframe => accompanied_step h hd hgood hx hframe,
      fun _ _ hn hno hbegun => mem_sent_step h hd hn hno hbegun⟩

/-- A callback receives its buffer. -/
theorem received_step (s : Encoder) (o : Output) :
    (s.onOutputBufferAvailable o).received = s.received ++ [o] := by
  rw [onOutputBufferAvailable_eq]

/-- A run receives all its buffers. -/
theorem received_after (s : Encoder) (os : List Output) :
    (after onOutputBufferAvailable s os).received = s.received ++ os := by
  induction os generalizing s with
  | nil => exact (List.append_nil _).symm
  | cons o os ih => rw [after_cons, ih, received_step, List.append_assoc, List.singleton_append]

/-- No configuration comes behind a key frame. -/
def ConfiguredFirst (os : List Output) : Prop :=
  os.Pairwise fun o o' => o.IsKeyFrame → ¬ o'.IsConfig

/-- One callback keeps the agreement of what is sent with the order of the outputs. -/
theorem decodable_iff_step (h : s.Consistent) (hiff : s.Decodable ↔ ConfiguredFirst s.received)
    (o : Output) : (s.onOutputBufferAvailable o).Decodable ↔
      ConfiguredFirst (s.onOutputBufferAvailable o).received := by
  rw [decodable_step_iff h, hiff, received_step, ConfiguredFirst, ConfiguredFirst,
    List.pairwise_append, h.first]
  simp only [List.pairwise_singleton, true_and, List.mem_singleton, forall_eq]
  exact and_congr_right fun _ =>
    ⟨fun h k hk hkey hconfig => h hconfig k hk hkey, fun h hconfig k hk hkey => h k hk hkey hconfig⟩

/-- What is sent for the first configuration. -/
theorem decodable_first (c : Configuration) :
    (start.onOutputBufferAvailable (.config c)).Decodable := by
  rw [onOutputBufferAvailable_eq]
  constructor
  · intro front x hx hframe
    have hmem : x ∈ start.sentSets (.config c) :=
      hx.subset (List.mem_append_right _ (List.mem_singleton_self x))
    rw [(mem_sentSets hmem).2] at hframe
    cases hframe
  · intro n o hn hno _
    have hmem := List.mem_of_getElem? hn
    rw [List.mem_singleton.mp hmem] at hno
    exact absurd rfl hno

/-- In a sequence of outputs that starts with a configuration, what is sent can be decoded
from each key frame on exactly if no configuration comes behind a key frame. -/
theorem decodable_run_iff (c : Configuration) (os : List Output) :
    (after onOutputBufferAvailable start (.config c :: os)).Decodable ↔
      ConfiguredFirst (.config c :: os) := by
  have hreceived : (start.onOutputBufferAvailable (.config c)).received = [.config c] :=
    received_step start _
  have hfirst : ConfiguredFirst (start.onOutputBufferAvailable (.config c)).received := by
    rw [hreceived]
    exact List.pairwise_singleton _ _
  have hrun : (after onOutputBufferAvailable (start.onOutputBufferAvailable (.config c)) os) ∈
      {s : Encoder | s.Consistent ∧ (s.Decodable ↔ ConfiguredFirst s.received)} :=
    after_invariant ⟨consistent_first c, iff_of_true (decodable_first c) hfirst⟩
      fun p _ hp => ⟨consistent_step hp.1 p.2, decodable_iff_step hp.1 hp.2 p.2⟩
  have hiff := hrun.2
  rw [received_after, hreceived] at hiff
  exact hiff

/-- A configuration behind the first key frame is sent as a frame. -/
theorem not_decodable_reconfigured :
    ∃ c : Configuration, ¬ (after onOutputBufferAvailable start
      [.config c, .keyFrame [0x65], .config c]).Decodable := by
  refine ⟨⟨[0x67], [0x68], by decide, by decide⟩, fun h => ?_⟩
  have hsent := h.frames
    [⟨0, some [0x67], true⟩, ⟨0, some [0x68], true⟩, ⟨1, some [0x65], false⟩]
    ⟨2, some (startCode ++ [0x67] ++ startCode ++ [0x68]), false⟩ ⟨[], rfl⟩ rfl
  exact hsent.noConfig _ rfl rfl

end Encoder

end CameraHelper

end Jrtplib4Android
