import Mathlib.Data.Finset.Erase
import Mathlib.Data.Finset.Insert
import Jrtplib4Android.Receiver.Process

/-!
# Sources and callbacks

JRTPLIB tells `CRTPReceiver` of new, departing and removed sources; each call goes to
`processSourceData`, which makes the address of the source a destination or deletes it.
The calls to Java go through `callbackRtcp` and `callbackRtp`.
-/

namespace Jrtplib4Android

/-- An IP address with a port. -/
structure RTPIPv4Address where
  ip : UInt32
  port : UInt16
  deriving DecidableEq

/-- The addresses of an `RTPSourceData`, as far as they are set. -/
structure RTPSourceData where
  rtpAddress : Option RTPIPv4Address
  rtcpAddress : Option RTPIPv4Address
  deriving DecidableEq

/-- The address that `processSourceData` takes for the source: where its RTP comes from,
else one port below its RTCP. -/
def RTPSourceData.dest (srcdat : RTPSourceData) : Option RTPIPv4Address :=
  match srcdat.rtpAddress with
  | some addr => some addr
  | none => srcdat.rtcpAddress.map fun addr => { addr with port := addr.port - 1 }

/-- The members of `CRTPReceiver` in front of the calls to Java. -/
structure JavaAccess where
  mInit : Bool
  isAttach : Bool
  /-- Whether `r_env` is not null. -/
  env : Bool
  deriving DecidableEq

/-- A call to the Java listener. -/
inductive Callback where
  | receiveRtpData (frame : Frame)
  | receiveRtcpData (ip : UInt32)
  | receiveBye (ip : UInt32)
  deriving DecidableEq

/-- `callbackRtcp` for the types 1 and 2, as the callback that is made. -/
def callbackRtcp (j : JavaAccess) (c : Callback) : Option Callback :=
  if j.env then some c else none

/-- `callbackRtp`. -/
def callbackRtp (j : JavaAccess) (frame : Frame) : Option Callback :=
  if j.env then some (.receiveRtpData frame) else none

/-- `processSourceData` on the destinations of the transmitter, and the callback made. -/
def processSourceData (j : JavaAccess) (destinations : Finset RTPIPv4Address)
    (srcdat : RTPSourceData) (add : Bool) : Finset RTPIPv4Address × Option Callback :=
  match srcdat.dest with
  | none => (destinations, none)
  | some dest =>
    if add then (insert dest destinations, none)
    else (destinations.erase dest,
      if j.mInit && j.isAttach then callbackRtcp j (.receiveBye dest.ip) else none)

/-- `OnNewSource`. -/
def onNewSource (j : JavaAccess) (destinations : Finset RTPIPv4Address)
    (srcdat : RTPSourceData) : Finset RTPIPv4Address × Option Callback :=
  processSourceData j destinations srcdat true

/-- `OnRemoveSource`. -/
def onRemoveSource (j : JavaAccess) (destinations : Finset RTPIPv4Address)
    (srcdat : RTPSourceData) : Finset RTPIPv4Address × Option Callback :=
  processSourceData j destinations srcdat false

/-- `OnBYEPacket`. -/
def onBYEPacket (j : JavaAccess) (destinations : Finset RTPIPv4Address)
    (srcdat : RTPSourceData) : Finset RTPIPv4Address × Option Callback :=
  processSourceData j destinations srcdat false

/-- `OnRTCPCompoundPacket` from a sender. -/
def onRTCPCompoundPacket (j : JavaAccess) (sender : RTPIPv4Address) : Option Callback :=
  if j.mInit && j.isAttach then callbackRtcp j (.receiveRtcpData sender.ip) else none

/-- Without `m_init` a source event makes no callback. -/
theorem processSourceData_stopped {j : JavaAccess} (h : j.mInit = false)
    (destinations : Finset RTPIPv4Address) (srcdat : RTPSourceData) (add : Bool) :
    (processSourceData j destinations srcdat add).2 = none := by
  unfold processSourceData
  split
  · rfl
  · split
    · rfl
    · simp [h]

theorem onRTCPCompoundPacket_stopped {j : JavaAccess} (h : j.mInit = false)
    (sender : RTPIPv4Address) : onRTCPCompoundPacket j sender = none := by
  simp [onRTCPCompoundPacket, h]

theorem mem_onNewSource {j : JavaAccess} {destinations : Finset RTPIPv4Address}
    {srcdat : RTPSourceData} {addr : RTPIPv4Address} :
    addr ∈ (onNewSource j destinations srcdat).1 ↔
      srcdat.dest = some addr ∨ addr ∈ destinations := by
  unfold onNewSource processSourceData
  cases srcdat.dest with
  | none => simp
  | some dest =>
    simp only [ite_true, Finset.mem_insert, Option.some.injEq]
    exact or_congr_left eq_comm

theorem mem_onRemoveSource {j : JavaAccess} {destinations : Finset RTPIPv4Address}
    {srcdat : RTPSourceData} {addr : RTPIPv4Address} :
    addr ∈ (onRemoveSource j destinations srcdat).1 ↔
      srcdat.dest ≠ some addr ∧ addr ∈ destinations := by
  unfold onRemoveSource processSourceData
  cases srcdat.dest with
  | none => simp
  | some dest =>
    simp only [Bool.false_eq_true, ite_false, Finset.mem_erase, ne_eq, Option.some.injEq]
    exact and_congr_left' (not_congr eq_comm)

end Jrtplib4Android
