import Mathlib.Data.Finset.Basic
import Jrtplib4Android.Rtsp.IpCamera

/-!
# The ports that are announced and the ports that are bound

`initData` looks for a free port from the local port on and makes the receiver there; the
listener announces the local port itself. The two are the same pair exactly if the search
ends where it starts.
-/

namespace Jrtplib4Android

open CSem

/-- The ports that are taken, and the even port that `GetAutoSockets` comes to for a session
without a port of its own, where there is one. -/
structure Network where
  tcp : Finset Int
  udp : Finset Int
  autoSockets : Option { base : Int // 2 ≤ base ∧ base % 2 = 0 }

/-- `RtpHandle.getAvailablePort`: `none` is the exception for a number that is no port, and
port 0 stands for any free one. -/
def getAvailablePort (tcp : Finset Int) (port : Int) : Option Int :=
  if port < 0 ∨ 65535 < port then none
  else if port = 0 ∨ port ∉ tcp then some port
  else getAvailablePort tcp (port + 2)
termination_by (65536 - port).toNat

/-- The sockets in `RTPUDPv4Transmitter::Create`: the ports of RTP and RTCP. The port base is
passed as a `uint16_t`. -/
def createSockets (n : Network) (port : Int) : Option (Int × Int) :=
  let portbase := port % 2 ^ 16
  if portbase = 0 then n.autoSockets.map fun base => (base.1, base.1 + 1)
  else if portbase % 2 ≠ 0 then none
  else
    let rtcpport := if portbase < 0xffff then portbase + 1 else portbase
    if portbase ∈ n.udp ∨ rtcpport ∈ n.udp then none else some (portbase, rtcpport)

/-- The ports of the two sessions of a handle. -/
structure BoundPorts where
  receiver : Int × Int
  sender : Int × Int
  deriving DecidableEq

/-- `IpCameraHelper.initData` as far as the handle, where nothing fails but a port. The
sender comes first, and its ports are taken when the receiver comes. -/
def initData (n : Network) (localPort : Int) : Option BoundPorts := do
  let mreceiveport ← getAvailablePort n.tcp localPort
  let msendport ← getAvailablePort n.tcp (mreceiveport + 2)
  let sender ← createSockets n msendport
  let receiver ← createSockets { n with udp := n.udp ∪ {sender.1, sender.2} } mreceiveport
  return ⟨receiver, sender⟩

/-- The search goes up in steps of two, and stays only at a port that is free. -/
theorem getAvailablePort_spec {tcp : Finset Int} {port r : Int}
    (h : getAvailablePort tcp port = some r) :
    0 ≤ port ∧ port ≤ r ∧ r ≤ 65535 ∧ r % 2 = port % 2 ∧ (r = port ↔ port = 0 ∨ port ∉ tcp) := by
  fun_induction getAvailablePort tcp port with
  | case1 port hrange => cases h
  | case2 port hrange hfree =>
    cases h
    exact ⟨by omega, le_refl _, by omega, rfl, iff_of_true rfl hfree⟩
  | case3 port hrange htaken ih =>
    obtain ⟨hlo, hle, hhi, hparity, -⟩ := ih h
    refine ⟨by omega, by omega, hhi, by omega, iff_of_false (by omega) htaken⟩

theorem getAvailablePort_of_free {tcp : Finset Int} {port : Int} (hlo : 0 ≤ port)
    (hhi : port ≤ 65535) (hfree : port ∉ tcp) : getAvailablePort tcp port = some port := by
  rw [getAvailablePort, if_neg (by omega), if_pos (Or.inr hfree)]

/-- A session on a port of its own has that port and the next. -/
theorem createSockets_eq {n : Network} {port : Int} {pair : Int × Int}
    (h : createSockets n port = some pair) (hlo : 0 < port) (hhi : port ≤ 65535) :
    port % 2 = 0 ∧ pair = (port, port + 1) := by
  have hmod : port % 2 ^ 16 = port := by omega
  have heven : port % 2 = 0 := by
    by_contra hodd
    simp only [createSockets, hmod] at h
    rw [if_neg (by omega), if_pos hodd] at h
    cases h
  simp only [createSockets, hmod] at h
  rw [if_neg (by omega), if_neg (by omega), if_pos (by omega : port < 0xffff)] at h
  split at h
  · cases h
  · exact ⟨heven, (Option.some.inj h).symm⟩

/-- A session without one has a pair from 2 on. -/
theorem two_le_of_createSockets_zero {n : Network} {pair : Int × Int}
    (h : createSockets n 0 = some pair) : 2 ≤ pair.1 := by
  obtain ⟨base, -, rfl⟩ := Option.map_eq_some_iff.mp h
  exact base.2.1

namespace IpCameraHelper

/-- What `initData` ends with. -/
theorem initData_spec {n : Network} {localPort : Int} {ports : BoundPorts}
    (h : initData n localPort = some ports) :
    (localPort = 0 → 2 ≤ ports.receiver.1) ∧
    (localPort ≠ 0 → ∃ port, localPort ≤ port ∧ port % 2 = 0 ∧ localPort % 2 = 0 ∧
      ports.receiver = (port, port + 1) ∧ (port = localPort ↔ localPort ∉ n.tcp)) ∧
    ∃ port, localPort + 2 ≤ port ∧ ports.sender = (port, port + 1) := by
  simp only [initData, Option.bind_eq_bind, Option.bind_eq_some_iff] at h
  obtain ⟨receive, hreceive, send, hsend, sender, hsender, receiver, hreceiver, hports⟩ := h
  cases hports
  obtain ⟨hlo, hle, hhi, hparity, hfree⟩ := getAvailablePort_spec hreceive
  obtain ⟨-, hle', hhi', -, -⟩ := getAvailablePort_spec hsend
  obtain ⟨-, hsender⟩ := createSockets_eq hsender (by omega) hhi'
  refine ⟨?_, ?_, send, by omega, hsender⟩
  · intro hzero
    rw [hfree.mpr (Or.inl hzero), hzero] at hreceiver
    exact two_le_of_createSockets_zero hreceiver
  · intro hzero
    obtain ⟨heven, hreceiver⟩ := createSockets_eq hreceiver (by omega) hhi
    refine ⟨receive, hle, heven, by omega, hreceiver, ?_⟩
    rw [hfree, or_iff_right hzero]

/-- In every run of the client beside `initData`, a SETUP request announces the ports of the
receiver, apart from those of the sender, exactly if the local port is a port of its own
that is free. -/
theorem announced_iff {n : Network} {localPort : Int} {ports : BoundPorts}
    (hdata : initData n localPort = some ports) (decode : List UInt8 → List Char)
    (address : List Char) (es : List Event) {base : List Char} {trackInfo : Option (List Char)}
    {seq : Int} {pair : Int × Int}
    (hsetup : Request.setup base trackInfo seq pair ∈
      (after (step decode localPort) (start address) es).client.written) :
    (pair = ports.receiver ∧
      Disjoint ({pair.1, pair.2} : Finset Int) {ports.sender.1, ports.sender.2}) ↔
      localPort ≠ 0 ∧ localPort ∉ n.tcp := by
  have hpair : pair = RTSPClient.clientPort localPort := announces_run address es _ hsetup
  obtain ⟨hzero, hreceiver, send, hsend, hsender⟩ := initData_spec hdata
  subst hpair
  by_cases h0 : localPort = 0
  · -- the search ends at 0, and the session takes a port of its own
    refine iff_of_false (fun h => ?_) fun h => h.1 h0
    have := hzero h0
    rw [← h.1, h0] at this
    exact absurd this (by decide)
  obtain ⟨port, hle, heven, heven', hports, hfree⟩ := hreceiver h0
  have hclient : RTSPClient.clientPort localPort = (localPort, localPort + 1) := by
    rw [RTSPClient.clientPort, if_pos heven']
  rw [hclient, hports, hsender]
  constructor
  · rintro ⟨heq, -⟩
    exact ⟨h0, hfree.mp (congrArg Prod.fst heq).symm⟩
  · rintro ⟨-, hnot⟩
    rw [hfree.mpr hnot]
    refine ⟨rfl, ?_⟩
    simp only [Finset.disjoint_left, Finset.mem_insert, Finset.mem_singleton]
    omega

/-- A response to DESCRIBE. -/
def describeResponse : List UInt8 :=
  "RTSP/1.0 200 OK\r\nCSeq: 2\r\n\r\na=control:trackID=0\r\n".toList.map
    fun c => UInt8.ofNat c.toNat

/-- The run that ends with the SETUP request. -/
def toSetup : List Event := [.pass, .read (some okResponse), .read (some describeResponse)]

theorem setup_mem_toSetup :
    Request.setup "rtsp://a/b".toList (some "trackID=0".toList) 3 (6000, 6001) ∈
      (after (step ascii 6000) (start "rtsp://a/b".toList) toSetup).client.written := by
  decide +kernel

/-- With free ports the pairs agree. -/
theorem announced_iff_free :
    ∃ ports, initData ⟨∅, ∅, none⟩ 6000 = some ports ∧ (6000, 6001) = ports.receiver ∧
      Disjoint ({6000, 6001} : Finset Int) {ports.sender.1, ports.sender.2} := by
  have hdata : initData ⟨∅, ∅, none⟩ 6000 = some ⟨(6000, 6001), (6002, 6003)⟩ := by
    rw [initData, getAvailablePort_of_free (by decide) (by decide) (by decide), Option.bind_eq_bind,
      Option.bind_some, getAvailablePort_of_free (by decide) (by decide) (by decide)]
    decide
  exact ⟨_, hdata, (announced_iff hdata ascii "rtsp://a/b".toList toSetup setup_mem_toSetup).mpr
    ⟨by decide, by decide⟩⟩

/-- With the local port taken the receiver is on the next pair. -/
theorem not_announced_taken :
    (∃ ports, initData ⟨{6000}, ∅, none⟩ 6000 = some ports ∧ (6000, 6001) ≠ ports.receiver) ∧
    Request.setup "rtsp://a/b".toList (some "trackID=0".toList) 3 (6000, 6001) ∈
      (after (step ascii 6000) (start "rtsp://a/b".toList) toSetup).client.written := by
  have hdata : initData ⟨{6000}, ∅, none⟩ 6000 = some ⟨(6002, 6003), (6004, 6005)⟩ := by
    rw [initData, getAvailablePort, if_neg (by decide), if_neg (by decide),
      getAvailablePort_of_free (by decide) (by decide) (by decide), Option.bind_eq_bind,
      Option.bind_some, getAvailablePort_of_free (by decide) (by decide) (by decide)]
    decide
  exact ⟨⟨_, hdata, by decide⟩, setup_mem_toSetup⟩

end IpCameraHelper

end Jrtplib4Android
