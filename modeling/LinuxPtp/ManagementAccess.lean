import LinuxPtp.Management

/-!
# Management by the network

What a management message does that comes in by another port than the one for local management.
A SET ends at the check of the port; every other action leaves the clock and its ports alone, and
so do all the functions under `clock_manage` that answer.

Every function that answers is shown to change nothing but the reply. The check of the port stands
before everything that writes, so no part of a SET has to be looked at.
-/

namespace LinuxPtp.Management

open Octets

section Access

variable {order : ByteOrder} {e : Surroundings} {p : PortRef} {s : Managing}

/-! ## Answers -/

theorem portManagementError_clock {pid : PortIdentity} {req : Message}
    {errorId : ManagementErrorId} :
    (portManagementError order e pid p req errorId s).clock = s.clock := by
  unfold portManagementError
  dsimp only
  split
  · rfl
  split
  · rfl
  · rfl

theorem getResponse_clock {pid : PortIdentity} {req : Message}
    {fill : ManagedClock → Message → Option Message} :
    (getResponse order e pid p req fill s).2.clock = s.clock := by
  unfold getResponse
  dsimp only
  split
  · rfl
  split
  · rfl
  split
  · rfl
  · rfl

theorem portManageError_clock {target : Nat} {req : Message} :
    (portManageError order e target p req s).2.clock = s.clock := by
  unfold portManageError
  dsimp only
  split
  · exact portManagementError_clock
  · exact portManagementError_clock

/-! ## Actions other than SET -/

/-- A port that is not set stays as it is. -/
theorem portManage_clock {target : Nat} {req : Message}
    (other : managementAction req.data ≠ .set) :
    (portManage order e target p req s).2.clock = s.clock := by
  unfold portManage
  dsimp only
  split
  · rfl
  split
  next =>
    split
    · exact getResponse_clock
    · exact portManageError_clock.trans getResponse_clock
  next set => exact absurd set other
  next => exact portManageError_clock
  all_goals rfl

/-- Asking all ports something other than to be set leaves the clock, by induction on the ports. -/
theorem portManageAll_clock {req : Message} (other : managementAction req.data ≠ .set)
    (targets : List Nat) (answers : Nat) :
    (portManageAll order e p req targets answers s).2.clock = s.clock := by
  induction targets generalizing answers s with
  | nil => rfl
  | cons target rest inductionHypothesis =>
    have first := @portManage_clock order e p s target req other
    unfold portManageAll
    dsimp only
    split
    · exact first
    · exact (inductionHypothesis _).trans first

/-- What is not a SET leaves the clock. -/
theorem clockManageRest_clock {req : Message} (other : managementAction req.data ≠ .set) :
    (clockManageRest order e p req s).clock = s.clock := by
  unfold clockManageRest
  dsimp only
  split
  · exact portManagementError_clock
  split
  · exact portManagementError_clock
  have asked := @portManageAll_clock order e p s req other (List.range s.clock.ports.length) 0
  split
  next after failed =>
    rw [failed] at asked
    exact asked
  next answers after answered =>
    rw [answered] at asked
    split
    · exact portManagementError_clock.trans asked
    · exact asked

/-! ## The network -/

/-- Whatever message is handled for another port than that for local management, nothing changes. -/
theorem clockManageLocal_remote {req : ManagementRequest} (remote : p ≠ .uds) :
    (clockManageLocal order e p req s).1 = false ∧
      (clockManageLocal order e p req s).2.clock = s.clock := by
  unfold clockManageLocal
  dsimp only
  split
  · exact ⟨rfl, rfl⟩
  split
  · exact ⟨rfl, rfl⟩
  split
  next get =>
    split
    · exact ⟨rfl, getResponse_clock⟩
    · refine ⟨rfl, (clockManageRest_clock ?_).trans getResponse_clock⟩
      rw [get]
      decide
  next =>
    split
    · exact ⟨rfl, portManagementError_clock⟩
    · exact ⟨rfl, portManagementError_clock⟩
  next command =>
    refine ⟨rfl, clockManageRest_clock ?_⟩
    rw [command]
    decide
  all_goals exact ⟨rfl, rfl⟩

/-- What came over the network leaves the clock and counts as no change to it. -/
theorem clockManage_remote {req : ManagementRequest} {c : ManagedClock}
    (remote : p ≠ .uds) :
    (clockManage order e p req c).1 = 0 ∧
      (clockManage order e p req c).2.1.clock = c := by
  unfold clockManage
  dsimp only
  obtain ⟨unchanged, same⟩ := @clockManageLocal_remote order e p { clock := c }
    { req with msg := (clockForwardMgmtMsg order e.now c.forwardClock p req.msg).1 } remote
  rw [unchanged]
  exact ⟨rfl, same⟩

end Access

/-! ## A clock and a message -/

/-- `msg_post_recv` of the octets from a socket. -/
def received (order : ByteOrder) (now : Int) (wire : List UInt8) : Option Message :=
  match msgPostRecv order now wire.length (Message.fresh (bufferOf wire)) with
  | .ok _ state => some state.msg
  | .error _ _ => none

/-- A text without octets. -/
def emptyText : StaticPtpText := ⟨[], by decide⟩

/-- A port of a clock that was just started. -/
def startedPort (number : UInt16) (type : TransportType) : ManagedPort where
  portIdentity := ⟨Vector.replicate 8 1, number⟩
  state := .listening
  transportSpecific := 0
  logMinDelayReqInterval := 0
  peerMeanPathDelay := 0
  logAnnounceInterval := 1
  announceReceiptTimeout := 3
  logSyncInterval := 0
  delayMechanism := .e2e
  logMinPdelayReqInterval := 0
  versionNumber := 2
  neighborPropDelayThresh := 20000000
  asCapable := 1
  timestamping := .hardware
  tsLabel := emptyText
  transportType := type
  physicalAddr := ⟨[], by decide⟩
  protocolAddr := ⟨[], by decide⟩

/-- A clock with one port that was just started. -/
def startedClock : ManagedClock where
  type := .ordinary
  dds := bufferOf [1, 0, 1, 0, 128, 248, 254, 0xff, 0xff, 128, 1, 1, 1, 1, 1, 1, 1, 1, 0, 0]
  cur := fun _ => 0
  pds := fun _ => 0
  tds := fun _ => 0
  utcOffset := 37
  timeFlags := 0
  timeSource := 0xa0
  masterOffset := 0
  ingressTs := 0
  status := fun _ => 0
  scaledRateOffset := 0
  desc := ⟨emptyText, emptyText, emptyText, Vector.replicate 3 0⟩
  subscribers := []
  ports := [startedPort 1 .ieee8023]
  udsPort := startedPort 0 .uds

/-- Memory is there. -/
def plenty : Surroundings := ⟨0, fun _ => true⟩

/-- A SET with a TLV, for every clock and port, with no hops left. -/
def setOctets (tlv : List UInt8) : List UInt8 :=
  [0x0D, 2, 0, UInt8.ofNat (48 + tlv.length)] ++ List.replicate 16 0 ++ List.replicate 8 9 ++
    [0, 1, 0, 1, 4, 0x7f] ++ List.replicate 10 0xff ++ [0, 0, 1, 0] ++ tlv

/-- A TLV that sets the first priority to 7. -/
def priorityTlv : List UInt8 := [0, 1, 0, 4, 0x20, 5, 7, 0]

/-- The request that comes with such octets. -/
def requestOf (wire : List UInt8) : ManagementRequest :=
  ⟨(received .little 0 wire).getD (Message.fresh fun _ => 0), []⟩

end LinuxPtp.Management
