/-!
# The port state machines

`ptp_fsm` and `ptp_slave_fsm` of `fsm.c`. An event that a state does not list
leaves the state as it is.
-/

namespace LinuxPtp

/-- `enum port_state`. -/
inductive PortState where
  | initializing
  | faulty
  | disabled
  | listening
  | preMaster
  | master
  | passive
  | uncalibrated
  | slave
  | grandMaster
deriving DecidableEq, Repr

/-- `enum fsm_event`. -/
inductive FsmEvent where
  | none
  | powerup
  | initializeEvent
  | designatedEnabled
  | designatedDisabled
  | faultCleared
  | faultDetected
  | stateDecisionEvent
  | qualificationTimeoutExpires
  | announceReceiptTimeoutExpires
  | synchronizationFault
  | masterClockSelected
  | initComplete
  | rsMaster
  | rsGrandMaster
  | rsSlave
  | rsPassive
deriving DecidableEq, Repr

/-- The state machine for a BC or OC port. -/
def ptpFsm (state : PortState) (event : FsmEvent) (mdiff : Bool) : PortState :=
  if event = .initializeEvent ∨ event = .powerup then .initializing else
  match state with
  | .initializing =>
    match event with
    | .faultDetected => .faulty
    | .initComplete => .listening
    | _ => state
  | .faulty =>
    match event with
    | .designatedDisabled => .disabled
    | .faultCleared => .initializing
    | _ => state
  | .disabled =>
    match event with
    | .designatedEnabled => .initializing
    | _ => state
  | .listening =>
    match event with
    | .designatedDisabled => .disabled
    | .faultDetected => .faulty
    | .announceReceiptTimeoutExpires => .master
    | .rsMaster => .preMaster
    | .rsGrandMaster => .grandMaster
    | .rsSlave => .uncalibrated
    | .rsPassive => .passive
    | _ => state
  | .preMaster =>
    match event with
    | .designatedDisabled => .disabled
    | .faultDetected => .faulty
    | .qualificationTimeoutExpires => .master
    | .rsSlave => .uncalibrated
    | .rsPassive => .passive
    | _ => state
  | .master | .grandMaster =>
    match event with
    | .designatedDisabled => .disabled
    | .faultDetected => .faulty
    | .rsSlave => .uncalibrated
    | .rsPassive => .passive
    | _ => state
  | .passive =>
    match event with
    | .designatedDisabled => .disabled
    | .faultDetected => .faulty
    | .announceReceiptTimeoutExpires => .master
    | .rsMaster => .preMaster
    | .rsGrandMaster => .grandMaster
    | .rsSlave => .uncalibrated
    | _ => state
  | .uncalibrated =>
    match event with
    | .designatedDisabled => .disabled
    | .faultDetected => .faulty
    | .announceReceiptTimeoutExpires => .master
    | .masterClockSelected => .slave
    | .rsMaster => .preMaster
    | .rsGrandMaster => .grandMaster
    | .rsSlave => .uncalibrated
    | .rsPassive => .passive
    | _ => state
  | .slave =>
    match event with
    | .designatedDisabled => .disabled
    | .faultDetected => .faulty
    | .announceReceiptTimeoutExpires => .master
    | .synchronizationFault => .uncalibrated
    | .rsMaster => .preMaster
    | .rsGrandMaster => .grandMaster
    | .rsSlave => if mdiff then .uncalibrated else state
    | .rsPassive => .passive
    | _ => state

/-- The state machine for a slave only clock. -/
def ptpSlaveFsm (state : PortState) (event : FsmEvent) (mdiff : Bool) : PortState :=
  if event = .initializeEvent ∨ event = .powerup then .initializing else
  match state with
  | .initializing =>
    match event with
    | .faultDetected => .faulty
    | .initComplete => .listening
    | _ => state
  | .faulty =>
    match event with
    | .designatedDisabled => .disabled
    | .faultCleared => .initializing
    | _ => state
  | .disabled =>
    match event with
    | .designatedEnabled => .initializing
    | _ => state
  | .listening =>
    match event with
    | .designatedDisabled => .disabled
    | .faultDetected => .faulty
    | .announceReceiptTimeoutExpires | .rsMaster | .rsGrandMaster | .rsPassive => .listening
    | .rsSlave => .uncalibrated
    | _ => state
  | .uncalibrated =>
    match event with
    | .designatedDisabled => .disabled
    | .faultDetected => .faulty
    | .announceReceiptTimeoutExpires | .rsMaster | .rsGrandMaster | .rsPassive => .listening
    | .masterClockSelected => .slave
    | _ => state
  | .slave =>
    match event with
    | .designatedDisabled => .disabled
    | .faultDetected => .faulty
    | .announceReceiptTimeoutExpires | .rsMaster | .rsGrandMaster | .rsPassive => .listening
    | .synchronizationFault => .uncalibrated
    | .rsSlave => if mdiff then .uncalibrated else state
    | _ => state
  | _ => state

/-! ## Updating a port (`port.c`) -/

/-- `port_is_enabled`. -/
def portIsEnabled : PortState → Bool
  | .initializing | .faulty | .disabled => false
  | _ => true

/-- What an event makes of a port: the state it ends in, and whether it was
disabled and initialised on the way. -/
structure Transition where
  next : PortState
  disabled : Bool := false
  initialized : Bool := false

/-- The state changes in `port_state_update`. A fault to be cleared as soon as
possible is cleared at once, and so is initialisation attempted at once; whether
it succeeds is supplied. -/
def portStateUpdate (machine : PortState → FsmEvent → Bool → PortState) (asap starts : Bool)
    (state : PortState) (event : FsmEvent) (mdiff : Bool) : Transition :=
  let next := machine state event mdiff
  let next := if next = .faulty ∧ asap then machine next .faultCleared false else next
  if next = .initializing then
    { next := machine next (if starts then .initComplete else .faultDetected) false
      disabled := portIsEnabled state
      initialized := true }
  else { next := next }

end LinuxPtp
