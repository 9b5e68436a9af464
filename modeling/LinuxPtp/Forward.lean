import LinuxPtp.Fsm
import LinuxPtp.MsgCodec

/-!
# Forwarding management messages

`clock_forward_mgmt_msg` of `clock.c`. The one buffer of the received message is
decremented in hop count, converted to network order at the first eligible port,
handed to the transport of every eligible port, and parsed a second time. The
second parse runs on the message as it is: descriptors it finds are appended to
those of the first, and its result is not looked at.

The transport's own work is left out; it receives the message buffer and the
number of octets to send, which is read from the header in network order.
-/

namespace LinuxPtp

open Octets Recv

/-- A port of the clock's list, or its port for management over a local socket. -/
inductive PortRef where
  | port (index : Nat)
  | uds
deriving DecidableEq, Repr

/-- What forwarding looks at in a clock: the states of its ports. -/
structure ForwardClock where
  ports : List PortState
  udsPort : PortState

/-- `port_state`. A port outside the list cannot forward anything. -/
def ForwardClock.portState (c : ForwardClock) : PortRef → PortState
  | .port index => c.ports.getD index .disabled
  | .uds => c.udsPort

/-- `forwarding`. -/
def forwarding (c : ForwardClock) (p : PortRef) : Bool :=
  match c.portState p with
  | .master | .grandMaster | .slave | .uncalibrated | .preMaster => true
  | state => p = .uds ∧ state ≠ .faulty

/-- The actions that are requests: GET, SET and COMMAND. -/
def isRequest (data : Storage) : Bool :=
  match lowNibble (data ManagementMsg.flags).toNat with
  | 0 | 1 | 3 => true
  | _ => false

/-- A frame handed to a port's transport. -/
structure Frame where
  port : PortRef
  /-- `ntohs(msg->header.messageLength)`. -/
  length : Nat
  octets : Storage

/-- `transport_send`: the length sent is the one inside the frame. -/
def transportSend (port : PortRef) (data : Storage) : Frame :=
  ⟨port, load .big PtpHeader.messageLength data, data⟩

/-- The state of the forwarding loop: the message, whether it was converted, and
what was handed to the transports. -/
structure Forwarded where
  msg : Message
  preSent : Bool := false
  frames : List Frame := []

section Forwarding

variable (order : ByteOrder) (now : Int) (c : ForwardClock)

/-- Whether a message that came in by one port goes out by another. -/
def eligible (inPort out : PortRef) (data : Storage) : Bool :=
  !(inPort = out || !forwarding c out || out = .uds && isRequest data)

/-- `msg_pre_send`, whose error is not looked at. -/
def preSend (msg : Message) : Message := (msgPreSend order now msg).getD msg

/-- `clock_do_forward_mgmt`. -/
def clockDoForwardMgmt (inPort : PortRef) (state : Forwarded) (out : PortRef) : Forwarded :=
  if eligible c inPort out state.msg.data then
    let msg := if state.preSent then state.msg else preSend order now state.msg
    ⟨msg, true, state.frames ++ [transportSend out msg.data]⟩
  else state

/-- Change `boundaryHops` of a message. -/
def withHops (change : UInt8 → UInt8) (msg : Message) : Message :=
  let hops := change (msg.data ManagementMsg.boundaryHops)
  { msg with data := setOctet ManagementMsg.boundaryHops hops msg.data }

/-- The ports of the clock in the order of the forwarding loop. -/
def egressPorts : List PortRef :=
  (List.range c.ports.length).map .port ++ [.uds]

/-- Whether the message is forwarded at all. -/
def entersForwarding (p : PortRef) (data : Storage) : Bool :=
  forwarding c p && data ManagementMsg.boundaryHops ≠ 0

/-- `clock_forward_mgmt_msg`: the message that is handled locally afterwards, and
the frames handed to the transports. -/
def clockForwardMgmtMsg (p : PortRef) (msg : Message) : Message × List Frame :=
  if entersForwarding c p msg.data then
    let pdulen := load order PtpHeader.messageLength msg.data
    let sent := (egressPorts c).foldl (clockDoForwardMgmt order now c p)
      { msg := withHops (· - 1) msg }
    if sent.preSent then
      (withHops (· + 1) (final (msgPostRecv order now pdulen sent.msg)).msg, sent.frames)
    else (sent.msg, sent.frames)
  else (msg, [])

end Forwarding

end LinuxPtp
