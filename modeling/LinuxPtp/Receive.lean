import LinuxPtp.Layout

/-!
# The effects of parsing a message in place

A message is parsed in its own buffer: fields are read, checked and rewritten
in host byte order while descriptors of the TLVs are collected. `Recv` is the
state and error monad of that process. An error keeps the state reached so far,
because a rejected buffer stays partly converted.

Every read and write is recorded in `touched` with the TLV being parsed. The
record is a ghost: no decision consults it. Storage outside the received octets
is arbitrary and nothing limits an access, so staying inside is to be proved.
-/

namespace LinuxPtp

open Octets

/-- Negative results of the parser. -/
inductive Errno where
  | ebadmsg
  | eproto
deriving DecidableEq, Repr

/-- `struct timestamp`. -/
structure BinaryTimestamp where
  sec : Nat
  nsec : Nat
deriving DecidableEq, Repr

/-- The pointers of `struct mgmt_clock_description`, as offsets into the message
buffer. A pointer that was never set is `none`. -/
structure MgmtClockDescription where
  clockType : Option Nat := none
  physicalLayerProtocol : Option Nat := none
  physicalAddress : Option Nat := none
  protocolAddress : Option Nat := none
  manufacturerIdentity : Option Nat := none
  productDescription : Option Nat := none
  revisionData : Option Nat := none
  userDescription : Option Nat := none
  profileIdentity : Option Nat := none
deriving DecidableEq, Repr

/-- `struct tlv_extra`: where a TLV lies and what was found inside it. -/
structure TlvExtra where
  tlv : Nat
  cd : MgmtClockDescription := {}
  foot : Option Nat := none
deriving DecidableEq, Repr

/-- The part of `struct ptp_message` that sending and parsing work on. -/
structure Message where
  data : Storage
  pdu : BinaryTimestamp
  host : Int
  tlvList : List TlvExtra
  tlvCount : Nat

/-- `msg_allocate` clears everything outside the buffer; the buffer then holds
the octets that were received. -/
def Message.fresh (data : Storage) : Message := ⟨data, ⟨0, 0⟩, 0, [], 0⟩

/-- A buffer that begins with the supplied octets. -/
def bufferOf (octets : List UInt8) : Storage := fun index => octets.getD index 0

/-- One recorded access: its first offset, its width and the TLV being parsed. -/
structure Access where
  first : Nat
  count : Nat
  tlv : Option Nat
deriving DecidableEq, Repr

/-- The parser's state. -/
structure RecvState where
  msg : Message
  tlv : Option Nat := none
  touched : List Access := []

/-- Parsing steps. The state survives an error. -/
abbrev Recv := EStateM Errno RecvState

namespace Recv

/-- The state after a run, whether or not it failed. -/
def final {α : Type} : EStateM.Result Errno RecvState α → RecvState
  | .ok _ state => state
  | .error _ state => state

/-- Change the buffer and record the access. -/
def access (field : Field) (change : Storage → Storage) : Recv Unit := fun state =>
  .ok () { state with
    msg := { state.msg with data := change state.msg.data }
    touched := state.touched ++ [⟨field.offset, field.width, state.tlv⟩] }

/-- Read a field in host byte order. -/
def host (order : ByteOrder) (field : Field) : Recv Nat := fun state =>
  .ok (load order field state.msg.data) { state with
    touched := state.touched ++ [⟨field.offset, field.width, state.tlv⟩] }

/-- Read one octet. -/
def octet (offset : Nat) : Recv Nat := fun state =>
  .ok (state.msg.data offset).toNat { state with
    touched := state.touched ++ [⟨offset, 1, state.tlv⟩] }

/-- `x = ntohs(x)` and its wider relatives: convert a field in place. -/
def ntoh (order : ByteOrder) (field : Field) : Recv Unit := access field (convert order field)

/-- Convert fields of a record in the given order. -/
def ntohAll (order : ByteOrder) (base : Nat) : List Field → Recv Unit
  | [] => pure ()
  | field :: rest => do
    ntoh order (field.shift base)
    ntohAll order base rest

/-- `flip16`: convert a 16-bit field in place and return the converted value. -/
def flip16 (order : ByteOrder) (offset : Nat) : Recv Nat := do
  let v ← host order ⟨offset, 2⟩
  let v := swap order 2 v
  access ⟨offset, 2⟩ (store order ⟨offset, 2⟩ v)
  pure v

/-- Attribute later accesses to a TLV. -/
def enterTlv (offset : Nat) : Recv Unit := fun state => .ok () { state with tlv := some offset }

/-- `msg_tlv_attach`. -/
def msgTlvAttach (extra : TlvExtra) : Recv Unit := fun state =>
  .ok () { state with msg := { state.msg with
    tlvList := state.msg.tlvList ++ [extra]
    tlvCount := state.msg.tlvCount + 1 } }

section Runs

variable {α β : Type} (state : RecvState)

@[simp] theorem run_pure (a : α) : (pure a : Recv α) state = .ok a state := rfl

@[simp] theorem run_throw (error : Errno) : (throw error : Recv α) state = .error error state := rfl

@[simp] theorem run_modify (change : RecvState → RecvState) (state : RecvState) :
    (modify change : Recv Unit) state = .ok () (change state) := rfl

/-- What comes next goes on from where the first one stopped, or not at all. -/
theorem run_bind (first : Recv α) (next : α → Recv β) :
    (first >>= next) state = match first state with
      | .ok a reached => next a reached
      | .error error reached => .error error reached := by
  simp only [bind, EStateM.bind]
  cases first state <;> rfl

end Runs

end Recv

end LinuxPtp
