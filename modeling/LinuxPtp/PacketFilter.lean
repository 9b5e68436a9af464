import Mathlib.Data.List.Basic

/-!
# Packet filters

Programs of the classic packet filter, as far as loads from fixed places, one mask, tests for
equality and returns go. Jumps lead forward and are counted from the next instruction. A load
beyond the packet ends the program with 0, and so does running off its end. What is returned is how
much of the packet is let through.
-/

namespace PacketFilter

/-- An instruction. -/
inductive Insn where
  /-- Load an octet. -/
  | ldb (place : Nat)
  /-- Load two octets, the first being the high one. -/
  | ldh (place : Nat)
  /-- Mask the accumulator. -/
  | and (mask : Nat)
  /-- Jump on equality, or else. -/
  | jeq (value jt jf : Nat)
  /-- Jump. -/
  | ja (offset : Nat)
  /-- End the program. -/
  | ret (value : Nat)
deriving DecidableEq

/-- The octet at a place. -/
def byte (packet : List UInt8) (place : Nat) : Option Nat := packet[place]?.map UInt8.toNat

/-- The number in two octets. -/
def half (packet : List UInt8) (place : Nat) : Option Nat :=
  (byte packet place).bind fun high => (byte packet (place + 1)).map (256 * high + ·)

/-- Run a program, from the instruction behind those to be skipped. -/
def run (packet : List UInt8) : List Insn → Nat → Nat → Nat
  | [], _, _ => 0
  | _ :: rest, skip + 1, a => run packet rest skip a
  | .ldb place :: rest, 0, _ => (byte packet place).elim 0 (run packet rest 0)
  | .ldh place :: rest, 0, _ => (half packet place).elim 0 (run packet rest 0)
  | .and mask :: rest, 0, a => run packet rest 0 (a &&& mask)
  | .jeq value jt jf :: rest, 0, a => run packet rest (if a = value then jt else jf) a
  | .ja offset :: rest, 0, a => run packet rest offset a
  | .ret value :: _, 0, _ => value

/-- What a program lets through of a packet. -/
def letThrough (program : List Insn) (packet : List UInt8) : List UInt8 :=
  packet.take (run packet program 0 0)

section Laws

variable {packet : List UInt8} {place : Nat}

theorem byte_inside : (byte packet place).isSome ↔ place < packet.length := by
  simp [byte]

theorem half_inside {number : Nat} (found : half packet place = some number) :
    place + 1 < packet.length := by
  obtain ⟨high, _, rest⟩ := Option.bind_eq_some_iff.mp found
  obtain ⟨low, second, _⟩ := Option.map_eq_some_iff.mp rest
  exact byte_inside.mp (second ▸ rfl)

/-- What is read of a packet within what is kept of it. -/
theorem byte_take {count : Nat} (inside : place < count) :
    byte (packet.take count) place = byte packet place := by
  rw [byte, byte, List.getElem?_take_of_lt inside]

theorem half_take {count : Nat} (inside : place + 1 < count) :
    half (packet.take count) place = half packet place := by
  rw [half, half, byte_take (by omega), byte_take inside]

end Laws

end PacketFilter
