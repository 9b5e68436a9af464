import LinuxPtp.MsgParse
import LinuxPtp.SyncMonitor
import LinuxPtp.Tmv

/-!
# Times on the wire

A time value is divided into seconds and nanoseconds, the seconds into two parts, and each of these
is written in network order. Reading them puts the seconds together, and in 64 bits that wrap around
this is the same time value, before the epoch too.

The division is without a sign, as in the source. That is why times before the epoch need no case
of their own.
-/

namespace LinuxPtp.WireTimes

open Octets Recv Tmv

/-! ## The code (`tmv.h`, `msg.c`) -/

/-- `struct Timestamp`. -/
structure Timestamp where
  secondsMsb : Nat
  secondsLsb : Nat
  nanoseconds : Nat

/-- `tmv_to_Timestamp`. The divisor is unsigned, and so is the number that it divides. -/
def tmvToTimestamp (x : Int) : Timestamp :=
  let ns := (x % 2 ^ 64).toNat
  let sec := ns / 1000000000
  let nsec := ns % 1000000000
  { secondsMsb := sec / 2 ^ 32 % 2 ^ 16, secondsLsb := sec % 2 ^ 32, nanoseconds := nsec % 2 ^ 32 }

/-- A time stamp is assigned to the fields of a message. -/
def assign (order : ByteOrder) (fields : TimestampFields) (ts : Timestamp) (data : Storage) :
    Storage :=
  store order fields.nanoseconds ts.nanoseconds
    (store order fields.secondsLsb ts.secondsLsb
      (store order fields.secondsMsb ts.secondsMsb data))

/-- A time value is written into a message, which is made ready to be sent. -/
def written (order : ByteOrder) (base : Nat) (x : Int) (data : Storage) : Storage :=
  timestampPreSend order (Timestamp.fields base)
    (assign order (Timestamp.fields base) (tmvToTimestamp x) data)

/-! ## Reading what was written -/

section Fields

variable {order : ByteOrder} {base : Nat} {ts : Timestamp} {data : Storage}

theorem fields_separate (base : Nat) :
    [(Timestamp.fields base).secondsLsb, (Timestamp.fields base).secondsMsb,
      (Timestamp.fields base).nanoseconds].Pairwise Field.Apart := by
  simp only [Timestamp.fields, List.pairwise_cons, List.mem_cons, List.not_mem_nil, or_false,
    forall_eq_or_imp, forall_eq, false_imp_iff, implies_true, List.Pairwise.nil, and_true,
    Field.Apart, Field.stop]
  omega

/-- The fields hold what was assigned, as far as it fits. -/
theorem load_assign :
    load order (Timestamp.fields base).secondsMsb
        (assign order (Timestamp.fields base) ts data) = ts.secondsMsb % 2 ^ 16 ∧
      load order (Timestamp.fields base).secondsLsb
        (assign order (Timestamp.fields base) ts data) = ts.secondsLsb % 2 ^ 32 ∧
      load order (Timestamp.fields base).nanoseconds
        (assign order (Timestamp.fields base) ts data) = ts.nanoseconds % 2 ^ 32 := by
  have lower : (Timestamp.fields base).secondsLsb.Apart (Timestamp.fields base).secondsMsb :=
    .inr (Nat.le_refl _)
  have last : (Timestamp.fields base).nanoseconds.Apart (Timestamp.fields base).secondsLsb :=
    .inr (Nat.le_refl _)
  have outer : (Timestamp.fields base).nanoseconds.Apart (Timestamp.fields base).secondsMsb := by
    refine .inr ?_
    simp only [Timestamp.fields, Field.stop]
    omega
  refine ⟨?_, ?_, ?_⟩
  · rw [assign, load_store_apart outer, load_store_apart lower, load_store]
    rfl
  · rw [assign, load_store_apart last, load_store]
    rfl
  · rw [assign, load_store]
    rfl

end Fields

/-- Nothing of the seconds and nanoseconds of 64 bits is lost in the fields. -/
theorem tmvToTimestamp_parts (x : Int) :
    (tmvToTimestamp x).secondsMsb % 2 ^ 16 = (tmvToTimestamp x).secondsMsb ∧
      (tmvToTimestamp x).secondsLsb % 2 ^ 32 = (tmvToTimestamp x).secondsLsb ∧
      (tmvToTimestamp x).nanoseconds < 1000000000 ∧
      ((tmvToTimestamp x).secondsLsb + (tmvToTimestamp x).secondsMsb * 2 ^ 32) * 1000000000 +
        (tmvToTimestamp x).nanoseconds = (x % 2 ^ 64).toNat := by
  have bound : (x % 2 ^ 64).toNat < 2 ^ 64 := by omega
  rw [tmvToTimestamp]
  generalize (x % 2 ^ 64).toNat = ns at bound
  dsimp only
  omega

/-- They make the same time value again. -/
theorem timestampToTmv_parts {x : Int} (fits : Fits x) :
    SyncMonitor.timestampToTmv
      ⟨(tmvToTimestamp x).secondsLsb + (tmvToTimestamp x).secondsMsb * 2 ^ 32,
        (tmvToTimestamp x).nanoseconds⟩ = x := by
  obtain ⟨-, -, -, whole⟩ := tmvToTimestamp_parts x
  have number :
      (((tmvToTimestamp x).secondsLsb + (tmvToTimestamp x).secondsMsb * 2 ^ 32 : Nat) : Int) *
      1000000000 + (tmvToTimestamp x).nanoseconds = x % 2 ^ 64 := by omega
  rw [SyncMonitor.timestampToTmv, number]
  exact (Int.emod_bmod x (2 ^ 64)).trans (int64_of_fits fits)

/-- What `timestamp_post_recv` reads is what is on the wire, in network order. -/
theorem run_timestampPostRecv (order : ByteOrder) (base : Nat) (state : RecvState) :
    ∃ after, timestampPostRecv order (Timestamp.fields base) state = .ok () after ∧
      after.msg.pdu = ⟨load .big (Timestamp.fields base).secondsLsb state.msg.data +
        load .big (Timestamp.fields base).secondsMsb state.msg.data * 2 ^ 32,
        load .big (Timestamp.fields base).nanoseconds state.msg.data⟩ := by
  rw [← swap_load order, ← swap_load order, ← swap_load order]
  exact ⟨_, rfl, rfl⟩

/-- A time value that is sent and received is the same one, whatever the byte orders of the two
hosts, and its nanoseconds are less than a second on the wire.

Proof: the number is divided without a sign, so times before the epoch are large ones. The parts fit
into their fields, what is read of them in the order of the network is what was written, and
together they are the number again modulo `2 ^ 64`. -/
theorem time_round_trip (sender receiver : ByteOrder) (base : Nat) (x : Int64) (data : Storage)
    (state : RecvState) :
    load .big (Timestamp.fields base).nanoseconds (written sender base x.toInt data) < 1000000000 ∧
    ∃ after, timestampPostRecv receiver (Timestamp.fields base)
        { state with msg := { state.msg with data := written sender base x.toInt data } } =
          .ok () after ∧
      SyncMonitor.timestampToTmv after.msg.pdu = x.toInt := by
  have fits : Fits x.toInt := ⟨x.le_toInt, x.toInt_lt⟩
  obtain ⟨msb, lsb, below, -⟩ := tmvToTimestamp_parts x.toInt
  obtain ⟨loadMsb, loadLsb, loadNanoseconds⟩ :=
    @load_assign sender base (tmvToTimestamp x.toInt) data
  have separate := fields_separate base
  have wireMsb := (network_convertAll separate (by simp)).trans (loadMsb.trans msb)
  have wireLsb := (network_convertAll separate (by simp)).trans (loadLsb.trans lsb)
  have wireNanoseconds := (network_convertAll separate (by simp)).trans
    (loadNanoseconds.trans (Nat.mod_eq_of_lt (Nat.lt_trans below (by decide))))
  obtain ⟨after, received, pdu⟩ := run_timestampPostRecv receiver base
    { state with msg := { state.msg with data := written sender base x.toInt data } }
  rw [written, timestampPreSend] at pdu ⊢
  rw [wireNanoseconds]
  refine ⟨below, after, received, ?_⟩
  rw [pdu, wireMsb, wireLsb, wireNanoseconds]
  exact timestampToTmv_parts fits

end LinuxPtp.WireTimes
