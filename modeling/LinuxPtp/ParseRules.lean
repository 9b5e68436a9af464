import LinuxPtp.TlvCodec

/-!
# Rules for parsing steps

`Decides` specifies a parsing step that looks at one range of the buffer: it
succeeds exactly under a condition, with a given result and buffer, and fails
with `EBADMSG` otherwise. Either way it accesses nothing outside the range and
leaves the rest of the message alone. The message around the buffer, the TLV
being parsed and the accesses so far are arbitrary, so a specification can be
used wherever the step occurs.

A rule exists for each primitive step and for sequencing. One condition goes
through a whole sequence: every check is implied by it, and after the last check
it follows from all of them. What comes after a check is specified only where the
check succeeded; this is how a length check bounds the reads after it.
-/

namespace LinuxPtp

open Octets

/-- An access by the parser of a TLV that stays in a range. -/
structure Access.Inside (first stop : Nat) (tlv : Option Nat) (access : Access) : Prop where
  tlv : access.tlv = tlv
  first : first ≤ access.first
  stop : access.first + access.count ≤ stop

namespace Recv

variable {α β : Type}

/-- The parser's state with the supplied buffer. -/
def stateWith (msg : Message) (tlv : Option Nat) (touched : List Access) (data : Storage) :
    RecvState := ⟨{ msg with data := data }, tlv, touched⟩

/-- Two buffers agree outside a range. -/
def Untouched (first stop : Nat) (data reached : Storage) : Prop :=
  ∀ index, index < first ∨ stop ≤ index → reached index = data index

/-- From a buffer, the step succeeds exactly under the condition, with the given
result and buffer. Whether or not it succeeds, it accesses only the range. -/
def Decides (first stop : Nat) (step : Recv α) (data : Storage) (condition : Prop) (result : α)
    (reached : Storage) : Prop :=
  ∀ msg tlv touched, ∃ accesses : List Access,
    (∀ access ∈ accesses, Access.Inside first stop tlv access) ∧
    (condition → Untouched first stop data reached ∧
      step (stateWith msg tlv touched data) =
        .ok result (stateWith msg tlv (touched ++ accesses) reached)) ∧
    (¬ condition → ∃ broken, Untouched first stop data broken ∧
      step (stateWith msg tlv touched data) =
        .error .ebadmsg (stateWith msg tlv (touched ++ accesses) broken))

/-- The step always succeeds. -/
abbrev Yields (first stop : Nat) (step : Recv α) (data : Storage) (result : α)
    (reached : Storage) : Prop := Decides first stop step data True result reached

variable {first stop : Nat} {data : Storage}

theorem untouched_refl : Untouched first stop data data := fun _ _ => rfl

theorem untouched_trans {reached last : Storage} (before : Untouched first stop data reached)
    (after : Untouched first stop reached last) : Untouched first stop data last :=
  fun index outside => (after index outside).trans (before index outside)

/-- A change of one field of the range. -/
theorem untouched_field {field : Field} {reached : Storage}
    (same : ∀ index, ¬ field.Covers index → reached index = data index)
    (low : first ≤ field.offset) (high : field.stop ≤ stop) : Untouched first stop data reached :=
  fun index outside => same index fun inside => by
    simp only [Field.Covers] at inside
    omega

/-! ## Primitive steps -/

/-- A step that succeeds with one access in the range. -/
theorem yields_access {step : Recv α} {result : α} {reached : Storage} {offset count : Nat}
    (low : first ≤ offset) (high : offset + count ≤ stop)
    (untouched : Untouched first stop data reached)
    (run : ∀ msg tlv touched, step (stateWith msg tlv touched data) =
      .ok result (stateWith msg tlv (touched ++ [⟨offset, count, tlv⟩]) reached)) :
    Yields first stop step data result reached := by
  intro msg tlv touched
  refine ⟨[⟨offset, count, tlv⟩], ?_, fun _ => ⟨untouched, run msg tlv touched⟩,
    fun absent => absurd trivial absent⟩
  intro access member
  obtain rfl := List.mem_singleton.mp member
  exact ⟨rfl, low, high⟩

theorem yields_pure (result : α) : Yields first stop (pure result : Recv α) data result data :=
  fun msg tlv touched => ⟨[], by simp, fun _ => ⟨untouched_refl, by simp⟩, by simp⟩

theorem yields_octet {offset : Nat} (low : first ≤ offset) (high : offset + 1 ≤ stop) :
    Yields first stop (octet offset) data (data offset).toNat data :=
  yields_access low high untouched_refl fun _ _ _ => rfl

theorem yields_host (order : ByteOrder) {field : Field} (low : first ≤ field.offset)
    (high : field.stop ≤ stop) : Yields first stop (host order field) data (load order field data) data :=
  yields_access low high untouched_refl fun _ _ _ => rfl

theorem yields_store (order : ByteOrder) {field : Field} (number : Nat) (low : first ≤ field.offset)
    (high : field.stop ≤ stop) :
    Yields first stop (access field (store order field number)) data ()
      (store order field number data) :=
  yields_access low high (untouched_field (fun _ outside => store_outside outside) low high)
    fun _ _ _ => rfl

theorem yields_ntoh (order : ByteOrder) {field : Field} (low : first ≤ field.offset)
    (high : field.stop ≤ stop) :
    Yields first stop (ntoh order field) data () (convert order field data) :=
  yields_access low high (untouched_field (fun _ outside => convert_outside outside) low high)
    fun _ _ _ => rfl

/-! ## Sequencing -/

theorem decides_congr {step : Recv α} {condition other : Prop} {result : α} {reached : Storage}
    (decided : Decides first stop step data condition result reached) (same : condition ↔ other) :
    Decides first stop step data other result reached := by
  rwa [← propext same]

/-- A specification may name the result and the buffer differently where they
are equal. -/
theorem decides_cast {step : Recv α} {condition : Prop} {result other : α}
    {reached storage : Storage} (decided : Decides first stop step data condition result reached)
    (sameResult : condition → result = other) (sameData : condition → reached = storage) :
    Decides first stop step data condition other storage := by
  intro msg tlv touched
  obtain ⟨accesses, inside, succeeds, fails⟩ := decided msg tlv touched
  refine ⟨accesses, inside, fun holds => ?_, fails⟩
  rw [← sameResult holds, ← sameData holds]
  exact succeeds holds

/-- A condition that holds may be imposed on a step that always succeeds. -/
theorem decides_of_yields {step : Recv α} {condition : Prop} {result : α} {reached : Storage}
    (holds : condition) (yielded : Yields first stop step data result reached) :
    Decides first stop step data condition result reached :=
  decides_congr yielded (iff_of_true trivial holds)

/-- A step whose success the whole condition requires, followed by the rest. The
rest is specified only where the step succeeded, and knows that it did. -/
theorem decides_bind {step : Recv α} {next : α → Recv β} {needed condition : Prop} {result : α}
    {final : β} {reached last : Storage}
    (decided : Decides first stop step data needed result reached)
    (required : condition → needed)
    (continued : needed → Decides first stop (next result) reached condition final last) :
    Decides first stop (step >>= next) data condition final last := by
  intro msg tlv touched
  obtain ⟨accesses, inside, succeeds, fails⟩ := decided msg tlv touched
  by_cases holds : needed
  · obtain ⟨more, moreInside, moreSucceeds, moreFails⟩ :=
      continued holds msg tlv (touched ++ accesses)
    refine ⟨accesses ++ more, ?_, fun met => ?_, fun unmet => ?_⟩
    · intro access member
      exact (List.mem_append.mp member).elim (inside access) (moreInside access)
    · obtain ⟨untouched, run⟩ := succeeds holds
      obtain ⟨moreUntouched, moreRun⟩ := moreSucceeds met
      refine ⟨untouched_trans untouched moreUntouched, ?_⟩
      rw [run_bind, run, ← List.append_assoc]
      exact moreRun
    · obtain ⟨untouched, run⟩ := succeeds holds
      obtain ⟨broken, moreUntouched, moreRun⟩ := moreFails unmet
      refine ⟨broken, untouched_trans untouched moreUntouched, ?_⟩
      rw [run_bind, run, ← List.append_assoc]
      exact moreRun
  · refine ⟨accesses, inside, fun met => absurd (required met) holds, fun _ => ?_⟩
    obtain ⟨broken, untouched, run⟩ := fails holds
    exact ⟨broken, untouched, by rw [run_bind, run]⟩

/-- A step that always succeeds leaves the condition to the rest. -/
theorem yields_bind {step : Recv α} {next : α → Recv β} {condition : Prop} {result : α}
    {final : β} {reached last : Storage} (yielded : Yields first stop step data result reached)
    (continued : Decides first stop (next result) reached condition final last) :
    Decides first stop (step >>= next) data condition final last :=
  decides_bind yielded (fun _ => trivial) fun _ => continued

theorem decides_require (condition : Prop) [Decidable condition] :
    Decides first stop (require condition) data condition () data := by
  intro msg tlv touched
  refine ⟨[], by simp, fun holds => ⟨untouched_refl, ?_⟩, fun absent => ⟨data, untouched_refl, ?_⟩⟩
  · simp only [require, if_pos holds, List.append_nil, run_pure]
  · simp only [require, if_neg absent, List.append_nil, run_throw]

/-- A check that the whole condition implies, followed by the steps it guards. -/
theorem require_bind {checked condition : Prop} [Decidable checked] {next : Unit → Recv β}
    {final : β} {last : Storage} (required : condition → checked)
    (continued : checked → Decides first stop (next ()) data condition final last) :
    Decides first stop (require checked >>= next) data condition final last :=
  decides_bind (decides_require checked) required continued

/-- Which branch runs is known; the other one need not be specified. -/
theorem decides_ite {branch : Prop} [Decidable branch] {yes no : Recv α} {condition : Prop}
    {result : α} {reached : Storage}
    (taken : branch → Decides first stop yes data condition result reached)
    (skipped : ¬ branch → Decides first stop no data condition result reached) :
    Decides first stop (if branch then yes else no) data condition result reached := by
  by_cases holds : branch
  · simpa only [if_pos holds] using taken holds
  · simpa only [if_neg holds] using skipped holds

/-! ## Derived steps -/

/-- Converting fields of a record converts them all in the buffer. -/
theorem yields_ntohAll (order : ByteOrder) (base : Nat) (fields : List Field)
    (inside : ∀ field ∈ fields, first ≤ base + field.offset ∧ base + field.stop ≤ stop) :
    Yields first stop (ntohAll order base fields) data ()
      (convertAll order (fields.map (·.shift base)) data) := by
  induction fields generalizing data with
  | nil => exact yields_pure ()
  | cons field rest inductionHypothesis =>
    obtain ⟨bounds, restInside⟩ := List.forall_mem_cons.mp inside
    refine yields_bind (yields_ntoh order bounds.1 ?_) (inductionHypothesis restInside)
    simpa only [Field.shift_stop] using bounds.2

/-- `flip16` returns the field's network value and leaves it converted. -/
theorem yields_flip16 (order : ByteOrder) {offset : Nat} (low : first ≤ offset)
    (high : offset + 2 ≤ stop) :
    Yields first stop (flip16 order offset) data (load .big ⟨offset, 2⟩ data)
      (convert order ⟨offset, 2⟩ data) := by
  have value : swap order 2 (load order ⟨offset, 2⟩ data) = load .big ⟨offset, 2⟩ data :=
    swap_load order ⟨offset, 2⟩ data
  refine yields_bind (yields_host order low high) (yields_bind (yields_store order _ low high) ?_)
  rw [value]
  exact decides_cast (yields_pure _) (fun _ => rfl) fun _ => by rw [convert, ← value]

end Recv

end LinuxPtp
