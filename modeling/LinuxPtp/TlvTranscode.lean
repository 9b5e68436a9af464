import LinuxPtp.TlvShape

/-!
# Transcoding a TLV

Both directions convert the same fields of a TLV and lose the same part of a
`ScaledNs`, so one function describes the octets after either. It is its own
inverse except for the lost part. Reading the result in the other byte order
shows the shape that reading the argument showed, and nothing outside the TLV
is touched.
-/

namespace LinuxPtp

open Octets

/-- The least significant part of a `ScaledNs` is lost: its octets become the
most significant part read in network order. -/
def overwriteLsb (found : Option Nat) (start : Nat) (source data : Storage) : Storage :=
  match found with
  | some base => store .big (ScaledNs.nanosecondsLsb.shift (start + base))
      (load .big (ScaledNs.nanosecondsMsb.shift (start + base)) source) data
  | none => data

/-- Convert the fields of a TLV, and overwrite what both directions overwrite. -/
def transcode (order : ByteOrder) (reading : Reading) (start : Nat) (data : Storage) : Storage :=
  overwriteLsb reading.scaledNs start data
    (convertAll order (reading.fields.map (·.shift start)) data)

/-- Reception shortens the length field of a path that no Announce could carry. -/
def clip (order : ByteOrder) (reading : Reading) (start : Nat) (data : Storage) : Storage :=
  if reading.Overlong then
    store order (Tlv.length.shift start) (pathTraceMax * ClockIdentity.size) data
  else data

/-- The octets after receiving the TLV at an offset. -/
def tlvIn (order : ByteOrder) (wire : Storage) (start : Nat) : Storage :=
  let reading := readingAt .big wire start
  clip order reading start (transcode order reading start wire)

/-- The octets after sending the TLV at an offset. -/
def tlvOut (order : ByteOrder) (host : Storage) (start : Nat) : Storage :=
  transcode order (readingAt order host start) start host

section Transcoding

variable (order : ByteOrder)

/-! ## The three parts of a `ScaledNs` -/

/-- Converting a `ScaledNs` converts two parts and overwrites the third. -/
theorem scaledNs_transcode (base : Nat) (data : Storage) :
    convert order (ScaledNs.fractionalNanoseconds.shift base)
      (store order (ScaledNs.nanosecondsLsb.shift base)
        (swap order 8 (load order (ScaledNs.nanosecondsMsb.shift base)
          (convert order (ScaledNs.nanosecondsMsb.shift base) data)))
        (convert order (ScaledNs.nanosecondsMsb.shift base) data)) =
    store .big (ScaledNs.nanosecondsLsb.shift base)
      (load .big (ScaledNs.nanosecondsMsb.shift base) data)
      (convertAll order [ScaledNs.nanosecondsMsb.shift base,
        ScaledNs.fractionalNanoseconds.shift base] data) := by
  have apart : (ScaledNs.nanosecondsLsb.shift base).Apart
      (ScaledNs.fractionalNanoseconds.shift base) := Field.shift_apart base (by decide)
  rw [load_convert, show (8 : Nat) = (ScaledNs.nanosecondsLsb.shift base).width from rfl,
    store_swap, convert_store_apart apart]
  rfl

/-- A `ScaledNs` among other fields: those before it and the one after it may be
converted as if it were not there. -/
theorem scaledNs_among (start base : Nat) (before : List Field) (last : Field) (data : Storage)
    (apart : (ScaledNs.nanosecondsLsb.shift base).Apart last)
    (msb : ∀ field ∈ before, field.Apart (ScaledNs.nanosecondsMsb.shift base)) :
    convert order (last.shift start)
      (store .big (ScaledNs.nanosecondsLsb.shift (start + base))
        (load .big (ScaledNs.nanosecondsMsb.shift (start + base))
          (convertAll order (before.map (·.shift start)) data))
        (convertAll order [ScaledNs.nanosecondsMsb.shift (start + base),
          ScaledNs.fractionalNanoseconds.shift (start + base)]
          (convertAll order (before.map (·.shift start)) data))) =
    overwriteLsb (some base) start data
      (convertAll order ((before ++ [ScaledNs.nanosecondsMsb.shift base,
        ScaledNs.fractionalNanoseconds.shift base, last]).map (·.shift start)) data) := by
  have lastApart := Field.shift_apart start apart
  have msbApart := Field.map_shift_apart start msb
  rw [Field.shift_shift] at lastApart msbApart
  rw [convert_store_apart lastApart, load_convertAll_apart msbApart, List.map_append,
    convertAll_append]
  simp only [overwriteLsb, List.map_cons, List.map_nil, Field.shift_shift]
  rfl

/-! ## What transcoding changes -/

variable {reading : Reading} {start : Nat} {data : Storage}

/-- Fields may be converted after the overwriting that leaves them alone. -/
theorem convertAll_overwriteLsb {found : Option Nat} (fields : List Field) (source : Storage)
    (apart : ∀ base, found = some base → ∀ field ∈ fields,
      (ScaledNs.nanosecondsLsb.shift base).Apart field) :
    convertAll order (fields.map (·.shift start)) (overwriteLsb found start source data) =
      overwriteLsb found start source (convertAll order (fields.map (·.shift start)) data) := by
  cases found with
  | none => rfl
  | some base =>
    unfold overwriteLsb
    refine convertAll_store_apart fun field member => ?_
    obtain ⟨original, present, rfl⟩ := List.mem_map.mp member
    rw [← Field.shift_shift]
    exact Field.shift_apart start (apart base rfl original present)

/-- An offset of the TLV that belongs to no field keeps its octet. -/
theorem transcode_uncovered {index : Nat}
    (fields : ∀ field ∈ reading.fields, ¬ (field.shift start).Covers index)
    (lsb : ∀ base, reading.scaledNs = some base →
      ¬ (ScaledNs.nanosecondsLsb.shift (start + base)).Covers index) :
    transcode order reading start data index = data index := by
  have converted : convertAll order (reading.fields.map (·.shift start)) data index = data index := by
    refine convertAll_outside fun field member => ?_
    obtain ⟨original, present, rfl⟩ := List.mem_map.mp member
    exact fields original present
  unfold transcode overwriteLsb
  cases found : reading.scaledNs with
  | none => exact converted
  | some base => exact (store_outside (lsb base found)).trans converted

/-- Transcoding a well-sized TLV changes nothing before or after it. -/
theorem transcode_outside (sized : reading.WellSized) {index : Nat}
    (outside : index < start ∨ start + 4 + reading.length ≤ index) :
    transcode order reading start data index = data index := by
  refine transcode_uncovered order (fun field member inside => ?_) fun base found inside => ?_
  · have bound := Reading.fields_inside sized field member
    simp only [Field.Covers, Field.shift_offset, Field.shift_stop] at inside
    omega
  · have bound := (Reading.scaledNs_placed sized found).inside
    simp only [Field.Covers, Field.shift_offset, Field.shift_stop] at inside bound
    omega

/-- A listed field is converted, whatever happens to a `ScaledNs`. -/
theorem transcode_covered (sized : reading.WellSized) {field : Field}
    (member : field ∈ reading.fields) {index : Nat} (inside : (field.shift start).Covers index) :
    transcode order reading start data index = convert order (field.shift start) data index := by
  have converted := @convertAll_inside order (reading.fields.map (·.shift start)) data
    (Reading.shift_separate start Reading.fields_separate) _ (List.mem_map_of_mem member) _ inside
  unfold transcode overwriteLsb
  cases found : reading.scaledNs with
  | none => exact converted
  | some base =>
    have apart := Field.shift_apart start ((Reading.scaledNs_placed sized found).apart field member)
    rw [Field.shift_shift] at apart
    exact (store_outside (Field.not_covers_of_apart apart inside)).trans converted

/-- Loads of a listed field after transcoding, in either byte order. -/
theorem load_transcode (sized : reading.WellSized) {field : Field} (member : field ∈ reading.fields)
    (reader : ByteOrder) :
    load reader (field.shift start) (transcode order reading start data) =
      load reader (field.shift start) (convert order (field.shift start) data) :=
  load_congr reader _ fun _ inside => transcode_covered order sized member inside

/-- Transcoding depends only on the octets of the TLV. -/
theorem transcode_congr {left right : Storage} (sized : reading.WellSized)
    (same : ∀ index, start ≤ index → index < start + 4 + reading.length → left index = right index)
    {index : Nat} (low : start ≤ index) (high : index < start + 4 + reading.length) :
    transcode order reading start left index = transcode order reading start right index := by
  by_cases covered : ∃ field ∈ reading.fields, (field.shift start).Covers index
  · obtain ⟨field, member, inside⟩ := covered
    rw [transcode_covered order sized member inside, transcode_covered order sized member inside]
    refine convert_congr order _ (fun other within => same other ?_ ?_) index inside
    · exact Nat.le_trans (Nat.le_add_right _ _) within.1
    · have bound := Reading.fields_inside sized field member
      have last := within.2
      simp only [Field.shift_stop] at last
      omega
  · have uncovered : ∀ field ∈ reading.fields, ¬ (field.shift start).Covers index :=
      fun field member inside => covered ⟨field, member, inside⟩
    by_cases lost : ∃ base, reading.scaledNs = some base ∧
        (ScaledNs.nanosecondsLsb.shift (start + base)).Covers index
    · obtain ⟨base, found, inside⟩ := lost
      have placed := Reading.scaledNs_placed sized found
      have msb : load .big (ScaledNs.nanosecondsMsb.shift (start + base)) left =
          load .big (ScaledNs.nanosecondsMsb.shift (start + base)) right := by
        refine load_congr .big _ fun other within => same other ?_ ?_
        · have first := within.1
          simp only [Field.shift_offset] at first
          omega
        · have last := within.2
          have bound := Reading.fields_inside sized _ placed.msb
          simp only [Field.shift_stop] at last bound
          omega
      simp only [transcode, overwriteLsb, found, store, if_pos inside, msb]
    · have kept : ∀ base, reading.scaledNs = some base →
          ¬ (ScaledNs.nanosecondsLsb.shift (start + base)).Covers index :=
        fun base found inside => lost ⟨base, found, inside⟩
      rw [transcode_uncovered order uncovered kept, transcode_uncovered order uncovered kept]
      exact same index low high

/-- Only the fields and the place of a `ScaledNs` matter. -/
theorem transcode_sameShape {other : Reading} (shape : Reading.SameShape reading other) :
    transcode order other start data = transcode order reading start data := by
  rw [transcode, transcode, shape.fields, shape.scaledNs]

theorem overlong_sameShape {other : Reading} (shape : Reading.SameShape reading other) :
    other.Overlong ↔ reading.Overlong := by
  rw [Reading.Overlong, Reading.Overlong, shape.type, shape.length]

/-! ## The shape after transcoding -/

/-- A conversion turns what one byte order reads into what the other reads. -/
def Turns (reader writer : ByteOrder) : Prop :=
  ∀ field storage, load writer field (convert order field storage) = load reader field storage

theorem turns_receiving : Turns order .big order := load_convert order

theorem turns_sending : Turns order order .big := network_convert order

/-- After transcoding, the other byte order reads a TLV of the same shape. What
lies outside the TLV does not matter. -/
theorem transcode_shape {reader writer : ByteOrder} (turns : Turns order reader writer)
    (sized : (readingAt reader data start).WellSized) {after : Storage}
    (transcoded : ∀ index, start ≤ index →
      index < start + 4 + (readingAt reader data start).length →
      after index = transcode order (readingAt reader data start) start data index) :
    Reading.SameShape (readingAt reader data start) (readingAt writer after start) := by
  refine Reading.shape_stable ⟨fun field member width => ?_, fun index inside fields lsb => ?_⟩ sized
  · have turned := @load_transcode order _ start data sized field member writer
    rw [turns, ← load_congr writer _ fun index inside => transcoded index ?_ ?_] at turned
    · obtain ⟨offset, _⟩ := field
      subst width
      exact turned
    · exact Nat.le_trans (Nat.le_add_right _ _) inside.1
    · have bound := Reading.fields_inside sized field member
      have last := inside.2
      simp only [Field.shift_stop] at last
      omega
  · have kept : after (start + index) = data (start + index) := by
      rw [transcoded _ (by omega) (by omega)]
      refine transcode_uncovered order (fun field member covered => ?_) fun base found covered => ?_
      · refine fields field member ?_
        simp only [Field.Covers, Field.shift_offset, Field.shift_stop] at covered ⊢
        omega
      · refine lsb base found ?_
        simp only [Field.Covers, Field.shift_offset, Field.shift_stop] at covered ⊢
        omega
    exact congrArg UInt8.toNat kept

/-- What two transcodings leave: the overwritten part of a `ScaledNs` holds the
swapped most significant part, all else is restored. -/
def transcodedTwice (found : Option Nat) (start : Nat) (data : Storage) : Storage :=
  match found with
  | some base => store .big (ScaledNs.nanosecondsLsb.shift (start + base))
      (load order (ScaledNs.nanosecondsMsb.shift (start + base)) data) data
  | none => data

/-- Transcoding twice restores everything but the overwritten part of a
`ScaledNs`. -/
theorem transcode_transcode (sized : reading.WellSized) :
    transcode order reading start (transcode order reading start data) =
      transcodedTwice order reading.scaledNs start data := by
  have separate := Reading.shift_separate start (@Reading.fields_separate reading)
  cases found : reading.scaledNs with
  | none =>
    simp only [transcode, overwriteLsb, found, transcodedTwice]
    exact convertAll_convertAll separate data
  | some base =>
    have placed := Reading.scaledNs_placed sized found
    have msb : load .big (ScaledNs.nanosecondsMsb.shift (start + base))
        (transcode order reading start data) =
        load order (ScaledNs.nanosecondsMsb.shift (start + base)) data := by
      rw [← Field.shift_shift, load_transcode order sized placed.msb, network_convert]
    have twice : convertAll order (reading.fields.map (·.shift start))
        (transcode order reading start data) =
        store .big (ScaledNs.nanosecondsLsb.shift (start + base))
          (load .big (ScaledNs.nanosecondsMsb.shift (start + base)) data) data := by
      rw [transcode, found, convertAll_overwriteLsb order reading.fields data fun _ same => by
        obtain rfl := Option.some.inj same
        exact placed.apart, convertAll_convertAll separate]
      rfl
    have outer : transcode order reading start (transcode order reading start data) =
        store .big (ScaledNs.nanosecondsLsb.shift (start + base))
          (load .big (ScaledNs.nanosecondsMsb.shift (start + base))
            (transcode order reading start data))
          (convertAll order (reading.fields.map (·.shift start))
            (transcode order reading start data)) := by
      simp only [transcode, overwriteLsb, found]
    rw [outer, msb, twice, store_store]
    rfl

end Transcoding

end LinuxPtp
