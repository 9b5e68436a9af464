import Mathlib.Data.List.Basic
import Mathlib.Tactic.Ring

/-!
# Octet storage and byte order

Storage is a total map from offsets to octets; a packed record is read and
written through fields, each an offset and a width. The host's byte order fixes
how a field's octets form a number. Converting a field between host and network
order is the numeric swap of its value, stored back in place.

The laws reduce a conversion to a reversal of the field's octets, identical for
both directions and trivial on a big-endian host. They name no record, protocol
or message; a development instantiates them at its own fields. Alignment,
aliasing of distinct storage objects and address arithmetic are not represented.
-/

namespace Octets

/-- The octet at every offset. Reads never fail; bounds are separate facts. -/
abbrev Storage := Nat → UInt8

/-- The two byte orders a host can have. -/
inductive ByteOrder where
  | big
  | little
deriving DecidableEq, Repr

/-- A multi-octet field of a packed record. -/
structure Field where
  offset : Nat
  width : Nat
deriving DecidableEq, Repr

namespace Field

/-- First offset after the field. -/
def stop (field : Field) : Nat := field.offset + field.width

/-- The same field of a record that starts at the supplied base. -/
def shift (field : Field) (base : Nat) : Field := ⟨base + field.offset, field.width⟩

/-- An offset belongs to the field. -/
def Covers (field : Field) (index : Nat) : Prop := field.offset ≤ index ∧ index < field.stop

instance (field : Field) (index : Nat) : Decidable (field.Covers index) :=
  inferInstanceAs (Decidable (_ ∧ _))

/-- No offset belongs to both fields. -/
def Apart (left right : Field) : Prop := left.stop ≤ right.offset ∨ right.stop ≤ left.offset

instance (left right : Field) : Decidable (left.Apart right) :=
  inferInstanceAs (Decidable (_ ∨ _))

/-- A field that is moved lies as much further on. -/
@[simp] theorem shift_offset (field : Field) (base : Nat) :
    (field.shift base).offset = base + field.offset := rfl

/-- A field that is moved is as wide as before. -/
@[simp] theorem shift_width (field : Field) (base : Nat) :
    (field.shift base).width = field.width := rfl

/-- A field that is moved stops as much further on. -/
@[simp] theorem shift_stop (field : Field) (base : Nat) :
    (field.shift base).stop = base + field.stop := Nat.add_assoc _ _ _

/-- Moving fields twice moves them by the sum. -/
theorem shift_shift (field : Field) (inner outer : Nat) :
    (field.shift inner).shift outer = field.shift (outer + inner) := by
  simp only [shift, Nat.add_assoc]

/-- Fields that are moved twice. -/
theorem map_shift_shift (fields : List Field) (inner outer : Nat) :
    (fields.map (·.shift inner)).map (·.shift outer) = fields.map (·.shift (outer + inner)) := by
  simp only [List.map_map, Function.comp_def, shift_shift]

/-- Two fields are apart from each other. -/
theorem apart_symm {left right : Field} (apart : left.Apart right) : right.Apart left :=
  apart.symm

/-- Moving two fields by one base keeps them apart. -/
theorem shift_apart {left right : Field} (base : Nat) (apart : left.Apart right) :
    (left.shift base).Apart (right.shift base) := by
  simp only [Apart, shift_stop, shift_offset] at apart ⊢
  omega

/-- Moving a list of fields and another field by one base keeps them apart. -/
theorem map_shift_apart {fields : List Field} {other : Field} (base : Nat)
    (apart : ∀ field ∈ fields, field.Apart other) :
    ∀ field ∈ fields.map (·.shift base), field.Apart (other.shift base) := by
  intro field member
  obtain ⟨original, present, rfl⟩ := List.mem_map.mp member
  exact shift_apart base (apart original present)

/-- A field apart from another does not cover the other's offsets. -/
theorem not_covers_of_apart {left right : Field} {index : Nat} (apart : left.Apart right)
    (inside : right.Covers index) : ¬ left.Covers index := by
  simp only [Apart, Covers] at *
  omega

end Field

/-- The number whose base-256 digits, least significant first, are supplied. -/
def value : Nat → (Nat → UInt8) → Nat
  | 0, _ => 0
  | width + 1, digits => (digits 0).toNat + 256 * value width (fun index => digits (index + 1))

/-- The base-256 digit of a number at one position. -/
def octet (number position : Nat) : UInt8 := UInt8.ofNat (number / 256 ^ position)

/-- Read a field as the host does. -/
def load (order : ByteOrder) (field : Field) (storage : Storage) : Nat :=
  match order with
  | .little => value field.width (fun index => storage (field.offset + index))
  | .big => value field.width (fun index => storage (field.offset + (field.width - 1 - index)))

/-- Write a field as the host does; every other offset keeps its octet. -/
def store (order : ByteOrder) (field : Field) (number : Nat) (storage : Storage) : Storage :=
  fun index =>
    if field.Covers index then
      match order with
      | .little => octet number (index - field.offset)
      | .big => octet number (field.stop - 1 - index)
    else storage index

/-- The value-level conversion between host and network order. It is the same
function in both directions and the identity on a big-endian host. -/
def swap (order : ByteOrder) (width number : Nat) : Nat :=
  match order with
  | .big => number
  | .little => value width (fun index => octet number (width - 1 - index))

/-- Replace a field by its converted value. -/
def convert (order : ByteOrder) (field : Field) (storage : Storage) : Storage :=
  store order field (swap order field.width (load order field storage)) storage

/-- Convert several fields one after another. -/
def convertAll (order : ByteOrder) (fields : List Field) (storage : Storage) : Storage :=
  fields.foldl (fun current field => convert order field current) storage

/-! ## Digits -/

/-- A number depends on its digits only. -/
theorem value_congr (width : Nat) {left right : Nat → UInt8}
    (same : ∀ index < width, left index = right index) : value width left = value width right := by
  induction width generalizing left right with
  | zero => rfl
  | succ width inductionHypothesis =>
    have tail := @inductionHypothesis (fun index => left (index + 1))
      (fun index => right (index + 1)) (fun index inside => same _ (by omega))
    simp only [value, same 0 (by omega), tail]

/-- As many digits hold no larger number. -/
theorem value_bound (width : Nat) (digits : Nat → UInt8) : value width digits < 256 ^ width := by
  induction width generalizing digits with
  | zero => simp [value]
  | succ width inductionHypothesis =>
    have low : (digits 0).toNat < 256 := (digits 0).toNat_lt
    have high := inductionHypothesis (fun index => digits (index + 1))
    simp only [value, Nat.pow_succ]
    omega

/-- Each digit of an assembled number is the supplied one. -/
theorem octet_value (width : Nat) (digits : Nat → UInt8) (position : Nat)
    (inside : position < width) : octet (value width digits) position = digits position := by
  induction width generalizing digits position with
  | zero => omega
  | succ width inductionHypothesis =>
    have low : (digits 0).toNat < 256 := (digits 0).toNat_lt
    cases position with
    | zero =>
      apply UInt8.toNat_inj.mp
      simp [octet, value]
    | succ position =>
      have shifted := inductionHypothesis (fun index => digits (index + 1)) position (by omega)
      have quotient : value (width + 1) digits / 256 ^ (position + 1) =
          value width (fun index => digits (index + 1)) / 256 ^ position := by
        rw [Nat.pow_succ', ← Nat.div_div_eq_div_mul, value,
          Nat.add_mul_div_left _ _ (by decide : 0 < 256), Nat.div_eq_of_lt low, Nat.zero_add]
      simpa only [octet, quotient] using shifted

/-- Assembling a number's own low digits returns it modulo the field's range. -/
theorem value_octet (width number : Nat) : value width (octet number) = number % 256 ^ width := by
  induction width generalizing number with
  | zero => simp [value, Nat.mod_one]
  | succ width inductionHypothesis =>
    have digits : (fun index => octet number (index + 1)) = octet (number / 256) := by
      funext index
      simp only [octet, Nat.pow_succ', Nat.div_div_eq_div_mul]
    rw [value, digits, inductionHypothesis, Nat.pow_succ', Nat.mod_mul]
    simp [octet]

/-! ## Loads and stores -/

/-- What a field says depends on its octets only. -/
theorem load_congr (order : ByteOrder) (field : Field) {left right : Storage}
    (same : ∀ index, field.Covers index → left index = right index) :
    load order field left = load order field right := by
  cases order with
  | little =>
    exact value_congr _ fun index inside => same _ ⟨by omega, by simp only [Field.stop]; omega⟩
  | big =>
    exact value_congr _ fun index inside => same _ ⟨by omega, by simp only [Field.stop]; omega⟩

/-- A field holds no larger number than its octets can. -/
theorem load_bound (order : ByteOrder) (field : Field) (storage : Storage) :
    load order field storage < 256 ^ field.width := by
  cases order <;> exact value_bound _ _

/-- Storing into a field leaves the octets outside it. -/
theorem store_outside {order : ByteOrder} {field : Field} {number : Nat} {storage : Storage}
    {index : Nat} (outside : ¬ field.Covers index) :
    store order field number storage index = storage index := if_neg outside

/-- A stored number is read back modulo the field's range. -/
theorem load_store (order : ByteOrder) (field : Field) (number : Nat) (storage : Storage) :
    load order field (store order field number storage) = number % 256 ^ field.width := by
  rw [← value_octet]
  cases order with
  | little =>
    apply value_congr
    intro index inside
    have covered : field.Covers (field.offset + index) := ⟨by omega, by simp only [Field.stop]; omega⟩
    simp only [store, if_pos covered, Nat.add_sub_cancel_left]
  | big =>
    apply value_congr
    intro index inside
    have covered : field.Covers (field.offset + (field.width - 1 - index)) :=
      ⟨by omega, by simp only [Field.stop]; omega⟩
    have position : field.stop - 1 - (field.offset + (field.width - 1 - index)) = index := by
      simp only [Field.stop]
      omega
    simp only [store, if_pos covered, position]

/-- Storing into a field leaves what another one says that is apart from it. -/
theorem load_store_apart {order : ByteOrder} {field other : Field} {number : Nat}
    {storage : Storage} (apart : other.Apart field) :
    load order field (store order other number storage) = load order field storage :=
  load_congr order field fun _ inside =>
    store_outside (Field.not_covers_of_apart apart inside)

/-- Octets in the other order are as many. -/
theorem swap_bound (order : ByteOrder) (width number : Nat) (bounded : number < 256 ^ width) :
    swap order width number < 256 ^ width := by
  cases order with
  | big => exact bounded
  | little => exact value_bound _ _

/-- Storing a converted number leaves the octets of the number in network order. -/
theorem store_swap (order : ByteOrder) (field : Field) (number : Nat) (storage : Storage) :
    store order field (swap order field.width number) storage = store .big field number storage := by
  cases order with
  | big => rfl
  | little =>
    funext index
    by_cases inside : field.Covers index
    · have bounds := inside
      simp only [Field.Covers, Field.stop] at bounds
      have place : field.width - 1 - (index - field.offset) = field.stop - 1 - index := by
        simp only [Field.stop]
        omega
      simp only [store, if_pos inside, swap]
      rw [octet_value _ _ _ (by omega), place]
    · rw [store_outside inside, store_outside inside]

/-- A store depends on nothing but the octets outside its field. -/
theorem store_congr {order : ByteOrder} {field : Field} {number : Nat} {left right : Storage}
    {index : Nat} (same : ¬ field.Covers index → left index = right index) :
    store order field number left index = store order field number right index := by
  by_cases inside : field.Covers index
  · simp only [store, if_pos inside]
  · rw [store_outside inside, store_outside inside, same inside]

/-- A second store of the same field hides the first. -/
theorem store_store {order writer : ByteOrder} {field : Field} {number other : Nat}
    {storage : Storage} :
    store order field number (store writer field other storage) = store order field number storage := by
  funext index
  exact store_congr fun outside => store_outside outside

/-- Storing what a field already holds changes nothing. -/
theorem store_load (order : ByteOrder) (field : Field) (storage : Storage) :
    store order field (load order field storage) storage = storage := by
  funext index
  by_cases inside : field.Covers index
  · have bounds := inside
    simp only [Field.Covers, Field.stop] at bounds
    cases order with
    | little =>
      have place : field.offset + (index - field.offset) = index := by omega
      simp only [store, if_pos inside, load]
      rw [octet_value _ _ _ (by omega), place]
    | big =>
      have place : field.offset + (field.width - 1 - (field.stop - 1 - index)) = index := by
        simp only [Field.stop]
        omega
      simp only [store, if_pos inside, load]
      rw [octet_value _ _ _ (by simp only [Field.stop]; omega), place]
  · exact store_outside inside

/-! ## Octets moved singly or in blocks -/

/-- Replace one octet. -/
def setOctet (offset : Nat) (value : UInt8) (data : Storage) : Storage :=
  fun index => if index = offset then value else data index

/-- Copy octets to the same place in another storage. -/
def copyOctets (offset width : Nat) (source target : Storage) : Storage :=
  fun index => if offset ≤ index ∧ index < offset + width then source index else target index

/-- All octets but one are left. -/
theorem setOctet_other {offset index : Nat} {value : UInt8} {data : Storage}
    (other : index ≠ offset) : setOctet offset value data index = data index := if_neg other

/-- The octet that was set. -/
theorem setOctet_same {offset : Nat} {value : UInt8} {data : Storage} :
    setOctet offset value data offset = value := if_pos rfl

/-- An octet outside a field does not change what the field says. -/
theorem load_setOctet {order : ByteOrder} {field : Field} {offset : Nat} {value : UInt8}
    {data : Storage} (outside : ¬ field.Covers offset) :
    load order field (setOctet offset value data) = load order field data :=
  load_congr order field fun _ inside => setOctet_other fun same => outside (same ▸ inside)

/-- Octets that are copied elsewhere do not change what a field says. -/
theorem load_copyOctets {order : ByteOrder} {field : Field} {offset width : Nat}
    {source target : Storage} (apart : field.stop ≤ offset ∨ offset + width ≤ field.offset) :
    load order field (copyOctets offset width source target) = load order field target := by
  refine load_congr order field fun index inside => if_neg ?_
  have low := inside.1
  have high := inside.2
  omega

/-! ## Conversion of one field -/

/-- Turning a field leaves the octets outside it. -/
theorem convert_outside {order : ByteOrder} {field : Field} {storage : Storage} {index : Nat}
    (outside : ¬ field.Covers index) : convert order field storage index = storage index :=
  store_outside outside

/-- On a big-endian host a conversion changes nothing. -/
theorem convert_big (field : Field) (storage : Storage) :
    convert .big field storage = storage := store_load .big field storage

/-- On a little-endian host a conversion reverses the field's octets. -/
theorem convert_little (field : Field) (storage : Storage) (index : Nat)
    (inside : field.Covers index) :
    convert .little field storage index =
      storage (field.offset + (field.width - 1 - (index - field.offset))) := by
  have bounds := inside
  simp only [Field.Covers, Field.stop] at bounds
  simp only [convert, store, if_pos inside, swap, load]
  rw [octet_value _ _ _ (by omega), octet_value _ _ _ (by omega)]

/-- The two directions of a conversion cancel. -/
@[simp] theorem convert_convert (order : ByteOrder) (field : Field) (storage : Storage) :
    convert order field (convert order field storage) = storage := by
  cases order with
  | big => simp only [convert_big]
  | little =>
    funext index
    by_cases inside : field.Covers index
    · have bounds := inside
      simp only [Field.Covers, Field.stop] at bounds
      have mirrored : field.Covers (field.offset + (field.width - 1 - (index - field.offset))) :=
        ⟨by omega, by simp only [Field.stop]; omega⟩
      rw [convert_little field _ index inside, convert_little field storage _ mirrored]
      congr 1
      omega
    · rw [convert_outside inside, convert_outside inside]

/-- After a conversion the host reads what the network image held before it. -/
theorem load_convert (order : ByteOrder) (field : Field) (storage : Storage) :
    load order field (convert order field storage) = load .big field storage := by
  cases order with
  | big => rw [convert_big]
  | little =>
    apply value_congr
    intro index inside
    have covered : field.Covers (field.offset + index) := ⟨by omega, by simp only [Field.stop]; omega⟩
    rw [convert_little field storage _ covered, Nat.add_sub_cancel_left]

/-- After a conversion the network image holds what the host read before it. -/
theorem network_convert (order : ByteOrder) (field : Field) (storage : Storage) :
    load .big field (convert order field storage) = load order field storage := by
  rw [← load_convert order, convert_convert]

/-- A conversion depends only on the octets of its own field. -/
theorem convert_congr (order : ByteOrder) (field : Field) {left right : Storage}
    (same : ∀ index, field.Covers index → left index = right index) (index : Nat)
    (inside : field.Covers index) :
    convert order field left index = convert order field right index := by
  simp only [convert, store, if_pos inside, load_congr order field same]

/-- Turning a field leaves what another one says that is apart from it. -/
theorem load_convert_apart {order reader : ByteOrder} {field other : Field} {storage : Storage}
    (apart : other.Apart field) :
    load reader field (convert order other storage) = load reader field storage :=
  load_congr reader field fun _ inside =>
    convert_outside (Field.not_covers_of_apart apart inside)

/-- A conversion and a store of another field do not interfere. -/
theorem convert_store_apart {order writer : ByteOrder} {field other : Field} {number : Nat}
    {storage : Storage} (apart : other.Apart field) :
    convert order field (store writer other number storage) =
      store writer other number (convert order field storage) := by
  funext index
  by_cases inside : field.Covers index
  · rw [store_outside (Field.not_covers_of_apart apart inside)]
    exact convert_congr order field (fun _ covered =>
      store_outside (Field.not_covers_of_apart apart covered)) index inside
  · rw [convert_outside inside]
    exact store_congr fun _ => (convert_outside inside).symm

/-- The value returned by converting in place is the field's network value. -/
theorem swap_load (order : ByteOrder) (field : Field) (storage : Storage) :
    swap order field.width (load order field storage) = load .big field storage := by
  have bounded := swap_bound order field.width _ (load_bound order field storage)
  rw [← load_convert order field storage, convert, load_store, Nat.mod_eq_of_lt bounded]

/-- A conversion changes nothing exactly where both byte orders read the same. -/
theorem convert_same_iff (order : ByteOrder) (field : Field) (storage : Storage) :
    (∀ index, field.Covers index → convert order field storage index = storage index) ↔
      load .big field storage = load order field storage := by
  constructor
  · intro same
    rw [← load_congr .big field same, network_convert]
  · intro alike index _
    rw [convert, swap_load, alike, store_load]

/-! ## Conversion of several disjoint fields -/

/-- Fields are turned one after the other. -/
theorem convertAll_cons (order : ByteOrder) (field : Field) (fields : List Field)
    (storage : Storage) :
    convertAll order (field :: fields) storage =
      convertAll order fields (convert order field storage) := rfl

/-- The same for two lists of fields. -/
theorem convertAll_append (order : ByteOrder) (left right : List Field) (storage : Storage) :
    convertAll order (left ++ right) storage =
      convertAll order right (convertAll order left storage) := List.foldl_append

/-- Turning fields leaves the octets outside all of them. -/
theorem convertAll_outside {order : ByteOrder} {fields : List Field} {storage : Storage}
    {index : Nat} (outside : ∀ field ∈ fields, ¬ field.Covers index) :
    convertAll order fields storage index = storage index := by
  induction fields generalizing storage with
  | nil => rfl
  | cons field rest inductionHypothesis =>
    rw [convertAll_cons, inductionHypothesis fun other member => outside other (by simp [member]),
      convert_outside (outside field (by simp))]

/-- Disjoint fields convert independently: an offset of one of them sees only
that field's conversion. -/
theorem convertAll_inside {order : ByteOrder} {fields : List Field} {storage : Storage}
    (separate : fields.Pairwise Field.Apart) {field : Field} (member : field ∈ fields)
    {index : Nat} (inside : field.Covers index) :
    convertAll order fields storage index = convert order field storage index := by
  induction fields generalizing storage with
  | nil => simp at member
  | cons first rest inductionHypothesis =>
    obtain ⟨apart, restSeparate⟩ := List.pairwise_cons.mp separate
    rw [convertAll_cons]
    rcases List.mem_cons.mp member with rfl | later
    · exact convertAll_outside fun other present =>
        Field.not_covers_of_apart (Field.apart_symm (apart other present)) inside
    · rw [inductionHypothesis restSeparate later]
      exact convert_congr order field (fun tested covered =>
        convert_outside (Field.not_covers_of_apart (apart field later) covered)) index inside

/-- Turning fields leaves what a field says that is apart from all of them. -/
theorem load_convertAll_apart {order reader : ByteOrder} {fields : List Field} {other : Field}
    {storage : Storage} (apart : ∀ field ∈ fields, field.Apart other) :
    load reader other (convertAll order fields storage) = load reader other storage :=
  load_congr reader other fun _ inside => convertAll_outside fun field member =>
    Field.not_covers_of_apart (apart field member) inside

/-- Disjoint fields convert in any order. -/
theorem convertAll_perm {order : ByteOrder} {fields others : List Field}
    (same : fields.Perm others) (separate : fields.Pairwise Field.Apart) (storage : Storage) :
    convertAll order fields storage = convertAll order others storage := by
  have othersSeparate := same.pairwise separate Field.apart_symm
  funext index
  by_cases covered : ∃ field ∈ fields, field.Covers index
  · obtain ⟨field, member, inside⟩ := covered
    rw [convertAll_inside separate member inside,
      convertAll_inside othersSeparate (same.mem_iff.mp member) inside]
  · have outside : ∀ field ∈ fields, ¬ field.Covers index :=
      fun field member inside => covered ⟨field, member, inside⟩
    rw [convertAll_outside outside, convertAll_outside fun field member =>
      outside field (same.mem_iff.mpr member)]

/-- A store apart from the converted fields may be made first. -/
theorem convertAll_store_apart {order writer : ByteOrder} {fields : List Field} {other : Field}
    {number : Nat} {storage : Storage} (apart : ∀ field ∈ fields, other.Apart field) :
    convertAll order fields (store writer other number storage) =
      store writer other number (convertAll order fields storage) := by
  induction fields generalizing storage with
  | nil => rfl
  | cons field rest inductionHypothesis =>
    obtain ⟨here, later⟩ := List.forall_mem_cons.mp apart
    rw [convertAll_cons, convert_store_apart here, inductionHypothesis later, convertAll_cons]

/-- Converting disjoint fields twice restores the storage: each offset sees only
the two conversions of its own field, and those cancel. -/
theorem convertAll_convertAll {order : ByteOrder} {fields : List Field}
    (separate : fields.Pairwise Field.Apart) (storage : Storage) :
    convertAll order fields (convertAll order fields storage) = storage := by
  funext index
  by_cases covered : ∃ field ∈ fields, field.Covers index
  · obtain ⟨field, member, inside⟩ := covered
    rw [convertAll_inside separate member inside,
      convert_congr order field (fun tested present =>
        convertAll_inside separate member present) index inside, convert_convert]
  · have outside : ∀ field ∈ fields, ¬ field.Covers index :=
      fun field member inside => covered ⟨field, member, inside⟩
    rw [convertAll_outside outside, convertAll_outside outside]

/-- A field that was turned with others says to the host what it said in the order of the network.
The fields must be apart, so that none is turned twice. -/
theorem load_convertAll {order : ByteOrder} {fields : List Field} {storage : Storage}
    (separate : fields.Pairwise Field.Apart) {field : Field} (member : field ∈ fields) :
    load order field (convertAll order fields storage) = load .big field storage := by
  rw [← load_convert order field storage]
  exact load_congr order field fun _ inside => convertAll_inside separate member inside

/-- The other way, for a message that is to be sent. -/
theorem network_convertAll {order : ByteOrder} {fields : List Field} {storage : Storage}
    (separate : fields.Pairwise Field.Apart) {field : Field} (member : field ∈ fields) :
    load .big field (convertAll order fields storage) = load order field storage := by
  rw [← network_convert order field storage]
  exact load_congr .big field fun _ inside => convertAll_inside separate member inside

/-- Storages that agree on a region still agree there after converting fields
of the region. -/
theorem convertAll_congr {order : ByteOrder} {fields : List Field} {left right : Storage}
    (same : ∀ field ∈ fields, ∀ index, field.Covers index → left index = right index)
    (separate : fields.Pairwise Field.Apart) {index : Nat} (here : left index = right index) :
    convertAll order fields left index = convertAll order fields right index := by
  by_cases covered : ∃ field ∈ fields, field.Covers index
  · obtain ⟨field, member, inside⟩ := covered
    rw [convertAll_inside separate member inside, convertAll_inside separate member inside]
    exact convert_congr order field (same field member) index inside
  · have outside : ∀ field ∈ fields, ¬ field.Covers index :=
      fun field member inside => covered ⟨field, member, inside⟩
    rw [convertAll_outside outside, convertAll_outside outside, here]

end Octets
