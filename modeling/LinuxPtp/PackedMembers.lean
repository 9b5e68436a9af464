import LinuxPtp.OctetLists

/-!
# Members of packed structures

A packed structure is a list of members that follow one another without gaps. What a host writes of
it and what it reads are given apart; where the values fit, it reads what it wrote.

Writing and reading go by the same list of members. The list can be cut anywhere, so a structure
with a text in the middle is handled in the same way as one of fixed size.
-/

namespace Octets

/-- A member with its value. -/
inductive Member where
  | number (width value : Nat)
  | signed (width : Nat) (value : Int)
  | octets (list : List UInt8)
  /-- Octets that nobody reads. -/
  | spare (list : List UInt8)

namespace Member

/-- What a host writes. -/
def written (order : ByteOrder) : Member → List UInt8
  | number width value => image order width value
  | signed width value => image order width (value % 256 ^ width).toNat
  | octets list => list
  | spare list => list

def width : Member → Nat
  | number width _ => width
  | signed width _ => width
  | octets list => list.length
  | spare list => list.length

/-- The member has room for the value. -/
def Fits : Member → Prop
  | number width value => value < 256 ^ width
  | signed width value => -(256 ^ width : Int) ≤ value * 2 ∧ value * 2 < 256 ^ width
  | octets _ => True
  | spare _ => True

/-- A host reads the value at an offset. -/
def Reads (order : ByteOrder) (data : Storage) (offset : Nat) : Member → Prop
  | number width value => load order ⟨offset, width⟩ data = value
  | signed width value => (load order ⟨offset, width⟩ data : Int).bmod (256 ^ width) = value
  | octets list => octetsAt offset list.length data = list
  | spare _ => True

/-- An octet that is read of a member at an offset. -/
def Needs (offset index : Nat) : Member → Prop
  | spare _ => False
  | member => offset ≤ index ∧ index < offset + member.width

end Member

/-- What a host writes of members that follow one another. -/
def packed (order : ByteOrder) (members : List Member) : List UInt8 :=
  members.flatMap (Member.written order)

/-- The room that members take. -/
def room (members : List Member) : Nat := (members.map Member.width).sum

/-- A host reads the values of members that follow one another. -/
def Holds (order : ByteOrder) (data : Storage) : Nat → List Member → Prop
  | _, [] => True
  | offset, member :: rest =>
    member.Reads order data offset ∧ Holds order data (offset + member.width) rest

/-- An octet that is read of members that follow one another. -/
def Needed : Nat → List Member → Nat → Prop
  | _, [], _ => False
  | offset, member :: rest, index =>
    member.Needs offset index ∨ Needed (offset + member.width) rest index

section Members

variable {order : ByteOrder} {data other : Storage} {offset : Nat} {members : List Member}

@[simp] theorem written_length (member : Member) :
    (member.written order).length = member.width := by
  cases member <;> simp [Member.written, Member.width]

@[simp] theorem room_nil : room [] = 0 := rfl

@[simp] theorem room_cons (member : Member) : room (member :: members) = member.width + room members :=
  rfl

@[simp] theorem packed_nil : packed order [] = [] := rfl

@[simp] theorem packed_cons (member : Member) :
    packed order (member :: members) = member.written order ++ packed order members := rfl

@[simp] theorem packed_length : (packed order members).length = room members := by
  induction members with
  | nil => rfl
  | cons member rest inductionHypothesis => simp [inductionHypothesis]

theorem packed_append (more : List Member) :
    packed order (members ++ more) = packed order members ++ packed order more :=
  List.flatMap_append

theorem room_append (more : List Member) : room (members ++ more) = room members + room more := by
  simp [room]

theorem octetsAt_add (first second : Nat) :
    octetsAt offset (first + second) data =
      octetsAt offset first data ++ octetsAt (offset + first) second data := by
  unfold octetsAt
  rw [List.range_add, List.map_append, List.map_map]
  congr 1
  refine List.map_congr_left fun index _ => ?_
  change data (offset + (first + index)) = data (offset + first + index)
  rw [Nat.add_assoc]

/-- Octets read at once are those read one after the other. -/
theorem octetsAt_append {first second : List UInt8} :
    octetsAt offset (first ++ second).length data = first ++ second ↔
      octetsAt offset first.length data = first ∧
        octetsAt (offset + first.length) second.length data = second := by
  rw [List.length_append, octetsAt_add]
  constructor
  · intro same
    exact List.append_inj same octetsAt_length
  · rintro ⟨one, two⟩
    rw [one, two]

/-- The octets of a number in memory are the image of the number. -/
theorem image_load {width : Nat} :
    image order width (load order ⟨offset, width⟩ data) = octetsAt offset width data := by
  refine List.ext_getElem (by simp) fun index listed _ => ?_
  have inside : index < width := by rwa [image_length] at listed
  cases order with
  | little =>
    simp only [image, load, octetsAt, List.getElem_map, List.getElem_range]
    rw [octet_value _ _ _ inside]
  | big =>
    simp only [image, load, octetsAt, List.getElem_map, List.getElem_range]
    rw [octet_value _ _ _ (by omega)]
    congr 1
    omega

theorem load_one : load order ⟨offset, 1⟩ data = (data offset).toNat := by
  cases order <;> simp [load, value]

theorem image_one {number : Nat} : image order 1 number = [UInt8.ofNat number] := by
  cases order <;> simp [image, octet]

/-- A value that fits is read as it was written. -/
theorem reads_of_written {member : Member} (fits : member.Fits)
    (there : octetsAt offset member.width data = member.written order) :
    member.Reads order data offset := by
  cases member with
  | number width value => exact (load_image there).trans (Nat.mod_eq_of_lt fits)
  | signed width value =>
    obtain ⟨low, high⟩ := fits
    have positive : (0 : Int) < 256 ^ width := Int.pow_pos (by decide)
    have cast : ((256 ^ width : Nat) : Int) = 256 ^ width := by simp
    have whole : ((value % 256 ^ width).toNat : Int) = value % (256 ^ width : Nat) := by
      rw [cast, Int.toNat_of_nonneg (Int.emod_nonneg _ (ne_of_gt positive))]
    have below : (value % 256 ^ width).toNat < 256 ^ width := by
      have bound := Int.emod_lt_of_pos value positive
      omega
    have read : load order ⟨offset, width⟩ data = (value % 256 ^ width).toNat % 256 ^ width :=
      load_image there
    change (load order ⟨offset, width⟩ data : Int).bmod (256 ^ width) = value
    rw [read, Nat.mod_eq_of_lt below, whole, Int.emod_bmod]
    exact Int.bmod_eq_of_le_mul_two (by rw [cast]; exact low) (by rw [cast]; exact high)
  | octets list => exact there
  | spare list => trivial

/-- Members that fit are read as they were written. -/
theorem holds_of_packed (fits : ∀ member ∈ members, member.Fits)
    (there : octetsAt offset (room members) data = packed order members) :
    Holds order data offset members := by
  induction members generalizing offset with
  | nil => trivial
  | cons member rest inductionHypothesis =>
    rw [← @packed_length order, packed_cons] at there
    obtain ⟨first, later⟩ := octetsAt_append.mp there
    rw [written_length] at first later
    rw [packed_length] at later
    exact ⟨reads_of_written (fits member List.mem_cons_self) first,
      inductionHypothesis (fun other member => fits other (List.mem_cons_of_mem _ member)) later⟩

@[simp] theorem needs_number {width value index : Nat} :
    (Member.number width value).Needs offset index ↔ offset ≤ index ∧ index < offset + width :=
  Iff.rfl

@[simp] theorem needs_octets {list : List UInt8} {index : Nat} :
    (Member.octets list).Needs offset index ↔ offset ≤ index ∧ index < offset + list.length :=
  Iff.rfl

@[simp] theorem needs_spare {list : List UInt8} {index : Nat} :
    ¬(Member.spare list).Needs offset index := id

/-- Reading looks at nothing but what it needs. -/
theorem reads_congr {member : Member} (same : ∀ index, member.Needs offset index →
    data index = other index) (reads : member.Reads order data offset) :
    member.Reads order other offset := by
  cases member with
  | number width value =>
    have equal : load order ⟨offset, width⟩ other = load order ⟨offset, width⟩ data :=
      load_congr order _ fun index inside => (same index ⟨inside.1, inside.2⟩).symm
    exact equal.trans reads
  | signed width value =>
    have equal : load order ⟨offset, width⟩ other = load order ⟨offset, width⟩ data :=
      load_congr order _ fun index inside => (same index ⟨inside.1, inside.2⟩).symm
    change (load order ⟨offset, width⟩ other : Int).bmod (256 ^ width) = value
    rw [equal]
    exact reads
  | octets list =>
    exact (octetsAt_congr fun index low high => (same index ⟨low, high⟩).symm).trans reads
  | spare list => trivial

/-- Members that are read depend on the octets they need and on no others. -/
theorem holds_congr (same : ∀ index, Needed offset members index → data index = other index)
    (holds : Holds order data offset members) : Holds order other offset members := by
  induction members generalizing offset with
  | nil => trivial
  | cons member rest inductionHypothesis =>
    obtain ⟨reads, later⟩ := holds
    exact ⟨reads_congr (fun index needs => same index (Or.inl needs)) reads,
      inductionHypothesis (fun index needed => same index (Or.inr needed)) later⟩

/-- Whatever is read of members lies where they are. -/
theorem needed_bounds {index : Nat} (needed : Needed offset members index) :
    offset ≤ index ∧ index < offset + room members := by
  induction members generalizing offset with
  | nil => exact needed.elim
  | cons member rest inductionHypothesis =>
    rw [room_cons]
    rcases needed with needs | later
    · have bounds : offset ≤ index ∧ index < offset + member.width := by
        cases member with
        | spare list => exact needs.elim
        | number | signed | octets => exact needs
      omega
    · have bounds := inductionHypothesis later
      omega

end Members

/-! ## Structures that are copied -/

/-- What a member of a structure in memory is. -/
inductive Kind where
  | number (width : Nat)
  | octets (width : Nat)

def Kind.width : Kind → Nat
  | number width => width
  | octets width => width

/-- The members of a structure in memory. -/
def membersOf (order : ByteOrder) (data : Storage) : Nat → List Kind → List Member
  | _, [] => []
  | offset, .number width :: rest =>
    .number width (load order ⟨offset, width⟩ data) :: membersOf order data (offset + width) rest
  | offset, .octets width :: rest =>
    .octets (octetsAt offset width data) :: membersOf order data (offset + width) rest

section Copies

variable {order : ByteOrder} {data : Storage} {offset : Nat} {kinds : List Kind}

@[simp] theorem room_membersOf :
    room (membersOf order data offset kinds) = (kinds.map Kind.width).sum := by
  induction kinds generalizing offset with
  | nil => rfl
  | cons kind rest inductionHypothesis =>
    cases kind <;> simp [membersOf, inductionHypothesis, Member.width, Kind.width]

/-- Copying a structure writes its members. -/
theorem packed_membersOf :
    packed order (membersOf order data offset kinds) =
      octetsAt offset (kinds.map Kind.width).sum data := by
  induction kinds generalizing offset with
  | nil => rfl
  | cons kind rest inductionHypothesis =>
    rw [List.map_cons, List.sum_cons, octetsAt_add]
    cases kind <;>
      simp only [membersOf, packed_cons, inductionHypothesis, Member.written, image_load, Kind.width]

/-- What is in memory fits. -/
theorem fits_membersOf : ∀ member ∈ membersOf order data offset kinds, member.Fits := by
  induction kinds generalizing offset with
  | nil => simp [membersOf]
  | cons kind rest inductionHypothesis =>
    cases kind <;> rw [membersOf] <;>
      refine List.forall_mem_cons.mpr ⟨?_, inductionHypothesis⟩
    · exact load_bound order _ data
    · trivial

end Copies

end Octets
