import LinuxPtp.Octets

/-!
# Lists of octets in storage

Copying memory moves a list of octets out of one storage and into another. A number that a host
keeps in some octets is the list of these octets in the order of the host.
-/

namespace Octets

/-- The octets of a region. -/
def octetsAt (offset width : Nat) (data : Storage) : List UInt8 :=
  (List.range width).map fun index => data (offset + index)

/-- Write octets to a region. -/
def writeOctets (offset : Nat) (octets : List UInt8) (data : Storage) : Storage := fun index =>
  if offset ≤ index then octets[index - offset]?.getD (data index) else data index

/-- The octets of a number in the memory of a host. -/
def image (order : ByteOrder) (width number : Nat) : List UInt8 :=
  match order with
  | .little => (List.range width).map (octet number)
  | .big => (List.range width).map fun index => octet number (width - 1 - index)

section Lists

variable {offset width index : Nat} {octets : List UInt8} {data other : Storage}

@[simp] theorem octetsAt_length : (octetsAt offset width data).length = width := by
  simp [octetsAt]

@[simp] theorem image_length {order : ByteOrder} {number : Nat} :
    (image order width number).length = width := by
  cases order <;> simp [image]

theorem writeOctets_outside (outside : index < offset ∨ offset + octets.length ≤ index) :
    writeOctets offset octets data index = data index := by
  unfold writeOctets
  split
  next after =>
    rw [List.getElem?_eq_none (by omega)]
    rfl
  next => rfl

theorem writeOctets_inside (inside : index < octets.length) :
    writeOctets offset octets data (offset + index) = octets.get ⟨index, inside⟩ := by
  unfold writeOctets
  rw [if_pos (Nat.le_add_right offset index), Nat.add_sub_cancel_left,
    List.getElem?_eq_getElem inside]
  rfl

/-- What was written is there. -/
theorem octetsAt_writeOctets :
    octetsAt offset octets.length (writeOctets offset octets data) = octets := by
  refine List.ext_get (by simp) fun index _ inside => ?_
  rw [← @writeOctets_inside offset index octets data inside]
  simp [octetsAt]

theorem octetsAt_congr (same : ∀ index, offset ≤ index → index < offset + width →
    data index = other index) : octetsAt offset width data = octetsAt offset width other := by
  refine List.map_congr_left fun index member => ?_
  have inside := List.mem_range.mp member
  exact same _ (by omega) (by omega)

/-- Regions that do not meet do not disturb each other. -/
theorem load_writeOctets {order : ByteOrder} {field : Field}
    (apart : field.stop ≤ offset ∨ offset + octets.length ≤ field.offset) :
    load order field (writeOctets offset octets data) = load order field data := by
  refine load_congr order field fun index inside => writeOctets_outside ?_
  have low := inside.1
  have high := inside.2
  omega

/-- A number is read as it was written. -/
theorem load_image {order : ByteOrder} {number : Nat}
    (there : octetsAt offset width data = image order width number) :
    load order ⟨offset, width⟩ data = number % 256 ^ width := by
  have digit : ∀ index < width, data (offset + index) =
      match order with
      | .little => octet number index
      | .big => octet number (width - 1 - index) := by
    intro index inside
    have same := congrArg (fun list => list[index]?) there
    cases order <;> simpa [octetsAt, image, inside] using same
  rw [← value_octet]
  cases order with
  | little => exact value_congr _ fun index inside => digit index inside
  | big =>
    apply value_congr width
    intro index inside
    have place : width - 1 - (width - 1 - index) = index := by omega
    rw [digit (width - 1 - index) (by omega), place]

end Lists

end Octets
