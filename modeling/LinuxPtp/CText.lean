import Mathlib.Data.List.Infix

/-!
# Text in C

Strings as the C library reads them: a character stands for an octet, the character zero ends a
string, and classes of characters are those of the C locale.
-/

namespace LinuxPtp

/-- A string without the octet that ends it. -/
abbrev CText := List Char

namespace CText

/-- The string in a buffer. -/
def ofBuffer (buffer : List Char) : CText := buffer.takeWhile (· ≠ '\x00')

/-- `isspace`. -/
def isspace (c : Char) : Bool := c = ' ' || 9 ≤ c.toNat && c.toNat ≤ 13

/-- `strcasecmp` finds no difference. -/
def sameCase (s t : CText) : Bool := s.map Char.toLower = t.map Char.toLower

/-- What `fgets` reads from a file, call by call, into a buffer with the supplied room. The line read
so far is kept in reverse. -/
def fgetsFrom (size : Nat) : Nat → List Char → List Char → List CText
  | _, line, [] => if line.isEmpty then [] else [ofBuffer line.reverse]
  | room, line, c :: rest =>
    if c = '\n' ∨ room ≤ 1 then
      ofBuffer (c :: line).reverse :: fgetsFrom size size [] rest
    else fgetsFrom size (room - 1) (c :: line) rest

/-- The lines of a file for a buffer of `size` octets, the last of which ends the string. -/
def fgets (size : Nat) (file : List Char) : List CText :=
  fgetsFrom (size - 1) (size - 1) [] file

/-- `sscanf` with a format of a string of limited length after white space. -/
def sscanfWord (width : Nat) (s : CText) : Option CText :=
  match (s.dropWhile isspace).takeWhile fun c => !isspace c with
  | [] => none
  | c :: rest => some ((c :: rest).take width)

/-! ## Numbers -/

/-- The value of a digit, if there is one in a base. -/
def digit (base : Nat) (c : Char) : Option Nat :=
  let value : Option Nat :=
    if '0' ≤ c ∧ c ≤ '9' then some (c.toNat - '0'.toNat)
    else if 'a' ≤ c.toLower ∧ c.toLower ≤ 'z' then some (c.toLower.toNat - 'a'.toNat + 10)
    else none
  value.filter (· < base)

/-- The digits at the start of a string: their value, and what follows them. -/
def digits (base : Nat) (s : CText) : Nat × CText :=
  let run := s.takeWhile fun c => (digit base c).isSome
  (run.foldl (fun value c => value * base + (digit base c).getD 0) 0, s.drop run.length)

/-- The sign of a number. -/
def sign : CText → Int × CText
  | '-' :: rest => (-1, rest)
  | '+' :: rest => (1, rest)
  | s => (1, s)

/-- The base of a number by its first digits, and where the number begins. -/
def detectBase (s : CText) : Nat × CText :=
  match s with
  | '0' :: x :: rest =>
    if x.toLower = 'x' ∧ rest.head?.any fun c => (digit 16 c).isSome then (16, rest) else (8, s)
  | '0' :: _ => (8, s)
  | _ => (10, s)

/-- `strtol` with the base 0: the number, and what follows it, if there is a number. -/
def strtol (s : CText) : Option (Int × CText) :=
  let (sign, unsigned) := sign (s.dropWhile isspace)
  let (base, number) := detectBase unsigned
  let (value, rest) := digits base number
  if rest.length = number.length then none else some (sign * value, rest)

example : strtol "-0x1fz".toList = some (-31, ['z']) := by decide

/-! ## Names of names -/

/-- Where two names that are joined by a point can be one: they are the same, or the point is
another one. -/
theorem join_eq {c : Char} {first second s t : CText} (plain : c ∉ first)
    (same : s ++ c :: t = first ++ c :: second) :
    s = first ∧ t = second ∨ c :: t <:+ second := by
  rcases List.append_eq_append_iff.mp same with ⟨rest, longer, follows⟩ | ⟨rest, longer, follows⟩
  · cases rest with
    | nil =>
      left
      rw [List.append_nil] at longer
      rw [List.nil_append] at follows
      exact ⟨longer.symm, List.cons.inj follows |>.2⟩
    | cons head rest =>
      exfalso
      rw [List.cons_append] at follows
      obtain ⟨rfl, _⟩ := List.cons.inj follows
      rw [longer] at plain
      exact plain (List.mem_append_right _ List.mem_cons_self)
  · cases rest with
    | nil =>
      left
      rw [List.append_nil] at longer
      rw [List.nil_append] at follows
      exact ⟨longer, (List.cons.inj follows |>.2).symm⟩
    | cons head rest =>
      right
      rw [List.cons_append] at follows
      obtain ⟨_, rfl⟩ := List.cons.inj follows
      exact List.suffix_append _ _

end CText

end LinuxPtp
