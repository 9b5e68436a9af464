import LinuxPtp.Suffix
import LinuxPtp.MsgParse

/-!
# Building a message TLV by TLV

`msg_tlv_append` places each TLV behind the last one, as that TLV's own length
field has it, and counts the octets in `messageLength` on the side. The caller
then fills the TLV, its length field included. `Consistent` says that both
agree; an append keeps it, and accepts exactly what still fits.

Pointers are offsets from the start of the buffer, and `tail_room` lies directly
behind it. Whether a descriptor can be allocated is left open.
-/

namespace LinuxPtp

open Octets

section Code

variable (order : ByteOrder)

/-- Where `msg_tlv_prepare` looks for room: behind the last TLV, if there is one. -/
def tlvPtr (msg : Message) (suffix : Nat) : Nat :=
  match msg.tlvList.getLast? with
  | none => suffix
  | some tmp => tmp.tlv + 2 + 2 + load order (Tlv.length.shift tmp.tlv) msg.data

/-- `msg_tlv_prepare`. -/
def msgTlvPrepare (allocated : Bool) (msg : Message) (length : Nat) : Option TlvExtra :=
  match (msgType msg.data).bind msgSuffix with
  | none => none
  | some suffix =>
    let ptr := tlvPtr order msg suffix
    if ptr + length > messageDataSize then none
    else if allocated then some { tlv := ptr } else none

/-- `msg_tlv_append`: the message afterwards and the descriptor, if there is one. -/
def msgTlvAppend (allocated : Bool) (msg : Message) (length : Nat) : Message × Option TlvExtra :=
  match msgTlvPrepare order allocated msg length with
  | none => (msg, none)
  | some extra =>
    let messageLength := load order PtpHeader.messageLength msg.data + length
    (attach { msg with data := store order PtpHeader.messageLength messageLength msg.data } extra,
      some extra)

/-- A caller fills the octets it has asked for, and the length field with them. -/
def fillTlv (start size : Nat) (content data : Storage) : Storage :=
  store order (Tlv.length.shift start) (size - Tlv.size) (copyOctets start size content data)

/-- What a caller asks for and what it then writes. -/
structure AppendCall where
  size : Nat
  content : Storage
  allocated : Bool := true

/-- One append by a caller that fills what it gets. -/
def appendStep (msg : Message) (append : AppendCall) : Message :=
  match msgTlvAppend order append.allocated msg append.size with
  | (msg, none) => msg
  | (msg, some extra) =>
    { msg with data := fillTlv order extra.tlv append.size append.content msg.data }

/-- The sizes of the appends that are not refused. -/
def acceptedSizes : Message → List AppendCall → List Nat
  | _, [] => []
  | msg, append :: appends =>
    let later := acceptedSizes (appendStep order msg append) appends
    if (msgTlvAppend order append.allocated msg append.size).2.isSome then append.size :: later
    else later

end Code

/-! ## TLVs in a row -/

/-- TLVs that follow one another without a gap, by their own length fields. -/
inductive Stacked (order : ByteOrder) (data : Storage) : Nat → List Nat → Nat → Prop where
  | none (start : Nat) : Stacked order data start [] start
  | tlv {start stop : Nat} {rest : List Nat}
      (others : Stacked order data (tlvStop order data start) rest stop) :
      Stacked order data start (start :: rest) stop

section Row

variable {order : ByteOrder} {data other : Storage} {start stop : Nat} {starts : List Nat}

theorem tlvStop_behind : start + Tlv.size ≤ tlvStop order data start := by
  simp only [tlvStop, Tlv.size]
  omega

theorem stacked_le (stacked : Stacked order data start starts stop) : start ≤ stop := by
  induction stacked with
  | none => exact Nat.le_refl _
  | @tlv start _ _ others inductionHypothesis =>
    have behind := @tlvStop_behind order data start
    omega

/-- Every TLV of a row lies inside it. -/
theorem stacked_member (stacked : Stacked order data start starts stop) :
    ∀ member ∈ starts, start ≤ member ∧ tlvStop order data member ≤ stop := by
  induction stacked with
  | none => simp
  | @tlv start _ _ others inductionHypothesis =>
    have behind := @tlvStop_behind order data start
    rintro member present
    rcases List.mem_cons.mp present with rfl | later
    · exact ⟨Nat.le_refl _, stacked_le others⟩
    · obtain ⟨low, high⟩ := inductionHypothesis member later
      exact ⟨by omega, high⟩

/-- No octet belongs to two TLVs of a row. -/
theorem stacked_disjoint (stacked : Stacked order data start starts stop) :
    starts.Pairwise fun first later => tlvStop order data first ≤ later := by
  induction stacked with
  | none => exact List.Pairwise.nil
  | tlv others inductionHypothesis =>
    exact List.pairwise_cons.mpr
      ⟨fun later member => (stacked_member others later member).1, inductionHypothesis⟩

/-- A row ends where its last TLV does. -/
theorem stacked_last (stacked : Stacked order data start starts stop) {last : Nat}
    (final : starts.getLast? = some last) : tlvStop order data last = stop := by
  induction stacked with
  | none => cases final
  | @tlv start stop rest others inductionHypothesis =>
    cases others with
    | none => exact Option.some.inj final ▸ rfl
    | tlv others =>
      rw [List.getLast?_cons_cons] at final
      exact inductionHypothesis final

/-- A row depends only on the octets inside it. -/
theorem stacked_congr (stacked : Stacked order data start starts stop)
    (same : ∀ index, start ≤ index → index < stop → data index = other index) :
    Stacked order other start starts stop := by
  induction stacked with
  | none start => exact .none start
  | @tlv start stop rest others inductionHypothesis =>
    have behind := @tlvStop_behind order data start
    have inside := stacked_le others
    have ends : tlvStop order other start = tlvStop order data start := by
      refine congrArg (start + 4 + ·) (load_congr order _ fun index covered => ?_)
      obtain ⟨low, high⟩ := covered
      simp only [Field.stop, Tlv.size] at low high behind
      exact (same index (by omega) (by omega)).symm
    refine .tlv ?_
    rw [ends]
    exact inductionHypothesis fun index low => same index (by simp only [Tlv.size] at behind; omega)

/-- A TLV at the end of a row makes it longer. -/
theorem stacked_append (stacked : Stacked order data start starts stop) :
    Stacked order data start (starts ++ [stop]) (tlvStop order data stop) := by
  induction stacked with
  | none start => exact .tlv (.none _)
  | tlv others inductionHypothesis => exact .tlv inductionHypothesis

end Row

/-! ## One append -/

/-- The octets that a TLV occupies by its own length field. -/
def tlvOctets (order : ByteOrder) (data : Storage) (extra : TlvExtra) : Nat :=
  Tlv.size + load order (Tlv.length.shift extra.tlv) data

/-- A message whose TLVs have the listed sizes. -/
structure Consistent (order : ByteOrder) (type : MsgType) (sizes : List Nat) (msg : Message) :
    Prop where
  typed : msgType msg.data = some type
  contiguous : Stacked order msg.data (pduLen type) (msg.tlvList.map TlvExtra.tlv)
    (pduLen type + sizes.sum)
  sized : msg.tlvList.map (tlvOctets order msg.data) = sizes
  counted : msg.tlvCount = sizes.length
  length : load order PtpHeader.messageLength msg.data = pduLen type + sizes.sum
  room : pduLen type + sizes.sum ≤ messageDataSize

/-- What decides on an append. -/
structure AppendFits (type : MsgType) (sizes : List Nat) (allocated : Bool) (size : Nat) : Prop where
  admitted : (msgSuffix type).isSome
  room : pduLen type + sizes.sum + size ≤ messageDataSize
  descriptor : allocated

section Step

variable {order : ByteOrder} {type : MsgType} {sizes : List Nat} {msg : Message}
  {allocated : Bool} {size : Nat}

/-- The next TLV goes where `messageLength` points. -/
theorem tlvPtr_eq (consistent : Consistent order type sizes msg) {suffix : Nat}
    (found : msgSuffix type = some suffix) : tlvPtr order msg suffix = pduLen type + sizes.sum := by
  rw [tlvPtr]
  cases final : msg.tlvList.getLast? with
  | none =>
    have sized := consistent.sized
    rw [List.getLast?_eq_none_iff.mp final] at sized
    rw [← sized, msgSuffix_eq found]
    rfl
  | some tmp =>
    refine stacked_last consistent.contiguous ?_
    rw [List.getLast?_map, final]
    rfl

theorem msgTlvPrepare_fits (consistent : Consistent order type sizes msg)
    (fits : AppendFits type sizes allocated size) :
    msgTlvPrepare order allocated msg size = some { tlv := pduLen type + sizes.sum } := by
  obtain ⟨suffix, found⟩ := Option.isSome_iff_exists.mp fits.admitted
  have room := fits.room
  simp only [msgTlvPrepare, consistent.typed, Option.bind_some, found, tlvPtr_eq consistent found]
  rw [if_neg (by omega), if_pos fits.descriptor]

theorem msgTlvPrepare_unfit (consistent : Consistent order type sizes msg)
    (unfit : ¬ AppendFits type sizes allocated size) : msgTlvPrepare order allocated msg size = none := by
  cases found : msgSuffix type with
  | none => simp only [msgTlvPrepare, consistent.typed, Option.bind_some, found]
  | some suffix =>
    simp only [msgTlvPrepare, consistent.typed, Option.bind_some, found, tlvPtr_eq consistent found]
    by_cases room : pduLen type + sizes.sum + size > messageDataSize
    · rw [if_pos room]
    · rw [if_neg room, if_neg]
      intro descriptor
      exact unfit ⟨found ▸ rfl, by omega, descriptor⟩

theorem msgTlvAppend_unfit (consistent : Consistent order type sizes msg)
    (unfit : ¬ AppendFits type sizes allocated size) :
    msgTlvAppend order allocated msg size = (msg, none) := by
  rw [msgTlvAppend, msgTlvPrepare_unfit consistent unfit]

theorem msgTlvAppend_refused (consistent : Consistent order type sizes msg) :
    (msgTlvAppend order allocated msg size).2 = none ↔ ¬ AppendFits type sizes allocated size := by
  constructor
  · intro refused fits
    rw [msgTlvAppend, msgTlvPrepare_fits consistent fits] at refused
    cases refused
  · intro unfit
    rw [msgTlvAppend_unfit consistent unfit]

theorem msgTlvAppend_fits (consistent : Consistent order type sizes msg)
    (fits : AppendFits type sizes allocated size) :
    msgTlvAppend order allocated msg size =
      (attach { msg with
          data := store order PtpHeader.messageLength (pduLen type + sizes.sum + size) msg.data }
        { tlv := pduLen type + sizes.sum }, some { tlv := pduLen type + sizes.sum }) := by
  rw [msgTlvAppend, msgTlvPrepare_fits consistent fits]
  simp only [consistent.length]

/-- A caller leaves the octets before its TLV alone. -/
theorem fillTlv_before {content data : Storage} {start index : Nat} (before : index < start) :
    fillTlv order start size content data index = data index := by
  rw [fillTlv, store_outside]
  · exact if_neg fun inside => absurd inside.1 (Nat.not_le_of_lt before)
  · intro covered
    have low : start + Tlv.length.offset ≤ index := covered.1
    omega

theorem load_fillTlv {content data : Storage} {start : Nat} (low : Tlv.size ≤ size)
    (high : size ≤ messageDataSize) :
    load order (Tlv.length.shift start) (fillTlv order start size content data) = size - Tlv.size := by
  rw [fillTlv, load_store, Nat.mod_eq_of_lt]
  simp only [Tlv.size, messageDataSize, Field.shift_width, Tlv.length] at low high ⊢
  omega

/-- A TLV that fits makes the row longer by its size. -/
theorem appendStep_fits (consistent : Consistent order type sizes msg) {append : AppendCall}
    (sized : Tlv.size ≤ append.size) (fits : AppendFits type sizes append.allocated append.size) :
    Consistent order type (sizes ++ [append.size]) (appendStep order msg append) := by
  have pdu := pduLen_bound type
  have room := fits.room
  have whole : append.size ≤ messageDataSize := by omega
  rw [appendStep, msgTlvAppend_fits consistent fits]
  dsimp only [attach]
  generalize filled : fillTlv order (pduLen type + sizes.sum) append.size append.content
    (store order PtpHeader.messageLength (pduLen type + sizes.sum + append.size) msg.data) = data
  have same : ∀ index, pduLen type ≤ index → index < pduLen type + sizes.sum →
      msg.data index = data index := by
    intro index low before
    rw [← filled]
    rw [fillTlv_before before, store_outside]
    intro covered
    have high : index < 4 := covered.2
    omega
  have row := stacked_congr consistent.contiguous same
  have length : load order (Tlv.length.shift (pduLen type + sizes.sum)) data =
      append.size - Tlv.size := filled ▸ load_fillTlv sized whole
  have stop : tlvStop order data (pduLen type + sizes.sum) =
      pduLen type + (sizes ++ [append.size]).sum := by
    have ends : tlvStop order data (pduLen type + sizes.sum) =
        pduLen type + sizes.sum + 4 + (append.size - Tlv.size) := congrArg _ length
    rw [ends, List.sum_append, List.sum_singleton]
    simp only [Tlv.size] at sized ⊢
    omega
  refine ⟨?_, ?_, ?_, ?_, ?_, ?_⟩
  · have octet : data PtpHeader.tsmt = msg.data PtpHeader.tsmt := by
      have early : PtpHeader.tsmt < pduLen type + sizes.sum :=
        Nat.lt_of_lt_of_le (by decide) (pdu.trans (Nat.le_add_right _ _))
      rw [← filled, fillTlv_before early, store_outside (by decide)]
    rw [← consistent.typed]
    exact congrArg (fun octet : UInt8 => MsgType.ofCode (lowNibble octet.toNat)) octet
  · rw [List.map_append, ← stop]
    exact stacked_append row
  · rw [List.map_append, List.map_singleton, tlvOctets, length]
    refine congrArg₂ (· ++ ·) ?_ (by rw [Nat.add_sub_cancel' sized])
    conv_rhs => rw [← consistent.sized]
    refine List.map_congr_left fun extra member => congrArg (Tlv.size + ·) ?_
    obtain ⟨low, high⟩ :=
      stacked_member consistent.contiguous _ (List.mem_map_of_mem member)
    refine load_congr order _ fun index covered => (same index ?_ ?_).symm
    · have first := covered.1
      simp only [Field.shift_offset] at first
      omega
    · have last : index < extra.tlv + Tlv.size := covered.2
      have behind := @tlvStop_behind order msg.data extra.tlv
      omega
  · rw [List.length_append, consistent.counted]
    rfl
  · have bound : pduLen type + sizes.sum + append.size < 256 ^ PtpHeader.messageLength.width :=
      Nat.lt_of_le_of_lt room (by decide)
    have kept : ∀ index, PtpHeader.messageLength.Covers index → data index =
        store order PtpHeader.messageLength (pduLen type + sizes.sum + append.size) msg.data
          index := by
      intro index covered
      have high : index < 4 := covered.2
      rw [← filled, fillTlv_before (by omega)]
    rw [load_congr order _ kept, load_store, Nat.mod_eq_of_lt bound, List.sum_append,
      List.sum_singleton, Nat.add_assoc]
  · rw [List.sum_append, List.sum_singleton]
    omega

theorem appendStep_unfit (consistent : Consistent order type sizes msg) {append : AppendCall}
    (unfit : ¬ AppendFits type sizes append.allocated append.size) :
    appendStep order msg append = msg := by
  rw [appendStep, msgTlvAppend_unfit consistent unfit]

end Step

/-! ## Any number of appends -/

/-- A message to which nothing has been appended yet. -/
structure Blank (order : ByteOrder) (type : MsgType) (msg : Message) : Prop where
  typed : msgType msg.data = some type
  length : load order PtpHeader.messageLength msg.data = pduLen type
  bare : msg.tlvList = []
  counted : msg.tlvCount = 0

section Run

variable {order : ByteOrder} {type : MsgType} {sizes : List Nat} {msg : Message}
  {appends : List AppendCall}

theorem Blank.consistent (blank : Blank order type msg) : Consistent order type [] msg := by
  refine ⟨blank.typed, ?_, ?_, blank.counted, blank.length, ?_⟩
  · rw [blank.bare]
    exact .none _
  · rw [blank.bare]
    rfl
  · cases type <;> decide

/-- Appends keep a message consistent, and the sizes that are not refused are added. -/
theorem appends_consistent (consistent : Consistent order type sizes msg)
    (sized : ∀ append ∈ appends, Tlv.size ≤ append.size) :
    Consistent order type (sizes ++ acceptedSizes order msg appends)
      (appends.foldl (appendStep order) msg) := by
  induction appends generalizing msg sizes with
  | nil =>
    rw [acceptedSizes, List.append_nil]
    exact consistent
  | cons append appends inductionHypothesis =>
    obtain ⟨here, rest⟩ := List.forall_mem_cons.mp sized
    rw [List.foldl_cons, acceptedSizes]
    by_cases fits : AppendFits type sizes append.allocated append.size
    · rw [if_pos (by rw [msgTlvAppend_fits consistent fits]; rfl), List.append_cons]
      exact inductionHypothesis (appendStep_fits consistent here fits) rest
    · rw [if_neg (by rw [msgTlvAppend_unfit consistent fits]; exact Bool.false_ne_true),
        appendStep_unfit consistent fits]
      exact inductionHypothesis consistent rest

/-- However a message is built, its TLVs lie in a row behind the body and inside the buffer, and
`messageLength` counts them; the next append is refused exactly when it does not fit, and then the
message stays as it is.

Proof: the TLVs that were appended lie one behind the other, the length of the message is the place
behind the last one, and both are kept by each append, which is refused when it would go beyond the
buffer or cannot be allocated. -/
theorem tlvs_built (blank : Blank order type msg)
    (sized : ∀ append ∈ appends, Tlv.size ≤ append.size) :
    let built := appends.foldl (appendStep order) msg
    let sizes := acceptedSizes order msg appends
    Consistent order type sizes built ∧
      (built.tlvList.map TlvExtra.tlv).Pairwise
        (fun first later => tlvStop order built.data first ≤ later) ∧
      (∀ extra ∈ built.tlvList, pduLen type ≤ extra.tlv ∧
        tlvStop order built.data extra.tlv ≤ messageDataSize) ∧
      ∀ allocated size,
        ((msgTlvAppend order allocated built size).2 = none ↔ ¬ AppendFits type sizes allocated size) ∧
        ((msgTlvAppend order allocated built size).2 = none →
          (msgTlvAppend order allocated built size).1 = built) := by
  intro built sizes
  have consistent : Consistent order type sizes built := appends_consistent blank.consistent sized
  refine ⟨consistent, stacked_disjoint consistent.contiguous, ?_, ?_⟩
  · intro extra member
    obtain ⟨low, high⟩ := stacked_member consistent.contiguous _ (List.mem_map_of_mem member)
    exact ⟨low, high.trans consistent.room⟩
  · intro allocated size
    refine ⟨msgTlvAppend_refused consistent, fun refused => ?_⟩
    rw [msgTlvAppend_unfit consistent (msgTlvAppend_refused consistent |>.mp refused)]

end Run

/-- A Follow_Up on a little-endian host, before anything is appended. -/
def bareFollowUp : Message := Message.fresh (bufferOf [8, 2, 44])

/-- Room for the follow-up information, then more than the buffer has left. -/
def followUpAppends : List AppendCall := [⟨32, fun _ => 0, true⟩, ⟨1425, fun _ => 0, true⟩]

theorem tlvs_built_followUp :
    Blank .little .followUp bareFollowUp ∧
      Consistent .little .followUp [32]
        (followUpAppends.foldl (appendStep .little) bareFollowUp) := by
  have blank : Blank .little .followUp bareFollowUp := ⟨rfl, by decide, rfl, rfl⟩
  have sized : ∀ append ∈ followUpAppends, Tlv.size ≤ append.size := by
    intro append member
    simp only [followUpAppends, List.mem_cons, List.not_mem_nil, or_false] at member
    rcases member with rfl | rfl <;> decide
  have sizes : acceptedSizes .little bareFollowUp followUpAppends = [32] := by decide
  have built := (tlvs_built blank sized).1
  rw [sizes] at built
  exact ⟨blank, built⟩

end LinuxPtp
