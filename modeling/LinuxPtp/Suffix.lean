import LinuxPtp.MsgCodec
import LinuxPtp.TlvReceive

/-!
# The suffix of a message

`Suffix` says which octets form a sequence of TLVs that ends with at most three
octets to spare, and where its TLVs start. The parser's loop accepts exactly
such sequences: one turn accepts exactly one well-sized TLV that fits, and the
loop follows by induction on its fuel, the octets before the current TLV being
out of reach.
-/

namespace LinuxPtp

open Octets Recv

/-- Where the TLV at an offset ends. -/
def tlvStop (order : ByteOrder) (data : Storage) (start : Nat) : Nat :=
  start + 4 + (readingAt order data start).length

/-- A TLV of even length that fits and has the size it should have. -/
structure Admitted (order : ByteOrder) (data : Storage) (stop start : Nat) : Prop where
  even : (readingAt order data start).length % 2 = 0
  fits : tlvStop order data start ≤ stop
  sized : (readingAt order data start).WellSized

/-- Between two offsets lie the TLVs that start at the listed offsets, each where
the one before it ends, and then too few octets for another. -/
inductive Suffix (order : ByteOrder) (data : Storage) (stop : Nat) : Nat → List Nat → Prop where
  | done (start : Nat) (short : stop < start + 4) : Suffix order data stop start []
  | tlv (start : Nat) (rest : List Nat) (admitted : Admitted order data stop start)
      (tail : Suffix order data stop (tlvStop order data start) rest) :
      Suffix order data stop start (start :: rest)

section Grammar

variable {order : ByteOrder} {data : Storage} {stop start : Nat} {starts : List Nat}

theorem tlvStop_congr {left right : Storage}
    (same : ∀ index, start ≤ index → left index = right index) :
    tlvStop order left start = tlvStop order right start := by
  rw [tlvStop, tlvStop, readingAt_congr order same]

theorem admitted_congr {left right : Storage} (admitted : Admitted order left stop start)
    (same : ∀ index, start ≤ index → left index = right index) :
    Admitted order right stop start := by
  have reading := readingAt_congr order same
  refine ⟨?_, ?_, ?_⟩
  · rw [← reading]
    exact admitted.even
  · rw [← tlvStop_congr same]
    exact admitted.fits
  · rw [← reading]
    exact admitted.sized

/-- A suffix depends only on the octets from its start on. -/
theorem suffix_congr {left right : Storage} (suffix : Suffix order left stop start starts)
    (same : ∀ index, start ≤ index → left index = right index) :
    Suffix order right stop start starts := by
  induction suffix with
  | done start short => exact .done start short
  | tlv start rest admitted tail inductionHypothesis =>
    refine .tlv start rest (admitted_congr admitted same) ?_
    rw [← tlvStop_congr same]
    refine inductionHypothesis fun index beyond => same index ?_
    simp only [tlvStop] at beyond
    omega

/-- Every TLV of a suffix is admitted and starts at or after the suffix. -/
theorem suffix_member (suffix : Suffix order data stop start starts) :
    ∀ member ∈ starts, start ≤ member ∧ Admitted order data stop member := by
  induction suffix with
  | done => simp
  | tlv start rest admitted tail inductionHypothesis =>
    intro member present
    rcases List.mem_cons.mp present with rfl | later
    · exact ⟨Nat.le_refl _, admitted⟩
    · obtain ⟨low, inside⟩ := inductionHypothesis member later
      refine ⟨?_, inside⟩
      simp only [tlvStop] at low
      omega

/-- A region forms at most one sequence of TLVs. -/
theorem suffix_unique {others : List Nat} (suffix : Suffix order data stop start starts)
    (other : Suffix order data stop start others) : starts = others := by
  induction suffix generalizing others with
  | done start short =>
    cases other with
    | done => rfl
    | tlv _ rest admitted _ =>
      have fits := admitted.fits
      simp only [tlvStop] at fits
      omega
  | tlv start rest admitted tail inductionHypothesis =>
    cases other with
    | done _ short =>
      have fits := admitted.fits
      simp only [tlvStop] at fits
      omega
    | tlv _ others _ otherTail => rw [inductionHypothesis otherTail]

/-- Each TLV of a suffix starts where the one before it ends. -/
theorem suffix_contiguous (suffix : Suffix order data stop start starts) :
    starts.IsChain (fun first next => next = tlvStop order data first) ∧
      ∀ first ∈ starts.head?, first = start := by
  induction suffix with
  | done => exact ⟨List.IsChain.nil, by simp⟩
  | tlv start rest admitted tail inductionHypothesis =>
    refine ⟨?_, by simp⟩
    cases rest with
    | nil => exact List.IsChain.singleton start
    | cons next others =>
      exact List.IsChain.cons_cons (inductionHypothesis.2 next rfl) inductionHypothesis.1

/-- No octet belongs to two TLVs of a suffix. -/
theorem suffix_disjoint (suffix : Suffix order data stop start starts) :
    starts.Pairwise fun first later => tlvStop order data first ≤ later := by
  induction suffix with
  | done => exact List.Pairwise.nil
  | tlv start rest admitted tail inductionHypothesis =>
    exact List.pairwise_cons.mpr
      ⟨fun later member => (suffix_member tail later member).1, inductionHypothesis⟩

/-! ## Changing one TLV after another -/

/-- Well-sized TLVs that follow one another, possibly with gaps. -/
inductive Laid (order : ByteOrder) (data : Storage) : Nat → List Nat → Prop where
  | none (start : Nat) : Laid order data start []
  | tlv (start first : Nat) (rest : List Nat) (behind : start ≤ first)
      (sized : (readingAt order data first).WellSized)
      (others : Laid order data (tlvStop order data first) rest) :
      Laid order data start (first :: rest)

theorem suffix_laid (suffix : Suffix order data stop start starts) :
    Laid order data start starts := by
  induction suffix with
  | done start short => exact .none start
  | tlv start rest admitted tail inductionHypothesis =>
    exact .tlv start start rest (Nat.le_refl _) admitted.sized inductionHypothesis

theorem laid_congr {left right : Storage} (laid : Laid order left start starts)
    (same : ∀ index, start ≤ index → left index = right index) :
    Laid order right start starts := by
  induction laid with
  | none start => exact .none start
  | tlv start first rest behind sized others inductionHypothesis =>
    have later : ∀ index, first ≤ index → left index = right index :=
      fun index after => same index (behind.trans after)
    have ends := @tlvStop_congr order first left right later
    refine .tlv start first rest behind ?_ ?_
    · rwa [← readingAt_congr order later]
    · rw [← ends]
      refine inductionHypothesis fun index beyond => later index ?_
      simp only [tlvStop] at beyond
      omega

theorem laid_member (laid : Laid order data start starts) :
    ∀ member ∈ starts, start ≤ member ∧ (readingAt order data member).WellSized := by
  induction laid with
  | none => simp
  | tlv start first rest behind sized others inductionHypothesis =>
    intro member present
    rcases List.mem_cons.mp present with rfl | later
    · exact ⟨behind, sized⟩
    · obtain ⟨low, fine⟩ := inductionHypothesis member later
      refine ⟨?_, fine⟩
      simp only [tlvStop] at low
      omega

/-- A change of a TLV that looks at this TLV alone and changes nothing else. -/
structure Confined (order : ByteOrder) (change : Storage → Nat → Storage) : Prop where
  outside : ∀ data start index, (readingAt order data start).WellSized →
    index < start ∨ tlvStop order data start ≤ index → change data start index = data index
  inside : ∀ left right start index, (readingAt order left start).WellSized →
    (∀ other, start ≤ other → left other = right other) → start ≤ index →
    index < tlvStop order left start → change left start index = change right start index

section Changing

variable {change : Storage → Nat → Storage} (confined : Confined order change)
include confined

/-- What lies behind a TLV is unchanged after changing the TLV. -/
theorem confined_behind {first : Nat} (sized : (readingAt order data first).WellSized) :
    ∀ index, tlvStop order data first ≤ index → data index = change data first index :=
  fun index later => (confined.outside data first index sized (Or.inr later)).symm

/-- Changing TLVs one after another changes nothing outside these TLVs. -/
theorem confined_apart (laid : Laid order data start starts) {index : Nat}
    (outside : ∀ member ∈ starts, index < member ∨ tlvStop order data member ≤ index) :
    starts.foldl change data index = data index := by
  induction starts generalizing data start with
  | nil => rfl
  | cons first rest inductionHypothesis =>
    cases laid with
    | tlv _ _ _ _ sized others =>
      have beyond := confined_behind confined sized
      rw [List.foldl_cons, inductionHypothesis (laid_congr others beyond) fun member later => ?_,
        confined.outside data first index sized (outside first (by simp))]
      have behind := (laid_member others member later).1
      rw [← tlvStop_congr fun index after => beyond index (behind.trans after)]
      exact outside member (List.mem_cons_of_mem _ later)

/-- Within one TLV only the change of that TLV shows. -/
theorem confined_inside (laid : Laid order data start starts) {member : Nat}
    (present : member ∈ starts) {index : Nat} (low : member ≤ index)
    (high : index < tlvStop order data member) :
    starts.foldl change data index = change data member index := by
  induction starts generalizing data start with
  | nil => simp at present
  | cons first rest inductionHypothesis =>
    cases laid with
    | tlv _ _ _ _ sized others =>
      have beyond := confined_behind confined sized
      have changed := laid_congr others beyond
      rw [List.foldl_cons]
      rcases List.mem_cons.mp present with rfl | later
      · refine confined_apart confined changed fun other after => Or.inl ?_
        exact Nat.lt_of_lt_of_le high (laid_member changed other after).1
      · obtain ⟨behind, fine⟩ := laid_member others member later
        have same : ∀ other, member ≤ other → data other = change data first other :=
          fun other after => beyond other (behind.trans after)
        rw [inductionHypothesis changed later (by rwa [← tlvStop_congr same])]
        exact (confined.inside data _ member index fine same low high).symm

/-- Changing the TLVs of a suffix changes nothing outside it. -/
theorem confined_outside (suffix : Suffix order data stop start starts) {index : Nat}
    (outside : index < start ∨ stop ≤ index) : starts.foldl change data index = data index := by
  refine confined_apart confined (suffix_laid suffix) fun member present => ?_
  obtain ⟨low, admitted⟩ := suffix_member suffix member present
  have fits := admitted.fits
  omega

/-- Changing TLVs one after another changes nothing before them. -/
theorem confined_before (laid : Laid order data start starts) {index : Nat}
    (outside : index < start) : starts.foldl change data index = data index :=
  confined_apart confined laid fun member present =>
    Or.inl (Nat.lt_of_lt_of_le outside (laid_member laid member present).1)

end Changing

end Grammar

section Parsing

variable (order : ByteOrder)

/-- Receiving a well-sized TLV looks at this TLV alone and changes nothing else. -/
theorem confined_tlvIn : Confined .big (tlvIn order) := by
  constructor
  · intro data start index sized outside
    have kept := @transcode_outside order _ start data sized index outside
    unfold tlvIn clip
    split
    · refine (store_outside fun inside => ?_).trans kept
      simp only [tlvStop, Tlv.length, Field.Covers, Field.shift_offset, Field.shift_width,
        Field.stop] at outside inside
      omega
    · exact kept
  · intro left right start index sized same low high
    have inside := transcode_congr order sized (fun other after _ => same other after) low high
    unfold tlvIn clip
    rw [← readingAt_congr .big same]
    split
    · exact store_congr fun _ => inside
    · exact inside

theorem tlvIn_outside {data : Storage} {start index : Nat}
    (sized : (readingAt .big data start).WellSized)
    (outside : index < start ∨ tlvStop .big data start ≤ index) :
    tlvIn order data start index = data index :=
  (confined_tlvIn order).outside data start index sized outside

/-- One turn of the loop admits exactly the admissible TLVs, and stays inside the
TLV and the message. -/
theorem decides_suffixTurn (data : Storage) {len ptr : Nat} (room : 4 ≤ len) :
    Decides ptr (min (tlvStop .big data ptr) (ptr + len)) (suffixTurn order len ptr) data
      (Admitted .big data (ptr + len) ptr)
      ((readingAt .big data ptr).length, (readingAt .big data ptr).descriptor ptr)
      (tlvIn order data ptr) := by
  have header : ptr + 4 ≤ min (tlvStop .big data ptr) (ptr + len) := by
    simp only [tlvStop]
    omega
  have separate : [Tlv.type.shift ptr, Tlv.length.shift ptr].Pairwise Field.Apart :=
    Reading.shift_separate ptr (by decide : [Tlv.type, Tlv.length].Pairwise Field.Apart)
  have lengthStored : load order (Tlv.length.shift ptr)
      (convert order (Tlv.length.shift ptr) (convert order (Tlv.type.shift ptr) data)) =
      (readingAt .big data ptr).length := by
    rw [load_convert, load_convert_apart (Field.shift_apart ptr (by decide))]
    rfl
  have low : ∀ field : Field, ptr ≤ (field.shift ptr).offset := fun field => Nat.le_add_right _ _
  have high : ∀ field : Field, field.stop ≤ 4 →
      (field.shift ptr).stop ≤ min (tlvStop .big data ptr) (ptr + len) := by
    intro field bound
    simp only [Field.shift_stop]
    omega
  unfold suffixTurn
  refine yields_bind (yields_ntoh order (low _) (high _ (by decide))) ?_
  refine yields_bind (yields_ntoh order (low _) (high _ (by decide))) ?_
  refine yields_bind (yields_host order (low _) (high _ (by decide))) ?_
  rw [lengthStored]
  refine require_bind (fun admitted => admitted.even) fun even => ?_
  refine require_bind (fun admitted => ?_) fun fits => ?_
  · have fits := admitted.fits
    change (readingAt .big data ptr).length ≤ len - 4
    simp only [tlvStop] at fits
    omega
  change (readingAt .big data ptr).length ≤ len - 4 at fits
  have whole : tlvStop .big data ptr ≤ ptr + len := by
    simp only [tlvStop]
    omega
  rw [Nat.min_eq_left whole]
  refine decides_bind (decides_tlvPostRecv order data ptr) (fun admitted => admitted.sized)
    fun sized => ?_
  exact decides_of_yields ⟨even, whole, sized⟩ (yields_pure _)

/-- An access by the parser of some TLV that stays inside the TLV and the region. -/
def Access.InTlv (data : Storage) (start stop : Nat) (access : Access) : Prop :=
  ∃ ptr, start ≤ ptr ∧ access.Inside ptr (min (tlvStop .big data ptr) stop) (some ptr)

/-- A message with the TLVs that start at the listed offsets received. -/
def withTlvs (data : Storage) (msg : Message) (starts : List Nat) : Message :=
  { msg with
    data := starts.foldl (tlvIn order) data
    tlvList := msg.tlvList ++ starts.map fun start => (readingAt .big data start).descriptor start
    tlvCount := msg.tlvCount + starts.length }

/-- A message to which one TLV has been attached. -/
def attach (msg : Message) (extra : TlvExtra) : Message :=
  { msg with tlvList := msg.tlvList ++ [extra], tlvCount := msg.tlvCount + 1 }

/-- The loop goes on behind a TLV that it admits. -/
theorem suffixLoop_admitted (fuel : Nat) {len ptr : Nat} {data : Storage} (room : 4 ≤ len)
    (admitted : Admitted .big data (ptr + len) ptr) (msg : Message) (tlv : Option Nat)
    (touched : List Access) : ∃ accesses : List Access,
      (∀ access ∈ accesses, access.Inside ptr (tlvStop .big data ptr) (some ptr)) ∧
      suffixLoop order (fuel + 1) len ptr (stateWith msg tlv touched data) =
        suffixLoop order fuel (len - 4 - (readingAt .big data ptr).length) (tlvStop .big data ptr)
          (stateWith (attach msg ((readingAt .big data ptr).descriptor ptr)) (some ptr)
            (touched ++ accesses) (tlvIn order data ptr)) := by
  obtain ⟨accesses, inside, succeeds, _⟩ :=
    decides_suffixTurn order data room msg (some ptr) touched
  rw [Nat.min_eq_left admitted.fits] at inside
  refine ⟨accesses, inside, ?_⟩
  have long : ¬ len < Tlv.size := Nat.not_lt.mpr room
  have entered : enterTlv ptr (stateWith msg tlv touched data) =
      .ok () (stateWith msg (some ptr) touched data) := rfl
  rw [suffixLoop, if_neg long]
  simp only [run_bind, entered, (succeeds admitted).2]
  rfl

/-- The loop fails at a TLV that it does not admit. -/
theorem suffixLoop_refused (fuel : Nat) {len ptr : Nat} {data : Storage} (room : 4 ≤ len)
    (refused : ¬ Admitted .big data (ptr + len) ptr) (msg : Message) (tlv : Option Nat)
    (touched : List Access) : ∃ (accesses : List Access) (broken : Storage),
      (∀ access ∈ accesses,
        access.Inside ptr (min (tlvStop .big data ptr) (ptr + len)) (some ptr)) ∧
      Untouched ptr (ptr + len) data broken ∧
      suffixLoop order (fuel + 1) len ptr (stateWith msg tlv touched data) =
        .error .ebadmsg (stateWith msg (some ptr) (touched ++ accesses) broken) := by
  obtain ⟨accesses, inside, _, fails⟩ :=
    decides_suffixTurn order data room msg (some ptr) touched
  obtain ⟨broken, untouched, run⟩ := fails refused
  refine ⟨accesses, broken, inside, fun index outside => untouched index (by omega), ?_⟩
  have long : ¬ len < Tlv.size := Nat.not_lt.mpr room
  have entered : enterTlv ptr (stateWith msg tlv touched data) =
      .ok () (stateWith msg (some ptr) touched data) := rfl
  rw [suffixLoop, if_neg long]
  simp only [run_bind, entered, run]

/-- What the loop comes to from one state, for the region that is left. -/
def SuffixParsed (fuel len ptr : Nat) (data : Storage) (msg : Message) (tlv : Option Nat)
    (touched : List Access) : Prop :=
  ∃ accesses : List Access,
    (∀ access ∈ accesses, access.InTlv data ptr (ptr + len)) ∧
    (∀ starts, Suffix .big data (ptr + len) ptr starts → ∃ last,
      suffixLoop order fuel len ptr (stateWith msg tlv touched data) =
        .ok () ⟨withTlvs order data msg starts, last, touched ++ accesses⟩) ∧
    ((¬ ∃ starts, Suffix .big data (ptr + len) ptr starts) → ∃ reached,
      suffixLoop order fuel len ptr (stateWith msg tlv touched data) =
        .error .ebadmsg reached ∧ reached.touched = touched ++ accesses ∧
      Untouched ptr (ptr + len) data reached.msg.data ∧
      msg.tlvCount ≤ reached.msg.tlvCount)

/-- With less than a TLV header left the loop ends. -/
theorem run_suffixLoop_short (fuel : Nat) {len : Nat} (ptr : Nat) (short : len < 4)
    (state : RecvState) : suffixLoop order fuel len ptr state = .ok () state := by
  cases fuel with
  | zero => rfl
  | succ fuel =>
    have less : len < Tlv.size := short
    rw [suffixLoop, if_pos less, run_pure]

theorem suffixLoop_short (fuel : Nat) {len ptr : Nat} (short : len < 4) (data : Storage)
    (msg : Message) (tlv : Option Nat) (touched : List Access) :
    SuffixParsed order fuel len ptr data msg tlv touched := by
  have suffix : Suffix .big data (ptr + len) ptr [] := .done ptr (by omega)
  refine ⟨[], by simp, fun starts found => ⟨tlv, ?_⟩, fun none => absurd ⟨[], suffix⟩ none⟩
  obtain rfl := suffix_unique suffix found
  rw [run_suffixLoop_short order fuel ptr short]
  simp [stateWith, withTlvs]

/-- Receiving the first TLV and then the rest of a suffix is receiving the suffix. -/
theorem withTlvs_cons {data : Storage} {stop start : Nat} {rest : List Nat}
    (admitted : Admitted .big data stop start)
    (tail : Suffix .big data stop (tlvStop .big data start) rest) (msg : Message) :
    withTlvs order (tlvIn order data start)
        (attach msg ((readingAt .big data start).descriptor start)) rest =
      withTlvs order data msg (start :: rest) := by
  have readings : ∀ later ∈ rest,
      readingAt .big (tlvIn order data start) later = readingAt .big data later := by
    intro later member
    have low := (suffix_member tail later member).1
    exact readingAt_congr .big fun index beyond =>
      tlvIn_outside order admitted.sized (Or.inr (by omega))
  have descriptors : rest.map (fun later =>
      (readingAt .big (tlvIn order data start) later).descriptor later) =
      rest.map fun later => (readingAt .big data later).descriptor later :=
    List.map_congr_left fun later member => by rw [readings later member]
  simp only [withTlvs, attach, descriptors, List.foldl_cons, List.map_cons, List.append_assoc,
    List.singleton_append, List.length_cons, Nat.add_assoc, Nat.add_comm 1]

/-- The result of the loop: it succeeds exactly on a suffix. In any case every
access stays inside the TLV being parsed and inside the region, the octets
before the region are kept, and no descriptor is lost.

Proof: induction on the fuel. A refused TLV ends the loop with an error. Behind
an admitted TLV the remaining octets are those of the original region, so that
the suffix of the rest is the rest of the suffix. -/
theorem suffixLoop_spec (fuel len ptr : Nat) (enough : len ≤ fuel) (data : Storage)
    (msg : Message) (tlv : Option Nat) (touched : List Access) :
    SuffixParsed order fuel len ptr data msg tlv touched := by
  induction fuel generalizing len ptr data msg tlv touched with
  | zero =>
    obtain rfl : len = 0 := by omega
    exact suffixLoop_short order 0 (by omega) data msg tlv touched
  | succ fuel inductionHypothesis =>
    by_cases room : 4 ≤ len
    · by_cases admitted : Admitted .big data (ptr + len) ptr
      · obtain ⟨accesses, inside, run⟩ :=
          suffixLoop_admitted order fuel room admitted msg tlv touched
        have fits := admitted.fits
        have ends : tlvStop .big data ptr = ptr + 4 + (readingAt .big data ptr).length := rfl
        have rest : tlvStop .big data ptr + (len - 4 - (readingAt .big data ptr).length) =
            ptr + len := by omega
        have kept := fun index outside =>
          @tlvIn_outside order data ptr index admitted.sized outside
        obtain ⟨more, moreInside, succeeds, fails⟩ := inductionHypothesis
          (len - 4 - (readingAt .big data ptr).length) (tlvStop .big data ptr) (by omega)
          (tlvIn order data ptr) (attach msg ((readingAt .big data ptr).descriptor ptr))
          (some ptr) (touched ++ accesses)
        rw [rest] at moreInside succeeds fails
        refine ⟨accesses ++ more, ?_, ?_, ?_⟩
        · intro access member
          rcases List.mem_append.mp member with early | late
          · refine ⟨ptr, Nat.le_refl _, ?_⟩
            rw [Nat.min_eq_left fits]
            exact inside access early
          · obtain ⟨here, low, within⟩ := moreInside access late
            refine ⟨here, by omega, ?_⟩
            rwa [tlvStop_congr fun index beyond => kept index (by omega)] at within
        · intro starts suffix
          cases suffix with
          | done _ short => omega
          | tlv _ later _ tail =>
            obtain ⟨last, success⟩ := succeeds later
              (suffix_congr tail fun index beyond => (kept index (Or.inr beyond)).symm)
            rw [run, success, withTlvs_cons order admitted tail msg, List.append_assoc]
            exact ⟨last, rfl⟩
        · intro none
          have noTail : ¬ ∃ starts, Suffix .big (tlvIn order data ptr) (ptr + len)
              (tlvStop .big data ptr) starts := by
            rintro ⟨later, tail⟩
            exact none ⟨ptr :: later, .tlv ptr later admitted
              (suffix_congr tail fun index beyond => kept index (Or.inr beyond))⟩
          obtain ⟨reached, failure, sameTouched, untouched, count⟩ := fails noTail
          rw [run, ← List.append_assoc]
          refine ⟨reached, failure, sameTouched, fun index outside => ?_, Nat.le_of_succ_le count⟩
          exact (untouched index (by omega)).trans (kept index (by omega))
      · obtain ⟨accesses, broken, inside, untouched, run⟩ :=
          suffixLoop_refused order fuel room admitted msg tlv touched
        refine ⟨accesses, fun access member => ⟨ptr, Nat.le_refl _, inside access member⟩, ?_, ?_⟩
        · intro starts suffix
          cases suffix with
          | done _ short => omega
          | tlv _ rest fine _ => exact absurd fine admitted
        · intro _
          exact ⟨_, run, rfl, untouched, Nat.le_refl _⟩
    · exact suffixLoop_short order (fuel + 1) (by omega) data msg tlv touched

end Parsing

end LinuxPtp
