import LinuxPtp.Relay

/-!
# Parsing a forwarded message for the second time

After forwarding, `msg_post_recv` runs on the image with `messageLength` octets,
however many were received. How far it gets decides which octets return to host
order: none, the header, header and body, or also the header of the first TLV.
If it admits a TLV, it appends a descriptor to the list of the first parse.

What the second parse does is found from the image alone, case by case of how many octets the
message says it has. The image was made by the same codec, so the second parse admits what the
first one did as far as it reads.
-/

namespace LinuxPtp

open Octets Recv

/-- How far the second parse gets without admitting a TLV. -/
def reparsed (length : Nat) : Nat :=
  if length < 34 then 0 else if length < 48 then 34 else if length < 52 then 48 else 52

section Reparse

variable (order : ByteOrder)

/-- A turn of the suffix loop that finds a TLV too long for what is left has
converted its header and nothing else. -/
theorem suffixTurn_unfit {data : Storage} {len ptr : Nat}
    (even : (readingAt .big data ptr).length % 2 = 0)
    (unfit : len - 4 < (readingAt .big data ptr).length) (msg : Message) (tlv : Option Nat)
    (touched : List Access) : ∃ accesses,
      suffixTurn order len ptr (stateWith msg tlv touched data) =
        .error .ebadmsg (stateWith msg tlv accesses
          (convertAll order [Tlv.type.shift ptr, Tlv.length.shift ptr] data)) := by
  have stored : load order (Tlv.length.shift ptr)
      (convert order (Tlv.length.shift ptr) (convert order (Tlv.type.shift ptr) data)) =
      (readingAt .big data ptr).length := by
    rw [load_convert, load_convert_apart (Field.shift_apart ptr (by decide))]
    rfl
  have converted : ∀ field (storage : Storage) touched,
      ntoh order field (stateWith msg tlv touched storage) =
        .ok () (stateWith msg tlv (touched ++ [⟨field.offset, field.width, tlv⟩])
          (convert order field storage)) := fun _ _ _ => rfl
  have read : ∀ field (storage : Storage) touched,
      host order field (stateWith msg tlv touched storage) =
        .ok (load order field storage)
          (stateWith msg tlv (touched ++ [⟨field.offset, field.width, tlv⟩]) storage) :=
    fun _ _ _ => rfl
  have long : ¬ (readingAt .big data ptr).length ≤ len - Tlv.size := Nat.not_le.mpr unfit
  simp only [suffixTurn, run_bind, converted, read, stored, run_require even, run_require_not long]
  exact ⟨_, rfl⟩

variable {now : Int} {msg : Message}

/-- The message after the second parse. -/
def secondParse (now : Int) (length : Nat) (msg : Message) : Message :=
  (final (msgPostRecv order now length msg)).msg

/-- With less than a header, nothing is parsed. -/
theorem secondParse_none {length : Nat} (short : length < 34) :
    secondParse order now length msg = msg := by
  have incomplete : ¬ PtpHeader.size ≤ length := Nat.not_le.mpr short
  rw [secondParse, msgPostRecv, msgPostRecvStep, run_bind, run_require_not incomplete]
  rfl

/-- With less than a body, the header is converted. -/
theorem secondParse_header {length : Nat} (whole : 34 ≤ length) (short : length < 48)
    (version : lowNibble (msg.data PtpHeader.ver).toNat = ptpVersion)
    (known : msgType msg.data = some .management) :
    secondParse order now length msg = { msg with data := convertAll order hdrFields msg.data } := by
  obtain ⟨accesses, _, run⟩ := run_hdrPostRecv order version whole msg
  have start : ({ msg := msg } : RecvState) = stateWith msg none [] msg.data := rfl
  have incomplete : ¬ pduLen .management ≤ length := Nat.not_le.mpr short
  have size : PtpHeader.size ≤ length := whole
  rw [secondParse, msgPostRecv, msgPostRecvStep, start, run_bind, run_require size]
  simp only [run]
  rw [show MsgType.ofCode (lowNibble (msg.data PtpHeader.tsmt).toNat) = some .management from known]
  simp only [run_bind, run_require_not incomplete]
  rfl

/-- With a body, the suffix loop runs on the converted message. -/
theorem secondParse_body {length : Nat} (whole : 48 ≤ length)
    (version : lowNibble (msg.data PtpHeader.ver).toNat = ptpVersion)
    (known : msgType msg.data = some .management) : ∃ accesses : List Access,
    secondParse order now length msg =
      (final (suffixLoop order (length - 48) (length - 48) 48
        (stateWith msg none accesses (headed order .management msg.data)))).msg := by
  obtain ⟨accesses, _, run⟩ := msgPostRecv_headed order now msg version known whole
  exact ⟨accesses, by rw [secondParse, run]; rfl⟩

theorem admitted_headed {data : Storage} {stop : Nat} :
    Admitted .big (headed order .management data) stop 48 ↔ Admitted .big data stop 48 :=
  ⟨fun admitted => admitted_congr admitted fun _ beyond =>
      headed_beyond order .management data beyond,
    fun admitted => admitted_congr admitted fun _ beyond =>
      (headed_beyond order .management data beyond).symm⟩

/-- A TLV that the second parse admits is listed once more. -/
theorem secondParse_admitted {length : Nat}
    (version : lowNibble (msg.data PtpHeader.ver).toNat = ptpVersion)
    (known : msgType msg.data = some .management)
    (admitted : Admitted .big msg.data length 48) :
    msg.tlvCount < (secondParse order now length msg).tlvCount := by
  have fits := admitted.fits
  simp only [tlvStop] at fits
  obtain ⟨accesses, run⟩ := @secondParse_body order now msg length (by omega) version known
  have stop : 48 + (length - 48) = length := by omega
  obtain ⟨fuel, rest⟩ : ∃ fuel, length - 48 = fuel + 1 := ⟨length - 49, by omega⟩
  have here : Admitted .big (headed order .management msg.data) (48 + (length - 48)) 48 := by
    rw [stop]
    exact (admitted_headed order).mpr admitted
  obtain ⟨more, _, step⟩ := suffixLoop_admitted order fuel (by omega) here msg none accesses
  obtain ⟨_, _, succeeds, fails⟩ := suffixLoop_spec order fuel
    (length - 48 - 4 - (readingAt .big (headed order .management msg.data) 48).length)
    (tlvStop .big (headed order .management msg.data) 48) (by omega)
    (tlvIn order (headed order .management msg.data) 48)
    (attach msg ((readingAt .big (headed order .management msg.data) 48).descriptor 48))
    (some 48) (accesses ++ more)
  rw [run, rest]
  rw [rest] at step succeeds fails
  rw [step]
  by_cases suffix : ∃ starts, Suffix .big (tlvIn order (headed order .management msg.data) 48)
      (tlvStop .big (headed order .management msg.data) 48 +
        (fuel + 1 - 4 - (readingAt .big (headed order .management msg.data) 48).length))
      (tlvStop .big (headed order .management msg.data) 48) starts
  · obtain ⟨starts, found⟩ := suffix
    obtain ⟨last, success⟩ := succeeds starts found
    rw [success]
    simp only [final, withTlvs, attach]
    omega
  · obtain ⟨reached, failure, _, _, count⟩ := fails suffix
    rw [failure]
    exact count

/-- Without a TLV to admit, the list stays, and the octets return to host order as
far as the parse gets. -/
structure Returned (length : Nat) (msg after : Message) : Prop where
  tlvs : after.tlvList = msg.tlvList
  count : after.tlvCount = msg.tlvCount
  head : ∀ index < 48, after.data index =
    if index < reparsed length then headed order .management msg.data index else msg.data index
  short : length < 52 → ∀ index, 48 ≤ index → after.data index = msg.data index
  unfit : 52 ≤ length → (readingAt .big msg.data 48).length % 2 = 0 →
    length < tlvStop .big msg.data 48 → ∀ index, 48 ≤ index → after.data index =
      convertAll order [Tlv.type.shift 48, Tlv.length.shift 48] msg.data index

theorem secondParse_returned {length : Nat}
    (version : lowNibble (msg.data PtpHeader.ver).toNat = ptpVersion)
    (known : msgType msg.data = some .management)
    (refused : ¬ Admitted .big msg.data length 48) :
    Returned order length msg (secondParse order now length msg) := by
  by_cases empty : length < 34
  · rw [secondParse_none order empty]
    refine ⟨rfl, rfl, fun index _ => ?_, fun _ _ _ => rfl, fun long => by omega⟩
    simp only [reparsed, empty, if_true, Nat.not_lt_zero, if_false]
  by_cases header : length < 48
  · rw [secondParse_header order (by omega) header version known]
    have above : ∀ field ∈ bodyFields .management, 34 ≤ field.offset := by decide
    have below : ∀ field ∈ hdrFields, field.stop ≤ 34 := by decide
    refine ⟨rfl, rfl, fun index _ => ?_, fun _ index late => ?_, fun long => by omega⟩
    · simp only [reparsed, empty, header, if_true, if_false, headed, convertAll_append]
      by_cases early : index < 34
      · rw [if_pos early]
        refine (convertAll_outside fun field member covered => ?_).symm
        have bound := above field member
        simp only [Field.Covers] at covered
        omega
      · rw [if_neg early]
        refine convertAll_outside fun field member covered => ?_
        have bound := below field member
        simp only [Field.Covers] at covered
        omega
    · refine convertAll_outside fun field member covered => ?_
      have bound := below field member
      simp only [Field.Covers] at covered
      omega
  obtain ⟨accesses, run⟩ := @secondParse_body order now msg length (by omega) version known
  have stop : 48 + (length - 48) = length := by omega
  have refusedHere : ¬ Admitted .big (headed order .management msg.data) (48 + (length - 48)) 48 := by
    rw [stop]
    exact fun admitted => refused ((admitted_headed order).mp admitted)
  have restored : ∀ index < 48, index < reparsed length := by
    intro index early
    simp only [reparsed, empty, header, if_false]
    split <;> omega
  rw [run]
  by_cases body : length < 52
  · rw [run_suffixLoop_short order _ _ (by omega)]
    refine ⟨rfl, rfl, fun index early => ?_, fun _ index late => ?_, fun long => by omega⟩
    · rw [if_pos (restored index early)]
      rfl
    · exact headed_beyond order .management msg.data late
  obtain ⟨fuel, rest⟩ : ∃ fuel, length - 48 = fuel + 1 := ⟨length - 49, by omega⟩
  by_cases unfit : (readingAt .big msg.data 48).length % 2 = 0 ∧ length < tlvStop .big msg.data 48
  · have same : readingAt .big (headed order .management msg.data) 48 = readingAt .big msg.data 48 :=
      readingAt_congr .big fun _ beyond => headed_beyond order .management msg.data beyond
    have long : length - 48 - 4 < (readingAt .big (headed order .management msg.data) 48).length := by
      have ends := unfit.2
      rw [same]
      simp only [tlvStop] at ends
      omega
    obtain ⟨more, turn⟩ := suffixTurn_unfit order (by rw [same]; exact unfit.1) long msg (some 48)
      accesses
    have entered : enterTlv 48 (stateWith msg none accesses (headed order .management msg.data)) =
        .ok () (stateWith msg (some 48) accesses (headed order .management msg.data)) := rfl
    have room : ¬ fuel + 1 < Tlv.size := by
      change ¬ fuel + 1 < 4
      omega
    rw [rest] at turn ⊢
    rw [suffixLoop, if_neg room]
    simp only [run_bind, entered, turn]
    have bounds : ∀ field ∈ [Tlv.type.shift 48, Tlv.length.shift 48], 48 ≤ field.offset := by
      decide
    have outside : ∀ index < 48, convertAll order [Tlv.type.shift 48, Tlv.length.shift 48]
        (headed order .management msg.data) index = headed order .management msg.data index := by
      intro index early
      refine convertAll_outside fun field member covered => ?_
      have bound := bounds field member
      simp only [Field.Covers] at covered
      omega
    refine ⟨rfl, rfl, fun index early => ?_, fun short => by omega, fun _ _ _ index late => ?_⟩
    · rw [if_pos (restored index early)]
      exact outside index early
    · exact convertAll_congr (fun field member inner covered => headed_beyond order .management _
        ((bounds field member).trans covered.1)) (by decide)
        (headed_beyond order .management msg.data late)
  · rw [rest] at refusedHere ⊢
    obtain ⟨more, broken, _, untouched, failure⟩ :=
      suffixLoop_refused order fuel (by omega) refusedHere msg none accesses
    rw [failure]
    refine ⟨rfl, rfl, fun index early => ?_, fun short => by omega, fun _ even ends => ?_⟩
    · rw [if_pos (restored index early)]
      exact untouched index (Or.inl early)
    · exact absurd ⟨even, ends⟩ unfit

end Reparse

end LinuxPtp
