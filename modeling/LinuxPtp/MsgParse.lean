import LinuxPtp.Suffix

/-!
# What parsing a message does

`msg_post_recv` reads header and body with fixed layouts and then the suffix.
Header and body of an accepted message are converted field by field; the time
stamp of a body keeps its octets and is parsed into `ts.pdu`. The acceptance
condition is stated on the received octets alone.
-/

namespace LinuxPtp

open Octets Recv

/-! ## Header and body -/

/-- The multi-octet fields of the header. -/
def hdrFields : List Field :=
  [PtpHeader.messageLength, PtpHeader.correction, PtpHeader.sourcePortNumber, PtpHeader.sequenceId]

/-- The multi-octet fields of a body that reception converts. -/
def bodyFields : MsgType → List Field
  | .sync | .delayReq | .pdelayReq | .followUp | .signaling => []
  | .pdelayResp => [PdelayRespMsg.requestingPortNumber]
  | .delayResp => [DelayRespMsg.requestingPortNumber]
  | .pdelayRespFollowUp => [PdelayRespFupMsg.requestingPortNumber]
  | .announce => [AnnounceMsg.currentUtcOffset,
      AnnounceMsg.grandmasterOffsetScaledLogVariance, AnnounceMsg.stepsRemoved]
  | .management => [ManagementMsg.targetPortNumber]

/-- Whether reception parses the time stamp that begins the body. -/
def timestamped : MsgType → Bool
  | .sync | .pdelayResp | .followUp | .delayResp | .pdelayRespFollowUp | .announce => true
  | .delayReq | .pdelayReq | .signaling | .management => false

/-- The time that begins the body, in network order. -/
def pduTime (data : Storage) : BinaryTimestamp where
  sec := load .big bodyTimestamp.secondsLsb data + load .big bodyTimestamp.secondsMsb data * 2 ^ 32
  nsec := load .big bodyTimestamp.nanoseconds data

/-- Every field of header and body lies in the message and ends before its suffix. -/
theorem headed_bounds (type : MsgType) :
    ∀ field ∈ hdrFields ++ bodyFields type, field.stop ≤ pduLen type := by
  cases type <;> decide

theorem headed_separate (type : MsgType) :
    (hdrFields ++ bodyFields type).Pairwise Field.Apart := by
  cases type <;> decide

theorem pduLen_bound (type : MsgType) : 44 ≤ pduLen type := by
  cases type <;> decide

/-- TLVs follow the whole body. -/
theorem msgSuffix_eq {type : MsgType} {start : Nat} (suffix : msgSuffix type = some start) :
    start = pduLen type := by
  cases type <;> simp only [msgSuffix, reduceCtorEq, Option.some.injEq] at suffix <;> exact suffix.symm

section Parsing

variable (order : ByteOrder)

/-- The octets after converting header and body. -/
def headed (type : MsgType) (data : Storage) : Storage :=
  convertAll order (hdrFields ++ bodyFields type) data

/-- The rest of the message after parsing header and body. -/
def bodied (now : Int) (type : MsgType) (msg : Message) : Message :=
  { msg with
    pdu := if timestamped type then pduTime msg.data else msg.pdu
    host := if type = .announce then now else msg.host }

theorem headed_beyond (type : MsgType) (data : Storage) {index : Nat}
    (beyond : pduLen type ≤ index) : headed order type data index = data index :=
  convertAll_outside fun field member inside => by
    have bound := headed_bounds type field member
    simp only [Field.Covers] at inside
    omega

/-- The time stamp is read as on the wire, and its octets stay. -/
theorem run_timestampPostRecv (msg : Message) (touched : List Access) (data : Storage) :
    timestampPostRecv order bodyTimestamp (stateWith msg none touched data) =
      .ok () (stateWith { msg with pdu := pduTime data } none
        (touched ++ [⟨36, 4, none⟩, ⟨34, 2, none⟩, ⟨40, 4, none⟩]) data) := by
  have lsb : swap order 4 (load order bodyTimestamp.secondsLsb data) =
      load .big bodyTimestamp.secondsLsb data := swap_load order bodyTimestamp.secondsLsb data
  have msb : swap order 2 (load order bodyTimestamp.secondsMsb data) =
      load .big bodyTimestamp.secondsMsb data := swap_load order bodyTimestamp.secondsMsb data
  have nanoseconds : swap order 4 (load order bodyTimestamp.nanoseconds data) =
      load .big bodyTimestamp.nanoseconds data := swap_load order bodyTimestamp.nanoseconds data
  unfold pduTime
  rw [← lsb, ← msb, ← nanoseconds]
  simp only [timestampPostRecv, run_bind, run_modify, host, stateWith, List.append_assoc,
    List.cons_append, List.nil_append]
  rfl

/-- A step on header or body: it succeeds, changes the message and the buffer as
stated and stays inside the received octets. -/
def Succeeds (cnt : Nat) (step : Recv Unit) (msg after : Message) (data reached : Storage) : Prop :=
  ∀ touched, ∃ accesses : List Access, (∀ access ∈ accesses, access.Inside 0 cnt none) ∧
    step (stateWith msg none touched data) =
      .ok () (stateWith after none (touched ++ accesses) reached)

variable {cnt : Nat} {data reached : Storage}

theorem succeeds_of_yields {step : Recv Unit} (msg : Message)
    (yielded : Yields 0 cnt step data () reached) : Succeeds cnt step msg msg data reached := by
  intro touched
  obtain ⟨accesses, inside, succeeds, _⟩ := yielded msg none touched
  exact ⟨accesses, inside, (succeeds trivial).2⟩

theorem succeeds_bind {first next : Recv Unit} {msg between after : Message} {last : Storage}
    (before : Succeeds cnt first msg between data reached)
    (continued : Succeeds cnt next between after reached last) :
    Succeeds cnt (first >>= fun _ => next) msg after data last := by
  intro touched
  obtain ⟨accesses, inside, run⟩ := before touched
  obtain ⟨more, moreInside, moreRun⟩ := continued (touched ++ accesses)
  refine ⟨accesses ++ more, fun access member => ?_, ?_⟩
  · exact (List.mem_append.mp member).elim (inside access) (moreInside access)
  · rw [run_bind, run, ← List.append_assoc]
    exact moreRun

theorem succeeds_timestampPostRecv (room : 44 ≤ cnt) (msg : Message) :
    Succeeds cnt (timestampPostRecv order bodyTimestamp) msg { msg with pdu := pduTime data }
      data data := by
  intro touched
  refine ⟨_, ?_, run_timestampPostRecv order msg touched data⟩
  intro access member
  simp only [List.mem_cons, List.not_mem_nil, or_false] at member
  rcases member with rfl | rfl | rfl <;> exact ⟨rfl, by simp, by simp only; omega⟩

theorem succeeds_ntoh {field : Field} (room : field.stop ≤ cnt) (msg : Message) :
    Succeeds cnt (ntoh order field) msg msg data (convert order field data) :=
  succeeds_of_yields msg (yields_ntoh order (Nat.zero_le _) room)

theorem succeeds_ntohAll {fields : List Field} (room : ∀ field ∈ fields, field.stop ≤ cnt)
    (msg : Message) :
    Succeeds cnt (ntohAll order 0 fields) msg msg data (convertAll order fields data) := by
  have yielded := @yields_ntohAll 0 cnt data order 0 fields
    fun field member => ⟨Nat.zero_le _, by simpa using room field member⟩
  have unmoved : fields.map (·.shift 0) = fields := by
    simp [Field.shift]
  rw [unmoved] at yielded
  exact succeeds_of_yields msg yielded

/-- The body of each type: the fields that are converted, and the parsed time. -/
theorem succeeds_bodyPostRecv (now : Int) (type : MsgType) (room : pduLen type ≤ cnt)
    (msg : Message) :
    Succeeds cnt (bodyPostRecv order now type) msg
      { msg with
        pdu := if timestamped type then pduTime data else msg.pdu
        host := if type = .announce then now else msg.host }
      data (convertAll order (bodyFields type) data) := by
  have base : 44 ≤ cnt := (pduLen_bound type).trans room
  have fields : ∀ field ∈ bodyFields type, field.stop ≤ cnt := fun field member =>
    (headed_bounds type field (List.mem_append_right _ member)).trans room
  have stamp := fun msg => @succeeds_timestampPostRecv order cnt data base msg
  have nothing := @yields_pure Unit 0 cnt data ()
  cases type with
  | sync | followUp => exact stamp msg
  | delayReq | pdelayReq | signaling => exact succeeds_of_yields msg nothing
  | pdelayResp | delayResp | pdelayRespFollowUp =>
    exact succeeds_bind (stamp msg) (succeeds_ntoh order (fields _ (by simp [bodyFields])) _)
  | announce =>
    have timed : Succeeds cnt (modify fun state =>
        { state with msg := { state.msg with host := now } }) msg { msg with host := now }
        data data := fun touched => ⟨[], by simp, by
          rw [List.append_nil]
          rfl⟩
    exact succeeds_bind timed (succeeds_bind (stamp _) (succeeds_ntohAll order fields _))
  | management => exact succeeds_ntoh order (fields _ (by simp [bodyFields])) msg

/-! ## The whole message -/

/-- The TLVs that start at the listed offsets follow a body of the type. -/
def SuffixOf (reader : ByteOrder) (data : Storage) (cnt : Nat) (type : MsgType)
    (starts : List Nat) : Prop :=
  match msgSuffix type with
  | some start => Suffix reader data cnt start starts
  | none => starts = []

/-- The TLVs of any message, also of one without a suffix, lie behind its body. -/
theorem suffixOf_region {reader : ByteOrder} {data : Storage} {cnt : Nat} {type : MsgType}
    {starts : List Nat} (suffix : SuffixOf reader data cnt type starts) (long : pduLen type ≤ cnt) :
    ∃ stop, stop ≤ cnt ∧ Suffix reader data stop (pduLen type) starts ∧
      ∀ writer other, Suffix writer other stop (pduLen type) starts →
        SuffixOf writer other cnt type starts := by
  cases ptr : msgSuffix type with
  | none =>
    simp only [SuffixOf, ptr] at suffix ⊢
    subst suffix
    exact ⟨pduLen type, long, .done _ (by omega), fun _ _ _ => rfl⟩
  | some start =>
    obtain rfl := msgSuffix_eq ptr
    simp only [SuffixOf, ptr] at suffix ⊢
    exact ⟨cnt, Nat.le_refl _, suffix, fun _ _ same => same⟩

/-- What `msg_post_recv` accepts: version 2, a known type whose body is complete,
and a suffix of TLVs where the type admits one. -/
structure Accepted (data : Storage) (cnt : Nat) (type : MsgType) (starts : List Nat) : Prop where
  version : lowNibble (data PtpHeader.ver).toNat = ptpVersion
  known : msgType data = some type
  long : pduLen type ≤ cnt
  suffix : SuffixOf .big data cnt type starts

/-- The message that parsing an accepted one leaves. -/
def decoded (now : Int) (type : MsgType) (starts : List Nat) (msg : Message) : Message where
  data := starts.foldl (tlvIn order) (headed order type msg.data)
  pdu := if timestamped type then pduTime msg.data else msg.pdu
  host := if type = .announce then now else msg.host
  tlvList := msg.tlvList ++ starts.map fun start =>
    (readingAt .big msg.data start).descriptor start
  tlvCount := msg.tlvCount + starts.length

/-- Every access stays in the received octets, and the parser of a TLV stays in
that TLV. -/
def Access.Bounded (data : Storage) (cnt : Nat) (access : Access) : Prop :=
  access.Inside 0 cnt none ∨ access.InTlv data 0 cnt

theorem run_require {condition : Prop} [Decidable condition] (holds : condition)
    (state : RecvState) : require condition state = .ok () state := by
  rw [require, if_pos holds, run_pure]

theorem run_require_not {condition : Prop} [Decidable condition] (fails : ¬ condition)
    (state : RecvState) : require condition state = .error .ebadmsg state := by
  rw [require, if_neg fails, run_throw]

/-- The header of version 2 is converted. -/
theorem succeeds_hdrPostRecv (version : lowNibble (data PtpHeader.ver).toNat = ptpVersion)
    (room : 34 ≤ cnt) (msg : Message) :
    Succeeds cnt (hdrPostRecv order) msg msg data (convertAll order hdrFields data) := by
  have bounds : ∀ field ∈ hdrFields, field.stop ≤ 34 := by decide
  refine succeeds_of_yields msg (yields_bind (yields_octet (Nat.zero_le _) ?_) ?_)
  · simp only [PtpHeader.ver]
    omega
  · rw [if_neg (not_not.mpr version)]
    have yielded := @yields_ntohAll 0 cnt data order 0 hdrFields fun field member =>
      ⟨Nat.zero_le _, by simpa using (bounds field member).trans room⟩
    exact yielded

theorem hdrFields_above : ∀ field ∈ hdrFields, 2 ≤ field.offset ∧ field.stop ≤ 34 := by decide

/-- Behind the header of version 2 the parser goes on with the message's type. -/
theorem run_hdrPostRecv (version : lowNibble (data PtpHeader.ver).toNat = ptpVersion)
    (room : 34 ≤ cnt) (msg : Message) : ∃ accesses : List Access,
      (∀ access ∈ accesses, access.Inside 0 cnt none) ∧
      ∀ next : Nat → Recv Unit,
        (hdrPostRecv order >>= fun _ => octet PtpHeader.tsmt >>= next)
            (stateWith msg none [] data) =
          next (data PtpHeader.tsmt).toNat
            (stateWith msg none accesses (convertAll order hdrFields data)) := by
  obtain ⟨accesses, inside, run⟩ := succeeds_hdrPostRecv order version room msg []
  have tsmt : convertAll order hdrFields data PtpHeader.tsmt = data PtpHeader.tsmt :=
    convertAll_outside fun field member covered => by
      have bound := hdrFields_above field member
      simp only [Field.Covers, PtpHeader.tsmt] at covered
      omega
  refine ⟨accesses ++ [⟨PtpHeader.tsmt, 1, none⟩], fun access member => ?_, fun next => ?_⟩
  · rcases List.mem_append.mp member with early | here
    · exact inside access early
    · obtain rfl := List.mem_singleton.mp here
      exact ⟨rfl, Nat.zero_le _, by simp only [PtpHeader.tsmt]; omega⟩
  · simp only [run_bind, run]
    rw [← tsmt]
    rfl

/-- Header and body parse when they are complete; the suffix is then parsed from
the message they leave. -/
theorem msgPostRecv_headed (now : Int) (msg : Message) {type : MsgType}
    (version : lowNibble (msg.data PtpHeader.ver).toNat = ptpVersion)
    (known : msgType msg.data = some type) (long : pduLen type ≤ cnt) :
    ∃ accesses : List Access, (∀ access ∈ accesses, access.Inside 0 cnt none) ∧
      msgPostRecv order now cnt msg = suffixPostRecv order type (cnt - pduLen type)
        (stateWith (bodied now type msg) none accesses (headed order type msg.data)) := by
  have whole : PtpHeader.size ≤ cnt := Nat.le_trans (by decide) ((pduLen_bound type).trans long)
  obtain ⟨header, headerInside, headerRun⟩ := run_hdrPostRecv order version whole msg
  have stamp : pduTime (convertAll order hdrFields msg.data) = pduTime msg.data := by
    have apart : ∀ other ∈ [bodyTimestamp.secondsLsb, bodyTimestamp.secondsMsb,
        bodyTimestamp.nanoseconds], ∀ field ∈ hdrFields, field.Apart other := by decide
    simp only [pduTime]
    rw [load_convertAll_apart (apart _ (by simp)), load_convertAll_apart (apart _ (by simp)),
      load_convertAll_apart (apart _ (by simp))]
  obtain ⟨body, bodyInside, bodyRun⟩ := @succeeds_bodyPostRecv order cnt
    (convertAll order hdrFields msg.data) now type long msg header
  rw [stamp] at bodyRun
  refine ⟨header ++ body, fun access member => ?_, ?_⟩
  · exact (List.mem_append.mp member).elim (headerInside access) (bodyInside access)
  · have start : ({ msg := msg } : RecvState) = stateWith msg none [] msg.data := rfl
    rw [msgPostRecv, msgPostRecvStep, start, run_bind, run_require whole]
    simp only [headerRun]
    rw [show MsgType.ofCode (lowNibble (msg.data PtpHeader.tsmt).toNat) = some type from known]
    simp only [run_bind, run_require long, bodyRun, headed, convertAll_append]
    rfl

/-- A suffix is parsed the same whether header and body are converted or not. -/
theorem suffix_headed {type : MsgType} {stop : Nat} {starts : List Nat} :
    Suffix .big (headed order type data) stop (pduLen type) starts ↔
      Suffix .big data stop (pduLen type) starts :=
  ⟨fun suffix => suffix_congr suffix fun _ beyond => headed_beyond order type data beyond,
    fun suffix => suffix_congr suffix fun _ beyond => (headed_beyond order type data beyond).symm⟩

theorem withTlvs_headed (now : Int) {type : MsgType} {stop : Nat} {starts : List Nat}
    (msg : Message) (suffix : Suffix .big msg.data stop (pduLen type) starts) :
    withTlvs order (headed order type msg.data) (bodied now type msg) starts =
      decoded order now type starts msg := by
  have descriptors : starts.map (fun start =>
      (readingAt .big (headed order type msg.data) start).descriptor start) =
      starts.map fun start => (readingAt .big msg.data start).descriptor start := by
    refine List.map_congr_left fun start member => ?_
    have low := (suffix_member suffix start member).1
    rw [readingAt_congr .big fun index beyond =>
      headed_beyond order type msg.data (low.trans beyond)]
  simp only [withTlvs, decoded, descriptors, bodied]

/-- Accesses of the suffix's parsers, on the received octets. -/
theorem bounded_of_inTlv {type : MsgType} {access : Access}
    (inside : access.InTlv (headed order type data) (pduLen type) cnt) :
    access.Bounded data cnt := by
  obtain ⟨ptr, low, within⟩ := inside
  rw [tlvStop_congr fun index beyond => headed_beyond order type data (low.trans beyond)] at within
  exact Or.inr ⟨ptr, Nat.zero_le _, within⟩

/-- An accepted message is decoded. -/
theorem msgPostRecv_accepted (now : Int) (msg : Message) {type : MsgType} {starts : List Nat}
    (accepted : Accepted msg.data cnt type starts) : ∃ last accesses,
      (∀ access ∈ accesses, access.Bounded msg.data cnt) ∧
      msgPostRecv order now cnt msg = .ok () ⟨decoded order now type starts msg, last, accesses⟩ := by
  obtain ⟨accesses, inside, run⟩ :=
    msgPostRecv_headed order now msg accepted.version accepted.known accepted.long
  have suffix := accepted.suffix
  rw [run]
  cases ptr : msgSuffix type with
  | none =>
    simp only [SuffixOf, ptr] at suffix
    subst suffix
    refine ⟨none, accesses, fun access member => Or.inl (inside access member), ?_⟩
    simp only [suffixPostRecv, ptr, run_pure, stateWith, bodied, decoded, List.foldl_nil,
      List.map_nil, List.append_nil, List.length_nil, Nat.add_zero]
  | some start =>
    obtain rfl := msgSuffix_eq ptr
    simp only [SuffixOf, ptr] at suffix
    have stop : pduLen type + (cnt - pduLen type) = cnt := by
      have long := accepted.long
      omega
    obtain ⟨more, moreInside, succeeds, _⟩ := suffixLoop_spec order (cnt - pduLen type)
      (cnt - pduLen type) (pduLen type) (Nat.le_refl _) (headed order type msg.data)
      (bodied now type msg) none accesses
    rw [stop] at moreInside succeeds
    obtain ⟨last, success⟩ := succeeds starts ((suffix_headed order).mpr suffix)
    rw [withTlvs_headed order now msg suffix] at success
    refine ⟨last, accesses ++ more, fun access member => ?_, ?_⟩
    · rcases List.mem_append.mp member with early | late
      · exact Or.inl (inside access early)
      · exact bounded_of_inTlv order (moreInside access late)
    · simpa only [suffixPostRecv, ptr] using success

/-- A run that ended in an error after accesses within bounds, and without a
change behind the received octets. -/
def Refused (cnt : Nat) (data : Storage) (result : EStateM.Result Errno RecvState Unit) : Prop :=
  ∃ errno reached, result = .error errno reached ∧
    (∀ access ∈ reached.touched, access.Bounded data cnt) ∧
    ∀ index, cnt ≤ index → reached.msg.data index = data index

/-- A message with a wrong header is refused before its body is parsed. -/
theorem msgPostRecv_unheaded (now : Int) (msg : Message)
    (unheaded : ¬ ∃ type, lowNibble (msg.data PtpHeader.ver).toNat = ptpVersion ∧
      msgType msg.data = some type ∧ pduLen type ≤ cnt) :
    Refused cnt msg.data (msgPostRecv order now cnt msg) := by
  have start : ({ msg := msg } : RecvState) = stateWith msg none [] msg.data := rfl
  rw [msgPostRecv, msgPostRecvStep, start, run_bind]
  by_cases whole : PtpHeader.size ≤ cnt
  · rw [run_require whole]
    by_cases version : lowNibble (msg.data PtpHeader.ver).toNat = ptpVersion
    · obtain ⟨accesses, inside, run⟩ := run_hdrPostRecv order version whole msg
      have bounded : ∀ access ∈ accesses, access.Bounded msg.data cnt :=
        fun access member => Or.inl (inside access member)
      have kept : ∀ index, cnt ≤ index →
          convertAll order hdrFields msg.data index = msg.data index :=
        fun index beyond => convertAll_outside fun field member covered => by
          have bound := hdrFields_above field member
          simp only [Field.Covers, PtpHeader.size] at covered whole
          omega
      simp only [run]
      cases kind : MsgType.ofCode (lowNibble (msg.data PtpHeader.tsmt).toNat) with
      | none => exact ⟨_, _, rfl, bounded, kept⟩
      | some type =>
        have incomplete : ¬ pduLen type ≤ cnt := fun long => unheaded ⟨type, version, kind, long⟩
        simp only [run_bind, run_require_not incomplete]
        exact ⟨_, _, rfl, bounded, kept⟩
    · refine ⟨.eproto, stateWith msg none [⟨PtpHeader.ver, 1, none⟩] msg.data, ?_, ?_, fun _ _ => rfl⟩
      · have read : octet PtpHeader.ver (stateWith msg none [] msg.data) =
            .ok (msg.data PtpHeader.ver).toNat
              (stateWith msg none [⟨PtpHeader.ver, 1, none⟩] msg.data) := rfl
        simp only [hdrPostRecv, run_bind, read]
        rw [if_pos version]
        rfl
      · intro access member
        obtain rfl := List.mem_singleton.mp member
        exact Or.inl ⟨rfl, Nat.zero_le _, Nat.le_trans (by decide) whole⟩
  · rw [run_require_not whole]
    exact ⟨_, _, rfl, by simp [stateWith], fun _ _ => rfl⟩

/-- Whatever is not accepted is refused. -/
theorem msgPostRecv_refused (now : Int) (msg : Message)
    (none : ¬ ∃ type starts, Accepted msg.data cnt type starts) :
    Refused cnt msg.data (msgPostRecv order now cnt msg) := by
  by_cases complete : ∃ type, lowNibble (msg.data PtpHeader.ver).toNat = ptpVersion ∧
      msgType msg.data = some type ∧ pduLen type ≤ cnt
  · obtain ⟨type, version, known, long⟩ := complete
    obtain ⟨accesses, inside, run⟩ := msgPostRecv_headed order now msg version known long
    rw [run]
    cases ptr : msgSuffix type with
    | none => exact absurd ⟨type, [], version, known, long, by simp only [SuffixOf, ptr]⟩ none
    | some start =>
      obtain rfl := msgSuffix_eq ptr
      have noSuffix : ¬ ∃ starts,
          Suffix .big (headed order type msg.data) cnt (pduLen type) starts := by
        rintro ⟨starts, suffix⟩
        refine none ⟨type, starts, version, known, long, ?_⟩
        simp only [SuffixOf, ptr]
        exact (suffix_headed order).mp suffix
      have stop : pduLen type + (cnt - pduLen type) = cnt := by omega
      obtain ⟨more, moreInside, _, fails⟩ := suffixLoop_spec order (cnt - pduLen type)
        (cnt - pduLen type) (pduLen type) (Nat.le_refl _) (headed order type msg.data)
        (bodied now type msg) Option.none accesses
      rw [stop] at moreInside fails
      obtain ⟨reached, failure, touched, untouched, _⟩ := fails noSuffix
      refine ⟨.ebadmsg, reached, by simpa only [suffixPostRecv, ptr] using failure,
        fun access member => ?_, fun index beyond => ?_⟩
      · rw [touched] at member
        rcases List.mem_append.mp member with early | late
        · exact Or.inl (inside access early)
        · exact bounded_of_inTlv order (moreInside access late)
      · exact (untouched index (Or.inr beyond)).trans
          (headed_beyond order type msg.data (long.trans beyond))
  · exact msgPostRecv_unheaded order now msg complete

end Parsing

/-- The descriptors of a decoded message name the TLVs of its suffix. -/
theorem decoded_starts (order : ByteOrder) (now : Int) (type : MsgType) (starts : List Nat)
    (data : Storage) :
    (decoded order now type starts (Message.fresh data)).tlvList.map (·.tlv) = starts := by
  simp [decoded, Message.fresh, Function.comp_def]

end LinuxPtp
