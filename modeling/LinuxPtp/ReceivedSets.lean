import LinuxPtp.Acceptance
import LinuxPtp.LocalOctets
import LinuxPtp.ManagementSet

/-!
# SETs as they are received

What a SET by the local socket stores, told from the octets on the wire. The
parser asks for a length by the type of a TLV and by some identifiers, and
`clock_manage` relies on it without looking at the type again. So a SET acts on
a valid management TLV unless the wire is of one of three kinds: a TLV of
another type, a longer or shorter TLV for one of the two priorities, or a
message that a host of the other byte order sent on before it handled it.
For these it is stated exactly when nothing comes of it.
-/

namespace LinuxPtp.Management

open Octets Recv

/-! ## Valid settings -/

/-- The sole TLV of a received message is a management TLV for a SET of an identifier, and as long as
the identifier requires. -/
structure ValidSetting (wire : List UInt8) (msg : Message) (id : MgmtId) : Prop where
  sole : msg.tlvList.map TlvExtra.tlv = [managementSuffix]
  type : load .big (Tlv.type.shift managementSuffix) (bufferOf wire) = 0x0001
  named : load .big (ManagementTlv.id.shift managementSuffix) (bufferOf wire) = id.code
  length : (settingSize id).map (ManagementTlv.id.width + ·) =
    some (load .big (Tlv.length.shift managementSuffix) (bufferOf wire))

/-- The clock with the values from inside the TLV on the wire: an octet is taken as it is, a number
in the order of the network. Whom a subscription is for is no value of it: it is the sender, whom the
parsed header and the address name. -/
def applied (order : ByteOrder) (e : Surroundings) (wire : Storage) (id : MgmtId)
    (req : ManagementRequest) (c : ManagedClock) : ManagedClock :=
  match id with
  | .priority1 => { c with dds := setOctet DefaultDS.priority1 (wire mgtData) c.dds }
  | .priority2 => { c with dds := setOctet DefaultDS.priority2 (wire mgtData) c.dds }
  | .grandmasterSettingsNp =>
    -- the clock quality is stored as the host has it, its variance converted
    let variance := GrandmasterSettingsNp.offsetScaledLogVariance.shift mgtData
    { c with
      dds := writeOctets DefaultDS.clockQuality
        (octetsAt (mgtData + GrandmasterSettingsNp.clockQuality) 4 (convert order variance wire)) c.dds
      utcOffset := signed16 (load .big (GrandmasterSettingsNp.utcOffset.shift mgtData) wire)
      timeFlags := wire (mgtData + GrandmasterSettingsNp.timeFlags)
      timeSource := wire (mgtData + GrandmasterSettingsNp.timeSource) }
  | .subscribeEventsNp =>
    (clockUpdateSubscription e req (requestedEvents wire) (requestedDuration .big wire)
      { clock := c }).clock
  | .portDataSetNp => { c with ports := c.ports.map (setPort .big wire) }
  | _ => c

/-- The clock after a message from the local socket. -/
def afterUds (order : ByteOrder) (e : Surroundings) (req : ManagementRequest) (c : ManagedClock) :
    ManagedClock := (clockManage order e .uds req c).2.1.clock

/-- Octets that are the same inside the first TLV, and name the same port. -/
structure SameTlv (wire other : Storage) : Prop where
  octets : ∀ index, managementSuffix ≤ index → index < tlvStop .big wire managementSuffix →
    other index = wire index
  target : load .big ManagementMsg.targetPortNumber other =
    load .big ManagementMsg.targetPortNumber wire

/-- A message from the local socket changes the clock only by a valid TLV, which was received as a
whole, and only to the values inside this TLV: those of any octets that are the same there. -/
def ActsByTlv (order : ByteOrder) (e : Surroundings) (wire : List UInt8) (req : ManagementRequest)
    (c : ManagedClock) : Prop :=
  afterUds order e req c ≠ c → ∃ id, ValidSetting wire req.msg id ∧
    tlvStop .big (bufferOf wire) managementSuffix ≤ wire.length ∧
    ∀ other, SameTlv (bufferOf wire) other →
      afterUds order e req c = applied order e other id req c

/-! ## Where it goes wrong -/

/-- A received TLV that the handler takes for another than it is: one that is no management TLV, one
for a priority that is not as long as a priority, and on a little-endian host every one whose message
was sent on, as the identifier stays in the order of the network then. -/
def Misfit (order : ByteOrder) (c : ManagedClock) (wire : Storage) : Prop :=
  load .big (Tlv.type.shift managementSuffix) wire ≠ 0x0001 ∨
  ((load .big (ManagementTlv.id.shift managementSuffix) wire = MgmtId.priority1.code ∨
      load .big (ManagementTlv.id.shift managementSuffix) wire = MgmtId.priority2.code) ∧
    load .big (Tlv.length.shift managementSuffix) wire ≠ 4) ∨
  (order = .little ∧ Leaves c.forwardClock .uds wire)

/-- The same request with other octets. -/
def withData (req : ManagementRequest) (other : Storage) : ManagementRequest :=
  { req with msg := { req.msg with data := other } }

/-- Nothing comes of a parsed message: its TLV is found again when it is sent on, or it is not handled
as a SET, or where a management TLV has its identifier there is none that can be set, or what would be
set is there already. -/
def Ineffective (order : ByteOrder) (e : Surroundings) (req : ManagementRequest) (c : ManagedClock) :
    Prop :=
  let stood := withData req (standing order c.forwardClock .uds req.msg.data)
  ¬ ListedTwice order c.forwardClock .uds req.msg.data → Handled order stood.msg c →
    ∀ id, mgtId order stood.msg.data = id.code → (settingSize id).isSome →
      Repeats order e id stood c

section Received

variable {order : ByteOrder} {e : Surroundings} {c : ManagedClock} {req : ManagementRequest}
  {wire : List UInt8} {now : Int}

theorem code_inj {first second : MgmtId} (same : first.code = second.code) : first = second := by
  have found := MgmtId.ofCode_code first
  rw [same, MgmtId.ofCode_code] at found
  exact (Option.some.inj found).symm

/-- Behind the received octets the buffer is clear. -/
theorem bufferOf_behind {index : Nat} (behind : wire.length ≤ index) : bufferOf wire index = 0 := by
  rw [bufferOf, List.getD_eq_getElem?_getD, List.getElem?_eq_none behind]
  rfl

theorem received_accepted (accepted : received order now wire = some req.msg)
    (management : msgType (bufferOf wire) = some .management) :
    ∃ starts, Accepted (bufferOf wire) wire.length .management starts ∧
      req.msg = decoded order now .management starts (Message.fresh (bufferOf wire)) := by
  unfold received at accepted
  cases run : msgPostRecv order now wire.length (Message.fresh (bufferOf wire)) with
  | ok _ state =>
    rw [run] at accepted
    obtain ⟨starts, fine, same⟩ := parsed_management run management
    exact ⟨starts, fine, (Option.some.inj accepted).symm.trans same⟩
  | error _ _ =>
    rw [run] at accepted
    cases accepted

/-! ## Identifiers that can be set -/

/-- Such an identifier is not zero, and with its octets in the other order it is not another one. -/
theorem settable_code {id : MgmtId} (settable : (settingSize id).isSome) :
    id.code ≠ 0 ∧ id.code ≠ MgmtId.nullManagement.code ∧
      ∀ other : MgmtId, (settingSize other).isSome → swap .little 2 id.code ≠ other.code := by
  cases id with
  | priority1 | priority2 | grandmasterSettingsNp | subscribeEventsNp | portDataSetNp =>
    refine ⟨by decide, by decide, fun other settable => ?_⟩
    cases other <;> first | exact absurd settable (by decide) | decide
  | _ => cases settable

/-- What the parser knows of a management TLV with such an identifier: it carries no `ScaledNs`, and
but for the priorities its data have their size, unless they are missing. -/
theorem settable_reading {id : MgmtId} {size : Nat} (settable : settingSize id = some size)
    {reading : Reading} (management : reading.type = .management) (named : reading.word 4 = id.code) :
    reading.scaledNs = none ∧ (reading.WellSized → id ≠ .priority1 → id ≠ .priority2 →
      reading.length ≠ 2 → reading.length = 2 + size) := by
  have known : reading.managementId = ManagementId.ofCode id.code := by
    rw [Reading.managementId, named]
  have sized : reading.WellSized → reading.length ≠ 2 → reading.ManagementSized := by
    intro fine filled
    rw [Reading.WellSized, management] at fine
    exact fine.2 (by omega)
  cases id with
  | priority1 | priority2 =>
    refine ⟨?_, fun _ first second => ?_⟩
    · rw [Reading.scaledNs, management, known]
      exact if_neg fun both => absurd both.2 (by decide)
    · first | exact absurd rfl first | exact absurd rfl second
  | grandmasterSettingsNp | subscribeEventsNp | portDataSetNp =>
    refine ⟨?_, fun fine _ _ filled => ?_⟩
    · rw [Reading.scaledNs, management, known]
      exact if_neg fun both => absurd both.2 (by decide)
    · have exactly := sized fine filled
      rw [Reading.ManagementSized, known] at exactly
      exact exactly _ settable
  | _ => cases settable

/-- The fields of such a TLV: those of its head, and those of the data of its identifier. -/
theorem settable_fields {id : MgmtId} {size : Nat} (settable : settingSize id = some size)
    {reading : Reading} (management : reading.type = .management) (named : reading.word 4 = id.code)
    (long : 2 < reading.length) :
    reading.fields = Tlv.type :: Tlv.length :: ManagementTlv.id ::
      (Reading.dataSetFields (ManagementId.ofCode id.code)).map (·.shift ManagementTlv.data) := by
  have known : reading.managementId = ManagementId.ofCode id.code := by
    rw [Reading.managementId, named]
  rw [Reading.fields, Reading.valueFields, management]
  dsimp only
  rw [if_pos long, Reading.managementFields, known]
  cases id with
  | priority1 | priority2 | grandmasterSettingsNp | subscribeEventsNp | portDataSetNp => rfl
  | _ => cases settable

/-! ## What stands against what was received -/

variable {starts : List Nat}

/-- What is known of a TLV that a SET is taken for and that is no misfit. -/
structure Fits (order : ByteOrder) (c : ManagedClock) (wire : Storage) : Prop where
  type : load .big (Tlv.type.shift managementSuffix) wire = 0x0001
  long : (load .big (ManagementTlv.id.shift managementSuffix) wire = MgmtId.priority1.code ∨
      load .big (ManagementTlv.id.shift managementSuffix) wire = MgmtId.priority2.code) →
    load .big (Tlv.length.shift managementSuffix) wire = 4
  own : order = .big ∨ ¬ Leaves c.forwardClock .uds wire

theorem fits_of_not_misfit {buffer : Storage} (none : ¬ Misfit order c buffer) :
    Fits order c buffer := by
  obtain ⟨type, rest⟩ := not_or.mp none
  obtain ⟨length, turned⟩ := not_or.mp rest
  refine ⟨not_not.mp type, fun priority => ?_, ?_⟩
  · by_contra other
    exact length ⟨priority, other⟩
  · cases order with
    | big => exact Or.inl rfl
    | little => exact Or.inr fun leaves => turned ⟨rfl, leaves⟩

theorem leaves_parsed (order : ByteOrder) (c : ManagedClock) {buffer : Storage} {cnt : Nat}
    (accepted : Accepted buffer cnt .management starts) :
    Leaves c.forwardClock .uds (parsedBuffer order starts buffer) ↔
      Leaves c.forwardClock .uds buffer := by
  change Leaves _ _ (decoded order 0 .management starts (Message.fresh buffer)).data ↔ _
  exact leaves_decoded accepted

section Standing

variable {buffer : Storage} {cnt : Nat} (accepted : Accepted buffer cnt .management [48])
  (fits : Fits order c buffer)
include accepted fits

theorem standing_inside {index : Nat} (low : 48 ≤ index) (high : index < tlvStop .big buffer 48) :
    standing order c.forwardClock .uds (parsedBuffer order [48] buffer) index =
      transcode order (readingAt .big buffer 48) 48 buffer index := by
  have management : (readingAt .big buffer 48).type = .management := by
    change TlvType.ofCode (load .big (Tlv.type.shift managementSuffix) buffer) = _
    rw [fits.type]
    rfl
  exact standing_tlv (suffix_laid (accepted_suffix accepted)) management
    (fits.own.imp_right (mt (leaves_parsed order c accepted).mp)) low high

/-- The number in a field of the TLV is the one on the wire. -/
theorem standing_value {field : Field} (listed : field ∈ (readingAt .big buffer 48).fields) :
    load order (field.shift 48)
        (standing order c.forwardClock .uds (parsedBuffer order [48] buffer)) =
      load .big (field.shift 48) buffer := by
  have laid := suffix_laid (accepted_suffix accepted)
  have sized := (laid_member laid 48 (List.mem_singleton_self 48)).2
  have bound := Reading.fields_inside sized field listed
  rw [load_congr order _ fun index inside => ?_, load_transcode order sized listed, load_convert]
  refine standing_inside accepted fits ?_ ?_
  · exact (Nat.le_add_right _ _).trans inside.1
  · have last := inside.2
    simp only [Field.shift_stop, tlvStop] at last ⊢
    omega

/-- An octet of the TLV in no field is the one on the wire. -/
theorem standing_octet (plain : (readingAt .big buffer 48).scaledNs = none) {index : Nat}
    (low : 48 ≤ index) (high : index < tlvStop .big buffer 48)
    (apart : ∀ field ∈ (readingAt .big buffer 48).fields, ¬ (field.shift 48).Covers index) :
    standing order c.forwardClock .uds (parsedBuffer order [48] buffer) index = buffer index := by
  rw [standing_inside accepted fits low high]
  refine transcode_uncovered order apart fun base found => ?_
  rw [plain] at found
  cases found

end Standing

/-- What a SET makes of the standing octets is what the values inside the TLV on the wire make.

Proof: by the identifiers. A number was converted once, so that the host reads what the network
wrote; the octets between the numbers were not touched. -/
theorem settled_standing {buffer : Storage} {cnt : Nat}
    (accepted : Accepted buffer cnt .management [48]) (fits : Fits order c buffer)
    (parsed : req.msg.data = parsedBuffer order [48] buffer) {id : MgmtId} {size : Nat}
    (settable : settingSize id = some size)
    (named : load .big (ManagementTlv.id.shift managementSuffix) buffer = id.code)
    (length : (readingAt .big buffer 48).length = 2 + size) :
    settled order e id (withData req (standing order c.forwardClock .uds req.msg.data)) c =
      applied order e buffer id req c := by
  have laid := suffix_laid (accepted_suffix accepted)
  have management : (readingAt .big buffer 48).type = .management := by
    change TlvType.ofCode (load .big (Tlv.type.shift managementSuffix) buffer) = _
    rw [fits.type]
    rfl
  have plain := (settable_reading settable management named).1
  have long : 2 < (readingAt .big buffer 48).length := by
    rw [length]
    cases id <;> cases settable <;> decide
  have fields := settable_fields settable management named long
  have stop : tlvStop .big buffer 48 = 54 + size := by
    rw [tlvStop, length]
    omega
  have value := fun field => @standing_value order c buffer cnt accepted fits field
  have octet := fun index => @standing_octet order c buffer cnt accepted fits plain index
  have inside := fun index => @standing_inside order c buffer cnt accepted fits index
  have head := fun index => @standing_head order buffer c.forwardClock .uds laid
    (fits.own.imp_right (mt (leaves_parsed order c accepted).mp)) index
  rw [stop] at octet inside
  rw [fields] at value octet
  have sized := (laid_member laid 48 (List.mem_singleton_self 48)).2
  rw [parsed]
  generalize standing order c.forwardClock .uds (parsedBuffer order [48] buffer) = stood at *
  cases id with
  | priority1 | priority2 =>
    obtain rfl := Option.some.inj settable
    have there : stood mgtData = buffer mgtData := octet mgtData (by decide) (by decide) (by decide)
    change { c with dds := setOctet _ (stood mgtData) c.dds } = _
    rw [there]
    rfl
  | grandmasterSettingsNp =>
    obtain rfl := Option.some.inj settable
    have offset : load order (GrandmasterSettingsNp.utcOffset.shift mgtData) stood =
        load .big (GrandmasterSettingsNp.utcOffset.shift mgtData) buffer :=
      value ⟨10, 2⟩ (by decide)
    have flags : stood (mgtData + GrandmasterSettingsNp.timeFlags) =
        buffer (mgtData + GrandmasterSettingsNp.timeFlags) :=
      octet 60 (by decide) (by decide) (by decide)
    have source : stood (mgtData + GrandmasterSettingsNp.timeSource) =
        buffer (mgtData + GrandmasterSettingsNp.timeSource) :=
      octet 61 (by decide) (by decide) (by decide)
    have quality : octetsAt (mgtData + GrandmasterSettingsNp.clockQuality) 4 stood =
        octetsAt (mgtData + GrandmasterSettingsNp.clockQuality) 4
          (convert order (GrandmasterSettingsNp.offsetScaledLogVariance.shift mgtData) buffer) := by
      refine octetsAt_congr fun index low high => ?_
      change 54 ≤ index at low
      change index < 58 at high
      by_cases variance : 56 ≤ index
      · rw [inside index (by omega) (by change index < 62; omega)]
        have listed : (⟨8, 2⟩ : Field) ∈ (readingAt .big buffer 48).fields := by
          rw [fields]
          decide
        exact transcode_covered order sized listed ⟨variance, high⟩
      · rw [convert_outside fun covered => variance covered.1]
        have early : index = 54 ∨ index = 55 := by omega
        rcases early with rfl | rfl
        · exact octet 54 (by decide) (by decide) (by decide)
        · exact octet 55 (by decide) (by decide) (by decide)
    change setGrandmaster order stood c = _
    unfold setGrandmaster
    rw [quality, offset, flags, source]
    rfl
  | subscribeEventsNp =>
    obtain rfl := Option.some.inj settable
    have duration : requestedDuration order stood = requestedDuration .big buffer :=
      value ⟨6, 2⟩ (by decide)
    have events : requestedEvents stood = requestedEvents buffer := by
      refine octetsAt_congr fun index low high => ?_
      change 56 ≤ index at low
      change index < 120 at high
      refine octet index (by omega) high fun field listed covered => ?_
      have behind : ∀ field ∈ [Tlv.type, Tlv.length, ManagementTlv.id, ⟨6, 2⟩],
          (field.shift 48).stop ≤ 56 := by decide
      have last := behind field listed
      have first := covered.2
      omega
    have sender : octetsAt PtpHeader.sourcePortIdentity 10 stood =
        octetsAt PtpHeader.sourcePortIdentity 10 req.msg.data := by
      rw [parsed]
      refine octetsAt_congr fun index low high => ?_
      change 20 ≤ index at low
      change index < 30 at high
      exact head index (by omega) (by omega)
    change (clockUpdateSubscription e (withData req stood) (requestedEvents stood)
      (requestedDuration order stood) { clock := c }).clock = _
    unfold clockUpdateSubscription withData applied
    dsimp only
    rw [events, duration, sender]
    rfl
  | portDataSetNp =>
    obtain rfl := Option.some.inj settable
    have thresh : load order (PortDsNp.neighborPropDelayThresh.shift mgtData) stood =
        load .big (PortDsNp.neighborPropDelayThresh.shift mgtData) buffer :=
      value ⟨6, 4⟩ (by decide)
    have target : load order ManagementMsg.targetPortNumber stood =
        load .big ManagementMsg.targetPortNumber buffer := by
      rw [load_congr order _ fun index covered => ?_,
        load_convertAll (headed_separate .management) (by decide)]
      have bound := covered.2
      change index < 44 at bound
      rw [head index (by omega) (by omega), parsed_head laid (by omega)]
      rfl
    have set : setPort order stood = setPort .big buffer := by
      funext port
      have meant : Meant order stood port ↔ Meant .big buffer port := by
        unfold Meant
        rw [target]
      unfold setPort
      rw [thresh]
      simp only [meant]
    change { c with ports := c.ports.map (setPort order stood) } = _
    rw [set]
    rfl
  | _ => cases settable

/-- Every value comes from inside the TLV. -/
theorem applied_alike {buffer other : Storage} {id : MgmtId} {size : Nat}
    (settable : settingSize id = some size) (length : (readingAt .big buffer 48).length = 2 + size)
    (same : SameTlv buffer other) :
    applied order e other id req c = applied order e buffer id req c := by
  have stop : tlvStop .big buffer managementSuffix = 54 + size := by
    change 48 + 4 + (readingAt .big buffer 48).length = 54 + size
    rw [length]
    omega
  have octet : ∀ index, 54 ≤ index → index < 54 + size → other index = buffer index :=
    fun index low high => same.octets index (Nat.le_trans (by decide) low) (by rwa [stop])
  have value : ∀ field : Field, 54 ≤ field.offset → field.stop ≤ 54 + size →
      load .big field other = load .big field buffer := fun field low high =>
    load_congr .big field fun index covered =>
      octet index (low.trans covered.1) (Nat.lt_of_lt_of_le covered.2 high)
  cases id with
  | priority1 | priority2 =>
    obtain rfl := Option.some.inj settable
    have there : other mgtData = buffer mgtData := octet mgtData (by decide) (by decide)
    unfold applied
    dsimp only
    rw [there]
  | grandmasterSettingsNp =>
    obtain rfl := Option.some.inj settable
    have quality : octetsAt (mgtData + GrandmasterSettingsNp.clockQuality) 4
        (convert order (GrandmasterSettingsNp.offsetScaledLogVariance.shift mgtData) other) =
        octetsAt (mgtData + GrandmasterSettingsNp.clockQuality) 4
          (convert order (GrandmasterSettingsNp.offsetScaledLogVariance.shift mgtData) buffer) := by
      refine octetsAt_congr fun index low high => ?_
      change 54 ≤ index at low
      change index < 58 at high
      by_cases variance : 56 ≤ index
      · refine convert_congr order _ (fun inner covered => ?_) index ⟨variance, high⟩
        have last := covered.2
        change inner < 58 at last
        exact octet inner (Nat.le_trans (by decide) covered.1) (by change inner < 62; omega)
      · rw [convert_outside fun covered => variance covered.1,
          convert_outside fun covered => variance covered.1]
        exact octet index low (by change index < 62; omega)
    unfold applied
    dsimp only
    rw [quality, value _ (by decide) (by decide), octet _ (by decide) (by decide),
      octet _ (by decide) (by decide)]
  | subscribeEventsNp =>
    obtain rfl := Option.some.inj settable
    have events : requestedEvents other = requestedEvents buffer :=
      octetsAt_congr fun index low high => octet index (Nat.le_trans (by decide) low) high
    have duration : requestedDuration .big other = requestedDuration .big buffer :=
      value _ (by decide) (by decide)
    unfold applied
    dsimp only
    rw [events, duration]
  | portDataSetNp =>
    obtain rfl := Option.some.inj settable
    have set : setPort .big other = setPort .big buffer := by
      funext port
      have meant : Meant .big other port ↔ Meant .big buffer port := by
        unfold Meant
        rw [same.target]
      unfold setPort
      rw [value _ (by decide) (by decide)]
      simp only [meant]
    unfold applied
    dsimp only
    rw [set]
  | _ => rfl

theorem afterUds_eq : afterUds order e req c = (clockManageLocal order e .uds
    { req with msg := (clockForwardMgmtMsg order e.now c.forwardClock .uds req.msg).1 }
    { clock := c }).2.clock := rfl

/-- A message that is handled once, as a SET of an identifier: what it does to the clock. -/
theorem afterUds_standing {buffer : Storage} {cnt : Nat}
    (accepted : Accepted buffer cnt .management [48])
    (parsed : req.msg = decoded order now .management [48] (Message.fresh buffer))
    (once : ¬ ListedTwice order c.forwardClock .uds req.msg.data)
    (handled : Handled order (withData req (standing order c.forwardClock .uds req.msg.data)).msg c)
    {id : MgmtId}
    (known : mgtId order (standing order c.forwardClock .uds req.msg.data) = id.code) :
    afterUds order e req c =
      settled order e id (withData req (standing order c.forwardClock .uds req.msg.data)) c := by
  have host : req.msg.data = parsedBuffer order [48] buffer := by
    rw [parsed]
    rfl
  have later : (clockForwardMgmtMsg order e.now c.forwardClock .uds req.msg).1.data =
        standing order c.forwardClock .uds req.msg.data ∧
      (clockForwardMgmtMsg order e.now c.forwardClock .uds req.msg).1.tlvCount = 1 := by
    rw [host] at once
    rw [host, parsed]
    exact local_standing accepted once
  have again : Handled order (clockForwardMgmtMsg order e.now c.forwardClock .uds req.msg).1 c := by
    refine ⟨?_, later.2, ?_, ?_⟩
    · rw [later.1]
      exact handled.mine
    · rw [later.1]
      exact handled.set
    · rw [later.1]
      exact handled.filled
  have named : mgtId order (clockForwardMgmtMsg order e.now c.forwardClock .uds req.msg).1.data =
      id.code := by
    rw [later.1]
    exact known
  calc afterUds order e req c
      = settled order e id { req with
          msg := (clockForwardMgmtMsg order e.now c.forwardClock .uds req.msg).1 } c :=
        clockManageLocal_handled again named
    _ = settled order e id
          (withData req (standing order c.forwardClock .uds req.msg.data)) c :=
        @settled_congr order e (withData req (standing order c.forwardClock .uds req.msg.data)) c
          { req with msg := (clockForwardMgmtMsg order e.now c.forwardClock .uds req.msg).1 }
          later.1 rfl id

/-- A message that changes the clock had a sole TLV, was handled once, and as a SET of an identifier
that can be set. -/
theorem changed_standing {buffer : Storage} {cnt : Nat}
    (accepted : Accepted buffer cnt .management starts)
    (zeros : ∀ index, cnt ≤ index → buffer index = 0)
    (parsed : req.msg = decoded order e.now .management starts (Message.fresh buffer))
    (changed : afterUds order e req c ≠ c) :
    starts = [48] ∧ ¬ ListedTwice order c.forwardClock .uds req.msg.data ∧
    Handled order (withData req (standing order c.forwardClock .uds req.msg.data)).msg c ∧
    ∃ id, mgtId order (standing order c.forwardClock .uds req.msg.data) = id.code ∧
      (settingSize id).isSome ∧
      ¬ Repeats order e id (withData req (standing order c.forwardClock .uds req.msg.data)) c := by
  obtain ⟨passed, forwarded⟩ : ∃ passed : ManagementRequest, passed =
      { req with msg := (clockForwardMgmtMsg order e.now c.forwardClock .uds req.msg).1 } := ⟨_, rfl⟩
  have after : afterUds order e req c =
      (clockManageLocal order e .uds passed { clock := c }).2.clock := by
    rw [forwarded, afterUds_eq]
  have handled : Handled order passed.msg c := by
    by_contra unhandled
    exact changed (after.trans (clockManageLocal_unhandled fun handled => absurd handled unhandled))
  obtain ⟨id, found⟩ : ∃ id, MgmtId.ofCode (mgtId order passed.msg.data) = some id := by
    by_contra unknown
    refine changed (after.trans (clockManageLocal_unhandled fun _ => ?_))
    exact Option.eq_none_iff_forall_ne_some.mpr fun id found => unknown ⟨id, found⟩
  have known := (MgmtId.code_of_ofCode found).symm
  have fresh : ¬ Repeats order e id passed c := fun repeats =>
    changed ((after.trans (clockManageLocal_handled handled known)).trans
      ((settled_same_iff id).mpr repeats))
  have settable : (settingSize id).isSome := by
    by_contra unsettable
    exact fresh (repeats_of_unsettable (Option.not_isSome_iff_eq_none.mp unsettable))
  have host : req.msg.data = parsedBuffer order starts buffer := by
    rw [parsed]
    rfl
  have sole : (clockForwardMgmtMsg order e.now c.forwardClock .uds
      (decoded order e.now .management starts (Message.fresh buffer))).1.tlvCount = 1 := by
    have count := handled.sole
    rwa [forwarded, parsed] at count
  have named : load order ⟨52, 2⟩ (clockForwardMgmtMsg order e.now c.forwardClock .uds
      (decoded order e.now .management starts (Message.fresh buffer))).1.data ≠ 0 := by
    have code := (settable_code settable).1
    rw [← known, forwarded, parsed] at code
    exact code
  obtain ⟨rfl, once⟩ := local_sole accepted zeros sole named
  rw [← host] at once
  have stood : passed.msg.data = standing order c.forwardClock .uds req.msg.data := by
    rw [forwarded, host, parsed]
    exact (local_standing accepted (host ▸ once)).1
  refine ⟨rfl, once, ⟨?_, ?_, ?_, ?_⟩, id, stood ▸ known, settable, fun repeats => fresh ?_⟩
  · rw [← stood]
    exact handled.mine
  · change req.msg.tlvCount = 1
    rw [parsed]
    rfl
  · rw [← stood]
    exact handled.set
  · rw [← stood]
    exact handled.filled
  · have address : passed.address = req.address := by rw [forwarded]
    have same := @settled_congr order e
      (withData req (standing order c.forwardClock .uds req.msg.data)) c passed stood address id
    exact (settled_same_iff id).mp (same.trans ((settled_same_iff id).mpr repeats))

theorem received_within {wire : List UInt8} {now : Int} {msg : Message}
    (accepted : received order now wire = some msg) {start : Nat}
    (member : start ∈ msg.tlvList.map TlvExtra.tlv) :
    tlvStop .big (bufferOf wire) start ≤ wire.length := by
  obtain ⟨extra, listed, rfl⟩ := List.mem_map.mp member
  obtain ⟨_, _, _, grammar⟩ := msgPostRecv_grammar order now wire.length (bufferOf wire)
  unfold received at accepted
  cases run : msgPostRecv order now wire.length (Message.fresh (bufferOf wire)) with
  | ok _ state =>
    rw [run] at accepted
    obtain ⟨_, _, told⟩ := grammar state run
    rw [← Option.some.inj accepted] at listed
    exact (told.inside extra listed).fits
  | error _ _ =>
    rw [run] at accepted
    cases accepted

/-- On a little-endian host no valid TLV is taken for a SET after its message was sent on: its
identifier stands there with its octets in the other order, which no other one is. -/
theorem valid_not_turned {msg : Message}
    (fine : Accepted (bufferOf wire) wire.length .management [48]) {named : MgmtId}
    (valid : ValidSetting wire msg named) (leaves : Leaves c.forwardClock .uds (bufferOf wire))
    {id : MgmtId} (known : mgtId .little (standing .little c.forwardClock .uds
      (parsedBuffer .little [48] (bufferOf wire))) = id.code) :
    ¬ (settingSize id).isSome := by
  intro settable
  have settableToo : (settingSize named).isSome := by
    have long := congrArg Option.isSome valid.length
    rwa [Option.isSome_map] at long
  obtain ⟨size, sized⟩ := Option.isSome_iff_exists.mp settableToo
  have management : (readingAt .big (bufferOf wire) 48).type = .management := by
    change TlvType.ofCode (load .big (Tlv.type.shift managementSuffix) (bufferOf wire)) = _
    rw [valid.type]
    rfl
  have complete : ¬ (readingAt .big (bufferOf wire) 48).Overlong := by
    rintro ⟨path, _⟩
    rw [management] at path
    cases path
  have length := valid.length
  rw [sized, Option.map_some, Option.some.injEq] at length
  have stood : load .little (ManagementTlv.id.shift managementSuffix)
      (standing .little c.forwardClock .uds (parsedBuffer .little [48] (bufferOf wire))) =
      load .little (ManagementTlv.id.shift managementSuffix) (bufferOf wire) := by
    refine load_congr .little _ fun index covered => standing_relayed
      (suffix_laid (accepted_suffix fine)) complete
      (settable_reading sized management valid.named).1
      ((leaves_parsed .little c fine).mpr leaves) covered.1 ?_
    have last := covered.2
    change index < 54 at last
    change index < 48 + 4 + load .big (Tlv.length.shift managementSuffix) (bufferOf wire)
    change 2 + size = _ at length
    omega
  have turned : swap .little 2 id.code = named.code := by
    rw [← known, mgtId, stood, ← valid.named]
    exact swap_load .little (ManagementTlv.id.shift managementSuffix) (bufferOf wire)
  exact (settable_code settable).2.2 named settableToo turned

/-- What is taken for a SET and is no misfit has a valid head: the identifier on the wire is the one
that stands, and the parser has checked the length by it. -/
theorem fits_valid {buffer : Storage} {cnt : Nat}
    (accepted : Accepted buffer cnt .management [48]) (fits : Fits order c buffer)
    {id : MgmtId} {size : Nat} (settable : settingSize id = some size)
    (known : mgtId order (standing order c.forwardClock .uds (parsedBuffer order [48] buffer)) =
      id.code)
    (filled : mgtLength order (standing order c.forwardClock .uds
        (parsedBuffer order [48] buffer)) ≠ 2 ∨
      mgtId order (standing order c.forwardClock .uds (parsedBuffer order [48] buffer)) =
        MgmtId.nullManagement.code) :
    load .big (ManagementTlv.id.shift managementSuffix) buffer = id.code ∧
      (readingAt .big buffer 48).length = 2 + size := by
  have management : (readingAt .big buffer 48).type = .management := by
    change TlvType.ofCode (load .big (Tlv.type.shift managementSuffix) buffer) = _
    rw [fits.type]
    rfl
  have sized := (laid_member (suffix_laid (accepted_suffix accepted)) 48
    (List.mem_singleton_self 48)).2
  have named : load .big (ManagementTlv.id.shift managementSuffix) buffer = id.code := by
    rw [← known]
    refine (standing_value accepted fits ?_).symm
    simp [Reading.fields, Reading.valueFields, management]
  have long : (readingAt .big buffer 48).length ≠ 2 := by
    have lengths : mgtLength order (standing order c.forwardClock .uds
        (parsedBuffer order [48] buffer)) = (readingAt .big buffer 48).length :=
      standing_value accepted fits (by simp [Reading.fields])
    rw [lengths, known] at filled
    exact filled.resolve_right (settable_code (by rw [settable]; rfl)).2.1
  refine ⟨named, ?_⟩
  by_cases priority : id = .priority1 ∨ id = .priority2
  · have four := fits.long (by
      rw [named]
      exact priority.imp (congrArg MgmtId.code) (congrArg MgmtId.code))
    change load .big (Tlv.length.shift managementSuffix) buffer = 2 + size
    rw [four]
    rcases priority with rfl | rfl <;> cases settable <;> rfl
  · obtain ⟨first, second⟩ := not_or.mp priority
    exact (settable_reading settable management named).2 sized first second long

/-- A SET from the local socket acts only on a valid TLV, and only by what is inside it, exactly if
nothing comes of it where the received TLV is a misfit.

Proof: what is done is done to the standing octets by their identifier. For a misfit the wire has no
valid TLV of that identifier: the type or the length is wrong, or the identifier is one with its
octets in the other order, which none that can be set is. For any other TLV the parser has checked
the length by the identifier, and the standing octets hold the values of the wire. -/
theorem set_acts_by_tlv (accepted : received order now wire = some req.msg)
    (management : msgType (bufferOf wire) = some .management) :
    ActsByTlv order e wire req c ↔ (Misfit order c (bufferOf wire) → Ineffective order e req c) := by
  obtain ⟨starts, fine, parsed⟩ := received_accepted accepted management
  have zeros : ∀ index, wire.length ≤ index → bufferOf wire index = 0 := fun index =>
    bufferOf_behind
  have host : req.msg.data = parsedBuffer order starts (bufferOf wire) := by
    rw [parsed]
    rfl
  constructor
  · intro acts misfit once handled id known settable
    by_contra fresh
    have one : starts = [48] := by
      have count := handled.sole
      change req.msg.tlvCount = 1 at count
      rw [parsed] at count
      exact sole_start (accepted_suffix fine) ((Nat.zero_add _).symm.trans count)
    subst one
    have after := afterUds_standing (e := e) fine parsed once handled known
    obtain ⟨named, valid, _, _⟩ := acts fun same =>
      fresh ((settled_same_iff id).mp (after.symm.trans same))
    rcases misfit with type | ⟨priority, length⟩ | ⟨rfl, leaves⟩
    · exact type valid.type
    · have long := valid.length
      rw [valid.named] at priority
      rcases priority with same | same
      · rw [code_inj same] at long
        exact length (Option.some.inj long).symm
      · rw [code_inj same] at long
        exact length (Option.some.inj long).symm
    · rw [host] at known
      exact valid_not_turned fine valid leaves known settable
  · intro harmless changed
    obtain ⟨rfl, once, handled, id, known, settable, fresh⟩ :=
      changed_standing fine zeros parsed changed
    have fits := fits_of_not_misfit fun misfit =>
      fresh (harmless misfit once handled id known settable)
    obtain ⟨size, sized⟩ := Option.isSome_iff_exists.mp settable
    obtain ⟨named, length⟩ := fits_valid fine fits sized (host ▸ known) (host ▸ handled.filled)
    have valid : ValidSetting wire req.msg id := by
      refine ⟨?_, fits.type, named, ?_⟩
      · rw [parsed]
        exact decoded_starts order now .management [48] (bufferOf wire)
      · rw [sized]
        exact congrArg some length.symm
    refine ⟨id, valid, ?_, ?_⟩
    · refine received_within accepted ?_
      rw [valid.sole]
      exact List.mem_singleton_self _
    · intro other same
      rw [afterUds_standing fine parsed once handled known,
        settled_standing fine fits host sized named length]
      exact (applied_alike sized length same).symm

end Received

theorem set_acts_by_tlv_priority :
    ActsByTlv .little plenty (setOctets priorityTlv) (requestOf (setOctets priorityTlv))
        startedClock ↔
      (Misfit .little startedClock (bufferOf (setOctets priorityTlv)) →
        Ineffective .little plenty (requestOf (setOctets priorityTlv)) startedClock) := by
  have accepted : (received .little 0 (setOctets priorityTlv)).isSome := by decide +kernel
  refine @set_acts_by_tlv .little plenty startedClock _ _ 0 ?_ (by decide +kernel)
  unfold requestOf
  cases there : received .little 0 (setOctets priorityTlv) with
  | none =>
    rw [there] at accepted
    cases accepted
  | some msg => rfl

/-- A TLV of type AUTHENTICATION. -/
def foreignTlv : List UInt8 := [0x20, 0, 0, 4, 5, 0x20, 7, 0]

/-- A management TLV for the first priority that is longer than this datum. -/
def longTlv : List UInt8 := [0, 1, 0, 6, 0x20, 5, 7, 0, 0, 0]

/-- A message with a TLV is accepted and changes the first priority without being valid. -/
structure Misled (tlv : List UInt8) : Prop where
  accepted : (received .little 0 (setOctets tlv)).isSome
  before : startedClock.dds DefaultDS.priority1 = 128
  after : (afterUds .little plenty (requestOf (setOctets tlv)) startedClock).dds
    DefaultDS.priority1 = 7
  invalid : ¬ActsByTlv .little plenty (setOctets tlv) (requestOf (setOctets tlv)) startedClock

/-- A message that changes the first priority acts on a valid TLV only if its TLV is one. -/
theorem misled_of_invalid {tlv : List UInt8} (accepted : (received .little 0 (setOctets tlv)).isSome)
    (after : (afterUds .little plenty (requestOf (setOctets tlv)) startedClock).dds
      DefaultDS.priority1 = 7)
    (invalid : ∀ id, ¬ValidSetting (setOctets tlv) (requestOf (setOctets tlv)).msg id) :
    Misled tlv := by
  have before : startedClock.dds DefaultDS.priority1 = 128 := by decide
  refine ⟨accepted, before, after, fun acts => ?_⟩
  obtain ⟨id, valid, _⟩ := acts fun same => by
    rw [same, before] at after
    cases after
  exact invalid id valid

theorem foreign_tlv_sets : Misled foreignTlv ∧ Misled longTlv := by
  refine ⟨misled_of_invalid (by decide +kernel) (by decide +kernel) fun id valid => ?_,
    misled_of_invalid (by decide +kernel) (by decide +kernel) fun id valid => ?_⟩
  · exact absurd valid.type (by decide +kernel)
  · have named : load .big (ManagementTlv.id.shift managementSuffix)
        (bufferOf (setOctets longTlv)) = MgmtId.priority1.code := by decide +kernel
    have length : load .big (Tlv.length.shift managementSuffix) (bufferOf (setOctets longTlv)) = 6 := by
      decide +kernel
    obtain rfl := code_inj (valid.named.symm.trans named)
    have required := Option.some.inj valid.length
    rw [length] at required
    cases required

end LinuxPtp.Management
