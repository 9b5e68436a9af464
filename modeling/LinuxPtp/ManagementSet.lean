import LinuxPtp.ManagementAccess

/-!
# What a SET by the local socket does

The effect of a SET on the clock, told apart from the responses: it is decided by what stands where
a management TLV would have its length, its identifier and its data, whatever the TLV is.

The clock answers before or after it stores, and the ports are asked one after another; none of the
responses writes to what a SET sets, so the effect is one function of the identifier and of the
buffer. Whether it changes anything at all can be said of the buffer and the clock alone.
-/

namespace LinuxPtp.Management

open Octets Recv

section Effect

variable (order : ByteOrder) (e : Surroundings)

/-! ## The effect of a SET -/

/-- The port is meant by a message. -/
def Meant (data : Storage) (port : ManagedPort) : Prop :=
  load order ManagementMsg.targetPortNumber data = port.portnum ∨
    load order ManagementMsg.targetPortNumber data = 0xffff

instance (data : Storage) (port : ManagedPort) : Decidable (Meant order data port) :=
  inferInstanceAs (Decidable (_ ∨ _))

/-- `clock_manage` gets to a SET. -/
structure Handled (msg : Message) (c : ManagedClock) : Prop where
  mine : octetsAt ManagementMsg.targetPortIdentity ClockIdentity.size msg.data =
      List.replicate ClockIdentity.size 0xff ∨
    octetsAt ManagementMsg.targetPortIdentity ClockIdentity.size msg.data =
      octetsAt DefaultDS.clockIdentity ClockIdentity.size c.dds
  sole : msg.tlvCount = 1
  set : managementAction msg.data = .set
  filled : mgtLength order msg.data ≠ 2 ∨ mgtId order msg.data = MgmtId.nullManagement.code

/-- The new threshold of a port that is meant. -/
def setPort (data : Storage) (port : ManagedPort) : ManagedPort :=
  if Meant order data port then
    let thresh := load order (PortDsNp.neighborPropDelayThresh.shift mgtData) data
    { port with neighborPropDelayThresh := UInt32.ofNat thresh }
  else port

/-- What a SET of an identifier does to the clock. -/
def settled (id : MgmtId) (req : ManagementRequest) (c : ManagedClock) : ManagedClock :=
  match clockManagementStore order e id.code req { clock := c } with
  | some (_, s) => s.clock
  | none =>
    if id = .portDataSetNp then { c with ports := c.ports.map (setPort order req.msg.data) } else c

/-! ## The ports -/

variable {order e} {s : Managing} {p : PortRef}

theorem foldl_modify {α : Type} (change : α → α) (list : List α) (count : Nat) (index : Nat) :
    ((List.range count).foldl (fun list index => list.modify index change) list)[index]? =
      if index < count then list[index]?.map change else list[index]? := by
  induction count with
  | zero => rfl
  | succ count inductionHypothesis =>
    rw [List.range_succ, List.foldl_append, List.foldl_cons, List.foldl_nil, List.getElem?_modify,
      inductionHypothesis]
    rcases Nat.lt_trichotomy index count with before | here | after
    · rw [if_pos before, if_pos (Nat.lt_succ_of_lt before)]
      simp [Nat.ne_of_gt before]
    · subst here
      simp
    · rw [if_neg (Nat.not_lt_of_gt after), if_neg (by omega)]
      simp [Nat.ne_of_lt after]

/-- Changing all elements one after another is mapping. -/
theorem foldl_modify_all {α : Type} (change : α → α) (list : List α) :
    (List.range list.length).foldl (fun list index => list.modify index change) list =
      list.map change := by
  refine List.ext_getElem? fun index => ?_
  rw [foldl_modify, List.getElem?_map]
  split
  · rfl
  next beyond =>
    rw [List.getElem?_eq_none (Nat.not_lt.mp beyond)]
    rfl

/-- A change of one element depends on that element only. -/
theorem modify_congr {α : Type} {list : List α} {index : Nat} {first second : α → α}
    (same : ∀ element, list[index]? = some element → first element = second element) :
    list.modify index first = list.modify index second := by
  refine List.ext_getElem? fun other => ?_
  rw [List.getElem?_modify, List.getElem?_modify]
  by_cases here : index = other
  · subst here
    cases there : list[index]? with
    | none => rfl
    | some element => simp [same element there]
  · simp [here]

/-- A port that is set for another identifier than PORT_DATA_SET_NP stays as it is. -/
theorem portManage_other {target : Nat} {req : Message} (set : managementAction req.data = .set)
    (other : MgmtId.ofCode (mgtId order req.data) ≠ some .portDataSetNp) :
    (portManage order e target p req s).2.clock = s.clock := by
  have unset : portManagementStore order target (mgtId order req.data) req.data s.clock = none := by
    unfold portManagementStore
    split
    next same => exact absurd same other
    next => rfl
  unfold portManage portManagementSet
  dsimp only
  rw [set, unset]
  split
  · rfl
  · exact portManageError_clock

theorem portManageAll_other {req : Message} (set : managementAction req.data = .set)
    (other : MgmtId.ofCode (mgtId order req.data) ≠ some .portDataSetNp) (targets : List Nat)
    (answers : Nat) : (portManageAll order e p req targets answers s).2.clock = s.clock := by
  induction targets generalizing answers s with
  | nil => rfl
  | cons target rest inductionHypothesis =>
    have first := @portManage_other order e s p target req set other
    unfold portManageAll
    dsimp only
    split
    · exact first
    · exact (inductionHypothesis _).trans first

/-- A port that is set for PORT_DATA_SET_NP gets the threshold if it is meant, and never fails. -/
theorem portManage_thresh {target : Nat} {req : Message}
    (set : managementAction req.data = .set)
    (thresh : MgmtId.ofCode (mgtId order req.data) = some .portDataSetNp)
    (present : target < s.clock.ports.length) :
    0 ≤ (portManage order e target p req s).1 ∧
      (portManage order e target p req s).2.clock =
        s.clock.withPort target (setPort order req.data) := by
  obtain ⟨port, here⟩ : ∃ port, s.clock.ports[target]? = some port :=
    ⟨_, List.getElem?_eq_getElem present⟩
  have found : s.clock.port (.port target) = port := by
    unfold ManagedClock.port
    dsimp only
    rw [List.getD_eq_getElem?_getD, here]
    rfl
  unfold portManage portManagementSet portManagementStore
  dsimp only
  rw [set, thresh, found]
  by_cases meant : Meant order req.data port
  · have taken : ¬(load order ManagementMsg.targetPortNumber req.data ≠ port.portnum ∧
        load order ManagementMsg.targetPortNumber req.data ≠ 0xffff) := by
      rintro ⟨first, second⟩
      exact meant.elim first second
    rw [if_neg taken]
    refine ⟨(by decide : (0 : Int) ≤ 1), ?_⟩
    change (getResponse order e _ _ _ _ _).2.clock = _
    rw [getResponse_clock]
    unfold ManagedClock.withPort
    dsimp only
    congr 1
    refine modify_congr fun element there => ?_
    rw [here] at there
    rw [← Option.some.inj there, setPort, if_pos meant]
  · have passed : load order ManagementMsg.targetPortNumber req.data ≠ port.portnum ∧
        load order ManagementMsg.targetPortNumber req.data ≠ 0xffff := not_or.mp meant
    rw [if_pos passed]
    refine ⟨(by decide : (0 : Int) ≤ 0), ?_⟩
    have same : s.clock.ports.modify target (setPort order req.data) =
        s.clock.ports.modify target id := by
      refine modify_congr fun element there => ?_
      rw [here] at there
      rw [← Option.some.inj there, setPort, if_neg meant]
      rfl
    unfold ManagedClock.withPort
    rw [same, List.modify_id]

theorem portManageAll_thresh {req : Message} {ports : List ManagedPort}
    (set : managementAction req.data = .set)
    (thresh : MgmtId.ofCode (mgtId order req.data) = some .portDataSetNp) (targets : List Nat)
    (answers : Nat) (present : ∀ target ∈ targets, target < s.clock.ports.length)
    (changed : ports = targets.foldl
      (fun ports target => ports.modify target (setPort order req.data)) s.clock.ports) :
    (portManageAll order e p req targets answers s).2.clock = { s.clock with ports := ports } := by
  induction targets generalizing answers s with
  | nil =>
    rw [changed]
    rfl
  | cons target rest inductionHypothesis =>
    obtain ⟨positive, first⟩ := @portManage_thresh order e s p target req set thresh
      (present target List.mem_cons_self)
    unfold portManageAll
    dsimp only
    rw [if_neg (by omega), inductionHypothesis]
    · rw [first]
      rfl
    · intro other member
      rw [first]
      unfold ManagedClock.withPort
      dsimp only
      rw [List.length_modify]
      exact present other (List.mem_cons_of_mem _ member)
    · rw [changed, first]
      rfl

/-! ## The clock -/

/-- The effect of a SET for another identifier than PORT_DATA_SET_NP ends with the clock. -/
theorem clockManageRest_other {req : Message} (set : managementAction req.data = .set)
    (other : MgmtId.ofCode (mgtId order req.data) ≠ some .portDataSetNp) :
    (clockManageRest order e p req s).clock = s.clock := by
  unfold clockManageRest
  dsimp only
  split
  · exact portManagementError_clock
  split
  · exact portManagementError_clock
  have asked := @portManageAll_other order e s p req set other (List.range s.clock.ports.length) 0
  split
  next after failed =>
    rw [failed] at asked
    exact asked
  next answers after answered =>
    rw [answered] at asked
    split
    · exact portManagementError_clock.trans asked
    · exact asked

theorem clockManageRest_thresh {req : Message} (set : managementAction req.data = .set)
    (thresh : MgmtId.ofCode (mgtId order req.data) = some .portDataSetNp) :
    (clockManageRest order e p req s).clock =
      { s.clock with ports := s.clock.ports.map (setPort order req.data) } := by
  have asked := @portManageAll_thresh order e s p req _ set thresh
    (List.range s.clock.ports.length) 0 (fun target member => List.mem_range.mp member)
    (foldl_modify_all _ _).symm
  unfold clockManageRest
  dsimp only
  rw [thresh, if_neg (by simp), if_neg (by decide)]
  split
  next after failed =>
    rw [failed] at asked
    exact asked
  next answers after answered =>
    rw [answered] at asked
    split
    · exact portManagementError_clock.trans asked
    · exact asked

/-- What `clock_manage` does after `clock_management_set`. -/
theorem clockManagementSet_rest {id : MgmtId} {req : ManagementRequest} {c : ManagedClock}
    (set : managementAction req.msg.data = .set) (known : mgtId order req.msg.data = id.code) :
    (if (clockManagementSet order e p id.code req { clock := c }).1 then
        (clockManagementSet order e p id.code req { clock := c }).2.2
      else clockManageRest order e p req.msg
        (clockManagementSet order e p id.code req { clock := c }).2.2).clock =
      settled order e id req c := by
  unfold clockManagementSet settled
  cases stored : clockManagementStore order e id.code req { clock := c } with
  | some outcome => exact getResponse_clock
  | none =>
    dsimp only
    rw [if_neg Bool.false_ne_true]
    split
    next thresh =>
      subst thresh
      rw [clockManageRest_thresh set (by rw [known, MgmtId.ofCode_code])]
    next other =>
      rw [clockManageRest_other set]
      rw [known, MgmtId.ofCode_code]
      exact fun same => other (Option.some.inj same)

/-- A SET by the local socket that gets through has its effect. -/
theorem clockManageLocal_handled {req : ManagementRequest} {c : ManagedClock}
    (handled : Handled order req.msg c) {id : MgmtId} (known : mgtId order req.msg.data = id.code) :
    (clockManageLocal order e .uds req { clock := c }).2.clock = settled order e id req c := by
  have mine : ¬(octetsAt ManagementMsg.targetPortIdentity ClockIdentity.size req.msg.data ≠
        List.replicate ClockIdentity.size 0xff ∧
      octetsAt ManagementMsg.targetPortIdentity ClockIdentity.size req.msg.data ≠
        octetsAt DefaultDS.clockIdentity ClockIdentity.size c.dds) := by
    rintro ⟨first, second⟩
    exact handled.mine.elim first second
  have filled : ¬(mgtLength order req.msg.data = 2 ∧ id.code ≠ MgmtId.nullManagement.code) := by
    rintro ⟨first, second⟩
    exact handled.filled.elim (fun other => other first) fun same => second (known ▸ same)
  rw [← clockManagementSet_rest (p := .uds) handled.set known]
  unfold clockManageLocal
  dsimp only
  rw [if_neg mine, if_neg (not_not.mpr handled.sole), handled.set]
  dsimp only
  rw [known, if_neg filled, if_neg (by simp)]
  split
  · rfl
  · rfl

/-- Every other message from the local socket has none. -/
theorem clockManageLocal_unhandled {req : ManagementRequest} {c : ManagedClock}
    (unhandled : Handled order req.msg c → MgmtId.ofCode (mgtId order req.msg.data) = none) :
    (clockManageLocal order e .uds req { clock := c }).2.clock = c := by
  unfold clockManageLocal
  dsimp only
  split
  · rfl
  next mine =>
  split
  · rfl
  next sole =>
  split
  next get =>
    split
    · exact getResponse_clock
    · refine (clockManageRest_clock ?_).trans getResponse_clock
      rw [get]
      decide
  next set =>
    split
    · exact portManagementError_clock
    next filled =>
    have addressed : octetsAt ManagementMsg.targetPortIdentity ClockIdentity.size req.msg.data =
          List.replicate ClockIdentity.size 0xff ∨
        octetsAt ManagementMsg.targetPortIdentity ClockIdentity.size req.msg.data =
          octetsAt DefaultDS.clockIdentity ClockIdentity.size c.dds := by
      by_contra other
      exact mine (not_or.mp other)
    have nonempty : mgtLength order req.msg.data ≠ 2 ∨
        mgtId order req.msg.data = MgmtId.nullManagement.code := by
      by_contra other
      obtain ⟨first, second⟩ := not_or.mp other
      exact filled ⟨not_not.mp first, second⟩
    have unknown := unhandled ⟨addressed, not_not.mp sole, set, nonempty⟩
    have unset : clockManagementStore order e (mgtId order req.msg.data) req { clock := c } =
        none := by
      unfold clockManagementStore
      rw [unknown]
    unfold clockManagementSet
    rw [unset]
    refine clockManageRest_other set ?_
    rw [unknown]
    decide
  next command =>
    refine clockManageRest_clock ?_
    rw [command]
    decide
  all_goals rfl

/-! ## What a SET changes -/

variable (order e)

/-- The identifiers that can be set, with the size that their data have. -/
def settingSize : MgmtId → Option Nat
  | .priority1 | .priority2 => some 2
  | .grandmasterSettingsNp => some GrandmasterSettingsNp.size
  | .subscribeEventsNp => some SubscribeEventsNp.size
  | .portDataSetNp => some PortDsNp.size
  | _ => none

/-- The duration of a subscription. -/
def requestedDuration (data : Storage) : Nat :=
  load order (SubscribeEventsNp.duration.shift mgtData) data

/-- The events of a subscription. -/
def requestedEvents (data : Storage) : List UInt8 :=
  octetsAt (mgtData + SubscribeEventsNp.bitmask) SubscribeEventsNp.bitmaskCnt data

/-- Nothing is subscribed that is not subscribed already. -/
def Resubscribes (req : ManagementRequest) (c : ManagedClock) : Prop :=
  let sender := octetsAt PtpHeader.sourcePortIdentity 10 req.msg.data
  let events := requestedEvents req.msg.data
  match c.subscribers.findIdx? fun s => s.targetPortIdentity = sender with
  | some found => ¬events.all (· = 0) ∧ ∀ s, c.subscribers[found]? = some s →
      s.addr = req.address ∧ s.events = events ∧
        s.expiration = e.now + requestedDuration order req.msg.data
  | none => events.all (· = 0) ∨ ¬e.memory 0

/-- What a SET of an identifier would store is there already. -/
def Repeats (id : MgmtId) (req : ManagementRequest) (c : ManagedClock) : Prop :=
  let data := req.msg.data
  match id with
  | .priority1 => data mgtData = c.dds DefaultDS.priority1
  | .priority2 => data mgtData = c.dds DefaultDS.priority2
  | .grandmasterSettingsNp =>
    octetsAt (mgtData + GrandmasterSettingsNp.clockQuality) 4 data =
        octetsAt DefaultDS.clockQuality 4 c.dds ∧
      signed16 (load order (GrandmasterSettingsNp.utcOffset.shift mgtData) data) = c.utcOffset ∧
      data (mgtData + GrandmasterSettingsNp.timeFlags) = c.timeFlags ∧
      data (mgtData + GrandmasterSettingsNp.timeSource) = c.timeSource
  | .subscribeEventsNp => Resubscribes order e req c
  | .portDataSetNp => ∀ port ∈ c.ports, Meant order data port →
      UInt32.ofNat (load order (PortDsNp.neighborPropDelayThresh.shift mgtData) data) =
        port.neighborPropDelayThresh
  | _ => True

variable {order e} {req : ManagementRequest} {c : ManagedClock}

theorem setOctet_same_iff {offset : Nat} {value : UInt8} {data : Storage} :
    setOctet offset value data = data ↔ value = data offset := by
  constructor
  · intro same
    rw [← same, setOctet_same]
  · rintro rfl
    funext index
    unfold setOctet
    split
    next here => rw [here]
    next => rfl

theorem writeOctets_same_iff {offset : Nat} {octets : List UInt8} {data : Storage} :
    writeOctets offset octets data = data ↔ octets = octetsAt offset octets.length data := by
  constructor
  · intro same
    rw [← same, octetsAt_writeOctets]
  · intro same
    funext index
    by_cases outside : index < offset ∨ offset + octets.length ≤ index
    · exact writeOctets_outside outside
    · obtain ⟨place, rfl⟩ : ∃ place, index = offset + place := ⟨index - offset, by omega⟩
      have inside : place < octets.length := by omega
      rw [writeOctets_inside inside]
      have there := congrArg (fun list => list[place]?) same
      simpa [octetsAt, inside] using there

theorem modify_same_iff {α : Type} {list : List α} {index : Nat} {change : α → α} :
    list.modify index change = list ↔
      ∀ element, list[index]? = some element → change element = element := by
  constructor
  · intro same element there
    have changed : (list.modify index change)[index]? = list[index]? := by rw [same]
    rw [List.getElem?_modify, there] at changed
    simpa using changed
  · intro same
    have unchanged : list.modify index change = list.modify index id := modify_congr same
    rw [unchanged, List.modify_id]

theorem subscribers_same_iff {subscribers : List ClockSubscriber} :
    { c with subscribers := subscribers } = c ↔ subscribers = c.subscribers :=
  ⟨fun same => congrArg ManagedClock.subscribers same, fun same => by rw [same]⟩

theorem dds_same_iff {dds : Storage} : { c with dds := dds } = c ↔ dds = c.dds :=
  ⟨fun same => congrArg ManagedClock.dds same, fun same => by rw [same]⟩

theorem ports_same_iff {ports : List ManagedPort} : { c with ports := ports } = c ↔ ports = c.ports :=
  ⟨fun same => congrArg ManagedClock.ports same, fun same => by rw [same]⟩

theorem settled_subscribe : settled order e .subscribeEventsNp req c = c ↔
    Resubscribes order e req c := by
  unfold settled Resubscribes
  change (clockUpdateSubscription e req (requestedEvents req.msg.data)
    (requestedDuration order req.msg.data) { clock := c }).clock = c ↔ _
  unfold clockUpdateSubscription Managing.ask
  dsimp only
  cases known : c.subscribers.findIdx? fun s =>
      s.targetPortIdentity = octetsAt PtpHeader.sourcePortIdentity 10 req.msg.data with
  | some found =>
    obtain ⟨present, _⟩ := List.findIdx?_eq_some_iff_getElem.mp known
    dsimp only
    by_cases remove : (requestedEvents req.msg.data).all (· = 0)
    · rw [if_pos remove, subscribers_same_iff]
      have shorter : c.subscribers.eraseIdx found ≠ c.subscribers := by
        intro same
        have sizes := congrArg List.length same
        rw [List.length_eraseIdx, if_pos present] at sizes
        omega
      exact iff_of_false shorter fun kept => kept.1 remove
    · rw [if_neg remove, subscribers_same_iff, modify_same_iff]
      constructor
      · intro same
        refine ⟨remove, fun s there => ?_⟩
        have kept := same s there
        exact ⟨(congrArg ClockSubscriber.addr kept).symm, (congrArg ClockSubscriber.events kept).symm,
          (congrArg ClockSubscriber.expiration kept).symm⟩
      · rintro ⟨_, same⟩ s there
        obtain ⟨addr, events, expiration⟩ := same s there
        rw [← addr, ← events, ← expiration]
  | none =>
    dsimp only
    by_cases remove : (requestedEvents req.msg.data).all (· = 0)
    · rw [if_pos remove]
      exact iff_of_true rfl (Or.inl remove)
    · rw [if_neg remove]
      by_cases memory : e.memory 0
      · rw [memory, if_neg (by decide), subscribers_same_iff]
        exact iff_of_false (List.cons_ne_self _ _) fun kept => kept.elim remove fun none => none rfl
      · have missing := Bool.eq_false_of_not_eq_true memory
        rw [missing, if_pos (by decide)]
        exact iff_of_true rfl (Or.inr (by simp))

theorem settled_grandmaster : settled order e .grandmasterSettingsNp req c = c ↔
    Repeats order e .grandmasterSettingsNp req c := by
  change setGrandmaster order req.msg.data c = c ↔ _
  unfold setGrandmaster Repeats
  dsimp only
  constructor
  · intro same
    have quality := writeOctets_same_iff.mp (congrArg ManagedClock.dds same)
    rw [octetsAt_length] at quality
    exact ⟨quality, congrArg ManagedClock.utcOffset same, congrArg ManagedClock.timeFlags same,
      congrArg ManagedClock.timeSource same⟩
  · rintro ⟨quality, utcOffset, timeFlags, timeSource⟩
    have dds := (@writeOctets_same_iff DefaultDS.clockQuality _ c.dds).mpr
      (quality.trans (by rw [octetsAt_length]))
    rw [dds, utcOffset, timeFlags, timeSource]

theorem settled_thresh : settled order e .portDataSetNp req c = c ↔
    Repeats order e .portDataSetNp req c := by
  change { c with ports := c.ports.map (setPort order req.msg.data) } = c ↔ _
  have each : c.ports.map (setPort order req.msg.data) = c.ports ↔
      c.ports.map (setPort order req.msg.data) = c.ports.map id := by rw [List.map_id]
  rw [ports_same_iff, each, List.map_inj_left]
  unfold Repeats
  dsimp only
  refine forall₂_congr fun port _ => ?_
  unfold setPort
  split
  next meant =>
    constructor
    · exact fun same _ => congrArg ManagedPort.neighborPropDelayThresh same
    · intro same
      dsimp only
      rw [same meant]
      rfl
  next other => exact iff_of_true rfl fun meant => absurd meant other

/-- A SET changes the clock unless it repeats what is there. -/
theorem settled_same_iff (id : MgmtId) : settled order e id req c = c ↔ Repeats order e id req c := by
  cases id with
  | priority1 => exact dds_same_iff.trans setOctet_same_iff
  | priority2 => exact dds_same_iff.trans setOctet_same_iff
  | grandmasterSettingsNp => exact settled_grandmaster
  | subscribeEventsNp => exact settled_subscribe
  | portDataSetNp => exact settled_thresh
  | _ => exact iff_of_true rfl trivial

theorem repeats_of_unsettable {id : MgmtId} (unsettable : settingSize id = none) :
    Repeats order e id req c := by
  cases id <;> trivial

/-- Of a request only its octets and the address it came from matter. -/
theorem settled_congr {other : ManagementRequest} (octets : other.msg.data = req.msg.data)
    (address : other.address = req.address) (id : MgmtId) :
    settled order e id other c = settled order e id req c := by
  unfold settled clockManagementStore clockUpdateSubscription
  rw [octets, address]

end Effect

end LinuxPtp.Management
