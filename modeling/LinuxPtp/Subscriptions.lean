import LinuxPtp.KeyedLists
import LinuxPtp.Management
import LinuxPtp.PackedMembers
import Mathlib.Data.Nat.Bitwise

/-!
# Subscriptions

`clock_update_subscription`, `clock_prune_subscriptions` and `clock_send_notification` work on one
linked list, and a notification is one message that is readdressed in place for each subscriber.
`SubscriptionTable` is what they are for: a map from port identities to what each has asked for and
how many notifications it has got. The list represents the map after every sequence of requests,
prunings and notifications.
-/

namespace LinuxPtp.Management

open Octets KeyedLists

section Code

variable (order : ByteOrder)

/-- `clock_prune_subscriptions`. -/
def clockPruneSubscriptions (now : Int) (c : ManagedClock) : ManagedClock :=
  { c with subscribers := c.subscribers.filter fun s => ¬ s.expiration ≤ now }

/-- The message of a notification and the address it is sent to. -/
structure Notification where
  data : Storage
  address : Address

/-- The test of an event against a mask. -/
def includes (events : List UInt8) (event : Nat) : Bool :=
  events.getD (event / 8) 0 &&& UInt8.ofNat (1 <<< (event % 8)) ≠ 0

/-- What `clock_send_notification` writes into the message for a subscriber. -/
def readdress (s : ClockSubscriber) (msg : Notification) : Notification :=
  let data := store order PtpHeader.sequenceId (swap order 2 s.sequenceId.toNat) msg.data
  let data := writeOctets ManagementMsg.targetPortIdentity
    (s.targetPortIdentity.take ClockIdentity.size) data
  let portNumber := load order ⟨ClockIdentity.size, 2⟩ (bufferOf s.targetPortIdentity)
  { data := store order ManagementMsg.targetPortNumber (swap order 2 portNumber) data
    address := s.addr }

/-- The loop of `clock_send_notification`: the subscribers afterwards and what is sent. -/
def clockSendNotification (event : Nat) :
    List ClockSubscriber → Notification → List ClockSubscriber × List Notification
  | [], _ => ([], [])
  | s :: rest, msg =>
    if !includes s.events event then
      let (later, sent) := clockSendNotification event rest msg
      (s :: later, sent)
    else
      let msg := readdress order s msg
      let (later, sent) := clockSendNotification event rest msg
      ({ s with sequenceId := s.sequenceId + 1 } :: later, msg :: sent)

/-- What happens to the subscribers. -/
inductive SubscriptionEvent where
  | request (e : Surroundings) (req : ManagementRequest) (bitmask : List UInt8) (duration : Nat)
  | prune (now : Int)
  | notify (msg : Notification) (event : Nat)

/-- One thing that happens: the clock afterwards and what is sent. -/
def subscriptionStep (c : ManagedClock) : SubscriptionEvent → ManagedClock × List Notification
  | .request e req bitmask duration =>
    ((clockUpdateSubscription e req bitmask duration { clock := c }).clock, [])
  | .prune now => (clockPruneSubscriptions now c, [])
  | .notify msg event =>
    let (subscribers, sent) := clockSendNotification order event c.subscribers msg
    ({ c with subscribers := subscribers }, sent)

/-- `clock_create` starts with an empty list. -/
def subscriptionRun (c : ManagedClock) (events : List SubscriptionEvent) : ManagedClock :=
  events.foldl (fun c event => (subscriptionStep order c event).1) { c with subscribers := [] }

/-! ## What is seen of a notification -/

/-- The port identity a notification is meant for, as the receiver will hold it. -/
def noticeTarget (msg : Notification) : List UInt8 :=
  octetsAt ManagementMsg.targetPortIdentity ClockIdentity.size msg.data ++
    image order 2 (load .big ManagementMsg.targetPortNumber msg.data)

/-- The sequence id of a notification. -/
def noticeSequence (msg : Notification) : Nat := load .big PtpHeader.sequenceId msg.data

/-- The clock, and the sequence ids sent to a port identity since it last came into the list. -/
def heardStep (id : List UInt8) (s : ManagedClock × List Nat) (event : SubscriptionEvent) :
    ManagedClock × List Nat :=
  let (c, sent) := subscriptionStep order s.1 event
  let heard := (sent.filter fun msg => noticeTarget order msg = id).map noticeSequence
  (c, if (lookup ClockSubscriber.targetPortIdentity id c.subscribers).isNone then []
    else s.2 ++ heard)

/-- The sequence ids sent to a port identity in a run, since it last came into the list. -/
def heardRun (id : List UInt8) (c : ManagedClock) (events : List SubscriptionEvent) : List Nat :=
  (events.foldl (heardStep order id) ({ c with subscribers := [] }, [])).2

end Code

/-! ## The map -/

/-- What a port identity has asked for, and how many notifications it has got. -/
structure Subscription where
  events : List UInt8
  addr : Address
  expiration : Int
  sent : Nat

/-- The subscriptions of all port identities. -/
abbrev SubscriptionTable := List UInt8 → Option Subscription

/-- The port identity that sends a request. -/
def requester (req : ManagementRequest) : List UInt8 :=
  octetsAt PtpHeader.sourcePortIdentity 10 req.msg.data

/-- What a request makes of the sender's subscription. -/
def subscribed (e : Surroundings) (req : ManagementRequest) (bitmask : List UInt8) (duration : Nat)
    (old : Option Subscription) : Option Subscription :=
  if bitmask.all (· = 0) then none
  else match old with
    | some s => some { s with addr := req.address, events := bitmask, expiration := e.now + duration }
    | none => if e.memory 0 then some ⟨bitmask, req.address, e.now + duration, 0⟩ else none

/-- What happens to the map. -/
def tableStep (table : SubscriptionTable) : SubscriptionEvent → SubscriptionTable
  | .request e req bitmask duration =>
    Function.update table (requester req)
      (subscribed e req bitmask duration (table (requester req)))
  | .prune now => fun id => (table id).filter fun s => now < s.expiration
  | .notify _ event => fun id => (table id).map fun s =>
    if includes s.events event then { s with sent := s.sent + 1 } else s

/-- The entry of the list for a subscription. -/
def Subscription.subscriber (id : List UInt8) (s : Subscription) : ClockSubscriber :=
  ⟨s.events, id, s.addr, UInt16.ofNat s.sent, s.expiration⟩

/-- A list of subscribers stands for a map. -/
structure Represents (subscribers : List ClockSubscriber) (table : SubscriptionTable) : Prop where
  unique : Unique ClockSubscriber.targetPortIdentity subscribers
  sized : ∀ s ∈ subscribers, s.targetPortIdentity.length = 10
  found : ∀ id, lookup ClockSubscriber.targetPortIdentity id subscribers =
    (table id).map (Subscription.subscriber id)

/-- A notification goes once to each port identity whose mask includes the event, addressed to it,
and to nobody else. -/
structure Notifies (order : ByteOrder) (event : Nat) (table : SubscriptionTable)
    (msg : Notification) (sent : List Notification) : Prop where
  once : (sent.map (noticeTarget order)).Nodup
  exact : ∀ notice, notice ∈ sent ↔ ∃ id s, table id = some s ∧ includes s.events event ∧
    notice = readdress order (s.subscriber id) msg

/-! ## The mask -/

/-- A mask includes an event if its bit is set: bit `event % 8`, the least significant one first, of
octet `event / 8`. Octets that a mask does not have are zero. -/
theorem includes_eq (events : List UInt8) (event : Nat) :
    includes events event = (events.getD (event / 8) 0).toNat.testBit (event % 8) := by
  have within : 2 ^ (event % 8) < 2 ^ 8 :=
    Nat.pow_lt_pow_right (by decide) (Nat.mod_lt event (by decide))
  have bit : (events.getD (event / 8) 0 &&& UInt8.ofNat (1 <<< (event % 8))).toNat =
      ((events.getD (event / 8) 0).toNat.testBit (event % 8)).toNat * 2 ^ (event % 8) := by
    rw [UInt8.toNat_and, UInt8.toNat_ofNat', Nat.one_shiftLeft, Nat.mod_eq_of_lt within,
      Nat.and_two_pow]
  have zero : events.getD (event / 8) 0 &&& UInt8.ofNat (1 <<< (event % 8)) = 0 ↔
      (events.getD (event / 8) 0).toNat.testBit (event % 8) = false := by
    rw [← UInt8.toNat_inj, bit]
    cases (events.getD (event / 8) 0).toNat.testBit (event % 8) <;> simp
  rw [includes, Bool.eq_iff_iff, decide_eq_true_iff, ne_eq, zero, Bool.not_eq_false]

/-! ## The shared message -/

section Message

variable {order : ByteOrder} {s other : ClockSubscriber} {msg : Notification}

/-- The octets that depend on the subscriber. -/
def Readdressed (index : Nat) : Prop := (30 ≤ index ∧ index < 32) ∨ (34 ≤ index ∧ index < 44)

theorem readdress_data : (readdress order s msg).data =
    store .big ManagementMsg.targetPortNumber
      (load order ⟨ClockIdentity.size, 2⟩ (bufferOf s.targetPortIdentity))
      (writeOctets ManagementMsg.targetPortIdentity (s.targetPortIdentity.take ClockIdentity.size)
        (store .big PtpHeader.sequenceId s.sequenceId.toNat msg.data)) := by
  rw [← store_swap order ManagementMsg.targetPortNumber, ← store_swap order PtpHeader.sequenceId]
  rfl

/-- A notification that is addressed keeps all its octets but those of the number and the target. -/
theorem readdress_outside (sized : s.targetPortIdentity.length = 10) {index : Nat}
    (outside : ¬ Readdressed index) : (readdress order s msg).data index = msg.data index := by
  simp only [Readdressed] at outside
  rw [readdress_data, store_outside, writeOctets_outside, store_outside]
  · intro covered
    have low : 30 ≤ index := covered.1
    have high : index < 32 := covered.2
    omega
  · simp only [ManagementMsg.targetPortIdentity, ClockIdentity.size, List.length_take]
    omega
  · intro covered
    have low : 42 ≤ index := covered.1
    have high : index < 44 := covered.2
    omega

/-- What was written for one subscriber is overwritten for the next. -/
theorem readdress_readdress (sized : s.targetPortIdentity.length = 10)
    (also : other.targetPortIdentity.length = 10) :
    readdress order s (readdress order other msg) = readdress order s msg := by
  refine congrArg (Notification.mk · s.addr) (funext fun index => store_congr fun apart => ?_)
  by_cases inside : ManagementMsg.targetPortIdentity ≤ index ∧
      index < ManagementMsg.targetPortIdentity + (s.targetPortIdentity.take ClockIdentity.size).length
  · obtain ⟨place, rfl⟩ := Nat.exists_eq_add_of_le inside.1
    have within : place < (s.targetPortIdentity.take ClockIdentity.size).length := by omega
    rw [writeOctets_inside within, writeOctets_inside within]
  · have outside : index < ManagementMsg.targetPortIdentity ∨ ManagementMsg.targetPortIdentity +
        (s.targetPortIdentity.take ClockIdentity.size).length ≤ index := by omega
    rw [writeOctets_outside outside, writeOctets_outside outside]
    refine store_congr fun away => readdress_outside also ?_
    simp only [Field.Covers, Field.stop, PtpHeader.sequenceId, ManagementMsg.targetPortNumber,
      ManagementMsg.targetPortIdentity, ClockIdentity.size, List.length_take, sized] at *
    simp only [Readdressed]
    omega

theorem octetsAt_bufferOf (octets : List UInt8) :
    octetsAt 0 octets.length (bufferOf octets) = octets := by
  refine List.ext_getElem (by simp) fun index _ inside => ?_
  simp [octetsAt, bufferOf, inside]

/-- The message says for whom it is. -/
theorem noticeTarget_readdress (sized : s.targetPortIdentity.length = 10) :
    noticeTarget order (readdress order s msg) = s.targetPortIdentity := by
  have whole := octetsAt_bufferOf s.targetPortIdentity
  rw [sized, show (10 : Nat) = ClockIdentity.size + 2 from rfl, octetsAt_add, Nat.zero_add] at whole
  have first : octetsAt 0 ClockIdentity.size (bufferOf s.targetPortIdentity) =
      s.targetPortIdentity.take ClockIdentity.size := by
    conv_rhs => rw [← whole]
    exact (List.take_left' (by simp)).symm
  have identity : octetsAt ManagementMsg.targetPortIdentity ClockIdentity.size
      (readdress order s msg).data = s.targetPortIdentity.take ClockIdentity.size := by
    have length : (s.targetPortIdentity.take ClockIdentity.size).length = ClockIdentity.size := by
      simp [sized, ClockIdentity.size]
    rw [readdress_data]
    generalize s.targetPortIdentity.take ClockIdentity.size = octets at length ⊢
    have kept : ∀ index, ManagementMsg.targetPortIdentity ≤ index →
        index < ManagementMsg.targetPortIdentity + octets.length →
        ¬ ManagementMsg.targetPortNumber.Covers index := by
      intro index _ before covered
      have low : 42 ≤ index := covered.1
      simp only [ManagementMsg.targetPortIdentity, ClockIdentity.size, length] at before
      omega
    rw [← length, octetsAt_congr fun index low high =>
      store_outside (kept index low high)]
    exact octetsAt_writeOctets
  have portNumber : load .big ManagementMsg.targetPortNumber (readdress order s msg).data =
      load order ⟨ClockIdentity.size, 2⟩ (bufferOf s.targetPortIdentity) := by
    have bound := load_bound order ⟨ClockIdentity.size, 2⟩ (bufferOf s.targetPortIdentity)
    rw [readdress_data, load_store]
    exact Nat.mod_eq_of_lt bound
  rw [noticeTarget, identity, portNumber, image_load, ← first]
  exact whole

/-- The number of a notification is the one that its subscriber is at. -/
theorem noticeSequence_readdress :
    noticeSequence (readdress order s msg) = s.sequenceId.toNat := by
  have kept : ∀ index, PtpHeader.sequenceId.Covers index → (readdress order s msg).data index =
      store .big PtpHeader.sequenceId s.sequenceId.toNat msg.data index := by
    intro index covered
    have high : index < 32 := covered.2
    rw [readdress_data, store_outside, writeOctets_outside]
    · exact Or.inl (Nat.lt_of_lt_of_le high (by decide))
    · intro also
      have low : 42 ≤ index := also.1
      omega
  rw [noticeSequence, load_congr .big _ kept, load_store]
  exact Nat.mod_eq_of_lt s.sequenceId.toNat_lt

/-- Nothing else is done to the message: a subscriber finds its own identity, sequence id and address
in it, and all other octets as they were. -/
theorem readdress_exact (sized : s.targetPortIdentity.length = 10) :
    noticeTarget order (readdress order s msg) = s.targetPortIdentity ∧
      noticeSequence (readdress order s msg) = s.sequenceId.toNat ∧
      (readdress order s msg).address = s.addr ∧
      ∀ index, ¬ Readdressed index → (readdress order s msg).data index = msg.data index :=
  ⟨noticeTarget_readdress sized, noticeSequence_readdress, rfl,
    fun _ outside => readdress_outside sized outside⟩

/-- Each subscriber gets the original message, readdressed to it alone. -/
theorem clockSendNotification_eq {event : Nat} {subscribers : List ClockSubscriber}
    (sized : ∀ s ∈ subscribers, s.targetPortIdentity.length = 10) :
    clockSendNotification order event subscribers msg =
      (subscribers.map fun s =>
          if includes s.events event then { s with sequenceId := s.sequenceId + 1 } else s,
        (subscribers.filter fun s => includes s.events event).map (readdress order · msg)) := by
  induction subscribers generalizing msg with
  | nil => rfl
  | cons s rest inductionHypothesis =>
    obtain ⟨here, others⟩ := List.forall_mem_cons.mp sized
    rw [clockSendNotification, List.map_cons]
    by_cases wanted : includes s.events event
    · rw [if_neg (by simp [wanted]), if_pos wanted, List.filter_cons_of_pos (by exact wanted)]
      dsimp only
      rw [inductionHypothesis others]
      refine congrArg (Prod.mk _) (congrArg (List.cons _) (List.map_congr_left fun t member => ?_))
      exact readdress_readdress (others t (List.mem_filter.mp member).1) here
    · rw [if_pos (by simp [wanted]), if_neg wanted, List.filter_cons_of_neg (by exact wanted),
        inductionHypothesis others]

end Message

/-! ## The list stands for the map -/

section Steps

variable {subscribers : List ClockSubscriber} {table : SubscriptionTable} {id : List UInt8}

/-- There is no entry for a subscriber exactly if the table has none. -/
theorem Represents.absent (represents : Represents subscribers table) :
    lookup ClockSubscriber.targetPortIdentity id subscribers = none ↔ table id = none := by
  rw [represents.found, Option.map_eq_none_iff]

/-- A list that is looked up as the changed map has it stands for it. -/
theorem Represents.update (represents : Represents subscribers table) {after : List ClockSubscriber}
    {new : Option Subscription} (unique : Unique ClockSubscriber.targetPortIdentity after)
    (sized : ∀ s ∈ after, s.targetPortIdentity.length = 10)
    (found : ∀ other, lookup ClockSubscriber.targetPortIdentity other after =
      if other = id then new.map (Subscription.subscriber id)
      else lookup ClockSubscriber.targetPortIdentity other subscribers) :
    Represents after (Function.update table id new) := by
  refine ⟨unique, sized, fun other => ?_⟩
  rw [found]
  by_cases same : other = id
  · rw [if_pos same, same, Function.update_self]
  · rw [if_neg same, Function.update_of_ne same, represents.found]

/-- An entry that is removed leaves the table at its identity. -/
theorem Represents.erase (represents : Represents subscribers table) {index : Nat}
    (placed : place ClockSubscriber.targetPortIdentity id subscribers = some index) :
    Represents (subscribers.eraseIdx index) (Function.update table id none) := by
  refine represents.update (unique_erase represents.unique index) ?_ fun other => ?_
  · exact fun s member => represents.sized s (List.mem_of_mem_eraseIdx member)
  · exact lookup_erase represents.unique placed

/-- An entry that is changed where it stands is changed in the table; the count of what was sent
goes on. -/
theorem Represents.modify (represents : Represents subscribers table) {index : Nat}
    (placed : place ClockSubscriber.targetPortIdentity id subscribers = some index)
    {s : Subscription} (present : table id = some s) (bitmask : List UInt8) (addr : Address)
    (expiration : Int) :
    Represents (subscribers.modify index fun s =>
        { s with addr := addr, events := bitmask, expiration := expiration })
      (Function.update table id
        (some { s with addr := addr, events := bitmask, expiration := expiration })) := by
  have keeps : ∀ s : ClockSubscriber,
      ClockSubscriber.targetPortIdentity
        { s with addr := addr, events := bitmask, expiration := expiration } =
      s.targetPortIdentity := fun _ => rfl
  refine represents.update (unique_modify represents.unique keeps index) ?_ fun other => ?_
  · intro s member
    have identity : s.targetPortIdentity ∈ subscribers.map ClockSubscriber.targetPortIdentity := by
      rw [← map_modify keeps index]
      exact List.mem_map_of_mem member
    obtain ⟨old, listed, same⟩ := List.mem_map.mp identity
    exact same ▸ represents.sized old listed
  · rw [lookup_modify keeps placed, represents.found id, present]
    rfl

/-- A new entry is put into the table with nothing sent. -/
theorem Represents.insert (represents : Represents subscribers table) (absent : table id = none)
    (length : id.length = 10) (s : Subscription) (fresh : s.sent = 0) :
    Represents ({ events := s.events, targetPortIdentity := id, addr := s.addr, sequenceId := 0
                  expiration := s.expiration } :: subscribers)
      (Function.update table id (some s)) := by
  refine represents.update (unique_cons represents.unique (represents.absent.mpr absent)) ?_ ?_
  · exact List.forall_mem_cons.mpr ⟨length, represents.sized⟩
  · intro other
    rw [lookup_cons, Option.map_some, Subscription.subscriber, fresh]
    by_cases same : id = other
    · rw [if_pos same, if_pos same.symm]
      rfl
    · rw [if_neg same, if_neg (Ne.symm same)]

/-- The list after a request. -/
theorem updated_subscribers (c : ManagedClock) (e : Surroundings) (req : ManagementRequest)
    (bitmask : List UInt8) (duration : Nat) :
    (clockUpdateSubscription e req bitmask duration { clock := c }).clock.subscribers =
      match place ClockSubscriber.targetPortIdentity (requester req) c.subscribers with
      | some index =>
        if bitmask.all (· = 0) then c.subscribers.eraseIdx index
        else c.subscribers.modify index fun s =>
          { s with addr := req.address, events := bitmask, expiration := e.now + duration }
      | none =>
        if bitmask.all (· = 0) then c.subscribers
        else if e.memory 0 then
          { events := bitmask, targetPortIdentity := requester req, addr := req.address
            sequenceId := 0, expiration := e.now + duration } :: c.subscribers
        else c.subscribers := by
  have placed : place ClockSubscriber.targetPortIdentity (requester req) c.subscribers =
      c.subscribers.findIdx? fun s =>
        s.targetPortIdentity = octetsAt PtpHeader.sourcePortIdentity 10 req.msg.data := rfl
  rw [placed]
  simp only [clockUpdateSubscription]
  cases c.subscribers.findIdx? fun s =>
      s.targetPortIdentity = octetsAt PtpHeader.sourcePortIdentity 10 req.msg.data with
  | some index =>
    dsimp only
    split <;> rfl
  | none =>
    dsimp only
    split
    · rfl
    · cases allocated : e.memory 0 with
      | true => simp [Managing.ask, allocated, requester]
      | false => simp [Managing.ask, allocated]

/-- A request keeps the entries a picture of the table, whether it ends, renews or begins a
subscription. -/
theorem represents_request {c : ManagedClock} (represents : Represents c.subscribers table)
    (e : Surroundings) (req : ManagementRequest) (bitmask : List UInt8) (duration : Nat) :
    Represents (clockUpdateSubscription e req bitmask duration { clock := c }).clock.subscribers
      (tableStep table (.request e req bitmask duration)) := by
  have length : (requester req).length = 10 := octetsAt_length
  rw [tableStep, updated_subscribers]
  cases placed : place ClockSubscriber.targetPortIdentity (requester req) c.subscribers with
  | some index =>
    obtain ⟨s, present⟩ : ∃ s, table (requester req) = some s := by
      refine Option.ne_none_iff_exists'.mp fun absent => ?_
      rw [place_none.mpr (represents.absent.mpr absent)] at placed
      cases placed
    dsimp only
    by_cases remove : bitmask.all (· = 0)
    · have new : subscribed e req bitmask duration (table (requester req)) = none := if_pos remove
      rw [if_pos remove, new]
      exact represents.erase placed
    · have new : subscribed e req bitmask duration (some s) =
          some { s with addr := req.address, events := bitmask, expiration := e.now + duration } :=
        if_neg remove
      rw [if_neg remove, present, new]
      exact represents.modify placed present bitmask req.address (e.now + duration)
  | none =>
    have absent : table (requester req) = none := represents.absent.mp (place_none.mp placed)
    have same : Represents c.subscribers (Function.update table (requester req) none) := by
      rw [← absent, Function.update_eq_self]
      exact represents
    dsimp only
    rw [absent]
    by_cases remove : bitmask.all (· = 0)
    · have new : subscribed e req bitmask duration none = none := if_pos remove
      rw [if_pos remove, new]
      exact same
    · by_cases allocated : e.memory 0
      · have new : subscribed e req bitmask duration none =
            some ⟨bitmask, req.address, e.now + duration, 0⟩ :=
          (if_neg remove).trans (if_pos allocated)
        rw [if_neg remove, if_pos allocated, new]
        exact represents.insert absent length ⟨bitmask, req.address, e.now + duration, 0⟩ rfl
      · have new : subscribed e req bitmask duration none = none :=
          (if_neg remove).trans (if_neg allocated)
        rw [if_neg remove, if_neg allocated, new]
        exact same

/-- Pruning takes the expired entries from both. -/
theorem represents_prune {c : ManagedClock} (represents : Represents c.subscribers table)
    (now : Int) :
    Represents (clockPruneSubscriptions now c).subscribers (tableStep table (.prune now)) := by
  refine ⟨unique_filter represents.unique _, ?_, fun id => ?_⟩
  · exact fun s member => represents.sized s (List.mem_filter.mp member).1
  · rw [clockPruneSubscriptions, lookup_filter represents.unique, represents.found, tableStep]
    dsimp only
    cases table id with
    | none => rfl
    | some s =>
      by_cases expired : s.expiration ≤ now
      · have old : ¬ now < s.expiration := Int.not_lt.mpr expired
        simp [Option.filter, Subscription.subscriber, expired, old]
      · have young : now < s.expiration := Int.not_le.mp expired
        simp [Option.filter, Subscription.subscriber, young]

/-- A notification raises the numbers of those to whom it is sent, in both. -/
theorem represents_notify {order : ByteOrder} (represents : Represents subscribers table)
    (msg : Notification) (event : Nat) :
    Represents (clockSendNotification order event subscribers msg).1
      (tableStep table (.notify msg event)) := by
  have keeps : ∀ s : ClockSubscriber,
      (if includes s.events event then { s with sequenceId := s.sequenceId + 1 }
        else s).targetPortIdentity = s.targetPortIdentity := by
    intro s
    split <;> rfl
  rw [clockSendNotification_eq represents.sized]
  refine ⟨unique_map represents.unique keeps, ?_, fun id => ?_⟩
  · intro s member
    obtain ⟨old, listed, rfl⟩ := List.mem_map.mp member
    rw [keeps]
    exact represents.sized old listed
  · rw [lookup_map keeps, represents.found, tableStep, Option.map_map, Option.map_map]
    refine Option.map_congr fun s _ => ?_
    by_cases wanted : includes s.events event
    · have next : { s.subscriber id with sequenceId := UInt16.ofNat s.sent + 1 } =
          Subscription.subscriber id { s with sent := s.sent + 1 } :=
        congrArg (ClockSubscriber.mk s.events id s.addr · s.expiration)
          (UInt16.ofNat_add s.sent 1).symm
      exact (if_pos wanted).trans
        (next.trans (congrArg (Subscription.subscriber id) (if_pos wanted).symm))
    · exact (if_neg wanted).trans (congrArg (Subscription.subscriber id) (if_neg wanted).symm)

/-- What is sent, in terms of the map. -/
theorem notifies {order : ByteOrder} (represents : Represents subscribers table)
    (msg : Notification) (event : Nat) :
    Notifies order event table msg (clockSendNotification order event subscribers msg).2 := by
  rw [clockSendNotification_eq represents.sized]
  constructor
  · have targets : ((subscribers.filter fun s => includes s.events event).map
        (readdress order · msg)).map (noticeTarget order) =
        (subscribers.filter fun s => includes s.events event).map
          ClockSubscriber.targetPortIdentity := by
      rw [List.map_map]
      refine List.map_congr_left fun s member => ?_
      exact noticeTarget_readdress (represents.sized s (List.mem_filter.mp member).1)
    rw [targets]
    exact unique_filter represents.unique _
  · intro notice
    constructor
    · intro member
      obtain ⟨s, wanted, rfl⟩ := List.mem_map.mp member
      obtain ⟨listed, included⟩ := List.mem_filter.mp wanted
      have found := lookup_member represents.unique listed
      rw [represents.found] at found
      obtain ⟨subscription, present, same⟩ := Option.map_eq_some_iff.mp found
      refine ⟨s.targetPortIdentity, subscription, present, ?_, by rw [same]⟩
      rw [← same] at included
      exact included
    · rintro ⟨id, s, present, included, rfl⟩
      have found : lookup ClockSubscriber.targetPortIdentity id subscribers =
          some (s.subscriber id) := by
        rw [represents.found, present]
        rfl
      refine List.mem_map.mpr ⟨s.subscriber id, List.mem_filter.mpr ⟨?_, included⟩, rfl⟩
      exact (lookup_some found).1

/-- What one port identity gets. -/
theorem noticed {order : ByteOrder} (represents : Represents subscribers table)
    (msg : Notification) (event : Nat) (id : List UInt8) :
    ((clockSendNotification order event subscribers msg).2.filter fun msg =>
        noticeTarget order msg = id) =
      (((table id).filter fun s => includes s.events event).map fun s =>
        readdress order (s.subscriber id) msg).toList := by
  rw [clockSendNotification_eq represents.sized, List.filter_map, List.filter_filter]
  have own : (subscribers.filter fun s => ((fun msg => decide (noticeTarget order msg = id)) ∘
      (readdress order · msg)) s && includes s.events event) =
      (subscribers.filter fun s => includes s.events event).filter fun s =>
        s.targetPortIdentity = id := by
    rw [List.filter_filter]
    refine List.filter_congr fun s member => ?_
    rw [Function.comp_apply, noticeTarget_readdress (represents.sized s member)]
  rw [own, filter_key (unique_filter represents.unique _), lookup_filter represents.unique,
    represents.found]
  cases table id with
  | none => rfl
  | some s =>
    by_cases included : includes s.events event
    · simp [Option.filter, Subscription.subscriber, included]
    · simp [Option.filter, Subscription.subscriber, included]

end Steps

/-! ## Any sequence of events -/

section Run

variable {order : ByteOrder} {c : ManagedClock} {table : SubscriptionTable}

/-- Each event keeps the picture. -/
theorem represents_step (represents : Represents c.subscribers table)
    (event : SubscriptionEvent) :
    Represents (subscriptionStep order c event).1.subscribers (tableStep table event) := by
  cases event with
  | request e req bitmask duration => exact represents_request represents e req bitmask duration
  | prune now => exact represents_prune represents now
  | notify msg event => exact represents_notify represents msg event

/-- So does every sequence of events, by induction on it. -/
theorem represents_run (represents : Represents c.subscribers table)
    (events : List SubscriptionEvent) :
    Represents (events.foldl (fun c event => (subscriptionStep order c event).1) c).subscribers
      (events.foldl tableStep table) := by
  induction events generalizing c table with
  | nil => exact represents
  | cons event events inductionHypothesis =>
    exact inductionHypothesis (represents_step represents event)

/-- The sequence ids 0, 1, 2, ... of 16 bits. -/
def sequenceIds (count : Nat) : List Nat := (List.range count).map (· % 2 ^ 16)

/-- How many notifications a port identity has got. -/
def sentTo (table : SubscriptionTable) (id : List UInt8) : Nat :=
  (table id).elim 0 Subscription.sent

theorem sequenceIds_succ (count : Nat) :
    sequenceIds (count + 1) = sequenceIds count ++ [count % 2 ^ 16] := by
  rw [sequenceIds, List.range_succ, List.map_append]
  rfl

/-- What a subscriber has heard after an event: all of it starts anew once the subscription has
ended. -/
theorem heardStep_eq {event : SubscriptionEvent} {id : List UInt8} {heard : List Nat}
    (represents : Represents (subscriptionStep order c event).1.subscribers table) :
    (heardStep order id (c, heard) event).2 =
      match table id with
      | none => []
      | some _ => heard ++ ((subscriptionStep order c event).2.filter fun msg =>
          noticeTarget order msg = id).map noticeSequence := by
  simp only [heardStep, represents.found, Option.isNone_map]
  cases table id <;> rfl

/-- A step that sends nothing either keeps the count of a subscription or starts it anew. -/
theorem heard_silent {event : SubscriptionEvent} {id : List UInt8} {heard : List Nat}
    {after : SubscriptionTable}
    (represents : Represents (subscriptionStep order c event).1.subscribers after)
    (silent : (subscriptionStep order c event).2 = [])
    (before : heard = sequenceIds (sentTo table id))
    (kept : ∀ s, after id = some s → s.sent = sentTo table id) :
    (heardStep order id (c, heard) event).2 = sequenceIds (sentTo after id) := by
  rw [heardStep_eq represents, silent, sentTo]
  cases present : after id with
  | none => rfl
  | some s =>
    rw [before, ← kept s present]
    exact List.append_nil _

/-- One event keeps the numbers heard those from zero on, one for each notification sent. -/
theorem heard_step (represents : Represents c.subscribers table) (event : SubscriptionEvent)
    {id : List UInt8} {heard : List Nat} (before : heard = sequenceIds (sentTo table id)) :
    (heardStep order id (c, heard) event).2 = sequenceIds (sentTo (tableStep table event) id) := by
  have after : Represents (subscriptionStep order c event).1.subscribers (tableStep table event) :=
    represents_step represents event
  cases event with
  | request e req bitmask duration =>
    refine heard_silent after rfl before fun s present => ?_
    by_cases same : id = requester req
    · rw [tableStep, same, Function.update_self] at present
      rw [same]
      unfold subscribed at present
      split at present
      · cases present
      · split at present
        next old known =>
          obtain rfl := Option.some.inj present
          rw [sentTo, known]
          rfl
        next absent =>
          split at present
          · obtain rfl := Option.some.inj present
            rw [sentTo, absent]
            rfl
          · cases present
    · rw [tableStep, Function.update_of_ne same] at present
      rw [sentTo, present]
      rfl
  | prune now =>
    refine heard_silent after rfl before fun s present => ?_
    rw [tableStep] at present
    rw [sentTo, (Option.filter_eq_some_iff.mp present).1]
    rfl
  | notify msg event =>
    rw [heardStep_eq after, subscriptionStep, noticed represents, tableStep]
    rw [sentTo] at before ⊢
    dsimp only
    cases present : table id with
    | none => rfl
    | some s =>
      rw [present] at before
      by_cases included : includes s.events event
      · simp only [Option.filter, included, Option.map_some, if_true, Option.toList_some,
          List.map_singleton, noticeSequence_readdress, Option.elim_some, before]
        exact (sequenceIds_succ s.sent).symm
      · simpa [Option.filter, included] using before

/-- So does every sequence of events, by induction on it. -/
theorem heard_run (represents : Represents c.subscribers table)
    (events : List SubscriptionEvent) {id : List UInt8} {heard : List Nat}
    (before : heard = sequenceIds (sentTo table id)) :
    (events.foldl (heardStep order id) (c, heard)).2 =
      sequenceIds (sentTo (events.foldl tableStep table) id) := by
  induction events generalizing c table heard with
  | nil => exact before
  | cons event events inductionHypothesis =>
    exact inductionHypothesis (represents_step represents event) (heard_step represents event before)

/-- After every sequence of requests, prunings and notifications the list stands for the map, the
next notification goes where the map says, and a port identity has heard the sequence ids from 0 on
in order.

Proof: every event on the list is the event on the map, as a list in which each identity occurs once
is updated at one place. A notification is readdressed in place for each subscriber, and what was
written for the one before is overwritten. -/
theorem subscriptions_map (order : ByteOrder) (c : ManagedClock) (events : List SubscriptionEvent) :
    let table := events.foldl tableStep fun _ => none
    Represents (subscriptionRun order c events).subscribers table ∧
      (∀ msg event, Notifies order event table msg
        (clockSendNotification order event (subscriptionRun order c events).subscribers msg).2) ∧
      ∀ id, heardRun order id c events = sequenceIds (sentTo table id) := by
  intro table
  have start : Represents ({ c with subscribers := [] } : ManagedClock).subscribers
      fun _ => none := ⟨List.nodup_nil, by simp, fun _ => rfl⟩
  have represents : Represents (subscriptionRun order c events).subscribers table :=
    represents_run start events
  exact ⟨represents, fun msg event => notifies represents msg event,
    fun id => heard_run start events rfl⟩

end Run

end LinuxPtp.Management
