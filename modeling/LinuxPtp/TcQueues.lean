import LinuxPtp.TransparentClock

/-!
# The queues of a transparent clock

Every descriptor in a queue holds one reference to its message, and nothing else
does between two events. The invariant also carries a property of the messages
that wait and one of what was sent; both are parameters.

A queue holds descriptors and each descriptor a message, so a message that waits at several ports
is held several times. Emptying a queue and recycling its descriptors are shown to keep this for
any queue.
-/

namespace LinuxPtp

open Octets RefPool

/-- The descriptors in the queues of all ports. -/
def queue (c : TcClock) (s : TcState) : List TcTxd :=
  c.ports.flatMap fun p => (s.ports p).transmitted

/-- The messages that wait in the queues, as often as they wait. -/
def waiting (c : TcClock) (s : TcState) : List Nat := (queue c s).map TcTxd.msg

/-- A property of messages that no handling destroys, and a property of outputs
that follows from it. -/
structure Tame (M : TcMessage → Prop) (O : TcOutput → Prop) : Prop where
  hosted : ∀ msg now, M msg → M (msg.setHost now)
  stamped : ∀ msg stamp, M msg → M (msg.setHwts stamp)
  corrected : ∀ msg number, M msg → M (msg.withCorrection number)
  flagged : ∀ msg, M msg → M msg.setTwoStep
  stepped : ∀ msg, M msg → M msg.addStep
  sent : ∀ p msg, M msg → O (.send p msg.serial msg.held msg.data)
  completed : ∀ p event msg, M msg → O (.complete p msg.serial event msg.held msg.data)
  fetched : ∀ p msg, M msg → O (.fetch p (load .big PtpHeader.messageLength msg.data))

section Queues

variable (c : TcClock) (M : TcMessage → Prop) (O : TcOutput → Prop)

/-- The references are exact, with those in the hands of a handler; every
descriptor is in the pool or in a queue, exactly once; only ports of the clock have
queues; nothing was removed twice; and what waits and what was sent has the
properties. -/
structure Queued (hands : List Nat) (s : TcState) : Prop where
  exact : Exact s.msgs (hands ++ waiting c s)
  owned : (s.tcPool ++ (queue c s).map TcTxd.id).Perm (List.range s.nextTxd)
  outside : ∀ p ∉ c.ports, (s.ports p).transmitted = []
  onRails : s.derailed = false
  messages : ∀ cell ∈ waiting c s, M (s.message cell)
  outputs : ∀ out ∈ s.outputs, O out

/-- A handler works on one of the messages in its hands, all of which have the
property. -/
structure Handling (hands : List Nat) (cell : Nat) (data : Storage) (s : TcState) : Prop where
  queued : Queued c M O hands s
  held : cell ∈ hands
  good : ∀ hand ∈ hands, M (s.message hand)
  same : (s.message cell).data = data

variable {c M O} {hands : List Nat} {s : TcState} {p q cell : Nat} {data : Storage}

theorem ports_distinct (c : TcClock) : c.ports.Nodup := List.nodup_range'

/-- The queue of one port among all. -/
theorem queue_single (member : p ∈ c.ports) (s : TcState) : ∃ rest : List TcTxd, ∀ s' : TcState,
    (∀ r, r ≠ p → (s'.ports r).transmitted = (s.ports r).transmitted) →
    (queue c s').Perm ((s'.ports p).transmitted ++ rest) := by
  obtain ⟨rest, split⟩ := flatMap_single (ports_distinct c) member
    fun r => (s.ports r).transmitted
  exact ⟨rest, fun s' same => split (fun r => (s'.ports r).transmitted) same⟩

/-- The queues as one list depend on the descriptors of the ports alone. -/
theorem queue_congr {s' : TcState}
    (same : ∀ r, (s'.ports r).transmitted = (s.ports r).transmitted) : queue c s' = queue c s :=
  List.flatMap_congr fun r _ => same r

/-- What is in the queue of a port waits. -/
theorem Queued.listed (queued : Queued c M O hands s) {txd : TcTxd}
    (member : txd ∈ (s.ports p).transmitted) : p ∈ c.ports ∧ txd.msg ∈ waiting c s := by
  have inside : p ∈ c.ports := by
    by_contra absent
    rw [queued.outside p absent] at member
    cases member
  exact ⟨inside, List.mem_map_of_mem (List.mem_flatMap.mpr ⟨p, inside, member⟩)⟩

/-- A step that touches neither references nor descriptors. -/
theorem Queued.frame (queued : Queued c M O hands s) {s' : TcState} (msgs : s'.msgs = s.msgs)
    (pool : s'.tcPool = s.tcPool ∧ s'.nextTxd = s.nextTxd)
    (same : ∀ r, (s'.ports r).transmitted = (s.ports r).transmitted)
    (rails : s'.derailed = s.derailed) (outputs : ∀ out ∈ s'.outputs, O out) :
    Queued c M O hands s' := by
  have waits := @queue_congr c s s' same
  refine ⟨?_, ?_, fun r absent => ?_, rails.trans queued.onRails, ?_, outputs⟩
  · rw [msgs, waiting, waits]
    exact queued.exact
  · rw [pool.1, pool.2, waits]
    exact queued.owned
  · rw [same]
    exact queued.outside r absent
  · rw [waiting, waits]
    intro waited member
    rw [TcState.message, msgs]
    exact queued.messages waited member

/-- What goes out is allowed, and the queues are as they were. -/
theorem Queued.output (queued : Queued c M O hands s) {out : TcOutput} (allowed : O out) :
    Queued c M O hands (s.output out) := by
  refine queued.frame rfl ⟨rfl, rfl⟩ (fun _ => rfl) rfl fun other member => ?_
  rcases List.mem_append.mp member with old | new
  · exact queued.outputs other old
  · rw [List.mem_singleton.mp new]
    exact allowed

theorem transmitted_state (state : PortState) (r : Nat) :
    ((s.withPort p fun port => { port with state := state }).ports r).transmitted =
      (s.ports r).transmitted := by
  by_cases same : r = p
  · subst same
    simp only [TcState.withPort, Function.update_self]
  · simp only [TcState.withPort, Function.update_of_ne same]

/-- A new state of a port is no concern of its queue. -/
theorem Queued.state (queued : Queued c M O hands s) (state : PortState) :
    Queued c M O hands (s.withPort p fun port => { port with state := state }) :=
  queued.frame rfl ⟨rfl, rfl⟩ (transmitted_state state) rfl queued.outputs

theorem message_change_same (change : TcMessage → TcMessage) :
    (s.withMessage cell change).message cell = change (s.message cell) :=
  content_modify_same cell change

theorem message_change_other {other : Nat} (differ : other ≠ cell)
    (change : TcMessage → TcMessage) :
    (s.withMessage cell change).message other = s.message other :=
  content_modify_other differ change

/-- A change of a message that keeps the property. -/
theorem Queued.change (queued : Queued c M O hands s) (cell : Nat)
    (change : TcMessage → TcMessage) (kept : ∀ msg, M msg → M (change msg)) :
    Queued c M O hands (s.withMessage cell change) := by
  refine ⟨queued.exact.modify cell change, queued.owned, queued.outside, queued.onRails,
    fun other member => ?_, queued.outputs⟩
  by_cases same : other = cell
  · subst same
    rw [message_change_same]
    exact kept _ (queued.messages other member)
  · rw [message_change_other same]
    exact queued.messages other member

/-! ## Releasing descriptors -/

@[simp] theorem message_drop (txd : TcTxd) : (tcDrop p s txd).message = s.message := rfl

@[simp] theorem outputs_drop (txd : TcTxd) : (tcDrop p s txd).outputs = s.outputs := rfl

/-- A descriptor that is dropped leaves the queue of its port once. -/
theorem transmitted_drop (txd : TcTxd) :
    ((tcDrop p s txd).ports p).transmitted = (s.ports p).transmitted.erase txd := by
  simp only [tcDrop, tcRecycle, tcRemove, TcState.withPort, Function.update_self]

/-- A descriptor that is dropped was in the queue of one port only. -/
theorem ports_drop (txd : TcTxd) {r : Nat} (differ : r ≠ p) :
    (tcDrop p s txd).ports r = s.ports r := by
  simp only [tcDrop, tcRecycle, tcRemove, TcState.withPort, Function.update_of_ne differ]

theorem state_drop (txd : TcTxd) (r : Nat) : ((tcDrop p s txd).ports r).state = (s.ports r).state := by
  by_cases same : r = p
  · subst same
    simp only [tcDrop, tcRecycle, tcRemove, TcState.withPort, Function.update_self]
  · rw [ports_drop txd same]

/-- A descriptor of the queue gives back its reference. -/
theorem Queued.drop (queued : Queued c M O hands s) {txd : TcTxd}
    (member : txd ∈ (s.ports p).transmitted) : Queued c M O hands (tcDrop p s txd) := by
  obtain ⟨inside, _⟩ := queued.listed member
  obtain ⟨rest, split⟩ := @queue_single c p inside s
  have before := split s fun _ _ => rfl
  have after := split (tcDrop p s txd) fun r differ => by rw [ports_drop txd differ]
  rw [transmitted_drop] at after
  have fewer : (queue c s).Perm (txd :: queue c (tcDrop p s txd)) := by
    refine before.trans ?_
    refine ((List.perm_cons_erase member).append_right rest).trans ?_
    exact (after.cons txd).symm
  have less : (waiting c s).Perm (txd.msg :: waiting c (tcDrop p s txd)) :=
    fewer.map TcTxd.msg
  refine ⟨?_, ?_, fun r absent => ?_, ?_, fun cell waits => ?_, queued.outputs⟩
  · refine Exact.put (queued.exact.perm ?_)
    exact (less.append_left hands).trans List.perm_middle
  · refine List.Perm.trans ?_ queued.owned
    refine List.perm_middle.symm.trans ?_
    exact (fewer.map TcTxd.id).symm.append_left s.tcPool
  · have differ : r ≠ p := by
      rintro rfl
      exact absent inside
    rw [ports_drop txd differ]
    exact queued.outside r absent
  · simp only [tcDrop, tcRecycle, tcRemove, queued.onRails, member, not_true_eq_false,
      decide_false, Bool.or_self]
  · exact queued.messages cell (less.mem_iff.mpr (List.mem_cons_of_mem _ waits))

/-- Releasing the first descriptors of a queue one after the other. -/
theorem Queued.dropAll (queued : Queued c M O hands s) {first rest : List TcTxd}
    (queue : (s.ports p).transmitted = first ++ rest) :
    Queued c M O hands (first.foldl (tcDrop p) s) := by
  induction first generalizing s with
  | nil => exact queued
  | cons txd more inductionHypothesis =>
    rw [List.foldl_cons]
    refine inductionHypothesis (queued.drop (queue ▸ List.mem_cons_self)) ?_
    rw [transmitted_drop, queue, List.cons_append, List.erase_cons_head]

/-- A flushed queue is empty: its descriptors are dropped one by one. -/
theorem Queued.flush (queued : Queued c M O hands s) (p : Nat) :
    Queued c M O hands (tcFlush p s) :=
  queued.dropAll (List.append_nil _).symm

/-- A pruned queue is the rest of it: its first descriptors are dropped while they are old. -/
theorem Queued.prune (queued : Queued c M O hands s) (p : Nat) (now : Int) :
    Queued c M O hands (tcPrune p now s) :=
  queued.dropAll List.takeWhile_append_dropWhile.symm

/-- Releasing descriptors of one queue leaves the messages and the other ports. -/
theorem dropAll_frame (txds : List TcTxd) (s : TcState) :
    (txds.foldl (tcDrop p) s).message = s.message ∧
      (txds.foldl (tcDrop p) s).outputs = s.outputs ∧
      ∀ r, r ≠ p → (txds.foldl (tcDrop p) s).ports r = s.ports r := by
  induction txds generalizing s with
  | nil => exact ⟨rfl, rfl, fun _ _ => rfl⟩
  | cons txd rest inductionHypothesis =>
    obtain ⟨message, outputs, others⟩ := inductionHypothesis (tcDrop p s txd)
    exact ⟨message, outputs, fun r differ => (others r differ).trans (ports_drop txd differ)⟩

/-! ## Faults -/

variable (o : TcOracle)

/-- A fault changes the state of a port and may flush its queue. -/
theorem Queued.fault (queued : Queued c M O hands s) (p : Nat) :
    Queued c M O hands (tcFault c o p s) := by
  have flushed : ∀ condition : Bool, Queued c M O hands (if condition then tcFlush p s else s) := by
    intro condition
    cases condition
    · exact queued
    · exact queued.flush p
  unfold tcFault
  simp only
  split
  · exact flushed _
  · split
    · exact ((flushed _).state _).flush p
    · exact (flushed _).state _

/-- A fault leaves the messages, what was sent and the other ports. -/
theorem fault_frame (c : TcClock) (s : TcState) (p : Nat) :
    (tcFault c o p s).message = s.message ∧ (tcFault c o p s).outputs = s.outputs ∧
      ∀ r, r ≠ p → (tcFault c o p s).ports r = s.ports r := by
  have flush := fun s => dropAll_frame (p := p) (s.ports p).transmitted s
  have flushed : ∀ condition : Bool,
      (if condition then tcFlush p s else s).message = s.message ∧
      (if condition then tcFlush p s else s).outputs = s.outputs ∧
      ∀ r, r ≠ p → (if condition then tcFlush p s else s).ports r = s.ports r := by
    intro condition
    cases condition
    · exact ⟨rfl, rfl, fun _ _ => rfl⟩
    · exact flush s
  unfold tcFault
  simp only
  split
  · exact flushed _
  · obtain ⟨message, outputs, others⟩ := flushed
      (portStateUpdate c.machine (o.asap p) (o.starts p) (s.ports p).state .faultDetected false).disabled
    split
    · refine ⟨(flush _).1.trans message, (flush _).2.1.trans outputs, fun r differ => ?_⟩
      exact ((flush _).2.2 r differ).trans ((Function.update_of_ne differ ..).trans (others r differ))
    · exact ⟨message, outputs, fun r differ =>
        (Function.update_of_ne differ ..).trans (others r differ)⟩

/-! ## Waiting -/

/-- A new descriptor is taken from the pool; nothing else changes. -/
theorem allocate_frame (s : TcState) : (tcAllocate s).2.msgs = s.msgs ∧
    (tcAllocate s).2.ports = s.ports ∧ (tcAllocate s).2.outputs = s.outputs ∧
    (tcAllocate s).2.derailed = s.derailed := by
  unfold tcAllocate
  cases s.tcPool <;> exact ⟨rfl, rfl, rfl, rfl⟩

/-- A descriptor that is taken is out of the pool, or new. -/
theorem allocate_owned {others : List Nat}
    (owned : (s.tcPool ++ others).Perm (List.range s.nextTxd)) :
    ((tcAllocate s).2.tcPool ++ (tcAllocate s).1 :: others).Perm
      (List.range (tcAllocate s).2.nextTxd) := by
  unfold tcAllocate
  cases pool : s.tcPool with
  | nil =>
    rw [pool, List.nil_append] at owned
    rw [List.range_succ]
    exact (owned.cons s.nextTxd).trans (List.perm_append_singleton _ _).symm
  | cons id rest =>
    rw [pool] at owned
    exact List.perm_middle.trans owned

/-- A message that is put aside is referred to once more and is in no other queue. -/
theorem stash_frame (q p cell : Nat) (residence : Int) (s : TcState) :
    (tcStash q p cell residence s).message = s.message ∧
      (tcStash q p cell residence s).outputs = s.outputs ∧
      ∀ r, r ≠ p → (tcStash q p cell residence s).ports r = s.ports r := by
  obtain ⟨msgs, ports, outputs, _⟩ := allocate_frame s
  refine ⟨?_, outputs, fun r differ => ?_⟩
  · simp only [tcStash, TcState.withPort]
    unfold TcState.message
    rw [content_get, msgs]
  · simp only [tcStash, TcState.withPort, Function.update_of_ne differ, ports]

/-- It is the last in the queue of the port by which it went out. -/
theorem stash_queue (q p cell : Nat) (residence : Int) (s : TcState) :
    ((tcStash q p cell residence s).ports p).transmitted =
      (s.ports p).transmitted ++ [⟨(tcAllocate s).1, cell, residence, q⟩] := by
  simp only [tcStash, TcState.withPort, Function.update_self, (allocate_frame s).2.1]

/-- A message in the hands of the handler may wait at a port, for a reference. -/
theorem Queued.stash (queued : Queued c M O hands s) (inside : p ∈ c.ports)
    (held : cell ∈ hands) (good : M (s.message cell)) (q : Nat) (residence : Int) :
    Queued c M O hands (tcStash q p cell residence s) := by
  obtain ⟨msgs, ports, outputs, rails⟩ := allocate_frame s
  obtain ⟨messages, sent, others⟩ := stash_frame q p cell residence s
  obtain ⟨rest, split⟩ := @queue_single c p inside s
  have before := split s fun _ _ => rfl
  have after := split (tcStash q p cell residence s) fun r differ => by rw [others r differ]
  rw [stash_queue] at after
  have more : (queue c (tcStash q p cell residence s)).Perm
      (⟨(tcAllocate s).1, cell, residence, q⟩ :: queue c s) := by
    refine after.trans ?_
    rw [List.append_assoc]
    exact List.perm_middle.trans (before.symm.cons _)
  refine ⟨?_, ?_, fun r absent => ?_, rails.trans queued.onRails, fun other waits => ?_, ?_⟩
  · have counted := queued.exact.get (List.mem_append_left (waiting c s) held)
    rw [← msgs] at counted
    refine Exact.perm counted ?_
    exact List.perm_middle.symm.trans ((more.map TcTxd.msg).symm.append_left hands)
  · refine List.Perm.trans ?_ (allocate_owned queued.owned)
    exact (more.map TcTxd.id).append_left _
  · have differ : r ≠ p := by
      rintro rfl
      exact absent inside
    rw [others r differ]
    exact queued.outside r absent
  · rw [messages]
    rcases List.mem_cons.mp ((more.map TcTxd.msg).mem_iff.mp waits) with rfl | waits
    · exact good
    · exact queued.messages other waits
  · rw [sent]
    exact queued.outputs

end Queues

end LinuxPtp
