import LinuxPtp.TcOwnership

/-!
# What a transparent clock owes

The ledger records for each queue which receptions wait in it, and what went out
since some moment. Each operation on the queues keeps it: a message may wait, leave,
or go out to complete a pair. The log of outputs is never rewritten.

What an output completes is found from its serial number, which the model adds. The ledger is
about one message that is being handled and the queues of all ports, in the order in which the
source goes through them.
-/

namespace LinuxPtp

open Octets RefPool Runs

/-- Sending and time stamping succeed. -/
structure TcOracle.Smooth (o : TcOracle) : Prop where
  forwards : ∀ p, o.forwards p = true
  completes : ∀ p, o.completes p = true
  stamps : ∀ p, ∃ stamp, o.stamps p = some stamp ∧ stamp ≠ 0

def TcSmooth : TcEvent → Prop
  | .receive r => r.oracle.Smooth ∧ r.again.Smooth
  | _ => True

/-- The receptions of a run, in order. -/
def receptions (events : List TcEvent) : List TcReception :=
  events.filterMap fun
    | .receive r => some r
    | _ => none

/-- The time from the ingress of a message to its egress at a port. -/
def residence (c : TcClock) (r : TcReception) (p : Nat) : Int :=
  (r.oracle.stamps p).getD 0 + c.txTimestampOffset p - r.ingress

/-- The Follow_Up of a reception: the one received, or built for a one-step Sync. -/
def followUp (c : TcClock) (r : TcReception) : Storage :=
  if msgType r.wire = some .sync then followUpOf c r.wire else r.wire

/-- The Sync of a reception as it is sent on. -/
def syncSent (c : TcClock) (r : TcReception) : Storage :=
  if oneStep c r.wire then (TcMessage.setTwoStep (r.message 0)).data else r.wire

/-- The octets with something added to the correction, modulo 2^64. -/
def addCorrection (interval : Int) (data : Storage) : Storage :=
  store .big PtpHeader.correction
    ((load .big PtpHeader.correction data + interval) % 2 ^ 64).toNat data

/-- A Sync and the Follow_Up of another reception belong together. -/
structure Paired (c : TcClock) (sync fup : TcReception) : Prop where
  port : fup.port = sync.port
  sequence : load c.order PtpHeader.sequenceId (followUp c fup) =
    load c.order PtpHeader.sequenceId sync.wire
  source : portIdentity PtpHeader.sourcePortIdentity (followUp c fup) =
    portIdentity PtpHeader.sourcePortIdentity sync.wire

section Ledger

variable (c : TcClock) (receptions : List TcReception)

/-- The octets are the Sync of a reception at a port. -/
def SyncOf (serial port : Nat) (data : Storage) (r : TcReception) : Prop :=
  receptions[serial]? = some r ∧ r.port = port ∧ msgType r.wire = some .sync ∧ data = syncSent c r

/-- The octets are the Follow_Up of a reception at a port. -/
def FollowUpOf (serial port : Nat) (data : Storage) (r : TcReception) : Prop :=
  receptions[serial]? = some r ∧ r.port = port ∧ data = followUp c r ∧
    (msgType r.wire = some .sync → oneStep c r.wire = true)

/-- A Sync went out by a port. -/
def SyncWent (outputs : List TcOutput) (p serial : Nat) : Prop :=
  ∃ held octets, .send p serial held octets ∈ outputs ∧ msgType octets = some .sync

/-- The Sync that a Follow_Up completes, for a Follow_Up that goes out by a port. -/
def completedBy (p : Nat) : TcOutput → Option Nat
  | .complete port _ event _ octets =>
    if port = p ∧ msgType octets = some .followUp then some event else none
  | _ => none

/-- The Syncs completed at a port. -/
def completed (outputs : List TcOutput) (p : Nat) : List Nat := outputs.filterMap (completedBy p)

/-- The Syncs that wait at a port. -/
def pending (s : TcState) (p : Nat) : List Nat :=
  ((s.ports p).transmitted.filter fun txd =>
    msgType (s.message txd.msg).data = some .sync).map fun txd => (s.message txd.msg).serial

/-- A Follow_Up carries its own correction, the residence time of the Sync it
completes, and the delay and asymmetry of the port by which that came in. -/
def Corrected (delay : Nat → Int) : TcOutput → Prop
  | .complete p serial event _ octets => msgType octets = some .followUp →
      ∃ sync fup, receptions[event]? = some sync ∧ receptions[serial]? = some fup ∧
        msgType sync.wire = some .sync ∧ Paired c sync fup ∧
        octets = addCorrection (timeInterval (residence c sync p) +
          (timeInterval (delay sync.port) + c.asymmetry sync.port)) (followUp c fup)
  | .send _ _ _ octets => msgType octets ≠ some .followUp
  | .fetch _ _ => True

/-- Every Follow_Up went out after the Sync it completes. -/
def Ordered (outputs : List TcOutput) : Prop :=
  ∀ before out after, outputs = before ++ out :: after → ∀ p serial,
    completedBy p out = some serial → SyncWent before p serial

/-- What the queues hold, and what went out before and since a moment in the log. -/
structure Ledger (delay : Nat → Int) (state : Nat → PortState) (log : List TcOutput)
    (s : TcState) : Prop where
  delays : ∀ p, (s.ports p).peerDelay = delay p
  states : ∀ p, (s.ports p).state = state p
  syncs : ∀ p, ∀ txd ∈ (s.ports p).transmitted, msgType (s.message txd.msg).data = some .sync →
    ∃ r, SyncOf c receptions (s.message txd.msg).serial txd.ingressPort (s.message txd.msg).data r ∧
      txd.residence = residence c r p ∧ SyncWent s.outputs p (s.message txd.msg).serial
  followUps : ∀ p, ∀ txd ∈ (s.ports p).transmitted,
    msgType (s.message txd.msg).data = some .followUp → ∃ r,
      FollowUpOf c receptions (s.message txd.msg).serial txd.ingressPort (s.message txd.msg).data r
  once : ∀ p, (completed s.outputs p ++ pending s p).Nodup
  known : ∀ p, ∀ serial ∈ completed s.outputs p ++ pending s p, serial < receptions.length
  counted : s.received = receptions.length
  ordered : Ordered s.outputs
  since : ∃ more, s.outputs = log ++ more ∧ ∀ out ∈ more, Corrected c receptions delay out

/-- The message in work may be completed at an egress port: a Sync that went out there
and was not seen there before, or a Follow_Up. -/
structure Ready (s : TcState) (q p cell : Nat) (time : Int) : Prop where
  sync : msgType (s.message cell).data = some .sync → ∃ r,
    SyncOf c receptions (s.message cell).serial q (s.message cell).data r ∧
    time = residence c r p ∧ SyncWent s.outputs p (s.message cell).serial ∧
    (s.message cell).serial ∉ completed s.outputs p ++ pending s p
  followUp : msgType (s.message cell).data = some .followUp → ∃ r,
    FollowUpOf c receptions (s.message cell).serial q (s.message cell).data r

variable {c receptions} {delay : Nat → Int} {state : Nat → PortState} {log : List TcOutput}
  {s : TcState} {p q cell : Nat}

theorem SyncWent.append {outputs : List TcOutput} {serial : Nat} (went : SyncWent outputs p serial)
    (more : List TcOutput) : SyncWent (outputs ++ more) p serial := by
  obtain ⟨held, octets, member, sync⟩ := went
  exact ⟨held, octets, List.mem_append_left _ member, sync⟩

theorem completed_append (outputs more : List TcOutput) (p : Nat) :
    completed (outputs ++ more) p = completed outputs p ++ completed more p :=
  List.filterMap_append

/-- A log stays ordered if the next Follow_Up completes a Sync that went out. -/
theorem Ordered.append {outputs : List TcOutput} {out : TcOutput} (ordered : Ordered outputs)
    (next : ∀ p serial, completedBy p out = some serial → SyncWent outputs p serial) :
    Ordered (outputs ++ [out]) := by
  intro before other after same
  rcases List.eq_nil_or_concat after with rfl | ⟨rest, last, rfl⟩
  · obtain ⟨rfl, last⟩ := List.append_inj' same rfl
    obtain rfl := (List.cons.inj last).1
    exact next
  · rw [List.concat_eq_append, ← List.cons_append, ← List.append_assoc] at same
    obtain ⟨rfl, _⟩ := List.append_inj' same rfl
    exact ordered before other rest rfl

theorem pending_congr {s' : TcState}
    (queue : (s'.ports p).transmitted = (s.ports p).transmitted)
    (steady : ∀ txd ∈ (s.ports p).transmitted,
      (s'.message txd.msg).data = (s.message txd.msg).data ∧
        (s'.message txd.msg).serial = (s.message txd.msg).serial) : pending s' p = pending s p := by
  rw [pending, queue]
  have same : (s.ports p).transmitted.filter (fun txd =>
        msgType (s'.message txd.msg).data = some .sync) =
      (s.ports p).transmitted.filter fun txd => msgType (s.message txd.msg).data = some .sync :=
    List.filter_congr fun txd member => by rw [(steady txd member).1]
  rw [same]
  refine List.map_congr_left fun txd member => ?_
  exact (steady txd (List.mem_filter.mp member).1).2

/-- A step that changes neither ports nor log, nor what waits. -/
theorem Ledger.frame (ledger : Ledger c receptions delay state log s) {s' : TcState}
    (ports : s'.ports = s.ports)
    (steady : ∀ p, ∀ txd ∈ (s.ports p).transmitted,
      (s'.message txd.msg).data = (s.message txd.msg).data ∧
        (s'.message txd.msg).serial = (s.message txd.msg).serial)
    (outputs : s'.outputs = s.outputs) (received : s'.received = s.received) :
    Ledger c receptions delay state log s' := by
  have waits : ∀ p, pending s' p = pending s p :=
    fun p => pending_congr (by rw [ports]) (steady p)
  refine ⟨?_, ?_, fun p txd member => ?_, fun p txd member => ?_, fun p => ?_, fun p => ?_,
    received.trans ledger.counted, ?_, ?_⟩
  · rw [ports]
    exact ledger.delays
  · rw [ports]
    exact ledger.states
  · rw [ports] at member
    rw [(steady p txd member).1, (steady p txd member).2, outputs]
    exact ledger.syncs p txd member
  · rw [ports] at member
    rw [(steady p txd member).1, (steady p txd member).2]
    exact ledger.followUps p txd member
  · rw [outputs, waits]
    exact ledger.once p
  · rw [outputs, waits]
    exact ledger.known p
  · rw [outputs]
    exact ledger.ordered
  · rw [outputs]
    exact ledger.since

/-- An output that completes nothing. -/
theorem Ledger.output (ledger : Ledger c receptions delay state log s) (out : TcOutput)
    (silent : ∀ p, completedBy p out = none) (corrected : Corrected c receptions delay out) :
    Ledger c receptions delay state log (s.output out) := by
  have none : ∀ p, completed (s.outputs ++ [out]) p = completed s.outputs p := by
    intro p
    rw [completed_append]
    simp [completed, silent p]
  refine ⟨ledger.delays, ledger.states, fun p txd member sync => ?_, ledger.followUps,
    fun p => ?_, fun p => ?_, ledger.counted, ?_, ?_⟩
  · obtain ⟨r, of, time, went⟩ := ledger.syncs p txd member sync
    exact ⟨r, of, time, went.append [out]⟩
  · exact (none p).symm ▸ ledger.once p
  · exact (none p).symm ▸ ledger.known p
  · refine ledger.ordered.append fun p serial completes => ?_
    rw [silent p] at completes
    cases completes
  · obtain ⟨more, same, every⟩ := ledger.since
    refine ⟨more ++ [out], by rw [TcState.output, same, List.append_assoc], ?_⟩
    intro other member
    rcases List.mem_append.mp member with old | new
    · exact every other old
    · rw [List.mem_singleton.mp new]
      exact corrected

/-- A descriptor leaves a queue. -/
theorem Ledger.drop (ledger : Ledger c receptions delay state log s) (p : Nat) (txd : TcTxd) :
    Ledger c receptions delay state log (tcDrop p s txd) := by
  have fewer : ∀ r, ((tcDrop p s txd).ports r).transmitted.Sublist (s.ports r).transmitted := by
    intro r
    by_cases same : r = p
    · subst same
      rw [transmitted_drop]
      exact List.erase_sublist
    · rw [ports_drop txd same]
  have less : ∀ r, (pending (tcDrop p s txd) r).Sublist (pending s r) := fun r =>
    ((fewer r).filter _).map _
  refine ⟨fun r => ?_, fun r => ?_, fun r other member => ?_, fun r other member => ?_,
    fun r => ?_, fun r serial member => ?_, ledger.counted, ledger.ordered, ledger.since⟩
  · refine Eq.trans ?_ (ledger.delays r)
    by_cases same : r = p
    · subst same
      simp only [tcDrop, tcRecycle, tcRemove, TcState.withPort, Function.update_self]
    · rw [ports_drop txd same]
  · exact (state_drop txd r).trans (ledger.states r)
  · exact ledger.syncs r other ((fewer r).subset member)
  · exact ledger.followUps r other ((fewer r).subset member)
  · exact (ledger.once r).sublist ((List.Sublist.refl _).append (less r))
  · exact ledger.known r serial (((List.Sublist.refl _).append (less r)).subset member)

theorem stash_port (q p cell : Nat) (residence : Int) (s : TcState) (r : Nat) :
    ((tcStash q p cell residence s).ports r).state = (s.ports r).state ∧
      ((tcStash q p cell residence s).ports r).peerDelay = (s.ports r).peerDelay := by
  by_cases same : r = p
  · subst same
    simp only [tcStash, TcState.withPort, Function.update_self, (allocate_frame s).2.1, and_self]
  · rw [(stash_frame q p cell residence s).2.2 r same]
    exact ⟨rfl, rfl⟩

theorem stash_received (q p cell : Nat) (residence : Int) (s : TcState) :
    (tcStash q p cell residence s).received = s.received := by
  unfold tcStash tcAllocate
  cases s.tcPool <;> rfl

/-- A message waits at a port: a Sync that went out there for the first time, or a
Follow_Up. -/
theorem Ledger.stash (ledger : Ledger c receptions delay state log s) {time : Int}
    (ready : Ready c receptions s q p cell time) :
    Ledger c receptions delay state log (tcStash q p cell time s) := by
  obtain ⟨sync, followUp⟩ := ready
  obtain ⟨messages, outputs, others⟩ := stash_frame q p cell time s
  have entries : ∀ r, ∀ txd ∈ ((tcStash q p cell time s).ports r).transmitted,
      txd ∈ (s.ports r).transmitted ∨ r = p ∧ txd = ⟨(tcAllocate s).1, cell, time, q⟩ := by
    intro r txd member
    by_cases same : r = p
    · subst same
      rw [stash_queue] at member
      rcases List.mem_append.mp member with old | new
      · exact Or.inl old
      · exact Or.inr ⟨rfl, List.mem_singleton.mp new⟩
    · rw [others r same] at member
      exact Or.inl member
  have waits : ∀ r, pending (tcStash q p cell time s) r = pending s r ∨
      r = p ∧ msgType (s.message cell).data = some .sync ∧
        pending (tcStash q p cell time s) r = pending s r ++ [(s.message cell).serial] := by
    intro r
    by_cases same : r = p
    · subst same
      by_cases kind : msgType (s.message cell).data = some .sync
      · refine Or.inr ⟨rfl, kind, ?_⟩
        simp only [pending, stash_queue, messages, List.filter_append, List.map_append,
          List.filter_cons, kind, decide_true, if_true, List.filter_nil, List.map_cons, List.map_nil]
      · refine Or.inl ?_
        simp only [pending, stash_queue, messages, List.filter_append, List.filter_cons, kind,
          decide_false, Bool.false_eq_true, if_false, List.filter_nil, List.append_nil]
    · exact Or.inl (pending_congr (by rw [others r same]) fun _ _ => by rw [messages]; exact ⟨rfl, rfl⟩)
  have gains : ∀ r, (completed s.outputs r ++ pending (tcStash q p cell time s) r).Nodup ∧
      ∀ serial ∈ completed s.outputs r ++ pending (tcStash q p cell time s) r,
        serial < receptions.length := by
    intro r
    rcases waits r with same | ⟨rfl, kind, more⟩
    · rw [same]
      exact ⟨ledger.once r, ledger.known r⟩
    · obtain ⟨reception, of, _, _, fresh⟩ := sync kind
      rw [more, ← List.append_assoc]
      refine ⟨List.nodup_append.mpr ⟨ledger.once r, List.nodup_singleton _, ?_⟩, ?_⟩
      · intro serial old other new same
        rw [List.mem_singleton.mp new] at same
        exact fresh (same ▸ old)
      · intro serial member
        rcases List.mem_append.mp member with old | new
        · exact ledger.known r serial old
        · rw [List.mem_singleton.mp new]
          exact (List.getElem?_eq_some_iff.mp of.1).1
  refine ⟨fun r => (stash_port q p cell time s r).2.trans (ledger.delays r),
    fun r => (stash_port q p cell time s r).1.trans (ledger.states r), fun r txd member => ?_,
    fun r txd member => ?_, fun r => ?_, fun r => ?_, (stash_received q p cell time s).trans
    ledger.counted, ?_, ?_⟩
  · rw [messages, outputs]
    rcases entries r txd member with old | ⟨rfl, rfl⟩
    · exact ledger.syncs r txd old
    · intro kind
      obtain ⟨reception, of, spent, went, _⟩ := sync kind
      exact ⟨reception, of, spent, went⟩
  · rw [messages]
    rcases entries r txd member with old | ⟨rfl, rfl⟩
    · exact ledger.followUps r txd old
    · exact followUp
  · rw [outputs]
    exact (gains r).1
  · rw [outputs]
    exact (gains r).2
  · rw [outputs]
    exact ledger.ordered
  · rw [outputs]
    exact ledger.since

/-- A Follow_Up goes out, and a descriptor leaves the queue. -/
theorem Ledger.finish (ledger : Ledger c receptions delay state log s) {txd : TcTxd}
    {serial event held : Nat} {octets : Storage} (kind : msgType octets = some .followUp)
    (went : SyncWent s.outputs p event)
    (corrected : Corrected c receptions delay (.complete p serial event held octets))
    (once : (event :: (completed s.outputs p ++ pending (tcDrop p s txd) p)).Nodup)
    (known : event < receptions.length) :
    Ledger c receptions delay state log
      (tcDrop p (s.output (.complete p serial event held octets)) txd) := by
  have dropped := ledger.drop p txd
  have here : completedBy p (.complete p serial event held octets) = some event := by
    simp [completedBy, kind]
  have elsewhere : ∀ r, r ≠ p → completedBy r (.complete p serial event held octets) = none := by
    intro r differ
    simp [completedBy, Ne.symm differ]
  have gains : ∀ r, completed (s.outputs ++ [.complete p serial event held octets]) r =
      completed s.outputs r ++ (completedBy r (.complete p serial event held octets)).toList := by
    intro r
    rw [completed_append]
    cases found : completedBy r (.complete p serial event held octets) <;>
      simp [completed, found]
  refine ⟨dropped.delays, dropped.states, fun r other member sync => ?_, dropped.followUps,
    fun r => ?_, fun r => ?_, dropped.counted, ?_, ?_⟩
  · obtain ⟨reception, of, time, sent⟩ := dropped.syncs r other member sync
    exact ⟨reception, of, time, sent.append _⟩
  · change (completed (s.outputs ++ [_]) r ++ pending (tcDrop p s txd) r).Nodup
    rw [gains]
    by_cases same : r = p
    · subst same
      rw [here, Option.toList_some, List.append_assoc]
      exact List.perm_middle.nodup_iff.mpr once
    · rw [elsewhere r same, Option.toList_none, List.append_nil]
      exact dropped.once r
  · change ∀ number ∈ completed (s.outputs ++ [_]) r ++ pending (tcDrop p s txd) r, _
    rw [gains]
    by_cases same : r = p
    · subst same
      rw [here, Option.toList_some, List.append_assoc]
      intro number member
      rcases List.mem_cons.mp (List.perm_middle.mem_iff.mp member) with rfl | old
      · exact known
      · exact dropped.known r number old
    · rw [elsewhere r same, Option.toList_none, List.append_nil]
      exact dropped.known r
  · refine ledger.ordered.append fun r number completes => ?_
    by_cases same : r = p
    · subst same
      rw [here] at completes
      exact Option.some.inj completes ▸ went
    · rw [elsewhere r same] at completes
      cases completes
  · obtain ⟨more, same, every⟩ := ledger.since
    refine ⟨more ++ [_], (congrArg (· ++ [_]) same).trans (List.append_assoc ..), ?_⟩
    intro other member
    rcases List.mem_append.mp member with old | new
    · exact every other old
    · rw [List.mem_singleton.mp new]
      exact corrected

end Ledger

/-! ## Pairs -/

section Pairs

variable {c : TcClock} {o : TcOracle} {s : TcState} {p q cell : Nat}

/-- Two messages make a pair if they came in by one port and agree in sequence number
and source, and one is a Sync and the other a Follow_Up. -/
theorem match_syfup {msg other : Storage} {txd : TcTxd}
    (matched : tcMatchSyfup c q msg other txd ≠ .mismatch) :
    q = txd.ingressPort ∧
      load c.order PtpHeader.sequenceId msg = load c.order PtpHeader.sequenceId other ∧
      portIdentity PtpHeader.sourcePortIdentity msg =
        portIdentity PtpHeader.sourcePortIdentity other ∧
      (tcMatchSyfup c q msg other txd = .syncFup ∧ msgType other = some .sync ∧
          msgType msg = some .followUp ∨
        tcMatchSyfup c q msg other txd = .fupSync ∧ msgType other = some .followUp ∧
          msgType msg = some .sync) := by
  unfold tcMatchSyfup at matched ⊢
  split at matched
  · exact absurd rfl matched
  rename_i port
  split at matched
  · exact absurd rfl matched
  rename_i sequence
  split at matched
  · exact absurd rfl matched
  rename_i source
  refine ⟨not_not.mp port, not_not.mp sequence, not_not.mp source, ?_⟩
  rw [if_neg port, if_neg sequence, if_neg source]
  split at matched
  · rename_i kinds
    exact Or.inl ⟨if_pos kinds, kinds⟩
  rename_i differ
  split at matched
  · rename_i kinds
    exact Or.inr ⟨by rw [if_neg differ, if_pos kinds], kinds⟩
  · exact absurd rfl matched

/-- Completing a pair adds to the log what is sent, and changes nothing else. -/
theorem transmit_sent (success : o.completes p = true) (cell event : Nat) (interval : Int)
    (s : TcState) :
    (tcTransmit c o p cell event interval s).ports = s.ports ∧
      (tcTransmit c o p cell event interval s).outputs = s.outputs ++
        [.complete p (s.message cell).serial (s.message event).serial (s.message cell).held
          (addCorrection interval (s.message cell).data)] ∧
      (tcTransmit c o p cell event interval s).received = s.received := by
  have serial : ∀ number,
      ((s.withMessage cell (·.withCorrection number)).message event).serial =
        (s.message event).serial := by
    intro number
    by_cases same : event = cell
    · subst same
      rw [message_change_same]
      rfl
    · rw [message_change_other same]
  unfold tcTransmit
  simp only [success, if_true]
  refine ⟨rfl, ?_, rfl⟩
  change s.outputs ++ [_] = _
  rw [serial, message_change_same]
  rfl

theorem syncSent_type (r : TcReception) : msgType (syncSent c r) = msgType r.wire := by
  unfold syncSent
  split
  · exact msgType_flags _ _
  · rfl

theorem syncSent_sequence (r : TcReception) : load c.order PtpHeader.sequenceId (syncSent c r) =
    load c.order PtpHeader.sequenceId r.wire := by
  unfold syncSent
  split
  · exact load_setOctet (by decide)
  · rfl

theorem syncSent_source (r : TcReception) :
    portIdentity PtpHeader.sourcePortIdentity (syncSent c r) =
      portIdentity PtpHeader.sourcePortIdentity r.wire := by
  unfold syncSent
  split
  · refine List.map_congr_left fun index member => setOctet_other ?_
    have bound := List.mem_range.mp member
    simp only [PtpHeader.sourcePortIdentity, PtpHeader.flagField]
    omega
  · rfl

theorem addCorrection_type (interval : Int) (data : Storage) :
    msgType (addCorrection interval data) = msgType data := by
  have outside : ¬ PtpHeader.correction.Covers PtpHeader.tsmt := by decide
  simp only [msgType, addCorrection, store_outside outside]

/-- The Syncs that wait, with the one whose descriptor leaves. -/
theorem pending_drop {txd : TcTxd} (member : txd ∈ (s.ports p).transmitted)
    (sync : msgType (s.message txd.msg).data = some .sync) :
    (pending s p).Perm ((s.message txd.msg).serial :: pending (tcDrop p s txd) p) := by
  unfold pending
  rw [transmitted_drop, message_drop]
  refine (((List.perm_cons_erase member).filter _).map _).trans ?_
  rw [List.filter_cons_of_pos (by simpa using sync), List.map_cons]

variable {receptions : List TcReception} {delay : Nat → Int} {state : Nat → PortState}
  {log : List TcOutput}

/-- The Follow_Up of a pair goes out with the residence time of its Sync. -/
theorem corrected_pair {sync fup : TcReception} {event serial held : Nat}
    {syncData fupData : Storage}
    (syncOf : SyncOf c receptions event q syncData sync)
    (fupOf : FollowUpOf c receptions serial q fupData fup)
    (sequence : load c.order PtpHeader.sequenceId fupData =
      load c.order PtpHeader.sequenceId syncData)
    (source : portIdentity PtpHeader.sourcePortIdentity fupData =
      portIdentity PtpHeader.sourcePortIdentity syncData)
    (delays : ∀ p, (s.ports p).peerDelay = delay p) :
    Corrected c receptions delay (.complete p serial event held
      (addCorrection (timeInterval (residence c sync p) +
        (timeInterval (s.ports q).peerDelay + c.asymmetry q)) fupData)) := by
  obtain ⟨syncIndex, syncPort, syncType, rfl⟩ := syncOf
  obtain ⟨fupIndex, fupPort, rfl, _⟩ := fupOf
  intro _
  refine ⟨sync, fup, syncIndex, fupIndex, syncType, ⟨?_, ?_, ?_⟩, ?_⟩
  · rw [fupPort, syncPort]
  · rw [sequence, syncSent_sequence]
  · rw [source, syncSent_source]
  · rw [delays, syncPort]

/-- A Sync or Follow_Up completes a pair, or waits. -/
theorem Ledger.syfup (ledger : Ledger c receptions delay state log s) {time : Int}
    (ready : Ready c receptions s q p cell time) (success : o.completes p = true) :
    Ledger c receptions delay state log (tcCompleteSyfup c o q p cell time s) := by
  have finished : ∀ {fup event interval txd},
      Ledger c receptions delay state log
        (tcDrop p (s.output (.complete p (s.message fup).serial (s.message event).serial
          (s.message fup).held (addCorrection interval (s.message fup).data))) txd) →
      Ledger c receptions delay state log
        (tcDrop p (tcTransmit c o p fup event interval s) txd) := by
    intro fup event interval txd finished
    obtain ⟨ports, outputs, received⟩ := transmit_sent (c := c) success fup event interval s
    refine finished.frame ?_ (fun _ _ _ => ?_) outputs received
    · simp only [tcDrop, tcRecycle, tcRemove, TcState.withPort, ports]
      rfl
    · rw [message_drop, message_drop, message_transmit]
      exact ⟨rfl, rfl⟩
  unfold tcCompleteSyfup
  dsimp only
  split
  · exact ledger.stash ready
  rename_i txd found
  have member := List.mem_of_find?_eq_some found
  have matched := List.find?_some found
  obtain ⟨port, sequence, source, kinds⟩ := match_syfup (of_decide_eq_true matched)
  rcases kinds with ⟨fate, syncType, fupType⟩ | ⟨fate, fupType, syncType⟩
  · rw [fate]
    obtain ⟨sync, syncOf, spent, went⟩ := ledger.syncs p txd member syncType
    obtain ⟨fup, fupOf⟩ := ready.followUp fupType
    rw [← port] at syncOf
    have waits := pending_drop member syncType
    refine finished (ledger.finish ?_ went ?_ ?_ ?_)
    · rw [addCorrection_type, fupType]
    · rw [spent]
      exact corrected_pair syncOf fupOf sequence source ledger.delays
    · refine (List.Perm.nodup_iff ?_).mp (ledger.once p)
      exact (waits.append_left _).trans List.perm_middle
    · exact ledger.known p _ (List.mem_append_right _ (waits.mem_iff.mpr List.mem_cons_self))
  · rw [fate]
    obtain ⟨sync, syncOf, spent, went, fresh⟩ := ready.sync syncType
    obtain ⟨fup, fupOf⟩ := ledger.followUps p txd member fupType
    rw [← port] at fupOf
    have dropped := ledger.drop p txd
    refine finished (ledger.finish ?_ went ?_ ?_ ?_)
    · rw [addCorrection_type, fupType]
    · rw [spent]
      exact corrected_pair syncOf fupOf sequence.symm source.symm ledger.delays
    · refine List.nodup_cons.mpr ⟨fun listed => fresh ?_, dropped.once p⟩
      refine (List.Sublist.append (List.Sublist.refl _) ?_).subset listed
      unfold pending
      rw [transmitted_drop, message_drop]
      exact (List.erase_sublist.filter _).map _
    · exact (List.getElem?_eq_some_iff.mp syncOf.1).1

/-- A Delay_Resp that is sent completes no Sync. -/
theorem Ledger.response (ledger : Ledger c receptions delay state log s)
    (kind : msgType (s.message cell).data = some .delayResp) (success : o.completes p = true) :
    Ledger c receptions delay state log (tcCompleteResponse c o q p cell s) := by
  unfold tcCompleteResponse
  split
  · exact ledger
  rename_i txd _
  obtain ⟨ports, outputs, received⟩ :=
    transmit_sent (c := c) success cell txd.msg (timeInterval txd.residence) s
  have other : msgType (addCorrection (timeInterval txd.residence) (s.message cell).data) ≠
      some .followUp := by
    rw [addCorrection_type, kind]
    decide
  refine Ledger.drop (Ledger.frame (ledger.output (.complete p _ _ _ _) ?_ ?_) ports ?_
    outputs received) q txd
  · intro r
    simp only [completedBy, other, and_false, if_false]
  · exact fun followUp => absurd followUp other
  · intro r waiting member
    rw [message_transmit]
    exact ⟨rfl, rfl⟩

theorem Ledger.complete (ledger : Ledger c receptions delay state log s) {time : Int}
    (ready : Ready c receptions s q p cell time) (success : o.completes p = true) :
    Ledger c receptions delay state log (tcComplete c o q p cell time s) := by
  unfold tcComplete
  split
  · exact ledger.syfup ready success
  · exact ledger.syfup ready success
  · exact ledger.stash ready
  · rename_i kind
    exact ledger.response kind success
  · exact ledger

end Pairs

end LinuxPtp
