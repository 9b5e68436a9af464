import LinuxPtp.TcLedger

/-!
# The correction a transparent clock adds

As long as sending and time stamping succeed, every Follow_Up that goes out by a
port completes a Sync that went out by that port, no Sync twice, and adds the
residence time of that Sync and the ingress path to its own correction.

The first part shows which steps leave octets and times of messages alone, the second what each
handler enters into the ledger. The failing case, a send or a time stamp that does not come, is
left to the modules on ownership.
-/

namespace LinuxPtp

open Octets RefPool Runs

/-! ## All egress ports -/

section Forwarding

/-- The data and the numbers of the messages are the same. -/
def Steady (s s' : TcState) : Prop := ∀ cell,
  (s'.message cell).data = (s.message cell).data ∧
    (s'.message cell).serial = (s.message cell).serial

variable {c : TcClock} {o : TcOracle} {s : TcState} {p q cell : Nat}

/-- What two steps leave of the messages. -/
theorem Steady.trans {s' s'' : TcState} (first : Steady s s') (second : Steady s' s'') :
    Steady s s'' :=
  fun cell => ⟨(second cell).1.trans (first cell).1, (second cell).2.trans (first cell).2⟩

/-- All messages are the same. -/
theorem Steady.of_message {s' : TcState} (same : s'.message = s.message) : Steady s s' := by
  intro cell
  rw [same]
  exact ⟨rfl, rfl⟩

/-- A change of a message that concerns neither data nor number. -/
theorem Steady.change (cell : Nat) (change : TcMessage → TcMessage)
    (kept : ∀ msg, (change msg).data = msg.data ∧ (change msg).serial = msg.serial) :
    Steady s (s.withMessage cell change) := by
  intro other
  by_cases same : other = cell
  · subst same
    rw [message_change_same]
    exact kept _
  · rw [message_change_other same]
    exact ⟨rfl, rfl⟩

/-- A list of steps, each of which leaves what counts of the messages. -/
theorem Steady.foldl {step : TcState → Nat → TcState} (steady : ∀ s p, Steady s (step s p))
    (ports : List Nat) (s : TcState) : Steady s (ports.foldl step s) := by
  induction ports generalizing s with
  | nil => exact Steady.of_message rfl
  | cons p rest inductionHypothesis => exact (steady s p).trans (inductionHypothesis _)

/-- Completing restores the message that was sent. -/
theorem message_complete (q p cell : Nat) (time : Int) (s : TcState) :
    (tcComplete c o q p cell time s).message = s.message := by
  have syfup : (tcCompleteSyfup c o q p cell time s).message = s.message := by
    unfold tcCompleteSyfup
    dsimp only
    split
    · exact (stash_frame q p cell time s).1
    · split <;> rw [message_drop, message_transmit]
  have response : (tcCompleteResponse c o q p cell s).message = s.message := by
    unfold tcCompleteResponse
    split
    · rfl
    · rw [message_drop, message_transmit]
  unfold tcComplete
  split
  · exact syfup
  · exact syfup
  · exact (stash_frame q p cell time s).1
  · exact response
  · rfl

/-- A message is sent at one port. -/
theorem Steady.sendTo (cell : Nat) (s : TcState) (p : Nat) : Steady s (tcSendTo c o q cell s p) := by
  refine Steady.of_message ?_
  unfold tcSendTo
  split
  · rfl
  · dsimp only
    split
    · rfl
    · exact (fault_frame o c _ p).1

/-- Its time stamp is fetched at one port, and the residence computed. -/
theorem Steady.stampOf (cell : Nat) (ingress : Int) (s : TcState) (p : Nat) :
    Steady s (tcStampOf c o q cell ingress s p) := by
  have stamped : ∀ s' stamp, Steady s' (s'.withMessage cell (TcMessage.setHwts stamp)) :=
    fun s' stamp => Steady.change cell _ fun _ => ⟨rfl, rfl⟩
  unfold tcStampOf
  split
  · exact Steady.of_message rfl
  · dsimp only
    split
    · exact Steady.of_message (fault_frame o c _ p).1
    · split
      · exact (stamped (s.output _) _).trans (Steady.of_message (fault_frame o c _ p).1)
      · exact ((stamped (s.output _) _).trans (stamped _ _)).trans
          (Steady.of_message (message_complete q p cell _ _))

/-- A message is completed at one port. -/
theorem Steady.completeAt (s : TcState) (p : Nat) : Steady s (tcCompleteAt c o q cell s p) := by
  unfold tcCompleteAt
  split
  · exact Steady.of_message rfl
  · exact Steady.of_message (message_complete q p cell 0 s)

/-- Handling an event message changes the data of no message. -/
theorem Steady.event : Steady s (tcFwdEvent c o q cell s) := by
  have noted := Steady.change (s := s) cell (TcMessage.setHost o.now) fun _ => ⟨rfl, rfl⟩
  have sent := noted.trans (Steady.foldl (Steady.sendTo (c := c) (o := o) (q := q) cell) c.ports _)
  exact sent.trans (Steady.foldl (Steady.stampOf cell _) c.ports _)

/-- A message that completes another is passed on. -/
theorem Steady.folup : Steady s (tcFwdFolup c o q cell s) :=
  (Steady.change cell (TcMessage.setHost o.now) fun _ => ⟨rfl, rfl⟩).trans
    (Steady.foldl Steady.completeAt c.ports _)

variable {receptions : List TcReception} {delay : Nat → Int} {state : Nat → PortState}
  {log : List TcOutput} {r : TcReception}

/-- The ledger is about octets and times in messages, so a step that leaves those leaves it. -/
theorem Ledger.steady (ledger : Ledger c receptions delay state log s) {s' : TcState}
    (steady : Steady s s') (ports : s'.ports = s.ports) (outputs : s'.outputs = s.outputs)
    (received : s'.received = s.received) : Ledger c receptions delay state log s' :=
  ledger.frame ports (fun _ txd _ => steady txd.msg) outputs received

/-- What waits at a port is told by its queue and by those messages. -/
theorem pending_steady {s' : TcState} (steady : Steady s s')
    (queue : (s'.ports p).transmitted = (s.ports p).transmitted) : pending s' p = pending s p :=
  pending_congr queue fun txd _ => steady txd.msg

/-- While the ports keep their states, the same ports are blocked. -/
theorem blocked_states {s' : TcState} (ledger : Ledger c receptions delay state log s)
    (later : Ledger c receptions delay state log s') (data : Storage) :
    tcBlocked c s' q p data = tcBlocked c s q p data := by
  simp only [tcBlocked, ledger.states, later.states]

/-- The first pass over the ports sends the message by every port that is free. -/
theorem Ledger.sends (ledger : Ledger c receptions delay state log s) (smooth : o.Smooth)
    (other : msgType (s.message cell).data ≠ some .followUp) (ports : List Nat) :
    Ledger c receptions delay state log (ports.foldl (tcSendTo c o q cell) s) ∧
      (ports.foldl (tcSendTo c o q cell) s).ports = s.ports ∧
      (∀ p, completed (ports.foldl (tcSendTo c o q cell) s).outputs p = completed s.outputs p) ∧
      ∀ p ∈ ports, tcBlocked c s q p (s.message cell).data = false →
        TcOutput.send p (s.message cell).serial (s.message cell).held (s.message cell).data ∈
          (ports.foldl (tcSendTo c o q cell) s).outputs := by
  induction ports generalizing s with
  | nil => exact ⟨ledger, rfl, fun _ => rfl, fun p member => absurd member List.not_mem_nil⟩
  | cons first rest inductionHypothesis =>
    rw [List.foldl_cons]
    cases here : tcBlocked c s q first (s.message cell).data with
    | true =>
      have idle : tcSendTo c o q cell s first = s := if_pos here
      rw [idle]
      obtain ⟨after, ports, log, sent⟩ := inductionHypothesis ledger other
      refine ⟨after, ports, log, fun p member free => ?_⟩
      rcases List.mem_cons.mp member with rfl | later
      · rw [here] at free
        cases free
      · exact sent p later free
    | false =>
      have sends : tcSendTo c o q cell s first = s.send first cell := by
        unfold tcSendTo
        simp only [here, Bool.false_eq_true, if_false, smooth.forwards, if_true]
      rw [sends]
      obtain ⟨after, ports, log, sent⟩ := inductionHypothesis
        (ledger.output (.send first _ _ _) (fun _ => rfl) other) other
      refine ⟨after, ports, fun p => (log p).trans ?_, fun p member free => ?_⟩
      · exact (completed_append _ _ p).trans (List.append_nil _)
      · rcases List.mem_cons.mp member with rfl | later
        · exact outputs_foldl outputs_sendTo rest _ (List.mem_append_right _ List.mem_cons_self)
        · exact sent p later free

/-- The second pass completes the message at every port that is free. -/
theorem stampOf_completes (smooth : o.Smooth) (ingress : Int)
    (free : tcBlocked c s q p (s.message cell).data = false) : ∃ s', Steady s s' ∧
      s'.ports = s.ports ∧ (∃ length, s'.outputs = s.outputs ++ [.fetch p length]) ∧
      s'.received = s.received ∧ tcStampOf c o q cell ingress s p = tcComplete c o q p cell
        (c.scaled ((o.stamps p).getD 0 + c.txTimestampOffset p - ingress)) s' := by
  obtain ⟨stamp, found, nonzero⟩ := smooth.stamps p
  have stamped : ∀ s' stamp, Steady s' (s'.withMessage cell (TcMessage.setHwts stamp)) :=
    fun s' stamp => Steady.change cell _ fun _ => ⟨rfl, rfl⟩
  refine ⟨_, (stamped (s.output _) stamp).trans (stamped _ (stamp + c.txTimestampOffset p)),
    rfl, ⟨load .big PtpHeader.messageLength (s.message cell).data, rfl⟩, rfl, ?_⟩
  unfold tcStampOf
  simp only [free, Bool.false_eq_true, if_false, found, nonzero, Option.getD_some]

/-- A Sync or Follow_Up that is completed at one port leaves the queues and the frames of the
others. -/
theorem syfup_elsewhere (cell : Nat) (success : o.completes p = true) {other : Nat} (differ : other ≠ p)
    (time : Int) : (tcCompleteSyfup c o q p cell time s).ports other = s.ports other ∧
      completed (tcCompleteSyfup c o q p cell time s).outputs other =
        completed s.outputs other := by
  have sent : ∀ fup event interval txd,
      (tcDrop p (tcTransmit c o p fup event interval s) txd).ports other = s.ports other ∧
      completed (tcDrop p (tcTransmit c o p fup event interval s) txd).outputs other =
        completed s.outputs other := by
    intro fup event interval txd
    obtain ⟨ports, outputs, _⟩ := transmit_sent (c := c) success fup event interval s
    refine ⟨(ports_drop txd differ).trans (congrFun ports other), ?_⟩
    rw [outputs_drop, outputs, completed_append]
    simp [completed, completedBy, Ne.symm differ]
  unfold tcCompleteSyfup
  dsimp only
  split
  · exact ⟨(stash_frame q p cell time s).2.2 other differ,
      by rw [(stash_frame q p cell time s).2.1]⟩
  · split <;> exact sent _ _ _ _

/-- What completes a Sync at one port has no part in another. -/
theorem stampOf_elsewhere (smooth : o.Smooth) (ingress : Int)
    (sync : msgType (s.message cell).data = some .sync) {other : Nat} (differ : other ≠ p) :
    completed (tcStampOf c o q cell ingress s p).outputs other = completed s.outputs other ∧
      pending (tcStampOf c o q cell ingress s p) other = pending s other := by
  cases here : tcBlocked c s q p (s.message cell).data with
  | true => rw [tcStampOf, if_pos here]; exact ⟨rfl, rfl⟩
  | false =>
    obtain ⟨s', steady, ports, ⟨length, outputs⟩, _, completes⟩ :=
      stampOf_completes smooth ingress here
    have syfup : tcStampOf c o q cell ingress s p = tcCompleteSyfup c o q p cell
        (c.scaled ((o.stamps p).getD 0 + c.txTimestampOffset p - ingress)) s' := by
      rw [completes, tcComplete, (steady cell).1, sync]
    obtain ⟨queue, log⟩ := syfup_elsewhere (c := c) (s := s') (q := q) cell
      (smooth.completes p) differ
      (c.scaled ((o.stamps p).getD 0 + c.txTimestampOffset p - ingress))
    constructor
    · rw [syfup, log, outputs, completed_append]
      exact List.append_nil _
    · refine pending_steady (Steady.stampOf cell ingress s p) ?_
      rw [syfup, queue, ports]

/-- The Sync of a reception, when its time stamps are gathered. -/
structure Gathers (c : TcClock) (receptions : List TcReception) (r : TcReception)
    (ingress : Int) (cell : Nat) (ports : List Nat) (s : TcState) : Prop where
  arrived : SyncOf c receptions (s.message cell).serial r.port (s.message cell).data r
  ingress : ingress = r.ingress
  went : ∀ p ∈ ports, tcBlocked c s r.port p (s.message cell).data = false →
    SyncWent s.outputs p (s.message cell).serial
  fresh : ∀ p ∈ ports, (s.message cell).serial ∉ completed s.outputs p ++ pending s p

/-- A message gets its residence at one port. A Sync must be one that was just received, since its
reception is what is entered. -/
theorem Ledger.stampOf (ledger : Ledger c receptions delay state log s) (ratio : c.scaled = id)
    (smooth : r.oracle.Smooth) {ingress : Int} {ports : List Nat} (inside : p ∈ ports)
    (other : msgType (s.message cell).data ≠ some .followUp)
    (gathers : msgType (s.message cell).data = some .sync →
      Gathers c receptions r ingress cell ports s) :
    Ledger c receptions delay state log (tcStampOf c r.oracle r.port cell ingress s p) := by
  cases here : tcBlocked c s r.port p (s.message cell).data with
  | true =>
    rw [tcStampOf, if_pos here]
    exact ledger
  | false =>
    obtain ⟨s', steady, ports, ⟨length, outputs⟩, received, completes⟩ :=
      stampOf_completes smooth ingress here
    have fetched : Ledger c receptions delay state log (s.output (.fetch p length)) :=
      ledger.output _ (fun _ => rfl) trivial
    have steady' : Steady (s.output (.fetch p length)) s' := steady
    have log : completed s'.outputs p = completed s.outputs p := by
      rw [outputs, completed_append]
      exact List.append_nil _
    rw [completes]
    refine (fetched.steady steady' ports outputs received).complete ⟨fun sync => ?_, fun followUp => ?_⟩
      (smooth.completes p)
    · rw [(steady cell).1] at sync
      obtain ⟨arrived, rfl, went, fresh⟩ := gathers sync
      rw [(steady cell).1, (steady cell).2, log, pending_steady steady (by rw [ports]), outputs]
      refine ⟨r, arrived, ?_, (went p inside here).append _, fresh p inside⟩
      rw [ratio]
      rfl
    · rw [(steady cell).1] at followUp
      exact absurd followUp other

/-- All ports in turn, by induction on their list; no port comes twice. -/
theorem Ledger.stamps (ledger : Ledger c receptions delay state log s) (ratio : c.scaled = id)
    (smooth : r.oracle.Smooth) {ingress : Int} (ports : List Nat) (distinct : ports.Nodup)
    (other : msgType (s.message cell).data ≠ some .followUp)
    (gathers : msgType (s.message cell).data = some .sync →
      Gathers c receptions r ingress cell ports s) :
    Ledger c receptions delay state log
      (ports.foldl (tcStampOf c r.oracle r.port cell ingress) s) := by
  induction ports generalizing s with
  | nil => exact ledger
  | cons p rest inductionHypothesis =>
    obtain ⟨absent, distinct⟩ := List.nodup_cons.mp distinct
    have here := ledger.stampOf ratio smooth List.mem_cons_self other gathers
    have steady := Steady.stampOf (c := c) (o := r.oracle) (q := r.port) cell ingress s p
    refine inductionHypothesis here distinct ?_ fun sync => ?_
    · rw [(steady cell).1]
      exact other
    · rw [(steady cell).1] at sync
      obtain ⟨arrived, time, went, fresh⟩ := gathers sync
      refine ⟨?_, time, fun later member free => ?_, fun later member => ?_⟩
      · rw [(steady cell).1, (steady cell).2]
        exact arrived
      · rw [(steady cell).1, blocked_states ledger here] at free
        obtain ⟨held, octets, sent, kind⟩ := went later (List.mem_cons_of_mem _ member) free
        rw [(steady cell).2]
        exact ⟨held, octets, outputs_stampOf ingress s p sent, kind⟩
      · have differ : later ≠ p := fun same => absent (same ▸ member)
        obtain ⟨log, queue⟩ := stampOf_elsewhere (c := c) (q := r.port) smooth ingress sync differ
        rw [(steady cell).2, log, queue]
        exact fresh later (List.mem_cons_of_mem _ member)

/-- An event message is sent and completed at every port that is free. -/
theorem Ledger.event (ledger : Ledger c receptions delay state log s) (ratio : c.scaled = id)
    (smooth : r.oracle.Smooth) (other : msgType (s.message cell).data ≠ some .followUp)
    (sync : msgType (s.message cell).data = some .sync →
      SyncOf c receptions (s.message cell).serial r.port (s.message cell).data r ∧
        (s.message cell).hwts = r.ingress ∧
        ∀ p, (s.message cell).serial ∉ completed s.outputs p ++ pending s p) :
    Ledger c receptions delay state log (tcFwdEvent c r.oracle r.port cell s) := by
  have steady := Steady.change (s := s) cell (TcMessage.setHost r.oracle.now) fun _ => ⟨rfl, rfl⟩
  have noted := ledger.steady steady rfl rfl rfl
  have kind := (steady cell).1
  obtain ⟨sends, ports, log, sent⟩ :=
    noted.sends (q := r.port) smooth (by rw [kind]; exact other) c.ports
  have steadily := Steady.foldl (Steady.sendTo (c := c) (o := r.oracle) (q := r.port) cell)
    c.ports (s.withMessage cell (TcMessage.setHost r.oracle.now))
  have both := steady.trans steadily
  refine sends.stamps ratio smooth c.ports (ports_distinct c) ?_ fun isSync => ?_
  · rw [(both cell).1]
    exact other
  · rw [(both cell).1] at isSync
    obtain ⟨arrived, ingress, fresh⟩ := sync isSync
    refine ⟨?_, ingress, fun p member free => ?_, fun p member => ?_⟩
    · rw [(both cell).1, (both cell).2]
      exact arrived
    · rw [(steadily cell).1, blocked_states noted sends] at free
      rw [(steadily cell).2]
      refine ⟨_, _, sent p member free, ?_⟩
      rw [kind, isSync]
    · rw [(both cell).2, log p, pending_steady both (by rw [ports]; rfl)]
      exact fresh p

/-- A Follow_Up or a Delay_Resp is completed at every port that is free. -/
theorem Ledger.folup (ledger : Ledger c receptions delay state log s) (smooth : o.Smooth)
    (other : msgType (s.message cell).data ≠ some .sync)
    (followUp : msgType (s.message cell).data = some .followUp → ∃ r,
      FollowUpOf c receptions (s.message cell).serial q (s.message cell).data r) :
    Ledger c receptions delay state log (tcFwdFolup c o q cell s) := by
  have steady := Steady.change (s := s) cell (TcMessage.setHost o.now) fun _ => ⟨rfl, rfl⟩
  have every := List.foldlRecOn
    (motive := fun s' => Ledger c receptions delay state log s' ∧ Steady s s') c.ports
    (tcCompleteAt c o q cell) ⟨ledger.steady steady rfl rfl rfl, steady⟩
    fun s' ⟨ledger, steady⟩ p _ => by
      refine ⟨?_, steady.trans (Steady.completeAt s' p)⟩
      unfold tcCompleteAt
      split
      · exact ledger
      · refine ledger.complete ⟨fun sync => ?_, fun kind => ?_⟩ (smooth.completes p)
        · rw [(steady cell).1] at sync
          exact absurd sync other
        · rw [(steady cell).1] at kind
          rw [(steady cell).1, (steady cell).2]
          exact followUp kind
  exact every.1

end Forwarding

/-! ## Receptions -/

section Receptions

variable {c : TcClock} {s : TcState} {cell : Nat} {receptions : List TcReception}
  {delay : Nat → Int} {state : Nat → PortState} {log : List TcOutput} {r : TcReception}

/-- A reception in the hands of a handler, before anything of it waits. -/
structure Arrived (c : TcClock) (receptions : List TcReception) (r : TcReception) (cell : Nat)
    (s : TcState) : Prop where
  data : (s.message cell).data = r.wire
  hwts : (s.message cell).hwts = r.ingress
  index : receptions[(s.message cell).serial]? = some r
  apart : ∀ p, ∀ txd ∈ (s.ports p).transmitted, txd.msg ≠ cell
  fresh : ∀ p, (s.message cell).serial ∉ completed s.outputs p ++ pending s p

/-- A change of a message that does not wait. -/
theorem Ledger.change (ledger : Ledger c receptions delay state log s)
    (apart : ∀ p, ∀ txd ∈ (s.ports p).transmitted, txd.msg ≠ cell)
    (change : TcMessage → TcMessage) :
    Ledger c receptions delay state log (s.withMessage cell change) := by
  refine ledger.frame rfl (fun p txd member => ?_) rfl rfl
  rw [message_change_other (apart p txd member)]
  exact ⟨rfl, rfl⟩

/-- A message that needs no residence is passed on as it came. -/
theorem Ledger.forward (ledger : Ledger c receptions delay state log s)
    (arrived : Arrived c receptions r cell s) (smooth : r.oracle.Smooth)
    (other : msgType r.wire ≠ some .followUp) :
    Ledger c receptions delay state log (tcForward c r.oracle r.port cell s) := by
  have kind : msgType (s.message cell).data ≠ some .followUp := by
    rw [arrived.data]
    exact other
  unfold tcForward
  dsimp only
  split
  · refine ((ledger.change arrived.apart TcMessage.addStep).sends smooth ?_ c.ports).1
    have outside : ¬ AnnounceMsg.stepsRemoved.Covers PtpHeader.tsmt := by decide
    rw [message_change_same]
    simp only [msgType, TcMessage.addStep, store_outside outside] at kind ⊢
    exact kind
  · exact (ledger.sends smooth kind c.ports).1

/-- A one-step Sync goes out as a two-step one, with the Follow_Up built for it. -/
theorem Ledger.converted {fup : Nat} (ledger : Ledger c receptions delay state log s)
    (arrived : Arrived c receptions r cell s) (ratio : c.scaled = id)
    (smooth : r.oracle.Smooth) (again : r.again.Smooth) (sync : msgType r.wire = some .sync)
    (single : oneStep c r.wire = true) (differ : fup ≠ cell)
    (built : s.message fup = r.built c (s.message cell).serial) :
    Ledger c receptions delay state log
      (tcFwdConverted c r.oracle r.again r.port cell fup s) := by
  have flagged := ledger.change arrived.apart TcMessage.setTwoStep
  have waits : ∀ p, pending (s.withMessage cell TcMessage.setTwoStep) p = pending s p := by
    intro p
    refine pending_congr rfl fun txd member => ?_
    rw [message_change_other (arrived.apart p txd member)]
    exact ⟨rfl, rfl⟩
  have sent : (TcMessage.setTwoStep (s.message cell)).data = syncSent c r := by
    rw [syncSent, if_pos single, TcMessage.setTwoStep, arrived.data]
    rfl
  have kind : msgType (TcMessage.setTwoStep (s.message cell)).data = some .sync := by
    rw [sent, syncSent_type, sync]
  have event := flagged.event ratio smooth (by
    rw [message_change_same, kind]
    decide) fun _ => by
      simp only [message_change_same, waits]
      exact ⟨⟨arrived.index, rfl, sync, sent⟩, arrived.hwts, arrived.fresh⟩
  have steady := @Steady.event c r.oracle (s.withMessage cell TcMessage.setTwoStep) r.port cell
  have held : followUpOf c r.wire = followUp c r := by rw [followUp, if_pos sync]
  have followUp := event.folup (q := r.port) again (by
    rw [(steady fup).1, message_change_other differ, built]
    exact fun same => by simp [TcReception.built, followUpOf_type] at same) fun _ => by
      rw [(steady fup).1, (steady fup).2, message_change_other differ, built]
      exact ⟨r, arrived.index, rfl, held, fun _ => single⟩
  exact followUp.steady (Steady.of_message rfl) rfl rfl rfl

/-- A Sync, which for a one-step one includes the Follow_Up that is made for it. -/
theorem Ledger.sync (ledger : Ledger c receptions delay state log s)
    (queued : Queued c (fun _ => True) (fun _ => True) [cell] s)
    (arrived : Arrived c receptions r cell s) (ratio : c.scaled = id)
    (smooth : r.oracle.Smooth) (again : r.again.Smooth) (sync : msgType r.wire = some .sync) :
    Ledger c receptions delay state log (tcFwdSync c r.oracle r.again r.port cell s) := by
  unfold tcFwdSync
  dsimp only
  rw [arrived.data]
  split
  · rename_i single
    have kept : ∀ held ∈ [cell] ++ waiting c s, TcState.message { s with
        msgs := (s.msgs.allocate (r.built c (s.message cell).serial)).2 } held =
          s.message held :=
      fun held member => queued.message_take _ member
    have here := kept cell List.mem_cons_self
    have steady : ∀ p, ∀ txd ∈ (s.ports p).transmitted, _ := fun p txd member =>
      kept txd.msg (List.mem_append_right [cell] (queued.listed member).2)
    have waits : ∀ p, pending { s with
        msgs := (s.msgs.allocate (r.built c (s.message cell).serial)).2 } p = pending s p :=
      fun p => pending_congr rfl fun txd member => by rw [steady p txd member]; exact ⟨rfl, rfl⟩
    have taken : Ledger c receptions delay state log { s with
        msgs := (s.msgs.allocate (r.built c (s.message cell).serial)).2 } :=
      ledger.frame rfl (fun p txd member => by rw [steady p txd member]; exact ⟨rfl, rfl⟩) rfl rfl
    refine taken.converted ⟨?_, ?_, ?_, arrived.apart, fun p => ?_⟩ ratio smooth again sync
      single ?_ ?_
    · rw [here]
      exact arrived.data
    · rw [here]
      exact arrived.hwts
    · rw [here]
      exact arrived.index
    · rw [here, waits]
      exact arrived.fresh p
    · intro same
      exact queued.exact.fresh _ (List.mem_append_left _ (List.mem_singleton.mpr same))
    · rw [here]
      exact message_take_new s _
  · rename_i multiple
    refine ledger.event ratio smooth ?_ fun _ => ⟨⟨arrived.index, rfl, sync, ?_⟩, arrived.hwts,
      arrived.fresh⟩
    · rw [arrived.data, sync]
      decide
    · rw [arrived.data, syncSent, if_neg multiple]

/-- A message of any type. -/
theorem Ledger.switch (ledger : Ledger c receptions delay state log s)
    (queued : Queued c (fun _ => True) (fun _ => True) [cell] s)
    (arrived : Arrived c receptions r cell s) (ratio : c.scaled = id)
    (smooth : r.oracle.Smooth) (again : r.again.Smooth) :
    Ledger c receptions delay state log (tcSwitch c r.oracle r.again r.port cell s) := by
  have event : msgType r.wire = some .delayReq →
      Ledger c receptions delay state log (tcFwdEvent c r.oracle r.port cell s) := by
    intro kind
    refine ledger.event ratio smooth ?_ fun sync => ?_
    · rw [arrived.data, kind]
      decide
    · rw [arrived.data, kind] at sync
      cases sync
  have folup : msgType r.wire = some .followUp ∨ msgType r.wire = some .delayResp →
      Ledger c receptions delay state log (tcFwdFolup c r.oracle r.port cell s) := by
    intro kind
    have other : msgType r.wire ≠ some .sync := by
      rcases kind with kind | kind <;> rw [kind] <;> decide
    refine ledger.folup smooth (by rw [arrived.data]; exact other) fun _ => ?_
    exact ⟨r, arrived.index, rfl, by rw [arrived.data, followUp, if_neg other],
      fun sync => absurd sync other⟩
  have forward := ledger.forward arrived smooth
  unfold tcSwitch
  rw [arrived.data]
  split
  · rename_i kind
    exact ledger.sync queued arrived ratio smooth again kind
  · rename_i kind
    split
    · exact event kind
    · exact ledger
  · rename_i kind
    exact folup (Or.inl kind)
  · rename_i kind
    split
    · exact folup (Or.inr kind)
    · exact ledger
  · rename_i kind
    exact forward (by rw [kind]; decide)
  · rename_i kind
    exact forward (by rw [kind]; decide)
  · rename_i kind
    exact forward (by rw [kind]; decide)
  · exact ledger

/-- The ledger is opened anew, for more receptions. -/
theorem Ledger.reopen (ledger : Ledger c receptions delay state log s) :
    Ledger c receptions (fun p => (s.ports p).peerDelay) (fun p => (s.ports p).state) s.outputs s :=
  ⟨fun _ => rfl, fun _ => rfl, ledger.syncs, ledger.followUps, ledger.once, ledger.known,
    ledger.counted, ledger.ordered, [], (List.append_nil _).symm,
    fun _ member => absurd member List.not_mem_nil⟩

/-- A message is received, and nothing was done with it yet. -/
theorem Ledger.next (ledger : Ledger c receptions delay state log s)
    (queued : Queued c (fun _ => True) (fun _ => True) [] s) (r : TcReception) {s' : TcState}
    (arrives : s' = { s with
      msgs := (s.msgs.allocate (r.message s.received)).2, received := s.received + 1 }) :
    Ledger c (receptions ++ [r]) (fun p => (s.ports p).peerDelay) (fun p => (s.ports p).state)
        s.outputs s' ∧
      Arrived c (receptions ++ [r]) r (s.msgs.allocate (r.message s.received)).1 s' := by
  have new : s'.message (s.msgs.allocate (r.message s.received)).1 = r.message s.received := by
    rw [arrives]
    exact message_take_new s _
  have kept : ∀ p, ∀ txd ∈ (s.ports p).transmitted,
      s'.message txd.msg = s.message txd.msg := by
    intro p txd member
    rw [arrives]
    exact queued.message_take (r.message s.received) (queued.listed member).2
  have ports : s'.ports = s.ports := by rw [arrives]
  have outputs : s'.outputs = s.outputs := by rw [arrives]
  have waits : ∀ p, pending s' p = pending s p := fun p =>
    pending_congr (by rw [ports]) fun txd member => by rw [kept p txd member]; exact ⟨rfl, rfl⟩
  have more : ∀ {index : Nat} {found : TcReception}, receptions[index]? = some found →
      (receptions ++ [r])[index]? = some found := by
    intro index found here
    rw [List.getElem?_append_left (List.getElem?_eq_some_iff.mp here).1, here]
  constructor
  · refine ⟨fun p => by rw [ports], fun p => by rw [ports], fun p txd member => ?_,
      fun p txd member => ?_, fun p => ?_, fun p serial member => ?_, ?_, ?_, [], ?_,
      fun out member => absurd member List.not_mem_nil⟩
    · rw [ports] at member
      rw [kept p txd member, outputs]
      intro sync
      obtain ⟨found, ⟨index, rest⟩, went⟩ := ledger.syncs p txd member sync
      exact ⟨found, ⟨more index, rest⟩, went⟩
    · rw [ports] at member
      rw [kept p txd member]
      intro followUp
      obtain ⟨found, index, rest⟩ := ledger.followUps p txd member followUp
      exact ⟨found, more index, rest⟩
    · rw [outputs, waits]
      exact ledger.once p
    · rw [outputs, waits] at member
      rw [List.length_append]
      exact Nat.lt_add_right _ (ledger.known p serial member)
    · rw [arrives, List.length_append, ← ledger.counted]
      rfl
    · rw [outputs]
      exact ledger.ordered
    · rw [outputs, List.append_nil]
  · refine ⟨by rw [new]; rfl, by rw [new]; rfl, ?_, fun p txd member => ?_, fun p => ?_⟩
    · rw [new]
      change (receptions ++ [r])[s.received]? = some r
      rw [ledger.counted, List.getElem?_concat_length]
    · rw [ports] at member
      rintro same
      exact queued.exact.fresh (r.message s.received) (same ▸ (queued.listed member).2)
    · rw [new, outputs, waits]
      intro listed
      exact Nat.lt_irrefl _ (ledger.counted ▸ ledger.known p _ listed)

/-- A message is received: the ledger of the receptions before becomes that with one more. -/
theorem Ledger.receive (ledger : Ledger c receptions delay state log s)
    (queued : Queued c (fun _ => True) (fun _ => True) [] s) (ratio : c.scaled = id)
    (smooth : r.oracle.Smooth) (again : r.again.Smooth) :
    Ledger c (receptions ++ [r]) (fun p => (s.ports p).peerDelay) (fun p => (s.ports p).state)
      s.outputs (tcReceive c r s) := by
  obtain ⟨opened, arrived⟩ := ledger.next queued r rfl
  have taken := queued.take (r.message s.received)
  have there : Queued c (fun _ => True) (fun _ => True)
      [(s.msgs.allocate (r.message s.received)).1] { s with
        msgs := (s.msgs.allocate (r.message s.received)).2, received := s.received + 1 } :=
    taken.frame rfl ⟨rfl, rfl⟩ (fun _ => rfl) rfl taken.outputs
  have handled : Ledger c (receptions ++ [r]) (fun p => (s.ports p).peerDelay)
      (fun p => (s.ports p).state) s.outputs
      (tcHandle c r (s.msgs.allocate (r.message s.received)).1 { s with
        msgs := (s.msgs.allocate (r.message s.received)).2, received := s.received + 1 }) := by
    unfold tcHandle
    split
    · exact opened
    · split
      · exact opened.switch there arrived ratio smooth again
      · exact opened
  exact handled.steady (Steady.of_message rfl) rfl rfl rfl

end Receptions

/-! ## Runs -/

section Runs

variable {c : TcClock}

/-- Descriptors are taken off a queue, and leave the ledger with what is waiting. -/
theorem Ledger.dropAll {s : TcState} {known : List TcReception} {delay : Nat → Int}
    {state : Nat → PortState} {log : List TcOutput} (ledger : Ledger c known delay state log s)
    (p : Nat) (txds : List TcTxd) :
    Ledger c known delay state log (txds.foldl (tcDrop p) s) := by
  induction txds generalizing s with
  | nil => exact ledger
  | cons txd rest inductionHypothesis => exact inductionHypothesis (ledger.drop p txd)

/-- What holds at the end of a run, with what went out at its last event. -/
def Settled (c : TcClock) (known : List TcReception) (s s' : TcState) : Prop :=
  ∃ delay state log, Ledger c known delay state log s' ∧
    ∃ more, s'.outputs = s.outputs ++ more ∧
      ∀ out ∈ more, Corrected c known (fun p => (s.ports p).peerDelay) out

/-- The receptions of one more event. -/
theorem receptions_append (events : List TcEvent) (event : TcEvent) :
    receptions (events ++ [event]) = receptions events ++ receptions [event] :=
  List.filterMap_append

/-- One event, by its kind. -/
theorem settled_step {s : TcState} {known : List TcReception} {delay : Nat → Int}
    {state : Nat → PortState} {log : List TcOutput} (ledger : Ledger c known delay state log s)
    (queued : Queued c (fun _ => True) (fun _ => True) [] s) (ratio : c.scaled = id)
    (event : TcEvent) (smooth : TcSmooth event) :
    Settled c (known ++ receptions [event]) s (tcStep c s event) := by
  cases event with
  | receive r =>
    have after := ledger.receive queued ratio smooth.1 smooth.2
    exact ⟨_, _, _, after, after.since⟩
  | prune p now =>
    have after := ledger.reopen.dropAll p
      ((s.ports p).transmitted.takeWhile fun txd => !tcCurrent s now txd)
    refine (List.append_nil known).symm ▸ ⟨_, _, _, after, after.since⟩
  | flush p =>
    have after := ledger.reopen.dropAll p (s.ports p).transmitted
    exact (List.append_nil known).symm ▸ ⟨_, _, _, after, after.since⟩
  | ports state delay =>
    have silent : ∃ more, s.outputs = s.outputs ++ more ∧
        ∀ out ∈ more, Corrected c known (fun p => (s.ports p).peerDelay) out :=
      ⟨[], (List.append_nil _).symm, fun out member => absurd member List.not_mem_nil⟩
    refine (List.append_nil known).symm ▸ ⟨delay, state, s.outputs, ?_, silent⟩
    exact ⟨fun _ => rfl, fun _ => rfl, ledger.syncs, ledger.followUps, ledger.once, ledger.known,
      ledger.counted, ledger.ordered, [], (List.append_nil _).symm,
      fun out member => absurd member List.not_mem_nil⟩

/-- Sending that succeeds and time stamps that come are all that completing needs. -/
theorem completes_of_smooth {s : TcState} {event : TcEvent} (smooth : TcSmooth event) :
    TcCompletes c s event := by
  cases event with
  | receive r =>
    exact fun _ => ⟨fun _ p => smooth.1.completes p, fun _ _ p => smooth.2.completes p⟩
  | _ => trivial

/-- At the start nothing was received and nothing waits. -/
theorem ledger_start : Ledger c [] (fun _ => 0) (fun _ => .initializing) [] TcState.start := by
  refine ⟨fun _ => rfl, fun _ => rfl, fun p txd member => absurd member List.not_mem_nil,
    fun p txd member => absurd member List.not_mem_nil, fun _ => List.nodup_nil,
    fun p serial member => absurd member List.not_mem_nil, rfl, ?_, [], rfl,
    fun out member => absurd member List.not_mem_nil⟩
  intro before out after same
  exact absurd (congrArg List.length same) (by simp [TcState.start])

/-- The queues are sound after every run of smooth events. -/
theorem queued_run {events : List TcEvent} (smooth : ∀ event ∈ events, TcSmooth event) :
    Queued c (fun _ => True) (fun _ => True) [] (tcRun c TcState.start events) :=
  completes_run (along_of_forall fun event member _ => completes_of_smooth (smooth event member))

/-- Every step of a smooth run is settled. -/
theorem ledger_run (ratio : c.scaled = id) (events : List TcEvent)
    (smooth : ∀ event ∈ events, TcSmooth event) : ∃ delay state log,
      Ledger c (receptions events) delay state log (tcRun c TcState.start events) := by
  induction events using List.reverseRecOn with
  | nil => exact ⟨_, _, _, ledger_start⟩
  | append_singleton events event inductionHypothesis =>
    have before := fun event member => smooth event (List.mem_append_left _ member)
    obtain ⟨delay, state, log, ledger⟩ := inductionHypothesis before
    have step := settled_step ledger (queued_run before) ratio event
      (smooth event (List.mem_append_right _ List.mem_cons_self))
    rw [tcRun, List.foldl_append, receptions_append]
    obtain ⟨delay, state, log, after, _⟩ := step
    exact ⟨delay, state, log, after⟩

/-- What goes out at the last event of a run is corrected by what the clock measured
before it; every Follow_Up goes out after the Sync that it completes; no Sync is
completed twice at a port; and the Follow_Ups that wait are as they were received or
built. -/
structure ResidenceCorrected (c : TcClock) (events : List TcEvent) (event : TcEvent) : Prop where
  corrected : ∃ more, (tcRun c TcState.start (events ++ [event])).outputs =
      (tcRun c TcState.start events).outputs ++ more ∧
    ∀ out ∈ more, Corrected c (receptions (events ++ [event]))
      (fun p => ((tcRun c TcState.start events).ports p).peerDelay) out
  forwarded : Ordered (tcRun c TcState.start (events ++ [event])).outputs
  once : ∀ p, (completed (tcRun c TcState.start (events ++ [event])).outputs p).Nodup
  restored : ∀ p, ∀ txd ∈ ((tcRun c TcState.start (events ++ [event])).ports p).transmitted,
    msgType ((tcRun c TcState.start (events ++ [event])).message txd.msg).data =
      some .followUp → ∃ r, FollowUpOf c (receptions (events ++ [event]))
        ((tcRun c TcState.start (events ++ [event])).message txd.msg).serial txd.ingressPort
        ((tcRun c TcState.start (events ++ [event])).message txd.msg).data r

/-- In every run without failures, at rate ratio one.

What it says of the frames that a run sends is `ResidenceCorrected`: each Sync and Follow_Up that
goes out carries the time it spent inside, in itself or in its partner, each once.

Proof: a ledger keeps for each port which receptions still wait there and which were completed;
every event keeps it, and whatever is sent is entered in it. -/
theorem residence_corrected (c : TcClock) (ratio : c.scaled = id) (events : List TcEvent)
    (event : TcEvent) (smooth : ∀ event ∈ events, TcSmooth event) (last : TcSmooth event) :
    ResidenceCorrected c events event := by
  obtain ⟨_, _, _, ledger⟩ := ledger_run ratio events smooth
  have step := settled_step ledger (queued_run smooth) ratio event last
  have next : tcStep c (tcRun c TcState.start events) event =
      tcRun c TcState.start (events ++ [event]) := by
    rw [tcRun, tcRun, List.foldl_append]
    rfl
  rw [next, ← receptions_append] at step
  obtain ⟨_, _, _, after, sent⟩ := step
  refine ⟨sent, after.ordered, fun p => ?_, after.followUps⟩
  exact (List.nodup_append.mp (after.once p)).1

/-- As `Corrected`, but with the correction of the message that came in also where
the Follow_Up was built for it. -/
def CarriesReceived (c : TcClock) (known : List TcReception) (delay : Nat → Int) :
    TcOutput → Prop
  | .complete p serial event _ octets => msgType octets = some .followUp →
      ∃ sync fup, known[event]? = some sync ∧ known[serial]? = some fup ∧
        (load .big PtpHeader.correction octets : Int) =
          (load .big PtpHeader.correction fup.wire + (timeInterval (residence c sync p) +
            (timeInterval (delay sync.port) + c.asymmetry sync.port))) % 2 ^ 64
  | _ => True

/-- A one-step Sync that was corrected before. -/
def correctedSync : TcReception :=
  let octets : List UInt8 := [0, 2, 0, 44, 0, 0, 0, 0, 0, 0, 0, 0, 0, 0, 0, 1]
  { syncAt 0 with wire := bufferOf (octets ++ List.replicate 28 0) }

/-- The correction of a one-step Sync stays in the Sync. -/
theorem correctedSync_keeps : ¬ ∀ out ∈
    (tcRun (twoPorts .little) TcState.start [.receive correctedSync]).outputs,
      CarriesReceived (twoPorts .little) (receptions [.receive correctedSync]) (fun _ => 0) out := by
  intro every
  have built : (tcRun (twoPorts .little) TcState.start [.receive correctedSync]).outputs.any
      (fun out => match out with
        | .complete p serial event _ octets => p = 2 ∧ serial = 0 ∧ event = 0 ∧
            msgType octets = some .followUp ∧ load .big PtpHeader.correction octets = 262144
        | _ => false) = true := by decide
  obtain ⟨out, member, found⟩ := List.any_eq_true.mp built
  have carries := every out member
  cases out with
  | complete p serial event held octets =>
    obtain ⟨rfl, rfl, rfl, kind, correction⟩ := of_decide_eq_true found
    obtain ⟨sync, fup, ⟨⟩, ⟨⟩, same⟩ := carries kind
    rw [correction] at same
    exact absurd same (by decide)
  | send | fetch => cases found

/-- A Sync and its Follow_Up on a clock of two ports. -/
theorem residence_corrected_pair : ResidenceCorrected (twoPorts .little) [.receive (syncAt 2)]
    (.receive (followUpAt true)) := by
  have smooth : (smooth 9).Smooth := ⟨fun _ => rfl, fun _ => rfl, fun _ => ⟨9, rfl, by decide⟩⟩
  refine residence_corrected _ rfl _ _ (fun event member => ?_) ⟨smooth, smooth⟩
  rw [List.mem_singleton.mp member]
  exact ⟨smooth, smooth⟩

end Runs

end LinuxPtp
