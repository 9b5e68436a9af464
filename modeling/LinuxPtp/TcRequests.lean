import LinuxPtp.TcResidence

/-!
# Delay requests in a transparent clock

A Delay_Req waits at each port by which it went out, among the Syncs and Follow_Ups that wait there.
In a run without failures no other message touches the requests.

Requests are found in a queue among other messages by their type. Each operation on the queue is
told as one on the list of requests: it appends, removes, or leaves it.
-/

namespace LinuxPtp

open Octets RefPool Runs

/-- A Delay_Req that waits at a port by which it went out. -/
structure TcRequest where
  serial : Nat
  data : Storage
  host : Int
  residence : Int
  ingressPort : Nat

namespace TcState

variable (s : TcState)

/-- The message of a descriptor is a Delay_Req. -/
def isRequest (txd : TcTxd) : Bool := msgType (s.message txd.msg).data = some .delayReq

def requestOf (txd : TcTxd) : TcRequest where
  serial := (s.message txd.msg).serial
  data := (s.message txd.msg).data
  host := (s.message txd.msg).host
  residence := txd.residence
  ingressPort := txd.ingressPort

/-- The requests that wait at a port. -/
def requests (p : Nat) : List TcRequest :=
  ((s.ports p).transmitted.filter s.isRequest).map s.requestOf

end TcState

/-- A Delay_Resp is handed to a transport. -/
def isResponse : TcOutput → Bool
  | .send _ _ _ octets => msgType octets = some .delayResp
  | .complete _ _ _ _ octets => msgType octets = some .delayResp
  | .fetch _ _ => false

/-- The request came in at a port, and the response is for it. -/
def TcRequest.answeredBy (c : TcClock) (p : Nat) (resp : Storage) (request : TcRequest) : Bool :=
  request.ingressPort = p ∧
    load c.order PtpHeader.sequenceId request.data = load c.order PtpHeader.sequenceId resp ∧
    portIdentity PtpHeader.sourcePortIdentity request.data =
      portIdentity DelayRespMsg.requestingPortIdentity resp

/-! ## What leaves the requests alone -/

/-- Nothing happens to the requests, and no Delay_Resp goes out. -/
structure Bypasses (s s' : TcState) : Prop where
  requests : ∀ p, s'.requests p = s.requests p
  states : ∀ p, (s'.ports p).state = (s.ports p).state
  outputs : ∃ more, s'.outputs = s.outputs ++ more ∧ ∀ out ∈ more, isResponse out = false

section Bypassing

variable {c : TcClock} {o : TcOracle} {s s' s'' : TcState} {p q cell : Nat}

/-- What goes out in two steps. -/
theorem silent_trans
    (first : ∃ more, s'.outputs = s.outputs ++ more ∧ ∀ out ∈ more, isResponse out = false)
    (second : ∃ more, s''.outputs = s'.outputs ++ more ∧ ∀ out ∈ more, isResponse out = false) :
    ∃ more, s''.outputs = s.outputs ++ more ∧ ∀ out ∈ more, isResponse out = false := by
  obtain ⟨before, one, silent⟩ := first
  obtain ⟨after, two, still⟩ := second
  refine ⟨before ++ after, by rw [two, one, List.append_assoc], ?_⟩
  intro out member
  rcases List.mem_append.mp member with old | new
  · exact silent out old
  · exact still out new

theorem Bypasses.refl : Bypasses s s :=
  ⟨fun _ => rfl, fun _ => rfl, [], (List.append_nil _).symm, fun _ member => by cases member⟩

theorem Bypasses.trans (first : Bypasses s s') (second : Bypasses s' s'') : Bypasses s s'' :=
  ⟨fun p => (second.requests p).trans (first.requests p),
    fun p => (second.states p).trans (first.states p), silent_trans first.outputs second.outputs⟩

/-- The requests depend on the queue and on the messages that wait in it. -/
theorem requests_congr (queue : (s'.ports p).transmitted = (s.ports p).transmitted)
    (kinds : ∀ txd ∈ (s.ports p).transmitted, s'.isRequest txd = s.isRequest txd)
    (same : ∀ txd ∈ (s.ports p).transmitted, s.isRequest txd = true →
      s'.requestOf txd = s.requestOf txd) : s'.requests p = s.requests p := by
  unfold TcState.requests
  rw [queue, List.filter_congr kinds]
  apply List.map_congr_left
  intro txd member
  obtain ⟨waits, request⟩ := List.mem_filter.mp member
  exact same txd waits request

/-- The messages that wait are the same. -/
theorem Bypasses.of_messages (ports : s'.ports = s.ports) (outputs : s'.outputs = s.outputs)
    (same : ∀ p, ∀ txd ∈ (s.ports p).transmitted, s'.message txd.msg = s.message txd.msg) :
    Bypasses s s' := by
  refine ⟨fun p => ?_, fun p => by rw [ports], [], by rw [outputs, List.append_nil],
    fun _ member => by cases member⟩
  apply requests_congr (by rw [ports])
  · intro txd member
    unfold TcState.isRequest
    rw [same p txd member]
  · intro txd member _
    unfold TcState.requestOf
    rw [same p txd member]

theorem Bypasses.of_message (ports : s'.ports = s.ports) (outputs : s'.outputs = s.outputs)
    (same : s'.message = s.message) : Bypasses s s' :=
  Bypasses.of_messages ports outputs fun _ _ _ => congrFun same _

/-- A message that is no request is changed and remains none. -/
theorem Bypasses.change (change : TcMessage → TcMessage)
    (other : msgType (s.message cell).data ≠ some .delayReq)
    (kind : msgType (change (s.message cell)).data = msgType (s.message cell).data) :
    Bypasses s (s.withMessage cell change) := by
  refine ⟨fun p => requests_congr rfl (fun txd _ => ?_) fun txd _ request => ?_, fun _ => rfl,
    [], (List.append_nil _).symm, fun _ member => by cases member⟩
  · unfold TcState.isRequest
    by_cases here : txd.msg = cell
    · rw [here, message_change_same, kind]
    · rw [message_change_other here]
  · unfold TcState.isRequest at request
    have differ : txd.msg ≠ cell := by
      intro here
      rw [here] at request
      exact other (by simpa using request)
    unfold TcState.requestOf
    rw [message_change_other differ]

/-- A change of the time stamp of a message. -/
theorem Bypasses.stamp (cell : Nat) (stamp : Int) :
    Bypasses s (s.withMessage cell (TcMessage.setHwts stamp)) := by
  have kept : ∀ other, ((s.withMessage cell (TcMessage.setHwts stamp)).message other).data =
        (s.message other).data ∧
      ((s.withMessage cell (TcMessage.setHwts stamp)).message other).serial =
        (s.message other).serial ∧
      ((s.withMessage cell (TcMessage.setHwts stamp)).message other).host =
        (s.message other).host := by
    intro other
    by_cases here : other = cell
    · rw [here, message_change_same]
      exact ⟨rfl, rfl, rfl⟩
    · rw [message_change_other here]
      exact ⟨rfl, rfl, rfl⟩
  refine ⟨fun p => requests_congr rfl (fun txd _ => ?_) fun txd _ _ => ?_, fun _ => rfl,
    [], (List.append_nil _).symm, fun _ member => by cases member⟩
  · unfold TcState.isRequest
    rw [(kept _).1]
  · unfold TcState.requestOf
    rw [(kept _).1, (kept _).2.1, (kept _).2.2]

theorem Bypasses.output {out : TcOutput} (silent : isResponse out = false) :
    Bypasses s (s.output out) := by
  refine ⟨fun _ => rfl, fun _ => rfl, [out], rfl, ?_⟩
  intro other member
  rw [List.mem_singleton.mp member]
  exact silent

/-- A loop of which every round leaves the requests alone. -/
theorem Bypasses.foldl (Invariant : TcState → Prop) {step : TcState → Nat → TcState}
    (each : ∀ s p, Invariant s → Bypasses s (step s p) ∧ Invariant (step s p)) (ports : List Nat)
    (initially : Invariant s) : Bypasses s (ports.foldl step s) := by
  induction ports generalizing s with
  | nil => exact Bypasses.refl
  | cons p rest inductionHypothesis =>
    obtain ⟨here, next⟩ := each s p initially
    exact here.trans (inductionHypothesis next)

/-! ### Descriptors -/

theorem requests_drop (txd : TcTxd) : (tcDrop p s txd).requests p =
    (((s.ports p).transmitted.filter s.isRequest).erase txd).map s.requestOf := by
  rw [List.erase_filter, ← transmitted_drop]
  rfl

theorem requests_drop_other (txd : TcTxd) {r : Nat} (differ : r ≠ p) :
    (tcDrop p s txd).requests r = s.requests r := by
  unfold TcState.requests
  rw [ports_drop txd differ]
  rfl

theorem Bypasses.drop {txd : TcTxd} (other : s.isRequest txd = false) :
    Bypasses s (tcDrop p s txd) := by
  refine ⟨fun r => ?_, state_drop txd, [], (List.append_nil _).symm,
    fun _ member => by cases member⟩
  by_cases here : r = p
  · subst here
    rw [requests_drop, List.erase_of_not_mem]
    · rfl
    · intro member
      have request := (List.mem_filter.mp member).2
      rw [other] at request
      cases request
  · exact requests_drop_other txd here

theorem requests_stash (q cell : Nat) (time : Int) : (tcStash q p cell time s).requests p =
    s.requests p ++ if msgType (s.message cell).data = some .delayReq then
      [⟨(s.message cell).serial, (s.message cell).data, (s.message cell).host, time, q⟩]
    else [] := by
  obtain ⟨messages, _, _⟩ := stash_frame q p cell time s
  unfold TcState.requests TcState.isRequest TcState.requestOf
  rw [stash_queue, messages, List.filter_append, List.map_append]
  congr 1
  split <;> simp [*]

theorem requests_stash_other (q cell : Nat) (time : Int) {r : Nat} (differ : r ≠ p) :
    (tcStash q p cell time s).requests r = s.requests r := by
  obtain ⟨messages, _, others⟩ := stash_frame q p cell time s
  unfold TcState.requests TcState.isRequest TcState.requestOf
  rw [others r differ, messages]

theorem Bypasses.stash (time : Int) (other : msgType (s.message cell).data ≠ some .delayReq) :
    Bypasses s (tcStash q p cell time s) := by
  refine ⟨fun r => ?_, fun r => (stash_port q p cell time s r).1, [], ?_,
    fun _ member => by cases member⟩
  · by_cases here : r = p
    · subst here
      rw [requests_stash, if_neg other, List.append_nil]
    · exact requests_stash_other q cell time here
  · rw [(stash_frame q p cell time s).2.1, List.append_nil]

theorem Bypasses.transmit (success : o.completes p = true) (event : Nat) (interval : Int)
    (other : msgType (s.message cell).data ≠ some .delayResp) :
    Bypasses s (tcTransmit c o p cell event interval s) := by
  obtain ⟨ports, outputs, _⟩ := transmit_sent (c := c) success cell event interval s
  have sent : Bypasses s (s.output (.complete p (s.message cell).serial (s.message event).serial
      (s.message cell).held (addCorrection interval (s.message cell).data))) :=
    Bypasses.output (by simp [isResponse, addCorrection_type, other])
  exact sent.trans (Bypasses.of_message ports outputs (message_transmit p cell event interval s))

/-! ### Syncs and Follow_Ups -/

/-- A pair of Sync and Follow_Up, or one that waits for the other. -/
theorem Bypasses.syfup (success : o.completes p = true) (time : Int)
    (kind : msgType (s.message cell).data = some .sync ∨
      msgType (s.message cell).data = some .followUp) :
    Bypasses s (tcCompleteSyfup c o q p cell time s) := by
  have dropped : ∀ {fup event interval txd}, msgType (s.message fup).data = some .followUp →
      s.isRequest txd = false →
      Bypasses s (tcDrop p (tcTransmit c o p fup event interval s) txd) := by
    intro fup event interval txd followUp other
    have sent : Bypasses s (tcTransmit c o p fup event interval s) :=
      Bypasses.transmit success event interval (by simp [followUp])
    refine sent.trans (Bypasses.drop ?_)
    unfold TcState.isRequest at other ⊢
    rw [message_transmit]
    exact other
  unfold tcCompleteSyfup
  dsimp only
  split
  · apply Bypasses.stash
    rcases kind with kind | kind <;> simp [kind]
  next txd found =>
    have matched := List.find?_some found
    obtain ⟨_, _, _, kinds⟩ := match_syfup (of_decide_eq_true matched)
    rcases kinds with ⟨fate, sync, followUp⟩ | ⟨fate, followUp, sync⟩
    · rw [fate]
      exact dropped followUp (by simp [TcState.isRequest, sync])
    · rw [fate]
      exact dropped followUp (by simp [TcState.isRequest, followUp])

/-- The first pass over the ports. -/
theorem Bypasses.sends (smooth : o.Smooth) {kind : MsgType} (other : kind ≠ .delayResp)
    (typed : msgType (s.message cell).data = some kind) (ports : List Nat) :
    Bypasses s (ports.foldl (tcSendTo c o q cell) s) := by
  apply Bypasses.foldl (fun s => msgType (s.message cell).data = some kind) _ ports typed
  intro s p typed
  refine ⟨?_, by rw [(Steady.sendTo cell s p cell).1]; exact typed⟩
  unfold tcSendTo
  split
  · exact Bypasses.refl
  · dsimp only
    rw [if_pos (smooth.forwards p)]
    exact Bypasses.output (by simp [isResponse, typed, other])

/-- The second pass, as far as what is completed at a port. -/
theorem stampOf_stamped (smooth : o.Smooth) (ingress : Int)
    (free : tcBlocked c s q p (s.message cell).data = false) : ∃ s', Bypasses s s' ∧
      Steady s s' ∧ (∀ other, (s'.message other).host = (s.message other).host) ∧
      tcStampOf c o q cell ingress s p = tcComplete c o q p cell
        (c.scaled ((o.stamps p).getD 0 + c.txTimestampOffset p - ingress)) s' := by
  obtain ⟨stamp, found, nonzero⟩ := smooth.stamps p
  have hosts : ∀ (s' : TcState) stamp other,
      ((s'.withMessage cell (TcMessage.setHwts stamp)).message other).host =
        (s'.message other).host := by
    intro s' stamp other
    by_cases here : other = cell
    · rw [here, message_change_same]
      rfl
    · rw [message_change_other here]
  have stamped : ∀ s' stamp, Steady s' (s'.withMessage cell (TcMessage.setHwts stamp)) :=
    fun s' stamp => Steady.change cell _ fun _ => ⟨rfl, rfl⟩
  have fetched : Bypasses s
      (s.output (.fetch p (load .big PtpHeader.messageLength (s.message cell).data))) :=
    Bypasses.output rfl
  refine ⟨_, (fetched.trans (Bypasses.stamp cell stamp)).trans
      (Bypasses.stamp cell (stamp + c.txTimestampOffset p)),
    (stamped (s.output _) stamp).trans (stamped _ (stamp + c.txTimestampOffset p)),
    fun other => (hosts _ _ other).trans (hosts _ _ other), ?_⟩
  unfold tcStampOf
  simp only [free, Bool.false_eq_true, if_false, found, nonzero, Option.getD_some]

/-- A Sync is sent and completed at every port that is free. -/
theorem Bypasses.event (smooth : o.Smooth) (sync : msgType (s.message cell).data = some .sync) :
    Bypasses s (tcFwdEvent c o q cell s) := by
  have noted : Bypasses s (s.withMessage cell (TcMessage.setHost o.now)) :=
    Bypasses.change _ (by simp [sync]) rfl
  have steady := Steady.change (s := s) cell (TcMessage.setHost o.now) fun _ => ⟨rfl, rfl⟩
  have kind : msgType ((s.withMessage cell (TcMessage.setHost o.now)).message cell).data =
      some .sync := by
    rw [(steady cell).1]
    exact sync
  have sent := noted.trans (Bypasses.sends (c := c) (q := q) smooth (by simp) kind c.ports)
  refine sent.trans (Bypasses.foldl (fun s =>
    msgType (s.message cell).data = some .sync) ?_ c.ports ?_)
  · intro s p sync
    refine ⟨?_, by rw [(Steady.stampOf cell _ s p cell).1]; exact sync⟩
    cases here : tcBlocked c s q p (s.message cell).data with
    | true =>
      rw [tcStampOf, if_pos here]
      exact Bypasses.refl
    | false =>
      obtain ⟨s', stamped, steady, _, completes⟩ := stampOf_stamped smooth _ here
      rw [completes, tcComplete, (steady cell).1, sync]
      refine stamped.trans (Bypasses.syfup (smooth.completes p) _ (Or.inl ?_))
      rw [(steady cell).1]
      exact sync
  · rw [(Steady.foldl (Steady.sendTo cell) c.ports _ cell).1]
    exact kind

/-- A Follow_Up is completed at every port that is free. -/
theorem Bypasses.folup (smooth : o.Smooth)
    (followUp : msgType (s.message cell).data = some .followUp) :
    Bypasses s (tcFwdFolup c o q cell s) := by
  have noted : Bypasses s (s.withMessage cell (TcMessage.setHost o.now)) :=
    Bypasses.change _ (by simp [followUp]) rfl
  refine noted.trans (Bypasses.foldl (fun s =>
    msgType (s.message cell).data = some .followUp) ?_ c.ports ?_)
  · intro s p followUp
    refine ⟨?_, by rw [(Steady.completeAt s p cell).1]; exact followUp⟩
    unfold tcCompleteAt
    split
    · exact Bypasses.refl
    · rw [tcComplete, followUp]
      exact Bypasses.syfup (smooth.completes p) 0 (Or.inr followUp)
  · rw [message_change_same]
    exact followUp

theorem Bypasses.converted {again : TcOracle} {fup : Nat} (smooth : o.Smooth) (anew : again.Smooth)
    (sync : msgType (s.message cell).data = some .sync) (differ : fup ≠ cell)
    (followUp : msgType (s.message fup).data = some .followUp) :
    Bypasses s (tcFwdConverted c o again q cell fup s) := by
  have kind : msgType (TcMessage.setTwoStep (s.message cell)).data = some .sync :=
    (msgType_flags _ _).trans sync
  have flagged : Bypasses s (s.withMessage cell TcMessage.setTwoStep) :=
    Bypasses.change _ (by simp [sync]) (kind.trans sync.symm)
  have event : Bypasses s (tcFwdEvent c o q cell (s.withMessage cell TcMessage.setTwoStep)) :=
    flagged.trans (Bypasses.event smooth (by
      rw [message_change_same]
      exact kind))
  have built : msgType ((tcFwdEvent c o q cell
      (s.withMessage cell TcMessage.setTwoStep)).message fup).data = some .followUp := by
    rw [(Steady.event fup).1, message_change_other differ]
    exact followUp
  exact (event.trans (Bypasses.folup anew built)).trans (Bypasses.of_message rfl rfl rfl)

/-- Messages that are only forwarded. -/
theorem Bypasses.forward (smooth : o.Smooth) {kind : MsgType}
    (other : kind ≠ .delayResp ∧ kind ≠ .delayReq)
    (typed : msgType (s.message cell).data = some kind) :
    Bypasses s (tcForward c o q cell s) := by
  have stepped : msgType (TcMessage.addStep (s.message cell)).data =
      msgType (s.message cell).data := by
    have outside : ¬ AnnounceMsg.stepsRemoved.Covers PtpHeader.tsmt := by decide
    simp only [msgType, TcMessage.addStep, store_outside outside]
  unfold tcForward
  dsimp only
  split
  · have changed : Bypasses s (s.withMessage cell TcMessage.addStep) :=
      Bypasses.change _ (by simp [typed, other.2]) stepped
    refine changed.trans (Bypasses.sends smooth other.1 ?_ c.ports)
    rw [message_change_same, stepped]
    exact typed
  · exact Bypasses.sends smooth other.1 typed c.ports

/-- A Sync, of which a Follow_Up may be split off. -/
theorem Bypasses.sync {again : TcOracle} (smooth : o.Smooth) (anew : again.Smooth)
    (queued : Queued c (fun _ => True) (fun _ => True) [cell] s)
    (sync : msgType (s.message cell).data = some .sync) :
    Bypasses s (tcFwdSync c o again q cell s) := by
  unfold tcFwdSync
  dsimp only
  split
  · generalize built : TcMessage.mk (followUpOf c (s.message cell).data) FollowUpMsg.size
      (s.message cell).serial 0 0 = fup
    have kept : ∀ held ∈ [cell] ++ waiting c s, TcState.message { s with
        msgs := (s.msgs.allocate fup).2 } held = s.message held :=
      fun held member => queued.message_take _ member
    have taken : Bypasses s { s with msgs := (s.msgs.allocate fup).2 } :=
      Bypasses.of_messages rfl rfl fun p txd member =>
        kept txd.msg (List.mem_append_right [cell] (queued.listed member).2)
    refine taken.trans (Bypasses.converted smooth anew ?_ ?_ ?_)
    · rw [kept cell List.mem_cons_self]
      exact sync
    · intro same
      exact queued.exact.fresh _ (List.mem_append_left _ (List.mem_singleton.mpr same))
    · rw [message_take_new, ← built]
      exact followUpOf_type c _
  · exact Bypasses.event smooth sync

end Bypassing

/-! ## Requests -/

section Requests

variable {c : TcClock} {o : TcOracle} {s s' : TcState} {p q cell : Nat}

theorem blocked_alike (states : ∀ p, (s'.ports p).state = (s.ports p).state) (data : Storage) :
    tcBlocked c s' q p data = tcBlocked c s q p data := by
  simp only [tcBlocked, states]

theorem message_sendTo (s : TcState) (p : Nat) : (tcSendTo c o q cell s p).message = s.message := by
  unfold tcSendTo
  split
  · rfl
  · dsimp only
    split
    · rfl
    · exact (fault_frame o c _ p).1

theorem message_sends (ports : List Nat) (s : TcState) :
    (ports.foldl (tcSendTo c o q cell) s).message = s.message := by
  induction ports generalizing s with
  | nil => rfl
  | cons p rest inductionHypothesis =>
    exact (inductionHypothesis _).trans (message_sendTo s p)

/-- A request begins to wait at some ports, and no Delay_Resp goes out. -/
structure Enters (joins : Nat → List TcRequest) (s s' : TcState) : Prop where
  requests : ∀ p, s'.requests p = s.requests p ++ joins p
  states : ∀ p, (s'.ports p).state = (s.ports p).state
  outputs : ∃ more, s'.outputs = s.outputs ++ more ∧ ∀ out ∈ more, isResponse out = false

theorem Bypasses.enters {joins : Nat → List TcRequest} {s'' : TcState} (before : Bypasses s s')
    (after : Enters joins s' s'') : Enters joins s s'' :=
  ⟨fun p => by rw [after.requests, before.requests],
    fun p => (after.states p).trans (before.states p), silent_trans before.outputs after.outputs⟩

/-- A Delay_Req as it waits at a port after it was stamped there. -/
def stampedAt (c : TcClock) (o : TcOracle) (q : Nat) (ingress : Int) (msg : TcMessage) (p : Nat) :
    TcRequest :=
  ⟨msg.serial, msg.data, msg.host,
    c.scaled ((o.stamps p).getD 0 + c.txTimestampOffset p - ingress), q⟩

/-- The second pass over the ports, for a Delay_Req. -/
theorem enters_stamps (smooth : o.Smooth) (ingress : Int)
    (request : msgType (s.message cell).data = some .delayReq) {ports : List Nat}
    (distinct : ports.Nodup) :
    Enters (fun p => if p ∈ ports ∧ tcBlocked c s q p (s.message cell).data = false then
        [stampedAt c o q ingress (s.message cell) p] else []) s
      (ports.foldl (tcStampOf c o q cell ingress) s) := by
  induction ports generalizing s with
  | nil =>
    refine ⟨fun p => ?_, fun _ => rfl, [], (List.append_nil _).symm,
      fun _ member => by cases member⟩
    simp
  | cons first rest inductionHypothesis =>
    obtain ⟨absent, distinct⟩ := List.nodup_cons.mp distinct
    rw [List.foldl_cons]
    cases here : tcBlocked c s q first (s.message cell).data with
    | true =>
      have idle : tcStampOf c o q cell ingress s first = s := if_pos here
      rw [idle]
      have later := inductionHypothesis request distinct
      refine ⟨fun p => ?_, later.states, later.outputs⟩
      rw [later.requests]
      by_cases same : p = first
      · subst same
        simp [absent, here]
      · simp [same]
    | false =>
      obtain ⟨s₁, stamped, steady, hosts, completes⟩ := stampOf_stamped smooth ingress here
      have stash : tcStampOf c o q cell ingress s first = tcStash q first cell
          (c.scaled ((o.stamps first).getD 0 + c.txTimestampOffset first - ingress)) s₁ := by
        rw [completes, tcComplete, (steady cell).1, request]
        rfl
      rw [stash]
      generalize time : c.scaled ((o.stamps first).getD 0 + c.txTimestampOffset first - ingress) =
        spent at *
      obtain ⟨messages, outputs, _⟩ := stash_frame q first cell spent s₁
      have data : ((tcStash q first cell spent s₁).message cell).data = (s.message cell).data := by
        rw [messages, (steady cell).1]
      have entry : ∀ p, stampedAt c o q ingress ((tcStash q first cell spent s₁).message cell) p =
          stampedAt c o q ingress (s.message cell) p := by
        intro p
        unfold stampedAt
        rw [messages, (steady cell).1, (steady cell).2, hosts]
      have states : ∀ p, ((tcStash q first cell spent s₁).ports p).state = (s.ports p).state :=
        fun p => (stash_port q first cell spent s₁ p).1.trans (stamped.states p)
      have later := inductionHypothesis (s := tcStash q first cell spent s₁)
        (by rw [data]; exact request) distinct
      refine ⟨fun p => ?_, fun p => (later.states p).trans (states p), ?_⟩
      · rw [later.requests, data, blocked_alike states, entry]
        by_cases same : p = first
        · subst same
          rw [requests_stash, if_pos (by rw [(steady cell).1]; exact request), stamped.requests,
            if_neg (by simp [absent]), if_pos ⟨List.mem_cons_self, here⟩, List.append_nil]
          unfold stampedAt
          rw [(steady cell).1, (steady cell).2, hosts, time]
        · rw [requests_stash_other q cell spent same, stamped.requests]
          simp [same]
      · exact silent_trans (outputs ▸ stamped.outputs) later.outputs

/-- A Delay_Req waits at every port by which it goes out. -/
theorem enters_event (smooth : o.Smooth)
    (apart : ∀ p, ∀ txd ∈ (s.ports p).transmitted, txd.msg ≠ cell)
    (request : msgType (s.message cell).data = some .delayReq) :
    Enters (fun p => if p ∈ c.ports ∧ tcBlocked c s q p (s.message cell).data = false then
        [stampedAt c o q (s.message cell).hwts ((s.message cell).setHost o.now) p] else []) s
      (tcFwdEvent c o q cell s) := by
  have noted : Bypasses s (s.withMessage cell (TcMessage.setHost o.now)) :=
    Bypasses.of_messages rfl rfl fun p txd member => message_change_other (apart p txd member) _
  have kind : msgType ((s.withMessage cell (TcMessage.setHost o.now)).message cell).data =
      some .delayReq := by
    rw [message_change_same]
    exact request
  have sent := noted.trans (Bypasses.sends (c := c) (q := q) smooth (by simp) kind c.ports)
  have messages := @message_sends c o q cell c.ports (s.withMessage cell (TcMessage.setHost o.now))
  have stamped := @enters_stamps c o
    (c.ports.foldl (tcSendTo c o q cell) (s.withMessage cell (TcMessage.setHost o.now))) q cell
    smooth (s.message cell).hwts (by rw [messages]; exact kind) c.ports (ports_distinct c)
  have joined := sent.enters stamped
  simp only [messages, message_change_same, blocked_alike sent.states] at joined
  exact joined

end Requests

end LinuxPtp
