import LinuxPtp.TcRequests
import Mathlib.Data.List.Find
import Mathlib.Data.List.TakeWhile

/-!
# Delay responses in a transparent clock

A Delay_Resp that comes in at a port goes out by the ports at which the Delay_Reqs that wait there
for it came in. Without failures, what happens to the requests is what happens to plain lists of
them, one for each port, without references, descriptors or changes of messages in place.

The lists are an abstract model with steps of its own, and the steps of the code are shown to be
steps of the lists. What pruning may remove is bounded on both sides: only requests that are a
second old, and all that stand before the first descriptor that is younger.
-/

namespace LinuxPtp

open Octets RefPool Runs

/-! ## Responses -/

section Responses

variable {c : TcClock} {o : TcOracle} {s : TcState} {p q cell : Nat}

/-- The request that a Delay_Resp answers at a port by which it may go out. -/
def answerAt (c : TcClock) (free : Nat → Bool) (requests : List TcRequest) (resp : Storage)
    (p : Nat) : Option TcRequest :=
  if free p then requests.find? (TcRequest.answeredBy c p resp) else none

/-- The requests that a Delay_Resp answers. -/
def answered (c : TcClock) (free : Nat → Bool) (requests : List TcRequest) (resp : Storage)
    (ports : List Nat) : List TcRequest :=
  ports.filterMap (answerAt c free requests resp)

/-- A Delay_Resp as it goes out. -/
def TcMessage.responseTo (resp : TcMessage) (p : Nat) (request : TcRequest) : TcOutput :=
  .complete p resp.serial request.serial resp.held
    (addCorrection (timeInterval request.residence) resp.data)

/-- What goes out for a Delay_Resp. -/
def TcMessage.responses (c : TcClock) (free : Nat → Bool) (requests : List TcRequest)
    (resp : TcMessage) (ports : List Nat) : List TcOutput :=
  ports.filterMap fun p => (answerAt c free requests resp.data p).map (resp.responseTo p)

/-- Requests without those of a list. -/
def withoutRequests (gone requests : List TcRequest) : List TcRequest :=
  requests.filter fun request => request.serial ∉ gone.map TcRequest.serial

theorem withoutRequests_cons (request : TcRequest) (gone requests : List TcRequest) :
    withoutRequests gone (withoutRequests [request] requests) =
      withoutRequests (request :: gone) requests := by
  unfold withoutRequests
  rw [List.filter_filter]
  apply List.filter_congr
  intro waiting _
  rw [Bool.eq_iff_iff, Bool.and_eq_true, decide_eq_true_iff, decide_eq_true_iff, decide_eq_true_iff,
    List.map_cons, List.map_cons, List.map_nil, List.mem_singleton, List.mem_cons, not_or]
  exact And.comm

theorem answerAt_some {free : Nat → Bool} {requests : List TcRequest} {resp : Storage}
    {request : TcRequest} (found : answerAt c free requests resp p = some request) :
    request ∈ requests ∧ free p = true ∧ request.answeredBy c p resp = true := by
  unfold answerAt at found
  split at found
  next unblocked => exact ⟨List.mem_of_find?_eq_some found, unblocked, List.find?_some found⟩
  next => cases found

theorem serial_inj {requests : List TcRequest} (once : (requests.map TcRequest.serial).Nodup)
    {one other : TcRequest} (first : one ∈ requests) (second : other ∈ requests)
    (same : one.serial = other.serial) : one = other :=
  List.inj_on_of_nodup_map once first second same

/-- A request that is answered at one port is not the one to be answered at another. -/
theorem answerAt_without {free : Nat → Bool} {requests : List TcRequest} {resp : Storage}
    {request : TcRequest} (once : (requests.map TcRequest.serial).Nodup)
    (found : answerAt c free requests resp p = some request) {other : Nat} (differ : other ≠ p) :
    answerAt c free (withoutRequests [request] requests) resp other =
      answerAt c free requests resp other := by
  obtain ⟨member, _, answers⟩ := answerAt_some found
  unfold answerAt withoutRequests
  rw [List.find?_filter]
  congr 1
  apply List.find?_congr
  intro waiting listed
  by_cases same : waiting.serial = request.serial
  · obtain rfl := serial_inj once listed member same
    have elsewhere : waiting.answeredBy c other resp = false := by
      unfold TcRequest.answeredBy at answers ⊢
      simp only [decide_eq_true_eq] at answers
      simp [answers.1, Ne.symm differ]
    simp [elsewhere]
  · simp [same]

/-- A request and a response belong together if the request came in where the response goes out,
and they agree in sequence number and requesting port. -/
theorem match_delay {resp req : Storage} {txd : TcTxd} :
    tcMatchDelay c p resp req txd = .delayReqResp ↔
      (txd.ingressPort = p ∧
        load c.order PtpHeader.sequenceId req = load c.order PtpHeader.sequenceId resp ∧
        portIdentity PtpHeader.sourcePortIdentity req =
          portIdentity DelayRespMsg.requestingPortIdentity resp) ∧
      msgType req = some .delayReq ∧ msgType resp = some .delayResp := by
  unfold tcMatchDelay
  by_cases port : p = txd.ingressPort
  · by_cases sequence : load c.order PtpHeader.sequenceId req =
        load c.order PtpHeader.sequenceId resp
    · by_cases source : portIdentity PtpHeader.sourcePortIdentity req =
          portIdentity DelayRespMsg.requestingPortIdentity resp
      · simp [port, sequence, source]
      · simp [port, sequence, source]
    · simp [port, sequence]
  · simp [port, Ne.symm port]

theorem answeredBy_iff {resp : Storage} {request : TcRequest} :
    request.answeredBy c p resp = true ↔ request.ingressPort = p ∧
      load c.order PtpHeader.sequenceId request.data = load c.order PtpHeader.sequenceId resp ∧
      portIdentity PtpHeader.sourcePortIdentity request.data =
        portIdentity DelayRespMsg.requestingPortIdentity resp := decide_eq_true_iff

/-- What the code looks for among all descriptors is the first request that is answered. -/
theorem find_request {resp : Storage} (response : msgType resp = some .delayResp) :
    ((s.ports q).transmitted.find? fun txd =>
        tcMatchDelay c p resp (s.message txd.msg).data txd = .delayReqResp).map s.requestOf =
      (s.requests q).find? (TcRequest.answeredBy c p resp) := by
  unfold TcState.requests
  rw [List.find?_map, List.find?_filter]
  congr 1
  apply List.find?_congr
  intro txd _
  apply decide_eq_decide.mpr
  rw [match_delay, Function.comp_apply, answeredBy_iff]
  simp only [TcState.isRequest, decide_eq_true_eq, response, and_true]
  exact And.comm

/-- A request that is answered leaves its queue. -/
theorem requests_answered {txd : TcTxd} (once : ((s.requests p).map TcRequest.serial).Nodup)
    (member : txd ∈ (s.ports p).transmitted) (request : s.isRequest txd = true) :
    (tcDrop p s txd).requests p = withoutRequests [s.requestOf txd] (s.requests p) := by
  rw [requests_drop]
  unfold withoutRequests TcState.requests at *
  rw [List.filter_map]
  congr 1
  rw [List.map_map] at once
  rw [once.of_map.erase_eq_filter]
  apply List.filter_congr
  intro other listed
  have waits : txd ∈ (s.ports p).transmitted.filter s.isRequest :=
    List.mem_filter.mpr ⟨member, request⟩
  by_cases same : other = txd
  · simp [same]
  · have differ : (s.requestOf other).serial ≠ (s.requestOf txd).serial :=
      fun equal => same (List.inj_on_of_nodup_map once listed waits equal)
    simp [same, differ]

/-- What a Delay_Resp does at some ports. -/
structure Responds (c : TcClock) (q : Nat) (resp : TcMessage) (ports : List Nat) (s s' : TcState) :
    Prop where
  outputs : s'.outputs = s.outputs ++
    resp.responses c (fun p => !tcBlocked c s q p resp.data) (s.requests q) ports
  here : s'.requests q = withoutRequests
    (answered c (fun p => !tcBlocked c s q p resp.data) (s.requests q) resp.data ports)
    (s.requests q)
  elsewhere : ∀ r, r ≠ q → s'.requests r = s.requests r
  states : ∀ p, (s'.ports p).state = (s.ports p).state
  message : s'.message = s.message

theorem completeAt_idle (response : msgType (s.message cell).data = some .delayResp)
    (nothing : answerAt c (fun p => !tcBlocked c s q p (s.message cell).data) (s.requests q)
      (s.message cell).data p = none) : tcCompleteAt c o q cell s p = s := by
  unfold tcCompleteAt
  split
  · rfl
  next free =>
    rw [tcComplete, response]
    unfold answerAt at nothing
    rw [if_pos (by simpa using free), ← find_request response, Option.map_eq_none_iff] at nothing
    change tcCompleteResponse c o q p cell s = s
    unfold tcCompleteResponse
    rw [nothing]

/-- A Delay_Resp goes out by one port. -/
theorem completeAt_answers (success : o.completes p = true)
    (response : msgType (s.message cell).data = some .delayResp)
    (once : ((s.requests q).map TcRequest.serial).Nodup) {request : TcRequest}
    (found : answerAt c (fun p => !tcBlocked c s q p (s.message cell).data) (s.requests q)
      (s.message cell).data p = some request) :
    (tcCompleteAt c o q cell s p).outputs =
        s.outputs ++ [(s.message cell).responseTo p request] ∧
      (tcCompleteAt c o q cell s p).requests q = withoutRequests [request] (s.requests q) ∧
      (∀ r, r ≠ q → (tcCompleteAt c o q cell s p).requests r = s.requests r) ∧
      (∀ r, ((tcCompleteAt c o q cell s p).ports r).state = (s.ports r).state) ∧
      (tcCompleteAt c o q cell s p).message = s.message := by
  unfold answerAt at found
  split at found
  next free =>
    rw [← find_request response, Option.map_eq_some_iff] at found
    obtain ⟨txd, found, rfl⟩ := found
    have member := List.mem_of_find?_eq_some found
    have matched := List.find?_some found
    have kind : s.isRequest txd = true := by
      have pair := match_delay.mp (of_decide_eq_true matched)
      simpa [TcState.isRequest] using pair.2.1
    have completes : tcCompleteAt c o q cell s p =
        tcDrop q (tcTransmit c o p cell txd.msg (timeInterval txd.residence) s) txd := by
      unfold tcCompleteAt
      rw [if_neg (by simpa using free), tcComplete, response]
      change tcCompleteResponse c o q p cell s = _
      unfold tcCompleteResponse
      rw [found]
    obtain ⟨ports, outputs, _⟩ :=
      transmit_sent (c := c) success cell txd.msg (timeInterval txd.residence) s
    have message : (tcTransmit c o p cell txd.msg (timeInterval txd.residence) s).message =
        s.message := message_transmit ..
    have requests : ∀ r, (tcTransmit c o p cell txd.msg (timeInterval txd.residence) s).requests r =
        s.requests r := by
      intro r
      unfold TcState.requests TcState.isRequest TcState.requestOf
      rw [ports, message]
    have entry : (tcTransmit c o p cell txd.msg (timeInterval txd.residence) s).requestOf txd =
        s.requestOf txd := by
      unfold TcState.requestOf
      rw [message]
    rw [completes]
    refine ⟨outputs, ?_, fun r differ => ?_, fun r => ?_, message⟩
    · rw [requests_answered, entry, requests]
      · rw [requests]
        exact once
      · rw [ports]
        exact member
      · unfold TcState.isRequest
        rw [message]
        exact kind
    · rw [requests_drop_other txd differ, requests]
    · rw [state_drop, ports]
  next => cases found

/-- A Delay_Resp answers one request at each port by which it goes out, and no request twice. -/
theorem responds (success : ∀ p, o.completes p = true)
    (response : msgType (s.message cell).data = some .delayResp)
    (once : ((s.requests q).map TcRequest.serial).Nodup) {ports : List Nat}
    (distinct : ports.Nodup) :
    Responds c q (s.message cell) ports s (ports.foldl (tcCompleteAt c o q cell) s) := by
  induction ports generalizing s with
  | nil =>
    refine ⟨(List.append_nil _).symm, ?_, fun _ _ => rfl, fun _ => rfl, rfl⟩
    simp [answered, withoutRequests]
  | cons p rest inductionHypothesis =>
    obtain ⟨absent, distinct⟩ := List.nodup_cons.mp distinct
    rw [List.foldl_cons]
    cases found : answerAt c (fun p => !tcBlocked c s q p (s.message cell).data) (s.requests q)
      (s.message cell).data p with
    | none =>
      rw [completeAt_idle response found]
      have later := inductionHypothesis response once distinct
      refine ⟨?_, ?_, later.elsewhere, later.states, later.message⟩
      · rw [later.outputs]
        simp [TcMessage.responses, found]
      · rw [later.here]
        simp [answered, found]
    | some request =>
      obtain ⟨outputs, here, elsewhere, states, message⟩ :=
        completeAt_answers (success p) response once found
      have fewer : (((tcCompleteAt c o q cell s p).requests q).map TcRequest.serial).Nodup := by
        rw [here]
        exact once.sublist (List.filter_sublist.map _)
      have later := inductionHypothesis (s := tcCompleteAt c o q cell s p)
        (by rw [message]; exact response) fewer distinct
      have same : ∀ other ∈ rest, answerAt c (fun p => !tcBlocked c s q p (s.message cell).data)
          (withoutRequests [request] (s.requests q)) (s.message cell).data other =
          answerAt c (fun p => !tcBlocked c s q p (s.message cell).data) (s.requests q)
            (s.message cell).data other := by
        intro other member
        exact answerAt_without once found fun equal => absent (equal ▸ member)
      obtain ⟨sent, left, others, still, restored⟩ := later
      rw [message, here] at sent left
      simp only [blocked_alike states] at sent left
      refine ⟨?_, ?_, fun r differ => (others r differ).trans (elsewhere r differ),
        fun r => (still r).trans (states r), restored.trans message⟩
      · rw [sent, outputs, List.append_assoc]
        congr 1
        unfold TcMessage.responses
        rw [List.filterMap_cons, found]
        change [_] ++ _ = _ :: _
        rw [List.singleton_append]
        congr 1
        apply List.filterMap_congr
        intro other member
        rw [same other member]
      · rw [left]
        unfold answered
        rw [List.filterMap_congr same, withoutRequests_cons, List.filterMap_cons, found]

end Responses

/-! ## The lists that stand for a clock -/

/-- A transparent clock as far as Delay_Reqs and Delay_Resps go. -/
@[ext]
structure DelayQueues where
  state : Nat → PortState
  waits : Nat → List TcRequest
  sent : List TcOutput

def TcState.delayQueues (s : TcState) : DelayQueues where
  state p := (s.ports p).state
  waits := s.requests
  sent := s.outputs.filter isResponse

/-- An end-to-end clock passes the message on. -/
def TcReception.takesPart (c : TcClock) (r : TcReception) : Bool :=
  c.endToEnd && r.wire PtpHeader.flagField &&& unicast = 0 && tcDuplicates c.order r

/-- A Delay_Req as it waits at a port. -/
def TcReception.request (c : TcClock) (r : TcReception) (serial p : Nat) : TcRequest :=
  ⟨serial, r.wire, r.oracle.now, residence c r p, r.port⟩

namespace DelayQueues

variable (c : TcClock) (d : DelayQueues)

/-- A message that came in at a port may go out by another. -/
def free (q : Nat) (data : Storage) (p : Nat) : Bool :=
  !tcBlocked c { TcState.start with ports := fun p => { state := d.state p } } q p data

/-- A Delay_Req waits at every port by which it goes out. -/
def enter (r : TcReception) (serial : Nat) : DelayQueues :=
  { d with waits := fun p => d.waits p ++
      if p ∈ c.ports ∧ d.free c r.port r.wire p = true then [r.request c serial p] else [] }

/-- A Delay_Resp goes out by the ports of the requests that it answers. -/
def answer (r : TcReception) (serial : Nat) : DelayQueues :=
  let free := d.free c r.port r.wire
  let here := d.waits r.port
  { d with
    waits := fun p => if p = r.port then withoutRequests (answered c free here r.wire c.ports) here
      else d.waits p
    sent := d.sent ++ (r.message serial).responses c free here c.ports }

/-- What a reception does, under its number. -/
def receive (r : TcReception) (serial : Nat) : DelayQueues :=
  if r.takesPart c then
    match msgType r.wire with
    | some .delayReq => d.enter c r serial
    | some .delayResp => d.answer c r serial
    | _ => d
  else d

end DelayQueues

/-- Where one list gets shorter, all are as long as before at most. -/
theorem update_sublist {waits : Nat → List TcRequest} {p : Nat} {kept : List TcRequest}
    (fewer : kept.Sublist (waits p)) (q : Nat) :
    (Function.update waits p kept q).Sublist (waits q) := by
  by_cases same : q = p
  · subst same
    rw [Function.update_self]
    exact fewer
  · rw [Function.update_of_ne same]

/-- When the first message that is left at a port came in, a request or another one. -/
def TcState.front (s : TcState) (p : Nat) : Option Int :=
  (s.ports p).transmitted.head?.map fun txd => (s.message txd.msg).host

/-- The steps of the lists, where the messages in front of the queues afterwards came in at some
times. Pruning removes the first requests of a list, only such as are a second old, and does not end
before the message in front is younger than that or none is left. -/
def DelayStep (c : TcClock) (serial : Nat) (front : Nat → Option Int) (d d' : DelayQueues) :
    TcEvent → Prop
  | .receive r => d' = d.receive c r serial
  | .prune p now => ∃ gone kept, d.waits p = gone ++ kept ∧
      (∀ request ∈ gone, 1000000000 ≤ now - request.host) ∧
      (∀ host, front p = some host → now - host < 1000000000) ∧ (front p = none → kept = []) ∧
      d' = { d with waits := Function.update d.waits p kept }
  | .flush p => d' = { d with waits := Function.update d.waits p [] }
  | .ports state _ => d' = { d with state := state }

section Steps

variable {c : TcClock} {o : TcOracle} {s s' : TcState} {p q cell : Nat} {r : TcReception}

theorem DelayQueues.free_eq (data : Storage) :
    s.delayQueues.free c q data = fun p => !tcBlocked c s q p data := by
  funext p
  rfl

theorem sent_append {more : List TcOutput} (outputs : s'.outputs = s.outputs ++ more) :
    s'.delayQueues.sent = s.delayQueues.sent ++ more.filter isResponse := by
  unfold TcState.delayQueues
  rw [outputs, List.filter_append]

theorem sent_silent (outputs : ∃ more, s'.outputs = s.outputs ++ more ∧
    ∀ out ∈ more, isResponse out = false) : s'.delayQueues.sent = s.delayQueues.sent := by
  obtain ⟨more, grows, silent⟩ := outputs
  have none : more.filter isResponse = [] := by
    rw [List.filter_eq_nil_iff]
    intro out member
    rw [silent out member]
    exact Bool.false_ne_true
  rw [sent_append grows, none, List.append_nil]

theorem Bypasses.delayQueues (bypasses : Bypasses s s') : s'.delayQueues = s.delayQueues := by
  ext1
  · exact funext bypasses.states
  · exact funext bypasses.requests
  · exact sent_silent bypasses.outputs

theorem Enters.delayQueues {joins : Nat → List TcRequest} (enters : Enters joins s s') :
    s'.delayQueues = { s.delayQueues with waits := fun p => s.requests p ++ joins p } := by
  ext1
  · exact funext enters.states
  · exact funext enters.requests
  · exact sent_silent enters.outputs

/-- A response is one. -/
theorem responses_kind {resp : TcMessage} (response : msgType resp.data = some .delayResp)
    {free : Nat → Bool} {requests : List TcRequest} {ports : List Nat} :
    (resp.responses c free requests ports).filter isResponse =
      resp.responses c free requests ports := by
  rw [List.filter_eq_self]
  intro out member
  obtain ⟨p, _, found⟩ := List.mem_filterMap.mp member
  obtain ⟨request, _, rfl⟩ := Option.map_eq_some_iff.mp found
  simp [isResponse, TcMessage.responseTo, addCorrection_type, response]

/-- A message in the hands of a handler, under its number, before anything of it waits. -/
structure InHand (r : TcReception) (serial cell : Nat) (s : TcState) : Prop where
  message : s.message cell = r.message serial
  apart : ∀ p, ∀ txd ∈ (s.ports p).transmitted, txd.msg ≠ cell

theorem InHand.enter {serial : Nat} (inHand : InHand r serial cell s) (ratio : c.scaled = id)
    (smooth : r.oracle.Smooth) (request : msgType r.wire = some .delayReq) :
    (tcFwdEvent c r.oracle r.port cell s).delayQueues = s.delayQueues.enter c r serial := by
  have enters := enters_event (c := c) (q := r.port) smooth inHand.apart
    (by rw [inHand.message]; exact request)
  rw [enters.delayQueues]
  unfold DelayQueues.enter
  rw [DelayQueues.free_eq, inHand.message]
  unfold stampedAt TcReception.request residence
  rw [ratio]
  simp only [Bool.not_eq_true']
  rfl

theorem InHand.answer {serial : Nat} (inHand : InHand r serial cell s) (smooth : r.oracle.Smooth)
    (once : ((s.requests r.port).map TcRequest.serial).Nodup)
    (response : msgType r.wire = some .delayResp) :
    (tcFwdFolup c r.oracle r.port cell s).delayQueues = s.delayQueues.answer c r serial := by
  have noted : Bypasses s (s.withMessage cell (TcMessage.setHost r.oracle.now)) :=
    Bypasses.of_messages rfl rfl fun p txd member =>
      message_change_other (inHand.apart p txd member) _
  have here : (s.withMessage cell (TcMessage.setHost r.oracle.now)).message cell =
      (r.message serial).setHost r.oracle.now := by
    rw [message_change_same, inHand.message]
  obtain ⟨outputs, answers, elsewhere, states, _⟩ := @responds c r.oracle
    (s.withMessage cell (TcMessage.setHost r.oracle.now)) r.port cell smooth.completes
    (by rw [here]; exact response) (by rw [noted.requests]; exact once) c.ports (ports_distinct c)
  rw [here] at outputs answers
  rw [noted.requests] at outputs answers
  have kind : msgType ((r.message serial).setHost r.oracle.now).data = some .delayResp := response
  ext1
  · exact funext states
  · funext p
    unfold DelayQueues.answer
    rw [DelayQueues.free_eq]
    dsimp only
    by_cases same : p = r.port
    · subst same
      rw [if_pos rfl]
      exact answers
    · rw [if_neg same]
      exact (elsewhere p same).trans (noted.requests p)
  · refine (sent_append outputs).trans ?_
    rw [responses_kind kind]
    unfold DelayQueues.answer
    rw [DelayQueues.free_eq]
    rfl

/-- The handlers leave the requests alone, unless they are handed a Delay_Req or Delay_Resp. -/
theorem Bypasses.switch {serial : Nat} (inHand : InHand r serial cell s) (smooth : r.oracle.Smooth)
    (anew : r.again.Smooth) (queued : Queued c (fun _ => True) (fun _ => True) [cell] s)
    (other : c.endToEnd = true →
      msgType r.wire ≠ some .delayReq ∧ msgType r.wire ≠ some .delayResp) :
    Bypasses s (tcSwitch c r.oracle r.again r.port cell s) := by
  have typed : msgType (s.message cell).data = msgType r.wire := by rw [inHand.message]; rfl
  unfold tcSwitch
  split
  next kind => exact Bypasses.sync smooth anew queued kind
  next kind =>
    split
    next fixed => exact absurd (typed ▸ kind) (other fixed).1
    next => exact Bypasses.refl
  next kind => exact Bypasses.folup smooth kind
  next kind =>
    split
    next fixed => exact absurd (typed ▸ kind) (other fixed).2
    next => exact Bypasses.refl
  next kind => exact Bypasses.forward smooth (by decide) kind
  next kind => exact Bypasses.forward smooth (by decide) kind
  next kind => exact Bypasses.forward smooth (by decide) kind
  next => exact Bypasses.refl

theorem takesPart_iff : r.takesPart c = true ↔ c.endToEnd = true ∧
    r.wire PtpHeader.flagField &&& unicast = 0 ∧ tcDuplicates c.order r = true := by
  unfold TcReception.takesPart
  simp only [Bool.and_eq_true, decide_eq_true_eq, and_assoc]

/-- An end-to-end clock sends a Delay_Req on. -/
theorem InHand.requested {serial : Nat} (inHand : InHand r serial cell s)
    (takes : r.takesPart c = true) (request : msgType r.wire = some .delayReq) :
    tcHandle c r cell s = tcFwdEvent c r.oracle r.port cell s := by
  obtain ⟨fixed, alone, duplicates⟩ := takesPart_iff.mp takes
  have typed : msgType (s.message cell).data = some .delayReq := by
    rw [inHand.message]
    exact request
  unfold tcHandle tcSwitch
  rw [if_neg (not_not.mpr alone), if_pos duplicates, typed]
  exact if_pos fixed

/-- It completes with a Delay_Resp what waits for that. -/
theorem InHand.responded {serial : Nat} (inHand : InHand r serial cell s)
    (takes : r.takesPart c = true) (response : msgType r.wire = some .delayResp) :
    tcHandle c r cell s = tcFwdFolup c r.oracle r.port cell s := by
  obtain ⟨fixed, alone, duplicates⟩ := takesPart_iff.mp takes
  have typed : msgType (s.message cell).data = some .delayResp := by
    rw [inHand.message]
    exact response
  unfold tcHandle tcSwitch
  rw [if_neg (not_not.mpr alone), if_pos duplicates, typed]
  exact if_pos fixed

theorem InHand.handle {serial : Nat} (inHand : InHand r serial cell s) (ratio : c.scaled = id)
    (smooth : r.oracle.Smooth) (anew : r.again.Smooth)
    (queued : Queued c (fun _ => True) (fun _ => True) [cell] s)
    (once : ((s.requests r.port).map TcRequest.serial).Nodup) :
    (tcHandle c r cell s).delayQueues = s.delayQueues.receive c r serial := by
  unfold DelayQueues.receive
  by_cases takes : r.takesPart c = true
  · rw [if_pos takes]
    split
    next request =>
      rw [inHand.requested takes request]
      exact inHand.enter ratio smooth request
    next response =>
      rw [inHand.responded takes response]
      exact inHand.answer smooth once response
    next request response =>
      unfold tcHandle
      split
      · rfl
      · split
        · exact (Bypasses.switch inHand smooth anew queued fun _ => ⟨request, response⟩).delayQueues
        · rfl
  · rw [if_neg takes]
    unfold tcHandle
    split
    · rfl
    next alone =>
      split
      next duplicates =>
        refine (Bypasses.switch inHand smooth anew queued fun fixed => absurd ?_ takes).delayQueues
        exact takesPart_iff.mpr ⟨fixed, not_not.mp alone, duplicates⟩
      next => rfl

/-- A message in the pool, before anything is done with it. -/
def TcState.taking (s : TcState) (r : TcReception) : TcState :=
  { s with msgs := (s.msgs.allocate (r.message s.received)).2, received := s.received + 1 }

theorem inHand_taking (queued : Queued c (fun _ => True) (fun _ => True) [] s) :
    InHand r s.received (s.msgs.allocate (r.message s.received)).1 (s.taking r) := by
  refine ⟨message_take_new s _, fun p txd member same => ?_⟩
  exact queued.exact.fresh (r.message s.received) (same ▸ (queued.listed member).2)

/-- What a clock does with a message that comes in. -/
theorem receive_delays (queued : Queued c (fun _ => True) (fun _ => True) [] s)
    (ratio : c.scaled = id) (smooth : r.oracle.Smooth) (anew : r.again.Smooth)
    (once : ∀ p, ((s.requests p).map TcRequest.serial).Nodup) :
    (tcReceive c r s).delayQueues = s.delayQueues.receive c r s.received := by
  have taken := queued.take (r.message s.received)
  have there : Queued c (fun _ => True) (fun _ => True)
      [(s.msgs.allocate (r.message s.received)).1] (s.taking r) :=
    taken.frame rfl ⟨rfl, rfl⟩ (fun _ => rfl) rfl taken.outputs
  have bypasses : Bypasses s (s.taking r) :=
    Bypasses.of_messages rfl rfl fun p txd member =>
      queued.message_take (r.message s.received) (queued.listed member).2
  have handled := (inHand_taking queued).handle ratio smooth anew there
    (by rw [bypasses.requests]; exact once r.port)
  rw [bypasses.delayQueues] at handled
  rw [← handled]
  exact Bypasses.delayQueues (Bypasses.of_message rfl rfl rfl)

/-- A message goes out by every port that is free for it. -/
theorem sends_free (smooth : o.Smooth) {ports : List Nat} (inside : p ∈ ports)
    (free : tcBlocked c s q p (s.message cell).data = false) :
    TcOutput.send p (s.message cell).serial (s.message cell).held (s.message cell).data ∈
      (ports.foldl (tcSendTo c o q cell) s).outputs := by
  induction ports generalizing s with
  | nil => cases inside
  | cons first rest inductionHypothesis =>
    rw [List.foldl_cons]
    have states : ∀ r, ((tcSendTo c o q cell s first).ports r).state = (s.ports r).state := by
      intro r
      unfold tcSendTo
      split
      · rfl
      · dsimp only
        rw [if_pos (smooth.forwards first)]
        rfl
    rcases List.mem_cons.mp inside with rfl | later
    · refine outputs_foldl outputs_sendTo rest _ ?_
      unfold tcSendTo
      rw [if_neg (by rw [free]; exact Bool.false_ne_true)]
      dsimp only
      rw [if_pos (smooth.forwards p)]
      exact List.mem_append_right _ List.mem_cons_self
    · have sent := inductionHypothesis (s := tcSendTo c o q cell s first) later (by
        rw [message_sendTo, blocked_alike states]
        exact free)
      rw [message_sendTo] at sent
      exact sent

/-- A Delay_Req goes out by every port at which it waits. -/
theorem event_free (smooth : o.Smooth) (inside : p ∈ c.ports)
    (free : tcBlocked c s q p (s.message cell).data = false) :
    TcOutput.send p (s.message cell).serial (s.message cell).held (s.message cell).data ∈
      (tcFwdEvent c o q cell s).outputs := by
  have sent := @sends_free c o (s.withMessage cell (TcMessage.setHost o.now)) p q cell smooth
    c.ports inside (by
      rw [message_change_same]
      exact free)
  rw [message_change_same] at sent
  exact outputs_foldl (outputs_stampOf (s.message cell).hwts) c.ports _ sent

/-- The first descriptors of a queue leave it. -/
theorem dropAll_left {first rest : List TcTxd} (queue : (s.ports p).transmitted = first ++ rest) :
    ((first.foldl (tcDrop p) s).ports p).transmitted = rest ∧
      ∀ r, ((first.foldl (tcDrop p) s).ports r).state = (s.ports r).state := by
  induction first generalizing s with
  | nil => exact ⟨queue, fun _ => rfl⟩
  | cons txd more inductionHypothesis =>
    obtain ⟨left, states⟩ := inductionHypothesis (s := tcDrop p s txd) (by
      rw [transmitted_drop, queue, List.cons_append, List.erase_cons_head])
    exact ⟨left, fun r => (states r).trans (state_drop txd r)⟩

theorem dropAll_delays {first rest : List TcTxd} (queue : (s.ports p).transmitted = first ++ rest) :
    (first.foldl (tcDrop p) s).delayQueues = { s.delayQueues with
      waits := Function.update s.requests p ((rest.filter s.isRequest).map s.requestOf) } := by
  have left := dropAll_left queue
  obtain ⟨message, outputs, others⟩ := dropAll_frame (p := p) first s
  ext1
  · exact funext left.2
  · funext r
    change TcState.requests _ r = Function.update s.requests p _ r
    by_cases same : r = p
    · subst same
      rw [Function.update_self]
      unfold TcState.requests TcState.isRequest TcState.requestOf
      rw [message, left.1]
    · rw [Function.update_of_ne same]
      unfold TcState.requests TcState.isRequest TcState.requestOf
      rw [message, others r same]
  · exact congrArg (List.filter isResponse) outputs

/-- In a step without failures a clock does with the requests what is done with the lists. -/
theorem delays_step (queued : Queued c (fun _ => True) (fun _ => True) [] s)
    (ratio : c.scaled = id) (event : TcEvent) (smooth : TcSmooth event)
    (once : ∀ p, ((s.requests p).map TcRequest.serial).Nodup) :
    DelayStep c s.received (tcStep c s event).front s.delayQueues (tcStep c s event).delayQueues
      event := by
  cases event with
  | receive r => exact receive_delays queued ratio smooth.1 smooth.2 once
  | prune p now =>
    have queue := (List.takeWhile_append_dropWhile
      (p := fun txd => !tcCurrent s now txd) (l := (s.ports p).transmitted)).symm
    have front : ((tcStep c s (.prune p now)).ports p).transmitted =
      (s.ports p).transmitted.dropWhile fun txd => !tcCurrent s now txd := (dropAll_left queue).1
    refine ⟨(((s.ports p).transmitted.takeWhile fun txd => !tcCurrent s now txd).filter
      s.isRequest).map s.requestOf, _, ?_, ?_, ?_, ?_, dropAll_delays queue⟩
    · change s.requests p = _
      unfold TcState.requests
      conv_lhs => rw [queue]
      rw [List.filter_append, List.map_append]
    · intro request member
      obtain ⟨txd, listed, rfl⟩ := List.mem_map.mp member
      have old := List.mem_takeWhile_imp (List.mem_filter.mp listed).1
      unfold tcCurrent at old
      change 1000000000 ≤ now - (s.message txd.msg).host
      simpa using old
    · intro host there
      obtain ⟨txd, first, rfl⟩ := Option.map_eq_some_iff.mp there
      rw [front] at first
      have young := List.head?_dropWhile_not (fun txd => !tcCurrent s now txd)
        (s.ports p).transmitted
      rw [first] at young
      change now - ((tcPrune p now s).message txd.msg).host < 1000000000
      unfold tcPrune
      rw [(dropAll_frame _ s).1]
      simpa [tcCurrent] using young
    · intro none
      have nothing : ((tcStep c s (.prune p now)).ports p).transmitted = [] :=
        List.head?_eq_none_iff.mp (Option.map_eq_none_iff.mp none)
      rw [front] at nothing
      rw [nothing]
      rfl
  | flush p => exact dropAll_delays (List.append_nil _).symm
  | ports state peerDelay => rfl

/-- A request that waits was there before, or went out by the port at this step. -/
theorem waits_step (queued : Queued c (fun _ => True) (fun _ => True) [] s)
    (ratio : c.scaled = id) (event : TcEvent) (smooth : TcSmooth event)
    (once : ∀ p, ((s.requests p).map TcRequest.serial).Nodup) {request : TcRequest}
    (waits : request ∈ (tcStep c s event).requests p) : request ∈ s.requests p ∨
      ∃ held, .send p request.serial held request.data ∈ (tcStep c s event).outputs := by
  have step := delays_step queued ratio event smooth once
  change request ∈ (tcStep c s event).delayQueues.waits p at waits
  cases event with
  | receive r =>
    rw [step] at waits
    unfold DelayQueues.receive at waits
    split at waits
    next takes =>
      split at waits
      next kind =>
        rcases List.mem_append.mp waits with old | new
        · exact Or.inl old
        · split at new
          next enters =>
            obtain rfl := List.mem_singleton.mp new
            refine Or.inr ⟨r.cnt, ?_⟩
            have inHand := inHand_taking (r := r) queued
            have sent := @event_free c r.oracle (s.taking r) p r.port
              (s.msgs.allocate (r.message s.received)).1 smooth.1 enters.1 (by
                rw [inHand.message]
                have free := enters.2
                rw [DelayQueues.free_eq] at free
                exact Bool.not_eq_true' _ ▸ free)
            rw [inHand.message, ← inHand.requested takes kind] at sent
            exact sent
          next => cases new
      next =>
        change request ∈ if p = r.port then _ else _ at waits
        split at waits
        next same =>
          subst same
          exact Or.inl (List.mem_filter.mp waits).1
        next => exact Or.inl waits
      next => exact Or.inl waits
    next => exact Or.inl waits
  | prune q now =>
    obtain ⟨gone, kept, queue, _, _, _, same⟩ := step
    rw [same] at waits
    refine Or.inl ((update_sublist ?_ p).subset waits)
    change kept.Sublist (s.delayQueues.waits q)
    rw [queue]
    exact List.sublist_append_right gone kept
  | flush q =>
    rw [step] at waits
    exact Or.inl ((update_sublist (List.nil_sublist _) p).subset waits)
  | ports state peerDelay => exact Or.inl waits

end Steps

end LinuxPtp
