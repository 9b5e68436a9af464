import LinuxPtp.TcResponses

/-!
# Every response answers a request

As long as sending and time stamping succeed, every Delay_Resp that goes out answers a Delay_Req
that came in at that port, no request is answered twice, and none is passed over.

The lists carry numbers of receptions, so that a request is answered at most once even if an equal
one comes in later. Each answer that goes out is tied to the reception of its request and to its
residence.
-/

namespace LinuxPtp

open Octets RefPool Runs

/-- A Delay_Resp goes out by the port at which a Delay_Req to which it belongs came in, corrected by
the time that this took to the port at which the response came in. -/
def AnswerOf (c : TcClock) (known : List TcReception) : TcOutput → Prop
  | .complete p serial event held octets => ∃ resp req,
      known[serial]? = some resp ∧ msgType resp.wire = some .delayResp ∧
      known[event]? = some req ∧ msgType req.wire = some .delayReq ∧ req.port = p ∧
      load c.order PtpHeader.sequenceId req.wire = load c.order PtpHeader.sequenceId resp.wire ∧
      portIdentity PtpHeader.sourcePortIdentity req.wire =
        portIdentity DelayRespMsg.requestingPortIdentity resp.wire ∧
      held = resp.cnt ∧
      octets = addCorrection (timeInterval (residence c req resp.port)) resp.wire
  | _ => False

/-- The request that is answered by a response that came in at a port. -/
def answersAt (known : List TcReception) (q : Nat) : TcOutput → Option Nat
  | .complete _ serial event _ _ =>
    if known[serial]?.map TcReception.port = some q then some event else none
  | _ => none

/-- The lists hold Delay_Reqs that came in, what went out answers one of them, and at no port a
request is answered twice, or waits after it was answered. -/
structure Answering (c : TcClock) (known : List TcReception) (d : DelayQueues) : Prop where
  requests : ∀ p, ∀ request ∈ d.waits p, ∃ r, known[request.serial]? = some r ∧
    msgType r.wire = some .delayReq ∧ request = r.request c request.serial p
  answers : ∀ out ∈ d.sent, AnswerOf c known out
  once : ∀ q, (d.sent.filterMap (answersAt known q) ++ (d.waits q).map TcRequest.serial).Nodup

section Runs

variable {c : TcClock} {known : List TcReception} {d : DelayQueues} {r : TcReception} {p q : Nat}

theorem known_more {index : Nat} {found : TcReception} (here : known[index]? = some found) :
    (known ++ [r])[index]? = some found := by
  rw [List.getElem?_append_left (List.getElem?_eq_some_iff.mp here).1, here]

theorem answersAt_complete (known : List TcReception) (q p serial event held : Nat)
    (octets : Storage) : answersAt known q (.complete p serial event held octets) =
      if known[serial]?.map TcReception.port = some q then some event else none := rfl

theorem AnswerOf.more {out : TcOutput} (answer : AnswerOf c known out) :
    AnswerOf c (known ++ [r]) out := by
  cases out with
  | complete p serial event held octets =>
    obtain ⟨resp, req, first, response, second, rest⟩ := answer
    exact ⟨resp, req, known_more first, response, known_more second, rest⟩
  | send | fetch => exact answer

theorem AnswerOf.answersAt {out : TcOutput} (answer : AnswerOf c known out) :
    answersAt (known ++ [r]) q out = answersAt known q out := by
  cases out with
  | complete p serial event held octets =>
    obtain ⟨resp, req, first, _⟩ := answer
    rw [answersAt_complete, answersAt_complete, known_more first, first]
  | send | fetch => rfl

/-- Another message came in. -/
theorem Answering.more (answering : Answering c known d) : Answering c (known ++ [r]) d := by
  refine ⟨fun p request member => ?_, fun out member => (answering.answers out member).more,
    fun q => ?_⟩
  · obtain ⟨found, here, rest⟩ := answering.requests p request member
    exact ⟨found, known_more here, rest⟩
  · rw [List.filterMap_congr fun out member => (answering.answers out member).answersAt]
    exact answering.once q

/-- Requests leave the lists. -/
theorem Answering.fewer {d' : DelayQueues} (answering : Answering c known d)
    (waits : ∀ p, (d'.waits p).Sublist (d.waits p)) (sent : d'.sent = d.sent) :
    Answering c known d' := by
  refine ⟨fun p request member => answering.requests p request ((waits p).subset member), ?_,
    fun q => ?_⟩
  · rw [sent]
    exact answering.answers
  · rw [sent]
    exact (answering.once q).sublist ((List.Sublist.refl _).append ((waits q).map _))

theorem Answering.serial_lt (answering : Answering c known d) {request : TcRequest}
    (member : request ∈ d.waits p) : request.serial < known.length := by
  obtain ⟨_, here, _⟩ := answering.requests p request member
  exact (List.getElem?_eq_some_iff.mp here).1

theorem Answering.answered_lt (answering : Answering c known d) {event : Nat}
    (member : event ∈ d.sent.filterMap (answersAt known q)) : event < known.length := by
  obtain ⟨out, listed, found⟩ := List.mem_filterMap.mp member
  have answer := answering.answers out listed
  cases out with
  | complete p serial other held octets =>
    obtain ⟨resp, req, _, _, second, _⟩ := answer
    rw [answersAt_complete, Option.ite_none_right_eq_some] at found
    obtain rfl := Option.some.inj found.2
    exact (List.getElem?_eq_some_iff.mp second).1
  | send | fetch => cases answer

/-- A Delay_Req begins to wait. -/
theorem Answering.enter (answering : Answering c known d)
    (request : msgType r.wire = some .delayReq) :
    Answering c (known ++ [r]) (d.enter c r known.length) := by
  have more := answering.more (r := r)
  refine ⟨fun p waiting member => ?_, more.answers, fun q => ?_⟩
  · rcases List.mem_append.mp member with old | new
    · exact more.requests p waiting old
    · split at new
      · obtain rfl := List.mem_singleton.mp new
        exact ⟨r, List.getElem?_concat_length, request, rfl⟩
      · cases new
  · change (d.sent.filterMap _ ++ (d.waits q ++ _).map _).Nodup
    split
    · rw [List.map_append, ← List.append_assoc]
      refine List.nodup_append.mpr ⟨more.once q, List.nodup_singleton _, ?_⟩
      intro serial old other new
      rw [List.mem_singleton.mp new]
      rw [List.filterMap_congr fun out member => (answering.answers out member).answersAt] at old
      apply Nat.ne_of_lt
      rcases List.mem_append.mp old with answered | waits
      · exact answering.answered_lt answered
      · obtain ⟨waiting, member, rfl⟩ := List.mem_map.mp waits
        exact answering.serial_lt member
    · rw [List.append_nil]
      exact more.once q

/-- What goes out for a Delay_Resp, in the order of the requests that it answers. -/
theorem mem_responses {free : Nat → Bool} {requests : List TcRequest} {resp : TcMessage}
    {ports : List Nat} {out : TcOutput} :
    out ∈ resp.responses c free requests ports ↔ ∃ p ∈ ports, ∃ request,
      answerAt c free requests resp.data p = some request ∧ resp.responseTo p request = out := by
  unfold TcMessage.responses
  simp only [List.mem_filterMap, Option.map_eq_some_iff]

/-- No request is answered at two ports. -/
theorem answered_nodup {free : Nat → Bool} {requests : List TcRequest} {resp : Storage}
    (once : (requests.map TcRequest.serial).Nodup) {ports : List Nat} (distinct : ports.Nodup) :
    ((answered c free requests resp ports).map TcRequest.serial).Nodup := by
  induction ports with
  | nil => exact List.nodup_nil
  | cons p rest inductionHypothesis =>
    obtain ⟨absent, distinct⟩ := List.nodup_cons.mp distinct
    have later := inductionHypothesis distinct
    unfold answered at later ⊢
    rw [List.filterMap_cons]
    split
    · exact later
    next request found =>
      rw [List.map_cons, List.nodup_cons]
      refine ⟨fun again => ?_, later⟩
      obtain ⟨other, listed, same⟩ := List.mem_map.mp again
      obtain ⟨port, member, elsewhere⟩ := List.mem_filterMap.mp listed
      obtain ⟨here, _, answers⟩ := answerAt_some found
      obtain ⟨there, _, answersToo⟩ := answerAt_some elsewhere
      obtain rfl := serial_inj once there here same
      apply absent
      rw [← (answeredBy_iff.mp answers).1, (answeredBy_iff.mp answersToo).1]
      exact member

/-- The requests that are answered are those of the port at which the response came in. -/
theorem answersAt_responses {free : Nat → Bool} {requests : List TcRequest} {serial : Nat}
    (index : known[serial]? = some r) (ports : List Nat) :
    ((r.message serial).responses c free requests ports).filterMap (answersAt known q) =
      if r.port = q then (answered c free requests r.wire ports).map TcRequest.serial else [] := by
  have each : ∀ p request, answersAt known q ((r.message serial).responseTo p request) =
      if r.port = q then some request.serial else none := by
    intro p request
    unfold TcMessage.responseTo
    rw [answersAt_complete]
    change (if known[serial]?.map TcReception.port = some q then _ else _) = _
    simp only [index, Option.map_some, Option.some_inj]
  unfold TcMessage.responses answered
  rw [List.filterMap_filterMap]
  by_cases same : r.port = q
  · rw [if_pos same, List.map_filterMap]
    apply List.filterMap_congr
    intro p _
    change ((answerAt c free requests r.wire p).map _).bind _ = _
    cases answerAt c free requests r.wire p with
    | none => rfl
    | some request => exact (each p request).trans (if_pos same)
  · rw [if_neg same, List.filterMap_eq_nil_iff]
    intro p _
    change ((answerAt c free requests r.wire p).map _).bind _ = _
    cases answerAt c free requests r.wire p with
    | none => rfl
    | some request => exact (each p request).trans (if_neg same)

/-- A Delay_Resp answers requests. -/
theorem Answering.answer (answering : Answering c known d)
    (response : msgType r.wire = some .delayResp) :
    Answering c (known ++ [r]) (d.answer c r known.length) := by
  have more := answering.more (r := r)
  have index : (known ++ [r])[known.length]? = some r := List.getElem?_concat_length
  refine ⟨fun p waiting member => ?_, fun out member => ?_, fun q => ?_⟩
  · change waiting ∈ if p = r.port then _ else _ at member
    split at member
    next same =>
      subst same
      exact more.requests _ waiting (List.mem_filter.mp member).1
    next => exact more.requests p waiting member
  · rcases List.mem_append.mp member with old | new
    · exact more.answers out old
    · obtain ⟨p, _, request, found, rfl⟩ := mem_responses.mp new
      obtain ⟨waits, _, answers⟩ := answerAt_some found
      obtain ⟨port, sequence, source⟩ := answeredBy_iff.mp answers
      obtain ⟨req, here, kind, same⟩ := more.requests r.port request waits
      rw [same] at port sequence source
      refine ⟨r, req, index, response, here, kind, port, sequence, source, rfl, ?_⟩
      rw [same]
      rfl
  · change ((d.sent ++ _).filterMap _ ++ (if q = r.port then _ else _ : List TcRequest).map _).Nodup
    rw [List.filterMap_append, answersAt_responses index]
    by_cases same : q = r.port
    · subst same
      rw [if_pos rfl, if_pos rfl]
      obtain ⟨before, waits, apart⟩ := List.nodup_append.mp (more.once r.port)
      have gone : ((answered c (d.free c r.port r.wire) (d.waits r.port) r.wire c.ports).map
          TcRequest.serial).Nodup := answered_nodup waits (ports_distinct c)
      have listed : ∀ serial ∈ (answered c (d.free c r.port r.wire) (d.waits r.port) r.wire
          c.ports).map TcRequest.serial, serial ∈ (d.waits r.port).map TcRequest.serial := by
        intro serial member
        obtain ⟨request, found, rfl⟩ := List.mem_map.mp member
        obtain ⟨_, _, found⟩ := List.mem_filterMap.mp found
        exact List.mem_map_of_mem (answerAt_some found).1
      have left : ((withoutRequests (answered c (d.free c r.port r.wire) (d.waits r.port) r.wire
          c.ports) (d.waits r.port)).map TcRequest.serial).Sublist
            ((d.waits r.port).map TcRequest.serial) := List.filter_sublist.map _
      refine List.nodup_append.mpr
        ⟨List.nodup_append.mpr ⟨before, gone, ?_⟩, waits.sublist left, ?_⟩
      · exact fun serial old other new => apart serial old other (listed other new)
      · intro serial old other rest
        rcases List.mem_append.mp old with old | new
        · exact apart serial old other (left.subset rest)
        · rintro rfl
          obtain ⟨request, member, rfl⟩ := List.mem_map.mp rest
          exact absurd new (of_decide_eq_true (List.mem_filter.mp member).2)
    · rw [if_neg (Ne.symm same), if_neg same, List.append_nil]
      exact more.once q

/-- A step of the lists keeps what holds of them. -/
theorem Answering.step (answering : Answering c known d) {d' : DelayQueues} {event : TcEvent}
    {front : Nat → Option Int} (step : DelayStep c known.length front d d' event) :
    Answering c (known ++ receptions [event]) d' := by
  cases event with
  | receive r =>
    obtain rfl := step
    unfold DelayQueues.receive
    split
    · split
      next request => exact answering.enter request
      next response => exact answering.answer response
      next => exact answering.more
    · exact answering.more
  | prune p now =>
    obtain ⟨gone, kept, queue, _, _, _, rfl⟩ := step
    refine (List.append_nil known).symm ▸ answering.fewer (update_sublist ?_) rfl
    rw [queue]
    exact List.sublist_append_right gone kept
  | flush p =>
    obtain rfl := step
    exact (List.append_nil known).symm ▸ answering.fewer (update_sublist (List.nil_sublist _)) rfl
  | ports state peerDelay =>
    obtain rfl := step
    exact (List.append_nil known).symm ▸ answering.fewer (fun _ => List.Sublist.refl _) rfl

/-- A Delay_Resp goes out by just the ports by which it may and at which a matching request came
in that still waits. -/
theorem Answering.forwards (answering : Answering c known d) (inside : p ∈ c.ports) :
    (∃ event held octets, .complete p known.length event held octets ∈
        (d.answer c r known.length).sent) ↔
      d.free c r.port r.wire p = true ∧
        ∃ request ∈ d.waits r.port, request.answeredBy c p r.wire = true := by
  constructor
  · rintro ⟨event, held, octets, member⟩
    rcases List.mem_append.mp member with old | new
    · obtain ⟨_, _, first, _⟩ := answering.answers _ old
      exact absurd (List.getElem?_eq_some_iff.mp first).1 (Nat.lt_irrefl _)
    · obtain ⟨port, _, request, found, same⟩ := mem_responses.mp new
      injection same with same
      subst same
      obtain ⟨waits, free, answers⟩ := answerAt_some found
      exact ⟨free, request, waits, answers⟩
  · rintro ⟨free, request, waits, answers⟩
    obtain ⟨first, found⟩ := Option.isSome_iff_exists.mp
      (List.find?_isSome.mpr ⟨request, waits, answers⟩)
    refine ⟨first.serial, r.cnt, _, List.mem_append_right _ (mem_responses.mpr
      ⟨p, inside, first, ?_, rfl⟩)⟩
    exact (if_pos free).trans found

/-- The last step of a run without failures. -/
theorem run_step (ratio : c.scaled = id) (events : List TcEvent) (event : TcEvent)
    (smooth : ∀ event ∈ events, TcSmooth event) (last : TcSmooth event)
    (answering : Answering c (receptions events) (tcRun c TcState.start events).delayQueues) :
    DelayStep c (receptions events).length (tcStep c (tcRun c TcState.start events) event).front
      (tcRun c TcState.start events).delayQueues
      (tcStep c (tcRun c TcState.start events) event).delayQueues event := by
  obtain ⟨_, _, _, ledger⟩ := ledger_run ratio events smooth
  rw [← ledger.counted]
  refine delays_step (queued_run smooth) ratio event last fun p => ?_
  exact (List.nodup_append.mp (answering.once p)).2.1

/-- At every moment of a run without failures. -/
theorem answering_run (ratio : c.scaled = id) (events : List TcEvent)
    (smooth : ∀ event ∈ events, TcSmooth event) :
    Answering c (receptions events) (tcRun c TcState.start events).delayQueues := by
  induction events using List.reverseRecOn with
  | nil =>
    refine ⟨fun p request member => ?_, fun out member => ?_, fun q => List.nodup_nil⟩
    · cases member
    · cases member
  | append_singleton events event inductionHypothesis =>
    have before := fun event member => smooth event (List.mem_append_left _ member)
    have last := smooth event (List.mem_append_right _ List.mem_cons_self)
    have answering := inductionHypothesis before
    rw [tcRun, List.foldl_append, receptions_append]
    exact answering.step (run_step ratio events event before last answering)

/-- A request that waits at a port went out by it. -/
theorem waits_run (ratio : c.scaled = id) (events : List TcEvent)
    (smooth : ∀ event ∈ events, TcSmooth event) {request : TcRequest}
    (waits : request ∈ (tcRun c TcState.start events).requests p) :
    ∃ held, .send p request.serial held request.data ∈ (tcRun c TcState.start events).outputs := by
  induction events using List.reverseRecOn with
  | nil => cases waits
  | append_singleton events event inductionHypothesis =>
    have before := fun event member => smooth event (List.mem_append_left _ member)
    have last := smooth event (List.mem_append_right _ List.mem_cons_self)
    obtain ⟨_, _, _, ledger⟩ := ledger_run ratio events before
    obtain ⟨_, _, _, _, more, grows, _⟩ := settled_step ledger (queued_run before) ratio event last
    rw [tcRun, List.foldl_append] at waits ⊢
    rcases waits_step (queued_run before) ratio event last
        (fun q => (List.nodup_append.mp ((answering_run ratio events before).once q)).2.1)
        waits with old | new
    · obtain ⟨held, sent⟩ := inductionHypothesis before old
      refine ⟨held, ?_⟩
      change _ ∈ (tcStep c (tcRun c TcState.start events) event).outputs
      rw [grows]
      exact List.mem_append_left more sent
    · exact new

/-- In a run without failures the requests that wait are those of lists on which an event acts as
`DelayStep` says, and each went out by the port at which it waits; the Delay_Resps that went out
answer requests that came in, no request twice; and the next one goes out by just the ports by which
it may and at which a request for it came in. -/
structure ResponsesMatched (c : TcClock) (events : List TcEvent) (event : TcEvent) : Prop where
  step : DelayStep c (receptions events).length (tcRun c TcState.start (events ++ [event])).front
    (tcRun c TcState.start events).delayQueues
    (tcRun c TcState.start (events ++ [event])).delayQueues event
  answering : Answering c (receptions (events ++ [event]))
    (tcRun c TcState.start (events ++ [event])).delayQueues
  went : ∀ p, ∀ request ∈ (tcRun c TcState.start events).requests p, ∃ held,
    .send p request.serial held request.data ∈ (tcRun c TcState.start events).outputs
  forwards : ∀ r, event = .receive r → r.takesPart c = true → msgType r.wire = some .delayResp →
    ∀ p ∈ c.ports, (∃ answers held octets, msgType octets = some .delayResp ∧
        .complete p (receptions events).length answers held octets ∈
          (tcRun c TcState.start (events ++ [event])).outputs) ↔
      tcBlocked c (tcRun c TcState.start events) r.port p r.wire = false ∧
        ∃ request ∈ (tcRun c TcState.start events).requests r.port,
          request.answeredBy c p r.wire = true

/-- What is said of one more event is `ResponsesMatched`: how the lists change, which responses go
out and with which corrections, and that no request is answered twice at a port.

Proof: the queues of the code hold the lists among other messages, and each event makes the same
step on both. A request that was taken off a list is never put on it again, as every reception has a
number of its own. -/
theorem responses_matched (c : TcClock) (ratio : c.scaled = id) (events : List TcEvent)
    (event : TcEvent) (smooth : ∀ event ∈ events, TcSmooth event) (last : TcSmooth event) :
    ResponsesMatched c events event := by
  have next : tcRun c TcState.start (events ++ [event]) =
      tcStep c (tcRun c TcState.start events) event := by
    rw [tcRun, tcRun, List.foldl_append]
    rfl
  have answering := answering_run ratio events smooth
  have step := run_step ratio events event smooth last answering
  rw [← next] at step
  refine ⟨step, ?_, fun p request waits => waits_run ratio events smooth waits, ?_⟩
  · rw [receptions_append]
    exact answering.step step
  · rintro r rfl takes response p inside
    have forwards := answering.forwards (r := r) inside
    have answers : (tcRun c TcState.start (events ++ [.receive r])).delayQueues =
        (tcRun c TcState.start events).delayQueues.answer c r (receptions events).length := by
      refine Eq.trans step ?_
      unfold DelayQueues.receive
      rw [if_pos takes, response]
    rw [← answers, DelayQueues.free_eq, Bool.not_eq_true'] at forwards
    refine Iff.trans ?_ forwards
    have kept : ∀ out, out ∈ (tcRun c TcState.start (events ++ [.receive r])).delayQueues.sent ↔
        out ∈ (tcRun c TcState.start (events ++ [.receive r])).outputs ∧ isResponse out = true :=
      fun out => List.mem_filter
    simp only [kept, isResponse, decide_eq_true_eq, and_comm]

/-- A Delay_Req that comes in by the first port. -/
def delayReqAt : TcReception :=
  { syncAt 0 with wire := bufferOf ([1, 2, 0, 44] ++ List.replicate 40 0) }

/-- A Delay_Resp for it that comes in by the second one. -/
def delayRespAt : TcReception :=
  { syncAt 0 with port := 2, wire := bufferOf ([9, 2, 0, 54] ++ List.replicate 50 0), cnt := 54,
                  fits := by decide }

example : (tcRun (twoPorts .little) TcState.start
    [.receive delayReqAt, .receive delayRespAt]).outputs.any isResponse = true := by decide +kernel

theorem responses_matched_pair : ResponsesMatched (twoPorts .little) [.receive delayReqAt]
    (.receive delayRespAt) := by
  have smooth : (smooth 9).Smooth := ⟨fun _ => rfl, fun _ => rfl, fun _ => ⟨9, rfl, by decide⟩⟩
  refine responses_matched _ rfl _ _ (fun event member => ?_) ⟨smooth, smooth⟩
  rw [List.mem_singleton.mp member]
  exact ⟨smooth, smooth⟩

end Runs

end LinuxPtp
