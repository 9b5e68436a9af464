import LinuxPtp.SyncEffects

/-!
# The effects of the other handlers

Every handler of a port as a sequence of effects, up to the handling of a descriptor.

There is one lemma for each handler of the source, in the order in which the handlers call each
other, and it is proved from those of the functions that it calls. A message that is being handled
is in the hands of the handler: that a hand holds it is what lets it be kept or given back. The
lemmas at the end are about a whole descriptor, and are the only ones that other modules use.
-/

namespace LinuxPtp

open RefPool

section Handlers

variable {c : Clock} {a : Answers} {g : Guards} {s : ClockState}

/-! ## The delay request mechanism -/

/-- Each request that is too old is taken off by an effect of its own. -/
theorem delayReqPrune_works (p : Nat) : Works c a g s (delayReqPrune a p s) := by
  unfold delayReqPrune
  apply dropDelayReqs_works
  have front : ((s.ports p).delayReq.reverse.takeWhile
      fun m => !delayReqCurrent m.msg a.now).Sublist (s.ports p).delayReq.reverse :=
    List.takeWhile_sublist _
  exact front.subperm.trans (List.reverse_perm _).subperm

/-- The slot of a peer delay message that was put is empty. -/
theorem dropPeerDelay_none (slot : PeerSlot) (p : Nat) :
    ((dropPeerDelay slot p s).ports p).peerDelay slot = none := by
  unfold dropPeerDelay
  split
  next nothing => exact nothing
  next => simp [withPort_same]

/-- What building and sending a request comes to: the message with its time stamp is in hand,
unless that failed. -/
structure Requested (c : Clock) (a : Answers) (g : Guards) (s : ClockState)
    (result : Option Stored × ClockState) : Prop where
  effects : Effects c a g s result.2
  ports : result.2.ports = s.ports
  failed : result.1 = none → result.2.hands = s.hands
  sent : ∀ m, result.1 = some m → result.2.hands = m.cell :: s.hands

/-- A request is sent with the message that was just taken: the port keeps it if it went out, and
gives it back if not. Here the hands must hold that one message more than before. -/
theorem sendRequest_requested (p : Nat) {m : Stored} (began : ClockState)
    (effects : Effects c a g began s) (ports : s.ports = began.ports)
    (hands : s.hands = m.cell :: began.hands) :
    Requested c a g began (sendRequest a p m s) := by
  have held : m.cell ∈ s.ask.hands := by
    change m.cell ∈ s.hands
    rw [hands]
    exact List.mem_cons_self
  unfold sendRequest
  split
  · constructor
    · exact (effects.trans Works.ask.effects).tail (.release s.ask m.cell held)
    · exact ports
    · intro _
      change s.hands.erase m.cell = began.hands
      rw [hands, List.erase_cons_head]
    · intro _ impossible
      cases impossible
  · constructor
    · exact (effects.trans Works.ask.effects).tail (.amend s.ask m.cell _)
    · exact ports
    · intro impossible
      cases impossible
    · intro sent same
      rw [← Option.some.inj same]
      exact hands

/-- The request before is given up, a new one is obtained and sent. That the port measures peers is
what lets it keep one. -/
theorem portPdelayRequest_works (p : Nat) (peers : (s.ports p).delayMechanism = .p2p) :
    Works c a g s (portPdelayRequest c a p s).2 := by
  have began : Works c a g s (s.withRunning p fun running =>
      { running with
        multipleSeqPdrCount := if running.multiplePdrDetected then running.multipleSeqPdrCount else 0
        multiplePdrDetected := false
        delayreqSeqnum := running.delayreqSeqnum + 1 }) := Works.running p _
  have mechanism : ((s.withRunning p fun running =>
      { running with
        multipleSeqPdrCount := if running.multiplePdrDetected then running.multipleSeqPdrCount else 0
        multiplePdrDetected := false
        delayreqSeqnum := running.delayreqSeqnum + 1 }).ports p).delayMechanism = .p2p := by
    rw [withRunning_same]
    exact peers
  unfold portPdelayRequest
  dsimp only
  generalize s.withRunning p _ = t at began mechanism ⊢
  apply began.trans
  generalize { c.newMessage p .pdelayReq with
    correction := -(c.setup p).asymmetry
    sequenceId := (t.ports p).running.delayreqSeqnum - 1 } = msg
  have requested := sendRequest_requested (a := a) p (m := (t.obtain msg).1) t
    (Effect.effects (Effect.obtain (c := c) (a := a) (g := g) t msg)) rfl rfl
  generalize sendRequest a p (t.obtain msg).1 (t.obtain msg).2 = result at requested ⊢
  obtain ⟨outcome, u⟩ := result
  obtain ⟨effects, ports, failed, sent⟩ := requested
  cases outcome with
  | none => exact ⟨effects, failed rfl⟩
  | some m =>
    have hands := sent m rfl
    have dropped : Works c a g u (dropPeerDelay .req p u) := dropPeerDelay_works .req
    have mine : (dropPeerDelay .req p u).hands = m.cell :: t.hands := dropped.hands.trans hands
    have kept : Effect c a g (dropPeerDelay .req p u)
        (keepPeerDelay .req p m ((dropPeerDelay .req p u).handOver m.cell)) := by
      apply Effect.handPeerDelay
      · rw [mine]
        exact List.mem_cons_self
      · exact dropPeerDelay_none .req p
      · rw [(settles_dropPeerDelay (c := c) .req).delayMechanism]
        dsimp only at ports
        rw [ports]
        exact mechanism
    constructor
    · exact (effects.trans dropped.effects).tail kept
    · change (dropPeerDelay .req p u).hands.erase m.cell = t.hands
      rw [mine, List.erase_cons_head]

/-- The first message of the best record is read, which the goal has to allow at this port; the
record must be the one from the beginning. -/
theorem takeFirst_works {p : Nat} (takes : g.takes p)
    (same : (s.ports p).bestForeign = (g.before.ports p).bestForeign) :
    Works c a g s (takeFirst p s) := Works.of_effect (.take s p takes same) rfl

/-- A slot of the peer delay has nothing to do with the records. -/
theorem dropPeerDelay_bestForeign (slot : PeerSlot) (p : Nat) :
    ((dropPeerDelay slot p s).ports p).bestForeign = (s.ports p).bestForeign := by
  unfold dropPeerDelay
  split
  · rfl
  · rw [withPort_same]
    rfl

/-- A delay request that was sent is kept. -/
theorem keepDelayReq_works (p : Nat) {msg : PtpMessage} {t : ClockState}
    (work : Works c a g (s.obtain msg).2 t) (ports : t.ports = s.ports) :
    Works c a g s (match sendRequest a p (s.obtain msg).1 t with
      | (none, s) => (true, s)
      | (some m, s) => (false, (s.handOver m.cell).withPort p fun port =>
          { port with delayReq := m :: port.delayReq })).2 := by
  have requested := sendRequest_requested (a := a) p (m := (s.obtain msg).1) s
    ((Effect.effects (.obtain s msg)).trans work.effects) ports work.hands
  generalize sendRequest a p (s.obtain msg).1 t = result at requested ⊢
  obtain ⟨outcome, u⟩ := result
  obtain ⟨effects, ports, failed, sent⟩ := requested
  cases outcome with
  | none => exact ⟨effects, failed rfl⟩
  | some m =>
    have hands : u.hands = m.cell :: s.hands := sent m rfl
    have held : m.cell ∈ u.hands := by
      rw [hands]
      exact List.mem_cons_self
    constructor
    · exact effects.tail (.keepDelayReq u p m held)
    · change u.hands.erase m.cell = s.hands
      rw [hands, List.erase_cons_head]

/-- A Delay_Req, or a Pdelay_Req at a port that measures peers. Only the hybrid mechanism reads a
record, to send the request to that master alone. -/
theorem portDelayRequest_works {p : Nat}
    (takes : (c.setup p).hybridE2e → (s.ports p).delayMechanism ≠ .p2p → g.takes p)
    (same : (s.ports p).bestForeign = (g.before.ports p).bestForeign) :
    Works c a g s (portDelayRequest c a p s).2 := by
  have dropped : Works c a g s (dropPeerDelay .fup p (dropPeerDelay .resp p s)) :=
    (dropPeerDelay_works .resp).trans (dropPeerDelay_works .fup)
  have still : ((dropPeerDelay .fup p (dropPeerDelay .resp p s)).ports p).bestForeign =
      (g.before.ports p).bestForeign := by
    rw [dropPeerDelay_bestForeign, dropPeerDelay_bestForeign]
    exact same
  have mechanism : ((dropPeerDelay .fup p (dropPeerDelay .resp p s)).ports p).delayMechanism =
      (s.ports p).delayMechanism :=
    ((settles_dropPeerDelay (c := c) .resp).trans (settles_dropPeerDelay .fup)).delayMechanism
  unfold portDelayRequest
  dsimp only
  generalize dropPeerDelay .fup p (dropPeerDelay .resp p s) = t at dropped still mechanism ⊢
  apply dropped.trans
  split
  next peers => exact portPdelayRequest_works p peers
  next ends =>
    rw [mechanism] at ends
    have began : Works c a g t (t.withRunning p fun running =>
        { running with delayreqSeqnum := running.delayreqSeqnum + 1 }) := Works.running p _
    have again : ((t.withRunning p fun running =>
        { running with delayreqSeqnum := running.delayreqSeqnum + 1 }).ports p).bestForeign =
          (g.before.ports p).bestForeign := by
      rw [withRunning_same]
      exact still
    generalize t.withRunning p _ = u at began again ⊢
    apply began.trans
    apply keepDelayReq_works
    · split
      next hybrid => exact takeFirst_works (takes hybrid ends) again
      next => exact Works.refl _
    · split <;> rfl

/-- The status names the master of the best port, so its record is read; the conditions are those
under which the code does so. -/
theorem netSyncRespAppend_works
    (takes : ∀ best, s.best = some best → (s.ports best.port).best.isSome →
      s.parent.parentPortIdentity.clockIdentity ≠ c.clockIdentity → g.takes best.port)
    (same : ∀ q, (s.ports q).bestForeign = (g.before.ports q).bestForeign) :
    Works c a g s (netSyncRespAppend c s) := by
  unfold netSyncRespAppend
  split
  next => exact Works.refl s
  next best selected =>
    split
    next => exact Works.refl s
    next remote =>
      split
      next => exact Works.refl s
      next there =>
        have known : (s.ports best.port).best.isSome := by
          rw [Option.isSome_iff_ne_none]
          simpa using there
        exact takeFirst_works (takes best selected known remote) (same best.port)

/-- A Sync for a network monitor is built, sent and given back. -/
theorem monitorSync_works (p : Nat) (m : PtpMessage) :
    Works c a g s (monitorSync c a p m s).2 := by
  unfold monitorSync
  dsimp only
  apply (Works.running p _).trans
  exact (portTxSync_works p).trans (Works.running p _)

/-- A Delay_Req that was received is answered, and the answer given back. If a network monitor asks,
the status of the best port is appended, for which no port may have changed its record. -/
theorem processDelayReq_works (allows : Allows c a g) (fixed : ¬c.relays) {m : Stored}
    (received : g.delivers m.msg) (type : m.msg.type = .delayReq)
    (everywhere : ∀ q, Meets g.before s q) :
    Works c a g s (processDelayReq c a g.here m s).2 := by
  unfold processDelayReq
  dsimp only
  split
  next => exact Works.refl s
  next =>
    split
    next => exact Works.refl s
    next ends =>
      have answered : Works c a g (s.obtain (c.newMessage g.here .delayResp)).2
          (if portNsmReply c g.here m.msg then
            netSyncRespAppend c (s.obtain (c.newMessage g.here .delayResp)).2
          else (s.obtain (c.newMessage g.here .delayResp)).2) := by
        split
        next nsm =>
          apply netSyncRespAppend_works
          · intro best selected there remote
            have mechanism : (g.before.ports g.here).delayMechanism ≠ .p2p := by
              rw [← (everywhere g.here).port]
              exact ends
            obtain ⟨_, _, _, _, _, same⟩ := (everywhere g.here).clock
            apply allows.monitor fixed m.msg received type nsm best _ _ _ mechanism
            · rw [same] at selected
              exact selected
            · rw [← (everywhere best.port).port]
              exact there
            · rw [same] at remote
              exact remote
          · exact fun q => (everywhere q).bestForeign
        next => exact Works.refl _
      generalize (if portNsmReply c g.here m.msg then _ else _) = t at answered ⊢
      split
      · exact Works.hand _ answered
      · apply Works.hand
        apply (answered.trans (transmit_works g.here)).trans
        split
        · exact monitorSync_works g.here m.msg
        · exact Works.refl _

/-- An interval that a master grants changes a timer. -/
theorem takeDelayInterval_works (p : Nat) (m : PtpMessage) :
    Works c a g s (takeDelayInterval p m s) := by
  unfold takeDelayInterval
  dsimp only
  split
  · exact Works.refl s
  split
  · exact Works.refl s
  split
  · exact Works.refl s
  · exact (Works.running p _).trans (Works.setTmo p _)

/-- What `clock_path_delay` changes. -/
theorem timed_clockPathDelay (p : Nat) (req rx : Int) (source : PortIdentity) :
    Timed s (clockPathDelay p req rx source s) := by
  unfold clockPathDelay
  dsimp only
  split
  · exact ⟨_, _, _, _, _, rfl⟩
  · exact ⟨_, _, _, _, _, rfl⟩

/-- A request that is kept is taken off the list, which is one effect. -/
theorem dropDelayReq_works {p : Nat} {m : Stored} (there : m ∈ (s.ports p).delayReq) :
    Works c a g s (dropDelayReq p m s) := Works.of_effect (.dropDelayReq s p m there) rfl

/-- An answer uses up the request it is for: the request is found in the list and taken off. -/
theorem processDelayResp_works (m : Stored) :
    Works c a g s (processDelayResp c g.here m s) := by
  unfold processDelayResp
  split
  next => exact Works.refl s
  next tracks =>
    have follows : (s.ports g.here).state.tracks = true := by simpa using tracks
    split
    next => exact Works.refl s
    next =>
      split
      next => exact Works.refl s
      next parent =>
        split
        next => exact Works.refl s
        next req found =>
          obtain ⟨_, _, _, _, _, timed⟩ := timed_clockPathDelay (s := s) g.here req.msg.hwts
            (m.msg.pdu - correctionToTmv m.msg.correction) m.msg.sourcePortIdentity
          have measured : Works c a g s (clockPathDelay g.here req.msg.hwts
              (m.msg.pdu - correctionToTmv m.msg.correction) m.msg.sourcePortIdentity s) := by
            apply Works.of_effect
            · exact .pathDelay s _ _ _ follows (not_not.mp parent).symm
            · rw [timed]
          apply measured.trans
          have there : req ∈ ((clockPathDelay g.here req.msg.hwts
              (m.msg.pdu - correctionToTmv m.msg.correction) m.msg.sourcePortIdentity
              s).ports g.here).delayReq := by
            rw [timed]
            exact List.mem_of_find?_eq_some found
          exact (dropDelayReq_works there).trans (takeDelayInterval_works g.here m.msg)

/-! ## The peer delay mechanism -/

/-- The identity of a peer is kept, the message is not. -/
theorem meetPeer_works (p : Nat) (peer : PortIdentity) :
    Works c a g s (meetPeer a p peer s) := by
  unfold meetPeer
  split
  · exact Works.running p _
  · split
    · exact Works.refl s
    · exact (Works.running p _).trans Works.ask

/-- Another peer than before: what is known of the link is reset. -/
theorem detectPeer_works (p : Nat) : Works c a g s (detectPeer p s) := by
  unfold detectPeer
  split
  next auto => exact (Works.of_effect (.detectPeer s p auto) rfl).trans (Works.setTmo p _)
  next => exact Works.refl s

/-- A Pdelay_Req is answered from two messages that are obtained, sent and given back. -/
theorem processPdelayReq_works (p : Nat) (m : Stored) :
    Works c a g s (processPdelayReq c a p m s).2 := by
  unfold processPdelayReq
  dsimp only
  split
  · exact Works.refl s
  · apply ((detectPeer_works p).trans (meetPeer_works p _)).trans
    apply Works.hand_two
    apply (transmit_works p).trans
    split
    · exact Works.refl _
    split
    · exact Works.refl _
    · exact transmit_works p

/-- A delay is computed, for which the request must have been kept. -/
theorem peerDelayCalc_works {req rsp : PtpMessage} {t2 : Int}
    (measured : ((s.ports g.here).peerDelay .req).isSome) :
    Works c a g s (peerDelayCalc g.here req rsp t2 s) := by
  unfold peerDelayCalc
  split
  next => exact Works.refl s
  next =>
    dsimp only
    split
    next follows =>
      have calculated : Works c a g s (clockPeerDelay req.hwts t2 rsp.sourcePortIdentity s) :=
        Works.of_effect (.peerDelay s _ _ _ follows measured) rfl
      exact calculated.trans (dropPeerDelay_works .req)
    next => exact dropPeerDelay_works .req

/-- The slots of the peer delay are used if all that is needed is there, and are left as they are
otherwise. -/
theorem portPeerDelay_works : Works c a g s (portPeerDelay c g.here s) := by
  unfold portPeerDelay
  split
  next req rsp asked answered =>
    have measured : ((s.ports g.here).peerDelay .req).isSome := by
      rw [asked]
      rfl
    split
    · exact Works.refl s
    split
    · exact Works.refl s
    split
    · exact peerDelayCalc_works measured
    split
    · exact Works.refl s
    · split
      · exact Works.refl s
      split
      · exact Works.refl s
      split
      · exact Works.refl s
      · exact peerDelayCalc_works measured
  next => exact Works.refl s

/-- Answers from a second peer are counted. -/
theorem countPeers_works (p : Nat) (m : PtpMessage) : Works c a g s (countPeers p m s) := by
  unfold countPeers
  split
  · exact Works.refl s
  · split
    · exact Works.refl s
    split
    · exact Works.refl s
    · exact Works.running p _

/-- An answer takes the place of the one before. -/
theorem replacePeerDelay_works {slot : PeerSlot} {p : Nat} {m : Stored} (held : m.cell ∈ s.hands)
    (kind : slot ≠ .req) :
    Works c a g s (keepPeerDelay slot p m ((dropPeerDelay slot p s).get m.cell)) := by
  have dropped : Works c a g s (dropPeerDelay slot p s) := dropPeerDelay_works slot
  apply dropped.trans
  apply Works.of_effect
  · apply Effect.keepPeerDelay
    · rw [dropped.hands]
      exact held
    · exact dropPeerDelay_none slot p
    · exact kind
  · rfl

/-- An answer of a peer is kept in its slot, from the hand; what was there is given back. -/
theorem processPdelayResp_works {m : Stored} (held : m.cell ∈ s.hands) :
    Works c a g s (processPdelayResp c a g.here m s).2 := by
  have counted : Works c a g s (countPeers g.here m.msg s) := countPeers_works g.here m.msg
  unfold processPdelayResp
  dsimp only
  apply counted.trans
  generalize countPeers g.here m.msg s = t at counted ⊢
  split
  · exact withFaultType_works .badPeerNetwork
  split
  · exact Works.refl t
  · have met : Works c a g t (meetPeer a g.here m.msg.sourcePortIdentity t) := meetPeer_works _ _
    apply met.trans
    apply (replacePeerDelay_works _ (show PeerSlot.resp ≠ .req by simp)).trans
    · exact portPeerDelay_works
    · rw [met.hands, counted.hands]
      exact held

/-- A Follow_Up of a peer is kept in its slot, and the delay computed. -/
theorem processPdelayRespFup_works {m : Stored} (held : m.cell ∈ s.hands) :
    Works c a g s (processPdelayRespFup c g.here m s) := by
  unfold processPdelayRespFup
  split
  · exact Works.refl s
  · exact (replacePeerDelay_works held (by simp)).trans portPeerDelay_works

/-! ## Reception -/

/-- What a record keeps is another reference; the hand keeps its own. -/
theorem addForeignMaster_hands (p : Nat) (m : Stored) :
    (addForeignMaster a p m s).2.hands = s.hands := by
  unfold addForeignMaster
  split
  · rfl
  next fc _ =>
    obtain ⟨msgs, same⟩ := fcPrune_state (a.pruned fc.id) fc s
    change (fcPrune (a.pruned fc.id) fc s).2.hands = s.hands
    rw [same]

/-- The same when the announce is from the best master of the port. -/
theorem updateCurrentMaster_hands (p : Nat) (m : Stored) :
    (updateCurrentMaster c a p m s).2.hands = s.hands := by
  unfold updateCurrentMaster
  split
  · rfl
  next fc _ =>
    split
    · exact addForeignMaster_hands p m
    · dsimp only
      generalize began : setTmo p .announceTimer _ = t
      have hands : t.hands = s.hands := by
        rw [← began]
        split <;> split <;> rfl
      obtain ⟨msgs, same⟩ := fcPrune_state (a.pruned fc.id) fc t
      change (fcPrune (a.pruned fc.id) fc t).2.hands = s.hands
      rw [same]
      exact hands

/-- So an announce is still in the hand after it was handled. -/
theorem processAnnounce_hands (p : Nat) (m : Stored) :
    (processAnnounce c a p m s).2.hands = s.hands := by
  unfold processAnnounce
  split
  · rfl
  split
  · rfl
  · rfl
  · rfl
  all_goals first
    | exact addForeignMaster_hands p m
    | exact updateCurrentMaster_hands p m

/-- An announce that was received and is held is kept in a record, at the port that is handled. -/
theorem processAnnounce_works {m : Stored} (held : m.cell ∈ s.hands)
    (received : g.delivers m.msg) (type : m.msg.type = .announce)
    (meets : Meets g.before s g.here) :
    Works c a g s (processAnnounce c a g.here m s).2 :=
  Works.of_effect (.announce s m held received type meets) (processAnnounce_hands _ m)

/-- A management message has no effect on what is kept. -/
theorem clockManage_works (m : PtpMessage) : Works c a g s (clockManage c a g.here m s).2 := by
  have replied : Works c a g s ((List.range a.replies).foldl
      (fun s _ => s.scratch (c.newMessage g.here .management)) s) :=
    Works.foldl _ (fun _ _ s => Works.scratch _) s
  unfold clockManage
  dsimp only
  split
  · exact replied
  next setting _ =>
    split
    next uds =>
      apply replied.trans
      apply Works.of_effect (.setting _ setting uds)
      cases setting <;> rfl
    next => exact replied

/-- What the handler of a received message needs. -/
structure Handles (g : Guards) (m : Stored) (s : ClockState) : Prop where
  held : m.cell ∈ s.hands
  received : g.delivers m.msg
  meets : Meets g.before s g.here

/-- The message that a port of an ordinary or boundary clock has received, one case for each type of
message. -/
theorem bcProcess_works (allows : Allows c a g) (fixed : ¬c.relays) {m : Stored}
    (handles : Handles g m s)
    (everywhere : ∀ q, Meets g.before s q) : Works c a g s (bcProcess c a g.here m s).2 := by
  obtain ⟨held, received, meets⟩ := handles
  unfold bcProcess
  split
  next type => exact processSync_works allows held type received meets
  next type => exact processDelayReq_works allows fixed received type everywhere
  next => exact processPdelayReq_works _ m
  next => exact processPdelayResp_works held
  next type => exact processFollowUp_works allows held type received meets
  next => exact processDelayResp_works m
  next => exact processPdelayRespFup_works held
  next type => exact processAnnounce_works held received type meets
  next => exact Works.refl s
  next => exact clockManage_works m.msg

/-- The message that a descriptor of a port delivers to a handler, unless it is ignored. -/
def delivered (c : Clock) (a : Answers) (p : Nat) (fd : Descriptor) (s : ClockState) :
    Option PtpMessage :=
  if fd ≠ .event ∧ fd ≠ .general then none else
    match a.received with
    | .failed | .rejected => none
    | .message msg =>
      let ignored : Bool := match c.type with
        | .ordinary | .boundary => portIgnore c (a.capable s.asked) p msg
        | .e2e | .p2p => msg.flags &&& unicast ≠ 0 || tcIgnore c p msg
      if ignored then none else some msg

/-- The delay timer of a port takes the announce of its best foreign master in the hybrid mode of
the delay request mechanism. -/
def Delays (c : Clock) (g : Guards) (fd : Descriptor) : Prop :=
  fd = .delayTimer → (c.setup g.here).hybridE2e → (g.before.ports g.here).delayMechanism ≠ .p2p →
    (c.type = .e2e → (g.before.ports g.here).state.tracks) → g.takes g.here

/-- What the guards have to allow while one of the descriptors is handled. -/
structure AllowsDescriptor (c : Clock) (a : Answers) (g : Guards) (fd : Descriptor) : Prop
    extends Allows c a g where
  delays : Delays c g fd
  delivers : ∀ msg, delivered c a g.here fd g.before = some msg → g.delivers msg

/-- A message that is not ignored is delivered. -/
theorem delivered_bc {fd : Descriptor} {p : Nat} {msg : PtpMessage}
    (socket : fd = .event ∨ fd = .general) (fixed : ¬c.relays) (received : a.received = .message msg)
    (heeded : portIgnore c (a.capable s.asked) p msg = false) :
    delivered c a p fd s = some msg := by
  have sockets : ¬(fd ≠ .event ∧ fd ≠ .general) := by tauto
  unfold delivered
  rw [if_neg sockets, received]
  dsimp only
  cases type : c.type with
  | ordinary | boundary => simp [heeded]
  | e2e => exact absurd (Or.inl type) fixed
  | p2p => exact absurd (Or.inr type) fixed

/-- A multicast message that a transparent clock does not ignore is one that the goal counts as
delivered. -/
theorem delivered_relay {fd : Descriptor} {p : Nat} {msg : PtpMessage}
    (socket : fd = .event ∨ fd = .general) (relays : c.relays) (received : a.received = .message msg)
    (multicast : msg.flags &&& unicast = 0) (heeded : tcIgnore c p msg = false) :
    delivered c a p fd s = some msg := by
  have sockets : ¬(fd ≠ .event ∧ fd ≠ .general) := by tauto
  unfold delivered
  rw [if_neg sockets, received]
  dsimp only
  rcases relays with type | type <;> rw [type] <;> simp [multicast, heeded]

/-- The socket is read: a message is obtained, filled, handled and given back. At its start nothing
has changed yet, so that what the goal was told of the ports still holds. -/
theorem bcReceive_works {fd : Descriptor} (allows : AllowsDescriptor c a g fd)
    (socket : fd = .event ∨ fd = .general) (fixed : ¬c.relays) (start : s = g.before) :
    Works c a g s (bcReceive c a g.here s).2 := by
  unfold bcReceive
  split
  next => exact Works.scratch _
  next => exact Works.scratch _
  next msg received =>
    unfold portCapable
    dsimp only
    apply Works.hand
    apply Works.ask.trans
    split
    next => exact Works.refl _
    next heeded =>
      have everywhere : ∀ q, Meets g.before (s.obtain msg).2.ask q := by
        intro q
        rw [← start]
        exact ((Meets.refl s q).obtain msg).ask
      apply bcProcess_works allows.toAllows fixed _ everywhere
      constructor
      · exact List.mem_cons_self
      · apply allows.delivers
        have asked : (s.obtain msg).2.asked = g.before.asked := by
          rw [← start]
          rfl
        rw [asked] at heeded
        exact delivered_bc socket fixed received (Bool.eq_false_iff.mpr heeded)
      · exact everywhere g.here

/-! ## Forwarding -/

/-- The egress ports are other ones than the ingress port. -/
theorem egressBlocked_self (q : Nat) (m : PtpMessage) : egressBlocked c q q m s = true := by
  unfold egressBlocked
  simp

/-- A message is sent on by one port, which writes no port and keeps nothing. -/
theorem forwardTo_works (allows : Allows c a g) (relays : c.relays) (m : PtpMessage) (p : Nat) :
    Works c a g s (forwardTo c a g.here m s p) := by
  unfold forwardTo
  split
  · exact Works.refl s
  next free =>
    split
    next => exact Works.ask
    next failed =>
      have differ : p ≠ g.here := by
        rintro rfl
        exact free (egressBlocked_self g.here m)
      have fault : g.faults p := allows.egress relays p differ ⟨s.asked, by simpa using failed⟩
      apply Works.ask.trans
      exact portDispatch_works _ _ _ _ _ _ nofun (fun _ => fault) nofun (fun _ _ _ => fault)

/-- Sending on leaves the records, so a port still meets what was asked of it. -/
theorem forwardTo_meets {b : ClockState} {q : Nat} (relays : c.relays) (m : PtpMessage) (p : Nat)
    (meets : Meets b s q) : Meets b (forwardTo c a q m s p) q := by
  unfold forwardTo
  split
  next => exact meets
  next free =>
    have differ : q ≠ p := by
      rintro rfl
      exact free (egressBlocked_self q m)
    split
    · exact meets.ask
    · exact meets.ask.touched differ relays (portDispatch_touches ..)

/-- What has been forwarded before the message is handled. -/
structure PassedOn (c : Clock) (a : Answers) (g : Guards) (s t : ClockState) : Prop where
  work : Works c a g s t
  meets : Meets g.before s g.here → Meets g.before t g.here

/-- Passing on twice is passing on. -/
theorem PassedOn.trans {t u : ClockState} (first : PassedOn c a g s t)
    (second : PassedOn c a g t u) : PassedOn c a g s u :=
  ⟨first.work.trans second.work, second.meets ∘ first.meets⟩

/-- All ports in turn, by induction on their list. -/
theorem forwardPass_passedOn (allows : Allows c a g) (relays : c.relays) (m : PtpMessage) :
    PassedOn c a g s (forwardPass c a g.here m s) := by
  unfold forwardPass
  constructor
  · exact Works.foldl _ (fun p _ s => forwardTo_works allows relays m p) s
  · intro meets
    generalize c.ports = items
    induction items generalizing s with
    | nil => exact meets
    | cons p rest inductionHypothesis =>
      exact inductionHypothesis (forwardTo_meets relays m p meets)

/-- An event message goes out in two passes. -/
theorem fwdEvent_passedOn (allows : Allows c a g) (relays : c.relays) (m : PtpMessage) :
    PassedOn c a g s (fwdEvent c a g.here m s) :=
  (forwardPass_passedOn allows relays m).trans (forwardPass_passedOn allows relays m)

/-- A Sync is sent on, with a Follow_Up of its own if it came without one. -/
theorem fwdSync_passedOn (allows : Allows c a g) (relays : c.relays) (m : PtpMessage) :
    PassedOn c a g s (fwdSync c a g.here m s) := by
  unfold fwdSync
  dsimp only
  split
  · exact (fwdEvent_passedOn allows relays m).trans (forwardPass_passedOn allows relays _)
  · exact fwdEvent_passedOn allows relays m

/-- A message can still be handled after it was passed on: it is still in the hand. -/
theorem PassedOn.handles {m : Stored} {t : ClockState} (forwarded : PassedOn c a g s t)
    (handles : Handles g m s) : Handles g m t where
  held := by
    rw [forwarded.work.hands]
    exact handles.held
  received := handles.received
  meets := forwarded.meets handles.meets

/-- A copy is handled if there is one. -/
theorem copy_works {m : Stored} {dup : Bool} {t : ClockState} {handler : ClockState → ClockState}
    (forwarded : PassedOn c a g s t) (handles : dup = true → Handles g m s)
    (works : Handles g m t → Works c a g t (handler t)) :
    Works c a g s (if dup then handler t else t) := by
  apply forwarded.work.trans
  split
  next copied => exact works (forwarded.handles (handles copied))
  next => exact Works.refl t

/-- The same for a handler that has a result. -/
theorem answer_works {m : Stored} {dup : Bool} {t : ClockState} {result other : FsmEvent × ClockState}
    (forwarded : PassedOn c a g s t) (handles : dup = true → Handles g m s)
    (works : Handles g m t → Works c a g t result.2) (idle : other.2 = t) :
    Works c a g s (if dup then result else other).2 := by
  apply forwarded.work.trans
  split
  next copied => exact works (forwarded.handles (handles copied))
  next =>
    rw [idle]
    exact Works.refl t

/-- Nothing is passed on. -/
theorem PassedOn.refl : PassedOn c a g s s := ⟨Works.refl s, id⟩

/-- An end to end transparent clock handles the copy of a message only; what is passed on has been
handled before. -/
theorem e2eProcess_works (allows : Allows c a g) (relays : c.relays) {m : Stored} {dup : Bool}
    (handles : dup = true → Handles g m s) :
    Works c a g s (e2eProcess c a g.here m dup s).2 := by
  have passed : PassedOn c a g s (forwardPass c a g.here m.msg s) :=
    forwardPass_passedOn allows relays m.msg
  unfold e2eProcess
  split
  next type =>
    apply copy_works (fwdSync_passedOn allows relays m.msg) handles
    exact fun ⟨held, received, meets⟩ => processSync_works allows held type received meets
  next => exact (fwdEvent_passedOn allows relays m.msg).work
  next type =>
    apply copy_works passed handles
    exact fun ⟨held, received, meets⟩ => processFollowUp_works allows held type received meets
  next => exact copy_works passed handles fun _ => processDelayResp_works m
  next type =>
    apply answer_works passed handles
    · exact fun ⟨held, received, meets⟩ => processAnnounce_works held received type meets
    · rfl
  next => exact passed.work
  next => exact passed.work
  all_goals exact Works.refl s

/-- A peer to peer transparent clock answers peers itself, and handles copies like the end to end
one. -/
theorem p2pProcess_works (allows : Allows c a g) (relays : c.relays) {m : Stored} {dup : Bool}
    (handles : dup = true → Handles g m s) :
    Works c a g s (p2pProcess c a g.here m dup s).2 := by
  have passed : PassedOn c a g s (forwardPass c a g.here m.msg s) :=
    forwardPass_passedOn allows relays m.msg
  unfold p2pProcess
  split
  next type =>
    apply copy_works (fwdSync_passedOn allows relays m.msg) handles
    exact fun ⟨held, received, meets⟩ => processSync_works allows held type received meets
  next => exact answer_works PassedOn.refl handles (fun _ => processPdelayReq_works _ m) rfl
  next =>
    apply answer_works PassedOn.refl handles
    · exact fun ⟨held, _, _⟩ => processPdelayResp_works held
    · rfl
  next type =>
    apply copy_works passed handles
    exact fun ⟨held, received, meets⟩ => processFollowUp_works allows held type received meets
  next =>
    apply copy_works PassedOn.refl handles
    exact fun ⟨held, _, _⟩ => processPdelayRespFup_works held
  next type =>
    apply answer_works passed handles
    · exact fun ⟨held, received, meets⟩ => processAnnounce_works held received type meets
    · rfl
  next => exact passed.work
  next => exact passed.work
  all_goals exact Works.refl s

/-- The socket of a transparent clock is read; whether the message is copied as well is what
`endToEnd` decides for some types. -/
theorem relayReceive_works {fd : Descriptor} (allows : AllowsDescriptor c a g fd)
    (socket : fd = .event ∨ fd = .general) (relays : c.relays) (start : s = g.before)
    (endToEnd : Bool) : Works c a g s (relayReceive c a endToEnd g.here s).2 := by
  unfold relayReceive
  split
  next => exact Works.scratch _
  next => exact Works.scratch _
  next msg received =>
    have handles (multicast : msg.flags &&& unicast = 0) (heeded : tcIgnore c g.here msg = false) :
        Handles g (s.obtain msg).1 (s.obtain msg).2 := by
      constructor
      · exact List.mem_cons_self
      · exact allows.delivers msg (delivered_relay socket relays received multicast heeded)
      · rw [← start]
        exact (Meets.refl s g.here).obtain msg
    have released : Works c a g s ((s.obtain msg).2.release (s.obtain msg).1.cell) :=
      Works.hand msg (Works.refl _)
    dsimp only
    split
    next => exact released
    next multicast =>
      cases ignored : tcIgnore c g.here msg with
      | false =>
        have handled := handles (by simpa using multicast) ignored
        apply Works.hand
        cases endToEnd with
        | true => exact e2eProcess_works allows.toAllows relays fun _ => handled
        | false => exact p2pProcess_works allows.toAllows relays fun _ => handled
      | true =>
        apply released.trans
        cases endToEnd with
        | true => exact e2eProcess_works allows.toAllows relays nofun
        | false => exact p2pProcess_works allows.toAllows relays nofun

/-! ## Events -/

/-- A state decision is asked for. -/
theorem sde_works (sde : Bool) : Works c a g s { s with sde := sde } :=
  Works.idle s.asked (fun p => (s.ports p).running) sde

/-- The link status found, and whether the physical clock is switched. -/
theorem portLinkStatus_eq (p : Nat) (news : LinkNews) : ∃ (found : LinkStatus) (switch : Bool),
    portLinkStatus c a p s news =
      let linked := s.withPort p fun port => { port with linkStatus := found }
      let switched := clockSwitchPhc a p linked
      if switch then
        if switched.1 then if found.up then switched.2 else { switched.2 with sde := true }
        else portDispatch c a p .faultDetected false (withFaultType p .switchPhc switched.2)
      else if found.up then linked else { linked with sde := true } := ⟨_, _, rfl⟩

/-- News of a link: its state, the events that follow and the physical clock are all effects on the
port that is handled. -/
theorem portLinkStatus_works (allows : Allows c a g) (news : LinkNews) :
    Works c a g s (portLinkStatus c a g.here s news) := by
  have linked (found : LinkStatus) :
      Works c a g s (s.withPort g.here fun port => { port with linkStatus := found }) :=
    Works.of_effect (.link s found) rfl
  have finished (found : LinkStatus) (t : ClockState) :
      Works c a g t (if found.up then t else { t with sde := true }) := by
    split
    · exact Works.refl t
    · exact sde_works true
  obtain ⟨found, switch, same⟩ := portLinkStatus_eq (c := c) (a := a) (s := s) g.here news
  rw [same]
  apply (linked found).trans
  dsimp only
  split
  · split
    next => exact clockSwitchPhc_works.trans (finished _ _)
    next failed =>
      have fault : g.faults g.here := allows.switches (switches_of_failed failed)
      apply (clockSwitchPhc_works.trans (withFaultType_works .switchPhc)).trans
      exact portDispatch_works _ _ _ _ _ _ nofun (fun _ => fault) nofun (fun _ _ _ => fault)
  · exact finished _ _

/-- All news of links one after the other. -/
theorem rtnlEvent_works (allows : Allows c a g) : Works c a g s (rtnlEvent c a g.here s).2 :=
  Works.foldl a.links (fun news _ _ => portLinkStatus_works allows news) s

/-- The best record of the port is forgotten. -/
theorem clearBest_works : Works c a g s (clearBest g.here s) := by
  apply Works.of_effect (.clearBest s)
  unfold clearBest
  split
  · rfl
  next fc _ =>
    obtain ⟨msgs, same⟩ := fcClear_state fc s
    change (fcClear fc s).2.hands = s.hands
    rw [same]

/-- Announces have ceased: the records are cleared, and the timers set again. -/
theorem bcTimeout_works : Works c a g s (bcTimeout c a g.here s).2 := by
  have work : Works c a g s (delayReqPrune a g.here (setTmo g.here .announceTimer
      (clearBest g.here s))) :=
    (clearBest_works.trans (Works.setTmo _ _)).trans (delayReqPrune_works g.here)
  unfold bcTimeout
  dsimp only
  split
  · exact work
  · exact work

/-- The same at a transparent clock. -/
theorem tcTimeout_works : Works c a g s (tcTimeout g.here s).2 :=
  clearBest_works.trans (Works.setTmo _ _)

/-- Pruning the delay requests leaves what the timer depends on. -/
theorem settles_delayReqPrune (p : Nat) : Settles c p s (delayReqPrune a p s) :=
  Settles.foldl (fun _ => settles_dropDelayReq) _ s

/-- Taking requests off the list leaves the best record. -/
theorem Settles.foldl_bestForeign (p : Nat) (items : List Stored) (s : ClockState) :
    ((items.foldl (fun s m => dropDelayReq p m s) s).ports p).bestForeign =
      (s.ports p).bestForeign := by
  induction items generalizing s with
  | nil => rfl
  | cons m rest inductionHypothesis =>
    rw [List.foldl_cons, inductionHypothesis]
    unfold dropDelayReq
    rw [withPort_same]
    rfl

/-- What the delay timer does before a request is built. -/
theorem delayTimer_prepared (p : Nat) :
    Works c a g s (delayReqPrune a p (setTmo p .delayTimer s)) ∧
      ((delayReqPrune a p (setTmo p .delayTimer s)).ports p).bestForeign =
        (s.ports p).bestForeign ∧
      ((delayReqPrune a p (setTmo p .delayTimer s)).ports p).delayMechanism =
        (s.ports p).delayMechanism ∧
      ((delayReqPrune a p (setTmo p .delayTimer s)).ports p).state = (s.ports p).state := by
  have settled : Settles c p s (delayReqPrune a p (setTmo p .delayTimer s)) :=
    (setTmo_settles .delayTimer).trans (settles_delayReqPrune p)
  refine ⟨(Works.setTmo p _).trans (delayReqPrune_works p), ?_, settled.delayMechanism,
    settled.state⟩
  unfold delayReqPrune
  rw [Settles.foldl_bestForeign]
  unfold setTmo
  rw [withRunning_same]
  rfl

/-- A descriptor of a port of an ordinary or boundary clock, one case for each descriptor. -/
theorem bcEvent_works {fd : Descriptor} (allows : AllowsDescriptor c a g fd)
    (start : s = g.before) (fixed : ¬c.relays) :
    Works c a g s (bcEvent c a g.here fd s).2 := by
  unfold bcEvent
  split
  · exact bcTimeout_works
  · exact bcTimeout_works
  next =>
    obtain ⟨work, record, mechanism, _⟩ := delayTimer_prepared (c := c) (a := a) (g := g) (s := s)
      g.here
    apply work.trans
    apply portDelayRequest_works
    · intro hybrid ends
      rw [mechanism, start] at ends
      exact allows.delays rfl hybrid ends fun e2e => absurd (Or.inl e2e) fixed
    · rw [record, start]
  · exact Works.refl s
  · exact (Works.setTmo _ _).trans (portTxAnnounce_works _)
  · exact (Works.setTmo _ _).trans (portTxSync_works _)
  · exact rtnlEvent_works allows.toAllows
  · exact bcReceive_works allows (Or.inl rfl) fixed start
  · exact bcReceive_works allows (Or.inr rfl) fixed start

/-- A descriptor of a port of an end to end transparent clock. -/
theorem e2eEvent_works {fd : Descriptor} (allows : AllowsDescriptor c a g fd)
    (start : s = g.before) (relays : c.relays) :
    Works c a g s (e2eEvent c a g.here fd s).2 := by
  unfold e2eEvent
  split
  · exact tcTimeout_works
  · exact tcTimeout_works
  next =>
    obtain ⟨work, record, mechanism, state⟩ := delayTimer_prepared (c := c) (a := a) (g := g)
      (s := s) g.here
    unfold e2eDelayTimer
    dsimp only
    apply work.trans
    split
    next follows =>
      simp only [Bool.and_eq_true] at follows
      apply portDelayRequest_works
      · intro hybrid ends
        rw [mechanism, start] at ends
        rw [state, start] at follows
        exact allows.delays rfl hybrid ends fun _ => follows.2
      · rw [record, start]
    next => exact Works.refl _
  · exact Works.refl s
  · exact Works.refl s
  · exact Works.refl s
  · exact rtnlEvent_works allows.toAllows
  · exact relayReceive_works allows (Or.inl rfl) relays start true
  · exact relayReceive_works allows (Or.inr rfl) relays start true

/-- A descriptor of a port of a peer to peer transparent clock. -/
theorem p2pEvent_works {fd : Descriptor} (allows : AllowsDescriptor c a g fd)
    (start : s = g.before) (type : c.type = .p2p) :
    Works c a g s (p2pEvent c a g.here fd s).2 := by
  have relays : c.relays := Or.inr type
  unfold p2pEvent
  split
  · exact tcTimeout_works
  · exact tcTimeout_works
  next =>
    have timed : Settles c g.here s (setTmo g.here .delayTimer s) := setTmo_settles .delayTimer
    unfold p2pDelayTimer
    dsimp only
    apply (Works.setTmo g.here .delayTimer).trans
    split
    next =>
      apply portDelayRequest_works
      · intro hybrid ends
        rw [timed.delayMechanism, start] at ends
        exact allows.delays rfl hybrid ends fun e2e => by
          rw [type] at e2e
          cases e2e
      · unfold setTmo
        rw [withRunning_same, start]
        rfl
    next => exact Works.refl _
  · exact Works.refl s
  · exact Works.refl s
  · exact Works.refl s
  · exact rtnlEvent_works allows.toAllows
  · exact relayReceive_works allows (Or.inl rfl) relays start false
  · exact relayReceive_works allows (Or.inr rfl) relays start false

/-- The handling of a descriptor up to the event. -/
theorem portEvent_works {fd : Descriptor} (allows : AllowsDescriptor c a g fd)
    (start : s = g.before) : Works c a g s (portEvent c a g.here fd s).2 := by
  unfold portEvent
  split
  next type => exact bcEvent_works allows start (by simp [Clock.relays, type])
  next type => exact bcEvent_works allows start (by simp [Clock.relays, type])
  next type => exact e2eEvent_works allows start (Or.inl type)
  next type => exact p2pEvent_works allows start type

end Handlers

end LinuxPtp
