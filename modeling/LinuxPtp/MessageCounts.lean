import LinuxPtp.ForeignRecords

/-!
# Who holds a message

A message is held by handlers in progress and by ports: as the last Sync or Follow_Up, as an
outstanding delay request, in one of the slots of the peer delay mechanism, or in the list of a
foreign master. Its count is the number of these places in every run in which no message of a pair
is put twice.

The count of a message and the list of places that hold it are compared as multisets. Effects that
hand a message over keep the list up to its order; those that take or give a reference change list
and count together.
-/

namespace LinuxPtp

open RefPool Runs

/-! ## Places -/

/-- The messages that a record holds. -/
def ForeignClock.cells (fc : ForeignClock) : List Nat := fc.messages.map Stored.cell

/-- The messages in the slots of the peer delay mechanism. -/
def peerCells (peerDelay : PeerSlot → Option Stored) : List Nat :=
  [PeerSlot.req, .resp, .fup].flatMap fun slot => (peerDelay slot).toList.map Stored.cell

namespace Port

/-- The last Sync or Follow_Up, if the slot is in use. -/
def lastCells (port : Port) : List Nat :=
  if port.syfu = .empty then [] else port.lastSyncfup.toList.map Stored.cell

/-- The messages that a port holds, each as often as it holds it. -/
def holdings (port : Port) : List Nat :=
  port.lastCells ++ port.delayReq.map Stored.cell ++ peerCells port.peerDelay ++
    port.foreignMasters.flatMap ForeignClock.cells

end Port

/-- The count of each message is the number of places that hold it, the messages on the free list
are those that no place holds, and no message was put whose count was zero. -/
def MessagesCounted (s : ClockState) : Prop :=
  ∃ n, (∀ p, n ≤ p → (s.ports p).holdings = []) ∧
    Exact s.msgs (s.hands ++ (List.range n).flatMap fun p => (s.ports p).holdings)

section Places

variable {s t : ClockState}

/-- Ports that hold nothing do not count. -/
theorem range_flatMap {β : Type} {n later : Nat} (reach : n ≤ later) (holders : Nat → List β)
    (nothing : ∀ p, n ≤ p → holders p = []) :
    (List.range later).flatMap holders = (List.range n).flatMap holders := by
  induction later, reach using Nat.le_induction with
  | base => rfl
  | succ later reach inductionHypothesis =>
    rw [List.range_succ, List.flatMap_append, inductionHypothesis, List.flatMap_singleton,
      nothing later reach, List.append_nil]

/-- A change to what one port and the handlers hold. -/
theorem MessagesCounted.at (counted : MessagesCounted s) (p : Nat)
    (others : ∀ q, q ≠ p → (t.ports q).holdings = (s.ports q).holdings)
    (exact : ∀ rest, Exact s.msgs ((s.ports p).holdings ++ s.hands ++ rest) →
      Exact t.msgs ((t.ports p).holdings ++ t.hands ++ rest)) : MessagesCounted t := by
  obtain ⟨n, nothing, before⟩ := counted
  have reach : n ≤ max n (p + 1) := Nat.le_max_left ..
  have here : p ∈ List.range (max n (p + 1)) := by
    rw [List.mem_range]
    omega
  rw [← range_flatMap reach _ nothing] at before
  obtain ⟨rest, split⟩ := flatMap_single List.nodup_range here fun q => (s.ports q).holdings
  have old := split (fun q => (s.ports q).holdings) fun _ _ => rfl
  have new := split (fun q => (t.ports q).holdings) others
  refine ⟨max n (p + 1), ?_, ?_⟩
  · intro q beyond
    rw [others q (by omega)]
    exact nothing q (by omega)
  · have focused := before.perm (old.append_left s.hands)
    have moved := exact rest (focused.perm (by
      rw [← List.append_assoc]
      exact List.perm_append_comm.append_right rest))
    apply moved.perm
    refine List.Perm.trans ?_ (new.symm.append_left t.hands)
    rw [← List.append_assoc]
    exact List.perm_append_comm.append_right rest

/-- A change to what the handlers hold. -/
theorem MessagesCounted.aside (counted : MessagesCounted s)
    (same : ∀ q, (t.ports q).holdings = (s.ports q).holdings)
    (exact : ∀ rest, Exact s.msgs (s.hands ++ rest) → Exact t.msgs (t.hands ++ rest)) :
    MessagesCounted t := by
  obtain ⟨n, nothing, before⟩ := counted
  refine ⟨n, ?_, ?_⟩
  · intro p beyond
    rw [same]
    exact nothing p beyond
  · have holders : ((List.range n).flatMap fun p => (t.ports p).holdings) =
        (List.range n).flatMap fun p => (s.ports p).holdings :=
      List.flatMap_congr fun p _ => same p
    rw [holders]
    exact exact _ before

/-- A change that concerns no message. -/
theorem MessagesCounted.congr (counted : MessagesCounted s)
    (same : ∀ q, (t.ports q).holdings = (s.ports q).holdings) (msgs : t.msgs = s.msgs)
    (hands : t.hands = s.hands) : MessagesCounted t := by
  apply counted.aside same
  rw [msgs, hands]
  exact fun _ exact => exact

/-- The slots of the peer delay mechanism, one of which is singled out. -/
theorem peerCells_update (peerDelay : PeerSlot → Option Stored) (slot : PeerSlot) :
    ∃ rest, ∀ new : Option Stored, (peerCells (Function.update peerDelay slot new)).Perm
      (new.toList.map Stored.cell ++ rest) := by
  have distinct : [PeerSlot.req, .resp, .fup].Nodup := by decide
  have member : slot ∈ [PeerSlot.req, .resp, .fup] := by cases slot <;> decide
  obtain ⟨rest, split⟩ := flatMap_single distinct member
    fun slot => (peerDelay slot).toList.map Stored.cell
  refine ⟨rest, fun new => ?_⟩
  have updated := split (fun other => (Function.update peerDelay slot new other).toList.map
    Stored.cell) fun other differ => by rw [Function.update_of_ne differ]
  rw [Function.update_self] at updated
  exact updated

end Places

/-! ## Records -/

section Records

variable {c : Clock} {a : Answers} {s : ClockState} {rest : List Nat}

/-- Dropping announces puts them. -/
theorem exact_fcDropLast (count : Nat) (fc : ForeignClock) (s : ClockState)
    (exact : Exact s.msgs (fc.cells ++ rest)) :
    Exact (fcDropLast^[count] (fc, s)).2.msgs ((fcDropLast^[count] (fc, s)).1.cells ++ rest) := by
  induction count generalizing fc s with
  | zero => exact exact
  | succ count inductionHypothesis =>
    rw [Function.iterate_succ_apply]
    cases last : fc.messages.getLast? with
    | none =>
      have still : fcDropLast (fc, s) = (fc, s) := by simp [fcDropLast, last]
      rw [still]
      exact inductionHypothesis fc s exact
    | some m =>
      have dropped : fcDropLast (fc, s) = (fc.dropLast, s.put m.cell) := by
        simp [fcDropLast, last]
      rw [dropped]
      apply inductionHypothesis
      have whole : fc.messages = fc.messages.dropLast ++ [m] :=
        (List.dropLast_append_getLast? m last).symm
      have cells : fc.cells = fc.dropLast.cells ++ [m.cell] := by
        unfold ForeignClock.cells
        rw [whole, List.map_append]
        simp [ForeignClock.dropLast]
      rw [cells, List.append_assoc, List.singleton_append] at exact
      exact (exact.perm List.perm_middle).put

/-- Announces that are too old are given back once each. -/
theorem exact_fcPrune (now : Int) (fc : ForeignClock) (s : ClockState)
    (exact : Exact s.msgs (fc.cells ++ rest)) :
    Exact (fcPrune now fc s).2.msgs ((fcPrune now fc s).1.cells ++ rest) :=
  exact_fcDropLast _ _ _ (exact_fcDropLast _ fc s exact)

/-- All announces of a record are given back once each. -/
theorem exact_fcClear (fc : ForeignClock) (s : ClockState)
    (exact : Exact s.msgs (fc.cells ++ rest)) : Exact (fcClear fc s).2.msgs rest := by
  have dropped := exact_fcDropLast fc.nMessages fc s exact
  have empty : (fcDropLast^[fc.nMessages] (fc, s)).1.cells = [] := by
    rw [show fcDropLast^[fc.nMessages] (fc, s) = fcClear fc s from rfl, fcClear_record]
    rfl
  rw [empty] at dropped
  exact dropped

/-- A message in hand is kept by a record. -/
theorem exact_insert (now : Int) (fc : ForeignClock) (m : Stored) (s : ClockState)
    (held : m.cell ∈ rest) (exact : Exact s.msgs (fc.cells ++ rest)) :
    Exact (fcInsert m (fcPrune now fc s).1 (fcPrune now fc s).2).2.msgs
      ((fcInsert m (fcPrune now fc s).1 (fcPrune now fc s).2).1.cells ++ rest) :=
  (exact_fcPrune now fc s exact).get (List.mem_append_right _ held)

/-- All announces of all records are given back, by induction on the records. -/
theorem exact_freeRecords (records : List ForeignClock) (s : ClockState)
    (exact : Exact s.msgs (records.flatMap ForeignClock.cells ++ rest)) :
    Exact (records.foldl (fun s fc => (fcClear fc s).2) s).msgs rest := by
  induction records generalizing s with
  | nil => exact exact
  | cons fc records inductionHypothesis =>
    rw [List.flatMap_cons, List.append_assoc] at exact
    exact inductionHypothesis _ (exact_fcClear fc s exact)

/-- A record is looked at, for which its old announces are given back. -/
theorem exact_considerForeign (p : Nat) (best : Option ForeignClock) (fc : ForeignClock)
    (s : ClockState) (exact : Exact s.msgs (fc.cells ++ rest)) :
    Exact (considerForeign c a p best fc s).2.2.msgs
      ((considerForeign c a p best fc s).2.1.cells ++ rest) := by
  unfold considerForeign
  split
  next => exact exact
  next tmp _ =>
    have renamed : Exact s.msgs
        ((fc.withDataset (announceToDataset c p tmp.msg)).cells ++ rest) := exact
    have pruned := exact_fcPrune (a.pruned fc.id) _ s renamed
    dsimp only
    split
    · exact pruned
    split
    · exact pruned
    split
    · exact pruned
    · exact exact_fcDropLast _ _ _ pruned

/-- All records of a port are looked at. -/
theorem exact_considerAll (p : Nat) (best : Option ForeignClock) (records : List ForeignClock)
    (s : ClockState) (exact : Exact s.msgs (records.flatMap ForeignClock.cells ++ rest)) :
    Exact (considerAll c a p best records s).2.2.msgs
      ((considerAll c a p best records s).2.1.flatMap ForeignClock.cells ++ rest) := by
  induction records generalizing best s rest with
  | nil => exact exact
  | cons fc records inductionHypothesis =>
    rw [List.flatMap_cons, List.append_assoc] at exact
    have considered := exact_considerForeign (c := c) (a := a) p best fc s exact
    have swapped := considered.perm (List.perm_append_comm_assoc ..)
    unfold considerAll
    dsimp only
    rw [List.flatMap_cons, List.append_assoc]
    exact (inductionHypothesis _ _ swapped).perm (List.perm_append_comm_assoc ..)

end Records

/-! ## Effects -/

section Effects

variable {c : Clock} {a : Answers} {g : Guards} {s t : ClockState} {p : Nat}

/-- A change of one port that concerns no message. -/
theorem counted_withPort {change : Port → Port}
    (same : (change (s.ports p)).holdings = (s.ports p).holdings) (counted : MessagesCounted s) :
    MessagesCounted (s.withPort p change) := by
  refine counted.congr (t := s.withPort p change) (fun q => ?_) rfl rfl
  by_cases here : q = p
  · subst here
    rw [withPort_same, same]
  · rw [withPort_other here]

/-- The message that is obtained is in the hand, counted once. -/
theorem counted_obtain (msg : PtpMessage) (counted : MessagesCounted s) :
    MessagesCounted (s.obtain msg).2 :=
  counted.aside (fun _ => rfl) fun _ exact => exact.allocate msg

/-- The message that is given back was in the hand. -/
theorem counted_release {cell : Nat} (held : cell ∈ s.hands) (counted : MessagesCounted s) :
    MessagesCounted (s.release cell) :=
  counted.aside (fun _ => rfl) fun rest exact =>
    (exact.perm ((List.perm_cons_erase held).append_right rest)).put

/-- The half of a pair is given back, and there is one. -/
theorem counted_putLast (there : (s.ports p).syfu ≠ .empty) (counted : MessagesCounted s) :
    MessagesCounted (putLast p s) := by
  apply counted.at p
  · intro q differ
    obtain ⟨_, same⟩ := putLast_state p s
    rw [same]
    dsimp only
    rw [Function.update_of_ne differ]
  · intro rest exact
    rw [putLast_port]
    unfold putLast
    cases last : (s.ports p).lastSyncfup with
    | none =>
      have nothing : ({ s.ports p with syfu := .empty } : Port).holdings = (s.ports p).holdings := by
        simp [Port.holdings, Port.lastCells, last]
      rw [nothing]
      exact exact
    | some m =>
      have first : (s.ports p).holdings =
          m.cell :: ({ s.ports p with syfu := .empty } : Port).holdings := by
        simp [Port.holdings, Port.lastCells, last, there]
      rw [first] at exact
      exact exact.put

/-- The half of a pair is a further reference to a message in the hand. -/
theorem counted_keepLast {kind : SyfuState} {m : Stored} (held : m.cell ∈ s.hands)
    (free : (s.ports p).syfu = .empty) (used : kind ≠ .empty) (counted : MessagesCounted s) :
    MessagesCounted (keepLast p kind m s) := by
  unfold keepLast
  apply counted.at p
  · exact fun q differ => by rw [withPort_other differ]; rfl
  · intro rest exact
    rw [withPort_same]
    have first : ({ s.ports p with syfu := kind, lastSyncfup := some m } : Port).holdings =
        m.cell :: (s.ports p).holdings := by
      simp [Port.holdings, Port.lastCells, free, used]
    change Exact _ (({ s.ports p with syfu := kind, lastSyncfup := some m } : Port).holdings ++ _ ++ _)
    rw [first]
    exact exact.get (List.mem_append_left _ (List.mem_append_right _ held))

/-- A port takes over what a handler holds. -/
theorem perm_handed {old new hands rest : List Nat} {cell : Nat} (kept : new.Perm (cell :: old))
    (held : cell ∈ hands) : (old ++ hands ++ rest).Perm (new ++ hands.erase cell ++ rest) := by
  have handed : (old ++ hands).Perm (new ++ hands.erase cell) := calc
    (old ++ hands).Perm (old ++ cell :: hands.erase cell) :=
      (List.perm_cons_erase held).append_left old
    (old ++ cell :: hands.erase cell).Perm (cell :: old ++ hands.erase cell) := List.perm_middle
    (cell :: old ++ hands.erase cell).Perm (new ++ hands.erase cell) :=
      kept.symm.append_right _
  exact handed.append_right rest

/-- What a port holds besides the outstanding delay requests. -/
theorem holdings_delayReq (port : Port) :
    ∃ rest, ∀ list : List Stored, ({ port with delayReq := list } : Port).holdings.Perm
      (list.map Stored.cell ++ rest) := by
  refine ⟨port.lastCells ++ peerCells port.peerDelay ++
    port.foreignMasters.flatMap ForeignClock.cells, fun list => ?_⟩
  rw [List.perm_iff_count]
  intro cell
  simp only [Port.holdings, Port.lastCells, List.count_append]
  omega

/-- A request leaves the list and is given back. -/
theorem counted_dropDelayReq {m : Stored} (there : m ∈ (s.ports p).delayReq)
    (counted : MessagesCounted s) : MessagesCounted (dropDelayReq p m s) := by
  unfold dropDelayReq
  apply counted.at p
  · exact fun q differ => by rw [withPort_other differ]; rfl
  · intro rest exact
    rw [withPort_same]
    obtain ⟨others, split⟩ := holdings_delayReq (s.ports p)
    have old := split (s.ports p).delayReq
    have new := split ((s.ports p).delayReq.erase m)
    have erased := (List.perm_cons_erase there).map Stored.cell
    have moved := (old.trans (erased.append_right others)).trans (new.symm.cons m.cell)
    exact (exact.perm ((moved.append_right s.hands).append_right rest)).put

/-- A request goes over from the hand to the list. -/
theorem counted_keepDelayReq {m : Stored} (held : m.cell ∈ s.hands) (counted : MessagesCounted s) :
    MessagesCounted ((s.handOver m.cell).withPort p fun port =>
      { port with delayReq := m :: port.delayReq }) := by
  apply counted.at p
  · exact fun q differ => by rw [withPort_other differ]; rfl
  · intro rest exact
    rw [withPort_same]
    obtain ⟨others, split⟩ := holdings_delayReq (s.ports p)
    have old := split (s.ports p).delayReq
    have new := split (m :: (s.ports p).delayReq)
    exact exact.perm (perm_handed (new.trans (old.symm.cons m.cell)) held)

/-- What a port holds besides one of its peer delay messages. -/
theorem holdings_peerDelay (port : Port) (slot : PeerSlot) :
    ∃ rest, ∀ new : Option Stored, ({ port with
      peerDelay := Function.update port.peerDelay slot new } : Port).holdings.Perm
        (new.toList.map Stored.cell ++ rest) := by
  obtain ⟨rest, split⟩ := peerCells_update port.peerDelay slot
  refine ⟨port.lastCells ++ port.delayReq.map Stored.cell ++ rest ++
    port.foreignMasters.flatMap ForeignClock.cells, fun new => ?_⟩
  have slots := split new
  rw [List.perm_iff_count] at slots ⊢
  intro cell
  have here := slots cell
  simp only [Port.holdings, Port.lastCells, List.count_append] at here ⊢
  omega

/-- A slot is cleared, and its message given back if there is one. -/
theorem counted_dropPeerDelay (slot : PeerSlot) (counted : MessagesCounted s) :
    MessagesCounted (dropPeerDelay slot p s) := by
  unfold dropPeerDelay
  cases kept : (s.ports p).peerDelay slot with
  | none => exact counted
  | some m =>
    apply counted.at p
    · exact fun q differ => by rw [withPort_other differ]; rfl
    · intro rest exact
      rw [withPort_same]
      obtain ⟨others, split⟩ := holdings_peerDelay (s.ports p) slot
      have old := split (some m)
      have new := split none
      rw [← kept, Function.update_eq_self] at old
      rw [kept] at old
      have moved := old.trans (new.symm.cons m.cell)
      exact (exact.perm ((moved.append_right s.hands).append_right rest)).put

/-- A peer delay message takes an empty slot. -/
theorem holdings_keepPeerDelay {port : Port} {slot : PeerSlot} (free : port.peerDelay slot = none)
    (m : Stored) : ({ port with
      peerDelay := Function.update port.peerDelay slot (some m) } : Port).holdings.Perm
        (m.cell :: port.holdings) := by
  obtain ⟨rest, split⟩ := holdings_peerDelay port slot
  have old := split none
  rw [← free, Function.update_eq_self, free] at old
  exact (split (some m)).trans (old.symm.cons m.cell)

/-- A request goes over from the hand to its slot, which is free. -/
theorem counted_handPeerDelay {m : Stored} (held : m.cell ∈ s.hands)
    (free : (s.ports p).peerDelay .req = none) (counted : MessagesCounted s) :
    MessagesCounted (keepPeerDelay .req p m (s.handOver m.cell)) := by
  unfold keepPeerDelay
  apply counted.at p
  · exact fun q differ => by rw [withPort_other differ]; rfl
  · intro rest exact
    rw [withPort_same]
    exact exact.perm (perm_handed (holdings_keepPeerDelay free m) held)

/-- An answer is kept in a free slot as a further reference. -/
theorem counted_keepPeerDelay {slot : PeerSlot} {m : Stored} (held : m.cell ∈ s.hands)
    (free : (s.ports p).peerDelay slot = none) (counted : MessagesCounted s) :
    MessagesCounted (keepPeerDelay slot p m (s.get m.cell)) := by
  unfold keepPeerDelay
  apply counted.at p
  · exact fun q differ => by rw [withPort_other differ]; rfl
  · intro rest exact
    rw [withPort_same]
    have got := exact.get (List.mem_append_left rest (List.mem_append_right _ held))
    apply got.perm
    exact ((holdings_keepPeerDelay free m).symm.append_right s.hands).append_right rest

/-! ### Foreign masters -/

/-- A record is changed and put back, and the pool with it. -/
theorem counted_withForeign {fc changed : ForeignClock} {msgs : Pool PtpMessage}
    (addressed : Addressed s) (member : fc ∈ (s.ports p).foreignMasters) (same : changed.id = fc.id)
    (exact : ∀ rest, (∀ cell ∈ s.hands, cell ∈ rest) → Exact s.msgs (fc.cells ++ rest) →
      Exact msgs (changed.cells ++ rest))
    (counted : MessagesCounted s) :
    MessagesCounted (({ s with msgs := msgs } : ClockState).withPort p (Port.withForeign changed)) := by
  obtain ⟨before, after, split, put⟩ := withForeign_split (addressed.distinct p) member
  have old : (s.ports p).holdings.Perm (fc.cells ++ ((s.ports p).lastCells ++
      (s.ports p).delayReq.map Stored.cell ++ peerCells (s.ports p).peerDelay ++
        before.flatMap ForeignClock.cells ++ after.flatMap ForeignClock.cells)) := by
    rw [List.perm_iff_count]
    intro cell
    simp only [Port.holdings, split, List.flatMap_append, List.flatMap_cons, List.count_append]
    omega
  have new : ((s.ports p).withForeign changed).holdings.Perm (changed.cells ++
      ((s.ports p).lastCells ++ (s.ports p).delayReq.map Stored.cell ++
        peerCells (s.ports p).peerDelay ++ before.flatMap ForeignClock.cells ++
          after.flatMap ForeignClock.cells)) := by
    have last : ((s.ports p).withForeign changed).lastCells = (s.ports p).lastCells := rfl
    have requests : ((s.ports p).withForeign changed).delayReq = (s.ports p).delayReq := rfl
    have peers : ((s.ports p).withForeign changed).peerDelay = (s.ports p).peerDelay := rfl
    rw [List.perm_iff_count]
    intro cell
    simp only [Port.holdings, last, requests, peers, put changed same, List.flatMap_append,
      List.flatMap_cons, List.count_append]
    omega
  generalize (s.ports p).lastCells ++ (s.ports p).delayReq.map Stored.cell ++
    peerCells (s.ports p).peerDelay ++ before.flatMap ForeignClock.cells ++
      after.flatMap ForeignClock.cells = others at old new
  apply counted.at p
  · exact fun q differ => by rw [withPort_other differ]
  · intro rest whole
    rw [withPort_same]
    have first := whole.perm ((old.append_right s.hands).append_right rest)
    simp only [List.append_assoc] at first
    have inHand : ∀ cell ∈ s.hands, cell ∈ others ++ (s.hands ++ rest) := by
      intro cell held
      simp [held]
    have done := exact _ inHand first
    apply done.perm
    have last := (new.symm.append_right s.hands).append_right rest
    simp only [List.append_assoc] at last ⊢
    exact last

/-- An announce is a further reference in the record that it goes into, and old ones are given back.
The record must be found by its address, so that no other one is written for it. -/
theorem counted_insert (now : Int) {fc : ForeignClock} {m : Stored} (addressed : Addressed s)
    (member : fc ∈ (s.ports p).foreignMasters) (held : m.cell ∈ s.hands)
    (counted : MessagesCounted s) :
    MessagesCounted (((fcInsert m (fcPrune now fc s).1 (fcPrune now fc s).2).2).withPort p
      (Port.withForeign (fcInsert m (fcPrune now fc s).1 (fcPrune now fc s).2).1)) := by
  have exact (rest : List Nat) (inHand : ∀ cell ∈ s.hands, cell ∈ rest)
      (before : Exact s.msgs (fc.cells ++ rest)) :=
    exact_insert now fc m s (inHand _ held) before
  obtain ⟨msgs, same⟩ := fcPrune_state now fc s
  unfold fcInsert at exact ⊢
  rw [same] at exact ⊢
  have done : MessagesCounted (({ s with msgs := msgs.get m.cell } : ClockState).withPort p
      (Port.withForeign ((fcPrune now fc s).1.insert m))) :=
    counted_withForeign addressed member (fcPrune_id now fc s) exact counted
  exact done

/-- A new record keeps no announce yet. -/
theorem counted_newForeignMaster (m : PtpMessage) (counted : MessagesCounted s) :
    MessagesCounted (newForeignMaster p m s) := by
  refine counted.congr (fun q => ?_) rfl rfl
  unfold newForeignMaster
  dsimp only
  by_cases here : q = p
  · subst here
    rw [withPort_same]
    rfl
  · rw [withPort_other here]

/-- An announce of a source: a new record is made without it, or it goes into the record there is. -/
theorem counted_addForeignMaster {m : Stored} (addressed : Addressed s) (held : m.cell ∈ s.hands)
    (counted : MessagesCounted s) : MessagesCounted (addForeignMaster a p m s).2 := by
  unfold addForeignMaster
  split
  next => exact counted_newForeignMaster m.msg counted
  next fc found =>
    exact counted_insert (a.pruned fc.id) addressed (List.mem_of_find?_eq_some found) held counted

/-- The record of the best foreign master is in the list. -/
theorem bestForeign_mem {port : Port} {fc : ForeignClock} (found : port.bestForeign = some fc) :
    fc ∈ port.foreignMasters := by
  unfold Port.bestForeign at found
  cases best : port.best with
  | none =>
    rw [best] at found
    cases found
  | some id =>
    rw [best] at found
    exact List.mem_of_find?_eq_some found

/-- An announce of the best master. -/
theorem counted_updateCurrentMaster {m : Stored} (addressed : Addressed s)
    (held : m.cell ∈ s.hands) (counted : MessagesCounted s) :
    MessagesCounted (updateCurrentMaster c a p m s).2 := by
  unfold updateCurrentMaster
  split
  next => exact counted.congr (fun _ => rfl) rfl rfl
  next fc found =>
    split
    · exact counted_addForeignMaster addressed held counted
    · dsimp only
      generalize began : setTmo p .announceTimer _ = t
      have ports (q : Nat) : ∃ running, t.ports q = { s.ports q with running := running } := by
        rw [← began]
        unfold setTmo ClockState.withRunning
        by_cases here : q = p
        · subst here
          rw [withPort_same]
          split <;> split <;> exact ⟨_, rfl⟩
        · rw [withPort_other here]
          split <;> split <;> exact ⟨_, rfl⟩
      have still : MessagesCounted t ∧ Addressed t ∧ t.hands = s.hands := by
        have hands : t.hands = s.hands ∧ t.msgs = s.msgs ∧ t.nextForeign = s.nextForeign := by
          rw [← began]
          split <;> split <;> exact ⟨rfl, rfl, rfl⟩
        refine ⟨counted.congr (fun q => ?_) hands.2.1 hands.1,
          addressed.congr (fun q => ?_) hands.2.2, hands.1⟩
        · obtain ⟨_, same⟩ := ports q
          rw [same]
          rfl
        · obtain ⟨_, same⟩ := ports q
          rw [same]
          rfl
      have member : fc ∈ (t.ports p).foreignMasters := by
        obtain ⟨_, same⟩ := ports p
        rw [same]
        exact bestForeign_mem found
      exact counted_insert (a.pruned fc.id) still.2.1 member (still.2.2 ▸ held) still.1

/-- An announce is handled. -/
theorem counted_processAnnounce {m : Stored} (addressed : Addressed s) (held : m.cell ∈ s.hands)
    (counted : MessagesCounted s) : MessagesCounted (processAnnounce c a p m s).2 := by
  rw [processAnnounce_eq]
  split
  · have recorded : MessagesCounted (recordAnnounce c a p m s).2 := by
      unfold recordAnnounce
      split
      · exact counted_updateCurrentMaster addressed held counted
      · exact counted_addForeignMaster addressed held counted
    exact recorded.congr (fun _ => rfl) rfl rfl
  · exact counted

/-- The announces of the best record are given back. -/
theorem counted_clearBest (addressed : Addressed s) (counted : MessagesCounted s) :
    MessagesCounted (clearBest p s) := by
  unfold clearBest
  split
  next => exact counted
  next fc found =>
    have exact (rest : List Nat) (_ : ∀ cell ∈ s.hands, cell ∈ rest)
        (before : Exact s.msgs (fc.cells ++ rest)) :
        Exact (fcClear fc s).2.msgs ((fcClear fc s).1.cells ++ rest) :=
      exact_fcDropLast _ fc s before
    have same : (fcClear fc s).1.id = fc.id := by
      rw [fcClear_record]
      rfl
    obtain ⟨msgs, state⟩ := fcClear_state fc s
    dsimp only
    rw [state] at exact ⊢
    exact counted_withForeign addressed (bestForeign_mem found) same exact counted

/-- The announces of all records are given back with the records. -/
theorem counted_abandon (counted : MessagesCounted s) : MessagesCounted (abandon p s) := by
  obtain ⟨msgs, same⟩ := abandon_state p s
  have freed : (abandon p s).msgs = ((s.ports p).foreignMasters.foldl
      (fun s fc => (fcClear fc s).2) (s.withPort p fun port => { port with best := none })).msgs := by
    unfold abandon freeForeignMasters
    rw [withPort_same]
    rfl
  apply counted.at p
  · intro q differ
    rw [same]
    dsimp only
    rw [Function.update_of_ne differ]
  · intro rest whole
    have ports : (abandon p s).ports p = { s.ports p with foreignMasters := [], best := none } := by
      rw [same]
      exact Function.update_self ..
    have hands : (abandon p s).hands = s.hands := by rw [same]
    rw [ports, hands, freed]
    have last : ({ s.ports p with foreignMasters := [], best := none } : Port).lastCells =
        (s.ports p).lastCells := rfl
    apply exact_freeRecords
    apply whole.perm
    rw [List.perm_iff_count]
    intro cell
    simp only [Port.holdings, last, List.flatMap_nil, List.append_nil, List.count_append]
    omega

/-- An effect keeps the counts if no message of a pair is put twice. -/
theorem Effect.counted (effect : Effect c a g s t) (once : ∀ q, ¬g.slips q)
    (addressed : Addressed s) (counted : MessagesCounted s) : MessagesCounted t := by
  cases effect with
  | idle asked running sde => exact counted.congr (fun _ => rfl) rfl rfl
  | scratch msg =>
    exact counted_release List.mem_cons_self (counted_obtain msg counted)
  | obtain msg => exact counted_obtain msg counted
  | release cell held => exact counted_release held counted
  | amend cell msg => exact counted.aside (fun _ => rfl) fun _ exact => exact.modify cell fun _ => msg
  | putLast p there =>
    rcases there with there | slip
    · exact counted_putLast there counted
    · exact absurd slip (once p)
  | keepLast p kind m held free follows source kinds =>
    apply counted_keepLast held free _ counted
    rcases kinds with ⟨rfl, _⟩ | ⟨rfl, _⟩ <;> nofun
  | dropDelayReq p m there => exact counted_dropDelayReq there counted
  | keepDelayReq p m held => exact counted_keepDelayReq held counted
  | dropPeerDelay slot p => exact counted_dropPeerDelay slot counted
  | handPeerDelay p m held free peers => exact counted_handPeerDelay held free counted
  | keepPeerDelay slot p m held free kind => exact counted_keepPeerDelay held free counted
  | announce m held received type meets => exact counted_processAnnounce addressed held counted
  | clearBest => exact counted_clearBest addressed counted
  | abandon p fault => exact counted_abandon counted
  | become p | detectPeer p | faultType p => exact counted_withPort rfl counted
  | link status => exact counted_withPort rfl counted
  | synchronize ingress origin t1From t2From follows sources meets =>
    obtain ⟨_, _, _, _, _, same⟩ := timed_clockSynchronize (c := c) (a := a) (s := s) g.here ingress
      origin t1From t2From
    rw [same]
    exact counted.congr (fun _ => rfl) rfl rfl
  | pathDelay req rx source follows parent =>
    obtain ⟨_, _, _, _, _, same⟩ := timed_clockPathDelay (s := s) g.here req rx source
    rw [same]
    exact counted.congr (fun _ => rfl) rfl rfl
  | setting setting uds => cases setting <;> exact counted.congr (fun _ => rfl) rfl rfl
  | _ => exact counted.congr (fun _ => rfl) rfl rfl

end Effects

/-! ## Steps -/

/-- A descriptor delivers a message that completes a pair on a SLAVE, which loses its
synchronisation over it. -/
def losesPair (c : Clock) (a : Answers) (p : Nat) (fd : Descriptor) (s : ClockState) : Bool :=
  match (delivered c a p fd s).bind fun m => pairOf c p m s with
  | none => false
  | some (sync, fup) =>
    (s.ports p).state = .slave && c.type ≠ .p2p && pairServo c a sync fup s ≠ .locked

/-- A step of a run in which every message of a pair is put once. -/
def KeepsPair (c : Clock) (s : PollState) : PollStep → Prop
  | .descriptor p fd a => s.faulted = false → losesPair c a p fd s.clock = false
  | _ => True

instance (c : Clock) (s : PollState) (step : PollStep) : Decidable (KeepsPair c s step) := by
  unfold KeepsPair
  cases step <;> infer_instance

section Steps

variable {c : Clock} {a : Answers} {s t : ClockState}

/-- Guards under which every message of a pair is put once, if at most the supplied message is
delivered. -/
def Guards.once (before : ClockState) (here : Nat) (msg : Option PtpMessage) : Guards where
  before := before
  here := here
  faults _ := True
  follows q := q ≠ 0
  takes _ := True
  slips _ := False
  delivers m := msg = some m

/-- What is preserved along with the counts. -/
structure Tidy (s : ClockState) : Prop where
  counted : MessagesCounted s
  addressed : Addressed s
  hands : s.hands = []
  uds : (s.ports 0).state.tracks = false

/-- The effects of one step, in which no half of a pair is given back twice. -/
theorem Works.tidy {b : ClockState} {p : Nat} {msg : Option PtpMessage}
    (work : Works c a (Guards.once b p msg) s t) (tidy : Tidy s) : Tidy t := by
  have kept : MessagesCounted t ∧ Addressed t ∧ (t.ports 0).state.tracks = false := by
    apply work.effects.keeps (And.intro tidy.counted (And.intro tidy.addressed tidy.uds))
    rintro s t effect ⟨counted, addressed, uds⟩
    refine ⟨effect.counted (fun _ => id) addressed counted, effect.addressed addressed, ?_⟩
    by_contra tracks
    rcases effect.tracks (by simpa using tracks) with before | apart
    · rw [uds] at before
      cases before
    · exact apart rfl
  exact ⟨kept.1, kept.2.1, work.hands.trans tidy.hands, kept.2.2⟩

/-- A change of the clock that concerns no message. -/
theorem Tidy.congr (tidy : Tidy s) (same : ∀ q, ∃ faultArmed,
    t.ports q = { s.ports q with faultArmed := faultArmed }) (msgs : t.msgs = s.msgs)
    (hands : t.hands = s.hands) (next : t.nextForeign = s.nextForeign) : Tidy t where
  counted := by
    refine tidy.counted.congr (fun q => ?_) msgs hands
    obtain ⟨_, here⟩ := same q
    rw [here]
    rfl
  addressed := by
    refine tidy.addressed.congr (fun q => ?_) next
    obtain ⟨_, here⟩ := same q
    rw [here]
    rfl
  hands := hands.trans tidy.hands
  uds := by
    obtain ⟨_, here⟩ := same 0
    rw [here]
    exact tidy.uds

/-- A fault timer is set. -/
theorem Tidy.armFault (tidy : Tidy s) (p : Nat) : Tidy (armFault c p s) :=
  tidy.congr (fun q => armFault_port p q s) rfl rfl rfl

/-- A fault timer is stopped. -/
theorem Tidy.disarmFault (tidy : Tidy s) (p : Nat) : Tidy (disarmFault p s) :=
  tidy.congr (fun q => disarmFault_port p q s) rfl rfl rfl

/-- The message that is delivered is put twice only if it loses its pair. -/
theorem once_slips {p : Nat} {fd : Descriptor} (keeps : losesPair c a p fd s = false)
    (msg : PtpMessage) (delivers : delivered c a p fd s = some msg) (sync fup : PtpMessage)
    (pair : pairOf c p msg s = some (sync, fup)) (slave : (s.ports p).state = .slave)
    (type : c.type ≠ .p2p) (servo : pairServo c a sync fup s ≠ .locked) : False := by
  unfold losesPair at keeps
  rw [delivers, Option.bind_some, pair] at keeps
  simp [slave, type, servo] at keeps

/-- A descriptor: what it obtains it gives back, if it does not lose a pair. -/
theorem handleDescriptor_tidy {p : Nat} {fd : Descriptor} (tidy : Tidy s)
    (keeps : losesPair c a p fd s = false) : Tidy (handleDescriptor c a p fd s) := by
  have allows : AllowsStep c a (Guards.once s p (delivered c a p fd s)) fd := by
    refine ⟨⟨⟨?switches, ?egress, ?monitor, once_slips keeps⟩, fun _ _ _ _ => trivial,
      fun _ => id⟩, ?faulted, fun _ _ => trivial⟩
    all_goals
      intros
      trivial
  have work : Works c a (Guards.once s p (delivered c a p fd s)) s
      (handleDescriptor c a p fd s) := handleDescriptor_works allows rfl
  exact work.tidy tidy

/-- A port is initialised again. -/
theorem handleFaultTimer_tidy (p : Nat) (tidy : Tidy s) : Tidy (handleFaultTimer c a p s) := by
  have work : Works c a (Guards.once (disarmFault p s) p none) (disarmFault p s)
      (handleFaultTimer c a p s) := handleFaultTimer_works rfl fun _ _ => trivial
  exact work.tidy (tidy.disarmFault p)

/-- No pair is completed on the UDS port. -/
theorem handleUds_tidy (fd : Descriptor) (tidy : Tidy s) : Tidy (handleUds c a fd s) := by
  have allows : AllowsDescriptor c a (Guards.once s 0 (delivered c a 0 fd s)) fd := by
    refine ⟨⟨?switches, ?egress, ?monitor, ?slips⟩, fun _ _ _ _ => trivial, fun _ => id⟩
    case slips =>
      intro msg _ sync fup _ slave
      have idle := tidy.uds
      rw [show (s.ports 0).state = .slave from slave] at idle
      cases idle
    all_goals
      intros
      trivial
  have work : Works c a (Guards.once s 0 (delivered c a 0 fd s)) s (handleUds c a fd s) :=
    handleUds_works allows rfl rfl
  exact work.tidy tidy

/-- What the election drops is put. -/
theorem counted_portComputeBest (p : Nat) (counted : MessagesCounted s) :
    MessagesCounted (portComputeBest c a p s).2 := by
  unfold portComputeBest
  split
  · dsimp only
    refine counted_withPort ?_ counted
    rfl
  · have considered {rest : List Nat} := @exact_considerAll c a rest p none
      (s.ports p).foreignMasters s
    obtain ⟨msgs, state⟩ := considerAll_state c a p none (s.ports p).foreignMasters s
    dsimp only
    generalize considerAll c a p none (s.ports p).foreignMasters s = done at considered state ⊢
    rw [state] at considered ⊢
    apply counted.at p
    · intro q differ
      rw [withPort_other differ]
    · intro rest whole
      rw [withPort_same]
      unfold Port.holdings at whole
      rw [List.append_assoc, List.append_assoc] at whole
      have swapped := considered (whole.perm (List.perm_append_comm_assoc ..))
      have done := swapped.perm (List.perm_append_comm_assoc ..)
      rw [← List.append_assoc, ← List.append_assoc] at done
      exact done

/-- The ports are asked for their best masters, one after the other. -/
theorem counted_electFrom (list : List Nat) (best : Option Best) (counted : MessagesCounted s) :
    MessagesCounted (electFrom c a list best s).2 := by
  induction list generalizing best s with
  | nil => exact counted
  | cons p rest inductionHypothesis =>
    rw [electFrom_cons]
    exact inductionHypothesis _ (counted_portComputeBest p counted)

/-- The choice of the best master gives old announces back. -/
theorem decided_tidy (tidy : Tidy s) : Tidy (decided c a s).2 := by
  obtain ⟨_, _, _, _, _, _, _, each, state⟩ := decided_state (c := c) (a := a) s
  have counted : MessagesCounted (decided c a s).2 := by
    have elected := counted_electFrom (c := c) (a := a) c.ports none tidy.counted
    unfold decided
    rw [adoptBest_eq]
    exact elected.congr (fun _ => rfl) rfl rfl
  refine ⟨counted, decided_addressed s tidy.addressed, ?_, ?_⟩
  · rw [state]
    exact tidy.hands
  · obtain ⟨_, _, here⟩ := each 0
    rw [state]
    dsimp only
    rw [here]
    exact tidy.uds

/-- What is recommended to a port of the clock. -/
theorem recommend_tidy {freshBest : Bool} {p : Nat} (mine : p ∈ c.ports) (tidy : Tidy s) :
    Tidy (recommend c a freshBest s p) := by
  obtain ⟨_, _, _, _, _, _, same⟩ := informed_state (c := c) (bmcStateDecision c p s) s
  have work : Works c a (Guards.once s p none) (informed c (bmcStateDecision c p s) s)
      (recommend c a freshBest s p) := by
    apply recommend_works
    · exact fun _ _ => trivial
    · rintro _ rfl
      exact zero_not_mem_ports c mine
    · exact fun _ _ => trivial
  apply work.tidy
  rw [same]
  exact tidy.congr (fun q => ⟨(s.ports q).faultArmed, rfl⟩) rfl rfl rfl

/-- One step of the loop, by its kind. -/
theorem pollStep_tidy {s : PollState} {step : PollStep} (working : Working c s.clock)
    (tidy : Tidy s.clock) (keeps : KeepsPair c s step) : Tidy (pollStep c s step).clock := by
  cases step with
  | enter p => exact tidy
  | descriptor p fd a =>
    apply pollStep_descriptor Tidy tidy
    · exact fun busy => handleDescriptor_tidy tidy (keeps busy)
    · exact fun t tidy => tidy.armFault p
  | faultTimer p a => exact handleFaultTimer_tidy p tidy
  | uds fd a => exact handleUds_tidy fd tidy
  | decide a =>
    change Tidy (handleDecision c a s.clock)
    unfold handleDecision
    split
    · have done := (recommendations_keep (a := a) working (decided_tidy tidy)
        fun p mine t _ tidy => recommend_tidy mine tidy).2
      exact done.congr (fun q => ⟨_, rfl⟩) rfl rfl rfl
    · exact tidy

/-- The ports are initialised. -/
theorem clockStart_tidy (tidy : Tidy s) : Tidy (clockStart c a s) := by
  unfold clockStart
  generalize c.ports ++ [0] = list
  induction list generalizing s with
  | nil => exact tidy
  | cons p rest inductionHypothesis =>
    apply inductionHypothesis
    have work : Works c a (Guards.once s p none) s
        (portDispatch c a p .initializeEvent false s) :=
      portDispatch_works _ _ _ _ _ _ nofun (fun _ => trivial) nofun (fun _ _ _ => trivial)
    exact work.tidy tidy

/-- A new clock keeps no message. -/
theorem clockOpen_tidy (c : Clock) (dds : DefaultDataSet) (utcOffset : Int) (timeSource : UInt8)
    (realtime : Bool) : Tidy (clockOpen c dds utcOffset timeSource realtime) := by
  have nothing (p : Nat) : (portOpen c p).holdings = [] := rfl
  constructor
  · exact ⟨0, fun p _ => nothing p, exact_empty _⟩
  · constructor
    · exact fun _ => List.nodup_nil
    · exact fun _ _ member => absurd member List.not_mem_nil
  · rfl
  · rfl

end Steps

/-! ## Runs -/

/-- A clock that knows the delay to its master from the beginning. -/
def steadyClock : Clock := { smallClock with initialDelay := 1 }

/-- One message of a pair, from the first port of a clock of the supplied number. -/
def pairMessage (type : MsgType) (number : UInt8) (sequenceId : UInt16) : PtpMessage :=
  { PtpMessage.blank with
    type := type
    flags := twoStep
    sourcePortIdentity := ⟨Vector.replicate 8 number, 1⟩
    sequenceId := sequenceId
    pdu := 500
    hwts := 1000 }

/-- A poll in which a Sync and its Follow_Up arrive at the first port. -/
def pairPoll (sequenceId : UInt16) (servo : ServoState) : Poll :=
  pollOf 1 [arrival (pairMessage .sync 5 sequenceId),
    ⟨.general, { received := .message (pairMessage .followUp 5 sequenceId), servo := servo }⟩]

end LinuxPtp
