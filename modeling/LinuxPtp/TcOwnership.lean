import LinuxPtp.FrameBounds

/-!
# Who owns a descriptor

Between two events every descriptor of a transparent clock is in the pool or in one
queue. Completing a pair of Sync and Follow_Up breaks this if sending fails: the
fault flushes the queue, and the descriptor is then removed and released again.
-/

namespace LinuxPtp

open Octets RefPool Runs

/-- Every descriptor is in the pool or in one queue, exactly once; the references of
the messages are those of the queued descriptors; and no descriptor was removed from
a queue that did not hold it. -/
structure DescriptorsOwned (c : TcClock) (s : TcState) : Prop where
  owned : (s.tcPool ++ (queue c s).map TcTxd.id).Perm (List.range s.nextTxd)
  referenced : Exact s.msgs ((queue c s).map TcTxd.msg)
  onRails : s.derailed = false

/-- What completes a pair of Sync and Follow_Up is sent. -/
def TcCompletes (c : TcClock) (s : TcState) : TcEvent → Prop
  | .receive r => TcForwards c s r → Sure r.oracle r.wire ∧
      (msgType r.wire = some .sync → oneStep c r.wire = true →
        ∀ p, r.again.completes p = true)
  | _ => True

theorem anything_tame : Tame (fun _ => True) (fun _ => True) := by
  constructor <;> intros <;> trivial

theorem completes_step {c : TcClock} (s : TcState) (event : TcEvent)
    (queued : Queued c (fun _ => True) (fun _ => True) [] s) (completes : TcCompletes c s event) :
    Queued c (fun _ => True) (fun _ => True) [] (tcStep c s event) := by
  cases event with
  | receive r =>
    refine queued.receive anything_tame fun forwards => ?_
    obtain ⟨sure, again⟩ := completes forwards
    exact ⟨trivial, sure, fun sync single => ⟨trivial, again sync single⟩⟩
  | prune p now => exact queued.prune p now
  | flush p => exact queued.flush p
  | ports state peerDelay =>
    exact queued.frame rfl ⟨rfl, rfl⟩ (fun _ => rfl) rfl queued.outputs

theorem completes_run {c : TcClock} {events : List TcEvent}
    (along : Along (tcStep c) (TcCompletes c) TcState.start events) :
    Queued c (fun _ => True) (fun _ => True) [] (tcRun c TcState.start events) :=
  along.keeps (start_queued _ _) completes_step

/-- In a run in which every pair is sent when it completes, descriptors are owned
exactly once.

Proof: taking a descriptor from the pool, putting it on a queue and taking it off again each keep
every descriptor in one place. Only a completion that fails to send puts the descriptor back and
leaves it on its queue, and the condition on the steps leaves that out. -/
theorem descriptors_owned (c : TcClock) (events : List TcEvent)
    (along : Along (tcStep c) (TcCompletes c) TcState.start events) :
    DescriptorsOwned c (tcRun c TcState.start events) :=
  have queued := completes_run along
  ⟨queued.owned, queued.exact, queued.onRails⟩

/-- A Follow_Up for `syncAt`, sent on with the supplied success. -/
def followUpAt (success : Bool) : TcReception :=
  let octets : List UInt8 := [8, 2, 0, 44]
  let oracle := { smooth 9 with completes := fun _ => success }
  { syncAt 0 with wire := bufferOf (octets ++ List.replicate 40 0), oracle := oracle }

/-- The first port follows a master, the second is one. -/
def bridging : TcEvent := .ports (fun p => if p = 1 then .slave else .master) fun _ => 0

/-- If the Follow_Up cannot be sent, the descriptor of its Sync is released twice. -/
theorem failedFollowUp_released : ¬ DescriptorsOwned (twoPorts .little)
    (tcRun (twoPorts .little) TcState.start
      [bridging, .receive (syncAt 2), .receive (followUpAt false)]) := by
  intro owned
  have derailed : (tcRun (twoPorts .little) TcState.start
      [bridging, .receive (syncAt 2), .receive (followUpAt false)]).derailed = true := by decide
  rw [owned.onRails] at derailed
  cases derailed

theorem descriptors_owned_pair : DescriptorsOwned (twoPorts .little)
    (tcRun (twoPorts .little) TcState.start
      [bridging, .receive (syncAt 2), .receive (followUpAt true)]) := by
  refine descriptors_owned _ _ ⟨trivial, fun _ => ⟨fun _ _ => rfl, ?_⟩, fun _ => ⟨fun _ _ => rfl, ?_⟩,
    trivial⟩
  · exact fun _ single => absurd single (by decide)
  · exact fun sync => absurd sync (by decide)

end LinuxPtp
