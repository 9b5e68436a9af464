import LinuxPtp.SharedGroups
import LinuxPtp.Timemaster

/-!
# The plan of a script

Which interfaces go together in a command, and whether with their PHC, is a plan that depends on the
sources and on what the system reports. The script is the plan carried out.
-/

namespace LinuxPtp.Timemaster

open SharedGroups

/-- A command with `ptp4l` to come. -/
structure Instance where
  place : Nat
  source : PtpDomain
  /-- The PHC of all interfaces, for time stamps in hardware. -/
  phc : Option Int
  interfaces : List CText

/-- The PHC of an interface with time stamps in hardware. -/
def System.hwPhc (system : System) (interface : CText) : Option Int :=
  match system.tsInfo interface with
  | none => none
  | some info => if info.hardware then some info.phcIndex else none

/-- The PHC of an interface, where no earlier source has it. -/
def System.freePhc (system : System) (allocatedPhcs : List Int) (interface : CText) : Option Int :=
  (system.hwPhc interface).filter fun phc => 0 ≤ phc ∧ phc ∉ allocatedPhcs

/-- The number of the PHC is the one that marks a used interface. -/
def System.ignored (system : System) (interface : CText) : Bool :=
  system.hwPhc interface = some (-2)

/-- The part of the plan for a source. -/
def instances (system : System) (allocatedPhcs : List Int) (place : Nat) (source : PtpDomain) :
    List Instance :=
  (groups (system.freePhc allocatedPhcs) (source.interfaces.filter (!system.ignored ·))).map
    fun group => ⟨place, source, group.key, group.members⟩

/-- The PHCs of some commands. -/
def taken (planned : List Instance) : List Int := planned.filterMap Instance.phc

/-- The plan for the sources from a place on. -/
def plan (system : System) : Nat → List Source → List Int → List Instance
  | _, [], _ => []
  | place, .ntpServer _ :: rest, allocatedPhcs => plan system (place + 1) rest allocatedPhcs
  | place, .ptpDomain source :: rest, allocatedPhcs =>
    let own := instances system allocatedPhcs place source
    own ++ plan system (place + 1) rest (allocatedPhcs ++ taken own)

/-- A command of the plan is put into the script. -/
def carryOut (config : TimemasterConfig) (s : Progress) (planned : Instance) : Progress :=
  addCommands config planned.place planned.source planned.phc.isSome planned.interfaces
    { s with allocatedPhcs := s.allocatedPhcs ++ planned.phc.toList }

/-! ## The plan -/

section Plan

variable {system : System} {allocatedPhcs : List Int} {interface : CText} {place : Nat}
  {source : PtpDomain} {planned : Instance} {phc : Int}

theorem freePhc_eq_some : system.freePhc allocatedPhcs interface = some phc ↔
    system.hwPhc interface = some phc ∧ 0 ≤ phc ∧ phc ∉ allocatedPhcs := by
  simp [System.freePhc, Option.filter_eq_some_iff]

theorem mem_taken {plan : List Instance} : phc ∈ taken plan ↔
    ∃ planned ∈ plan, planned.phc = some phc :=
  List.mem_filterMap

theorem taken_append (first second : List Instance) :
    taken (first ++ second) = taken first ++ taken second :=
  List.filterMap_append

/-- The interfaces of a command are some of its source, and those that need its PHC. -/
theorem mem_instances (found : planned ∈ instances system allocatedPhcs place source) :
    planned.place = place ∧ planned.interfaces ≠ [] ∧ ∀ interface ∈ planned.interfaces,
      interface ∈ source.interfaces ∧ system.ignored interface = false ∧
        system.freePhc allocatedPhcs interface = planned.phc := by
  obtain ⟨group, among, rfl⟩ := List.mem_map.mp found
  obtain ⟨populated, same⟩ := groups_uniform _ _ group among
  refine ⟨rfl, populated, fun interface inside => ?_⟩
  have whole := (groups_perm (system.freePhc allocatedPhcs) _).mem_iff.mp
    (List.mem_flatMap.mpr ⟨group, among, inside⟩)
  obtain ⟨ofSource, visible⟩ := List.mem_filter.mp whole
  exact ⟨ofSource, by simpa using visible, same interface inside⟩

/-- Every interface of a source that is not ignored is in a command. -/
theorem instances_perm (system : System) (allocatedPhcs : List Int) (place : Nat)
    (source : PtpDomain) :
    ((instances system allocatedPhcs place source).flatMap Instance.interfaces).Perm
      (source.interfaces.filter (!system.ignored ·)) := by
  rw [instances, List.flatMap_map]
  exact groups_perm _ _

/-- The commands of a source have different PHCs. -/
theorem instances_apart (system : System) (allocatedPhcs : List Int) (place : Nat)
    (source : PtpDomain) :
    (instances system allocatedPhcs place source).Pairwise fun first second =>
      first.phc = none ∨ first.phc ≠ second.phc := by
  rw [instances, List.pairwise_map]
  exact groups_apart _ _

/-- The PHCs that are taken for a source are the free ones of its interfaces. -/
theorem taken_instances (system : System) (allocatedPhcs : List Int) (place : Nat)
    (source : PtpDomain) (phc : Int) : phc ∈ taken (instances system allocatedPhcs place source) ↔
    ∃ interface ∈ source.interfaces, system.freePhc allocatedPhcs interface = some phc := by
  constructor
  · intro found
    obtain ⟨planned, among, has⟩ := mem_taken.mp found
    obtain ⟨-, populated, interfaces⟩ := mem_instances among
    obtain ⟨interface, inside⟩ := List.exists_mem_of_ne_nil _ populated
    obtain ⟨ofSource, -, free⟩ := interfaces interface inside
    exact ⟨interface, ofSource, free.trans has⟩
  · rintro ⟨interface, ofSource, free⟩
    obtain ⟨hardware, valid, -⟩ := freePhc_eq_some.mp free
    have visible : interface ∈ source.interfaces.filter (!system.ignored ·) := by
      refine List.mem_filter.mpr ⟨ofSource, ?_⟩
      have other : phc ≠ -2 := by omega
      simp [System.ignored, hardware, other]
    obtain ⟨group, found, -, key⟩ := group_of_member (system.freePhc allocatedPhcs) visible
    exact mem_taken.mpr ⟨_, List.mem_map_of_mem found, key.trans free⟩

end Plan

/-! ## One source -/

variable {system : System} {config : TimemasterConfig} {allocatedPhcs : List Int}
  {interface : CText} {place : Nat} {source : PtpDomain} {s : Progress}

/-- The PHC for which the interfaces are merged. -/
def merging (phcOf : CText → Int) (interface : CText) : Option Int :=
  if 0 ≤ phcOf interface then some (phcOf interface) else none

theorem zip_map_filter (rest : List CText) (phcOf : CText → Int) (phc : Int) :
    ((rest.zip (rest.map phcOf)).filter (·.2 = phc)).map Prod.fst =
      rest.filter (phcOf · = phc) := by
  induction rest with
  | nil => rfl
  | cons interface rest inductionHypothesis =>
    rw [List.map_cons, List.zip_cons_cons, List.filter_cons, List.filter_cons]
    split
    · rw [List.map_cons, inductionHypothesis]
    · exact inductionHypothesis

section Marks

variable {phcOf : CText → Int} {phc : Int} {rest : List CText}

/-- What the marks say after interfaces were merged for a PHC. -/
def marked (phcOf : CText → Int) (phc : Int) (interface : CText) : Int :=
  if phcOf interface = phc then -2 else phcOf interface

theorem merging_eq_some (valid : 0 ≤ phc) {interface : CText} :
    merging phcOf interface = some phc ↔ phcOf interface = phc := by
  rw [merging]
  split
  next => exact Option.some_inj
  next negative =>
    constructor
    · intro impossible
      cases impossible
    · rintro rfl
      exact absurd valid negative

/-- The merged interfaces are those that share the PHC. -/
theorem merged_sharing (valid : 0 ≤ phc) (rest : List CText) :
    rest.filter (phcOf · = phc) =
      sharing (merging phcOf) phc (rest.filter (phcOf · ≠ -2)) := by
  rw [sharing, List.filter_filter]
  refine List.filter_congr fun interface _ => ?_
  rw [← Bool.decide_and, decide_eq_decide, merging_eq_some valid]
  omega

theorem marked_ne {interface : CText} :
    marked phcOf phc interface ≠ -2 ↔ phcOf interface ≠ phc ∧ phcOf interface ≠ -2 := by
  rw [marked]
  split
  next shared => simp [shared]
  next other => simp [other]

/-- The interfaces without a mark are the others. -/
theorem unmarked_others (valid : 0 ≤ phc) (rest : List CText) :
    groups (merging (marked phcOf phc)) (rest.filter (marked phcOf phc · ≠ -2)) =
      groups (merging phcOf) (others (merging phcOf) phc (rest.filter (phcOf · ≠ -2))) := by
  have same : rest.filter (marked phcOf phc · ≠ -2) =
      others (merging phcOf) phc (rest.filter (phcOf · ≠ -2)) := by
    rw [others, List.filter_filter]
    refine List.filter_congr fun interface _ => ?_
    rw [← Bool.decide_and, decide_eq_decide, marked_ne, ne_eq (merging _ _),
      merging_eq_some valid]
  rw [same]
  refine groups_congr fun interface among => ?_
  have other : phcOf interface ≠ phc :=
    fun shared => (mem_others.mp among).2 ((merging_eq_some valid).mpr shared)
  rw [merging, marked, if_neg other]
  rfl

end Marks

/-- The loop with its marks puts the groups into the script. -/
theorem addInterfaces_groups (config : TimemasterConfig) (place : Nat) (source : PtpDomain)
    (interfaces : List CText) (phcOf : CText → Int) (s : Progress) :
    addInterfaces config place source interfaces (interfaces.map phcOf) s =
      ((groups (merging phcOf) (interfaces.filter (phcOf · ≠ -2))).map
        fun group => ⟨place, source, group.key, group.members⟩).foldl (carryOut config) s := by
  induction interfaces generalizing phcOf s with
  | nil =>
    rw [List.filter_nil, groups_nil]
    rfl
  | cons interface rest inductionHypothesis =>
    rw [List.map_cons, addInterfaces]
    by_cases used : phcOf interface = -2
    · rw [if_pos used, inductionHypothesis, List.filter_cons_of_neg (by simp [used])]
    rw [if_neg used, List.filter_cons_of_pos (by simp [used])]
    by_cases hardware : 0 ≤ phcOf interface
    · have key : merging phcOf interface = some (phcOf interface) := if_pos hardware
      have marks :
          ((rest.map phcOf).map fun other => if other = phcOf interface then -2 else other) =
            rest.map (marked phcOf (phcOf interface)) := List.map_map
      rw [if_pos hardware, groups_cons_some key, List.map_cons, List.foldl_cons, marks,
        inductionHypothesis, zip_map_filter, merged_sharing hardware, unmarked_others hardware]
      rfl
    · have key : merging phcOf interface = none := if_neg hardware
      rw [if_neg hardware, groups_cons_none key, List.map_cons, List.foldl_cons,
        inductionHypothesis]
      simp only [carryOut, Option.toList_none, List.append_nil, Option.isSome_none]

/-- An interface can be used with time stamps in hardware or software. -/
def System.Usable (system : System) (interface : CText) : Prop :=
  ∃ info, system.tsInfo interface = some info ∧ (info.hardware ∨ info.software)

/-- What the first loop finds out about an interface. -/
theorem usablePhc_some {phc : Int} (valid : ∀ allocated ∈ allocatedPhcs, 0 ≤ allocated)
    (usable : usablePhc system allocatedPhcs interface = some phc) :
    system.Usable interface ∧
      (if 0 ≤ phc then some phc else none) = system.freePhc allocatedPhcs interface ∧
      (phc ≠ -2 ↔ system.ignored interface = false) := by
  rw [usablePhc] at usable
  cases reported : system.tsInfo interface with
  | none =>
    rw [reported] at usable
    cases usable
  | some info =>
    simp only [reported] at usable
    simp only [System.Usable, System.freePhc, System.ignored, System.hwPhc, reported]
    cases hardware : info.hardware with
    | false =>
      cases software : info.software with
      | false => simp [hardware, software] at usable
      | true =>
        simp only [hardware, software] at usable
        cases usable
        simp [software]
    | true =>
      by_cases allocated : info.phcIndex ∈ allocatedPhcs
      · have positive := valid info.phcIndex allocated
        have used : info.phcIndex ≠ -2 := by omega
        simp only [hardware, List.contains_iff_mem.mpr allocated] at usable
        cases usable
        simp [hardware, allocated, used, Option.filter]
      · have free : allocatedPhcs.contains info.phcIndex = false := by simpa using allocated
        simp only [hardware, free] at usable
        cases usable
        simp [hardware, allocated, Option.filter]

/-- A list is gone through without failure. -/
theorem mapM_some {f : CText → Option Int} {interfaces : List CText} {phcs : List Int}
    (found : interfaces.mapM f = some phcs) :
    ∃ phcOf : CText → Int, (∀ interface ∈ interfaces, f interface = some (phcOf interface)) ∧
      phcs = interfaces.map phcOf := by
  refine ⟨fun interface => (f interface).getD 0, ?_⟩
  induction interfaces generalizing phcs with
  | nil =>
    cases found
    exact ⟨List.forall_mem_nil _, rfl⟩
  | cons interface rest inductionHypothesis =>
    rw [List.mapM_cons] at found
    cases first : f interface with
    | none =>
      rw [first] at found
      cases found
    | some phc =>
      cases others : rest.mapM f with
      | none =>
        rw [first, others] at found
        cases found
      | some behind =>
        rw [first, others] at found
        cases found
        obtain ⟨all, same⟩ := inductionHypothesis others
        have whole : f interface = some ((f interface).getD 0) := by
          rw [first]
          rfl
        refine ⟨List.forall_mem_cons.mpr ⟨whole, all⟩, ?_⟩
        rw [List.map_cons, first, ← same]
        rfl

/-- A source that can be used puts its part of the plan into the script. -/
theorem addPtpSource_some {after : Progress} (valid : ∀ allocated ∈ s.allocatedPhcs, 0 ≤ allocated)
    (added : addPtpSource system config place source s = some after) :
    (∀ interface ∈ source.interfaces, system.Usable interface) ∧
      after = (instances system s.allocatedPhcs place source).foldl (carryOut config) s := by
  rw [addPtpSource] at added
  cases found : source.interfaces.mapM (usablePhc system s.allocatedPhcs) with
  | none =>
    rw [found] at added
    cases added
  | some phcs =>
    rw [found] at added
    cases added
    obtain ⟨phcOf, usable, rfl⟩ := mapM_some found
    have known := fun interface among => usablePhc_some valid (usable interface among)
    refine ⟨fun interface among => (known interface among).1, ?_⟩
    have unmarked : source.interfaces.filter (phcOf · ≠ -2) =
        source.interfaces.filter (!system.ignored ·) := by
      refine List.filter_congr fun interface among => ?_
      simp only [(known interface among).2.2, Bool.decide_eq_false]
    have same : groups (merging phcOf) (source.interfaces.filter (!system.ignored ·)) =
        groups (system.freePhc s.allocatedPhcs) (source.interfaces.filter (!system.ignored ·)) :=
      groups_congr fun interface among => (known interface (List.mem_filter.mp among).1).2.1
    rw [addInterfaces_groups, unmarked, same]
    rfl

/-! ## The script -/

/-- A command by its source, its time stamps and its interfaces. -/
def Ptp4lCommand.outline (command : Ptp4lCommand) : Nat × Bool × List CText :=
  (command.place, command.hwTs, command.interfaces)

def Instance.outline (planned : Instance) : Nat × Bool × List CText :=
  (planned.place, planned.phc.isSome, planned.interfaces)

section Commands

variable {hwTs : Bool} {interfaces : List CText}

theorem addCommands_ptp4ls :
    (addCommands config place source hwTs interfaces s).script.ptp4ls.map
        Ptp4lCommand.outline =
      s.script.ptp4ls.map Ptp4lCommand.outline ++ [(place, hwTs, interfaces)] := by
  cases hwTs <;> simp [addCommands, addCommand, Script.ptp4ls, Ptp4lCommand.outline]

/-- Either `phc2sys` or `ptp4l` itself writes to the next segment. -/
theorem addCommands_usedSegments :
    (addCommands config place source hwTs interfaces s).script.usedSegments.Perm
      (s.script.usedSegments ++ [s.shmSegment]) := by
  cases hwTs with
  | false =>
    refine .of_eq ?_
    simp [addCommands, addCommand, Script.usedSegments, Command.segment]
  | true =>
    have used : (addCommands config place source true interfaces s).script.usedSegments =
        s.script.commands.filterMap Command.segment ++ [s.shmSegment] ++
          s.script.configs.filterMap Ptp4lFile.ntpshmSegment := by
      simp [addCommands, addCommand, Script.usedSegments, Command.segment, List.filterMap_cons]
    rw [used, List.append_assoc, Script.usedSegments, List.append_assoc]
    exact List.perm_append_comm.append_left _

/-- The line of the reference clock names it. -/
theorem addCommands_referenceClocks :
    (addCommands config place source hwTs interfaces s).script.referenceClocks =
      s.script.referenceClocks ++ [s.shmSegment] := by
  have lines : ∀ script : Script, script.ntpConfig = s.script.ntpConfig →
      (addShmSource s.shmSegment source.ntpPoll source.phc2sysPoll source.delay source.ntpOptions
        (text "PTP") config script.ntpConfig).filterMap NtpLine.segment =
      s.script.referenceClocks ++ [s.shmSegment] := by
    intro script same
    rw [addShmSource, same]
    cases config.ntpProgram <;> rw [List.filterMap_append] <;> rfl
  cases hwTs <;> exact lines _ rfl

end Commands

/-- The numbers of the first shared memory segments. -/
def numbered (config : TimemasterConfig) (count : Nat) : List Int :=
  (List.range count).map fun index : Nat => config.firstShmSegment + index

theorem numbered_succ (config : TimemasterConfig) (count : Nat) :
    numbered config (count + 1) = numbered config count ++ [config.firstShmSegment + count] := by
  rw [numbered, List.range_succ, List.map_append]
  rfl

theorem numbered_nodup (config : TimemasterConfig) (count : Nat) :
    (numbered config count).Nodup := by
  refine List.Nodup.map (fun first second same => ?_) List.nodup_range
  have equal : config.firstShmSegment + first = config.firstShmSegment + second := same
  omega

/-- A script in the making has a part of the plan in it. -/
structure Records (config : TimemasterConfig) (s : Progress) (done : List Instance) : Prop where
  ptp4ls : s.script.ptp4ls.map Ptp4lCommand.outline = done.map Instance.outline
  allocated : s.allocatedPhcs = taken done
  next : s.shmSegment = config.firstShmSegment + done.length
  used : s.script.usedSegments.Perm (numbered config done.length)
  referenceClocks : s.script.referenceClocks = numbered config done.length

variable {done : List Instance}

/-- The empty script. -/
theorem records_start (config : TimemasterConfig) : Records config (addNtpProgram config) [] := by
  have settings : ∀ lines : List CText,
      (lines.map NtpLine.setting).filterMap NtpLine.segment = [] := by
    intro lines
    rw [List.filterMap_map, List.filterMap_eq_nil_iff]
    exact fun _ _ => rfl
  rw [addNtpProgram]
  cases config.ntpProgram <;>
    exact ⟨rfl, rfl, (Int.add_zero _).symm, .refl _, settings _⟩

/-- A server adds no reference clock. -/
theorem Records.server (records : Records config s done) (server : NtpServer) :
    Records config { s with
      script := { s.script with ntpConfig := addNtpSource server s.script.ntpConfig } } done :=
  { records with
    referenceClocks := by
      have lines : (addNtpSource server s.script.ntpConfig).filterMap NtpLine.segment =
          s.script.ntpConfig.filterMap NtpLine.segment := by
        rw [addNtpSource, List.filterMap_append]
        exact List.append_nil _
      exact lines.trans records.referenceClocks }

/-- One more command. -/
theorem Records.carryOut (records : Records config s done) (planned : Instance) :
    Records config (carryOut config s planned) (done ++ [planned]) where
  ptp4ls := by
    rw [Timemaster.carryOut, addCommands_ptp4ls, List.map_append, records.ptp4ls]
    rfl
  allocated := by
    have grown : (Timemaster.carryOut config s planned).allocatedPhcs =
        s.allocatedPhcs ++ planned.phc.toList := rfl
    rw [grown, records.allocated, taken, taken, List.filterMap_append]
    cases planned with
    | mk place source phc interfaces => cases phc <;> rfl
  next := by
    have grown : (Timemaster.carryOut config s planned).shmSegment = s.shmSegment + 1 := rfl
    rw [grown, records.next, List.length_append]
    exact Int.add_assoc ..
  used := by
    rw [List.length_append, List.length_singleton, numbered_succ, ← records.next]
    exact addCommands_usedSegments.trans (records.used.append_right _)
  referenceClocks := by
    rw [List.length_append, List.length_singleton, numbered_succ, ← records.next,
      Timemaster.carryOut, addCommands_referenceClocks]
    exact congrArg (· ++ _) records.referenceClocks

/-- More commands, one after the other. -/
theorem Records.foldl (records : Records config s done) (planned : List Instance) :
    Records config (planned.foldl (Timemaster.carryOut config) s) (done ++ planned) := by
  induction planned generalizing s done with
  | nil =>
    rw [List.append_nil]
    exact records
  | cons first rest inductionHypothesis =>
    have more := inductionHypothesis (records.carryOut first)
    rw [List.append_assoc] at more
    exact more

/-- A script that could be made is the plan, carried out for sources that all can be used. -/
theorem addSources_records (sources : List Source) (place : Nat) (ret : Bool)
    (records : Records config s done) (valid : ∀ phc ∈ taken done, 0 ≤ phc) {after : Progress}
    (made : addSources system config place sources (ret, s) = (false, after)) :
    ret = false ∧
      (∀ source, Source.ptpDomain source ∈ sources →
        ∀ interface ∈ source.interfaces, system.Usable interface) ∧
      Records config after (done ++ plan system place sources (taken done)) := by
  induction sources generalizing place ret s done with
  | nil =>
    cases made
    refine ⟨rfl, (fun _ absent => nomatch absent), ?_⟩
    rw [plan, List.append_nil]
    exact records
  | cons source rest inductionHypothesis =>
    cases source with
    | ntpServer server =>
      obtain ⟨fine, usable, whole⟩ :=
        inductionHypothesis (place + 1) ret (records.server server) valid made
      refine ⟨fine, fun source among => usable source ?_, whole⟩
      cases among with
      | tail _ among => exact among
    | ptpDomain source =>
      rw [addSources] at made
      cases added : addPtpSource system config place source s with
      | none =>
        rw [added] at made
        have failed := (inductionHypothesis (place + 1) true records valid made).1
        cases failed
      | some next =>
        rw [added] at made
        have start : ∀ phc ∈ s.allocatedPhcs, 0 ≤ phc := by
          rw [records.allocated]
          exact valid
        obtain ⟨first, rfl⟩ := addPtpSource_some start added
        have more := records.foldl (instances system s.allocatedPhcs place source)
        rw [records.allocated] at more made
        have valids : ∀ phc ∈ taken (done ++ instances system (taken done) place source),
            0 ≤ phc := by
          intro phc found
          rw [taken_append] at found
          rcases List.mem_append.mp found with before | new
          · exact valid phc before
          · obtain ⟨interface, -, free⟩ := (taken_instances ..).mp new
            exact (freePhc_eq_some.mp free).2.1
        obtain ⟨fine, usable, whole⟩ := inductionHypothesis (place + 1) ret more valids made
        refine ⟨fine, ?_, ?_⟩
        · intro other among
          cases among with
          | head => exact first
          | tail _ among => exact usable other among
        · rw [taken_append, List.append_assoc] at whole
          exact whole

end LinuxPtp.Timemaster
