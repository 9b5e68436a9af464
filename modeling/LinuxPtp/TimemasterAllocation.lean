import LinuxPtp.TimemasterPlan

/-!
# The allocation of PHCs and shared memory segments

No PHC is used by two commands with time stamps in hardware, and no shared memory segment is used
twice. An interface whose PHC is taken by an earlier source falls back to time stamps in software,
whether it has them or not.

Sharing is by process: interfaces of one source that report the same PHC go into one process. That
no two processes have one PHC then only needs that a PHC which is taken is never given again.
-/

namespace LinuxPtp.Timemaster

open SharedGroups

/-- The index of the PHC that is reported for an interface. -/
def System.phcIndex (system : System) (interface : CText) : Option Int :=
  (system.tsInfo interface).map SkTsInfo.phcIndex

/-- An interface supports time stamps in software. -/
def System.Software (system : System) (interface : CText) : Prop :=
  ∃ info, system.tsInfo interface = some info ∧ info.software = true

/-- A script is as it should be. -/
structure Sound (system : System) (config : TimemasterConfig) (script : Script) : Prop where
  /-- Two commands with time stamps in hardware, of one source or of two, use different PHCs. -/
  exclusive : script.ptp4ls.Pairwise fun first second =>
    first.hwTs = true → second.hwTs = true →
      ∀ interface ∈ first.interfaces, ∀ other ∈ second.interfaces,
        system.phcIndex interface ≠ system.phcIndex other
  /-- An interface of a source is in one of its commands. -/
  complete : ∀ place source, config.sources[place]? = some (.ptpDomain source) →
    ∀ interface ∈ source.interfaces,
      (script.ptp4ls.filter (·.place = place)).countP (interface ∈ ·.interfaces) = 1
  /-- A segment is used once, and one reference clock names it. -/
  segments : ∀ segment ∈ script.usedSegments,
    script.usedSegments.count segment = 1 ∧ script.referenceClocks.count segment = 1
  /-- Time stamps in software are supported where they are used. -/
  supported : ∀ command ∈ script.ptp4ls, command.hwTs = false →
    ∀ interface ∈ command.interfaces, system.Software interface

/-- One of some sources has an interface with a PHC. -/
def Shared (system : System) (earlier : List Source) (phc : Int) : Prop :=
  ∃ source, Source.ptpDomain source ∈ earlier ∧
    ∃ interface ∈ source.interfaces, system.hwPhc interface = some phc

/-- Every interface with time stamps in hardware that cannot have its PHC, as its number is negative
or as an earlier source has an interface with it, supports time stamps in software too. No number is
that of the mark for used interfaces. -/
def FallsBack (system : System) (config : TimemasterConfig) : Prop :=
  ∀ front source back, config.sources = front ++ .ptpDomain source :: back →
    ∀ interface ∈ source.interfaces, ∀ phc, system.hwPhc interface = some phc →
      phc ≠ -2 ∧ (phc < 0 ∨ Shared system front phc → system.Software interface)

/-! ## The whole plan -/

variable {system : System} {config : TimemasterConfig} {allocatedPhcs : List Int}
  {interface : CText} {place : Nat} {source : PtpDomain} {phc : Int} {planned : Instance}
  {sources front back : List Source}

theorem place_cons (place : Nat) (first : Source) (front : List Source) :
    place + (first :: front).length = place + 1 + front.length := by
  rw [List.length_cons]
  omega

/-- The plan for sources is one for the first and one for the others. -/
theorem plan_append (system : System) (place : Nat) (front back : List Source)
    (allocatedPhcs : List Int) :
    plan system place (front ++ back) allocatedPhcs =
      plan system place front allocatedPhcs ++ plan system (place + front.length) back
        (allocatedPhcs ++ taken (plan system place front allocatedPhcs)) := by
  induction front generalizing place allocatedPhcs with
  | nil =>
    have nothing : taken [] = [] := rfl
    rw [plan, nothing, List.append_nil]
    rfl
  | cons first front inductionHypothesis =>
    rw [place_cons]
    cases first with
    | ntpServer server => exact inductionHypothesis (place + 1) allocatedPhcs
    | ptpDomain source =>
      rw [List.cons_append, plan, plan, inductionHypothesis, taken_append, List.append_assoc,
        List.append_assoc]

/-- The places of the commands are those of the sources. -/
theorem plan_places (found : planned ∈ plan system place sources allocatedPhcs) :
    place ≤ planned.place ∧ planned.place < place + sources.length := by
  induction sources generalizing place allocatedPhcs with
  | nil => cases found
  | cons first sources inductionHypothesis =>
    rw [List.length_cons]
    cases first with
    | ntpServer server =>
      obtain ⟨least, most⟩ := inductionHypothesis found
      omega
    | ptpDomain source =>
      rcases List.mem_append.mp found with own | later
      · obtain ⟨same, -⟩ := mem_instances own
        omega
      · obtain ⟨least, most⟩ := inductionHypothesis later
        omega

theorem shared_ptpDomain : Shared system (.ptpDomain source :: sources) phc ↔
    (∃ interface ∈ source.interfaces, system.hwPhc interface = some phc) ∨
      Shared system sources phc := by
  constructor
  · rintro ⟨other, among, has⟩
    cases among with
    | head => exact .inl has
    | tail _ among => exact .inr ⟨other, among, has⟩
  · rintro (has | ⟨other, among, has⟩)
    · exact ⟨source, List.mem_cons_self, has⟩
    · exact ⟨other, List.mem_cons_of_mem _ among, has⟩

theorem shared_ntpServer {server : NtpServer} :
    Shared system (.ntpServer server :: sources) phc ↔ Shared system sources phc := by
  constructor
  · rintro ⟨other, among, has⟩
    cases among with
    | tail _ among => exact ⟨other, among, has⟩
  · rintro ⟨other, among, has⟩
    exact ⟨other, List.mem_cons_of_mem _ among, has⟩

/-- A PHC is taken if an interface of a source has it, and if it was not taken before. -/
theorem taken_plan : phc ∈ taken (plan system place sources allocatedPhcs) ↔
    0 ≤ phc ∧ phc ∉ allocatedPhcs ∧ Shared system sources phc := by
  induction sources generalizing place allocatedPhcs with
  | nil =>
    constructor
    · intro found
      cases found
    · rintro ⟨-, -, source, among, -⟩
      cases among
  | cons first sources inductionHypothesis =>
    cases first with
    | ntpServer server =>
      rw [shared_ntpServer, plan]
      exact inductionHypothesis
    | ptpDomain source =>
      rw [shared_ptpDomain, plan, taken_append, List.mem_append, inductionHypothesis,
        List.mem_append]
      have own := taken_instances system allocatedPhcs place source phc
      simp only [freePhc_eq_some] at own
      constructor
      · rintro (new | ⟨valid, unused, later⟩)
        · obtain ⟨interface, ofSource, hardware, valid, unused⟩ := own.mp new
          exact ⟨valid, unused, .inl ⟨interface, ofSource, hardware⟩⟩
        · exact ⟨valid, fun used => unused (.inl used), .inr later⟩
      · rintro ⟨valid, unused, ⟨interface, ofSource, hardware⟩ | later⟩
        · exact .inl (own.mpr ⟨interface, ofSource, hardware, valid, unused⟩)
        · by_cases new : phc ∈ taken (instances system allocatedPhcs place source)
          · exact .inl new
          · exact .inr ⟨valid, (·.elim unused new), later⟩

/-- No PHC is taken for two commands. -/
theorem plan_apart (system : System) (place : Nat) (sources : List Source)
    (allocatedPhcs : List Int) :
    (plan system place sources allocatedPhcs).Pairwise fun first second =>
      first.phc = none ∨ first.phc ≠ second.phc := by
  induction sources generalizing place allocatedPhcs with
  | nil => exact .nil
  | cons first sources inductionHypothesis =>
    cases first with
    | ntpServer server => exact inductionHypothesis (place + 1) allocatedPhcs
    | ptpDomain source =>
      rw [plan]
      refine List.pairwise_append.mpr ⟨instances_apart .., inductionHypothesis _ _, ?_⟩
      intro first own second later
      cases has : first.phc with
      | none => exact .inl rfl
      | some phc =>
        refine .inr fun same => ?_
        have used := mem_taken.mpr ⟨first, own, has⟩
        have unused := (taken_plan.mp (mem_taken.mpr ⟨second, later, same.symm⟩)).2.1
        exact unused (List.mem_append_right _ used)

/-- A command of the plan belongs to a source, and was planned with what the earlier ones took. -/
theorem mem_plan (found : planned ∈ plan system place sources allocatedPhcs) :
    ∃ front source back, sources = front ++ .ptpDomain source :: back ∧
      planned ∈ instances system
        (allocatedPhcs ++ taken (plan system place front allocatedPhcs))
        (place + front.length) source := by
  induction sources generalizing place allocatedPhcs with
  | nil => cases found
  | cons first sources inductionHypothesis =>
    cases first with
    | ntpServer server =>
      obtain ⟨front, source, back, rfl, own⟩ := inductionHypothesis found
      refine ⟨.ntpServer server :: front, source, back, rfl, ?_⟩
      rw [place_cons]
      exact own
    | ptpDomain source =>
      rcases List.mem_append.mp found with own | later
      · refine ⟨[], source, sources, rfl, ?_⟩
        rw [plan, taken, List.filterMap_nil, List.append_nil]
        exact own
      · obtain ⟨front, other, back, rfl, own⟩ := inductionHypothesis later
        refine ⟨.ptpDomain source :: front, other, back, rfl, ?_⟩
        rw [List.append_assoc, ← taken_append] at own
        rw [place_cons]
        exact own

/-! ## The script of a plan -/

variable {script : Script}

/-- A script records the plan for its sources. -/
structure Planned (system : System) (config : TimemasterConfig) (script : Script) : Prop where
  usable : ∀ source, Source.ptpDomain source ∈ config.sources →
    ∀ interface ∈ source.interfaces, system.Usable interface
  ptp4ls : script.ptp4ls.map Ptp4lCommand.outline =
    (plan system 0 config.sources []).map Instance.outline
  used : ∃ count, script.usedSegments.Perm (numbered config count) ∧
    script.referenceClocks = numbered config count

/-- Every script that is made is planned. -/
theorem planned_of_created (created : scriptCreate system config = some script) :
    Planned system config script := by
  rw [scriptCreate] at created
  cases made : addSources system config 0 config.sources (false, addNtpProgram config) with
  | mk ret after =>
    rw [made] at created
    cases ret with
    | true => cases created
    | false =>
      cases created
      obtain ⟨-, usable, records⟩ := addSources_records config.sources 0 false
        (records_start config) (fun phc absent => nomatch absent) made
      exact ⟨usable, records.ptp4ls, _, records.used, records.referenceClocks⟩

/-- A property of the commands is one of the plan. -/
theorem Planned.forall_ptp4ls (planned : Planned system config script)
    (property : Nat × Bool × List CText → Prop) :
    (∀ command ∈ script.ptp4ls, property command.outline) ↔
      ∀ part ∈ plan system 0 config.sources [], property part.outline := by
  have same := congrArg (fun outlines => ∀ outline ∈ outlines, property outline) planned.ptp4ls
  simpa only [List.forall_mem_map] using iff_of_eq same

/-- As many commands as parts of the plan have a property. -/
theorem Planned.countP_ptp4ls (planned : Planned system config script)
    (test : Nat × Bool × List CText → Bool) :
    script.ptp4ls.countP (test ·.outline) =
      (plan system 0 config.sources []).countP (test ·.outline) := by
  have same := congrArg (List.countP test) planned.ptp4ls
  rw [List.countP_map, List.countP_map] at same
  exact same

/-- The segments are numbered one after the other. -/
theorem Planned.segments (planned : Planned system config script) :
    ∀ segment ∈ script.usedSegments,
      script.usedSegments.count segment = 1 ∧ script.referenceClocks.count segment = 1 := by
  obtain ⟨count, used, named⟩ := planned.used
  intro segment among
  have inside := used.mem_iff.mp among
  have once := List.count_eq_one_of_mem (numbered_nodup config count) inside
  exact ⟨(used.count_eq segment).trans once, by rw [named]; exact once⟩

theorem phcIndex_of_hwPhc (hardware : system.hwPhc interface = some phc) :
    system.phcIndex interface = some phc := by
  rw [System.hwPhc] at hardware
  rw [System.phcIndex]
  cases reported : system.tsInfo interface with
  | none =>
    rw [reported] at hardware
    cases hardware
  | some info =>
    simp only [reported] at hardware
    split at hardware
    · exact hardware
    · cases hardware

/-- The interfaces of a command with time stamps in hardware have its PHC. -/
theorem phcIndex_of_plan (found : planned ∈ plan system place sources allocatedPhcs)
    (hardware : planned.phc.isSome = true) (inside : interface ∈ planned.interfaces) :
    system.phcIndex interface = planned.phc := by
  obtain ⟨front, source, back, rfl, own⟩ := mem_plan found
  obtain ⟨-, -, interfaces⟩ := mem_instances own
  obtain ⟨phc, has⟩ := Option.isSome_iff_exists.mp hardware
  have free := (interfaces interface inside).2.2.trans has
  rw [has]
  exact phcIndex_of_hwPhc (freePhc_eq_some.mp free).1

/-- Two commands use different PHCs. -/
def Exclusive (system : System) (first second : Nat × Bool × List CText) : Prop :=
  first.2.1 = true → second.2.1 = true → ∀ interface ∈ first.2.2, ∀ other ∈ second.2.2,
    system.phcIndex interface ≠ system.phcIndex other

/-- The PHCs of the commands with time stamps in hardware are different. -/
theorem Planned.exclusive (planned : Planned system config script) :
    script.ptp4ls.Pairwise fun first second => Exclusive system first.outline second.outline := by
  have apart : ((plan system 0 config.sources []).map Instance.outline).Pairwise
      (Exclusive system) := by
    refine List.pairwise_map.mpr ((plan_apart system 0 config.sources []).imp_of_mem ?_)
    intro first second firstFound secondFound different firstHardware secondHardware interface
      inside other otherInside
    rw [phcIndex_of_plan firstFound firstHardware inside,
      phcIndex_of_plan secondFound secondHardware otherInside]
    refine different.resolve_left fun software => ?_
    rw [Instance.outline, software] at firstHardware
    cases firstHardware
  rw [← planned.ptp4ls, List.pairwise_map] at apart
  exact apart

/-! ## The commands of a source -/

/-- The part of the plan for a source behind some others. -/
def own (system : System) (front : List Source) (source : PtpDomain) : List Instance :=
  instances system (taken (plan system 0 front [])) front.length source

/-- What is planned before a source, for it, and after it. -/
theorem plan_split (system : System) (front back : List Source) (source : PtpDomain) :
    ∃ allocatedPhcs, plan system 0 (front ++ .ptpDomain source :: back) [] =
      plan system 0 front [] ++
        (own system front source ++ plan system (front.length + 1) back allocatedPhcs) := by
  refine ⟨taken (plan system 0 front []) ++ taken (own system front source), ?_⟩
  rw [plan_append, Nat.zero_add, plan]
  rfl

/-- The place tells the part of a source. -/
theorem plan_filter (system : System) (front back : List Source) (source : PtpDomain) :
    (plan system 0 (front ++ .ptpDomain source :: back) []).filter (·.place = front.length) =
      own system front source := by
  obtain ⟨allocatedPhcs, split⟩ := plan_split system front back source
  have before : (plan system 0 front []).filter (·.place = front.length) = [] := by
    refine List.filter_eq_nil_iff.mpr fun planned found => ?_
    have place := (plan_places found).2
    simp only [decide_eq_true_eq]
    omega
  have this : (own system front source).filter (·.place = front.length) =
      own system front source := by
    refine List.filter_eq_self.mpr fun planned found => ?_
    exact decide_eq_true (mem_instances found).1
  have after : (plan system (front.length + 1) back allocatedPhcs).filter
      (·.place = front.length) = [] := by
    refine List.filter_eq_nil_iff.mpr fun planned found => ?_
    have place := (plan_places found).1
    simp only [decide_eq_true_eq]
    omega
  rw [split, List.filter_append, List.filter_append, before, this, after, List.nil_append,
    List.append_nil]

/-- An interface is in one command of its source, or in none if it is ignored. -/
theorem Planned.count (planned : Planned system config script)
    (parts : config.sources = front ++ .ptpDomain source :: back)
    (distinct : source.interfaces.Nodup) (ofSource : interface ∈ source.interfaces) :
    (script.ptp4ls.filter (·.place = front.length)).countP (interface ∈ ·.interfaces) =
      if system.ignored interface then 0 else 1 := by
  have commands := planned.countP_ptp4ls fun outline =>
    decide (interface ∈ outline.2.2) && decide (outline.1 = front.length)
  have both : (script.ptp4ls.filter (·.place = front.length)).countP (interface ∈ ·.interfaces) =
      (own system front source).countP (interface ∈ ·.interfaces) := by
    rw [← plan_filter system front back source, ← parts, List.countP_filter, List.countP_filter]
    exact commands
  rw [both]
  split
  next ignored =>
    refine List.countP_eq_zero.mpr fun planned found inside => ?_
    have visible := ((mem_instances found).2.2 interface (of_decide_eq_true inside)).2.1
    rw [ignored] at visible
    cases visible
  next visible =>
    refine countP_parts (instances_perm ..) (distinct.filter _) ?_
    exact List.mem_filter.mpr ⟨ofSource, by simpa using visible⟩

/-- Where a PHC is not free behind some sources. -/
theorem freePhc_none (hardware : system.hwPhc interface = some phc) :
    system.freePhc (taken (plan system 0 front [])) interface = none ↔
      phc < 0 ∨ Shared system front phc := by
  have valid : 0 ≤ phc ↔ ¬ phc < 0 := by omega
  rw [System.freePhc, hardware, Option.filter_some_eq_none, decide_eq_true_eq, taken_plan, valid]
  have unused : phc ∉ ([] : List Int) := List.not_mem_nil
  tauto

/-- Where an interface of a source has no PHC for itself, it is in a command with time stamps in
software. -/
theorem Planned.software (planned : Planned system config script) :
    (∀ command ∈ script.ptp4ls, command.hwTs = false →
      ∀ interface ∈ command.interfaces, system.Software interface) ↔
    ∀ front source back, config.sources = front ++ .ptpDomain source :: back →
      ∀ interface ∈ source.interfaces, system.ignored interface = false →
        system.freePhc (taken (plan system 0 front [])) interface = none →
          system.Software interface := by
  have commands := planned.forall_ptp4ls fun outline =>
    outline.2.1 = false → ∀ interface ∈ outline.2.2, system.Software interface
  refine Iff.trans commands ?_
  constructor
  · intro supported front source back parts interface ofSource visible fallback
    have among : interface ∈ (own system front source).flatMap Instance.interfaces :=
      (instances_perm ..).mem_iff.mpr (List.mem_filter.mpr ⟨ofSource, by simpa using visible⟩)
    obtain ⟨part, found, inside⟩ := List.mem_flatMap.mp among
    obtain ⟨allocatedPhcs, split⟩ := plan_split system front back source
    have software : part.phc = none :=
      ((mem_instances found).2.2 interface inside).2.2.symm.trans fallback
    refine supported part ?_ ?_ interface inside
    · rw [parts, split]
      exact List.mem_append_right _ (List.mem_append_left _ found)
    · rw [Instance.outline, software]
      rfl
  · intro supported part found software interface inside
    obtain ⟨front, source, back, parts, among⟩ := mem_plan found
    rw [List.nil_append, Nat.zero_add] at among
    obtain ⟨ofSource, visible, free⟩ := (mem_instances among).2.2 interface inside
    exact supported front source back parts interface ofSource visible
      (free.trans (Option.isSome_eq_false_iff.mp software |> Option.isNone_iff_eq_none.mp))

/-- Without time stamps in hardware, an interface that can be used has those in software. -/
theorem software_of_usable (usable : system.Usable interface)
    (software : system.hwPhc interface = none) : system.Software interface := by
  obtain ⟨info, reported, modes⟩ := usable
  rw [System.hwPhc, reported] at software
  refine ⟨info, reported, modes.resolve_left fun hardware => ?_⟩
  simp only [hardware, if_true] at software
  cases software

/-- A source stands at its place between those before and those after it. -/
theorem place_iff {sources : List Source} {place : Nat} {source : Source} :
    sources[place]? = some source ↔
      ∃ front back, sources = front ++ source :: back ∧ front.length = place := by
  constructor
  · intro found
    obtain ⟨inside, rfl⟩ := List.getElem?_eq_some_iff.mp found
    refine ⟨sources.take place, sources.drop (place + 1), ?_, List.length_take_of_le inside.le⟩
    rw [List.getElem_cons_drop, List.take_append_drop]
  · rintro ⟨front, back, rfl, rfl⟩
    rw [List.getElem?_append_right (Nat.le_refl _), Nat.sub_self]
    rfl

/-- Where no interface is twice in a source, a script is as it should be exactly if every interface
that cannot have its PHC supports time stamps in software.

Proof: every interface of a source is in one process, with a PHC of its own or with one that is
shared in that process. What remains is an interface whose PHC was taken by another process: it
falls back to time stamps in software without being asked whether it supports them. -/
theorem sound_iff_fallsBack (created : scriptCreate system config = some script)
    (distinct : ∀ source, Source.ptpDomain source ∈ config.sources → source.interfaces.Nodup) :
    Sound system config script ↔ FallsBack system config := by
  have planned := planned_of_created created
  have ofSources : ∀ {front back source}, config.sources = front ++ .ptpDomain source :: back →
      Source.ptpDomain source ∈ config.sources := by
    intro front back source parts
    rw [parts]
    exact List.mem_append_right _ List.mem_cons_self
  constructor
  · intro sound front source back parts interface ofSource phc hardware
    have visible : system.ignored interface = false := by
      have once := sound.complete front.length source (place_iff.mpr ⟨front, back, parts, rfl⟩)
        interface ofSource
      rw [planned.count parts (distinct source (ofSources parts)) ofSource] at once
      cases ignored : system.ignored interface with
      | false => rfl
      | true =>
        rw [ignored] at once
        cases once
    refine ⟨?_, fun refused => ?_⟩
    · rintro rfl
      rw [System.ignored, hardware] at visible
      cases visible
    · exact planned.software.mp sound.supported front source back parts interface ofSource visible
        ((freePhc_none hardware).mpr refused)
  · intro fallsBack
    have visible : ∀ front source back, config.sources = front ++ .ptpDomain source :: back →
        ∀ interface ∈ source.interfaces, system.ignored interface = false := by
      intro front source back parts interface ofSource
      refine decide_eq_false fun hardware => ?_
      exact (fallsBack front source back parts interface ofSource (-2) hardware).1 rfl
    refine ⟨planned.exclusive, ?_, planned.segments, planned.software.mpr ?_⟩
    · intro place source found interface ofSource
      obtain ⟨front, back, parts, rfl⟩ := place_iff.mp found
      rw [planned.count parts (distinct source (ofSources parts)) ofSource,
        visible front source back parts interface ofSource]
      rfl
    · intro front source back parts interface ofSource _ fallback
      cases hardware : system.hwPhc interface with
      | none =>
        have usable := planned.usable source (ofSources parts) interface ofSource
        exact software_of_usable usable hardware
      | some phc =>
        exact (fallsBack front source back parts interface ofSource phc hardware).2
          ((freePhc_none hardware).mp fallback)

/-! ## Two domains on one card -/

/-- A system whose interfaces all have one PHC. -/
def oneCard (soTimestamping : UInt32) : System where
  rtnlGetTsDevice _ := none
  skGetTsInfo _ := some ⟨0, soTimestamping⟩

/-- A domain with one interface. -/
def oneInterface (domain : Int) (interface : CText) : PtpDomain where
  domain := domain
  ntpPoll := 2
  phc2sysPoll := 0
  delay := 1 / 10000
  interfaces := [interface]
  ptp4lSettings := []
  ntpOptions := []

/-- Two domains, each with an interface. -/
def twoDomains : TimemasterConfig where
  sources := [.ptpDomain (oneInterface 0 ['e', '0']), .ptpDomain (oneInterface 1 ['e', '1'])]
  ntpProgram := .chronyd
  rundir := ['r']
  firstShmSegment := 0
  restartProcesses := 1
  chronyd := ⟨['c'], [], []⟩
  ntpd := ⟨['n'], [], []⟩
  phc2sys := ⟨['p'], [], []⟩
  ptp4l := ⟨['t'], [], []⟩

/-- Its interfaces support both kinds of time stamps. -/
theorem sound_iff_fallsBack_oneCard :
    ∃ script, scriptCreate (oneCard (hwTs ||| swTs)) twoDomains = some script ∧
      Sound (oneCard (hwTs ||| swTs)) twoDomains script := by
  have created : (scriptCreate (oneCard (hwTs ||| swTs)) twoDomains).isSome = true := by decide
  obtain ⟨script, created⟩ := Option.isSome_iff_exists.mp created
  refine ⟨script, created, (sound_iff_fallsBack created ?_).mpr ?_⟩
  · intro source among
    simp only [twoDomains, List.mem_cons, List.not_mem_nil, or_false, Source.ptpDomain.injEq]
      at among
    rcases among with rfl | rfl <;> exact List.nodup_singleton _
  · intro front source back _ interface _ phc hardware
    have zero : phc = 0 := Option.some.inj (hardware.symm.trans rfl)
    exact ⟨by omega, fun _ => ⟨_, rfl, by decide⟩⟩

/-- With time stamps in hardware only, the second domain gets a command with time stamps in
software. -/
theorem hardware_only_card :
    ∃ script, scriptCreate (oneCard hwTs) twoDomains = some script ∧
      ¬ Sound (oneCard hwTs) twoDomains script := by
  have created : (scriptCreate (oneCard hwTs) twoDomains).isSome = true := by decide
  obtain ⟨script, created⟩ := Option.isSome_iff_exists.mp created
  refine ⟨script, created, fun sound => ?_⟩
  have planned := planned_of_created created
  have second : (oneCard hwTs).hwPhc ['e', '1'] = some 0 := by decide
  have refused : (oneCard hwTs).freePhc (taken (plan (oneCard hwTs) 0
      [.ptpDomain (oneInterface 0 ['e', '0'])] [])) ['e', '1'] = none :=
    (freePhc_none second).mpr
      (.inr ⟨_, List.mem_cons_self, ['e', '0'], List.mem_cons_self, by decide⟩)
  obtain ⟨info, reported, software⟩ := planned.software.mp sound.supported
    [.ptpDomain (oneInterface 0 ['e', '0'])] (oneInterface 1 ['e', '1']) [] rfl ['e', '1']
    List.mem_cons_self (by decide) refused
  cases reported
  exact absurd software (by decide)

end LinuxPtp.Timemaster
