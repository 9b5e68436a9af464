import LinuxPtp.CText
import Mathlib.Algebra.Group.Int.Defs
import Mathlib.Algebra.Group.Nat.Defs

/-!
# The script of timemaster

From its configuration, timemaster makes a script: the commands that it starts, their configuration
files, and the configuration of an NTP program that reads shared memory segments as its reference
clocks. A command keeps the place of its source here, which it does not in the code. The number of
the segment is not bounded here; it would come again after more segments than a script can hold.
-/

namespace LinuxPtp.Timemaster

/-! ## The configuration -/

/-- `struct ntp_server`. -/
structure NtpServer where
  address : CText
  minpoll : Int
  maxpoll : Int
  iburst : Bool
  ntpOptions : CText

/-- `struct ptp_domain`. -/
structure PtpDomain where
  domain : Int
  ntpPoll : Int
  phc2sysPoll : Int
  delay : Rat
  interfaces : List CText
  ptp4lSettings : List CText
  ntpOptions : CText

/-- `struct source`. -/
inductive Source where
  | ntpServer (source : NtpServer)
  | ptpDomain (source : PtpDomain)

/-- `enum ntp_program`. -/
inductive NtpProgram where
  | chronyd
  | ntpd
deriving DecidableEq

/-- `struct program_config`. -/
structure ProgramConfig where
  path : CText
  options : List CText
  settings : List CText

/-- `struct timemaster_config`. -/
structure TimemasterConfig where
  sources : List Source
  ntpProgram : NtpProgram
  rundir : CText
  firstShmSegment : Int
  restartProcesses : Int
  chronyd : ProgramConfig
  ntpd : ProgramConfig
  phc2sys : ProgramConfig
  ptp4l : ProgramConfig

/-! ## What the system reports -/

/-- The fields of `struct sk_ts_info` that are read. -/
structure SkTsInfo where
  phcIndex : Int
  soTimestamping : UInt32

/-- The answers of `rtnl_get_ts_device` and `sk_get_ts_info` for the name of an interface. -/
structure System where
  rtnlGetTsDevice : CText → Option CText
  skGetTsInfo : CText → Option SkTsInfo

/-- `hw_ts`: `SOF_TIMESTAMPING_TX_HARDWARE`, `_RX_HARDWARE` and `_RAW_HARDWARE`. -/
def hwTs : UInt32 := 1 ||| 4 ||| 64

/-- `sw_ts`: `SOF_TIMESTAMPING_TX_SOFTWARE`, `_RX_SOFTWARE` and `_SOFTWARE`. -/
def swTs : UInt32 := 2 ||| 8 ||| 16

/-- All flags for time stamps in hardware are there. -/
def SkTsInfo.hardware (info : SkTsInfo) : Bool := info.soTimestamping &&& hwTs = hwTs

/-- All flags for time stamps in software are there. -/
def SkTsInfo.software (info : SkTsInfo) : Bool := info.soTimestamping &&& swTs = swTs

/-- What is reported for an interface, or for the one that stamps its packets. A name is cut to fit
`IF_NAMESIZE`. -/
def System.tsInfo (system : System) (interface : CText) : Option SkTsInfo :=
  system.skGetTsInfo ((system.rtnlGetTsDevice interface).getD (interface.take 15))

/-! ## The script -/

/-- A line of the configuration of the NTP program. -/
inductive NtpLine where
  | setting (text : CText)
  | server (address : CText) (minpoll maxpoll : Int) (iburst : Bool) (options : CText)
  /-- `refclock SHM`, for `chronyd`. -/
  | refclock (segment poll dpoll : Int) (refid : Option CText) (delay : Rat) (options : CText)
  /-- `server 127.127.28`, for `ntpd`. -/
  | shmServer (segment minpoll maxpoll : Int) (options : CText)
  | fudge (segment : Int) (refid : Option CText)

/-- A configuration file of `ptp4l`. -/
structure Ptp4lFile where
  path : CText
  settings : List CText
  domainNumber : Int
  udsAddress : CText
  messageTag : CText
  /-- With `clock_servo ntpshm`. -/
  ntpshmSegment : Option Int

/-- A command with `ptp4l`, and the place of its source. -/
structure Ptp4lCommand where
  path : CText
  options : List CText
  file : CText
  hwTs : Bool
  interfaces : List CText
  place : Nat

/-- A command with `phc2sys`. -/
structure Phc2sysCommand where
  path : CText
  options : List CText
  poll : Int
  udsPath : CText
  messageTag : CText
  domain : Int
  shmSegment : Int

/-- A command. -/
inductive Command where
  | ntp (path : CText) (options : List CText) (file : CText)
  | ptp4l (command : Ptp4lCommand)
  | phc2sys (command : Phc2sysCommand)

/-- `struct script`, with the file of the NTP program apart from the others. -/
structure Script where
  ntpPath : CText
  ntpConfig : List NtpLine
  configs : List Ptp4lFile
  commands : List Command
  commandGroups : List Nat
  restartGroups : Int
  noRestartGroup : Nat

/-- A script in the making, and the counters. -/
structure Progress where
  script : Script
  shmSegment : Int
  commandGroup : Nat
  allocatedPhcs : List Int

/-- `add_command`. -/
def addCommand (command : Command) (commandGroup : Nat) (script : Script) : Script :=
  { script with
    commands := script.commands ++ [command]
    commandGroups := script.commandGroups ++ [commandGroup] }

def text (s : String) : CText := s.toList

def decimal (number : Int) : CText := (toString number).toList

/-- `get_refid`. -/
def getRefid (start : CText) (number : Nat) : Option CText :=
  if number < 10 then some (start.take 3 ++ decimal number)
  else if number < 100 then some (start.take 2 ++ decimal number)
  else if number < 1000 then some (start.take 1 ++ decimal number)
  else none

/-- `add_shm_source`. -/
def addShmSource (shmSegment poll dpoll : Int) (delay : Rat) (ntpOptions start : CText)
    (config : TimemasterConfig) (ntpConfig : List NtpLine) : List NtpLine :=
  let refid := getRefid start (shmSegment % 2 ^ 32).toNat
  match config.ntpProgram with
  | .chronyd => ntpConfig ++ [.refclock shmSegment poll dpoll refid delay ntpOptions]
  | .ntpd => ntpConfig ++ [.shmServer shmSegment poll poll ntpOptions, .fudge shmSegment refid]

/-- `add_ntp_source`. -/
def addNtpSource (source : NtpServer) (ntpConfig : List NtpLine) : List NtpLine :=
  ntpConfig ++
    [.server source.address source.minpoll source.maxpoll source.iburst source.ntpOptions]

/-- The text `message_tag`. -/
def messageTag (domain : Int) (interfaces : List CText) : CText :=
  text "[" ++ decimal domain ++
    (interfaces.zipIdx.flatMap fun (name, j) => text (if j = 0 then ":" else "+") ++ name) ++
    text "]"

/-- The end of the loop of `add_ptp_source`: the commands for interfaces that go together. -/
def addCommands (config : TimemasterConfig) (place : Nat) (source : PtpDomain) (hwTs : Bool)
    (interfaces : List CText) (s : Progress) : Progress :=
  let base := config.rundir ++ text "/ptp4l." ++ decimal s.shmSegment
  let tag := messageTag source.domain interfaces
  let file : Ptp4lFile := {
    path := base ++ text ".conf"
    settings := config.ptp4l.settings ++ source.ptp4lSettings
    domainNumber := source.domain
    udsAddress := base ++ text ".socket"
    messageTag := tag
    ntpshmSegment := if hwTs then none else some s.shmSegment }
  let ptp4l : Ptp4lCommand := {
    path := config.ptp4l.path
    options := config.ptp4l.options
    file := file.path
    hwTs, interfaces, place }
  let phc2sys : Phc2sysCommand := {
    path := config.phc2sys.path
    options := config.phc2sys.options
    poll := source.phc2sysPoll
    udsPath := file.udsAddress
    messageTag := tag
    domain := source.domain
    shmSegment := s.shmSegment }
  let script := addCommand (.ptp4l ptp4l) s.commandGroup s.script
  let script := if hwTs then addCommand (.phc2sys phc2sys) s.commandGroup script else script
  { s with
    script := { script with
      configs := script.configs ++ [file]
      ntpConfig := addShmSource s.shmSegment source.ntpPoll source.phc2sysPoll source.delay
        source.ntpOptions (text "PTP") config script.ntpConfig }
    shmSegment := s.shmSegment + 1
    commandGroup := s.commandGroup + 1 }

/-- The first loop of `add_ptp_source` for an interface: the PHC that it may use, -1 where there is
none, and nothing where the interface cannot be used. -/
def usablePhc (system : System) (allocatedPhcs : List Int) (interface : CText) : Option Int :=
  match system.tsInfo interface with
  | none => none
  | some info =>
    if !info.hardware then
      if !info.software then none else some (-1)
    else if allocatedPhcs.contains info.phcIndex then some (-1)
    else some info.phcIndex

/-- The second loop of `add_ptp_source`, over `source->interfaces` and `phcs`. -/
def addInterfaces (config : TimemasterConfig) (place : Nat) (source : PtpDomain) :
    List CText → List Int → Progress → Progress
  | interface :: rest, phc :: phcs, s =>
    if phc = -2 then addInterfaces config place source rest phcs s
    else if 0 ≤ phc then
      let merged := ((rest.zip phcs).filter (·.2 = phc)).map Prod.fst
      -- The interfaces are marked as used.
      let phcs := phcs.map fun other => if other = phc then -2 else other
      let s := { s with allocatedPhcs := s.allocatedPhcs ++ [phc] }
      addInterfaces config place source rest phcs
        (addCommands config place source true (interface :: merged) s)
    else
      addInterfaces config place source rest phcs
        (addCommands config place source false [interface] s)
  | _, _, s => s

/-- `add_ptp_source`. -/
def addPtpSource (system : System) (config : TimemasterConfig) (place : Nat) (source : PtpDomain)
    (s : Progress) : Option Progress := do
  let phcs ← source.interfaces.mapM (usablePhc system s.allocatedPhcs)
  return addInterfaces config place source source.interfaces phcs s

/-- `add_ntp_program`, and what `script_create` does before it. -/
def addNtpProgram (config : TimemasterConfig) : Progress :=
  let (program, name) := match config.ntpProgram with
    | .chronyd => (config.chronyd, "/chrony.conf")
    | .ntpd => (config.ntpd, "/ntp.conf")
  let path := config.rundir ++ text name
  let script : Script := {
    ntpPath := path
    ntpConfig := program.settings.map .setting
    configs := []
    commands := []
    commandGroups := []
    restartGroups := config.restartProcesses
    noRestartGroup := 0 }
  { script := addCommand (.ntp program.path program.options path) 0 script
    shmSegment := config.firstShmSegment
    commandGroup := 1
    allocatedPhcs := [] }

/-- The loop of `script_create` over the sources, which goes on after a failure. -/
def addSources (system : System) (config : TimemasterConfig) :
    Nat → List Source → Bool × Progress → Bool × Progress
  | _, [], result => result
  | place, .ntpServer source :: rest, (ret, s) =>
    let script := { s.script with ntpConfig := addNtpSource source s.script.ntpConfig }
    addSources system config (place + 1) rest (ret, { s with script })
  | place, .ptpDomain source :: rest, (ret, s) =>
    match addPtpSource system config place source s with
    | none => addSources system config (place + 1) rest (true, s)
    | some s => addSources system config (place + 1) rest (ret, s)

/-- `script_create`. -/
def scriptCreate (system : System) (config : TimemasterConfig) : Option Script :=
  let (ret, s) := addSources system config 0 config.sources (false, addNtpProgram config)
  if ret then none else some s.script

/-! ## What a script holds -/

/-- The commands with `ptp4l`. -/
def Script.ptp4ls (script : Script) : List Ptp4lCommand :=
  script.commands.filterMap fun command =>
    match command with
    | .ptp4l command => some command
    | _ => none

/-- The shared memory segment that a command with `phc2sys` writes to. -/
def Command.segment : Command → Option Int
  | .phc2sys command => some command.shmSegment
  | _ => none

/-- The shared memory segments that something is written to. -/
def Script.usedSegments (script : Script) : List Int :=
  script.commands.filterMap Command.segment ++ script.configs.filterMap Ptp4lFile.ntpshmSegment

/-- The shared memory segment that a line makes a reference clock. -/
def NtpLine.segment : NtpLine → Option Int
  | .refclock segment _ _ _ _ _ => some segment
  | .shmServer segment _ _ _ => some segment
  | _ => none

/-- The segments of the reference clocks. -/
def Script.referenceClocks (script : Script) : List Int :=
  script.ntpConfig.filterMap NtpLine.segment

end LinuxPtp.Timemaster
