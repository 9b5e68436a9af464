import LinuxPtp.CText
import Mathlib.Logic.Function.Basic

/-!
# The configuration

`config_tab` of `config.c`, and the table in which the options are found by a name that is made of
a section and a label. Whether an item or its string was allocated is left out, and allocation
does not fail.
-/

namespace LinuxPtp

open CText

/-- Floating point numbers as the C compiler and library supply them. -/
structure Doubles where
  Value : Type
  /-- A constant of the source. -/
  constant : String → Value
  /-- `strtod`: the number, what follows it, and whether `errno` is `ERANGE`. -/
  strtod : CText → Value × CText × Bool
  less : Value → Value → Bool

/-- The type of an item, with its range or its table. -/
inductive ConfigKind (δ : Type) where
  | int (min max : Int)
  | double (min max : δ)
  | enum (tab : List (CText × Int))
  | string
deriving DecidableEq

/-- `any_t`. -/
inductive ConfigValue (δ : Type) where
  | int (i : Int)
  | double (d : δ)
  | string (s : Option CText)
deriving DecidableEq

/-- `struct config_item`. -/
structure ConfigItem (δ : Type) where
  label : CText
  kind : ConfigKind δ
  val : ConfigValue δ
  /-- `CFG_ITEM_PORT`. -/
  port : Bool := false
  /-- `CFG_ITEM_LOCKED`. -/
  locked : Bool := false

/-- `enum parser_result` but for success, and that the program ends. -/
inductive ParserError where
  | notParsed
  | badValue
  | malformed
  | outOfRange
  | exit
deriving DecidableEq

/-! ## Options -/

/-- `clock_servo_enu`. -/
def clockServoEnu : List (CText × Int) :=
  [("pi".toList, 0), ("linreg".toList, 1), ("ntpshm".toList, 2), ("nullf".toList, 3)]

/-- `clock_type_enu`. -/
def clockTypeEnu : List (CText × Int) :=
  [("OC".toList, 0x8000), ("BC".toList, 0x4000), ("P2P_TC".toList, 0x2000),
    ("E2E_TC".toList, 0x1000)]

/-- `dataset_comp_enu`. -/
def datasetCompEnu : List (CText × Int) :=
  [("ieee1588".toList, 0), ("G.8275.x".toList, 1)]

/-- `delay_filter_enu`. -/
def delayFilterEnu : List (CText × Int) :=
  [("moving_average".toList, 0), ("moving_median".toList, 1)]

/-- `delay_mech_enu`. -/
def delayMechEnu : List (CText × Int) :=
  [("Auto".toList, 0), ("E2E".toList, 1), ("P2P".toList, 2)]

/-- `nw_trans_enu`. -/
def nwTransEnu : List (CText × Int) :=
  [("L2".toList, 3), ("UDPv4".toList, 1), ("UDPv6".toList, 2)]

/-- `timestamping_enu`. -/
def timestampingEnu : List (CText × Int) :=
  [("hardware".toList, 1), ("software".toList, 0), ("legacy".toList, 2), ("onestep".toList, 3),
    ("p2p1step".toList, 4)]

/-- `tsproc_enu`. -/
def tsprocEnu : List (CText × Int) :=
  [("filter".toList, 0), ("raw".toList, 1), ("filter_weight".toList, 2), ("raw_weight".toList, 3)]

/-- `INT_MIN`. -/
def intMin : Int := -2147483648

/-- `INT_MAX`. -/
def intMax : Int := 2147483647

section Tables

variable {δ : Type} (d : Doubles)

/-- `GLOB_ITEM_INT`. -/
def globItemInt (label : String) (val min max : Int) : ConfigItem δ :=
  { label := label.toList, kind := .int min max, val := .int val }

/-- `PORT_ITEM_INT`. -/
def portItemInt (label : String) (val min max : Int) : ConfigItem δ :=
  { label := label.toList, kind := .int min max, val := .int val, port := true }

/-- `GLOB_ITEM_DBL`. -/
def globItemDbl (label val min max : String) : ConfigItem d.Value :=
  { label := label.toList
    kind := .double (d.constant min) (d.constant max)
    val := .double (d.constant val) }

/-- `GLOB_ITEM_ENU`. -/
def globItemEnu (label : String) (val : Int) (tab : List (CText × Int)) : ConfigItem δ :=
  { label := label.toList, kind := .enum tab, val := .int val }

/-- `PORT_ITEM_ENU`. -/
def portItemEnu (label : String) (val : Int) (tab : List (CText × Int)) : ConfigItem δ :=
  { label := label.toList, kind := .enum tab, val := .int val, port := true }

/-- `GLOB_ITEM_STR`. -/
def globItemStr (label : String) (val : Option String) : ConfigItem δ :=
  { label := label.toList, kind := .string, val := .string (val.map String.toList) }

/-- `PORT_ITEM_STR`. -/
def portItemStr (label : String) (val : Option String) : ConfigItem δ :=
  { label := label.toList, kind := .string, val := .string (val.map String.toList), port := true }

/-- `config_tab`. -/
def configTab : List (ConfigItem d.Value) :=
  [portItemInt "announceReceiptTimeout" 3 2 255,
    globItemInt "assume_two_step" 0 0 1,
    portItemInt "boundary_clock_jbod" 0 0 1,
    globItemInt "check_fup_sync" 0 0 1,
    globItemInt "clockAccuracy" 0xfe 0 255,
    globItemInt "clockClass" 248 0 255,
    globItemEnu "clock_servo" 0 clockServoEnu,
    globItemEnu "clock_type" 0x8000 clockTypeEnu,
    globItemEnu "dataset_comparison" 0 datasetCompEnu,
    portItemInt "delayAsymmetry" 0 intMin intMax,
    portItemEnu "delay_filter" 1 delayFilterEnu,
    portItemInt "delay_filter_length" 10 1 intMax,
    portItemEnu "delay_mechanism" 1 delayMechEnu,
    globItemInt "dscp_event" 0 0 63,
    globItemInt "dscp_general" 0 0 63,
    globItemInt "domainNumber" 0 0 127,
    portItemInt "egressLatency" 0 intMin intMax,
    portItemInt "fault_badpeernet_interval" 16 intMin intMax,
    portItemInt "fault_reset_interval" 4 (-128) 127,
    globItemDbl d "first_step_threshold" "0.00002" "0.0" "DBL_MAX",
    portItemInt "follow_up_info" 0 0 1,
    globItemInt "free_running" 0 0 1,
    portItemInt "freq_est_interval" 1 0 intMax,
    globItemInt "G.8275.defaultDS.localPriority" 128 1 255,
    portItemInt "G.8275.portDS.localPriority" 128 1 255,
    globItemInt "gmCapable" 1 0 1,
    portItemInt "hybrid_e2e" 0 0 1,
    portItemInt "ignore_transport_specific" 0 0 1,
    portItemInt "ingressLatency" 0 intMin intMax,
    globItemInt "initial_delay" 0 0 intMax,
    globItemInt "kernel_leap" 1 0 1,
    portItemInt "logAnnounceInterval" 1 (-128) 127,
    portItemInt "logMinDelayReqInterval" 0 (-128) 127,
    portItemInt "logMinPdelayReqInterval" 0 (-128) 127,
    portItemInt "logSyncInterval" 0 (-128) 127,
    globItemInt "logging_level" 6 0 7,
    portItemInt "masterOnly" 0 0 1,
    globItemStr "message_tag" none,
    globItemStr "manufacturerIdentity" (some "00:00:00"),
    globItemInt "max_frequency" 900000000 0 intMax,
    portItemInt "min_neighbor_prop_delay" (-20000000) intMin (-1),
    portItemInt "neighborPropDelayThresh" 20000000 0 intMax,
    portItemInt "net_sync_monitor" 0 0 1,
    portItemEnu "network_transport" 1 nwTransEnu,
    globItemInt "ntpshm_segment" 0 intMin intMax,
    globItemInt "offsetScaledLogVariance" 0xffff 0 65535,
    portItemInt "path_trace_enabled" 0 0 1,
    globItemDbl d "pi_integral_const" "0.0" "0.0" "DBL_MAX",
    globItemDbl d "pi_integral_exponent" "0.4" "-DBL_MAX" "DBL_MAX",
    globItemDbl d "pi_integral_norm_max" "0.3" "DBL_MIN" "2.0",
    globItemDbl d "pi_integral_scale" "0.0" "0.0" "DBL_MAX",
    globItemDbl d "pi_proportional_const" "0.0" "0.0" "DBL_MAX",
    globItemDbl d "pi_proportional_exponent" "-0.3" "-DBL_MAX" "DBL_MAX",
    globItemDbl d "pi_proportional_norm_max" "0.7" "DBL_MIN" "1.0",
    globItemDbl d "pi_proportional_scale" "0.0" "0.0" "DBL_MAX",
    globItemInt "priority1" 128 0 255,
    globItemInt "priority2" 128 0 255,
    globItemStr "productDescription" (some ";;"),
    portItemStr "ptp_dst_mac" (some "01:1B:19:00:00:00"),
    portItemStr "p2p_dst_mac" (some "01:80:C2:00:00:0E"),
    globItemStr "revisionData" (some ";;"),
    globItemInt "sanity_freq_limit" 200000000 0 intMax,
    globItemInt "slaveOnly" 0 0 1,
    globItemDbl d "step_threshold" "0.0" "0.0" "DBL_MAX",
    globItemInt "summary_interval" 0 intMin intMax,
    portItemInt "syncReceiptTimeout" 0 0 255,
    globItemInt "tc_spanning_tree" 0 1 1,
    globItemInt "timeSource" 0xa0 0x10 0xfe,
    globItemEnu "time_stamping" 1 timestampingEnu,
    portItemInt "transportSpecific" 0 0 0x0f,
    portItemEnu "tsproc_mode" 0 tsprocEnu,
    globItemInt "twoStepFlag" 1 0 1,
    globItemInt "tx_timestamp_timeout" 1 1 intMax,
    portItemInt "udp_ttl" 1 1 255,
    portItemInt "udp6_scope" 0x0e 0x00 0x0f,
    globItemStr "uds_address" (some "/var/run/ptp4l"),
    globItemInt "use_syslog" 1 0 1,
    globItemStr "userDescription" (some ""),
    globItemInt "utc_offset" 37 0 intMax,
    globItemInt "verbose" 0 0 1]

end Tables

/-! ## The table -/

/-- `struct config`. -/
structure Config (δ : Type) where
  items : CText → Option (ConfigItem δ)
  /-- The names of the interfaces. -/
  interfaces : List CText := []

namespace Config

variable {δ : Type}

/-- The name under which an item is found, in a buffer of `CONFIG_LABEL_SIZE + MAX_IFNAME_SIZE`
octets. -/
def key (sec name : CText) : CText := (sec ++ '.' :: name).take 139

/-- The name of the section of global items. -/
def globalSection : CText := "global".toList

/-- `config_section_item`. -/
def sectionItem (cfg : Config δ) (sec name : CText) : Option (ConfigItem δ) :=
  cfg.items (key sec name)

/-- `config_global_item`. -/
def globalItem (cfg : Config δ) (name : CText) : Option (ConfigItem δ) :=
  cfg.sectionItem globalSection name

/-- Change the item with a name. -/
def change (name : CText) (update : ConfigItem δ → ConfigItem δ) (cfg : Config δ) : Config δ :=
  { cfg with items := Function.update cfg.items name ((cfg.items name).map update) }

/-- `hash_insert`, which rejects a name that is taken. -/
def insert (name : CText) (item : ConfigItem δ) (cfg : Config δ) : Option (Config δ) :=
  if (cfg.items name).isSome then none
  else some { cfg with items := Function.update cfg.items name (some item) }

end Config

section Store

variable {d : Doubles}

/-- The kind and the value of an item that is allocated with a type and filled with zeros. A table
that is missing is taken for an empty one. -/
def ConfigKind.allocated : ConfigKind d.Value → ConfigKind d.Value × ConfigValue d.Value
  | .int _ _ => (.int 0 0, .int 0)
  | .double _ _ => (.double (d.constant "0.0") (d.constant "0.0"), .double (d.constant "0.0"))
  | .enum _ => (.enum [], .int 0)
  | .string => (.string, .string none)

/-- `config_item_alloc`: the name of the new item, and the table with it. -/
def configItemAlloc (cfg : Config d.Value) (sec name : CText) (kind : ConfigKind d.Value) :
    Option (CText × Config d.Value) :=
  let label := name.take 31
  let key := Config.key sec label
  let item : ConfigItem d.Value :=
    { label := label, kind := kind.allocated.1, val := kind.allocated.2 }
  (cfg.insert key item).map fun cfg => (key, cfg)

/-- The item of a section, allocated if there is none. -/
def configSectionObtain (cfg : Config d.Value) (sec name : CText) (kind : ConfigKind d.Value) :
    Option (CText × Config d.Value) :=
  if (cfg.sectionItem sec name).isSome then some (Config.key sec name, cfg)
  else configItemAlloc cfg sec name kind

/-- There is an item for every label that fits. -/
theorem configSectionObtain_total (cfg : Config d.Value) (sec : CText) {name : CText}
    (fits : name.length ≤ 31) (kind : ConfigKind d.Value) :
    ∃ between, configSectionObtain cfg sec name kind = some (Config.key sec name, between) := by
  rw [configSectionObtain]
  split
  next => exact ⟨cfg, rfl⟩
  next absent =>
    have free : ¬ (cfg.items (Config.key sec name)).isSome := absent
    rw [configItemAlloc, List.take_of_length_le fits]
    simp only [Config.insert, if_neg free, Option.map_some]
    exact ⟨_, rfl⟩

/-- `config_set_section_int`, if it succeeds. -/
def configSetSectionInt (cfg : Config d.Value) (sec : Option CText) (option : CText) (val : Int) :
    Option (Config d.Value) :=
  match cfg.globalItem option with
  | none => none
  | some cgi =>
    match cgi.kind with
    | .double _ _ | .string => none
    | .int _ _ | .enum _ =>
      match sec with
      | none => some (cfg.change (Config.key Config.globalSection option) fun item =>
          { item with locked := true, val := .int val })
      | some sec => (configSectionObtain cfg sec option cgi.kind).map fun (dst, cfg) =>
          cfg.change dst fun item => { item with val := .int val }

/-- `config_set_int`. -/
def configSetInt (cfg : Config d.Value) (option : CText) (val : Int) : Option (Config d.Value) :=
  configSetSectionInt cfg none option val

/-- `config_set_double`. -/
def configSetDouble (cfg : Config d.Value) (option : CText) (val : d.Value) :
    Option (Config d.Value) :=
  match cfg.globalItem option with
  | none => none
  | some cgi =>
    match cgi.kind with
    | .double _ _ => some (cfg.change (Config.key Config.globalSection option) fun item =>
        { item with locked := true, val := .double val })
    | _ => none

/-- `config_set_string`. -/
def configSetString (cfg : Config d.Value) (option : CText) (val : CText) :
    Option (Config d.Value) :=
  match cfg.globalItem option with
  | none => none
  | some cgi =>
    match cgi.kind with
    | .string => some (cfg.change (Config.key Config.globalSection option) fun item =>
        { item with locked := true, val := .string (some val) })
    | _ => none

/-- Enter the default of a global option. -/
def Config.register {δ : Type} (items : CText → Option (ConfigItem δ)) (item : ConfigItem δ) :
    CText → Option (ConfigItem δ) :=
  Function.update items (Config.key Config.globalSection item.label) (some item)

/-- `config_create`. -/
def configCreate (d : Doubles) : Config d.Value where
  items := (configTab d).foldl Config.register fun _ => none

/-- `config_create_interface`: the name of the interface, which is created only once. -/
def configCreateInterface (name : CText) (cfg : Config d.Value) : CText × Config d.Value :=
  match cfg.interfaces.find? fun iface => name.take 108 = iface.take 108 with
  | some iface => (iface, cfg)
  | none => (name.take 108, { cfg with interfaces := cfg.interfaces ++ [name.take 108] })

end Store

end LinuxPtp
