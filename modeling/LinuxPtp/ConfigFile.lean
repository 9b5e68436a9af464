import LinuxPtp.ConfigTable
import Mathlib.Data.List.DropRight

/-!
# Configuration files

The parser of `config.c`, and what becomes of the options that were set on the command line while
a configuration file is read. The lock on these options is looked at for an option of the global
section, but not for the interval ASAP and not in a section of another spelling whose name is
`global` all the same.

Reading is followed setting by setting. An argument of the command line locks its option, and a
lock is never taken off, so that the options to speak of are those that were given there. What
each setting of the file writes to them in spite of the lock is `written`, and the last one
decides.
-/

namespace LinuxPtp

open CText

/-! ## The parser -/

/-- `FRI_ASAP`. -/
def friAsap : Int := -128

/-- `LONG_MIN`. -/
def longMin : Int := -9223372036854775808

/-- `LONG_MAX`. -/
def longMax : Int := 9223372036854775807

section Parser

variable {d : Doubles}

/-- `get_ranged_int`. -/
def getRangedInt (value : CText) (min max : Int) : Except ParserError Int :=
  match strtol value with
  | none => .error .malformed
  | some (parsed, rest) =>
    if rest ≠ [] then .error .malformed
    else if parsed < longMin ∨ longMax < parsed ∨ parsed < min ∨ max < parsed then
      .error .outOfRange
    else .ok parsed

/-- `get_ranged_double`. -/
def getRangedDouble (d : Doubles) (value : CText) (min max : d.Value) :
    Except ParserError d.Value :=
  let (parsed, rest, erange) := d.strtod value
  if rest ≠ [] ∨ rest.length = value.length then .error .malformed
  else if erange ∨ d.less parsed min ∨ d.less max parsed then .error .outOfRange
  else .ok parsed

/-- The value that `parse_item` reads for an item. -/
def parseValue (kind : ConfigKind d.Value) (value : CText) : Except ParserError (ConfigValue d.Value) :=
  match kind with
  | .int min max => (getRangedInt value min max).map .int
  | .double min max => (getRangedDouble d value min max).map .double
  | .enum tab =>
    match tab.find? fun (label, _) => sameCase label value with
    | some (_, val) => .ok (.int val)
    | none => .error .badValue
  | .string => .ok (.string (some value))

/-- The value that `parse_fault_interval` knows for an option and a value. -/
def asapValue (option value : CText) : Option Int :=
  if !sameCase "ASAP".toList value then none
  else if option = "fault_badpeernet_interval".toList then some 0
  else if option = "fault_reset_interval".toList then some friAsap
  else none

/-- `parse_fault_interval`, if it parses anything. -/
def parseFaultInterval (sec : Option CText) (option value : CText) (cfg : Config d.Value) :
    Option (Option ParserError × Config d.Value) :=
  (asapValue option value).map fun val =>
    match configSetSectionInt cfg sec option val with
    | none => (some .exit, cfg)
    | some cfg => (none, cfg)

/-- The end of `parse_item`, with the item to be updated. -/
def storeItem (commandline : Bool) (dst : CText) (val : ConfigValue d.Value) (cfg : Config d.Value) :
    Config d.Value :=
  cfg.change dst fun item => { item with val := val, locked := item.locked || commandline }

/-- `parse_item` after the special case. -/
def parseOption (commandline : Bool) (sec : Option CText) (option value : CText)
    (cfg : Config d.Value) : Option ParserError × Config d.Value :=
  match cfg.globalItem option with
  | none => (some .notParsed, cfg)
  | some cgi =>
    match parseValue cgi.kind value with
    | .error err => (some err, cfg)
    | .ok val =>
      match sec with
      | some sec =>
        if !cgi.port then (some .notParsed, cfg) else
          match configSectionObtain cfg sec option cgi.kind with
          | none => (some .notParsed, cfg)
          | some (dst, cfg) => (none, storeItem commandline dst val cfg)
      | none =>
        if !commandline && cgi.locked then (none, cfg)
        else (none, storeItem commandline (Config.key Config.globalSection option) val cfg)

/-- `parse_item`: the error, if there is one. -/
def parseItem (commandline : Bool) (sec : Option CText) (option value : CText)
    (cfg : Config d.Value) : Option ParserError × Config d.Value :=
  (parseFaultInterval sec option value cfg).getD (parseOption commandline sec option value cfg)

/-- A line without the white space around it, if it says anything. -/
def lineOf (buf : CText) : Option CText :=
  match buf.dropWhile isspace with
  | [] => none
  | c :: rest => if c = '#' then none else some ((c :: rest).rdropWhile isspace)

/-- What `parse_section_line` finds: the global section, or a line with the name of another. -/
inductive SectionLine where
  | global
  | port (line : CText)

/-- `parse_section_line`. -/
def parseSectionLine (s : CText) : Option SectionLine :=
  if sameCase s "[global]".toList then some .global
  else if s.head? = some '[' then
    some (.port (s.map fun c => if c = '[' ∨ c = ']' then ' ' else c))
  else none

/-- `parse_setting_line`. -/
def parseSettingLine (line : CText) : Option (CText × CText) :=
  let option := line.takeWhile fun c => !isspace c
  match line.drop option.length with
  | [] => none
  | rest => some (option, rest.dropWhile isspace)

/-- `check_deprecated_options`. -/
def checkDeprecatedOptions (option : CText) : CText :=
  if option = "pi_offset_const".toList then "step_threshold".toList
  else if option = "pi_f_offset_const".toList then "first_step_threshold".toList
  else if option = "pi_max_frequency".toList then "max_frequency".toList
  else option

/-- The loop of `config_read`: whether all lines are parsed. The current section is unknown, or the
global one or that of an interface. -/
def readLines : Option (Option CText) → List CText → Config d.Value → Bool × Config d.Value
  | _, [], cfg => (true, cfg)
  | current, buf :: rest, cfg =>
    match lineOf buf with
    | none => readLines current rest cfg
    | some line =>
      match parseSectionLine line with
      | some .global => readLines (some none) rest cfg
      | some (.port line) =>
        match sscanfWord 16 line with
        | none => (false, cfg)
        | some port =>
          let (name, cfg) := configCreateInterface port cfg
          readLines (some (some name)) rest cfg
      | none =>
        match current with
        | none => (false, cfg)
        | some sec =>
          match parseSettingLine line with
          | none => (false, cfg)
          | some (option, value) =>
            match parseItem false sec (checkDeprecatedOptions option) value cfg with
            | (some _, cfg) => (false, cfg)
            | (none, cfg) => readLines current rest cfg

/-- `config_read`, with the contents of the file. -/
def configRead (file : List Char) (cfg : Config d.Value) : Int × Config d.Value :=
  let (parsed, cfg) := readLines none (fgets 1024 file) cfg
  (if parsed then 0 else -2, cfg)

/-! ## The command line -/

/-- What an argument on the command line does to the configuration. -/
inductive Argument (δ : Type) where
  /-- `config_parse_option`. -/
  | option (name value : CText)
  | setInt (option : CText) (val : Int)
  | setDouble (option : CText) (val : δ)
  | setString (option val : CText)
  | interface (name : CText)

/-- One argument. The program ends if it fails. -/
def argument (cfg : Config d.Value) : Argument d.Value → Config d.Value
  | .option name value => (parseItem true none name value cfg).2
  | .setInt option val => (configSetInt cfg option val).getD cfg
  | .setDouble option val => (configSetDouble cfg option val).getD cfg
  | .setString option val => (configSetString cfg option val).getD cfg
  | .interface name => (configCreateInterface name cfg).2

/-- The configuration after all arguments. -/
def commandLine (arguments : List (Argument d.Value)) : Config d.Value :=
  arguments.foldl argument (configCreate d)

end Parser

/-! ## The names of the options -/

/-- Numbers of which nothing is known. -/
def Doubles.bare : Doubles := ⟨Unit, fun _ => (), fun s => ((), s, false), fun _ _ => false⟩

section Names

variable {d : Doubles} {cfg cfg' : Config d.Value} {item other : ConfigItem d.Value}

/-- The labels of `config_tab`. -/
def configLabels : List CText := (configTab .bare).map ConfigItem.label

theorem configTab_labels : (configTab d).map ConfigItem.label = configLabels := rfl

theorem label_mem (member : item ∈ configTab d) : item.label ∈ configLabels := by
  rw [← configTab_labels (d := d)]
  exact List.mem_map_of_mem member

theorem exists_of_label {label : CText} (member : label ∈ configLabels) :
    ∃ item ∈ configTab d, item.label = label := by
  rw [← configTab_labels (d := d)] at member
  exact List.mem_map.mp member

/-- What is to be known of the labels: they are told apart, they fit, and those with a point in them
do not end with a point and a label. -/
theorem labels_fit : configLabels.Nodup ∧ ∀ label ∈ configLabels, label.length ≤ 31 ∧
    ('.' ∈ label → ∀ last ∈ configLabels, ¬ '.' :: last <:+ label) := by decide +kernel

theorem labels_plain {label last : CText} (mine : label ∈ configLabels)
    (member : last ∈ configLabels) : ¬ '.' :: last <:+ label := by
  intro suffix
  have pointed : '.' ∈ label := suffix.subset List.mem_cons_self
  exact (labels_fit.2 label mine).2 pointed last member suffix

theorem global_plain : '.' ∉ Config.globalSection := by decide

theorem global_length : Config.globalSection.length = 6 := by decide

/-- The name of a global item is not cut off. -/
theorem key_eq {sec name label : CText} (member : label ∈ configLabels)
    (same : Config.key sec name = Config.key Config.globalSection label) :
    sec ++ '.' :: name = Config.globalSection ++ '.' :: label := by
  have short := (labels_fit.2 label member).1
  have fits : (Config.globalSection ++ '.' :: label).length < 139 := by
    rw [List.length_append, List.length_cons, global_length]
    omega
  unfold Config.key at same
  rw [List.take_of_length_le (Nat.le_of_lt fits)] at same
  have shorter : (sec ++ '.' :: name).length ≤ 139 := by
    by_contra long
    have sizes := congrArg List.length same
    rw [List.length_take] at sizes
    omega
  rw [List.take_of_length_le shorter] at same
  exact same

/-- Only one option of the global section has the name of an item. -/
theorem key_global {name label : CText} (member : label ∈ configLabels)
    (same : Config.key Config.globalSection name = Config.key Config.globalSection label) :
    name = label :=
  (List.cons.inj (List.append_cancel_left (key_eq member same))).2

/-- An option of a section has the name of a global item only if the section is called so. -/
theorem key_section {sec first second : CText} (member : first ∈ configLabels)
    (mine : second ∈ configLabels)
    (same : Config.key sec first = Config.key Config.globalSection second) :
    sec = Config.globalSection ∧ first = second := by
  rcases join_eq global_plain (key_eq mine same) with both | suffix
  · exact both
  · exact absurd suffix (labels_plain mine member)

end Names

/-! ## The table is sound -/

section Soundness

variable {d : Doubles} {cfg cfg' : Config d.Value} {item : ConfigItem d.Value}

/-- The global items are those of `config_tab` with other values, and no other items may appear in
port sections. -/
structure Sound (cfg : Config d.Value) : Prop where
  known : ∀ item ∈ configTab d, ∃ now, cfg.globalItem item.label = some now ∧
    now.kind = item.kind ∧ now.port = item.port
  foreign : ∀ name now, cfg.items name = some now → now.port →
    ∃ item ∈ configTab d, name = Config.key Config.globalSection item.label

/-- The value of a global option. -/
def Config.value (cfg : Config d.Value) (label : CText) : Option (ConfigValue d.Value) :=
  (cfg.globalItem label).map ConfigItem.val

/-- A global option that was set on the command line. -/
def Config.Locked (cfg : Config d.Value) (label : CText) : Prop :=
  ∃ item, cfg.globalItem label = some item ∧ item.locked

theorem change_same (name : CText) (update : ConfigItem d.Value → ConfigItem d.Value) :
    (cfg.change name update).items name = (cfg.items name).map update := Function.update_self ..

theorem change_other {name other : CText} (differ : other ≠ name)
    (update : ConfigItem d.Value → ConfigItem d.Value) :
    (cfg.change name update).items other = cfg.items other := Function.update_of_ne differ ..

/-- Changing values and locks keeps the table sound. -/
theorem Sound.change (sound : Sound cfg) (name : CText)
    {update : ConfigItem d.Value → ConfigItem d.Value}
    (same : ∀ item, (update item).kind = item.kind ∧ (update item).port = item.port) :
    Sound (cfg.change name update) where
  known := by
    intro item member
    obtain ⟨now, found, kind, port⟩ := sound.known item member
    unfold Config.globalItem Config.sectionItem at found ⊢
    by_cases here : Config.key Config.globalSection item.label = name
    · rw [here] at found ⊢
      rw [change_same, found]
      exact ⟨update now, rfl, (same now).1.trans kind, (same now).2.trans port⟩
    · rw [change_other here]
      exact ⟨now, found, kind, port⟩
  foreign := by
    intro other now found port
    by_cases here : other = name
    · subst here
      rw [change_same] at found
      obtain ⟨before, there, rfl⟩ := Option.map_eq_some_iff.mp found
      exact sound.foreign other before there ((same before).2 ▸ port)
    · rw [change_other here] at found
      exact sound.foreign other now found port

/-- An insertion leaves what is there. -/
theorem insert_items {name : CText} (inserted : cfg.insert name item = some cfg') :
    cfg.items name = none ∧ cfg'.items = Function.update cfg.items name (some item) := by
  unfold Config.insert at inserted
  split at inserted
  · cases inserted
  next free =>
    rw [← Option.some.inj inserted]
    exact ⟨Option.not_isSome_iff_eq_none.mp free, rfl⟩

/-- The item of a section, found or allocated. -/
structure Obtained (cfg : Config d.Value) (sec label dst : CText) (cfg' : Config d.Value) :
    Prop where
  name : dst = Config.key sec label
  sound : Sound cfg'
  globals : ∀ item ∈ configTab d, cfg'.globalItem item.label = cfg.globalItem item.label

theorem configSectionObtain_obtained (sound : Sound cfg) {sec label dst : CText}
    {kind : ConfigKind d.Value} (member : label ∈ configLabels)
    (obtained : configSectionObtain cfg sec label kind = some (dst, cfg')) :
    Obtained cfg sec label dst cfg' := by
  unfold configSectionObtain at obtained
  split at obtained
  · obtain ⟨rfl, rfl⟩ := Prod.mk.inj (Option.some.inj obtained)
    exact ⟨rfl, sound, fun _ _ => rfl⟩
  · unfold configItemAlloc at obtained
    dsimp only at obtained
    rw [List.take_of_length_le (labels_fit.2 label member).1] at obtained
    obtain ⟨after, inserted, same⟩ := Option.map_eq_some_iff.mp obtained
    obtain ⟨rfl, rfl⟩ := Prod.mk.inj same
    obtain ⟨free, items⟩ := insert_items inserted
    have globals : ∀ item ∈ configTab d, after.globalItem item.label = cfg.globalItem item.label := by
      intro item mine
      obtain ⟨now, found, _⟩ := sound.known item mine
      unfold Config.globalItem Config.sectionItem at found ⊢
      rw [items, Function.update_of_ne]
      rintro here
      rw [here, free] at found
      cases found
    refine ⟨rfl, ⟨?_, ?_⟩, globals⟩
    · intro item mine
      rw [globals item mine]
      exact sound.known item mine
    · intro other now found port
      rw [items] at found
      by_cases here : other = Config.key sec label
      · subst here
        rw [Function.update_self] at found
        rw [← Option.some.inj found] at port
        cases port
      · rw [Function.update_of_ne here] at found
        exact sound.foreign other now found port

/-- Items with other labels leave a global item. -/
theorem register_absent {list : List (ConfigItem d.Value)} {label : CText}
    (member : label ∈ configLabels) (absent : label ∉ list.map ConfigItem.label)
    (items : CText → Option (ConfigItem d.Value)) :
    list.foldl Config.register items (Config.key Config.globalSection label) =
      items (Config.key Config.globalSection label) := by
  induction list generalizing items with
  | nil => rfl
  | cons next rest inductionHypothesis =>
    rw [List.map_cons, List.mem_cons, not_or] at absent
    rw [List.foldl_cons, inductionHypothesis absent.2]
    apply Function.update_of_ne
    intro same
    exact absent.1 (key_global member same.symm).symm

theorem register_found {list : List (ConfigItem d.Value)}
    (distinct : (list.map ConfigItem.label).Nodup) (member : item ∈ list)
    (mine : item.label ∈ configLabels) (items : CText → Option (ConfigItem d.Value)) :
    list.foldl Config.register items (Config.key Config.globalSection item.label) = some item := by
  induction list generalizing items with
  | nil => cases member
  | cons next rest inductionHypothesis =>
    rw [List.map_cons, List.nodup_cons] at distinct
    rw [List.foldl_cons]
    rcases List.mem_cons.mp member with rfl | later
    · rw [register_absent mine distinct.1]
      exact Function.update_self ..
    · exact inductionHypothesis distinct.2 later _

theorem register_name {list : List (ConfigItem d.Value)} {name : CText} {now : ConfigItem d.Value}
    {items : CText → Option (ConfigItem d.Value)}
    (found : list.foldl Config.register items name = some now) :
    items name = some now ∨ ∃ item ∈ list, name = Config.key Config.globalSection item.label := by
  induction list generalizing items with
  | nil => exact Or.inl found
  | cons next rest inductionHypothesis =>
    rcases inductionHypothesis found with before | ⟨item, member, same⟩
    · by_cases here : name = Config.key Config.globalSection next.label
      · exact Or.inr ⟨next, List.mem_cons_self, here⟩
      · unfold Config.register at before
        rw [Function.update_of_ne here] at before
        exact Or.inl before
    · exact Or.inr ⟨item, List.mem_cons_of_mem _ member, same⟩

/-- `config_create` makes a sound table. -/
theorem sound_create : Sound (configCreate d) where
  known := by
    intro item member
    have distinct : ((configTab d).map ConfigItem.label).Nodup :=
      configTab_labels (d := d) ▸ labels_fit.1
    exact ⟨item, register_found distinct member (label_mem member) _, rfl, rfl⟩
  foreign := by
    intro name now found _
    rcases register_name found with impossible | there
    · cases impossible
    · exact there

theorem Sound.congr (sound : Sound cfg) (same : cfg'.items = cfg.items) : Sound cfg' where
  known := by
    unfold Config.globalItem Config.sectionItem
    rw [same]
    exact sound.known
  foreign := by
    rw [same]
    exact sound.foreign

theorem configCreateInterface_items (name : CText) :
    (configCreateInterface name cfg).2.items = cfg.items := by
  unfold configCreateInterface
  split <;> rfl

end Soundness

/-! ## Settings -/

/-- A setting that a file makes in the global section or in another. -/
structure FileSetting where
  sec : Option CText
  option : CText
  value : CText

section Settings

variable {d : Doubles} {cfg cfg' : Config d.Value} {item : ConfigItem d.Value}

/-- The value to which a setting changes a global option without regard to the command line. -/
def written (item : ConfigItem d.Value) (s : FileSetting) : Option (ConfigValue d.Value) :=
  if s.option ≠ item.label then none else
    match s.sec with
    | none => (asapValue s.option s.value).map .int
    | some sec =>
      if sec ≠ Config.globalSection then none else
        match asapValue s.option s.value with
        | some val => some (.int val)
        | none => (parseValue item.kind s.value).toOption

/-- The options that have the interval ASAP. -/
theorem asapValue_option {option value : CText} {val : Int} (asap : asapValue option value = some val) :
    ∃ item ∈ configTab d, item.label = option ∧ ∃ min max, item.kind = .int min max := by
  unfold asapValue at asap
  split at asap
  · cases asap
  split at asap
  next same =>
    exact ⟨portItemInt "fault_badpeernet_interval" 16 intMin intMax, by simp [configTab], same.symm,
      _, _, rfl⟩
  split at asap
  next same =>
    exact ⟨portItemInt "fault_reset_interval" 4 (-128) 127, by simp [configTab], same.symm, _, _, rfl⟩
  · cases asap

/-- What one setting does to the global options: the ones that were locked stay so, and keep their
values unless they are written. -/
structure Sets (s : FileSetting) (cfg cfg' : Config d.Value) : Prop where
  sound : Sound cfg'
  locked : ∀ item ∈ configTab d, cfg.Locked item.label → cfg'.Locked item.label
  value : ∀ item ∈ configTab d, cfg.Locked item.label →
    cfg'.value item.label = (written item s).or (cfg.value item.label)

/-- One item is changed, and it is the item of a global option only if that is written. -/
theorem sets_of_change (sound : Sound cfg) {s : FileSetting} {dst : CText}
    {update : ConfigItem d.Value → ConfigItem d.Value} {val : ConfigValue d.Value}
    (same : ∀ item, (update item).kind = item.kind ∧ (update item).port = item.port ∧
      (item.locked → (update item).locked) ∧ (update item).val = val)
    (writes : ∀ item ∈ configTab d, cfg.Locked item.label →
      if dst = Config.key Config.globalSection item.label then written item s = some val
      else written item s = none) : Sets s cfg (cfg.change dst update) where
  sound := sound.change dst fun item => ⟨(same item).1, (same item).2.1⟩
  locked := by
    rintro item _ ⟨now, found, locked⟩
    unfold Config.Locked
    unfold Config.globalItem Config.sectionItem at found ⊢
    by_cases here : Config.key Config.globalSection item.label = dst
    · rw [here] at found ⊢
      rw [change_same, found]
      exact ⟨update now, rfl, (same now).2.2.1 locked⟩
    · rw [change_other here]
      exact ⟨now, found, locked⟩
  value := by
    intro item member locked
    have effect := writes item member locked
    obtain ⟨now, found, _⟩ := sound.known item member
    unfold Config.value
    unfold Config.globalItem Config.sectionItem at found ⊢
    by_cases here : Config.key Config.globalSection item.label = dst
    · rw [if_pos here.symm] at effect
      rw [effect, here, change_same]
      rw [here] at found
      rw [found]
      exact congrArg some (same now).2.2.2
    · rw [if_neg fun there => here there.symm] at effect
      rw [effect, change_other here]
      rfl

/-- The same for an item that is obtained first. -/
theorem Obtained.sets {sec label dst : CText} {between : Config d.Value}
    (obtained : Obtained cfg sec label dst between) {s : FileSetting}
    (later : Sets s between cfg') : Sets s cfg cfg' where
  sound := later.sound
  locked := by
    intro item member locked
    apply later.locked item member
    unfold Config.Locked at locked ⊢
    rw [obtained.globals item member]
    exact locked
  value := by
    intro item member locked
    have before : between.Locked item.label := by
      unfold Config.Locked at locked ⊢
      rw [obtained.globals item member]
      exact locked
    rw [later.value item member before]
    unfold Config.value
    rw [obtained.globals item member]

/-- A setting of another name does not write. -/
theorem written_elsewhere {sec option value : CText}
    (elsewhere : Config.key sec option ≠ Config.key Config.globalSection item.label) :
    written item ⟨some sec, option, value⟩ = none := by
  unfold written
  by_cases label : option = item.label
  · have differ : sec ≠ Config.globalSection := fun same => elsewhere (by rw [same, label])
    simp [differ]
  · simp [label]

/-- The interval ASAP is set in whatever section. -/
theorem configSetSectionInt_sets (sound : Sound cfg) {sec : Option CText} {option value : CText}
    {val : Int} (asap : asapValue option value = some val)
    (set : configSetSectionInt cfg sec option val = some cfg') : Sets ⟨sec, option, value⟩ cfg cfg' := by
  obtain ⟨own, mine, rfl, min, max, kind⟩ := @asapValue_option d _ _ _ asap
  obtain ⟨now, found, same, _⟩ := sound.known own mine
  unfold configSetSectionInt at set
  rw [found] at set
  dsimp only at set
  rw [same, kind] at set
  cases sec with
  | none =>
    rw [← Option.some.inj set]
    apply sets_of_change sound
    · exact fun item => ⟨rfl, rfl, fun _ => rfl, rfl⟩
    intro item member _
    unfold written
    split
    next here =>
      have label := key_global (label_mem member) here
      rw [label] at asap
      simp [label, asap]
    next other =>
      have differ : own.label ≠ item.label := fun label => other (label ▸ rfl)
      simp [differ]
  | some sec =>
    obtain ⟨⟨dst, between⟩, obtained, rfl⟩ := Option.map_eq_some_iff.mp set
    have there := configSectionObtain_obtained sound (label_mem mine) obtained
    apply there.sets
    apply sets_of_change there.sound
    · exact fun item => ⟨rfl, rfl, id, rfl⟩
    intro item member _
    dsimp only
    rw [there.name]
    split
    next here =>
      obtain ⟨rfl, label⟩ := key_section (label_mem mine) (label_mem member) here
      rw [label] at asap
      simp [written, label, asap]
    next elsewhere => exact written_elsewhere elsewhere

/-- An option is set in whatever section, unless it is a global one and locked. -/
theorem parseOption_sets (sound : Sound cfg) {sec : Option CText} {option value : CText}
    (other : asapValue option value = none)
    (set : parseOption false sec option value cfg = (none, cfg')) :
    Sets ⟨sec, option, value⟩ cfg cfg' := by
  unfold parseOption at set
  split at set
  · cases set
  next cgi found =>
    split at set
    · cases set
    next val parsed =>
      cases sec with
      | some sec =>
        dsimp only at set
        split at set
        · cases set
        next port =>
          split at set
          · cases set
          next dst between obtained =>
            rw [← (Prod.mk.inj set).2]
            have appears : cgi.port := by simpa using port
            obtain ⟨own, mine, same⟩ := sound.foreign _ cgi found appears
            have label := key_global (label_mem mine) same
            subst label
            have there := configSectionObtain_obtained sound (label_mem mine) obtained
            apply there.sets
            apply sets_of_change there.sound
            · exact fun item => ⟨rfl, rfl, fun locked => by simp [locked], rfl⟩
            intro item member _
            obtain ⟨now, known, kind, _⟩ := sound.known item member
            rw [there.name]
            split
            next here =>
              obtain ⟨rfl, label⟩ := key_section (label_mem mine) (label_mem member) here
              rw [label] at found other
              rw [found] at known
              have kinds : cgi.kind = item.kind := Option.some.inj known ▸ kind
              rw [kinds] at parsed
              simp [written, label, other, parsed, Except.toOption]
            next elsewhere => exact written_elsewhere elsewhere
      | none =>
        dsimp only at set
        split at set
        next locked =>
          rw [← (Prod.mk.inj set).2]
          refine ⟨sound, fun _ _ => id, ?_⟩
          intro item member _
          simp [written, other]
        next free =>
          rw [← (Prod.mk.inj set).2]
          apply sets_of_change sound
          · exact fun item => ⟨rfl, rfl, fun locked => by simp [locked], rfl⟩
          rintro item member ⟨now, there, locked⟩
          have differ : Config.key Config.globalSection option ≠
              Config.key Config.globalSection item.label := by
            intro same
            have label := key_global (label_mem member) same
            subst label
            rw [found] at there
            rw [Option.some.inj there] at free
            simp [locked] at free
          rw [if_neg differ]
          simp [written, other]

theorem parseItem_sets (sound : Sound cfg) {sec : Option CText} {option value : CText}
    (set : parseItem false sec option value cfg = (none, cfg')) :
    Sets ⟨sec, option, value⟩ cfg cfg' := by
  unfold parseItem parseFaultInterval at set
  cases asap : asapValue option value with
  | none =>
    rw [asap] at set
    exact parseOption_sets sound asap set
  | some val =>
    rw [asap, Option.map_some, Option.getD_some] at set
    split at set
    · cases set
    next after stored =>
      rw [← (Prod.mk.inj set).2]
      exact configSetSectionInt_sets sound asap stored

end Settings

/-! ## Reading a file -/

/-- The settings of the lines of a file in their sections. -/
def settingsFrom : Option (Option CText) → List CText → List FileSetting
  | _, [] => []
  | current, buf :: rest =>
    match lineOf buf with
    | none => settingsFrom current rest
    | some line =>
      match parseSectionLine line with
      | some .global => settingsFrom (some none) rest
      | some (.port line) => settingsFrom (some (sscanfWord 16 line)) rest
      | none =>
        match current, parseSettingLine line with
        | some sec, some (option, value) =>
          ⟨sec, checkDeprecatedOptions option, value⟩ :: settingsFrom current rest
        | _, _ => settingsFrom current rest

/-- The settings of a file. -/
def fileSettings (file : List Char) : List FileSetting := settingsFrom none (fgets 1024 file)

section Reading

variable {d : Doubles} {cfg cfg' : Config d.Value} {item : ConfigItem d.Value}

/-- The value to which the settings change a global option in the end. -/
def lastWritten (item : ConfigItem d.Value) (settings : List FileSetting) :
    Option (ConfigValue d.Value) := (settings.filterMap (written item)).getLast?

theorem lastWritten_cons (s : FileSetting) (rest : List FileSetting) :
    lastWritten item (s :: rest) = (lastWritten item rest).or (written item s) := by
  unfold lastWritten
  rw [List.filterMap_cons]
  cases written item s with
  | none => exact (Option.or_none).symm
  | some val =>
    dsimp only
    rw [List.getLast?_cons]
    cases (rest.filterMap (written item)).getLast? <;> rfl

theorem sscanfWord_length {width : Nat} {s word : CText} (scanned : sscanfWord width s = some word) :
    word.length ≤ width := by
  unfold sscanfWord at scanned
  split at scanned
  · cases scanned
  · rw [← Option.some.inj scanned, List.length_take]
    exact Nat.min_le_left ..

/-- A short name is the name of its interface. -/
theorem configCreateInterface_name {name : CText} (short : name.length ≤ 16) :
    (configCreateInterface name cfg).1 = name := by
  have whole : name.take 108 = name := List.take_of_length_le (by omega)
  unfold configCreateInterface
  split
  next iface found =>
    have same := List.find?_some found
    rw [decide_eq_true_eq, whole] at same
    have few : iface.length ≤ 108 := by
      by_contra long
      have sizes := congrArg List.length same
      rw [List.length_take] at sizes
      omega
    rw [same, List.take_of_length_le few]
  next => exact whole

/-- A line with a setting is followed by the others. -/
theorem Sets.followed {s : FileSetting} {between : Config d.Value} {rest : List FileSetting}
    (first : Sets s cfg between)
    (later : ∀ item ∈ configTab d, between.Locked item.label →
      cfg'.value item.label = (lastWritten item rest).or (between.value item.label)) :
    ∀ item ∈ configTab d, cfg.Locked item.label →
      cfg'.value item.label = (lastWritten item (s :: rest)).or (cfg.value item.label) := by
  intro item member locked
  rw [later item member (first.locked item member locked), first.value item member locked,
    lastWritten_cons, Option.or_assoc]

/-- What a locked option has after the lines of a file. -/
theorem readLines_value {current : Option (Option CText)} {lines : List CText} (sound : Sound cfg)
    (parsed : readLines current lines cfg = (true, cfg')) :
    ∀ item ∈ configTab d, cfg.Locked item.label → cfg'.value item.label =
      (lastWritten item (settingsFrom current lines)).or (cfg.value item.label) := by
  induction lines generalizing current cfg with
  | nil =>
    intro item _ _
    rw [← (Prod.mk.inj parsed).2]
    rfl
  | cons buf rest inductionHypothesis =>
    unfold readLines at parsed
    unfold settingsFrom
    cases said : lineOf buf with
    | none =>
      rw [said] at parsed
      exact inductionHypothesis sound parsed
    | some line =>
      rw [said] at parsed
      dsimp only at parsed ⊢
      cases heading : parseSectionLine line with
      | some heading' =>
        cases heading' with
        | global =>
          rw [heading] at parsed
          exact inductionHypothesis sound parsed
        | port text =>
          rw [heading] at parsed
          dsimp only at parsed ⊢
          cases scanned : sscanfWord 16 text with
          | none =>
            rw [scanned] at parsed
            cases parsed
          | some port =>
            rw [scanned] at parsed
            dsimp only at parsed
            rw [configCreateInterface_name (sscanfWord_length scanned)] at parsed
            have same : (configCreateInterface port cfg).2.items = cfg.items :=
              configCreateInterface_items port
            have later := inductionHypothesis (sound.congr same) parsed
            unfold Config.Locked Config.value Config.globalItem Config.sectionItem at later ⊢
            rw [same] at later
            exact later
      | none =>
        rw [heading] at parsed
        cases current with
        | none => cases parsed
        | some sec =>
          cases setting : parseSettingLine line with
          | none =>
            rw [setting] at parsed
            cases parsed
          | some pair =>
            obtain ⟨option, value⟩ := pair
            rw [setting] at parsed
            dsimp only at parsed ⊢
            generalize made : parseItem false sec (checkDeprecatedOptions option) value cfg = result
              at parsed
            obtain ⟨outcome, between⟩ := result
            cases outcome with
            | some _ => cases parsed
            | none =>
              have sets := parseItem_sets sound made
              exact sets.followed (inductionHypothesis sets.sound parsed)

end Reading

/-! ## The command line and the file -/

section Arguments

variable {d : Doubles} {cfg cfg' : Config d.Value}

/-- A global option is set and locked, and nothing else is changed. -/
structure Locks (cfg : Config d.Value) (label : CText) (cfg' : Config d.Value) : Prop where
  known : (cfg.globalItem label).isSome
  changed : ∃ update : ConfigItem d.Value → ConfigItem d.Value,
    cfg' = cfg.change (Config.key Config.globalSection label) update ∧
      ∀ item, (update item).kind = item.kind ∧ (update item).port = item.port ∧
        (update item).locked

/-- The option is locked afterwards. -/
theorem Locks.locked {label : CText} (locks : Locks cfg label cfg') : cfg'.Locked label := by
  obtain ⟨known, update, rfl, same⟩ := locks
  obtain ⟨now, found⟩ := Option.isSome_iff_exists.mp known
  refine ⟨update now, ?_, (same now).2.2⟩
  unfold Config.globalItem Config.sectionItem at found ⊢
  rw [change_same, found]
  rfl

/-- No lock is taken off: an item is left as it is, or it is the one that is locked. -/
theorem Locks.keeps {label other : CText} (locks : Locks cfg label cfg')
    (before : cfg.Locked other) : cfg'.Locked other := by
  obtain ⟨_, update, rfl, same⟩ := locks
  obtain ⟨now, found, locked⟩ := before
  unfold Config.Locked
  unfold Config.globalItem Config.sectionItem at found ⊢
  by_cases here : Config.key Config.globalSection other = Config.key Config.globalSection label
  · rw [here] at found ⊢
    rw [change_same, found]
    exact ⟨update now, rfl, (same now).2.2⟩
  · rw [change_other here]
    exact ⟨now, found, locked⟩

theorem Locks.sound {label : CText} (locks : Locks cfg label cfg') (sound : Sound cfg) :
    Sound cfg' := by
  obtain ⟨_, update, rfl, same⟩ := locks
  exact sound.change _ fun item => ⟨(same item).1, (same item).2.1⟩

theorem configSetInt_locks {option : CText} {val : Int}
    (set : configSetInt cfg option val = some cfg') : Locks cfg option cfg' := by
  unfold configSetInt configSetSectionInt at set
  split at set
  · cases set
  next found =>
    split at set
    · cases set
    · cases set
    all_goals
      rw [← Option.some.inj set]
      exact ⟨Option.isSome_of_mem found, _, rfl, fun _ => ⟨rfl, rfl, rfl⟩⟩

theorem configSetDouble_locks {option : CText} {val : d.Value}
    (set : configSetDouble cfg option val = some cfg') : Locks cfg option cfg' := by
  unfold configSetDouble at set
  split at set
  · cases set
  next found =>
    split at set
    · rw [← Option.some.inj set]
      exact ⟨Option.isSome_of_mem found, _, rfl, fun _ => ⟨rfl, rfl, rfl⟩⟩
    · cases set

theorem configSetString_locks {option val : CText}
    (set : configSetString cfg option val = some cfg') : Locks cfg option cfg' := by
  unfold configSetString at set
  split at set
  · cases set
  next found =>
    split at set
    · rw [← Option.some.inj set]
      exact ⟨Option.isSome_of_mem found, _, rfl, fun _ => ⟨rfl, rfl, rfl⟩⟩
    · cases set

/-- An option of the command line that is parsed is locked, the interval ASAP as any other. One that
is not parsed changes nothing. -/
theorem parseItem_locks (cfg : Config d.Value) (name value : CText) :
    Locks cfg name (parseItem true none name value cfg).2 ∨
      (parseItem true none name value cfg).1 ≠ none ∧
        (parseItem true none name value cfg).2 = cfg := by
  unfold parseItem parseFaultInterval
  cases asapValue name value with
  | some val =>
    rw [Option.map_some, Option.getD_some]
    split
    · exact Or.inr ⟨nofun, rfl⟩
    next after set => exact Or.inl (configSetInt_locks set)
  | none =>
    rw [Option.map_none, Option.getD_none]
    unfold parseOption
    split
    · exact Or.inr ⟨nofun, rfl⟩
    next cgi found =>
      split
      · exact Or.inr ⟨nofun, rfl⟩
      · exact Or.inl ⟨Option.isSome_of_mem found, _, rfl,
          fun item => ⟨rfl, rfl, Bool.or_true item.locked⟩⟩

/-- The option that an argument sets. -/
def Argument.label {δ : Type} : Argument δ → Option CText
  | .option name _ | .setInt name _ | .setDouble name _ | .setString name _ => some name
  | .interface _ => none

/-- An argument is taken: the program goes on. -/
def Argument.Taken (cfg : Config d.Value) : Argument d.Value → Prop
  | .option name value => (parseItem true none name value cfg).1 = none
  | .setInt name val => (configSetInt cfg name val).isSome
  | .setDouble name val => (configSetDouble cfg name val).isSome
  | .setString name val => (configSetString cfg name val).isSome
  | .interface _ => True

theorem locks_of_set {label : CText} {set : Option (Config d.Value)}
    (locks : ∀ after, set = some after → Locks cfg label after) (done : set.isSome = true) :
    Locks cfg label (set.getD cfg) := by
  obtain ⟨after, rfl⟩ := Option.isSome_iff_exists.mp done
  exact locks after rfl

/-- An argument that sets an option and is taken locks it. -/
theorem argument_locks {given : Argument d.Value} {label : CText} (named : given.label = some label)
    (taken : given.Taken cfg) : Locks cfg label (argument cfg given) := by
  cases given with
  | option name value =>
    cases named
    exact (parseItem_locks cfg _ value).resolve_right fun failed => failed.1 taken
  | setInt option val =>
    cases named
    exact locks_of_set (fun _ => configSetInt_locks) taken
  | setDouble option val =>
    cases named
    exact locks_of_set (fun _ => configSetDouble_locks) taken
  | setString option val =>
    cases named
    exact locks_of_set (fun _ => configSetString_locks) taken
  | interface name => cases named

/-- Every other argument leaves all options alone. -/
theorem argument_items (given : Argument d.Value) :
    (∃ label, given.label = some label ∧ Locks cfg label (argument cfg given)) ∨
      (argument cfg given).items = cfg.items := by
  have setter {label : CText} {set : Option (Config d.Value)}
      (locks : ∀ after, set = some after → Locks cfg label after) :
      Locks cfg label (set.getD cfg) ∨ (set.getD cfg).items = cfg.items := by
    cases set with
    | none => exact Or.inr rfl
    | some after => exact Or.inl (locks after rfl)
  cases given with
  | option name value =>
    rcases parseItem_locks cfg name value with locks | ⟨_, same⟩
    · exact Or.inl ⟨name, rfl, locks⟩
    · exact Or.inr (congrArg Config.items same)
  | setInt option val =>
    exact (setter fun _ => configSetInt_locks).imp_left fun locks => ⟨option, rfl, locks⟩
  | setDouble option val =>
    exact (setter fun _ => configSetDouble_locks).imp_left fun locks => ⟨option, rfl, locks⟩
  | setString option val =>
    exact (setter fun _ => configSetString_locks).imp_left fun locks => ⟨option, rfl, locks⟩
  | interface name => exact Or.inr (configCreateInterface_items name)

theorem argument_sound (sound : Sound cfg) (given : Argument d.Value) :
    Sound (argument cfg given) := by
  rcases argument_items given with ⟨_, _, locks⟩ | same
  · exact locks.sound sound
  · exact sound.congr same

/-- Later arguments take no lock off. -/
theorem argument_keeps {label : CText} (before : cfg.Locked label) (given : Argument d.Value) :
    (argument cfg given).Locked label := by
  rcases argument_items given with ⟨_, _, locks⟩ | same
  · exact locks.keeps before
  · unfold Config.Locked Config.globalItem Config.sectionItem
    rw [same]
    exact before

theorem commandLine_sound (arguments : List (Argument d.Value)) :
    Sound (commandLine arguments) := by
  have walk : ∀ (arguments : List (Argument d.Value)) (cfg : Config d.Value), Sound cfg →
      Sound (arguments.foldl argument cfg) := by
    intro arguments
    induction arguments with
    | nil => exact fun _ sound => sound
    | cons given rest inductionHypothesis =>
      exact fun cfg sound => inductionHypothesis _ (argument_sound sound given)
  exact walk arguments _ sound_create

/-- An option that an argument sets, if the argument is taken, is locked once the command line is
read, whatever comes before and after it: so what is said of locked options is said of all that were
given there. -/
theorem commandLine_locks {before after : List (Argument d.Value)} {given : Argument d.Value}
    {label : CText} (named : given.label = some label) (taken : given.Taken (commandLine before)) :
    (commandLine (before ++ given :: after)).Locked label := by
  unfold commandLine
  rw [List.foldl_append, List.foldl_cons]
  exact List.foldlRecOn (motive := fun cfg => cfg.Locked label) after argument
    (argument_locks named taken).locked fun _ locked given _ => argument_keeps locked given

/-- What a file does to the options that were set on the command line. -/
def Respects (file : List Char) (cfg : Config d.Value) : Prop :=
  ∀ item ∈ configTab d, cfg.Locked item.label → ∀ val,
    lastWritten item (fileSettings file) = some val → cfg.value item.label = some val

/-- After a configuration file that was parsed to its end, the options that were set on the command
line have the values from there exactly if the file writes no other value to one of them by the
interval ASAP in the global section, or by an option in a section that is called `global` without
being the global one. -/
theorem command_line_wins {arguments : List (Argument d.Value)} {file : List Char}
    (parsed : (configRead file (commandLine arguments)).1 = 0) :
    (∀ item ∈ configTab d, (commandLine arguments).Locked item.label →
      (configRead file (commandLine arguments)).2.value item.label =
        (commandLine arguments).value item.label) ↔
      Respects file (commandLine arguments) := by
  have sound := commandLine_sound arguments
  have values := @readLines_value d (commandLine arguments)
    (readLines none (fgets 1024 file) (commandLine arguments)).2 none (fgets 1024 file) sound
  have whole : (readLines none (fgets 1024 file) (commandLine arguments)).1 = true := by
    unfold configRead at parsed
    dsimp only at parsed
    by_contra failed
    rw [if_neg failed] at parsed
    cases parsed
  have final := values (Prod.ext whole rfl)
  unfold Respects fileSettings
  change (∀ item ∈ configTab d, _ →
    (readLines none (fgets 1024 file) (commandLine arguments)).2.value item.label = _) ↔ _
  constructor
  · intro kept item member locked val last
    rw [← kept item member locked, final item member locked, last]
    rfl
  · intro respects item member locked
    rw [final item member locked]
    cases last : lastWritten item (settingsFrom none (fgets 1024 file)) with
    | none => rfl
    | some val => exact (respects item member locked val last).symm

end Arguments

/-- An option on the command line. -/
def givenOption (name value : String) : Argument Doubles.bare.Value :=
  .option name.toList value.toList

instance : DecidableEq Doubles.bare.Value := inferInstanceAs (DecidableEq Unit)

/-- A file that sets the options as they are set on the command line, and others. -/
def agreeingFile : List Char :=
  "[global]\nfault_reset_interval 7\npriority1 1\n[global ]\nlogSyncInterval 0x0\n".toList

theorem command_line_wins_agreeing :
    (configRead agreeingFile (commandLine
      [givenOption "fault_reset_interval" "7", givenOption "logSyncInterval" "0"])).1 = 0 ∧
    ((∀ item ∈ configTab .bare,
      (commandLine [givenOption "fault_reset_interval" "7",
        givenOption "logSyncInterval" "0"]).Locked item.label →
      (configRead agreeingFile (commandLine [givenOption "fault_reset_interval" "7",
        givenOption "logSyncInterval" "0"])).2.value item.label =
        (commandLine [givenOption "fault_reset_interval" "7",
          givenOption "logSyncInterval" "0"]).value item.label) ↔
      Respects agreeingFile (commandLine [givenOption "fault_reset_interval" "7",
        givenOption "logSyncInterval" "0"])) := by
  have parsed : (configRead agreeingFile (commandLine
      [givenOption "fault_reset_interval" "7", givenOption "logSyncInterval" "0"])).1 = 0 := by
    decide +kernel
  exact ⟨parsed, command_line_wins parsed⟩

/-- A file that sets an interval to ASAP. -/
def hastyFile : List Char := "[global]\nfault_reset_interval ASAP\n".toList

/-- A file with a section that is not the global one, but has its name. -/
def spacedFile : List Char := "[ global ]\nlogSyncInterval 1\n".toList

/-- A file that is parsed to its end leaves an option locked, but not at its value. -/
structure Overridden {d : Doubles} (cfg : Config d.Value) (file : List Char) (option : CText) (val : Int) :
    Prop where
  locked : (cfg.globalItem option).map ConfigItem.locked = some true
  parsed : (configRead file cfg).1 = 0
  before : cfg.value option ≠ some (.int val)
  after : (configRead file cfg).2.value option = some (.int val)

theorem command_line_loses :
    Overridden (commandLine [givenOption "fault_reset_interval" "5"]) hastyFile
        "fault_reset_interval".toList friAsap ∧
      Overridden (commandLine [givenOption "logSyncInterval" "0"]) spacedFile
        "logSyncInterval".toList 1 ∧
      ¬∀ (arguments : List (Argument Doubles.bare.Value)) (file : List Char),
        (configRead file (commandLine arguments)).1 = 0 →
        ∀ item ∈ configTab .bare, (commandLine arguments).Locked item.label →
          (configRead file (commandLine arguments)).2.value item.label =
            (commandLine arguments).value item.label := by
  have hasty : Overridden (commandLine [givenOption "fault_reset_interval" "5"]) hastyFile
      "fault_reset_interval".toList friAsap := by
    constructor <;> decide +kernel
  have spaced : Overridden (commandLine [givenOption "logSyncInterval" "0"]) spacedFile
      "logSyncInterval".toList 1 := by
    constructor <;> decide +kernel
  refine ⟨hasty, spaced, fun wins => ?_⟩
  obtain ⟨item, member, label⟩ := @exists_of_label .bare "fault_reset_interval".toList
    (by decide +kernel)
  obtain ⟨now, found, locked⟩ := Option.map_eq_some_iff.mp hasty.locked
  have kept := wins _ _ hasty.parsed item member ⟨now, label ▸ found, locked⟩
  rw [label] at kept
  exact hasty.before (kept.symm.trans hasty.after)

end LinuxPtp
