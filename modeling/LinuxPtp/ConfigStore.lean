import LinuxPtp.ChainedTables
import LinuxPtp.ConfigFile
import LinuxPtp.Runs
import LinuxPtp.ScopedMaps
import Mathlib.Algebra.Group.Nat.Defs

/-!
# The store of the configuration

The options are kept in one chained hash table, under keys that are made of a section and a label.
Reading lines with options makes of it a map with scopes: what is found for an interface is the
last value that a line of its section gave, or else the last one of the global section, or else the
default. Not so if an interface takes the name of the global section, if a global option has been
set to ASAP before, and if a number is not one.
-/

namespace LinuxPtp

open CText ScopedMaps Runs

/-! ## The hash table (`hash.c`) -/

/-- A `char`, of which the sign is that of the machine, in unsigned arithmetic. -/
def charValue (c : Char) : Nat := if c.toNat < 128 then c.toNat else 2 ^ 32 - 256 + c.toNat

/-- `hash_function`. -/
def hashFunction (s : CText) : Fin 200 :=
  Fin.ofNat 200 (s.foldl (fun i c => (131 * i + charValue c) % 2 ^ 32) 0)

/-- `struct hash`, with items for data. -/
abbrev HashTable (δ : Type) := ChainedTables.Table 200 CText (ConfigItem δ)

/-- The table that `config_create` fills with the defaults. -/
def hashDefaults (d : Doubles) : HashTable d.Value :=
  (configTab d).foldl (fun table item => (ChainedTables.insert hashFunction table
    (Config.key Config.globalSection item.label) item).getD table) ChainedTables.empty

/-- A configuration whose items are in a hash table: every step of one is a step of the other. -/
inductive Built {d : Doubles} : HashTable d.Value → Config d.Value → Prop where
  | create : Built (hashDefaults d) (configCreate d)
  | insert {table after : HashTable d.Value} {cfg next : Config d.Value} {name : CText}
      {item : ConfigItem d.Value} (built : Built table cfg)
      (stored : ChainedTables.insert hashFunction table name item = some after)
      (inserted : cfg.insert name item = some next) : Built after next
  | change {table : HashTable d.Value} {cfg : Config d.Value} (name : CText)
      (update : ConfigItem d.Value → ConfigItem d.Value) (built : Built table cfg) :
      Built (ChainedTables.modify hashFunction table name update) (cfg.change name update)

section Hash

variable {d : Doubles} {table : HashTable d.Value} {cfg next : Config d.Value} {name : CText}
  {item : ConfigItem d.Value}

/-- Items whose keys are not there yet are all inserted. -/
theorem find_defaults {list : List (ConfigItem d.Value)}
    {items : CText → Option (ConfigItem d.Value)} (distinct : (list.map ConfigItem.label).Nodup)
    (known : ∀ item ∈ list, item.label ∈ configLabels)
    (agree : ∀ name, ChainedTables.find hashFunction table name = items name)
    (free : ∀ item ∈ list, items (Config.key Config.globalSection item.label) = none)
    (name : CText) :
    ChainedTables.find hashFunction (list.foldl (fun table item =>
      (ChainedTables.insert hashFunction table
        (Config.key Config.globalSection item.label) item).getD table) table) name =
          list.foldl Config.register items name := by
  induction list generalizing table items with
  | nil => exact agree name
  | cons head rest inductionHypothesis =>
    obtain ⟨fresh, distinct⟩ := List.nodup_cons.mp distinct
    have absent : ¬ (ChainedTables.find hashFunction table
        (Config.key Config.globalSection head.label)).isSome := by
      rw [agree, free head List.mem_cons_self]
      exact Bool.noConfusion
    obtain ⟨after, inserted⟩ := Option.ne_none_iff_exists'.mp fun refused =>
      absent (ChainedTables.insert_none.mp refused : (ChainedTables.find _ _ _).isSome)
    rw [List.foldl_cons, List.foldl_cons, inserted, Option.getD_some]
    refine inductionHypothesis distinct (fun item member => known item (.tail _ member)) ?_ ?_
    · intro other
      rw [ChainedTables.find_insert inserted, Config.register, Function.update_apply, agree]
    · intro item member
      rw [Config.register, Function.update_of_ne, free item (.tail _ member)]
      intro same
      have label := key_global (known head List.mem_cons_self) same
      exact fresh (label ▸ List.mem_map_of_mem member)

/-- The items are what is found in the table. -/
theorem Built.finds (built : Built table cfg) (name : CText) :
    ChainedTables.find hashFunction table name = cfg.items name := by
  induction built generalizing name with
  | create =>
    refine find_defaults ?_ (fun _ member => label_mem member) (fun _ => ChainedTables.find_empty)
      (fun _ _ => rfl) name
    exact configTab_labels (d := d) ▸ labels_fit.1
  | insert built stored inserted inductionHypothesis =>
    rw [ChainedTables.find_insert stored, (insert_items inserted).2, Function.update_apply,
      inductionHypothesis]
  | change other update built inductionHypothesis =>
    rw [ChainedTables.find_modify, inductionHypothesis, inductionHypothesis]
    exact (Function.update_apply ..).symm

/-- The table takes what the configuration takes. -/
theorem Built.insert_some (built : Built table cfg) (inserted : cfg.insert name item = some next) :
    ∃ after, Built after next := by
  have absent : ¬ (ChainedTables.find hashFunction table name).isSome := by
    rw [built.finds, (insert_items inserted).1]
    exact Bool.noConfusion
  obtain ⟨after, stored⟩ := Option.ne_none_iff_exists'.mp fun refused =>
    absent (ChainedTables.insert_none.mp refused)
  exact ⟨after, .insert built stored inserted⟩

end Hash

/-! ## Lines and lookups -/

section Lines

variable {d : Doubles}

/-- `config_find_item`. -/
def configFindItem (cfg : Config d.Value) (sec : Option CText) (name : CText) :
    Option (ConfigItem d.Value) :=
  (sec.bind fun sec => cfg.sectionItem sec name).or (cfg.globalItem name)

/-- The value that is found for an option. -/
def Config.lookup (cfg : Config d.Value) (sec : Option CText) (name : CText) :
    Option (ConfigValue d.Value) := (configFindItem cfg sec name).map ConfigItem.val

/-- A line of a section is parsed, with whatever result. -/
def storeLine (cfg : Config d.Value) (line : FileSetting) : Config d.Value :=
  (parseItem false line.sec line.option line.value cfg).2

/-- The configuration after lines. -/
def storeLines (d : Doubles) (lines : List FileSetting) : Config d.Value :=
  lines.foldl storeLine (configCreate d)

/-- The entry of `config_tab` with a label. -/
def declared (d : Doubles) (label : CText) : Option (ConfigItem d.Value) :=
  KeyedLists.lookup ConfigItem.label label (configTab d)

/-- What a line gives to its option, if it is one that can be given there. -/
def given (d : Doubles) (line : FileSetting) : Option (ConfigValue d.Value) :=
  (declared d line.option).bind fun item =>
    match asapValue line.option line.value with
    | some val => some (.int val)
    | none =>
      if line.sec.isSome && !item.port then none else (parseValue item.kind line.value).toOption

/-- A value in the range that is declared, or of a keyword that is. -/
def Admits (isnan : d.Value → Bool) (item : ConfigItem d.Value) : ConfigValue d.Value → Prop
  | .int i =>
    match item.kind with
    | .int min max => min ≤ i ∧ i ≤ max
    | .enum tab => ∃ label, (label, i) ∈ tab
    | _ => False
  | .double x =>
    match item.kind with
    | .double min max => isnan x = false ∧ d.less x min = false ∧ d.less max x = false
    | _ => False
  | .string s => item.kind = .string ∧ s.isSome

/-- The settings that lines make. -/
def settings (d : Doubles) (lines : List FileSetting) :
    List (Setting CText CText (ConfigValue d.Value)) :=
  lines.filterMap fun line => (given d line).map fun val => ⟨line.sec, line.option, val⟩

/-- The map that they make. -/
def settled (d : Doubles) (lines : List FileSetting) :
    ScopedMap CText CText (ConfigValue d.Value) := (settings d lines).foldl ScopedMap.set empty

/-- The name of an interface under which keys of the global section are found: this name, or one
that begins with it and a point. -/
def Aliases (sec : CText) : Bool := (Config.globalSection ++ ['.']).isPrefixOf (sec ++ ['.'])

/-- What is asked of a line that gives a value: its interface is not named like the global section,
a global option that is locked by ASAP has the value already, and a number is one. -/
structure Regular (isnan : d.Value → Bool) (cfg : Config d.Value) (line : FileSetting) : Prop where
  named : ∀ sec, line.sec = some sec → Aliases sec = false
  unlocked : line.sec = none → cfg.Locked line.option →
    asapValue line.option line.value = none → cfg.value line.option = given d line
  number : ∀ x, given d line = some (.double x) → isnan x = false

/-- What one line is to do after others. An accepted line gives its option a value that is admitted,
which is found exactly where it reaches; a rejected line changes nothing. -/
def Stores (isnan : d.Value → Bool) (before : List FileSetting) (line : FileSetting)
    (cfg : Config d.Value) : Prop :=
  match parseItem false line.sec line.option line.value cfg with
  | (none, next) => ∃ item ∈ configTab d, item.label = line.option ∧ ∃ val,
      given d line = some val ∧ Admits isnan item val ∧
      ∀ iface, ∀ other ∈ configTab d,
        (Reaches (settled d before) ⟨line.sec, line.option, val⟩ iface other.label →
          next.lookup iface other.label = some val) ∧
        (¬ Reaches (settled d before) ⟨line.sec, line.option, val⟩ iface other.label →
          next.lookup iface other.label = cfg.lookup iface other.label)
  | (some _, next) => given d line = none ∧
      ∀ iface, ∀ other ∈ configTab d, next.lookup iface other.label = cfg.lookup iface other.label

end Lines

/-! ## Keys -/

section Keys

variable {sec iface first second : CText}

/-- The key of a section with a short name is not cut off. -/
theorem key_short (short : sec.length ≤ 16) (member : first ∈ configLabels) :
    Config.key sec first = sec ++ '.' :: first := by
  have small := (labels_fit.2 first member).1
  rw [Config.key, List.take_of_length_le]
  rw [List.length_append, List.length_cons]
  omega

/-- A key that is the same is not cut off either. -/
theorem key_whole {name : CText} (short : sec.length ≤ 16) (member : first ∈ configLabels)
    (same : Config.key iface name = Config.key sec first) :
    iface ++ '.' :: name = sec ++ '.' :: first := by
  have small := (labels_fit.2 first member).1
  rw [key_short short member] at same
  have sizes := congrArg List.length same
  rw [Config.key, List.length_take, List.length_append, List.length_append, List.length_cons,
    List.length_cons] at sizes
  rw [← same, Config.key, List.take_of_length_le]
  rw [List.length_append, List.length_cons]
  omega

/-- Two sections with options of one key are one, and so are the options. -/
theorem key_inj (short : sec.length ≤ 16) (member : first ∈ configLabels)
    (mine : second ∈ configLabels) (same : Config.key iface second = Config.key sec first) :
    iface = sec ∧ second = first := by
  rcases List.append_eq_append_iff.mp (key_whole short member same) with
    ⟨rest, longer, follows⟩ | ⟨rest, longer, follows⟩ <;>
    rcases rest with _ | ⟨head, rest⟩
  · rw [List.append_nil] at longer
    exact ⟨longer.symm, (List.cons.inj follows).2⟩
  · rw [List.cons_append] at follows
    obtain ⟨rfl, tail⟩ := List.cons.inj follows
    exact absurd ⟨rest, tail.symm⟩ (labels_plain mine member)
  · rw [List.append_nil] at longer
    exact ⟨longer, (List.cons.inj follows).2.symm⟩
  · rw [List.cons_append] at follows
    obtain ⟨rfl, tail⟩ := List.cons.inj follows
    exact absurd ⟨rest, tail.symm⟩ (labels_plain member mine)

/-- A key of the global section is one of another section only if that is named like it. -/
theorem aliases_of_key {name : CText} (short : sec.length ≤ 16) (member : first ∈ configLabels)
    (same : Config.key Config.globalSection name = Config.key sec first) : Aliases sec := by
  rw [Aliases, List.isPrefixOf_iff_prefix]
  rcases List.append_eq_append_iff.mp (key_whole short member same) with
    ⟨rest, longer, follows⟩ | ⟨rest, longer, follows⟩ <;>
    rcases rest with _ | ⟨head, rest⟩
  · rw [longer, List.append_nil]
  · rw [List.cons_append] at follows
    obtain ⟨rfl, -⟩ := List.cons.inj follows
    rw [longer]
    exact ⟨rest ++ ['.'], by simp⟩
  · rw [List.append_nil] at longer
    rw [longer]
  · rw [List.cons_append] at follows
    obtain ⟨rfl, -⟩ := List.cons.inj follows
    exact absurd (longer ▸ List.mem_append_right _ List.mem_cons_self) global_plain

theorem aliases_global : Aliases Config.globalSection := by decide

end Keys

/-! ## The configuration as a map with scopes -/

section Representation

variable {d : Doubles} {cfg next between : Config d.Value}
  {map : ScopedMap CText CText (ConfigValue d.Value)} {label : CText}
  {item new : ConfigItem d.Value}

/-- A name under which an item may be: that of a global option, or that of an option in another
section. -/
def Keyed (name : CText) : Prop :=
  (∃ label ∈ configLabels, name = Config.key Config.globalSection label) ∨
    ∃ sec : CText, sec.length ≤ 16 ∧ Aliases sec = false ∧
      ∃ label ∈ configLabels, name = Config.key sec label

/-- The items of a configuration are the values of a map. -/
structure Represents (cfg : Config d.Value) (map : ScopedMap CText CText (ConfigValue d.Value)) :
    Prop where
  sound : Sound cfg
  keyed : ∀ name item, cfg.items name = some item → Keyed name
  outer : ∀ item ∈ configTab d, cfg.value item.label = some ((map.outer item.label).getD item.val)
  inner : ∀ sec, ∀ item ∈ configTab d, sec ≠ Config.globalSection →
    (cfg.sectionItem sec item.label).map ConfigItem.val = map.inner sec item.label
  plain : ∀ label, map.inner Config.globalSection label = none

/-- A lookup finds what the map has, or else the default. -/
theorem Represents.lookup (represents : Represents cfg map) (iface : Option CText)
    (member : item ∈ configTab d) :
    cfg.lookup iface item.label = some ((map.find iface item.label).getD item.val) := by
  have outer := represents.outer item member
  rw [Config.value] at outer
  cases iface with
  | none => exact outer
  | some sec =>
    rw [Config.lookup, configFindItem, Option.bind_some, ScopedMap.find]
    by_cases same : sec = Config.globalSection
    · subst same
      rw [represents.plain, Option.none_or, ← outer, Config.globalItem, Option.or_self]
    · rw [← represents.inner sec item member same]
      cases cfg.sectionItem sec item.label with
      | none => exact outer
      | some own => rfl

/-- The defaults are an empty map. -/
theorem represents_create : Represents (configCreate d) empty where
  sound := sound_create
  keyed := by
    intro name item found
    rcases register_name found with impossible | ⟨own, member, same⟩
    · cases impossible
    · exact .inl ⟨own.label, label_mem member, same⟩
  outer := by
    intro item member
    have distinct : ((configTab d).map ConfigItem.label).Nodup :=
      configTab_labels (d := d) ▸ labels_fit.1
    have found : (configCreate d).globalItem item.label = some item :=
      register_found distinct member (label_mem member) _
    rw [Config.value, found]
    rfl
  inner := by
    intro sec item member differ
    have absent : (configCreate d).sectionItem sec item.label = none := by
      cases found : (configCreate d).sectionItem sec item.label with
      | none => rfl
      | some own =>
        rcases register_name found with impossible | ⟨other, mine, same⟩
        · cases impossible
        · exact absurd (key_section (label_mem member) (label_mem mine) same).1 differ
    rw [absent]
    rfl
  plain := fun _ => rfl

/-- A global option has a new value. -/
theorem Represents.setGlobal (represents : Represents cfg map) (sound : Sound next)
    (mine : label ∈ configLabels) (items : next.items =
      Function.update cfg.items (Config.key Config.globalSection label) (some new)) :
    Represents next (map.set ⟨none, label, new.val⟩) where
  sound := sound
  keyed := by
    intro name item found
    rw [items, Function.update_apply] at found
    split at found
    next same => exact .inl ⟨label, mine, same⟩
    next => exact represents.keyed name item found
  outer := by
    intro item member
    rw [set_outer, Config.value, Config.globalItem, Config.sectionItem, items,
      Function.update_apply]
    by_cases same : label = item.label
    · rw [if_pos (by rw [same]), if_pos ⟨rfl, same⟩]
      rfl
    · rw [if_neg fun also => same (key_global mine also).symm, if_neg fun both => same both.2]
      exact represents.outer item member
  inner := by
    intro sec item member differ
    rw [inner_set_none, Config.sectionItem, items,
      Function.update_of_ne fun same => differ (key_section (label_mem member) mine same).1]
    exact represents.inner sec item member differ
  plain := by
    intro other
    rw [inner_set_none]
    exact represents.plain other

/-- An option has a new value in a section. -/
theorem Represents.setSection (represents : Represents cfg map) (sound : Sound next) {sec : CText}
    (short : sec.length ≤ 16) (named : Aliases sec = false) (mine : label ∈ configLabels)
    (items : next.items = Function.update cfg.items (Config.key sec label) (some new)) :
    Represents next (map.set ⟨some sec, label, new.val⟩) := by
  have own : sec ≠ Config.globalSection := by
    rintro rfl
    rw [aliases_global] at named
    cases named
  refine ⟨sound, ?_, ?_, ?_, ?_⟩
  · intro name item found
    rw [items, Function.update_apply] at found
    split at found
    next same => exact .inr ⟨sec, short, named, label, mine, same⟩
    next => exact represents.keyed name item found
  · intro item member
    rw [outer_set_some, Config.value, Config.globalItem, Config.sectionItem, items,
      Function.update_of_ne fun same => own (key_section mine (label_mem member) same.symm).1]
    exact represents.outer item member
  · intro other item member differ
    rw [set_inner, Config.sectionItem, items, Function.update_apply]
    by_cases same : sec = other ∧ label = item.label
    · obtain ⟨rfl, rfl⟩ := same
      rw [if_pos rfl, if_pos ⟨rfl, rfl⟩]
      rfl
    · rw [if_neg, if_neg]
      · exact represents.inner other item member differ
      · rintro ⟨also, label⟩
        exact same ⟨Option.some.inj also, label⟩
      · intro also
        obtain ⟨rfl, rfl⟩ := key_inj short mine (label_mem member) also
        exact same ⟨rfl, rfl⟩
  · intro other
    rw [set_inner, if_neg]
    · exact represents.plain other
    · rintro ⟨also, -⟩
      exact own (Option.some.inj also)

/-- An option that has its value already may as well be set. -/
theorem Represents.setSame (represents : Represents cfg map) {val : ConfigValue d.Value}
    (same : cfg.value label = some val) : Represents cfg (map.set ⟨none, label, val⟩) where
  sound := represents.sound
  keyed := represents.keyed
  outer := by
    intro other mine
    rw [set_outer]
    by_cases here : label = other.label
    · rw [if_pos ⟨rfl, here⟩, ← here]
      exact same
    · rw [if_neg fun both => here both.2]
      exact represents.outer other mine
  inner := by
    intro sec other mine differ
    rw [inner_set_none]
    exact represents.inner sec other mine differ
  plain := by
    intro other
    rw [inner_set_none]
    exact represents.plain other

end Representation

/-! ## What a line does -/

section Outcome

variable {d : Doubles} {cfg next between : Config d.Value}
  {map : ScopedMap CText CText (ConfigValue d.Value)} {label : CText} {item : ConfigItem d.Value}
  {line : FileSetting} {val : ConfigValue d.Value}

theorem declared_some (found : declared d label = some item) :
    item ∈ configTab d ∧ item.label = label :=
  KeyedLists.lookup_some found

theorem declared_member (member : item ∈ configTab d) : declared d item.label = some item := by
  have distinct : KeyedLists.Unique ConfigItem.label (configTab d) := by
    rw [KeyedLists.Unique, configTab_labels]
    exact labels_fit.1
  exact KeyedLists.lookup_member distinct member

/-- Without a default there is no global item. -/
theorem globalItem_undeclared (represents : Represents cfg map) (bogus : declared d label = none) :
    cfg.globalItem label = none := by
  have foreign : label ∉ configLabels := by
    rw [← configTab_labels (d := d)]
    exact KeyedLists.lookup_none.mp bogus
  cases found : cfg.globalItem label with
  | none => rfl
  | some now =>
    exfalso
    rcases represents.keyed _ now found with
      ⟨own, mine, same⟩ | ⟨sec, short, named, own, mine, same⟩
    · exact foreign (key_global mine same ▸ mine)
    · rw [aliases_of_key short mine same] at named
      cases named

/-- With a default there is one, of the kind that is declared. -/
theorem globalItem_declared (represents : Represents cfg map)
    (found : declared d label = some item) :
    ∃ now, cfg.globalItem label = some now ∧ now.kind = item.kind ∧ now.port = item.port := by
  obtain ⟨member, rfl⟩ := declared_some found
  exact represents.sound.known item member

/-- A line that gives nothing is rejected. -/
theorem parseItem_rejected (represents : Represents cfg map) (gives : given d line = none) :
    ∃ err, parseItem false line.sec line.option line.value cfg = (some err, cfg) := by
  rw [given, Option.bind_eq_none_iff] at gives
  rw [parseItem, parseFaultInterval]
  cases found : declared d line.option with
  | none =>
    have absent := globalItem_undeclared represents found
    cases asap : asapValue line.option line.value with
    | none =>
      rw [Option.map_none, Option.getD_none, parseOption, absent]
      exact ⟨_, rfl⟩
    | some val =>
      obtain ⟨own, mine, label, -⟩ := @asapValue_option d _ _ _ asap
      obtain ⟨now, there, -⟩ := represents.sound.known own mine
      rw [label, absent] at there
      cases there
  | some item =>
    have rejects := gives item found
    cases asap : asapValue line.option line.value with
    | some val =>
      rw [asap] at rejects
      cases rejects
    | none =>
      obtain ⟨now, there, kind, port⟩ := globalItem_declared represents found
      rw [asap] at rejects
      rw [Option.map_none, Option.getD_none, parseOption, there]
      dsimp only at rejects ⊢
      rw [kind, port]
      cases parsed : parseValue item.kind line.value with
      | error err => exact ⟨_, rfl⟩
      | ok val =>
        cases scope : line.sec with
        | none =>
          rw [scope, parsed] at rejects
          cases rejects
        | some sec =>
          dsimp only
          split
          · exact ⟨_, rfl⟩
          next appears =>
            rw [scope, parsed, if_neg (by simpa using appears)] at rejects
            cases rejects

/-- A line is accepted, and its value is stored unless the option is locked. -/
def Accepts (cfg : Config d.Value) (line : FileSetting) (val : ConfigValue d.Value) : Prop :=
  match line.sec with
  | some sec => ∃ kind update between, (∀ item, (update item).val = val) ∧
      configSectionObtain cfg sec line.option kind =
        some (Config.key sec line.option, between) ∧
      parseItem false line.sec line.option line.value cfg =
        (none, between.change (Config.key sec line.option) update)
  | none => (∃ update, (∀ item, (update item).val = val) ∧
      parseItem false line.sec line.option line.value cfg =
        (none, cfg.change (Config.key Config.globalSection line.option) update)) ∨
      cfg.Locked line.option ∧ asapValue line.option line.value = none ∧
        parseItem false line.sec line.option line.value cfg = (none, cfg)

/-- A line with ASAP for one of the two intervals is, whether it is locked or not. -/
theorem asap_accepted (represents : Represents cfg map) {fault : Int}
    (asap : asapValue line.option line.value = some fault) : Accepts cfg line (.int fault) := by
  obtain ⟨item, member, mine, min, max, whole⟩ := @asapValue_option d _ _ _ asap
  have fits : line.option.length ≤ 31 := mine ▸ (labels_fit.2 _ (label_mem member)).1
  obtain ⟨now, there, kind, -⟩ := globalItem_declared represents (mine ▸ declared_member member)
  rw [Accepts, parseItem, parseFaultInterval, asap, Option.map_some, Option.getD_some,
    configSetSectionInt, there]
  dsimp only
  rw [kind, whole]
  cases line.sec with
  | none => exact .inl ⟨_, fun _ => rfl, rfl⟩
  | some sec =>
    obtain ⟨between, obtained⟩ := configSectionObtain_total cfg sec fits (.int min max)
    dsimp only
    rw [obtained]
    exact ⟨_, _, between, fun _ => rfl, obtained, rfl⟩

/-- So is a line with another value that can be read, for an option that the section may have. -/
theorem parsed_accepted (represents : Represents cfg map)
    (found : declared d line.option = some item) (asap : asapValue line.option line.value = none)
    (appears : ¬ (line.sec.isSome && !item.port) = true)
    (parsed : parseValue item.kind line.value = .ok val) : Accepts cfg line val := by
  obtain ⟨member, mine⟩ := declared_some found
  have fits : line.option.length ≤ 31 := mine ▸ (labels_fit.2 _ (label_mem member)).1
  obtain ⟨now, there, kind, port⟩ := globalItem_declared represents found
  rw [Accepts, parseItem, parseFaultInterval, asap, Option.map_none, Option.getD_none, parseOption,
    there]
  dsimp only
  rw [kind, port, parsed]
  cases scope : line.sec with
  | none =>
    dsimp only
    cases locked : now.locked with
    | true => exact .inr ⟨⟨now, there, locked⟩, rfl, rfl⟩
    | false => exact .inl ⟨_, fun _ => rfl, rfl⟩
  | some sec =>
    obtain ⟨between, obtained⟩ := configSectionObtain_total cfg sec fits item.kind
    rw [scope] at appears
    dsimp only
    rw [if_neg (by simpa using appears), obtained]
    exact ⟨_, _, between, fun _ => rfl, obtained, rfl⟩

/-- A line that gives a value is accepted with it. -/
theorem parseItem_accepted (represents : Represents cfg map) (gives : given d line = some val) :
    Accepts cfg line val := by
  obtain ⟨item, found, gives⟩ := Option.bind_eq_some_iff.mp gives
  cases asap : asapValue line.option line.value with
  | some fault =>
    rw [asap] at gives
    obtain rfl := Option.some.inj gives
    exact asap_accepted represents asap
  | none =>
    rw [asap] at gives
    dsimp only at gives
    split at gives
    · cases gives
    next appears =>
      cases parsed : parseValue item.kind line.value with
      | error err => rw [parsed] at gives; cases gives
      | ok value =>
        rw [parsed] at gives
        obtain rfl := Option.some.inj gives
        exact parsed_accepted represents found asap appears parsed

/-- The intervals that ASAP stands for are in the ranges of their options. -/
theorem asapValue_admitted {value : CText} {fault : Int} (isnan : d.Value → Bool)
    (asap : asapValue label value = some fault) (found : declared d label = some item) :
    Admits isnan item (.int fault) := by
  rw [asapValue] at asap
  split at asap
  · cases asap
  split at asap
  next same =>
    obtain rfl := Option.some.inj asap
    have own := @declared_member d (portItemInt "fault_badpeernet_interval" 16 intMin intMax)
      (by simp [configTab])
    have found : declared d "fault_badpeernet_interval".toList = some item := same ▸ found
    obtain rfl := Option.some.inj (found.symm.trans own)
    exact (by decide : intMin ≤ 0 ∧ 0 ≤ intMax)
  split at asap
  next same =>
    obtain rfl := Option.some.inj asap
    have own := @declared_member d (portItemInt "fault_reset_interval" 4 (-128) 127)
      (by simp [configTab])
    have found : declared d "fault_reset_interval".toList = some item := same ▸ found
    obtain rfl := Option.some.inj (found.symm.trans own)
    exact (by decide : -128 ≤ friAsap ∧ friAsap ≤ 127)
  · cases asap

/-- A result that is wrapped is one that was there. -/
theorem wrapped_ok {α β : Type} {result : Except ParserError α} {wrap : α → β} {b : β}
    (wrapped : result.map wrap = .ok b) : ∃ a, result = .ok a ∧ wrap a = b := by
  cases result with
  | error err => cases wrapped
  | ok a => exact ⟨a, rfl, Except.ok.inj wrapped⟩

/-- An integer that is accepted is in its range. -/
theorem getRangedInt_inside {value : CText} {min max i : Int}
    (ranged : getRangedInt value min max = .ok i) : min ≤ i ∧ i ≤ max := by
  rw [getRangedInt] at ranged
  split at ranged
  · cases ranged
  split at ranged
  · cases ranged
  split at ranged
  · cases ranged
  next inside =>
    obtain rfl := Except.ok.inj ranged
    omega

/-- A number that is accepted compares with neither end of its range as being outside. -/
theorem getRangedDouble_inside {value : CText} {min max x : d.Value}
    (ranged : getRangedDouble d value min max = .ok x) :
    d.less x min = false ∧ d.less max x = false := by
  rw [getRangedDouble] at ranged
  dsimp only at ranged
  split at ranged
  · cases ranged
  split at ranged
  · cases ranged
  next inside =>
    obtain rfl := Except.ok.inj ranged
    obtain ⟨low, high⟩ := not_or.mp (not_or.mp inside).2
    exact ⟨by simpa using low, by simpa using high⟩

/-- A value that is parsed for a declaration is admitted by it, if it is a number or none is asked
for. -/
theorem parseValue_admitted {value : CText} (isnan : d.Value → Bool)
    (parsed : parseValue item.kind value = .ok val)
    (number : ∀ x, val = .double x → isnan x = false) : Admits isnan item val := by
  cases kind : item.kind with
  | int min max =>
    rw [kind] at parsed
    obtain ⟨i, ranged, rfl⟩ := wrapped_ok parsed
    rw [Admits, kind]
    exact getRangedInt_inside ranged
  | double min max =>
    rw [kind] at parsed
    obtain ⟨x, ranged, rfl⟩ := wrapped_ok parsed
    rw [Admits, kind]
    exact ⟨number x rfl, getRangedDouble_inside ranged⟩
  | enum tab =>
    rw [kind, parseValue] at parsed
    split at parsed
    next label own found =>
      obtain rfl := Except.ok.inj parsed
      rw [Admits, kind]
      exact ⟨label, List.mem_of_find?_eq_some found⟩
    · cases parsed
  | string =>
    rw [kind] at parsed
    obtain rfl := Except.ok.inj parsed
    exact ⟨kind, rfl⟩

/-- What a line gives is admitted. -/
theorem given_admitted (isnan : d.Value → Bool) (gives : given d line = some val)
    (number : ∀ x, given d line = some (.double x) → isnan x = false) :
    ∃ item ∈ configTab d, item.label = line.option ∧ Admits isnan item val := by
  have counts : ∀ x, val = .double x → isnan x = false := fun x same => number x (same ▸ gives)
  obtain ⟨item, found, gives⟩ := Option.bind_eq_some_iff.mp gives
  obtain ⟨member, mine⟩ := declared_some found
  refine ⟨item, member, mine, ?_⟩
  cases asap : asapValue line.option line.value with
  | some fault =>
    rw [asap] at gives
    obtain rfl := Option.some.inj gives
    exact asapValue_admitted isnan asap found
  | none =>
    rw [asap] at gives
    dsimp only at gives
    split at gives
    · cases gives
    cases parsed : parseValue item.kind line.value with
    | error err => rw [parsed] at gives; cases gives
    | ok value =>
      rw [parsed] at gives
      obtain rfl := Option.some.inj gives
      exact parseValue_admitted isnan parsed counts

end Outcome

/-! ## One line after another -/

section Run

variable {d : Doubles} {cfg next between : Config d.Value} {table : HashTable d.Value}
  {label sec dst : CText} {kind : ConfigKind d.Value} {line : FileSetting}
  {isnan : d.Value → Bool} {lines before : List FileSetting}

/-- An item that is obtained is there or inserted, and then one item is changed. -/
theorem obtain_items (fits : label.length ≤ 31)
    (obtained : configSectionObtain cfg sec label kind = some (Config.key sec label, between))
    (update : ConfigItem d.Value → ConfigItem d.Value) :
    ∃ own, (between.change (Config.key sec label) update).items =
      Function.update cfg.items (Config.key sec label) (some (update own)) := by
  rw [configSectionObtain] at obtained
  split at obtained
  next there =>
    obtain ⟨own, found⟩ := Option.isSome_iff_exists.mp there
    obtain rfl := (Prod.mk.inj (Option.some.inj obtained)).2
    refine ⟨own, ?_⟩
    have found : cfg.items (Config.key sec label) = some own := found
    rw [Config.change, found]
    rfl
  next =>
    rw [configItemAlloc, List.take_of_length_le fits] at obtained
    obtain ⟨after, inserted, same⟩ := Option.map_eq_some_iff.mp obtained
    obtain rfl := (Prod.mk.inj same).2
    have items := (insert_items inserted).2
    refine ⟨{ label := label, kind := kind.allocated.1, val := kind.allocated.2 }, ?_⟩
    rw [Config.change, items, Function.update_self, Option.map_some, Function.update_idem]

theorem Built.obtained (built : Built table cfg)
    (obtained : configSectionObtain cfg sec label kind = some (dst, between)) :
    ∃ after, Built after between := by
  rw [configSectionObtain] at obtained
  split at obtained
  next =>
    obtain rfl := (Prod.mk.inj (Option.some.inj obtained)).2
    exact ⟨table, built⟩
  next =>
    obtain ⟨after, inserted, same⟩ := Option.map_eq_some_iff.mp obtained
    obtain rfl := (Prod.mk.inj same).2
    exact built.insert_some inserted

theorem settled_append (before : List FileSetting) (line : FileSetting) :
    settled d (before ++ [line]) = match given d line with
      | none => settled d before
      | some val => (settled d before).set ⟨line.sec, line.option, val⟩ := by
  rw [settled, settings, List.filterMap_append, List.foldl_append, ← settings, ← settled]
  cases gives : given d line <;> simp [gives]

/-- What a line makes of the configuration. -/
structure Follows (cfg next : Config d.Value) (before : List FileSetting) (line : FileSetting) :
    Prop where
  represents : Represents next (settled d (before ++ [line]))
  built : ∀ table, Built table cfg → ∃ after, Built after next

/-- A line that gives a value makes a setting. -/
theorem accepted_follows (represents : Represents cfg (settled d before))
    (scanned : ∀ sec, line.sec = some sec → sec.length ≤ 16) {val : ConfigValue d.Value}
    (gives : given d line = some val) (regular : Regular isnan cfg line) :
    ∃ next, parseItem false line.sec line.option line.value cfg = (none, next) ∧
      Follows cfg next before line := by
  have accepted := parseItem_accepted represents gives
  rw [Accepts] at accepted
  have appended := settled_append (d := d) before line
  rw [gives] at appended
  obtain ⟨item, found, -⟩ := Option.bind_eq_some_iff.mp gives
  have mine : line.option ∈ configLabels :=
    (declared_some found).2 ▸ label_mem (declared_some found).1
  cases scope : line.sec with
  | some sec =>
    rw [scope] at accepted appended
    obtain ⟨kind, update, between, stores, obtained, outcome⟩ := accepted
    obtain ⟨own, items⟩ := obtain_items (labels_fit.2 _ mine).1 obtained update
    refine ⟨_, outcome, ?_, ?_⟩
    · rw [appended, ← stores own]
      exact represents.setSection (parseItem_sets represents.sound outcome).sound
        (scanned sec scope) (regular.named sec scope) mine items
    · intro table built
      obtain ⟨after, there⟩ := built.obtained obtained
      exact ⟨_, there.change _ update⟩
  | none =>
    rw [scope] at accepted appended
    rcases accepted with ⟨update, stores, outcome⟩ | ⟨locked, slow, outcome⟩
    · obtain ⟨own, known, -⟩ := globalItem_declared represents found
      have known : cfg.items (Config.key Config.globalSection line.option) = some own := known
      have items : (cfg.change (Config.key Config.globalSection line.option) update).items =
          Function.update cfg.items (Config.key Config.globalSection line.option)
            (some (update own)) := by
        rw [Config.change, known]
        rfl
      refine ⟨_, outcome, ?_, fun table built => ⟨_, built.change _ update⟩⟩
      rw [appended, ← stores own]
      exact represents.setGlobal (parseItem_sets represents.sound outcome).sound mine items
    · refine ⟨cfg, outcome, ?_, fun table built => ⟨table, built⟩⟩
      rw [appended]
      exact represents.setSame ((regular.unlocked scope locked slow).trans gives)

/-- Every line stores what it is to store, and the configuration goes on to be the map. -/
theorem line_stores (represents : Represents cfg (settled d before))
    (scanned : ∀ sec, line.sec = some sec → sec.length ≤ 16)
    (regular : (given d line).isSome → Regular isnan cfg line) :
    Stores isnan before line cfg ∧ Follows cfg (storeLine cfg line) before line := by
  have appended := settled_append (d := d) before line
  cases gives : given d line with
  | none =>
    obtain ⟨err, outcome⟩ := parseItem_rejected represents gives
    rw [gives] at appended
    have same : storeLine cfg line = cfg := congrArg Prod.snd outcome
    rw [Stores, outcome, same]
    exact ⟨⟨gives, fun _ _ _ => rfl⟩, appended ▸ represents, fun table built => ⟨table, built⟩⟩
  | some val =>
    have regular := regular (by rw [gives]; rfl)
    obtain ⟨next, outcome, follows⟩ := accepted_follows represents scanned gives regular
    have same : storeLine cfg line = next := congrArg Prod.snd outcome
    rw [Stores, outcome, same]
    refine ⟨?_, follows⟩
    obtain ⟨item, member, mine, admits⟩ := given_admitted isnan gives regular.number
    refine ⟨item, member, mine, val, gives, admits, fun iface other known => ?_⟩
    have after := follows.represents.lookup iface known
    rw [appended, gives] at after
    obtain ⟨reached, missed⟩ := @find_set _ _ _ _ _ (settled d before)
      ⟨line.sec, line.option, val⟩ iface other.label
    constructor
    · intro reaches
      rw [after, reached reaches]
      rfl
    · intro misses
      rw [after, missed misses, represents.lookup iface known]

/-- What is asked along the lines. -/
def RegularLine (isnan : d.Value → Bool) (cfg : Config d.Value) (line : FileSetting) : Prop :=
  (∀ sec, line.sec = some sec → sec.length ≤ 16) ∧
    ((given d line).isSome → Regular isnan cfg line)

/-- From a configuration that is the map of the lines before. -/
theorem lines_store (represents : Represents cfg (settled d before)) (built : Built table cfg)
    (regular : Along storeLine (RegularLine isnan) cfg lines) :
    (∀ first line rest, lines = first ++ line :: rest →
      Stores isnan (before ++ first) line (first.foldl storeLine cfg)) ∧
    Represents (lines.foldl storeLine cfg) (settled d (before ++ lines)) ∧
    ∃ after, Built after (lines.foldl storeLine cfg) := by
  induction lines generalizing before cfg table with
  | nil =>
    refine ⟨fun first line rest impossible => by simp at impossible, ?_, table, built⟩
    rw [List.append_nil]
    exact represents
  | cons head tail inductionHypothesis =>
    obtain ⟨⟨scanned, orderly⟩, later⟩ := regular
    obtain ⟨stores, follows⟩ := line_stores represents scanned orderly
    obtain ⟨after, built⟩ := follows.built table built
    obtain ⟨others, final, hashed⟩ := inductionHypothesis follows.represents built later
    rw [List.append_assoc, List.singleton_append] at final
    refine ⟨?_, final, hashed⟩
    rintro (_ | ⟨first, between⟩) line rest same
    · obtain ⟨rfl, rfl⟩ := List.cons.inj same
      rw [List.append_nil]
      exact stores
    · obtain ⟨rfl, rfl⟩ := List.cons.inj same
      have there := others between line rest rfl
      rw [List.append_assoc, List.singleton_append] at there
      exact there

end Run

/-- Lines of the global section and of others make a map with scopes of the configuration. Each that
is accepted gives its option a value that is admitted, found exactly where it reaches, and each that
is rejected changes no lookup. In the end every lookup finds the last value of its section, or else
the last global one, or else the default, and it finds it in the hash table.

Proof: by induction on the lines. Each of them changes one option of one scope of the map, or none,
and the map is kept as the table of items with their sections in the keys. The hash table is built
in the same steps and finds each item by its name. -/
theorem store_two_level (d : Doubles) (isnan : d.Value → Bool) (lines : List FileSetting)
    (regular : Along storeLine (RegularLine isnan) (configCreate d) lines) :
    (∀ before line rest, lines = before ++ line :: rest →
      Stores isnan before line (storeLines d before)) ∧
    (∀ iface, ∀ item ∈ configTab d, (storeLines d lines).lookup iface item.label =
      some ((latest (settings d lines) iface item.label).getD item.val)) ∧
    ∃ table, Built table (storeLines d lines) ∧
      ∀ name, ChainedTables.find hashFunction table name = (storeLines d lines).items name := by
  obtain ⟨stores, represents, table, built⟩ :=
    @lines_store d _ _ isnan lines [] represents_create .create regular
  refine ⟨stores, fun iface item member => ?_, table, built, built.finds⟩
  rw [storeLines, represents.lookup iface member, List.nil_append, settled, find_foldl]

/-- A line of the global section and one of an interface. -/
def ordinaryLines : List FileSetting :=
  [⟨none, "slaveOnly".toList, "1".toList⟩, ⟨some "eth0".toList, "egressLatency".toList, "5".toList⟩]

theorem store_two_level_ordinary :
    (∀ before line rest, ordinaryLines = before ++ line :: rest →
      Stores (fun _ => false) before line (storeLines .bare before)) ∧
    (∀ iface, ∀ item ∈ configTab .bare, (storeLines .bare ordinaryLines).lookup iface item.label =
      some ((latest (settings .bare ordinaryLines) iface item.label).getD item.val)) ∧
    ∃ table, Built table (storeLines .bare ordinaryLines) ∧
      ∀ name, ChainedTables.find hashFunction table name =
        (storeLines .bare ordinaryLines).items name := by
  refine store_two_level .bare (fun _ => false) ordinaryLines ⟨⟨?_, fun _ => ⟨?_, ?_, ?_⟩⟩,
    ⟨⟨?_, fun _ => ⟨?_, ?_, ?_⟩⟩, trivial⟩⟩
  · exact nofun
  · exact nofun
  · rintro - ⟨item, found, locked⟩
    have free :
        ((configCreate .bare).globalItem "slaveOnly".toList).any ConfigItem.locked = false := by
      decide +kernel
    rw [found] at free
    exact absurd locked (by simpa using free)
  · exact fun _ _ => rfl
  · rintro sec same
    obtain rfl := Option.some.inj same
    decide
  · rintro sec same
    obtain rfl := Option.some.inj same
    decide
  · exact nofun
  · exact fun _ _ => rfl

/-- An interval after ASAP, both global. -/
def hastyLines : List FileSetting :=
  [⟨none, "fault_reset_interval".toList, "ASAP".toList⟩,
    ⟨none, "fault_reset_interval".toList, "7".toList⟩]

/-- A line of an interface that is called like the global section. -/
def aliasLines : List FileSetting :=
  [⟨some Config.globalSection, "logSyncInterval".toList, "1".toList⟩]

/-- A line of an interface whose name begins like that, and the same item under a name that no
option has. -/
def pointedLines : List FileSetting :=
  [⟨some "global.x".toList, "egressLatency".toList, "5".toList⟩,
    ⟨none, "x.egressLatency".toList, "0".toList⟩]

/-- Numbers among which is one that is not a number. -/
def Doubles.withNan : Doubles where
  Value := Option Int
  constant := fun _ => some 0
  strtod := fun s => if s = "nan".toList then (none, [], false) else (some 0, s, false)
  less := fun left right => left.isSome && right.isSome && decide (left.getD 0 < right.getD 0)

instance : DecidableEq Doubles.withNan.Value := inferInstanceAs (DecidableEq (Option Int))

/-- Lines that are all accepted leave a value that is neither the last one nor the default. -/
structure Strays (lines : List FileSetting) (iface : Option CText) (option : CText) (val : Int) :
    Prop where
  accepted : Along storeLine (fun cfg line =>
    (parseItem false line.sec line.option line.value cfg).1 = none) (configCreate .bare) lines
  found : (storeLines .bare lines).lookup iface option = some (.int val)
  differs : (latest (settings .bare lines) iface option).or
    ((configCreate .bare).lookup iface option) ≠ some (.int val)

/-- The second interval is ignored, the line of the interface is found for others, a line of which
the option is not declared is stored in its place, and so is a number that is none. -/
theorem store_not_two_level :
    Strays hastyLines none "fault_reset_interval".toList friAsap ∧
    Strays aliasLines (some "eth0".toList) "logSyncInterval".toList 1 ∧
    Strays pointedLines (some "global.x".toList) "egressLatency".toList 0 ∧
    (storeLines .withNan [⟨none, "step_threshold".toList, "nan".toList⟩]).lookup none
        "step_threshold".toList = some (.double none) := by
  have hasty : Strays hastyLines none "fault_reset_interval".toList friAsap := by
    constructor <;> decide +kernel
  have aliased : Strays aliasLines (some "eth0".toList) "logSyncInterval".toList 1 := by
    constructor <;> decide +kernel
  have pointed : Strays pointedLines (some "global.x".toList) "egressLatency".toList 0 := by
    constructor <;> decide +kernel
  exact ⟨hasty, aliased, pointed, by decide +kernel⟩

end LinuxPtp
