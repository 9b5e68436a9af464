import LinuxPtp.ConfigFile
import Mathlib.Data.Set.Defs

/-!
# Comments in a configuration file

`config_read` is compared with itself on the file without its empty lines and without the lines
that begin with a hash sign. A comment that is longer than the buffer is cut, and what follows the
cut is read as if it were a line.

The condition is on the pieces into which the buffer cuts the lines. It is stated for one file and
one configuration, up to the piece at which reading ends; what no comment may contain, in any
file, is a second condition that is exact.
-/

namespace LinuxPtp

open CText

/-! ## Lines -/

/-- The lines of a file, each with its newline. The last line may have none. -/
def fileLines : List Char → List (List Char)
  | [] => []
  | c :: rest =>
    if c = '\n' then [c] :: fileLines rest
    else match fileLines rest with
      | [] => [[c]]
      | line :: more => (c :: line) :: more

/-- The lines that are said to be ignored: empty ones, and those that begin with a hash sign. -/
def ignored (line : List Char) : Bool := line = ['\n'] || line.head? = some '#'

/-- A file without such lines. -/
def stripped (file : List Char) : List Char :=
  ((fileLines file).filter fun line => !ignored line).flatten

/-- What `config_read` looks at of a file: whatever it reads at once that is not skipped. -/
def said (file : List Char) : List CText := (fgets 1024 file).filterMap lineOf

/-- A comment, without the newline behind it. -/
structure IsComment (text : List Char) : Prop where
  marked : text.head? = some '#'
  single : '\n' ∉ text

/-- The comments of a file. -/
def comments (file : List Char) : Set (List Char) :=
  { text | IsComment text ∧ (text ∈ fileLines file ∨ text ++ ['\n'] ∈ fileLines file) }

/-- Whatever is read at once of a comment is blank or begins with a hash sign again. -/
def Harmless (text : List Char) : Prop := ∀ piece ∈ fgets 1024 text, lineOf piece = none

section Lines

variable {file text rest line : List Char} {lines : List (List Char)}

theorem fileLines_flatten (file : List Char) : (fileLines file).flatten = file := by
  induction file with
  | nil => rfl
  | cons c rest inductionHypothesis =>
    rw [fileLines]
    split
    · rw [List.flatten_cons, inductionHypothesis]
      rfl
    · split
      next empty =>
        rw [empty] at inductionHypothesis
        rw [← inductionHypothesis]
        rfl
      next first more split =>
        rw [split, List.flatten_cons] at inductionHypothesis
        rw [List.flatten_cons, List.cons_append, inductionHypothesis]

/-- A line with its newline. -/
def Ended (line : List Char) : Prop := ∃ text, line = text ++ ['\n']

/-- Only the last line may lack its newline. -/
theorem fileLines_ended (file : List Char) :
    (fileLines file).Pairwise fun line _ => Ended line := by
  induction file with
  | nil => exact List.Pairwise.nil
  | cons c rest inductionHypothesis =>
    rw [fileLines]
    split
    next newline =>
      have empty : Ended [c] := ⟨[], by rw [newline]; rfl⟩
      exact List.pairwise_cons.mpr ⟨fun _ _ => empty, inductionHypothesis⟩
    · split
      next empty => exact List.pairwise_singleton ..
      next first more split =>
        rw [split, List.pairwise_cons] at inductionHypothesis
        refine List.pairwise_cons.mpr ⟨fun later member => ?_, inductionHypothesis.2⟩
        obtain ⟨text, rfl⟩ := inductionHypothesis.1 later member
        exact ⟨c :: text, rfl⟩

/-- A line has one newline at most, and at its end. -/
theorem fileLines_shape (member : line ∈ fileLines file) :
    ∃ text, '\n' ∉ text ∧ (line = text ∨ line = text ++ ['\n']) := by
  induction file generalizing line with
  | nil => cases member
  | cons c rest inductionHypothesis =>
    rw [fileLines] at member
    split at member
    next newline =>
      rcases List.mem_cons.mp member with rfl | later
      · exact ⟨[], List.not_mem_nil, .inr (by rw [newline]; rfl)⟩
      · exact inductionHypothesis later
    next other =>
      split at member
      · obtain rfl := List.mem_singleton.mp member
        exact ⟨[c], fun same => other (List.mem_singleton.mp same).symm, .inl rfl⟩
      next first more split =>
        rcases List.mem_cons.mp member with rfl | later
        · obtain ⟨text, plain, either⟩ := inductionHypothesis (split ▸ List.mem_cons_self)
          refine ⟨c :: text, fun inside => ?_, either.imp (congrArg _) (congrArg _)⟩
          rcases List.mem_cons.mp inside with same | inside
          · exact other same.symm
          · exact plain inside
        · exact inductionHypothesis (split ▸ List.mem_cons_of_mem _ later)

/-- A text without newlines is the first line if a newline follows it. -/
theorem fileLines_text (plain : '\n' ∉ text) (rest : List Char) :
    fileLines (text ++ '\n' :: rest) = (text ++ ['\n']) :: fileLines rest := by
  induction text with
  | nil => rfl
  | cons c text inductionHypothesis =>
    rw [List.mem_cons, not_or] at plain
    rw [List.cons_append, fileLines, if_neg (Ne.symm plain.1), inductionHypothesis plain.2]
    rfl

end Lines

/-! ## What is said -/

section Said

variable {file text : List Char} {lines : List (List Char)}

/-- Behind a newline the buffer is filled anew. -/
theorem fgetsFrom_append (size room : Nat) (line text rest : List Char) :
    fgetsFrom size room line (text ++ '\n' :: rest) =
      fgetsFrom size room line (text ++ ['\n']) ++ fgetsFrom size size [] rest := by
  induction text generalizing room line with
  | nil => simp [fgetsFrom]
  | cons c text inductionHypothesis =>
    rw [List.cons_append, List.cons_append, fgetsFrom, fgetsFrom]
    split
    · rw [inductionHypothesis, List.cons_append]
    · exact inductionHypothesis _ _

theorem said_append (text rest : List Char) :
    said (text ++ '\n' :: rest) = said (text ++ ['\n']) ++ said rest := by
  rw [said, fgets, fgetsFrom_append, List.filterMap_append]
  rfl

/-- A newline at the end of the buffer is white space. -/
theorem lineOf_newline (buf : List Char) :
    lineOf (ofBuffer (buf ++ ['\n'])) = lineOf (ofBuffer buf) := by
  rw [ofBuffer, List.takeWhile_append]
  split
  next whole =>
    have same : ofBuffer buf = buf :=
      (List.takeWhile_prefix _).eq_of_length whole
    rw [same]
    change lineOf (buf ++ ['\n']) = lineOf buf
    rw [lineOf, lineOf, List.dropWhile_append]
    cases buf.dropWhile isspace with
    | nil => rfl
    | cons c rest =>
      simp only [List.isEmpty_cons, Bool.false_eq_true, if_false, List.cons_append]
      split
      · rfl
      · rw [← List.cons_append, List.rdropWhile_concat_pos _ _ _ (by decide)]
  next => rfl

theorem said_newline (text : List Char) : said (text ++ ['\n']) = said text := by
  have walk : ∀ (room : Nat) (line : List Char),
      (fgetsFrom 1023 room line (text ++ ['\n'])).filterMap lineOf =
        (fgetsFrom 1023 room line text).filterMap lineOf := by
    induction text with
    | nil =>
      intro room line
      have last : lineOf (ofBuffer ('\n' :: line).reverse) = lineOf (ofBuffer line.reverse) := by
        rw [List.reverse_cons]
        exact lineOf_newline line.reverse
      cases line with
      | nil => rfl
      | cons c line =>
        simp only [List.nil_append, fgetsFrom, true_or, if_true, List.isEmpty_cons,
          List.isEmpty_nil, Bool.false_eq_true, if_false, List.filterMap_cons, List.filterMap_nil,
          last]
    | cons c text inductionHypothesis =>
      intro room line
      rw [List.cons_append, fgetsFrom, fgetsFrom]
      split
      · rw [List.filterMap_cons, List.filterMap_cons, inductionHypothesis]
      · exact inductionHypothesis _ _
  exact walk 1023 []

/-- The lines of a file are read on their own, each in one piece or more. -/
theorem fgets_flatten (ended : lines.Pairwise fun line _ => Ended line) :
    fgets 1024 lines.flatten = lines.flatMap (fgets 1024) := by
  induction lines with
  | nil => rfl
  | cons line rest inductionHypothesis =>
    rw [List.pairwise_cons] at ended
    rw [List.flatten_cons, List.flatMap_cons, ← inductionHypothesis ended.2]
    cases rest with
    | nil =>
      rw [List.flatten_nil, List.append_nil]
      exact (List.append_nil _).symm
    | cons next rest =>
      obtain ⟨text, rfl⟩ := ended.1 next List.mem_cons_self
      rw [List.append_assoc, List.singleton_append, fgets, fgetsFrom_append]
      rfl

theorem said_flatten (ended : lines.Pairwise fun line _ => Ended line) :
    said lines.flatten = lines.flatMap said := by
  rw [said, fgets_flatten ended, List.filterMap_flatMap]
  rfl

theorem said_eq (file : List Char) : said file = (fileLines file).flatMap said := by
  rw [← said_flatten (fileLines_ended file), fileLines_flatten]

theorem said_stripped (file : List Char) :
    said (stripped file) = ((fileLines file).filter fun line => !ignored line).flatMap said :=
  said_flatten ((fileLines_ended file).filter _)

/-- Harmless texts say nothing. -/
theorem harmless_iff : Harmless text ↔ said text = [] := List.filterMap_eq_nil_iff.symm

end Said

/-! ## Reading -/

section Reading

variable {d : Doubles} {cfg cfg' : Config d.Value} {current : Option (Option CText)}

/-- Lines that say nothing are skipped. -/
theorem readLines_silent {bufs : List CText} (silent : ∀ buf ∈ bufs, lineOf buf = none)
    (rest : List CText) (current : Option (Option CText)) (cfg : Config d.Value) :
    readLines current (bufs ++ rest) cfg = readLines current rest cfg := by
  induction bufs with
  | nil => rfl
  | cons buf bufs inductionHypothesis =>
    rw [List.cons_append, readLines, silent buf List.mem_cons_self]
    exact inductionHypothesis fun other member => silent other (List.mem_cons_of_mem _ member)

/-- Reading ends at a piece, or goes on behind it, whatever follows. -/
theorem readLines_cons (current : Option (Option CText)) (buf : CText) (cfg : Config d.Value) :
    (∃ left, ∀ rest, readLines current (buf :: rest) cfg = (false, left)) ∨
      ∃ next left, ∀ rest, readLines current (buf :: rest) cfg = readLines next rest left := by
  simp only [readLines]
  split
  · exact .inr ⟨_, _, fun _ => rfl⟩
  split
  · exact .inr ⟨_, _, fun _ => rfl⟩
  · split
    · exact .inl ⟨_, fun _ => rfl⟩
    · exact .inr ⟨_, _, fun _ => rfl⟩
  · split
    · exact .inl ⟨_, fun _ => rfl⟩
    split
    · exact .inl ⟨_, fun _ => rfl⟩
    split
    · exact .inl ⟨_, fun _ => rfl⟩
    · exact .inr ⟨_, _, fun _ => rfl⟩

/-- The lines that are skipped might as well be missing. -/
theorem readLines_congr {bufs others : List CText}
    (same : bufs.filterMap lineOf = others.filterMap lineOf)
    (current : Option (Option CText)) (cfg : Config d.Value) :
    readLines current bufs cfg = readLines current others cfg := by
  induction bufs generalizing others current cfg with
  | nil =>
    have silent := readLines_silent (List.filterMap_eq_nil_iff.mp same.symm) [] current cfg
    rw [List.append_nil] at silent
    exact silent.symm
  | cons buf rest inductionHypothesis =>
    cases spoken : lineOf buf with
    | none =>
      rw [List.filterMap_cons_none spoken] at same
      rw [readLines, spoken]
      exact inductionHypothesis same current cfg
    | some line =>
      rw [List.filterMap_cons_some spoken] at same
      obtain ⟨silent, other, later, rfl, quiet, also, tail⟩ :=
        List.filterMap_eq_cons_iff.mp same.symm
      have follows := fun current cfg => inductionHypothesis tail.symm current cfg
      rw [readLines_silent quiet, readLines, readLines, spoken, also]
      simp only [follows]

/-! ## A setting that every section admits -/

/-- It tells a file in which a section has begun from one without. -/
def probe : List Char := "egressLatency 0\n".toList

theorem probe_item (sound : Sound cfg) (sec : Option CText) :
    (parseItem false sec "egressLatency".toList "0".toList cfg).1 = none := by
  have asap : asapValue "egressLatency".toList "0".toList = none := by decide
  obtain ⟨now, found, kind, port⟩ := sound.known (portItemInt "egressLatency" 0 intMin intMax)
    (by simp [configTab])
  have found : cfg.globalItem "egressLatency".toList = some now := found
  have value : parseValue now.kind "0".toList = .ok (.int 0) := by
    rw [kind]
    rfl
  have appears : now.port = true := port
  rw [parseItem, parseFaultInterval, asap, Option.map_none, Option.getD_none, parseOption, found]
  dsimp only
  rw [value]
  dsimp only
  cases sec with
  | none => dsimp only; split <;> rfl
  | some sec =>
    obtain ⟨between, obtained⟩ := configSectionObtain_total cfg sec
      (by decide : "egressLatency".toList.length ≤ 31) now.kind
    simp only [appears, Bool.not_true, Bool.false_eq_true, if_false, obtained]

theorem probe_said : lineOf probe = some "egressLatency 0".toList := by decide

theorem readLines_probe (sound : Sound cfg) (sec : Option CText) :
    (readLines (some sec) [probe] cfg).1 = true := by
  have setting : parseSettingLine "egressLatency 0".toList =
      some ("egressLatency".toList, "0".toList) := by decide
  have current : checkDeprecatedOptions "egressLatency".toList = "egressLatency".toList := by decide
  have heading : parseSectionLine "egressLatency 0".toList = none := by decide
  rw [readLines, probe_said]
  dsimp only
  rw [heading]
  dsimp only
  rw [setting]
  dsimp only
  rw [current]
  have fine := probe_item sound sec
  split
  next failed => rw [failed] at fine; cases fine
  next => rfl

/-- Without a section it is an error. -/
theorem readLines_unannounced : (readLines none [probe] cfg).1 = false := by
  have heading : parseSectionLine "egressLatency 0".toList = none := by decide
  rw [readLines, probe_said]
  dsimp only
  rw [heading]

/-- Lines that are parsed to their end say nothing, or a section has begun behind them. -/
theorem readLines_begins (bufs : List CText) (sound : Sound cfg)
    (parsed : (readLines current bufs cfg).1 = true) :
    current = none ∧ bufs.filterMap lineOf = [] ∨
      (readLines current (bufs ++ [probe]) cfg).1 = true := by
  induction bufs generalizing current cfg with
  | nil =>
    cases current with
    | none => exact .inl ⟨rfl, rfl⟩
    | some sec => exact .inr (readLines_probe sound sec)
  | cons buf rest inductionHypothesis =>
    rw [List.cons_append, readLines]
    rw [readLines] at parsed
    cases spoken : lineOf buf with
    | none =>
      rw [spoken] at parsed
      rw [List.filterMap_cons_none spoken]
      exact inductionHypothesis sound parsed
    | some line =>
      rw [spoken] at parsed
      dsimp only at parsed ⊢
      right
      cases heading : parseSectionLine line with
      | some found =>
        cases found with
        | global =>
          rw [heading] at parsed
          exact (inductionHypothesis sound parsed).resolve_left (by simp)
        | port text =>
          rw [heading] at parsed
          dsimp only at parsed ⊢
          cases scanned : sscanfWord 16 text with
          | none =>
            rw [scanned] at parsed
            cases parsed
          | some port =>
            rw [scanned] at parsed
            exact (inductionHypothesis (sound.congr (configCreateInterface_items port))
              parsed).resolve_left (by simp)
      | none =>
        rw [heading] at parsed
        cases current with
        | none => cases parsed
        | some sec =>
          cases setting : parseSettingLine line with
          | none =>
            rw [setting] at parsed
            cases parsed
          | some pair =>
            rw [setting] at parsed
            dsimp only at parsed ⊢
            generalize made : parseItem false sec (checkDeprecatedOptions pair.1) pair.2 cfg = result
              at parsed
            obtain ⟨outcome, between⟩ := result
            cases outcome with
            | some _ => cases parsed
            | none =>
              exact (inductionHypothesis (parseItem_sets sound made).sound parsed).resolve_left
                (by simp)

end Reading

/-! ## What comments do -/

section Comments

variable {d : Doubles} {text : List Char}

/-- What is read at once of a text that fits the buffer is the text. -/
theorem fgetsFrom_short {size room : Nat} {line : List Char} (single : '\n' ∉ text)
    (short : text.length ≤ room) (nonempty : line ≠ [] ∨ text ≠ []) :
    fgetsFrom size room line text = [ofBuffer (line.reverse ++ text)] := by
  induction text generalizing room line with
  | nil =>
    have filled := nonempty.resolve_right (by simp)
    simp [fgetsFrom, filled]
  | cons c rest inductionHypothesis =>
    rw [List.mem_cons, not_or] at single
    rw [List.length_cons] at short
    rw [fgetsFrom]
    split
    next full =>
      have last : rest = [] := by
        rw [← List.length_eq_zero_iff]
        rcases full with newline | full
        · exact absurd newline.symm single.1
        · omega
      subst last
      simp [fgetsFrom]
    next =>
      rw [inductionHypothesis single.2 (by omega) (.inl (List.cons_ne_nil c line))]
      simp

/-- A comment that fits the buffer is harmless. -/
theorem IsComment.harmless (comment : IsComment text) (short : text.length ≤ 1023) :
    Harmless text := by
  obtain ⟨marked, single⟩ := comment
  obtain ⟨rest, rfl⟩ := List.head?_eq_some_iff.mp marked
  intro piece member
  rw [fgets, fgetsFrom_short single short (.inr (List.cons_ne_nil _ _))] at member
  rw [List.mem_singleton.mp member]
  simp [ofBuffer, lineOf, isspace]

/-- A file of a comment alone, and one in which the probe follows. -/
theorem comments_single (comment : IsComment text) {rest : List Char}
    (free : ∀ line ∈ fileLines rest, line.head? ≠ some '#') :
    (∀ other ∈ comments (text ++ '\n' :: rest), other = text) ∧
      stripped (text ++ '\n' :: rest) = stripped rest := by
  have first : ignored (text ++ ['\n']) = true := by
    obtain ⟨tail, rfl⟩ := List.head?_eq_some_iff.mp comment.marked
    simp [ignored]
  constructor
  · rintro other ⟨isComment, either⟩
    rw [fileLines_text comment.single, List.mem_cons, List.mem_cons] at either
    rcases either with (same | later) | (same | later)
    · exact absurd (same ▸ List.mem_append_right _ List.mem_cons_self) isComment.single
    · exact absurd isComment.marked (free other later)
    · exact List.append_cancel_right same
    · refine absurd ?_ (free _ later)
      obtain ⟨tail, rfl⟩ := List.head?_eq_some_iff.mp isComment.marked
      rfl
  · rw [stripped, fileLines_text comment.single, List.filter_cons_of_neg (by simp [first])]
    rfl

/-- Removing what says nothing changes nothing. -/
theorem flatMap_filter_said {lines : List (List Char)}
    (quiet : ∀ line ∈ lines, ignored line → said line = []) :
    lines.flatMap said = (lines.filter fun line => !ignored line).flatMap said := by
  induction lines with
  | nil => rfl
  | cons line rest inductionHypothesis =>
    have later := inductionHypothesis fun other member => quiet other (List.mem_cons_of_mem _ member)
    rw [List.flatMap_cons, later]
    cases skipped : ignored line with
    | true =>
      rw [quiet line List.mem_cons_self skipped, List.filter_cons_of_neg (by simp [skipped])]
      rfl
    | false => rw [List.filter_cons_of_pos (by simp [skipped]), List.flatMap_cons]

/-- The lines to be ignored of a file with harmless comments say nothing. -/
theorem ignored_said {file line : List Char}
    (harmless : ∀ text ∈ comments file, Harmless text)
    (member : line ∈ fileLines file) (skipped : ignored line) : said line = [] := by
  rw [ignored, Bool.or_eq_true, decide_eq_true_eq, decide_eq_true_eq] at skipped
  rcases skipped with rfl | marked
  · rfl
  obtain ⟨text, single, either⟩ := fileLines_shape member
  have same : said line = said text := by
    rcases either with rfl | rfl
    · rfl
    · exact said_newline text
  have comment : IsComment text := by
    refine ⟨?_, single⟩
    rcases either with rfl | rfl
    · exact marked
    · cases text with
      | nil => simp at marked
      | cons c rest => exact marked
  rw [same, ← harmless_iff]
  refine harmless text ⟨comment, ?_⟩
  rcases either with rfl | rfl
  · exact .inl member
  · exact .inr member

theorem configRead_parsed {file : List Char} {cfg : Config d.Value} :
    (configRead file cfg).1 = 0 ↔ (readLines none (fgets 1024 file) cfg).1 = true := by
  change (if (readLines none (fgets 1024 file) cfg).1 then (0 : Int) else -2) = 0 ↔ _
  cases (readLines none (fgets 1024 file) cfg).1 <;> simp

/-- A comment is harmless exactly if all files in which there is no other are read as without it. -/
theorem harmless_exactly (d : Doubles) (comment : IsComment text) :
    (∀ file, comments file ⊆ {text} → ∀ cfg : Config d.Value,
      configRead file cfg = configRead (stripped file) cfg) ↔ Harmless text := by
  constructor
  · intro same
    by_contra harmful
    rw [harmless_iff] at harmful
    have readings : ∀ rest : List Char, (∀ line ∈ fileLines rest, line.head? ≠ some '#') →
        (configRead (text ++ '\n' :: rest) (configCreate d)).1 =
          (configRead (stripped rest) (configCreate d)).1 := by
      intro rest free
      obtain ⟨single, without⟩ := comments_single comment free
      rw [same _ (fun other mine => by exact single other mine) (configCreate d), without]
    -- A file of the comment alone must be read to its end,
    have parsed : (readLines none (fgets 1024 (text ++ ['\n'])) (configCreate d)).1 = true :=
      configRead_parsed.mp (readings [] (by simp [fileLines]))
    -- so that a section has begun in it,
    rcases readLines_begins _ sound_create parsed with ⟨-, silent⟩ | accepted
    · exact harmful ((said_newline text).symm.trans silent)
    -- and the probe behind it is accepted, which it is not without the comment.
    have before : (fgets 1024 (text ++ ['\n']) ++ [probe]).filterMap lineOf =
        said (text ++ '\n' :: probe) := by
      rw [said_append, List.filterMap_append]
      rfl
    rw [readLines_congr before] at accepted
    have alike := readings probe (by decide)
    rw [configRead_parsed.mpr accepted] at alike
    have refused : (readLines none (fgets 1024 (stripped probe)) (configCreate d)).1 = true :=
      configRead_parsed.mp alike.symm
    rw [show fgets 1024 (stripped probe) = [probe] by decide, readLines_unannounced] at refused
    cases refused
  · intro harmless file within cfg
    have all : said file = said (stripped file) := by
      rw [said_eq, said_stripped]
      exact flatMap_filter_said fun line member skipped =>
        ignored_said (fun other mine => within mine ▸ harmless) member skipped
    rw [configRead, configRead, readLines_congr all]

/-! ## Up to where reading ends -/

/-- The pieces in which a file is read, and which of them are parts of lines to be ignored. -/
def pieces (file : List Char) : List (CText × Bool) :=
  (fileLines file).flatMap fun line => (fgets 1024 line).map fun piece => (piece, ignored line)

/-- Of the pieces that are parts of lines to be ignored, all are skipped at which reading arrives: those
before them are read without an error. -/
def Unheeded (current : Option (Option CText)) (cfg : Config d.Value)
    (pieces : List (CText × Bool)) : Prop :=
  ∀ index, (inside : index < pieces.length) → (pieces.get ⟨index, inside⟩).2 = true →
    (readLines current ((pieces.take index).map Prod.fst) cfg).1 = true →
      lineOf (pieces.get ⟨index, inside⟩).1 = none

instance (current : Option (Option CText)) (cfg : Config d.Value) (pieces : List (CText × Bool)) :
    Decidable (Unheeded current cfg pieces) := Nat.decidableBallLT ..

theorem pieces_fst (file : List Char) : (pieces file).map Prod.fst = fgets 1024 file := by
  have whole := fgets_flatten (fileLines_ended file)
  rw [fileLines_flatten] at whole
  rw [whole, pieces, List.map_flatMap]
  simp only [List.map_map, Function.comp_def, List.map_id']

theorem pieces_stripped (file : List Char) :
    ((pieces file).filter fun piece => !piece.2).map Prod.fst = fgets 1024 (stripped file) := by
  rw [stripped, fgets_flatten ((fileLines_ended file).filter _), pieces]
  induction fileLines file with
  | nil => rfl
  | cons line rest inductionHypothesis =>
    rw [List.flatMap_cons, List.filter_append, List.map_append, inductionHypothesis]
    cases skipped : ignored line with
    | true => simp [skipped]
    | false =>
      have kept : (((fgets 1024 line).map fun piece => (piece, false)).filter
          fun piece => !piece.2) = (fgets 1024 line).map fun piece => (piece, false) :=
        List.filter_eq_self.mpr (by simp)
      simp [skipped, kept, Function.comp_def]

/-- Reading goes as if the pieces that are not heeded were missing. -/
theorem Unheeded.readLines {current : Option (Option CText)} {cfg : Config d.Value}
    {pieces : List (CText × Bool)} (unheeded : Unheeded current cfg pieces) :
    readLines current (pieces.map Prod.fst) cfg =
      readLines current ((pieces.filter fun piece => !piece.2).map Prod.fst) cfg := by
  induction pieces generalizing current cfg with
  | nil => rfl
  | cons piece rest inductionHypothesis =>
    have later : ∀ {next : Option (Option CText)} {left : Config d.Value},
        (∀ bufs, LinuxPtp.readLines current (piece.1 :: bufs) cfg =
          LinuxPtp.readLines next bufs left) → Unheeded next left rest := by
      intro next left goes index inside marked reached
      refine unheeded (index + 1) (Nat.succ_lt_succ inside) marked ?_
      rw [List.take_succ_cons, List.map_cons, goes]
      exact reached
    cases marked : piece.2 with
    | true =>
      -- reading has arrived here, so the piece is skipped
      have silent : lineOf piece.1 = none := unheeded 0 (Nat.zero_lt_succ _) marked rfl
      have skips : ∀ bufs, LinuxPtp.readLines current (piece.1 :: bufs) cfg =
          LinuxPtp.readLines current bufs cfg := by
        intro bufs
        rw [LinuxPtp.readLines, silent]
      rw [List.map_cons, skips, List.filter_cons_of_neg (by simp [marked])]
      exact inductionHypothesis (later skips)
    | false =>
      rw [List.map_cons, List.filter_cons_of_pos (by simp [marked]), List.map_cons]
      rcases readLines_cons current piece.1 cfg with ⟨left, ends⟩ | ⟨next, left, goes⟩
      · rw [ends, ends]
      · rw [goes, goes]
        exact inductionHypothesis (later goes)

/-- A file is read as without its comments and empty lines if all pieces of its comments are skipped
at which reading arrives. No comment that this minds could be left in all files.

Proof: reading goes through the pieces of the lines. A piece that is skipped leaves the section and
the configuration, so without all pieces of comments the same is read, up to the end or up to the
first error. For a comment with another piece a file is made up that is read otherwise without it.
-/
theorem comments_ignored (d : Doubles) :
    (∀ (file : List Char) (cfg : Config d.Value), Unheeded none cfg (pieces file) →
      configRead file cfg = configRead (stripped file) cfg) ∧
    ∀ text, IsComment text → ((∀ file, comments file ⊆ {text} → ∀ cfg : Config d.Value,
      configRead file cfg = configRead (stripped file) cfg) ↔ Harmless text) := by
  refine ⟨fun file cfg unheeded => ?_, fun text comment => harmless_exactly d comment⟩
  rw [configRead, configRead, ← pieces_fst, ← pieces_stripped, unheeded.readLines]

/-- A comment that is cut before the name of an option. -/
def cutComment : List Char :=
  "[global]\n#".toList ++ List.replicate 1022 ' ' ++ "slaveOnly 1\n".toList

/-- It sets the option. -/
theorem comments_read :
    (configRead cutComment (configCreate .bare)).1 = 0 ∧
    (configRead (stripped cutComment) (configCreate .bare)).1 = 0 ∧
    (configRead cutComment (configCreate .bare)).2.value "slaveOnly".toList = some (.int 1) ∧
    (configRead (stripped cutComment) (configCreate .bare)).2.value "slaveOnly".toList =
      some (.int 0) := by
  refine ⟨?_, ?_, ?_, ?_⟩ <;> decide +kernel

/-- The same comment behind a line at which reading ends. -/
def bogusComment : List Char :=
  "[global]\nbogus\n#".toList ++ List.replicate 1022 ' ' ++ "slaveOnly 1\n".toList

theorem comments_ignored_bogus :
    configRead bogusComment (configCreate .bare) =
      configRead (stripped bogusComment) (configCreate .bare) :=
  (comments_ignored .bare).1 bogusComment (configCreate .bare) (by decide +kernel)

end Comments

end LinuxPtp
