import Freshen.Command.Run
import Freshen.Proofs.NameReading

/-!
Configurations by the way they come about: the defaults, a file, and calls one after another.
Every separator on the way is checked, so whatever a configuration went through, its separator makes
identifiers out of identifiers.
-/

namespace Freshen

/-! What is wrong with a separator, each fault by itself and all in the order of their report. -/

def identifierAlphabet : List Char :=
  "ABCDEFGHIJKLMNOPQRSTUVWXYZabcdefghijklmnopqrstuvwxyz0123456789_$".toList

def digitAlphabet : List Char := "0123456789".toList

theorem ascii_of_isIdentifierChar {c : Char} (inside : isIdentifierChar c = true) :
    c.toNat < 128 := by
  have value : c.toNat = c.val.toNat := rfl
  delta isIdentifierChar Char.isAlphanum Char.isAlpha Char.isUpper Char.isLower
    Char.isDigit at inside
  simp only [Bool.or_eq_true, Bool.and_eq_true, decide_eq_true_eq, beq_iff_eq,
    UInt32.le_iff_toNat_le, ge_iff_le] at inside
  have upper : 'Z'.val.toNat = 90 := rfl
  have lower : 'z'.val.toNat = 122 := rfl
  have digit : '9'.val.toNat = 57 := rfl
  rcases inside with (alphanumeric | rfl) | rfl
  · omega
  · decide
  · decide

theorem ascii_iff_mem {kind : Char → Bool} {alphabet : List Char}
    (listed : (List.range 128).all (fun code =>
      !kind (Char.ofNat code) || alphabet.contains (Char.ofNat code)) = true)
    (sound : alphabet.all kind = true) {c : Char} (small : kind c = true → c.toNat < 128) :
    kind c = true ↔ c ∈ alphabet := by
  constructor
  · intro inside
    have found := List.all_eq_true.mp listed c.toNat (List.mem_range.mpr (small inside))
    rw [Char.ofNat_toNat, inside] at found
    simpa using found
  · exact List.all_eq_true.mp sound c

theorem isIdentifierChar_iff {c : Char} : isIdentifierChar c = true ↔ c ∈ identifierAlphabet :=
  ascii_iff_mem (by decide +kernel) (by decide +kernel) ascii_of_isIdentifierChar

theorem isDigit_iff {c : Char} : c.isDigit = true ↔ c ∈ digitAlphabet :=
  ascii_iff_mem (by decide +kernel) (by decide +kernel) fun digit =>
    ascii_of_isIdentifierChar (isIdentifierChar_of_isDigit digit)

namespace SeparatorFault

def AppliesTo (separator : String) : SeparatorFault → Prop
  | empty => separator = ""
  | forbiddenCharacter => ∃ c ∈ separator.toList, c ∉ identifierAlphabet
  | digitAtEnd => ∃ front, ∃ digit ∈ digitAlphabet, separator.toList = front ++ [digit]

def inOrder : List SeparatorFault := [empty, forbiddenCharacter, digitAtEnd]

def IsFirst (separator : String) (fault : SeparatorFault) : Prop :=
  fault.AppliesTo separator ∧
    ∀ earlier ∈ inOrder.takeWhile (· ≠ fault), ¬ earlier.AppliesTo separator

section

variable {separator : String}

theorem empty_appliesTo_iff : empty.AppliesTo separator ↔ separator.toList = [] :=
  String.toList_eq_nil_iff.symm

theorem forbiddenCharacter_appliesTo_iff :
    forbiddenCharacter.AppliesTo separator ↔
      (!separator.toList.all isIdentifierChar) = true := by
  simp [AppliesTo, ← isIdentifierChar_iff]

theorem digitAtEnd_appliesTo_iff :
    digitAtEnd.AppliesTo separator ↔ separator.toList.getLast?.any Char.isDigit = true := by
  rw [Option.any_eq_true]
  constructor
  · rintro ⟨front, digit, among, whole⟩
    exact ⟨digit, by simp [whole], isDigit_iff.mpr among⟩
  · rintro ⟨digit, last, isDigit⟩
    obtain ⟨front, whole⟩ := List.getLast?_eq_some_iff.mp last
    exact ⟨front, digit, isDigit_iff.mp isDigit, whole⟩

end

end SeparatorFault

theorem separatorFault?_eq_some {separator : String} {fault : SeparatorFault} :
    separatorFault? separator = some fault ↔ fault.IsFirst separator := by
  have empty := @SeparatorFault.empty_appliesTo_iff separator
  have forbidden := @SeparatorFault.forbiddenCharacter_appliesTo_iff separator
  have digit := @SeparatorFault.digitAtEnd_appliesTo_iff separator
  rw [separatorFault?, SeparatorFault.IsFirst]
  split
  next nothing =>
    cases fault <;> simp [SeparatorFault.inOrder, empty, nothing]
  next something =>
    split
    next foreign =>
      cases fault <;> simp [SeparatorFault.inOrder, empty, something, forbidden.mpr foreign]
    next plain =>
      split
      next last =>
        cases fault <;> simp [SeparatorFault.inOrder, empty, something, forbidden, plain,
          digit.mpr last]
      next other =>
        cases fault <;> simp [empty, something, forbidden, plain, digit, other]

theorem separatorFault?_eq_none {separator : String} :
    separatorFault? separator = none ↔ ∀ fault : SeparatorFault, ¬ fault.AppliesTo separator := by
  have empty := @SeparatorFault.empty_appliesTo_iff separator
  have forbidden := @SeparatorFault.forbiddenCharacter_appliesTo_iff separator
  have digit := @SeparatorFault.digitAtEnd_appliesTo_iff separator
  constructor
  · intro valid fault
    rw [separatorFault?] at valid
    split at valid
    · cases valid
    · split at valid
      · cases valid
      · split at valid
        · cases valid
        · cases fault with
          | empty => rwa [empty]
          | forbiddenCharacter => rwa [forbidden]
          | digitAtEnd => rwa [digit]
  · intro clean
    rw [separatorFault?, if_neg (mt empty.mpr (clean .empty)),
      if_neg (mt forbidden.mpr (clean .forbiddenCharacter)),
      if_neg (mt digit.mpr (clean .digitAtEnd))]

/-! Calls, one after another. -/

inductive ConfigCall where
  | separator (value : String)
  | indent (value : String)
  | verbosity (value : Nat)
  | jsonLogs (value : Bool)
deriving DecidableEq, Repr

namespace ConfigCall

def separator? : ConfigCall → Option String
  | separator value => some value
  | _ => none

def indent? : ConfigCall → Option String
  | indent value => some value
  | _ => none

def last (value? : ConfigCall → Option String) (calls : List ConfigCall) : Option String :=
  (calls.filterMap value?).getLast?

theorem last_cons (value? : ConfigCall → Option String) (call : ConfigCall)
    (rest : List ConfigCall) :
    last value? (call :: rest) = (last value? rest).or (value? call) := by
  cases here : value? call with
  | none => simp [last, here]
  | some value =>
      cases later : (rest.filterMap value?).getLast? <;>
        simp [last, here, later, List.getLast?_cons]

end ConfigCall

namespace Config

def set (config : Config) : ConfigCall → Except Error Config
  | .separator value => config.withSeparator value
  | .indent value => .ok (config.withIndent value)
  | .verbosity value => .ok (config.withVerbosity value)
  | .jsonLogs value => .ok (config.withJsonLogs value)

def setAll (config : Config) (calls : List ConfigCall) : Except Error Config :=
  calls.foldlM set config

def file? (tree : FileTree) (folder : String) (named : Option String) : Option ConfigFile :=
  (tree.read (Path.join folder (named.getD fileName))).toOption.bind ConfigFile.parse?

theorem withSeparator_eq_ok {config next : Config} {separator : String} :
    config.withSeparator separator = .ok next ↔
      separatorFault? separator = none ∧ next = { config with separator } := by
  rw [withSeparator]
  cases separatorFault? separator with
  | none => simp [eq_comm]
  | some fault => simp

theorem withSeparator_eq_error {config : Config} {separator : String} {error : Error} :
    config.withSeparator separator = .error error ↔
      ∃ fault : SeparatorFault, fault.IsFirst separator ∧
        error = .invalidSeparator separator fault := by
  rw [withSeparator]
  cases found : separatorFault? separator with
  | none =>
      have clean := separatorFault?_eq_none.mp found
      simp [SeparatorFault.IsFirst, clean]
  | some fault =>
      constructor
      · intro failed
        exact ⟨fault, separatorFault?_eq_some.mp found, (Except.error.inj failed).symm⟩
      · rintro ⟨other, first, rfl⟩
        rw [separatorFault?_eq_some.mpr first] at found
        rw [Option.some_inj.mp found]

section

variable {config next : Config}

/-- One call replaces what was set before, and a separator is checked. -/
theorem set_spec {call : ConfigCall} (done : config.set call = .ok next)
    (valid : separatorFault? config.separator = none) :
    next.separator = call.separator?.getD config.separator ∧
      next.indent = call.indent?.or config.indent ∧ separatorFault? next.separator = none := by
  cases call with
  | separator value =>
      obtain ⟨checked, rfl⟩ := withSeparator_eq_ok.mp done
      exact ⟨rfl, rfl, checked⟩
  | indent value | verbosity value | jsonLogs value =>
      obtain rfl := Except.ok.inj done
      exact ⟨rfl, rfl, valid⟩

theorem setAll_spec {calls : List ConfigCall} (done : config.setAll calls = .ok next)
    (valid : separatorFault? config.separator = none) :
    next.separator = (ConfigCall.last ConfigCall.separator? calls).getD config.separator ∧
      next.indent = (ConfigCall.last ConfigCall.indent? calls).or config.indent ∧
      separatorFault? next.separator = none := by
  induction calls generalizing config with
  | nil =>
      obtain rfl := Except.ok.inj done
      exact ⟨rfl, rfl, valid⟩
  | cons call rest ih =>
      rw [setAll, List.foldlM_cons] at done
      cases first : config.set call with
      | error cause =>
          rw [first] at done
          cases done
      | ok between =>
          rw [first] at done
          obtain ⟨separator, indent, checked⟩ := set_spec first valid
          obtain ⟨lastSeparator, lastIndent, sound⟩ := ih done checked
          refine ⟨?_, ?_, sound⟩
          · rw [lastSeparator, ConfigCall.last_cons, Option.getD_or, separator]
          · rw [lastIndent, ConfigCall.last_cons, Option.or_assoc, indent]

end

theorem default_valid : separatorFault? "$" = none := by decide

theorem ofText_spec {folder path text : String} {config : Config}
    (made : ofText folder path text = .ok config) :
    ∃ file, ConfigFile.parse? text = some file ∧ config.separator = file.separator.getD "$" ∧
      config.indent = file.indent ∧ separatorFault? config.separator = none := by
  rw [ofText] at made
  cases parsed : ConfigFile.parse? text with
  | none =>
      rw [parsed] at made
      cases made
  | some file =>
      simp only [parsed] at made
      refine ⟨file, rfl, ?_⟩
      cases given : file.separator with
      | none =>
          simp only [given, Option.elim_none] at made
          obtain rfl := Except.ok.inj made
          exact ⟨rfl, rfl, default_valid⟩
      | some separator =>
          simp only [given, Option.elim_some] at made
          cases checked : ({ folder : Config } : Config).withSeparator separator with
          | error cause =>
              rw [checked] at made
              cases made
          | ok between =>
              rw [checked] at made
              obtain rfl := Except.ok.inj made
              obtain ⟨valid, rfl⟩ := withSeparator_eq_ok.mp checked
              exact ⟨rfl, rfl, valid⟩

theorem read_of_isFile_eq_false {tree : FileTree} {path : String}
    (absent : tree.isFile path = false) : (tree.read path).toOption = none := by
  rw [FileTree.isFile] at absent
  rw [FileTree.read]
  cases found : tree.entryAt? path with
  | none => rfl
  | some entry =>
      cases entry with
      | folder => rfl
      | file content => simp [found, Entry.isFolder] at absent

/-- A configuration as it is loaded says what its file says, and the defaults elsewhere. -/
theorem load_spec {tree : FileTree} {folder : String} {named : Option String} {config : Config}
    (loaded : load tree folder named = .ok config) :
    config.separator = ((file? tree folder named).bind ConfigFile.separator).getD "$" ∧
      config.indent = (file? tree folder named).bind ConfigFile.indent ∧
      separatorFault? config.separator = none := by
  rw [load] at loaded
  rw [file?]
  dsimp only at loaded
  split at loaded
  next skipped =>
    obtain ⟨_, absent⟩ := Bool.and_eq_true_iff.mp skipped
    obtain rfl := Except.ok.inj loaded
    rw [read_of_isFile_eq_false (by simpa using absent)]
    exact ⟨rfl, rfl, default_valid⟩
  next =>
    cases text : tree.read (Path.join folder (named.getD fileName)) with
    | error cause =>
        rw [text] at loaded
        cases loaded
    | ok text' =>
        rw [text] at loaded
        obtain ⟨file, parsed, separator, indent, valid⟩ := ofText_spec loaded
        simp only [Except.toOption, Option.bind_some, parsed]
        exact ⟨separator, indent, valid⟩

end Config

/-! Names that are made with a separator that was checked. -/

def reservedWords : List String :=
  ["await", "break", "case", "catch", "class", "const", "continue", "debugger", "default", "delete",
    "do", "else", "enum", "export", "extends", "false", "finally", "for", "function", "if",
    "implements", "import", "in", "instanceof", "interface", "let", "new", "null", "package",
    "private", "protected", "public", "return", "static", "super", "switch", "this", "throw",
    "true", "try", "typeof", "var", "void", "while", "with", "yield"]

theorem Minted.digits_suffix (separator : String) (minted : Minted) :
    (toString minted.index).toList <:+ (minted.text separator).toList := by
  rw [Minted.toList_text, Nat.toString_eq_repr, Nat.toList_repr]
  exact List.suffix_append _ _

theorem Minted.isName_text {separator : String} {minted : Minted}
    (valid : separatorFault? separator = none) (name : isName minted.base = true) :
    isName (minted.text separator) = true := by
  obtain ⟨plain, first, more, letters, nonDigit⟩ := opens_of_isName name
  have numbered : Numbered separator minted.base (minted.text separator).toList :=
    ⟨minted.index, rfl⟩
  rw [isName, Bool.and_eq_true, List.all_eq_true]
  refine ⟨numbered.isIdentifierChar valid plain, ?_⟩
  rw [Minted.toList_text, letters]
  simp [nonDigit]

/-- No reserved word ends in a digit. -/
theorem Minted.text_not_mem_reservedWords (separator : String) (minted : Minted) :
    minted.text separator ∉ reservedWords := by
  have words : ∀ word ∈ reservedWords, word.toList.getLast?.any Char.isDigit = false := by decide
  intro among
  have last := words _ among
  rw [minted.last_isDigit] at last
  cases last

/-! The command line is one such way. -/

namespace Invocation

def calls (invocation : Invocation) (separator : Option String) : List ConfigCall :=
  [.verbosity invocation.verbosity, .jsonLogs invocation.json] ++
    separator.toList.map .separator

theorem setAll_calls (invocation : Invocation) (separator : Option String) (config : Config) :
    let logging := (config.withVerbosity invocation.verbosity).withJsonLogs invocation.json
    config.setAll (invocation.calls separator) =
      separator.elim (.ok logging) logging.withSeparator := by
  cases separator with
  | none => rfl
  | some value =>
      rw [calls, Config.setAll]
      simp only [Option.toList_some, List.map_cons, List.map_nil, List.cons_append,
        List.nil_append, List.foldlM_cons, List.foldlM_nil, bind_pure]
      rfl

/-- Files are renamed with a configuration that was loaded and then set call by call, or not at
all. -/
theorem run_rename {invocation : Invocation} {paths : List String}
    {outFolder separator : Option String}
    (command : invocation.command = .rename paths outFolder separator)
    (environment : Option String) (tree : FileTree) :
    (∃ cause, invocation.run environment tree = .fail tree (.config cause)) ∨
      ∃ loaded config,
        Config.load tree (invocation.folder.getD tree.workingPath) invocation.config = .ok loaded ∧
        loaded.setAll (invocation.calls (separator.or environment)) = .ok config ∧
        ((∃ failure kept, tree.renameAll config paths outFolder = .error (failure, kept) ∧
            invocation.run environment tree = .fail kept failure) ∨
          ∃ files after, tree.renameAll config paths outFolder = .ok (files, after) ∧
            invocation.run environment tree =
              .ofFiles after invocation.json config.style files) := by
  unfold run
  dsimp only
  cases load : Config.load tree (invocation.folder.getD tree.workingPath) invocation.config with
  | error cause => exact .inl ⟨cause, rfl⟩
  | ok loaded =>
      have set := setAll_calls invocation (separator.or environment) loaded
      simp only [command]
      rw [← set]
      cases configured : loaded.setAll (invocation.calls (separator.or environment)) with
      | error cause => exact .inl ⟨cause, rfl⟩
      | ok config =>
          refine .inr ⟨loaded, config, rfl, configured, ?_⟩
          dsimp only
          cases done : tree.renameAll config paths outFolder with
          | error result => exact .inl ⟨result.1, result.2, rfl, rfl⟩
          | ok result => exact .inr ⟨result.1, result.2, rfl, rfl⟩

end Invocation

/-- However a configuration comes about, its separator is one that is accepted: the last one that
was set, else the file's, else `$`. What is made of an identifier with it is an identifier, no
reserved word, and ends in its number. A separator is refused for the first of its faults, and
accepted if it has none; and the command line renames files only with such a configuration. -/
theorem configured_separator_accepted (tree : FileTree) (folder : String) (named : Option String)
    (calls : List ConfigCall) (loaded config : Config)
    (load : Config.load tree folder named = .ok loaded) (set : loaded.setAll calls = .ok config) :
    (separatorFault? config.style.separator = none ∧
      config.style.separator = ((ConfigCall.last ConfigCall.separator? calls).or
        ((Config.file? tree folder named).bind ConfigFile.separator)).getD "$" ∧
      config.style.indent = (ConfigCall.last ConfigCall.indent? calls).or
        ((Config.file? tree folder named).bind ConfigFile.indent)) ∧
    (∀ (original : String) (number : Nat), isName original = true →
      let made := (Minted.mk original number).text config.style.separator
      isName made = true ∧ made ∉ reservedWords ∧
        (toString number).toList <:+ made.toList) ∧
    (∀ (any : Config) (separator : String),
      (∀ error, any.withSeparator separator = .error error ↔
        ∃ fault : SeparatorFault, fault.IsFirst separator ∧
          error = .invalidSeparator separator fault) ∧
      (any.withSeparator separator = .ok { any with separator } ↔
        ∀ fault : SeparatorFault, ¬ fault.AppliesTo separator)) ∧
    ∀ (invocation : Invocation) (environment : Option String) paths outFolder separator,
      invocation.command = .rename paths outFolder separator →
      (∃ cause, invocation.run environment tree = .fail tree (.config cause)) ∨
        ∃ first last,
          Config.load tree (invocation.folder.getD tree.workingPath) invocation.config =
            .ok first ∧
          first.setAll (invocation.calls (separator.or environment)) = .ok last ∧
          ((∃ failure kept, tree.renameAll last paths outFolder = .error (failure, kept) ∧
              invocation.run environment tree = .fail kept failure) ∨
            ∃ files after, tree.renameAll last paths outFolder = .ok (files, after) ∧
              invocation.run environment tree =
                .ofFiles after invocation.json last.style files) := by
  obtain ⟨loadedSeparator, loadedIndent, checked⟩ := Config.load_spec load
  obtain ⟨separator, indent, valid⟩ := Config.setAll_spec set checked
  refine ⟨⟨valid, ?_, ?_⟩, ?_, ?_, ?_⟩
  · rw [Option.getD_or, ← loadedSeparator]
    exact separator
  · rw [← loadedIndent]
    exact indent
  · intro original number name
    exact ⟨Minted.isName_text valid name, Minted.text_not_mem_reservedWords _ _,
      Minted.digits_suffix _ ⟨original, number⟩⟩
  · intro any separator
    refine ⟨fun error => Config.withSeparator_eq_error, ?_⟩
    rw [Config.withSeparator_eq_ok, separatorFault?_eq_none]
    exact ⟨fun accepted => accepted.1, fun clean => ⟨clean, rfl⟩⟩
  · intro invocation environment paths outFolder separator command
    exact Invocation.run_rename command environment tree

theorem configured_separator_accepted_replaced :
    let tree : FileTree :=
      { entries := [(["w"], .folder),
          (["w", "rebind.json"], .file "\x7b\"separator\": \"_\", \"indent\": \"\"\x7d".toUTF8)]
        workingFolder := ["w"] }
    let loaded : Config := { folder := "/w", separator := "_", indent := some "" }
    let calls : List ConfigCall := [.separator "$$", .verbosity 1]
    let config : Config := { folder := "/w", verbosity := 1, separator := "$$", indent := some "" }
    Config.load tree "/w" none = .ok loaded ∧ loaded.setAll calls = .ok config ∧
      isName "if" = true ∧
      separatorFault? config.style.separator = none ∧
      (Minted.mk "if" 3).text config.style.separator = "if$$3" ∧ "if$$3" ∉ reservedWords := by
  intro tree loaded calls config
  have load : Config.load tree "/w" none = .ok loaded := by
    have read : (Config.load tree "/w" none).toOption = some loaded := by decide +kernel
    cases outcome : Config.load tree "/w" none with
    | error cause => simp [outcome, Except.toOption] at read
    | ok result => simpa [outcome, Except.toOption] using read
  have set : loaded.setAll calls = .ok config := rfl
  have name : isName "if" = true := by decide
  obtain ⟨⟨valid, _, _⟩, made, _, _⟩ :=
    configured_separator_accepted tree "/w" none calls loaded config load set
  have text : (Minted.mk "if" 3).text config.style.separator = "if$$3" := by decide
  refine ⟨load, set, name, valid, text, ?_⟩
  rw [← text]
  exact (made "if" 3 name).2.1

end Freshen
