import Stylebook.Analysis.Options
import Stylebook.Cache.Basic
import Stylebook.Decimal.Reading

/-!
Command lines. A command line names a command, and the file and the settings for it.

Words are read from left to right. The value of a setting and the file are taken up when
the next word is understood, so that a word that cannot be understood is reported before
a bad value in front of it.
-/

namespace Stylebook.Cli

/-! ## What a command line says -/

inductive Format where
  | text
  | json
  | yaml
  deriving DecidableEq, Repr, Inhabited

namespace Format

def name : Format → String
  | text => "text"
  | json => "json"
  | yaml => "yaml"

def ofName? (name : String) : Option Format :=
  [text, json, yaml].find? fun format => format.name == name

end Format

/-- How an analysis is tuned: by a file with options, by options of the command line,
which take precedence, and by the capacity of the cache. -/
structure Tuning where
  config : Option String := none
  given : Options.Partial := {}
  cacheCapacity : Nat := Cache.defaultCapacity
  deriving Repr, Inhabited

inductive Command where
  | check (file : String)
  | compile (file : String) (output : Option String)
  | analyze (file : String) (format : Format) (tuning : Tuning)
  deriving Repr, Inhabited

structure Arguments where
  verbose : Bool
  command : Command
  deriving Repr, Inhabited

inductive UsageError where
  | nothingGiven
  | commandMissing
  | commandUnknown
  | argumentUnknown
  | valueSurplus
  | valueInvalid
  | numberMalformed
  | argumentRepeated
  | fileMissing
  | helpWanted
  | versionWanted
  deriving DecidableEq, Repr, Inhabited

/-! ## Names -/

inductive CommandName where
  | check
  | compile
  | analyze
  deriving DecidableEq, Repr

def CommandName.ofWord? (word : String) : Option CommandName :=
  if word == "check" then some .check
  else if word == "compile" then some .compile
  else if word == "analyze" then some .analyze
  else none

inductive Switch where
  | verbose
  | help
  | version
  deriving DecidableEq, Repr

inductive Setting where
  | output
  | format
  | config
  | minimumCohesion
  | minimumFrequency
  | maximumDepth
  | cacheCapacity
  deriving DecidableEq, Repr

inductive ArgumentKind where
  | switch (switch : Switch)
  | setting (setting : Setting)
  deriving DecidableEq, Repr

def longSwitch? (name : String) : Option Switch :=
  if name == "verbose" then some .verbose
  else if name == "help" then some .help
  else if name == "version" then some .version
  else none

def shortSwitch? (name : Char) : Option Switch :=
  if name = 'v' then some .verbose
  else if name = 'h' then some .help
  else if name = 'V' then some .version
  else none

namespace CommandName

def longSetting? (command : CommandName) (name : String) : Option Setting :=
  match command with
  | .check => none
  | .compile => if name == "output" then some .output else none
  | .analyze =>
      if name == "format" then some .format
      else if name == "config" then some .config
      else if name == "min-cohesion" then some .minimumCohesion
      else if name == "min-frequency" then some .minimumFrequency
      else if name == "max-depth" then some .maximumDepth
      else if name == "cache-capacity" then some .cacheCapacity
      else none

def shortSetting? (command : CommandName) (name : Char) : Option Setting :=
  match command with
  | .check => none
  | .compile => if name = 'o' then some .output else none
  | .analyze => if name = 'f' then some .format else none

def long? (command : CommandName) (name : String) : Option ArgumentKind :=
  match longSwitch? name with
  | some switch => some (.switch switch)
  | none => (command.longSetting? name).map .setting

def short? (command : CommandName) (name : Char) : Option ArgumentKind :=
  match shortSwitch? name with
  | some switch => some (.switch switch)
  | none => (command.shortSetting? name).map .setting

end CommandName

/-! ## Words -/

inductive Word where
  /-- The word after which no argument has a name. -/
  | separator
  | long (name : String) (value : Option String)
  | short (names : List Char)
  | plain (text : String)
  deriving DecidableEq, Repr

def splitEquals (text : List Char) : String × Option String :=
  let name := text.takeWhile fun character => character != '='
  match text.dropWhile fun character => character != '=' with
  | _ :: value => (String.ofList name, some (String.ofList value))
  | [] => (String.ofList name, none)

def Word.ofText (text : String) : Word :=
  match text.toList with
  | ['-', '-'] => separator
  | '-' :: '-' :: rest =>
      let (name, value) := splitEquals rest
      long name value
  | ['-'] => plain text
  | '-' :: names => short names
  | _ => plain text

/-! ## Values -/

def once (present : Option α) (value : Except UsageError α) : Except UsageError (Option α) :=
  if present.isSome then .error .argumentRepeated else value.map some

def fileName (text : String) : Except UsageError String :=
  if text.isEmpty then .error .valueInvalid else .ok text

def number (read? : List Char → Option α) (text : String) : Except UsageError α :=
  match read? text.toList with
  | some value => .ok value
  | none => .error .numberMalformed

def formatName (text : String) : Except UsageError Format :=
  match Format.ofName? text with
  | some format => .ok format
  | none => .error .valueInvalid

inductive Pending where
  | nothing
  | awaiting (setting : Setting)
  | setting (setting : Setting) (value : String)
  | file (name : String)
  deriving DecidableEq, Repr

structure Draft where
  verbose : Bool := false
  file : Option String := none
  output : Option String := none
  format : Option Format := none
  config : Option String := none
  minimumCohesion : Option Float := none
  minimumFrequency : Option Nat := none
  maximumDepth : Option Nat := none
  cacheCapacity : Option Nat := none
  pending : Pending := .nothing
  deriving Repr

namespace Draft

def set (draft : Draft) (value : String) : Setting → Except UsageError Draft
  | .output => do return { draft with output := ← once draft.output (fileName value) }
  | .format => do return { draft with format := ← once draft.format (formatName value) }
  | .config => do return { draft with config := ← once draft.config (fileName value) }
  | .minimumCohesion => do
      let cohesion ← once draft.minimumCohesion (number Decimal.real? value)
      return { draft with minimumCohesion := cohesion }
  | .minimumFrequency => do
      let frequency ← once draft.minimumFrequency (number Decimal.word? value)
      return { draft with minimumFrequency := frequency }
  | .maximumDepth => do
      let depth ← once draft.maximumDepth (number Decimal.word? value)
      return { draft with maximumDepth := depth }
  | .cacheCapacity => do
      let capacity ← once draft.cacheCapacity (number Decimal.word? value)
      return { draft with cacheCapacity := capacity }

def resolve (draft : Draft) : Except UsageError Draft :=
  let resolved := { draft with pending := .nothing }
  match draft.pending with
  | .nothing => .ok resolved
  | .awaiting _ => .error .valueInvalid
  | .setting setting value => resolved.set value setting
  | .file name => do return { resolved with file := some (← fileName name) }

def turn (draft : Draft) (switch : Switch) : Except UsageError Draft := do
  let draft ← draft.resolve
  match switch with
  | .verbose =>
      if draft.verbose then .error .argumentRepeated else .ok { draft with verbose := true }
  | .help => .error .helpWanted
  | .version => .error .versionWanted

def assign (draft : Draft) (setting : Setting) (value : Option String) :
    Except UsageError Draft := do
  let draft ← draft.resolve
  match value with
  | some value => draft.set value setting
  | none => return { draft with pending := .awaiting setting }

def hasFile (draft : Draft) : Bool :=
  draft.file.isSome ||
    match draft.pending with
    | .file _ => true
    | _ => false

def place (draft : Draft) (text : String) : Except UsageError Draft := do
  if draft.hasFile then .error .argumentUnknown
  else
    let draft ← draft.resolve
    return { draft with pending := .file text }

def takeLong (command : CommandName) (draft : Draft) (name : String) (value : Option String) :
    Except UsageError Draft :=
  match command.long? name, value with
  | none, _ => .error .argumentUnknown
  | some (.switch _), some _ => .error .valueSurplus
  | some (.switch switch), none => draft.turn switch
  | some (.setting setting), value => draft.assign setting value

def attachedValue : List Char → Option String
  | [] => none
  | '=' :: rest => some (String.ofList rest)
  | rest => some (String.ofList rest)

/-- Takes the arguments with short names in one word. A setting takes the rest of the
word for its value. -/
def takeShort (command : CommandName) (draft : Draft) : List Char → Except UsageError Draft
  | [] => .ok draft
  | name :: rest =>
      match command.short? name with
      | none => .error .argumentUnknown
      | some (.switch switch) => do
          let draft ← draft.turn switch
          takeShort command draft rest
      | some (.setting setting) => draft.assign setting (attachedValue rest)

def takePlain (draft : Draft) (text : String) : Except UsageError Draft :=
  match draft.pending with
  | .awaiting setting => .ok { draft with pending := .setting setting text }
  | _ => draft.place text

def read (command : CommandName) (draft : Draft) : List String → Except UsageError Draft
  | [] => draft.resolve
  | text :: rest =>
      match Word.ofText text with
      | .separator => do
          let draft ← rest.foldlM place draft
          draft.resolve
      | .long name value => do
          let draft ← draft.takeLong command name value
          draft.read command rest
      | .short names => do
          let draft ← draft.takeShort command names
          draft.read command rest
      | .plain text => do
          let draft ← draft.takePlain text
          draft.read command rest

def finish (draft : Draft) (command : CommandName) : Except UsageError Command :=
  match draft.file, command with
  | none, _ => .error .fileMissing
  | some file, .check => .ok (.check file)
  | some file, .compile => .ok (.compile file draft.output)
  | some file, .analyze =>
      .ok (.analyze file (draft.format.getD .text)
        { config := draft.config
          given := ⟨draft.minimumCohesion, draft.minimumFrequency, draft.maximumDepth⟩
          cacheCapacity := draft.cacheCapacity.getD Cache.defaultCapacity })

end Draft

/-! ## Command lines -/

namespace Arguments

def ofCommand (verbose : Bool) (command : CommandName) (words : List String) :
    Except UsageError Arguments := do
  let draft ← Draft.read command {} words
  let command ← draft.finish command
  return ⟨verbose || draft.verbose, command⟩

def ofHelp : List String → UsageError
  | [] => .helpWanted
  | ["help"] => .helpWanted
  | [word] => if (CommandName.ofWord? word).isSome then .helpWanted else .commandUnknown
  | _ => .commandUnknown

def ofSeparated (verbose : Bool) : List String → UsageError
  | [] => if verbose then .commandMissing else .nothingGiven
  | word :: _ =>
      if (CommandName.ofWord? word).isSome || word == "help" then .argumentUnknown
      else .commandUnknown

def turn (verbose : Bool) : Switch → Except UsageError Bool
  | .verbose => if verbose then .error .argumentRepeated else .ok true
  | .help => .error .helpWanted
  | .version => .error .versionWanted

def turnShort (verbose : Bool) : List Char → Except UsageError Bool
  | [] => .ok verbose
  | name :: rest =>
      match shortSwitch? name with
      | none => .error .argumentUnknown
      | some switch => do
          let verbose ← turn verbose switch
          turnShort verbose rest

def read (verbose : Bool) : List String → Except UsageError Arguments
  | [] => .error (if verbose then .commandMissing else .nothingGiven)
  | text :: rest =>
      match Word.ofText text with
      | .separator => .error (ofSeparated verbose rest)
      | .long name value =>
          match longSwitch? name, value with
          | none, _ => .error .argumentUnknown
          | some _, some _ => .error .valueSurplus
          | some switch, none => do
              let verbose ← turn verbose switch
              read verbose rest
      | .short names => do
          let verbose ← turnShort verbose names
          read verbose rest
      | .plain word =>
          match CommandName.ofWord? word with
          | some command => ofCommand verbose command rest
          | none => .error (if word == "help" then ofHelp rest else .commandUnknown)

def ofWords (words : List String) : Except UsageError Arguments := read false words

end Arguments

end Stylebook.Cli
