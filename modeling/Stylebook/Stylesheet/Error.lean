import Stylebook.Yaml.Error

/-!
Why a style document cannot be loaded.
-/

namespace Stylebook

/-- Lines and columns count from one. -/
inductive StylesheetError where
  /-- The text has no document, or none with the shape of a style sheet. -/
  | parse (file : Option String) (message : String) (line column : Option Nat)
  /-- A part of the document has a shape that no node can have. -/
  | invalidDefinition (selector message : String) (file : Option String)
  /-- The file could not be read. -/
  | load (file message : String)
  deriving DecidableEq, Repr, Inhabited

namespace StylesheetError

def ofYaml (error : Yaml.Error) : StylesheetError :=
  .parse none error.text (error.mark?.map fun mark => mark.line + 1)
    (error.mark?.map fun mark => mark.column + 1)

def withFile (error : StylesheetError) (file : String) : StylesheetError :=
  match error with
  | parse _ message line column => parse (some file) message line column
  | invalidDefinition selector message _ => invalidDefinition selector message (some file)
  | load file message => load file message

def locationText (file : Option String) (line column : Option Nat) : String :=
  (match file with
    | some file => " " ++ file
    | none => "") ++
  (match line, column with
    | some line, some column => " at line " ++ toString line ++ " column " ++ toString column
    | some line, none => " at line " ++ toString line
    | none, _ => "")

def text : StylesheetError → String
  | parse file message line column =>
      "failed to parse stylesheet" ++ locationText file line column ++ ": " ++ message
  | invalidDefinition selector message file =>
      "invalid definition for '" ++ selector ++ "'" ++ locationText file none none ++ ": " ++
        message
  | load file message => "failed to load stylesheet " ++ file ++ ": " ++ message

end StylesheetError

end Stylebook
