import Stylebook.Stylesheet.Error
import Stylebook.Tree.Basic
import Stylebook.Yaml.Value

/-!
From a document to a style tree. The entries of the root are the root nodes. Within a
node an entry whose value is a mapping is a nested node; any other entry is a
declaration.
-/

namespace Stylebook

/-! ## Parts of a value -/

def floatText (value : Float) : String := Decimal.documentLayout.write value

namespace Yaml.Value

def description : Value → String
  | null => "null"
  | boolean _ => "a boolean"
  | integer _ => "a number"
  | float _ => "a number"
  | text _ => "a string"
  | sequence _ => "a sequence"
  | mapping _ => "a mapping"

def scalarText? : Value → Option String
  | null => some ""
  | boolean value => some (if value then "true" else "false")
  | integer value => some (toString value)
  | float value => some (floatText value)
  | text value => some value
  | sequence _ => none
  | mapping _ => none

def keyText? : Value → Option String
  | integer value => some (toString value)
  | float value => some (floatText value)
  | text value => some value
  | _ => none

end Yaml.Value

/-! ## Lowering -/

inductive Member where
  | declaration (declaration : Declaration)
  | child (node : StyleNode)
  deriving Inhabited, Repr

namespace Member

def declaration? : Member → Option Declaration
  | declaration found => some found
  | child _ => none

def child? : Member → Option StyleNode
  | declaration _ => none
  | child node => some node

end Member

def StyleNode.ofMembers (identifier : String) (members : List Member) : StyleNode :=
  ⟨identifier, members.filterMap Member.declaration?, members.filterMap Member.child?⟩

def breadcrumbText (lineage : List String) : String := " > ".intercalate lineage

def keyText (lineage : List String) (key : Yaml.Value) : Except StylesheetError String :=
  match key.keyText? with
  | some name => .ok name
  | none =>
      .error (.invalidDefinition (breadcrumbText lineage)
        ("keys must be strings, got " ++ key.description) none)

def itemTexts (lineage : List String) (property : String) :
    List Yaml.Value → Except StylesheetError (List String)
  | [] => .ok []
  | item :: rest =>
      match item.scalarText? with
      | none =>
          .error (.invalidDefinition (breadcrumbText lineage)
            ("list items of '" ++ property ++ "' must be scalars") none)
      | some text => do
          let texts ← itemTexts lineage property rest
          return text :: texts

mutual

def lowerValue (lineage : List String) (name : String) :
    Yaml.Value → Except StylesheetError Member
  | .mapping entries => do
      let members ← lowerEntries (lineage ++ [name]) entries
      return .child (.ofMembers name members)
  | .sequence items => do
      let texts ← itemTexts lineage name items
      return .declaration ⟨name, ", ".intercalate texts⟩
  | .null => return .declaration ⟨name, ""⟩
  | .boolean value => return .declaration ⟨name, if value then "true" else "false"⟩
  | .integer value => return .declaration ⟨name, toString value⟩
  | .float value => return .declaration ⟨name, floatText value⟩
  | .text value => return .declaration ⟨name, value⟩

def lowerEntry (lineage : List String) :
    Yaml.Value × Yaml.Value → Except StylesheetError Member
  | (key, value) => do
      let name ← keyText lineage key
      lowerValue lineage name value

def lowerEntries (lineage : List String) :
    List (Yaml.Value × Yaml.Value) → Except StylesheetError (List Member)
  | [] => .ok []
  | entry :: rest => do
      let member ← lowerEntry lineage entry
      let members ← lowerEntries lineage rest
      return member :: members

end

def lowerRoot (entry : Yaml.Value × Yaml.Value) : Except StylesheetError StyleNode := do
  let identifier ← keyText [] entry.1
  match entry.2 with
  | .mapping entries =>
      let members ← lowerEntries [identifier] entries
      return .ofMembers identifier members
  | .null => return ⟨identifier, [], []⟩
  | value =>
      .error (.invalidDefinition identifier
        ("top-level entries must be mappings of declarations, got " ++ value.description) none)

def lowerRoots : List (Yaml.Value × Yaml.Value) → Except StylesheetError (List StyleNode)
  | [] => .ok []
  | entry :: rest => do
      let root ← lowerRoot entry
      let roots ← lowerRoots rest
      return root :: roots

namespace StyleTree

def ofValue : Yaml.Value → Except StylesheetError StyleTree
  | .null => .ok ⟨[], none⟩
  | .mapping entries => do
      let roots ← lowerRoots entries
      return ⟨roots, none⟩
  | _ => .error (.parse none "stylesheet must be a YAML mapping" none none)

def ofText (text : String) : Except StylesheetError StyleTree :=
  match Yaml.Value.ofText text with
  | .ok value => ofValue value
  | .error error => .error (.ofYaml error)

end StyleTree

end Stylebook
