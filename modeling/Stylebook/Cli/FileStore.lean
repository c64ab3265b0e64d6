/-!
Files as far as commands use them: texts that are read and written under names. Commands run on any
file system that offers the two operations.

One such file system is held in memory: a tree of directories and files. A name is followed one
component at a time. All components but the last have to lead to directories; what the last one may
lead to is a matter of the operation.
-/

namespace Stylebook.Cli

/-! ## File systems -/

inductive FileError where
  | missing
  | notDirectory
  | isDirectory
  | nameTooLong
  /-- The name holds a zero character. -/
  | zeroInName
  | notText
  | other (message : String)
  deriving DecidableEq, Repr, Inhabited

def FileError.text : FileError → String
  | missing => "No such file or directory (os error 2)"
  | notDirectory => "Not a directory (os error 20)"
  | isDirectory => "Is a directory (os error 21)"
  | nameTooLong => "File name too long (os error 36)"
  | zeroInName => "file name contained an unexpected NUL byte"
  | notText => "stream did not contain valid UTF-8"
  | other message => message

structure FileSystem (m : Type → Type) where
  read : String → m (Except FileError String)
  write : String → String → m (Except FileError Unit)

/-! ## Names -/

def componentLimit : Nat := 255

/-- The number of bytes that a name as a whole does not reach. -/
def nameLimit : Nat := 4096

def nameComponents (name : String) : List String :=
  (name.splitOn "/").filter fun component => !component.isEmpty

def nameError? (name : String) : Option FileError :=
  if name.toList.contains '\x00' then some .zeroInName
  else if name.isEmpty then some .missing
  else if name.utf8ByteSize ≥ nameLimit then some .nameTooLong
  else none

/-! ## Places -/

inductive Entry where
  | file (content : List UInt8)
  | directory
  deriving DecidableEq, Repr, Inhabited

abbrev Location := List String

/-- Files in memory. Relative names start at the directory `home`, which is not the top.
The directories that lead to it or to an entry need no entry of their own. -/
structure FileStore where
  entries : List (Location × Entry) := []
  home : Location := ["home"]
  deriving Repr, Inhabited

namespace FileStore

def entry? (store : FileStore) (location : Location) : Option Entry :=
  match store.entries.find? fun entry => entry.1 == location with
  | some (_, entry) => some entry
  | none =>
      if location.isPrefixOf store.home ||
          store.entries.any fun entry => location.isPrefixOf entry.1 then
        some .directory
      else none

def put (store : FileStore) (location : Location) (entry : Entry) : FileStore :=
  { store with
    entries := (location, entry) :: store.entries.filter fun other => other.1 != location }

def putAt (store : FileStore) (name : String) (entry : Entry) : FileStore :=
  store.put (store.home ++ nameComponents name) entry

/-! ## Following a name -/

/-- Where a component leads from a directory, and what stands there. The directory above
the top is the top. -/
def step (store : FileStore) (directory : Location) (component : String) :
    Except FileError (Location × Option Entry) :=
  if component = "." then .ok (directory, some .directory)
  else if component = ".." then .ok (directory.dropLast, some .directory)
  else if component.utf8ByteSize > componentLimit then .error .nameTooLong
  else .ok (directory ++ [component], store.entry? (directory ++ [component]))

def enter (store : FileStore) (directory : Location) : List String → Except FileError Location
  | [] => .ok directory
  | component :: rest => do
      match ← store.step directory component with
      | (location, some .directory) => store.enter location rest
      | (_, some (.file _)) => .error .notDirectory
      | (_, none) => .error .missing

/-- The directory to which all components of a name but the last lead, and the last
component. The name of the top has no component. -/
def approach (store : FileStore) (name : String) : Except FileError (Location × Option String) :=
  match nameError? name with
  | some error => .error error
  | none => do
      let start := if name.startsWith "/" then [] else store.home
      let directory ← store.enter start (nameComponents name).dropLast
      return (directory, (nameComponents name).getLast?)

/-! ## Reading and writing -/

def read (store : FileStore) (name : String) : Except FileError String := do
  match ← store.approach name with
  | (_, none) => .error .isDirectory
  | (directory, some last) =>
      match (← store.step directory last).2 with
      | none => .error .missing
      | some .directory => .error .isDirectory
      | some (.file content) =>
          if name.endsWith "/" then .error .notDirectory
          else
            match String.fromUTF8? ⟨content.toArray⟩ with
            | some text => return text
            | none => .error .notText

/-- Puts a text in place of what a file held. No file has a name that ends in a slash. -/
def write (store : FileStore) (name text : String) : Except FileError FileStore := do
  match ← store.approach name with
  | (_, none) => .error .isDirectory
  | (directory, some last) =>
      if name.endsWith "/" then .error .isDirectory
      else
        match ← store.step directory last with
        | (_, some .directory) => .error .isDirectory
        | (location, _) => return store.put location (.file text.toUTF8.toList)

def system : FileSystem (StateM FileStore) where
  read name := do return (← get).read name
  write name text := do
    match (← get).write name text with
    | .ok store =>
        set store
        return .ok ()
    | .error error => return .error error

end FileStore

end Stylebook.Cli
