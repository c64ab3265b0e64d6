import Stylebook.Cli.Run
import Stylebook.Cli.Usage

/-!
The program: commands run on the files of the machine.
-/

namespace Stylebook.Cli

def FileError.ofIO : IO.Error → FileError
  | .noFileOrDirectory .. => .missing
  | .inappropriateType _ 20 _ => .notDirectory
  | .inappropriateType .. => .isDirectory
  | .invalidArgument _ 36 _ => .nameTooLong
  | error => .other (toString error)

def attempt (operation : IO α) : IO (Except FileError α) := do
  try
    return .ok (← operation)
  catch error =>
    return .error (.ofIO error)

def machineFiles : FileSystem IO where
  read name := do
    match ← attempt (IO.FS.readBinFile name) with
    | .error error => return .error error
    | .ok content =>
        match String.fromUTF8? content with
        | some text => return .ok text
        | none => return .error .notText
  write name text := attempt (IO.FS.writeFile name text)

end Stylebook.Cli

def main (words : List String) : IO UInt32 := do
  let output ← IO.getStdout
  let errors ← IO.getStderr
  match Stylebook.Cli.Arguments.ofWords words with
  | .error error =>
      output.putStr error.output
      errors.putStr error.errors
      return error.status.toUInt32
  | .ok arguments =>
      let outcome ← arguments.command.run Stylebook.Cli.machineFiles
      output.putStr outcome.output
      errors.putStr outcome.errors
      return if outcome.status == .success then 0 else 1
