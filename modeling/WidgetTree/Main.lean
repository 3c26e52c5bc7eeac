import WidgetTree.Command.Run

namespace WidgetTree.Command

/-- The system's number of an error comes with either sign. -/
def Failure.ofError (error : IO.Error) : Failure :=
  match error with
  | .noFileOrDirectory .. => .missing
  | .alreadyExists .. => .alreadyThere
  | .inappropriateType _ code _ => if code = 20 || code = -20 then .notDirectory else .isDirectory
  | error => .other (toString error)

def attempt {α : Type} (action : IO α) : IO (Except Failure α) := do
  try return .ok (← action)
  catch error => return .error (Failure.ofError error)

def machineFiles : Files IO where
  read path := do
    match ← attempt (IO.FS.readBinFile path) with
    | .error why => return .error why
    | .ok bytes =>
        match String.fromUTF8? bytes with
        | some text => return .ok text
        | none => return .error .notText
  write path text := attempt (IO.FS.writeFile path text)
  make path := attempt (IO.FS.createDir path)
  isDirectory path := do
    match ← attempt (IO.FS.realPath path) with
    | .error _ => return false
    | .ok place => place.isDir

end WidgetTree.Command

open WidgetTree.Command in
def main (arguments : List String) : IO UInt32 := do
  match ← run machineFiles arguments with
  | none =>
      (← IO.getStderr).putStr "error: the arguments are not understood\n"
      return UInt32.ofNat misuseExitCode
  | some outcome =>
      (← IO.getStdout).putStr outcome.out
      (← IO.getStderr).putStr outcome.err
      return UInt32.ofNat outcome.exitCode
