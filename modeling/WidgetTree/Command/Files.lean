import WidgetTree.Command.Path

namespace WidgetTree.Command

inductive Failure
  | missing
  | isDirectory
  | notDirectory
  | alreadyThere
  | notText
  | other (message : String)
  deriving DecidableEq, Repr

def Failure.message : Failure → String
  | missing => "No such file or directory (os error 2)"
  | isDirectory => "Is a directory (os error 21)"
  | notDirectory => "Not a directory (os error 20)"
  | alreadyThere => "File exists (os error 17)"
  | notText => "stream did not contain valid UTF-8"
  | other message => message

/-- Reading and writing whole files, wherever they are kept. -/
structure Files (m : Type → Type) where
  read : String → m (Except Failure String)
  write : String → String → m (Except Failure Unit)
  make : String → m (Except Failure Unit)
  isDirectory : String → m Bool

namespace Files

variable {m : Type → Type} [Monad m]

/-- A directory that could not be made is no failure if it is there all the same. -/
def settle (files : Files m) (path : String) : Except Failure Unit → m (Except Failure Unit)
  | .ok () => return .ok ()
  | .error why => do if ← files.isDirectory path then return .ok () else return .error why

/-- Makes the first directory of the list; where the one around it is missing, the others first. -/
def makeChain (files : Files m) : List String → m (Except Failure Unit)
  | [] => return .ok ()
  | path :: others => do
      match ← files.make path with
      | .error .missing =>
          match ← makeChain files others with
          | .error why => return .error why
          | .ok () => files.settle path (← files.make path)
      | result => files.settle path result

def makeAll (files : Files m) (path : String) : m (Except Failure Unit) :=
  files.makeChain (path :: above path)

end Files

end WidgetTree.Command
