import WidgetTree.Dart.Indent
import WidgetTree.Grammar.Reading

namespace WidgetTree.Command

inductive Task
  | check (files : List String)
  | tokens (file : String)
  | tree (file : String)
  | build (file directory : String) (indent : Dart.Indent)
  deriving DecidableEq, Repr

structure Invocation where
  options : Grammar.Options
  task : Task
  deriving DecidableEq, Repr

structure Flags where
  strict : Bool := false
  enforceColons : Bool := false

namespace Flags

def set? (flags : Flags) (argument : String) : Option Flags :=
  if argument = "--strict" && !flags.strict then some { flags with strict := true }
  else if argument = "--enforce-colons" && !flags.enforceColons then
    some { flags with enforceColons := true }
  else none

def or (a b : Flags) : Flags := ⟨a.strict || b.strict, a.enforceColons || b.enforceColons⟩

def options (flags : Flags) : Grammar.Options :=
  if flags.strict then .strict else ⟨false, flags.enforceColons⟩

end Flags

structure Given where
  flags : Flags := {}
  files : List String := []
  directory : Option String := none
  spaces : Bool := false

/-- A lone hyphen is a name, not an option. -/
def isOption (argument : String) : Bool := argument ≠ "-" && argument.toList.head? = some '-'

def attachedDirectory? (argument : String) : Option String :=
  let mark := "--out-dir=".toList
  if mark.isPrefixOf argument.toList then some (String.ofList (argument.toList.drop mark.length))
  else none

def Given.setDirectory? (given : Given) (directory : String) : Option Given :=
  if given.directory.isSome || directory.isEmpty then none
  else some { given with directory := some directory }

/-- A single option without a value of its own; two of them concern the task `build` alone. -/
def Given.setOption? (given : Given) (building : Bool) (argument : String) : Option Given :=
  match building, attachedDirectory? argument with
  | true, some directory => given.setDirectory? directory
  | _, _ =>
      if building && argument = "--spaces" then
        if given.spaces then none else some { given with spaces := true }
      else (given.flags.set? argument).map fun flags => { given with flags := flags }

/-- Reads the arguments behind the name of a task; behind `--` all are files. -/
def gather (building : Bool) (given : Given) : List String → Option Given
  | [] => some given
  | argument :: rest =>
      if argument = "--" then some { given with files := given.files ++ rest }
      else if !isOption argument then
        gather building { given with files := given.files ++ [argument] } rest
      else if building && argument = "--out-dir" then
        match rest with
        | [] => none
        | directory :: rest =>
            if isOption directory then none
            else
              match given.setDirectory? directory with
              | none => none
              | some given => gather building given rest
      else
        match given.setOption? building argument with
        | none => none
        | some given => gather building given rest

def task? (name : String) (given : Given) : Option Task :=
  if given.files.any (·.isEmpty) then none
  else
    match name, given.files with
    | "check", file :: files => some (.check (file :: files))
    | "tokens", [file] => some (.tokens file)
    | "ast", [file] => some (.tree file)
    | "build", [file] =>
        some (.build file (given.directory.getD ".") (if given.spaces then .spaces else .tabs))
    | _, _ => none

def invocationFrom (flags : Flags) : List String → Option Invocation
  | [] => none
  | argument :: rest =>
      match flags.set? argument with
      | some flags => invocationFrom flags rest
      | none =>
          match gather (argument = "build") {} rest with
          | none => none
          | some given =>
              (task? argument given).map fun task => ⟨(flags.or given.flags).options, task⟩

/-- What the arguments ask for, unless they are misused. -/
def invocation? (arguments : List String) : Option Invocation := invocationFrom {} arguments

end WidgetTree.Command
