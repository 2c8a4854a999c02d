/-!
Arguments of a command, taken apart into options and what is left. Options have long names and take
a value, in the same argument after an equals sign or in the next. They may stand anywhere before
a bare `--`. An option is known only if the command names it; `--help`, which every command has
besides and which takes no value, is left out.
-/

namespace MarkupCascade.CommandLine

inductive UsageError where
  | noCommand
  | unknownCommand (name : String)
  | unknownOption (name : String)
  | missingValue (option : String)
  | missingTemplate
  | extraArguments (arguments : List String)
  /-- The path names no file. -/
  | noSuchFile (parameter path : String)
  | isDirectory (parameter path : String)
  /-- A state entry that is no key with a value. -/
  | badState (entry : String)
deriving DecidableEq, Repr

structure Arguments where
  /-- The options in the order given. -/
  options : List (String × String) := []
  positional : List String := []
deriving DecidableEq, Repr

namespace Arguments

/-- The value given last. -/
def option? (a : Arguments) (name : String) : Option String :=
  (a.options.reverse.find? fun o => o.1 == name).map (·.2)

def optionAll (a : Arguments) (name : String) : List String :=
  (a.options.filter fun o => o.1 == name).map (·.2)

def addOption (a : Arguments) (name value : String) : Arguments :=
  { a with options := (name, value) :: a.options }

def addPositional (a : Arguments) (value : String) : Arguments :=
  { a with positional := value :: a.positional }

/-- The name of an option that an argument gives, and the value after its equals sign. -/
def splitOption (argument : String) : String × Option String :=
  let cs := argument.toList
  let name := String.ofList (cs.takeWhile (· != '='))
  match cs.dropWhile (· != '=') with
  | [] => (name, none)
  | _ :: value => (name, some (String.ofList value))

/-- The name that is reported for an option that does not exist. One hyphen introduces a name of a
single character. -/
def unknownName (argument name : String) : String :=
  match argument.toList with
  | '-' :: '-' :: _ => name
  | cs => String.ofList (cs.take 2)

def parse (names : List String) : List String → Except UsageError Arguments
  | [] => .ok {}
  | argument :: rest =>
    if argument == "--" then .ok { positional := rest }
    else if argument.toList.head? != some '-' || argument == "-" then
      (parse names rest).map (·.addPositional argument)
    else
      let (name, value?) := splitOption argument
      if !names.contains name then .error (.unknownOption (unknownName argument name))
      else
        match value? with
        | some value => (parse names rest).map (·.addOption name value)
        | none =>
          match rest with
          | value :: others => (parse names others).map (·.addOption name value)
          | [] => .error (.missingValue name)

end Arguments

end MarkupCascade.CommandLine
