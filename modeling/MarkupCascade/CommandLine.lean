import MarkupCascade.CommandLine.Arguments
import MarkupCascade.Session
import MarkupCascade.Text.ControlSequence
import MarkupCascade.Text.Encoding
import MarkupCascade.Text.Path

/-!
The commands: `inspect` shows the tree of a template, `validate` its diagnostics and `resolve` the
settings of every component. A run sees its arguments, the environment and the files, and gives an
exit code and the two texts to be shown: zero for success, one for a document at fault and two for
arguments that make no sense.

The arguments begin with the name of the command. What may stand before it is left out: `--version`,
and `--log-level` with the variable `TRELLIS_LOG_LEVEL` that stands in for it, by which a run that
names one of four levels chooses how much is logged and any other is turned away. So is `--help`,
before the name and behind it. Nothing is logged here, and of a complaint about arguments only the
last line is shown, without those on usage above it.
-/

namespace MarkupCascade.CommandLine

inductive FileEntry where
  | file (bytes : List UInt8)
  | directory

structure Input where
  arguments : List String
  environment : List (String × String) := []
  /-- Files by their shortest path. -/
  files : List (String × FileEntry) := []

namespace Input

def valueOf? (input : Input) (name : String) : Option String := input.environment.lookup name

def entry? (input : Input) (path : String) : Option FileEntry :=
  let name := Text.Path.normalize path
  if path.isEmpty then none
  else if name == "." then some .directory
  else if Text.Path.endsInDirectory path then none
  else input.files.lookup name

end Input

/-- A failure that no command answers for: the run ends without any text of its own. -/
inductive Abort where
  | oversized (literal : OversizedLiteral)
  | file (error : Text.FileError)
deriving DecidableEq, Repr

def Abort.message : Abort → String
  | .oversized literal => literal.message
  | .file e => e.message

structure Outcome where
  exitCode : UInt32
  output : String := ""
  errors : String := ""
  abort : Option Abort := none
deriving DecidableEq, Repr

/-- Why a command stops before it has anything to show. -/
inductive Stop where
  | usage (error : UsageError)
  | parse (error : ParseError)
  | condition (error : ConditionError)
  | abort (reason : Abort)
deriving DecidableEq, Repr

def UsageError.message : UsageError → String
  | .noCommand => "Missing command."
  | .unknownCommand name => s!"No such command {Text.quote name}."
  | .unknownOption name => s!"No such option {Text.quote name}."
  | .missingValue option => s!"Option {Text.quote option} requires an argument."
  | .missingTemplate => "Missing argument 'TEMPLATE'."
  | .extraArguments [argument] => s!"Got unexpected extra argument ({argument})"
  | .extraArguments arguments =>
    "Got unexpected extra arguments (" ++ " ".intercalate arguments ++ ")"
  | .noSuchFile parameter path =>
    s!"Invalid value for '{parameter}': File {Text.quote path} does not exist."
  | .isDirectory parameter path =>
    s!"Invalid value for '{parameter}': File {Text.quote path} is a directory."
  | .badState entry => s!"Invalid value for --state: expected key=value, got {Text.quote entry}"

/-- Lines as they are shown. Everything a command shows goes through here. -/
def lines (ls : List String) : String := String.join (ls.map fun l => Text.plain l ++ "\n")

def Stop.outcome : Stop → Outcome
  | .usage e => { exitCode := 2, errors := lines ["Error: " ++ e.message] }
  | .parse e => { exitCode := 1, errors := lines ["Parse error: " ++ e.message] }
  | .condition e => { exitCode := 1, errors := lines ["Condition error: " ++ e.message] }
  | .abort reason => { exitCode := 1, abort := some reason }

def ofReadError : ReadError → Stop
  | .parse e => .parse e
  | .oversized literal => .abort (.oversized literal)

/-- A file given as an argument. -/
structure Document where
  path : String
  bytes : List UInt8

def document (input : Input) (parameter path : String) : Except Stop Document :=
  match input.entry? path with
  | some (.file bytes) => .ok ⟨path, bytes⟩
  | some .directory => .error (.usage (.isDirectory parameter path))
  | none => .error (.usage (.noSuchFile parameter path))

namespace Document

def text (d : Document) (encoding : String) : Except Stop String :=
  (Text.ofFile encoding d.bytes).mapError fun e => .abort (.file e)

def template (d : Document) (encoding : String) : Except Stop Component := do
  (Component.parse (← d.text encoding)).mapError ofReadError

/-- A stylesheet is named after the file it comes from. -/
def stylesheet (d : Document) (encoding : String) : Except Stop Stylesheet := do
  (Stylesheet.parse (← d.text encoding) (Text.Path.normalize d.path)).mapError ofReadError

end Document

/-- What a command works on. -/
structure Request where
  arguments : Arguments
  template : Document
  style : Option Document

/-- Takes the arguments of a command apart and finds its files. -/
def request (input : Input) (options arguments : List String) : Except Stop Request := do
  let parsed ← (Arguments.parse options arguments).mapError .usage
  let style ← (parsed.option? "--style").mapM (document input "--style")
  match parsed.positional with
  | [] => throw (.usage .missingTemplate)
  | path :: extra =>
    let template ← document input "TEMPLATE" path
    if extra.isEmpty then return ⟨parsed, template, style⟩
    else throw (.usage (.extraArguments extra))

/-- The template and the stylesheet of a request, read in this order. -/
def Request.read (r : Request) (encoding : String) : Except Stop (Component × Stylesheet) := do
  let root ← r.template.template encoding
  let sheet ← match r.style with
    | none => pure {}
    | some d => d.stylesheet encoding
  return (root, sheet)

/-- The value of an option, or of the environment variable that stands in for it unless empty. -/
def optionOr (input : Input) (parsed : Arguments) (option name : String) :
    Option String :=
  parsed.option? option <|> (input.valueOf? name).filter (!·.isEmpty)

def encodingOf (input : Input) (parsed : Arguments) : String :=
  (optionOr input parsed "--encoding" "TRELLIS_ENCODING").getD "utf-8"

def indentation (depth : Nat) : String := String.ofList (List.replicate (4 * depth) ' ')

/-- The attribute block of a component as markup. -/
def blockText (attributes : List Attribute) : String :=
  let entry (a : Attribute) : String :=
    let gate := match a.condition with
      | none => ""
      | some condition => "?\x7b " ++ condition ++ " \x7d"
    a.key ++ gate ++ ": " ++ a.value.text
  if attributes.isEmpty then "" else " \x7b " ++ ", ".intercalate (attributes.map entry) ++ " \x7d"

/-- A component as a line of markup. -/
def markupLine (depth : Nat) (c : Component) : String :=
  indentation depth ++ c.className ++ blockText c.attributes

def treeLines (root : Component) : List String :=
  (root.outline 0).map fun (depth, c) => markupLine depth c ++ s!"  (line {c.line})"

def inspect (input : Input) (arguments : List String) : Except Stop Outcome := do
  let r ← request input ["--encoding"] arguments
  let root ← r.template.template (encodingOf input r.arguments)
  return { exitCode := 0, output := lines ([
    "Root:       " ++ root.className,
    s!"Components: {root.walk.length}",
    s!"Depth:      {root.depth}",
    ""] ++ treeLines root) }

/-- What is shown of the diagnostics of a template, and the exit code. -/
def report (path : String) (diagnostics : List Diagnostic) : Outcome :=
  let count (severity : Severity) := (diagnostics.filter (·.severity == severity)).length
  if diagnostics.isEmpty then
    { exitCode := 0,
      output := lines ["OK: " ++ Text.Path.fileName path ++ " is valid (0 diagnostics)"] }
  else
    { exitCode := if count .error == 0 then 0 else 1,
      output := lines (diagnostics.map (·.text) ++ ["",
        s!"Summary: {count .error} error(s), {count .warning} warning(s), {count .info} info"]) }

def validate (input : Input) (arguments : List String) : Except Stop Outcome := do
  let r ← request input ["--style", "--classes", "--encoding"] arguments
  let config := Configuration.ofEnvironment input.valueOf?
  let encoding := encodingOf input r.arguments
  let knownClasses := match optionOr input r.arguments "--classes" "TRELLIS_CLASSES" with
    | some classes => Configuration.classList classes
    | none => config.knownClasses
  let (root, sheet) ← r.read encoding
  let diagnostics := Validation.validate root sheet { config with encoding, knownClasses }
  return report r.template.path diagnostics

/-- A state entry: a key that is not blank, up to the first equals sign, and a value. -/
def stateEntry (entry : String) : Except UsageError (String × Scalar) :=
  match Clause.splitEquals entry.toList with
  | none => .error (.badState entry)
  | some (left, right) =>
    let key := Text.strip left
    if key.isEmpty then .error (.badState entry)
    else .ok (String.ofList key, .string (String.ofList (Text.strip right)))

/-- The state that some entries describe. The last entry of a key counts. -/
def stateOf (entries : List String) : Except UsageError State :=
  (entries.mapM stateEntry).map Table.ofList

mutual

def resolvedLines (depth : Nat) : ResolvedComponent → List String
  | .node attributes children =>
    (indentation depth ++ s!"{attributes.className}  (line {attributes.line})")
      :: attributes.settings.entries.map (fun (key, s) =>
        indentation depth ++ s!"  {key} = {s.value}  <- {s.origin.text}")
      ++ resolvedLinesAll (depth + 1) children

def resolvedLinesAll (depth : Nat) : List ResolvedComponent → List String
  | [] => []
  | c :: cs => resolvedLines depth c ++ resolvedLinesAll depth cs

end

def resolve (input : Input) (arguments : List String) : Except Stop Outcome := do
  let r ← request input ["--style", "--state", "--encoding"] arguments
  let state ← (stateOf (r.arguments.optionAll "--state")).mapError .usage
  let (root, sheet) ← r.read (encodingOf input r.arguments)
  let resolved ← (root.resolve sheet state).mapError .condition
  return { exitCode := 0, output := lines (resolvedLines 0 resolved) }

def run (input : Input) : Outcome :=
  let answer := match input.arguments with
    | "inspect" :: arguments => inspect input arguments
    | "validate" :: arguments => validate input arguments
    | "resolve" :: arguments => resolve input arguments
    | name :: _ => .error (.usage (.unknownCommand name))
    | [] => .error (.usage .noCommand)
  match answer with
  | .ok outcome => outcome
  | .error stop => stop.outcome

end MarkupCascade.CommandLine
