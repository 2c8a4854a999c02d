import Mathlib
import MarkupCascade.CommandLine
import MarkupCascade.Proofs.Outcome

/-!
What becomes of diagnostics. No built-in rule reports an error, so a document is rejected exactly if
a rule that is given besides them reports one. The command `validate` runs the built-in rules alone
and succeeds exactly if its template and its stylesheet can be read.
-/

namespace MarkupCascade

open Outcome

namespace Diagnostic

/-- How many diagnostics have a severity. -/
def count (severity : Severity) (found : List Diagnostic) : Nat :=
  (found.filter fun d => d.severity = severity).length

theorem count_add_count_add_count (found : List Diagnostic) :
    count .error found + count .warning found + count .info found = found.length := by
  induction found with
  | nil => rfl
  | cons d found ih =>
      unfold count at ih ⊢
      cases severity : d.severity <;> simp [severity] <;> omega

theorem count_eq_zero_iff {severity : Severity} {found : List Diagnostic} :
    count severity found = 0 ↔ ∀ d ∈ found, d.severity ≠ severity := by
  simp [count]

end Diagnostic

open Diagnostic (count)

namespace Validation

variable {root : Component} {sheet : Stylesheet} {config : Configuration}

theorem severity_ne_error_of_mem_knownClasses {d : Diagnostic}
    (reported : d ∈ knownClasses root sheet config) : d.severity ≠ .error := by
  unfold knownClasses at reported
  split at reported
  · cases reported
  · obtain ⟨c, _, rfl⟩ := List.mem_map.1 reported
    exact Severity.noConfusion

theorem severity_ne_error_of_mem_unusedStyleRules {d : Diagnostic}
    (reported : d ∈ unusedStyleRules root sheet config) : d.severity ≠ .error := by
  obtain ⟨r, _, rfl⟩ := List.mem_map.1 reported
  exact Severity.noConfusion

theorem severity_ne_error_of_mem_percentageRange {d : Diagnostic}
    (reported : d ∈ percentageRange root sheet config) : d.severity ≠ .error := by
  obtain ⟨declared, _, inside⟩ := List.mem_flatMap.1 reported
  obtain ⟨n, _, rfl⟩ := List.mem_map.1 inside
  exact Severity.noConfusion

theorem severity_ne_error_of_mem_conditionSyntax {d : Diagnostic}
    (reported : d ∈ conditionSyntax root sheet config) : d.severity ≠ .error := by
  obtain ⟨declared, _, found⟩ := List.mem_filterMap.1 reported
  obtain ⟨piece, _, rfl⟩ := Option.map_eq_some_iff.1 found
  exact Severity.noConfusion

/-- What the built-in rules report. -/
def builtInReports (root : Component) (sheet : Stylesheet) (config : Configuration) :
    List Diagnostic :=
  knownClasses root sheet config ++ unusedStyleRules root sheet config
    ++ percentageRange root sheet config ++ conditionSyntax root sheet config

theorem severity_ne_error_of_mem_builtInReports {d : Diagnostic}
    (reported : d ∈ builtInReports root sheet config) : d.severity ≠ .error := by
  simp only [builtInReports, List.mem_append] at reported
  obtain ((reported | reported) | reported) | reported := reported
  · exact severity_ne_error_of_mem_knownClasses reported
  · exact severity_ne_error_of_mem_unusedStyleRules reported
  · exact severity_ne_error_of_mem_percentageRange reported
  · exact severity_ne_error_of_mem_conditionSyntax reported

theorem validate_eq_append (root : Component) (sheet : Stylesheet) (config : Configuration)
    (extra : List Rule) :
    validate root sheet config extra
      = builtInReports root sheet config ++ extra.flatMap fun rule => rule root sheet config := by
  simp [validate, builtIn, builtInReports, List.append_assoc]

theorem validate_nil (root : Component) (sheet : Stylesheet) (config : Configuration) :
    validate root sheet config = builtInReports root sheet config := by
  simp [validate_eq_append]

/-- Only the rules that are given can add to the errors. -/
theorem filter_isError_validate (root : Component) (sheet : Stylesheet) (config : Configuration)
    (extra : List Rule) :
    (validate root sheet config extra).filter (·.isError)
      = (extra.flatMap fun rule => rule root sheet config).filter fun d => d.severity = .error := by
  have harmless : (builtInReports root sheet config).filter (·.isError) = [] := by
    refine List.filter_eq_nil_iff.2 fun d reported => ?_
    simpa [Diagnostic.isError] using severity_ne_error_of_mem_builtInReports reported
  rw [validate_eq_append, List.filter_append, harmless, List.nil_append]
  rfl

/-- The errors that the given rules report. -/
def addedErrors (root : Component) (sheet : Stylesheet) (config : Configuration)
    (extra : List Rule) : List Diagnostic :=
  (extra.flatMap fun rule => rule root sheet config).filter fun d => d.severity = .error

theorem addedErrors_ne_nil_iff {extra : List Rule} :
    addedErrors root sheet config extra ≠ []
      ↔ ∃ rule ∈ extra, ∃ d ∈ rule root sheet config, d.severity = .error := by
  constructor
  · intro some
    obtain ⟨d, inside⟩ := List.exists_mem_of_ne_nil _ some
    obtain ⟨reported, severe⟩ := List.mem_filter.1 inside
    obtain ⟨rule, given, reported⟩ := List.mem_flatMap.1 reported
    exact ⟨rule, given, d, reported, of_decide_eq_true severe⟩
  · rintro ⟨rule, given, d, reported, severe⟩
    have inside : d ∈ extra.flatMap fun rule => rule root sheet config :=
      List.mem_flatMap.2 ⟨rule, given, reported⟩
    exact List.ne_nil_of_mem (List.mem_filter.2 ⟨inside, decide_eq_true severe⟩)

theorem require_eq (root : Component) (sheet : Stylesheet) (config : Configuration)
    (extra : List Rule) :
    require root sheet config extra
      = if addedErrors root sheet config extra = [] then .ok (validate root sheet config extra)
        else .error ⟨addedErrors root sheet config extra⟩ := by
  simp only [require, filter_isError_validate]
  exact if_congr List.isEmpty_iff rfl rfl

theorem exists_require_eq_error_iff {extra : List Rule} :
    (∃ r, require root sheet config extra = .error r)
      ↔ addedErrors root sheet config extra ≠ [] := by
  rw [require_eq]
  split
  case isTrue none => exact iff_of_false (by rintro ⟨_, ⟨⟩⟩) (not_not_intro none)
  case isFalse some => exact iff_of_true ⟨_, rfl⟩ some

theorem message_of_errors {errors : List Diagnostic} (h : ∀ d ∈ errors, d.severity = .error) :
    Rejection.message ⟨errors⟩ = s!"Validation failed with {errors.length} error(s): "
      ++ "; ".intercalate (errors.map (·.text)) := by
  have all : errors.filter (·.isError) = errors := by
    refine List.filter_eq_self.2 fun d inside => ?_
    rw [Diagnostic.isError, h d inside]
    rfl
  unfold Rejection.message
  dsimp only
  rw [all]

end Validation

namespace CommandLine

/-- A path of a file that is a text. -/
def Input.HasText (input : Input) (encoding path text : String) : Prop :=
  ∃ bytes, input.entry? path = some (.file bytes) ∧ Text.ofFile encoding bytes = .ok text

/-- The arguments name one template and perhaps a stylesheet, and both can be read. -/
structure Input.Reads (input : Input) (parsed : Arguments) (path : String) (root : Component)
    (sheet : Stylesheet) : Prop where
  positional : parsed.positional = [path]
  template : ∃ text, input.HasText (encodingOf input parsed) path text
    ∧ Component.parse text = .ok root
  style : match parsed.option? "--style" with
    | none => sheet = {}
    | some file => ∃ text, input.HasText (encodingOf input parsed) file text
      ∧ Stylesheet.parse text (Text.Path.normalize file) = .ok sheet

/-- The configuration of a validation. -/
def configurationOf (input : Input) (parsed : Arguments) : Configuration where
  encoding := encodingOf input parsed
  knownClasses := match optionOr input parsed "--classes" "TRELLIS_CLASSES" with
    | some classes => Configuration.classList classes
    | none => (Configuration.ofEnvironment input.valueOf?).knownClasses

theorem document_eq_ok_iff {input : Input} {parameter path : String} {d : Document} :
    document input parameter path = .ok d
      ↔ ∃ bytes, input.entry? path = some (.file bytes) ∧ ⟨path, bytes⟩ = d := by
  unfold document
  split <;> simp_all

theorem Document.template_eq_ok_iff {d : Document} {encoding : String} {root : Component} :
    d.template encoding = .ok root
      ↔ ∃ text, Text.ofFile encoding d.bytes = .ok text ∧ Component.parse text = .ok root := by
  simp only [template, text, bind_eq_ok_iff, mapError_eq_ok_iff]

theorem Document.stylesheet_eq_ok_iff {d : Document} {encoding : String} {sheet : Stylesheet} :
    d.stylesheet encoding = .ok sheet
      ↔ ∃ text, Text.ofFile encoding d.bytes = .ok text
        ∧ Stylesheet.parse text (Text.Path.normalize d.path) = .ok sheet := by
  simp only [stylesheet, text, bind_eq_ok_iff, mapError_eq_ok_iff]

theorem Request.read_eq_ok_iff {r : Request} {encoding : String} {root : Component}
    {sheet : Stylesheet} :
    r.read encoding = .ok (root, sheet) ↔ r.template.template encoding = .ok root
      ∧ match r.style with
        | none => sheet = {}
        | some d => d.stylesheet encoding = .ok sheet := by
  cases styled : r.style with
  | none =>
      simp only [read, styled, bind_eq_ok_iff, pure_eq_ok_iff, Prod.mk.injEq]
      constructor
      · rintro ⟨_, first, _, rfl, rfl, rfl⟩
        exact ⟨first, rfl⟩
      · rintro ⟨first, rfl⟩
        exact ⟨root, first, {}, rfl, rfl, rfl⟩
  | some d =>
      simp only [read, styled, bind_eq_ok_iff, pure_eq_ok_iff, Prod.mk.injEq]
      constructor
      · rintro ⟨_, first, _, second, rfl, rfl⟩
        exact ⟨first, second⟩
      · rintro ⟨first, second⟩
        exact ⟨root, first, sheet, second, rfl, rfl⟩

variable {input : Input} {names arguments : List String} {parsed : Arguments}

theorem request_eq_ok_iff (parse : Arguments.parse names arguments = .ok parsed) {r : Request} :
    request input names arguments = .ok r ↔ ∃ style path bytes,
      (parsed.option? "--style").mapM (document input "--style") = .ok style
        ∧ parsed.positional = [path] ∧ input.entry? path = some (.file bytes)
        ∧ ⟨parsed, ⟨path, bytes⟩, style⟩ = r := by
  simp only [request, bind_eq_ok_iff, mapError_eq_ok_iff, parse, Except.ok.injEq,
    exists_eq_left']
  refine exists_congr fun style => ?_
  split
  case h_1 none => simp [none, throw_ne_ok]
  case h_2 path extra given =>
      simp only [bind_eq_ok_iff, document_eq_ok_iff, given]
      cases extra with
      | nil => simp [pure_eq_ok_iff]
      | cons _ _ => simp [throw_ne_ok]

theorem exists_style_iff {encoding : String} {sheet : Stylesheet} {file? : Option String} :
    (∃ style, file?.mapM (document input "--style") = .ok style
        ∧ match style with
          | none => sheet = {}
          | some d => d.stylesheet encoding = .ok sheet)
      ↔ match file? with
        | none => sheet = {}
        | some file => ∃ text, input.HasText encoding file text
          ∧ Stylesheet.parse text (Text.Path.normalize file) = .ok sheet := by
  cases file? with
  | none => simp [pure_eq_ok_iff]
  | some file =>
      rw [Option.mapM_some]
      constructor
      · rintro ⟨style, opened, styled⟩
        obtain ⟨d, named, rfl⟩ := map_eq_ok_iff.1 opened
        obtain ⟨bytes, found, rfl⟩ := document_eq_ok_iff.1 named
        obtain ⟨text, decoded, parsed⟩ := Document.stylesheet_eq_ok_iff.1 styled
        exact ⟨text, ⟨bytes, found, decoded⟩, parsed⟩
      · rintro ⟨text, ⟨bytes, found, decoded⟩, parsed⟩
        have named : document input "--style" file = .ok ⟨file, bytes⟩ :=
          document_eq_ok_iff.2 ⟨bytes, found, rfl⟩
        exact ⟨_, map_eq_ok_iff.2 ⟨_, named, rfl⟩,
          Document.stylesheet_eq_ok_iff.2 ⟨text, decoded, parsed⟩⟩

/-- What the command works on is what the files hold. -/
theorem exists_request_iff (parse : Arguments.parse names arguments = .ok parsed) {path : String}
    {root : Component} {sheet : Stylesheet} :
    (∃ r, request input names arguments = .ok r ∧ r.arguments = parsed ∧ r.template.path = path
        ∧ r.read (encodingOf input parsed) = .ok (root, sheet))
      ↔ input.Reads parsed path root sheet := by
  simp only [request_eq_ok_iff parse]
  constructor
  · rintro ⟨_, ⟨style, path, bytes, styled, positional, found, rfl⟩, _, rfl, read⟩
    obtain ⟨templated, sheeted⟩ := Request.read_eq_ok_iff.1 read
    obtain ⟨text, decoded, parsed⟩ := Document.template_eq_ok_iff.1 templated
    exact ⟨positional, ⟨text, ⟨bytes, found, decoded⟩, parsed⟩,
      exists_style_iff.1 ⟨style, styled, sheeted⟩⟩
  · rintro ⟨positional, ⟨text, ⟨bytes, found, decoded⟩, parsed⟩, style⟩
    obtain ⟨style, styled, sheeted⟩ := exists_style_iff.2 style
    exact ⟨_, ⟨style, path, bytes, styled, positional, found, rfl⟩, rfl, rfl,
      Request.read_eq_ok_iff.2 ⟨Document.template_eq_ok_iff.2 ⟨text, decoded, parsed⟩, sheeted⟩⟩

theorem arguments_of_request (parse : Arguments.parse names arguments = .ok parsed) {r : Request}
    (h : request input names arguments = .ok r) : r.arguments = parsed := by
  obtain ⟨_, _, _, _, _, _, rfl⟩ := (request_eq_ok_iff parse).1 h
  rfl

theorem validate_eq_ok_iff
    (parse : Arguments.parse ["--style", "--classes", "--encoding"] arguments = .ok parsed)
    {o : Outcome} :
    validate input arguments = .ok o ↔ ∃ path root sheet, input.Reads parsed path root sheet
      ∧ report path (Validation.validate root sheet (configurationOf input parsed)) = o := by
  simp only [validate, bind_eq_ok_iff, pure_eq_ok_iff, ← exists_request_iff parse]
  constructor
  · rintro ⟨r, requested, ⟨root, sheet⟩, read, rfl⟩
    obtain rfl := arguments_of_request parse requested
    exact ⟨r.template.path, root, sheet, ⟨r, requested, rfl, rfl, read⟩, rfl⟩
  · rintro ⟨_, root, sheet, ⟨r, requested, rfl, rfl, read⟩, rfl⟩
    exact ⟨r, requested, (root, sheet), read, rfl⟩

theorem exitCode_outcome_ne_zero (stop : Stop) : stop.outcome.exitCode ≠ 0 := by
  cases stop <;> simp [Stop.outcome]

/-- The last line of what is shown. -/
def summary (errors warnings infos : Nat) : String :=
  s!"Summary: {errors} error(s), {warnings} warning(s), {infos} info"

/-- What the command shows of diagnostics. -/
def shown (path : String) (found : List Diagnostic) : String :=
  if found = [] then lines ["OK: " ++ Text.Path.fileName path ++ " is valid (0 diagnostics)"]
  else lines (found.map (·.text)
    ++ ["", summary (count .error found) (count .warning found) (count .info found)])

theorem report_eq_shown {path : String} {found : List Diagnostic} (h : count .error found = 0) :
    report path found = { exitCode := 0, output := shown path found } := by
  have success : ((found.filter (·.severity == .error)).length == 0) = true := beq_iff_eq.2 h
  simp only [report, shown, List.isEmpty_iff, success, if_true]
  split <;> rfl

theorem run_eq_of_reads (given : input.arguments = "validate" :: arguments)
    (parse : Arguments.parse ["--style", "--classes", "--encoding"] arguments = .ok parsed)
    {path : String} {root : Component} {sheet : Stylesheet}
    (reads : input.Reads parsed path root sheet) :
    run input = { exitCode := 0,
                  output := shown path
                    (Validation.validate root sheet (configurationOf input parsed)) } := by
  have none : count .error (Validation.validate root sheet (configurationOf input parsed)) = 0 := by
    rw [Diagnostic.count_eq_zero_iff, Validation.validate_nil]
    exact fun d => Validation.severity_ne_error_of_mem_builtInReports
  have answer := (validate_eq_ok_iff parse).2 ⟨path, root, sheet, reads, report_eq_shown none⟩
  simp only [run, given, answer]

theorem exists_reads_of_run (given : input.arguments = "validate" :: arguments)
    (parse : Arguments.parse ["--style", "--classes", "--encoding"] arguments = .ok parsed)
    (success : (run input).exitCode = 0) :
    ∃ path root sheet, input.Reads parsed path root sheet := by
  cases answer : validate input arguments with
  | ok o =>
      obtain ⟨path, root, sheet, reads, _⟩ := (validate_eq_ok_iff parse).1 answer
      exact ⟨path, root, sheet, reads⟩
  | error stop =>
      simp only [run, given, answer] at success
      exact absurd success (exitCode_outcome_ne_zero stop)

end CommandLine

/-- Besides what the built-in rules report, which is no error, validation reports what the rules
given with it do. It rejects a document exactly if one of these reports an error, and then tells
all errors. The command `validate`, whose rules are the built-in ones, succeeds exactly if it is
given a template and at most one stylesheet that can be read; then it shows every diagnostic, and
how many there are of each severity. -/
theorem Validation.require_iff_no_error (root : Component) (sheet : Stylesheet)
    (config : Configuration) (extra : List Rule) :
    let builtIn := knownClasses root sheet config ++ unusedStyleRules root sheet config
      ++ percentageRange root sheet config ++ conditionSyntax root sheet config
    let added := extra.flatMap fun rule => rule root sheet config
    let errors := added.filter fun d => d.severity = .error
    (validate root sheet config extra = builtIn ++ added ∧ ∀ d ∈ builtIn, d.severity ≠ .error)
    ∧ ((∃ r, require root sheet config extra = .error r)
        ↔ ∃ rule ∈ extra, ∃ d ∈ rule root sheet config, d.severity = .error)
    ∧ (∀ r, require root sheet config extra = .error r → r.diagnostics = errors
        ∧ r.message = s!"Validation failed with {errors.length} error(s): "
          ++ "; ".intercalate (errors.map (·.text)))
    ∧ (∀ found, require root sheet config extra = .ok found →
        found = validate root sheet config extra)
    ∧ ∀ (input : CommandLine.Input) (arguments : List String) (parsed : CommandLine.Arguments),
      input.arguments = "validate" :: arguments →
      CommandLine.Arguments.parse ["--style", "--classes", "--encoding"] arguments = .ok parsed →
      ((CommandLine.run input).exitCode = 0 ↔ ∃ path root sheet, input.Reads parsed path root sheet)
      ∧ ∀ path root sheet, input.Reads parsed path root sheet →
        let found := validate root sheet (CommandLine.configurationOf input parsed)
        CommandLine.run input = { exitCode := 0, output := CommandLine.shown path found }
          ∧ count .error found + count .warning found + count .info found = found.length := by
  intro builtIn added errors
  have severe : ∀ d ∈ errors, d.severity = .error := fun d inside =>
    of_decide_eq_true (List.mem_filter.1 inside).2
  have decided : require root sheet config extra
      = if errors = [] then .ok (validate root sheet config extra) else .error ⟨errors⟩ :=
    require_eq root sheet config extra
  refine ⟨⟨validate_eq_append root sheet config extra,
    fun d => severity_ne_error_of_mem_builtInReports⟩,
    exists_require_eq_error_iff.trans addedErrors_ne_nil_iff, ?_, ?_, ?_⟩
  · intro r rejected
    rw [decided] at rejected
    split at rejected <;> cases rejected
    exact ⟨rfl, message_of_errors severe⟩
  · intro found accepted
    rw [decided] at accepted
    split at accepted <;> cases accepted
    rfl
  · intro input arguments parsed given parse
    refine ⟨⟨CommandLine.exists_reads_of_run given parse, ?_⟩, ?_⟩
    · rintro ⟨path, root, sheet, reads⟩
      rw [CommandLine.run_eq_of_reads given parse reads]
    · intro path root sheet reads
      exact ⟨CommandLine.run_eq_of_reads given parse reads, Diagnostic.count_add_count_add_count _⟩

/-- Two given rules, which report two errors around a hint, and a run with a stylesheet. -/
theorem Validation.require_iff_no_error_twice :
    let first : Diagnostic := ⟨"r", .error, "x", some 1, "template", none⟩
    let hint : Diagnostic := ⟨"r", .info, "y", none, "s", none⟩
    let second : Diagnostic := ⟨"q", .error, "z", none, "s", none⟩
    let extra : List Rule := [fun _ _ _ => [first, hint], fun _ _ _ => [second]]
    let root : Component := .node "a" 1 [] []
    let sheet : Stylesheet := ⟨[⟨"b", [], 1⟩], "s"⟩
    let input : CommandLine.Input := {
      arguments := ["validate", "t", "--style=s"]
      files := [("t", .file [97]), ("s", .file [98, 32, 123, 125])] }
    (∃ r, require root sheet {} extra = .error r ∧ r.diagnostics = [first, second]
      ∧ r.message = "Validation failed with 2 error(s): ERROR [template:1]: x; ERROR: z")
      ∧ (CommandLine.run input).exitCode = 0 := by
  intro first hint second extra root sheet input
  obtain ⟨_, rejected, told, _, command⟩ := require_iff_no_error root sheet {} extra
  obtain ⟨r, failed⟩ := rejected.2 ⟨_, List.mem_cons_self, first, List.mem_cons_self, rfl⟩
  obtain ⟨diagnostics, message⟩ := told r failed
  refine ⟨⟨r, failed, diagnostics, message.trans (by decide +kernel)⟩, ?_⟩
  have parse : CommandLine.Arguments.parse ["--style", "--classes", "--encoding"] ["t", "--style=s"]
      = .ok ⟨[("--style", "s")], ["t"]⟩ := by decide
  have template : Component.parse "a" = .ok root := by cbv
  have style : Stylesheet.parse "b \x7b\x7d" (Text.Path.normalize "s") = .ok sheet := by cbv
  refine (command input _ _ rfl parse).1.2 ⟨"t", root, sheet, rfl, ?_, ?_⟩
  · exact ⟨"a", ⟨[97], rfl, by decide +kernel⟩, template⟩
  · exact ⟨"b \x7b\x7d", ⟨[98, 32, 123, 125], rfl, by decide +kernel⟩, style⟩

end MarkupCascade
