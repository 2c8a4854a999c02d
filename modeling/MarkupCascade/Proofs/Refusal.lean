import MarkupCascade.Proofs.SingleLine

/-!
How reading a document fails. Every refusal names the rule that the document breaks, with one
exception: a document with a number of too many digits is given up without one, and that happens
only where such a number stands in a declaration that fits the grammar.
-/

namespace MarkupCascade

open Outcome Fragment LogicalLine

/-- A number with more digits than are converted. -/
inductive Token.Oversized : Token → OversizedLiteral → Prop
  | integer {negative : Bool} {digits : List Char} :
      OversizedLiteral.maxDigits < digits.length →
      Oversized (.integer negative digits) ⟨false, digits.length⟩
  | percentage {negative : Bool} {digits : List Char} :
      OversizedLiteral.maxDigits < digits.length →
      Oversized (.percentage negative digits) ⟨true, digits.length⟩

namespace Fragment

variable {f : Form}

theorem oversized_of_numberFault? {isPercentage negative : Bool} {digits : List Char}
    {start : Position} {o : OversizedLiteral}
    (h : numberFault? isPercentage negative digits start = some (.oversized o)) :
    OversizedLiteral.maxDigits < digits.length ∧ o = ⟨isPercentage, digits.length⟩ := by
  simp only [numberFault?] at h
  split at h
  · rename_i long
    cases h
    exact ⟨long, rfl⟩
  · split at h <;> cases h

theorem oversized_of_fault? {l : Lexeme} {o : OversizedLiteral}
    (h : l.fault? = some (.oversized o)) : l.token.Oversized o := by
  obtain ⟨t, start⟩ := l
  cases t with
  | integer negative digits =>
      obtain ⟨long, rfl⟩ := oversized_of_numberFault? h
      exact .integer long
  | percentage negative digits =>
      obtain ⟨long, rfl⟩ := oversized_of_numberFault? h
      exact .percentage long
  | _ => cases h

/-- Numbers are looked at only after the whole text has been found to fit the grammar. -/
theorem outcome_read_ne_oversized (s : Stage f) (cs : List Char) (here last : Position)
    (o : OversizedLiteral) : (read s cs here last).outcome ≠ .error (.oversized o) := by
  fun_induction read s cs here last with
  | case1 | case2 | case3 | case4 => rintro ⟨⟩
  | case5 => assumption

theorem parse_eq_oversized_iff {s : Stage f} {cs : List Char} {o : OversizedLiteral} :
    parse s cs = .error (.oversized o)
      ↔ ∃ ls r, (Spread {} ls cs ∧ run s ls = some r)
        ∧ ls.findSome? Lexeme.fault? = some (.oversized o) := by
  simp only [← read_eq_ok_iff {}, parse]
  constructor
  · intro h
    unfold Reading.result at h
    split at h
    · rename_i fault outcome
      cases h
      exact absurd outcome (outcome_read_ne_oversized s cs {} {} o)
    · rename_i result outcome
      split at h
      · rename_i fault found
        cases h
        exact ⟨_, result, congrArg (Reading.mk _) outcome, found⟩
      · cases h
  · intro given
    obtain ⟨ls, r, h, found⟩ := given
    rw [h]
    simp only [Reading.result, found]

end Fragment

/-- The document breaks a rule that has a name, or it is given up for a number that is too long. -/
def ReadError.Foreseen (TooLong : OversizedLiteral → Prop) : ReadError → Prop
  | .parse e => e.cause.rule ≠ .document
  | .oversized o => TooLong o

theorem ReadError.Foreseen.imp {P Q : OversizedLiteral → Prop} (h : ∀ o, P o → Q o) :
    ∀ e, Foreseen P e → Foreseen Q e
  | .parse _, foreseen => foreseen
  | .oversized o, tooLong => h o tooLong

theorem ReadError.fails_mapError {α : Type} {P : OversizedLiteral → Prop} {x : Except ParseError α}
    (h : Fails (fun e => e.cause.rule ≠ .document) x) :
    Fails (Foreseen P) (x.mapError .parse) :=
  Fails.mapError h

/-- A number that is too long stands in a text which fits the grammar of declarations. -/
def Declaration.HasOversized (required : Bool) (text : String) (o : OversizedLiteral) : Prop :=
  ∃ d ls, Spread {} ls text.toList ∧ DeclarationTokens required d ls
    ∧ ∃ l ∈ ls, l.token.Oversized o

/-- A number that is too long stands in a line of the document. -/
def LogicalLine.HasOversized (required : Bool) (source : String) (o : OversizedLiteral) : Prop :=
  ∃ l ∈ (split source).lines, Declaration.HasOversized required l.text o

theorem Declaration.fails_parse (required : Bool) (text : String) (line indent : Int) :
    Fails (ReadError.Foreseen (HasOversized required text))
      (Declaration.parse required text line indent) := by
  refine Fails.bind (Fails.mapError ?_) fun _ => fails_pure _
  intro fault failed
  cases fault with
  | oversized o =>
      obtain ⟨ls, d, ⟨spread, ran⟩, found⟩ := parse_eq_oversized_iff.1 failed
      obtain ⟨l, hl, fault⟩ := List.exists_of_findSome?_eq_some found
      exact ⟨d, ls, spread, run_start_eq_some_iff.1 ran, l, hl, oversized_of_fault? fault⟩
  | _ => nofun

theorem LogicalLine.fails_declaration (required : Bool) (l : LogicalLine) :
    Fails (ReadError.Foreseen (Declaration.HasOversized required l.text))
      (l.declaration required) := by
  refine (Declaration.fails_parse required l.text _ _).bind fun d => ?_
  split
  · exact fails_throw nofun
  · exact fails_pure d

theorem LogicalLine.fails_depth (l : LogicalLine) :
    Fails (fun e => e.cause.rule ≠ .document) l.depth := by
  intro e failed
  simp only [depth] at failed
  split at failed <;> cases failed
  rintro ⟨⟩

namespace Template

theorem fails_place (before : Option Nesting) (e : Entry) :
    Fails (fun e => e.cause.rule ≠ .document) (place before e) := by
  intro fault failed
  cases before with
  | none =>
      simp only [place] at failed
      split at failed <;> cases failed
      rintro ⟨⟩
  | some p =>
      simp only [place] at failed
      split at failed
      · cases failed
        rintro ⟨⟩
      · split at failed <;> cases failed
        rintro ⟨⟩

theorem fails_entries (before : Option Nesting) (ls : List LogicalLine) :
    Fails (ReadError.Foreseen fun o => ∃ l ∈ ls, Declaration.HasOversized false l.text o)
      (entries before ls) := by
  induction ls generalizing before with
  | nil => exact fails_pure []
  | cons l ls ih =>
      refine (ReadError.fails_mapError l.fails_depth).bind fun depth => ?_
      refine ((l.fails_declaration false).imp ?_).bind fun d => ?_
      · exact .imp fun o tooLong => ⟨l, List.mem_cons_self, tooLong⟩
      refine (ReadError.fails_mapError (fails_place before _)).bind fun here => ?_
      refine ((ih (some here)).imp ?_).bind fun _ => fails_pure _
      refine .imp fun o given => ?_
      obtain ⟨l', hl', tooLong⟩ := given
      exact ⟨l', List.mem_cons_of_mem l hl', tooLong⟩

end Template

theorem Component.fails_parse (source : String) :
    Fails (ReadError.Foreseen (HasOversized false source)) (Component.parse source) := by
  refine (Template.fails_entries none _).bind fun es => ?_
  split
  · exact fails_throw nofun
  · exact fails_pure _
  · exact fails_throw nofun

theorem Stylesheet.fails_parse (source name : String) :
    Fails (ReadError.Foreseen (HasOversized true source)) (Stylesheet.parse source name) := by
  have each : ∀ l ∈ (split source).lines,
      Fails (ReadError.Foreseen (HasOversized true source)) (rule l) := by
    intro l hl
    refine ((l.fails_declaration true).imp ?_).bind fun _ => fails_pure _
    exact .imp fun o tooLong => ⟨l, hl, tooLong⟩
  refine (fails_mapM each).bind fun rules => ?_
  split
  · exact fails_throw nofun
  · exact fails_pure _

/-- A document is read, or it is refused under a rule that has a name, or it is given up for a number
of too many digits in it. -/
theorem ReadError.read_or_foreseen (source : String) :
    ((∃ root, Component.parse source = .ok root) ∨ ∃ e, Component.parse source = .error e
        ∧ e.Foreseen (HasOversized false source))
      ∧ ∀ name, (∃ sheet, Stylesheet.parse source name = .ok sheet)
        ∨ ∃ e, Stylesheet.parse source name = .error e
          ∧ e.Foreseen (HasOversized true source) :=
  ⟨(Component.fails_parse source).answered, fun name =>
    (Stylesheet.fails_parse source name).answered⟩

/-- A declaration that is a document by itself is given up if the first number at fault in it is too
long. -/
theorem Component.parse_eq_oversized {text : String} {d : Declaration} {ls : List Lexeme}
    {o : OversizedLiteral} (whole : IsWhole text) (spread : Spread {} ls text.toList)
    (tokens : DeclarationTokens false d ls)
    (found : ls.findSome? Lexeme.fault? = some (.oversized o)) :
    Component.parse text = .error (.oversized o) := by
  have fragment := parse_eq_oversized_iff.2 ⟨ls, d, ⟨spread, run_declaration tokens⟩, found⟩
  have declaration : LogicalLine.declaration false ⟨1, "", text⟩ = .error (.oversized o) := by
    rw [LogicalLine.declaration, Declaration.parse, fragment]
    rfl
  rw [Component.parse, whole]
  simp only [Template.entries, Declaration.depth_unindented, declaration]
  rfl

/-- A block with one attribute, the value of which is an integer. -/
def integerBlock (digits : List Char) : String := "a \x7b k: " ++ String.ofList digits ++ " \x7d"

def integerBlockTokens (digits : List Char) : List Lexeme :=
  [⟨.name ['a'], ⟨1, 1⟩⟩, ⟨.openBrace, ⟨1, 3⟩⟩, ⟨.name ['k'], ⟨1, 5⟩⟩, ⟨.colon, ⟨1, 6⟩⟩,
    ⟨.integer false digits, ⟨1, 8⟩⟩, ⟨.closeBrace, (Position.after ⟨1, 8⟩ digits).next ' '⟩]

theorem toList_integerBlock (digits : List Char) :
    (integerBlock digits).toList
      = 'a' :: ' ' :: '\x7b' :: ' ' :: 'k' :: ':' :: ' ' :: (digits ++ [' ', '\x7d']) := by
  simp [integerBlock]

theorem spread_integerBlock {digits : List Char} (numeral : Token.IsNumeral digits) :
    Spread {} (integerBlockTokens digits) (integerBlock digits).toList := by
  have nameA : Token.IsName ['a'] := ⟨rfl, by simp⟩
  have nameK : Token.IsName ['k'] := ⟨rfl, by simp⟩
  have space : Token.Gap false [' '] := .space rfl .nil
  rw [toList_integerBlock]
  exact .cons (t := .name ['a']) .nil nameA <| .cons (t := .openBrace) space trivial <|
    .cons (t := .name ['k']) space nameK <| .cons (t := .colon) .nil trivial <|
    .cons (t := .integer false digits) space numeral <|
    .cons (t := .closeBrace) space trivial (.nil .nil)

/-- However many digits there are, it is the number of them that decides. -/
theorem Component.parse_integerBlock {digits : List Char} (numeral : Token.IsNumeral digits)
    (long : OversizedLiteral.maxDigits < digits.length) :
    Component.parse (integerBlock digits) = .error (.oversized ⟨false, digits.length⟩) := by
  have spread := spread_integerBlock numeral
  have tokens : DeclarationTokens false
      ⟨"a", [⟨"k", .integer (integerOf false digits), none, 1⟩]⟩ (integerBlockTokens digits) :=
    @DeclarationTokens.block false ['a'] _ _ _ _ _
      (.last (@AttributeTokens.plain ['k'] _ _ ⟨1, 5⟩ _ (@ValueTokens.integer false digits _)))
  have line : '\n' ∉ (integerBlock digits).toList := by
    have inDigits : '\n' ∉ digits := fun inside => absurd (numeral.2 _ inside) (by decide)
    simp [toList_integerBlock, inDigits]
  have front : "a".toList <+: (integerBlock digits).toList := by
    rw [toList_integerBlock]
    exact ⟨_, rfl⟩
  have whole := Declaration.isWhole_of_tokens spread tokens line front
    (List.forall_mem_singleton.2 nofun)
  refine Component.parse_eq_oversized whole spread tokens ?_
  have fault : numberFault? false false digits ⟨1, 8⟩ = some (.oversized ⟨false, digits.length⟩) :=
    if_pos long
  simp only [integerBlockTokens, List.findSome?, Lexeme.fault?, fault]

theorem Component.parse_4301_digits :
    Component.parse ("a \x7b k: " ++ String.ofList (List.replicate 4301 '1') ++ " \x7d")
      = .error (.oversized ⟨false, 4301⟩) := by
  have numeral : Token.IsNumeral (List.replicate 4301 '1') := by
    refine ⟨List.replicate_succ_ne_nil, fun c hc => ?_⟩
    rw [List.eq_of_mem_replicate hc]
    rfl
  have long : (List.replicate 4301 '1').length = 4301 := List.length_replicate
  have refused := Component.parse_integerBlock numeral (by rw [long]; decide)
  rwa [long] at refused

end MarkupCascade
