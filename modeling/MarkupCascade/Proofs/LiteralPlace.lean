import MarkupCascade.Proofs.FaultPlace

/-!
At which place a number is reported that cannot be held. The line is that of the number. The column
is counted from the beginning of the declaration's text, so where the number stands on the first
line of a declaration that is indented, it stands as many columns further to the right as the indent
is wide, and everywhere else in the column that is reported.
-/

namespace MarkupCascade

open Outcome LogicalLine

/-- An integer or a percentage with the given sign and digits. -/
inductive Token.IsNumber (negative : Bool) (digits : List Char) : Token → Prop
  | integer : IsNumber negative digits (.integer negative digits)
  | percentage : IsNumber negative digits (.percentage negative digits)

theorem Token.IsNumber.no_lineFeed {negative : Bool} {digits : List Char} {t : Token}
    (h : t.IsNumber negative digits) (form : t.WellFormed) : '\n' ∉ t.spell := by
  refine no_lineFeed_spell form ?_
  rintro body rfl
  cases h

namespace Fragment

open Token (Gap)

/-- A token stands in a text at its place, behind the text that the tokens before it make up. -/
theorem Spread.exists_of_append {here : Position} {before after : List Lexeme} {l : Lexeme}
    {cs : List Char} (h : Spread here (before ++ l :: after) cs) :
    l.token.WellFormed ∧ ∃ front rest, cs = front ++ (l.token.spell ++ rest)
      ∧ l.start = here.after front ∧ Spread here before front := by
  induction before generalizing here cs with
  | nil =>
      cases h with
      | @cons _ gap t _ rest gaps form _ =>
          have silent := gaps.append (.nil : Gap true [])
          rw [List.append_nil] at silent
          exact ⟨form, gap, rest, rfl, rfl, .nil silent⟩
  | cons first before ih =>
      cases h with
      | @cons _ gap t _ _ gaps form spread =>
          obtain ⟨form', front, rest, rfl, place, inFront⟩ := ih spread
          refine ⟨form', gap ++ (t.spell ++ front), rest, by simp only [List.append_assoc], ?_,
            .cons gaps form inFront⟩
          rw [place, Position.after_append, Position.after_append]

/-- Every token of a text stands in it at its place. -/
theorem Spread.exists_of_mem {here : Position} {ls : List Lexeme} {cs : List Char}
    (h : Spread here ls cs) {l : Lexeme} (hl : l ∈ ls) :
    l.token.WellFormed
      ∧ ∃ front rest, cs = front ++ (l.token.spell ++ rest) ∧ l.start = here.after front := by
  obtain ⟨before, after, rfl⟩ := List.append_of_mem hl
  obtain ⟨form, front, rest, whole, place, _⟩ := h.exists_of_append
  exact ⟨form, front, rest, whole, place⟩

/-- A number is reported as out of range only if it is. -/
theorem number_of_fault? {l : Lexeme} {literal : List Char} {p : Position}
    (h : l.fault? = some (.outOfRange literal p)) :
    p = l.start ∧ ∃ negative digits, l.token.IsNumber negative digits
      ∧ literal = Token.sign negative ++ digits ∧ ¬Fits (integerOf negative digits) := by
  have number {isPercentage negative : Bool} {digits : List Char} {start : Position}
      (found : numberFault? isPercentage negative digits start = some (.outOfRange literal p)) :
      p = start ∧ literal = Token.sign negative ++ digits ∧ ¬Fits (integerOf negative digits) := by
    have faulty : numberFault? isPercentage negative digits start ≠ none := by simp [found]
    rw [ne_eq, numberFault?_eq_none_iff] at faulty
    simp only [numberFault?] at found
    split at found
    · cases found
    · rename_i short
      split at found <;> cases found
      exact ⟨rfl, rfl, fun fits => faulty ⟨Nat.not_lt.1 short, fits⟩⟩
  obtain ⟨t, start⟩ := l
  cases t with
  | integer negative digits =>
      obtain ⟨place, spelled, large⟩ := number h
      exact ⟨place, negative, digits, .integer, spelled, large⟩
  | percentage negative digits =>
      obtain ⟨place, spelled, large⟩ := number h
      exact ⟨place, negative, digits, .percentage, spelled, large⟩
  | _ => cases h

end Fragment

namespace LogicalLine

/-- A line that is refused for a number is refused for one of its tokens. -/
theorem fails_declaration_outOfRange (required : Bool) (l : LogicalLine) :
    Fails (fun e => ∀ literal line column, e = .parse ⟨.outOfRange literal, line, column⟩ →
        ∃ ls m, Fragment.Spread {} ls l.text.toList ∧ m ∈ ls ∧ ∃ (spelled : List Char),
          m.fault? = some (.outOfRange spelled m.start)
          ∧ e = Fragment.Fault.toReadError l.number l.indent.length (.outOfRange spelled m.start))
      (l.declaration required) := by
  refine Fails.bind_of_ok ?_ fun d _ => ?_
  · refine Fails.bind (Fails.mapError fun fault failed literal line column same => ?_)
      fun _ => fails_pure _
    obtain outcome | ⟨ls, m, spread, hm, faulty⟩ := Fragment.exists_of_parse_eq_error failed
    · obtain inside | ⟨rfl, _⟩ := Fragment.standsIn_of_read outcome
      · cases inside <;> cases same
      · cases same
    · obtain ⟨o, rfl⟩ | ⟨spelled, rfl⟩ := Fragment.cases_of_fault? faulty
      · cases same
      · exact ⟨ls, m, spread, hm, spelled, faulty, rfl⟩
  · split
    · refine fails_throw ?_
      rintro literal line column ⟨⟩
    · exact fails_pure d

/-- How many columns of a line of the document are left out where columns are counted in the text of
a logical line. -/
def leftOut (l : LogicalLine) (line : Nat) : Nat := if line = l.number then l.indent.length else 0

/-- A document is refused for a number that cannot be held, at the line it stands on. The column is
that of the number but for what is left out on the first line of the declaration. -/
structure OutOfRangeAt (required : Bool) (source : String) (e : ParseError) (l : LogicalLine)
    (t : Token) (line column : Nat) (text : List Char) : Prop where
  refused : FirstRefused required (.parse e) (split source).lines l
  onLine : e.line = some (line : Int)
  inColumn : e.column = some (column : Int)
  within : l.number ≤ line ∧ line ≤ l.lastNumber
  restAt : RestAt (physicalLines source.toList) line (column + l.leftOut line) text
  begins : t.spell <+: text
  number : ∃ negative digits, t.IsNumber negative digits
    ∧ e.cause = .outOfRange (String.ofList (Token.sign negative ++ digits))
    ∧ ¬Fragment.Fits (Fragment.integerOf negative digits)

theorem exists_outOfRangeAt {required : Bool} {source : String} {e : ParseError} {l : LogicalLine}
    (first : FirstRefused required (.parse e) (split source).lines l) {literal : String}
    (large : e.cause = .outOfRange literal) :
    ∃ t line column text, OutOfRangeAt required source e l t line column text := by
  have h : l ∈ (split source).lines := first.mem
  obtain ⟨cause, errorLine, errorColumn⟩ := e
  cases large
  obtain ⟨ls, m, spread, hm, spelled, faulty, same⟩ :=
    fails_declaration_outOfRange required l _ first.declaration literal errorLine errorColumn rfl
  obtain ⟨form, front, rest, whole, place⟩ := spread.exists_of_mem hm
  obtain ⟨_, negative, digits, number, rfl, outside⟩ := Fragment.number_of_fault? faulty
  obtain ⟨last, behind, goesOn⟩ := exists_goesOn_of_mem_split h whole
  rw [← place] at goesOn
  have onLine : m.start.line = 1 + front.count '\n' := by
    rw [place]
    exact Position.line_after {} front
  have left : l.leftOut (l.number + front.count '\n')
      = if m.start.line = 1 then l.indent.length else 0 :=
    if_congr (by omega) rfl rfl
  rw [← left] at goesOn
  have shown := goesOn.restAt (physicalLines_ne_nil _) (no_lineFeed_of_mem_physicalLines _)
  cases same
  refine ⟨m.token, l.number + front.count '\n', m.start.column, _, first, ?_, rfl,
    ⟨Nat.le_add_right _ _, last⟩, shown, ?_, negative, digits, number, rfl, outside⟩
  · refine congrArg some ?_
    omega
  · rw [List.append_assoc, firstLine_append (number.no_lineFeed form)]
    exact List.prefix_append _ _

end LogicalLine

/-- Where a document is refused for an integer or a percentage that does not fit in 64 bits, the
error names the line of that number and its column in the text of the declaration: the number stands
there in the document, or behind the indent where it is on the first line of the declaration. -/
theorem ParseError.outOfRangeAt_of_parse (source : String) :
    (∀ e literal, Component.parse source = .error (.parse e) → e.cause = .outOfRange literal →
        ∃ l t line column text, OutOfRangeAt false source e l t line column text)
      ∧ ∀ name e literal, Stylesheet.parse source name = .error (.parse e) →
        e.cause = .outOfRange literal →
        ∃ l t line column text, OutOfRangeAt true source e l t line column text := by
  constructor
  · intro e literal refused large
    obtain fault | ⟨_, _, ⟨_, _, same⟩ | ⟨_, _, same⟩⟩ := Component.error_cases refused
    · have grammar : (ReadError.parse e).IsOfGrammar := congrArg Cause.rule large
      obtain ⟨l, first⟩ := Template.exists_firstRefused fault grammar
      exact ⟨l, exists_outOfRangeAt first large⟩
    · cases same
      cases large
    · cases same
      cases large
  · intro name e literal refused large
    obtain fault | ⟨_, _, same⟩ := Stylesheet.error_cases refused
    · obtain ⟨l, first⟩ := Stylesheet.exists_firstRefused fault
      exact ⟨l, exists_outOfRangeAt first large⟩
    · cases same
      cases large

/-- A percentage on a later line of a block that is indented, which stands where it is reported, and
an integer on the first line of a rule behind a tab, which stands one column further on. -/
theorem ParseError.outOfRangeAt_of_parse_indented :
    let block := "a\n    b \x7b\n  k: 9223372036854775808% \x7d"
    let rule := "\tb \x7b k: -9223372036854775809 \x7d"
    let e : ParseError := ⟨.outOfRange "9223372036854775808", some 3, some 6⟩
    let e' : ParseError := ⟨.outOfRange "-9223372036854775809", some 1, some 8⟩
    (Component.parse block = .error (.parse e)
        ∧ ∃ l t text, OutOfRangeAt false block e l t 3 6 text)
      ∧ Stylesheet.parse rule "s" = .error (.parse e')
        ∧ ∃ l t text, OutOfRangeAt true rule e' l t 1 8 text := by
  intro block rule e e'
  have inBlock : Component.parse block = .error (.parse e) := by cbv
  have inRule : Stylesheet.parse rule "s" = .error (.parse e') := by cbv
  obtain ⟨l, t, line, column, text, found⟩ := (outOfRangeAt_of_parse _).1 _ _ inBlock rfl
  obtain ⟨l', t', line', column', text', found'⟩ := (outOfRangeAt_of_parse _).2 _ _ _ inRule rfl
  obtain rfl : 3 = line := Int.ofNat.inj (Option.some.inj found.onLine)
  obtain rfl : 6 = column := Int.ofNat.inj (Option.some.inj found.inColumn)
  obtain rfl : 1 = line' := Int.ofNat.inj (Option.some.inj found'.onLine)
  obtain rfl : 8 = column' := Int.ofNat.inj (Option.some.inj found'.inColumn)
  exact ⟨⟨inBlock, l, t, text, found⟩, inRule, l', t', text', found'⟩

theorem LogicalLine.RestAt.eq_drop {lines : List (List Char)} {line column : Nat}
    {rest : List Char} (h : RestAt lines line column rest) :
    lines[line - 1]?.map (·.drop (column - 1)) = some rest := by
  obtain ⟨above, skipped, below, rfl, rfl, rfl⟩ := h
  simp

/-- A component that is indented: in the column that is reported for its number there stands
something else. -/
theorem Component.parse_outOfRange_indented :
    let source := "a\n    b \x7b k: 9223372036854775808 \x7d"
    Component.parse source
        = .error (.parse ⟨.outOfRange "9223372036854775808", some 2, some 8⟩)
      ∧ ¬∃ text, RestAt (physicalLines source.toList) 2 8 text
        ∧ "9223372036854775808".toList <+: text := by
  intro source
  refine ⟨by cbv, ?_⟩
  rintro ⟨text, rest, begins⟩
  have there := rest.eq_drop
  have line : physicalLines source.toList
      = ["a".toList, "    b \x7b k: 9223372036854775808 \x7d".toList] := by cbv
  rw [line] at there
  cases there
  revert begins
  decide

end MarkupCascade
