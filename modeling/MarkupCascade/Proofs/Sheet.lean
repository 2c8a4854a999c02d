import MarkupCascade.Proofs.Closing
import MarkupCascade.Template

/-!
Stylesheets of any layout. The rules of a sheet may run over many lines, with comments between any
two tokens and with lines that say nothing around them; each rule is found whole, on the line it
begins on, and its attributes on the lines of their keys.
-/

namespace MarkupCascade

open Outcome LogicalLine

/-- The inside of a condition over which braces are counted without harm. It may run over several
lines. -/
structure Calm (body : List Char) : Prop where
  openBrace : '{' ∉ body
  quote : '"' ∉ body
  slashes : ¬['/', '/'] <:+: body
  carriage : '\r' ∉ body

namespace Token

/-- The token is no condition, or one that is calm. -/
def IsCalm (t : Token) : Prop := ∀ body, t = .condition body → Calm body

theorem IsCalm.counted {t : Token} (h : t.IsCalm) (form : t.WellFormed) : t.Counted := by
  cases t with
  | condition body =>
      obtain ⟨openBrace, quote, slashes, _⟩ := h body rfl
      exact .of_absent openBrace form quote slashes
  | _ => trivial

theorem Gap.lineFeeds {atEnd : Bool} {g : List Char} (h : Gap atEnd g) :
    Gap atEnd (lineFeeds g) := by
  induction h with
  | nil => exact .nil
  | @space _ c g space _ ih =>
      by_cases carriage : c = '\r' ∧ g.head? = some '\n'
      · obtain ⟨rfl, next⟩ := carriage
        obtain ⟨g, rfl⟩ := List.head?_eq_some_iff.1 next
        rwa [LogicalLine.lineFeeds, ← lineFeeds_cons (by simp)]
      · rw [lineFeeds_cons fun same next => carriage ⟨same, next⟩]
        exact .space space ih
  | @comment _ body g noLineFeed _ ih =>
      obtain ⟨body', noLineFeed', same⟩ := exists_lineFeeds_lineFeed noLineFeed g
      rw [lineFeeds_cons (by simp), lineFeeds_cons (by simp), same]
      exact .comment noLineFeed' ih
  | lastComment noLineFeed =>
      rw [lineFeeds_of_no_lineFeed (by simpa using noLineFeed)]
      exact .lastComment noLineFeed

theorem lineFeeds_spell {t : Token} (form : t.WellFormed) (calm : t.IsCalm) (cs : List Char) :
    lineFeeds (t.spell ++ cs) = t.spell ++ lineFeeds cs := by
  cases t with
  | condition body => exact lineFeeds_of_no_carriage (by simp [spell, (calm body rfl).carriage]) cs
  | _ => exact lineFeeds_append (separate_spell form (by rintro _ ⟨⟩)) cs

end Token

theorem Position.after_lineFeeds (cs : List Char) (p : Position) :
    p.after (lineFeeds cs) = p.after cs := by
  fun_induction lineFeeds cs generalizing p with
  | case1 => rfl
  | case2 cs ih => exact ih (p.next '\n')
  | case3 c cs _ ih => exact ih (p.next c)

namespace Fragment

open Token (Gap)

/-- Lines may end in any way between the tokens. -/
theorem Spread.lineFeeds {p : Position} {ls : List Lexeme} {cs : List Char} (h : Spread p ls cs)
    (calm : ∀ l ∈ ls, l.token.IsCalm) : Spread p ls (LogicalLine.lineFeeds cs) := by
  induction h with
  | nil gap => exact .nil gap.lineFeeds
  | @cons here gap t ls cs hgap form _ ih =>
      obtain ⟨first, others⟩ := List.forall_mem_cons.1 calm
      obtain ⟨c, spelled, hspell, space, _⟩ := Token.exists_spell_eq_cons form
      have front : (t.spell ++ cs).head? ≠ some '\n' := by
        rw [hspell]
        rintro ⟨rfl⟩
        cases space
      rw [lineFeeds_append_of_head gap front, Token.lineFeeds_spell form first]
      have rest := @Spread.cons here _ t ls _ hgap.lineFeeds form
        ((Position.after_lineFeeds gap here).symm ▸ ih others)
      rwa [Position.after_lineFeeds] at rest

/-- A text made of tokens, each behind a gap. -/
inductive Spaced : Position → List Lexeme → List Char → Prop
  | nil {here : Position} : Spaced here [] []
  | cons {here : Position} {gap : List Char} {t : Token} {ls : List Lexeme} {cs : List Char} :
      Gap false gap → t.WellFormed → t.Convertible → t.IsCalm →
      Spaced ((here.after gap).after t.spell) ls cs →
      Spaced here (⟨t, here.after gap⟩ :: ls) (gap ++ (t.spell ++ cs))

namespace Spaced

variable {p : Position} {ls ls' : List Lexeme} {cs cs' : List Char}

theorem spread (h : Spaced p ls cs) (rest : Spread (p.after cs) ls' cs') :
    Spread p (ls ++ ls') (cs ++ cs') := by
  induction h with
  | nil => exact rest
  | cons gap form _ _ _ ih =>
      rw [List.append_assoc, List.append_assoc, List.cons_append]
      rw [Position.after_append, Position.after_append] at rest
      exact .cons gap form (ih rest)

theorem tokens (h : Spaced p ls cs) : ∀ l ∈ ls, l.token.Convertible ∧ l.token.IsCalm := by
  induction h with
  | nil => simp
  | cons _ _ convertible calm _ ih => exact List.forall_mem_cons.2 ⟨⟨convertible, calm⟩, ih⟩

theorem closes {n : Int} (h : Spaced p ls cs) (weightless : Weightless ls) (opened : 0 < n)
    (rest : Closes n (physicalLines cs')) : Closes n (physicalLines (cs ++ cs')) := by
  induction h with
  | nil => exact rest
  | @cons here gap t ls cs hgap form _ calm _ ih =>
      obtain ⟨first, others⟩ := List.forall_mem_cons.1 weightless
      have behind : Closes (n + t.weight) (physicalLines (cs ++ cs')) := by
        rw [first, Int.add_zero]
        exact ih others
      rw [List.append_assoc, List.append_assoc]
      exact closes_gap hgap (fun _ => opened) (closes_spell form (calm.counted form)
        (fun body same => (calm body same).carriage) (fun _ => opened) behind)

end Spaced

end Fragment

namespace Declaration

open Fragment

/-- The text of a rule: a name and on the same line an opening brace; behind it attributes over any
number of lines; and a closing brace, with nothing but a gap behind it on its line. The lines of
the attributes count from the beginning of the text. -/
inductive RuleText : Declaration → List Char → Prop
  | mk {name before inside last after : List Char} {attributes : List Attribute}
      {ls : List Lexeme} :
      Token.IsName name → Token.Gap false before → '\n' ∉ before →
      Series AttributeTokens attributes ls →
      Spaced (((({} : Position).after name).after before).after ['{']) ls inside →
      Token.Gap false last → Token.Gap true after → '\n' ∉ after →
      RuleText ⟨String.ofList name, attributes⟩
        (name ++ (before ++ '{' :: (inside ++ (last ++ '}' :: after))))

namespace RuleText

variable {d : Declaration} {cs : List Char}

theorem head (h : RuleText d cs) : ∃ c cs', cs = c :: cs' ∧ Token.isNameStart c = true := by
  cases h with
  | @mk name _ _ _ _ _ _ isName =>
      cases name with
      | nil => exact isName.elim
      | cons c name => exact ⟨c, _, rfl, isName.1⟩

theorem exists_spread (h : RuleText d cs) :
    ∃ ls, Spread {} ls cs ∧ DeclarationTokens true d ls
      ∧ ∀ l ∈ ls, l.token.Convertible ∧ l.token.IsCalm := by
  cases h with
  | @mk name before inside last after attributes ls isName hbefore _ series spaced hlast hafter =>
      let name' : Token := .name name
      have closing (p : Position) : Spread p [⟨.closeBrace, p.after last⟩] (last ++ '}' :: after) :=
        .cons (t := .closeBrace) hlast trivial (.nil hafter)
      have opening := Spread.cons (t := .openBrace) hbefore trivial (spaced.spread (closing _))
      have whole := Spread.cons (t := name') .nil isName opening
      have marks {t : Token} (h : t = .closeBrace ∨ t = .openBrace ∨ t = name') :
          t.Convertible ∧ t.IsCalm := by
        obtain rfl | rfl | rfl := h <;> exact ⟨trivial, nofun⟩
      refine ⟨_, whole, .block series, ?_⟩
      simp only [List.forall_mem_cons, List.forall_mem_append]
      exact ⟨marks (by simp), marks (by simp), spaced.tokens, marks (by simp), by simp⟩

/-- The closing brace of a rule is the first that makes its braces balance at the end of a line. -/
theorem closes (h : RuleText d cs) : Closes 0 (physicalLines cs) := by
  cases h with
  | @mk name before inside last after attributes ls isName hbefore line series spaced hlast hafter
      lastLine =>
      let name' : Token := .name name
      have closing : Closes 1 (physicalLines ('}' :: after)) :=
        closes_spell (t := .closeBrace) trivial trivial (by rintro _ ⟨⟩) (by simp)
          (closes_end hafter lastLine (by decide))
      have block := spaced.closes (weightless_attributes series) (by decide)
        (closes_gap hlast (fun _ => by decide) closing)
      have opening : Closes 0 (physicalLines ('{' :: (inside ++ (last ++ '}' :: after)))) :=
        closes_spell (t := .openBrace) trivial trivial (by rintro _ ⟨⟩) (by simp [Token.spell])
          block
      have noLineFeed : '\n' ∉ name'.spell := Token.no_lineFeed_spell isName (by simp [name'])
      exact closes_spell (t := name') isName trivial (by simp [name'])
        (fun inside => absurd inside noLineFeed)
        (closes_gap hbefore (fun inside => absurd inside line) opening)

end RuleText

end Declaration

open Declaration

namespace Stylesheet

theorem rule_eq_ok_iff {l : LogicalLine} {r : StyleRule} :
    rule l = .ok r
      ↔ ∃ d, l.declaration true = .ok d ∧ r = ⟨d.className, d.attributes, l.number⟩ := by
  simp only [rule, bind_eq_ok_iff, pure_eq_ok_iff, @eq_comm _ r]

/-- A sheet is read exactly if all of its logical lines are rules. -/
theorem parse_eq_ok_iff {source name : String} {sheet : Stylesheet} :
    parse source name = .ok sheet
      ↔ (split source).unclosed = none ∧ sheet.name = name
        ∧ List.Forall₂ (fun l r => rule l = .ok r) (split source).lines sheet.rules := by
  simp only [parse, bind_eq_ok_iff, mapM_eq_ok_iff]
  constructor
  · intro given
    obtain ⟨rules, each, h⟩ := given
    split at h
    · exact absurd h throw_ne_ok
    · cases pure_eq_ok_iff.1 h
      exact ⟨‹_›, rfl, each⟩
  · intro given
    obtain ⟨complete, rfl, each⟩ := given
    exact ⟨sheet.rules, each, by rw [complete]; rfl⟩

/-- A line that says nothing: white space, and perhaps a comment behind it. -/
def IsIdle (line : List Char) : Prop :=
  ∃ blank comment, line = blank ++ comment ∧ Text.IsBlank blank
    ∧ (comment = [] ∨ ['/', '/'] <+: comment)

theorem isIgnored_of_isIdle {line : List Char} (h : IsIdle line) : isIgnored line = true := by
  obtain ⟨blank, comment, rfl, blanks, rfl | ⟨comment, rfl⟩⟩ := h
  · rw [isIgnored, List.append_nil, Text.strip_eq_nil_iff.2 blanks]
    rfl
  · have solid : Text.isBlank '/' = false := rfl
    rw [isIgnored, Text.strip_blank_append blanks, List.cons_append, List.cons_append,
      Text.strip_cons solid, Text.trimEnd_cons solid]
    rfl

/-- What a sheet consists of, with the rules in it: a line that says nothing, or a rule behind an
indent. The line on which it begins is given. -/
inductive Part (number : Nat) : List StyleRule → List Char → Prop
  | idle {line : List Char} : '\n' ∉ line → IsIdle line → Part number [] line
  | rule {indent cs : List Char} {d : Declaration} :
      IsIndent indent → RuleText d cs → d.InRange → (Attribute.plainKeys d.attributes).Nodup →
      Part number [⟨d.className, (d.movedTo number).attributes, number⟩] (indent ++ cs)

/-- The text of a sheet from the given line on, with the rules in it. -/
inductive SheetText : Nat → List StyleRule → List Char → Prop
  | last {number : Nat} {rules : List StyleRule} {cs : List Char} :
      Part number rules cs → SheetText number rules cs
  | cons {number : Nat} {rules others : List StyleRule} {cs e rest : List Char} :
      Part number rules cs → EndsLine cs e →
      SheetText (number + (cs.count '\n' + 1)) others rest →
      SheetText number (rules ++ others) (cs ++ (e ++ rest))

theorem rule_ruleText {d : Declaration} {cs : List Char} (text : RuleText d cs)
    (inRange : d.InRange) (keys : (Attribute.plainKeys d.attributes).Nodup) (number : Nat)
    (indent : String) :
    rule ⟨number, indent, String.ofList (lineFeeds cs)⟩
      = .ok ⟨d.className, (d.movedTo number).attributes, number⟩ := by
  obtain ⟨ls, spread, tokens, each⟩ := text.exists_spread
  have layout : d.Layout true (lineFeeds cs) :=
    ⟨ls, spread.lineFeeds fun l hl => (each l hl).2, tokens, fun l hl => (each l hl).1⟩
  refine rule_eq_ok_iff.2 ⟨d.movedTo number, declaration_eq_ok_iff.2 ⟨?_, ?_⟩, rfl⟩
  · exact Declaration.parse_eq_ok_iff.2 ⟨d, by rwa [String.toList_ofList], inRange, rfl⟩
  · exact (Attribute.plainKeys_map_line _ _).symm ▸ keys

/-- The lines of a part are gathered apart from those behind it. -/
theorem Part.gather {number : Nat} {rules : List StyleRule} {cs : List Char}
    (h : Part number rules cs) :
    ∃ ls, List.Forall₂ (fun l r => Stylesheet.rule l = .ok r) ls rules
      ∧ ∀ rest, LogicalLine.gather number none (physicalLines cs ++ rest)
        = (LogicalLine.gather (number + (physicalLines cs).length) none rest).prepend ls := by
  cases h with
  | idle line idle =>
      refine ⟨[], .nil, fun rest => ?_⟩
      rw [physicalLines_of_no_lineFeed line, List.singleton_append,
        gather_ignored (isIgnored_of_isIdle idle)]
      rfl
  | @rule indent cs d hindent text inRange keys =>
      have closes := text.closes
      obtain ⟨c, cs, rfl, start⟩ := text.head
      obtain ⟨line, lines, found⟩ := List.exists_cons_of_ne_nil (physicalLines_ne_nil cs)
      have lineFeed : c ≠ '\n' ∧ c ≠ '\r' := by
        constructor <;> rintro rfl <;> exact absurd start (by decide)
      have found := physicalLines_cons lineFeed.1 (fun same => absurd same lineFeed.2) found
      have read := rule_ruleText text inRange keys number (String.ofList indent)
      refine ⟨_, .cons read .nil, fun rest => ?_⟩
      rw [physicalLines_append (separate_of_isIndent hindent) found, List.cons_append,
        ← intercalate_physicalLines, found]
      rw [found] at closes
      exact gather_none hindent ⟨c, rfl, start⟩ closes number rest

theorem SheetText.gather {number : Nat} {rules : List StyleRule} {cs : List Char}
    (h : SheetText number rules cs) :
    ∃ ls, List.Forall₂ (fun l r => Stylesheet.rule l = .ok r) ls rules
      ∧ LogicalLine.gather number none (physicalLines cs) = ⟨ls, none⟩ := by
  induction h with
  | last part =>
      obtain ⟨ls, each, gathered⟩ := part.gather
      have whole := gathered []
      rw [List.append_nil] at whole
      refine ⟨ls, each, whole.trans ?_⟩
      simp [LogicalLine.gather, Split.prepend]
  | cons part ends _ ih =>
      obtain ⟨ls, each, gathered⟩ := part.gather
      obtain ⟨others, eachOther, gatheredOthers⟩ := ih
      refine ⟨ls ++ others, List.rel_append each eachOther, ?_⟩
      rw [physicalLines_append_lineEnd ends, gathered, length_physicalLines, gatheredOthers]
      rfl

/-- A sheet is read as the rules that it was written with, whatever its layout. -/
theorem parse_sheetText {rules : List StyleRule} {source : String}
    (text : SheetText 1 rules source.toList) (name : String) :
    parse source name = .ok ⟨rules, name⟩ := by
  obtain ⟨ls, each, gathered⟩ := text.gather
  have whole : split source = ⟨ls, none⟩ := gathered
  rw [parse_eq_ok_iff, whole]
  exact ⟨rfl, rfl, each⟩

/-- A rule over three lines below a comment, with a brace in each comment. -/
theorem parse_sheetText_commented :
    SheetText 1 [⟨"a", [⟨"k", .integer 1, some "x", 3⟩], 2⟩]
        "// \x7b\r\n\ta \x7b // \x7d\n k?\x7bx\x7d: 1\n\x7d".toList
      ∧ parse "// \x7b\r\n\ta \x7b // \x7d\n k?\x7bx\x7d: 1\n\x7d" "s"
        = .ok ⟨[⟨"a", [⟨"k", .integer 1, some "x", 3⟩], 2⟩], "s"⟩ := by
  have nameA : Token.IsName ['a'] := ⟨rfl, by simp⟩
  have nameK : Token.IsName ['k'] := ⟨rfl, by simp⟩
  have tab : IsIndent ['\t'] := List.forall_mem_singleton.2 rfl
  have space : Token.Gap false [' '] := .space rfl .nil
  have comment : Token.Gap false (' ' :: "// \x7d\n ".toList) :=
    .space rfl (@Token.Gap.comment _ [' ', '\x7d'] _ (by decide) space)
  have calm : Token.IsCalm (.condition ['x']) := by
    rintro body ⟨⟩
    exact ⟨by decide, by decide, by decide, by decide⟩
  have noBrace : '\x7d' ∉ ['x'] := by decide
  have numeral : Token.IsNumeral ['1'] := ⟨by simp, List.all_eq_true.1 rfl⟩
  have short : ['1'].length ≤ OversizedLiteral.maxDigits := by decide
  have inside : Fragment.Spaced ⟨1, 4⟩
      [⟨.name ['k'], ⟨2, 2⟩⟩, ⟨.condition ['x'], ⟨2, 3⟩⟩, ⟨.colon, ⟨2, 7⟩⟩,
        ⟨.integer false ['1'], ⟨2, 9⟩⟩] " // \x7d\n k?\x7bx\x7d: 1".toList :=
    .cons (t := .name ['k']) comment nameK trivial nofun <|
    .cons (t := .condition ['x']) .nil noBrace trivial calm <|
    .cons (t := .colon) .nil trivial trivial nofun <|
    .cons (t := .integer false ['1']) space numeral short nofun .nil
  have one : Fragment.ValueTokens (.integer 1) [⟨.integer false ['1'], ⟨2, 9⟩⟩] :=
    @Fragment.ValueTokens.integer false ['1'] _
  have text : RuleText ⟨"a", [⟨"k", .integer 1, some "x", 2⟩]⟩
      "a \x7b // \x7d\n k?\x7bx\x7d: 1\n\x7d".toList :=
    .mk nameA space (by decide) (.last (.gated one)) inside (.space rfl .nil) .nil (by simp)
  have inRange : InRange ⟨"a", [⟨"k", .integer 1, some "x", 2⟩]⟩ :=
    List.forall_mem_singleton.2 (.integer ⟨by decide, by decide⟩)
  have sheet : SheetText 1 [⟨"a", [⟨"k", .integer 1, some "x", 3⟩], 2⟩]
      "// \x7b\r\n\ta \x7b // \x7d\n k?\x7bx\x7d: 1\n\x7d".toList :=
    .cons (.idle (by decide) ⟨[], "// \x7b".toList, rfl, nofun, .inr ⟨[' ', '\x7b'], rfl⟩⟩)
      (.inl rfl) (.last (@Part.rule _ ['\t'] _ _ tab text inRange (by decide)))
  exact ⟨sheet, parse_sheetText sheet "s"⟩

end Stylesheet

end MarkupCascade
