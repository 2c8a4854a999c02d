import MarkupCascade.Proofs.LogicalLine
import MarkupCascade.Proofs.Printed

/-!
Values, attributes and declarations as they are written, and that a written declaration is read
back.
-/

namespace MarkupCascade

open Fragment

/-! Values. -/

/-- A value that is written without loss: there is no float in it, and its numbers can be held. -/
inductive Value.Plain : Value → Prop
  | default : Plain .default
  | string {text : String} : Plain (.string text)
  | integer {n : Int} : Fits n → Plain (.integer n)
  | percentage {n : Int} : Fits n → Plain (.percentage n)
  | tuple {items : List Value} : (∀ v ∈ items, Plain v) → Plain (.tuple items)

namespace Value

theorem Plain.inRange {v : Value} (h : v.Plain) : v.InRange := by
  induction h with
  | default => exact .default
  | string => exact .string
  | integer fits => exact .integer fits
  | percentage fits => exact .percentage fits
  | tuple _ ih => exact .tuple ih

theorem stringBody_flatMap_escape (cs : List Char) : Token.StringBody (cs.flatMap escape) := by
  induction cs with
  | nil => exact .nil
  | cons c cs ih =>
      rw [List.flatMap_cons, escape]
      split
      · exact .escape (by decide) ih
      · split
        · exact .escape (by decide) ih
        · split
          · exact .escape (by decide) ih
          · simp_all only [beq_iff_eq]
            exact .plain ‹_› ‹_› ‹_› ih

theorem spellItems_eq_intercalate (items : List Value) :
    spellItems items = [',', ' '].intercalate (items.map spell) := by
  induction items with
  | nil => rfl
  | cons v items ih =>
      cases items with
      | nil => simp [spellItems]
      | cons w items =>
          rw [spellItems, ih, List.map_cons, List.map_cons, List.map_cons,
            List.intercalate_cons_cons, List.append_assoc]
          · rfl
          · simp

/-- A number is written as a numeral with a sign. -/
theorem exists_numeral {n : Int} (h : Fits n) :
    ∃ negative digits, Token.IsNumeral digits ∧ digits.length ≤ OversizedLiteral.maxDigits
      ∧ integerOf negative digits = n ∧ spellInt n = Token.sign negative ++ digits := by
  have short {k : Nat} (bound : k < 10 ^ 19) :
      (Nat.toDigits 10 k).length ≤ OversizedLiteral.maxDigits :=
    Nat.le_trans ((Nat.length_toDigits_le_iff (by decide) (by decide)).2 bound) (by decide)
  obtain ⟨low, high⟩ := h
  simp only [minInteger, maxInteger] at low high
  cases n with
  | ofNat k =>
      have : (k : Int) ≤ 9223372036854775807 := high
      refine ⟨false, _, Token.isNumeral_toDigits k, short (by omega), ?_, rfl⟩
      simp [integerOf, Nat.ofDigitChars_ten_toDigits]
  | negSucc k =>
      refine ⟨true, _, Token.isNumeral_toDigits (k + 1), short (by omega), ?_, rfl⟩
      simp only [integerOf, Nat.ofDigitChars_ten_toDigits]
      rfl

end Value

namespace Fragment

theorem exists_series {α : Type} {Each : α → List Lexeme → Prop} {text : α → List Char}
    (line : Nat) {as : List α} (h : ∀ a ∈ as, ∀ p : Position, p.line = line →
      ∃ ls, Each a ls ∧ Printed p ls (text a)) (p : Position) (here : p.line = line) :
    ∃ ls, Series Each as ls ∧ Printed p ls ([',', ' '].intercalate (as.map text)) := by
  induction as generalizing p with
  | nil => exact ⟨[], .nil, .nil⟩
  | cons a as ih =>
      obtain ⟨ls, each, printed⟩ := h a List.mem_cons_self p here
      cases as with
      | nil => exact ⟨ls, .last each, by simpa using printed⟩
      | cons b as =>
          have there : ((p.after (text a)).after [',', ' ']).line = line := by
            rw [Position.line_after_of_no_lineFeed (by decide),
              Position.line_after_of_no_lineFeed printed.no_lineFeed, here]
          obtain ⟨others, series, rest⟩ := ih (fun a' ha' => h a' (List.mem_cons_of_mem _ ha'))
            ((p.after (text a)).after [',', ' ']) there
          refine ⟨ls ++ ⟨.comma, p.after (text a)⟩ :: others, .cons each series, ?_⟩
          rw [List.map_cons, List.map_cons, List.intercalate_cons_cons, List.append_assoc]
          exact printed.append (.token (t := .comma) trivial trivial trivial (.space rest))

theorem exists_printed_value {v : Value} (h : v.Plain) (p : Position) :
    ∃ ls, ValueTokens v ls ∧ Printed p ls v.spell := by
  induction h generalizing p with
  | default => exact ⟨_, .default, .single (t := .default) trivial trivial trivial p⟩
  | @string text =>
      have body := Value.stringBody_flatMap_escape text.toList
      refine ⟨_, ?_, .single (t := .string _) body trivial trivial p⟩
      have tokens := @ValueTokens.string (text.toList.flatMap Value.escape) p
      rwa [Value.unescape_flatMap_escape, String.ofList_toList] at tokens
  | integer fits =>
      obtain ⟨negative, digits, numeral, short, rfl, spelled⟩ := Value.exists_numeral fits
      refine ⟨[⟨.integer negative digits, p⟩], .integer, ?_⟩
      rw [Value.spell, spelled]
      exact .single (t := .integer negative digits) numeral trivial short p
  | percentage fits =>
      obtain ⟨negative, digits, numeral, short, rfl, spelled⟩ := Value.exists_numeral fits
      refine ⟨[⟨.percentage negative digits, p⟩], .percentage, ?_⟩
      rw [Value.spell, spelled]
      exact .single (t := .percentage negative digits) numeral trivial short p
  | @tuple items _ ih =>
      obtain ⟨ls, series, printed⟩ := exists_series _ (fun v hv q _ => ih v hv q)
        (p.after ['(']) rfl
      rw [Value.spell, Value.spellItems_eq_intercalate]
      have closed := printed.append (.single (t := .closeParen) trivial trivial trivial _)
      exact ⟨_, .tuple series, .token (t := .openParen) trivial trivial trivial closed⟩

end Fragment

/-- A value without floats is read back from its text as it was. -/
theorem Value.parse_text {v : Value} (h : v.Plain) (line indent : Int) :
    Value.parse v.text line indent = .ok v := by
  obtain ⟨ls, tokens, printed⟩ := exists_printed_value h {}
  refine parse_eq_ok_iff.2 ⟨?_, h.inRange⟩
  rw [text, String.toList_ofList]
  exact ⟨ls, printed.spread, tokens, printed.convertible⟩

theorem Value.parse_text_nested :
    Value.parse "((), (\"\\\"\\\\n\\n\\\\\"), -9223372036854775808, 7%, default)" 1 0
      = .ok (.tuple [.tuple [], .tuple [.string "\"\\n\n\\"], .integer (-9223372036854775808),
          .percentage 7, .default]) := by
  let v : Value := .tuple [.tuple [], .tuple [.string "\"\\n\n\\"],
    .integer (-9223372036854775808), .percentage 7, .default]
  have plain : v.Plain := by
    refine .tuple ?_
    simp only [List.forall_mem_cons]
    exact ⟨.tuple (by simp), .tuple (List.forall_mem_singleton.2 .string),
      .integer ⟨by decide, by decide⟩, .percentage ⟨by decide, by decide⟩, .default, by simp⟩
  have written : v.text = "((), (\"\\\"\\\\n\\n\\\\\"), -9223372036854775808, 7%, default)" := by
    cbv
  rw [← written]
  exact parse_text plain 1 0

/-! Attributes and declarations. -/

theorem Quiet.spaced {cs : List Char} (h : Quiet cs) : Quiet (' ' :: (cs ++ [' '])) := by
  obtain ⟨lineFeed, openBrace, closeBrace, quote, slashes⟩ := h
  refine ⟨by simp [lineFeed], by simp [openBrace], by simp [closeBrace], by simp [quote], ?_⟩
  rw [List.infix_cons_iff, List.infix_concat_iff]
  rintro (first | last | inside)
  · exact absurd (List.cons_prefix_cons.1 first).1 (by decide)
  · obtain ⟨before, same⟩ := last
    have ends := congrArg List.getLast? same
    simp at ends
  · exact slashes inside

namespace Attribute

/-- An attribute that is written without loss. -/
structure Printable (a : Attribute) : Prop where
  key : Token.IsName a.key.toList
  value : a.value.Plain
  condition : ∀ condition ∈ a.condition,
    Text.strip condition.toList = condition.toList ∧ Quiet condition.toList

def spellGate : Option String → List Char
  | none => []
  | some condition => '?' :: '{' :: ' ' :: (condition.toList ++ [' ', '}'])

def spell (a : Attribute) : List Char :=
  a.key.toList ++ (spellGate a.condition ++ ':' :: ' ' :: a.value.spell)

end Attribute

theorem Fragment.exists_printed_setting {v : Value} (h : v.Plain) (p : Position) :
    ∃ ls, ValueTokens v ls ∧ Printed p (⟨.colon, p⟩ :: ls) (':' :: ' ' :: v.spell) := by
  obtain ⟨ls, tokens, printed⟩ := exists_printed_value h ((p.after [':']).next ' ')
  exact ⟨ls, tokens, .token (t := .colon) trivial trivial trivial (.space printed)⟩

theorem Fragment.exists_printed_attribute {a : Attribute} (h : a.Printable) (p : Position) :
    ∃ ls, AttributeTokens { a with line := p.line } ls ∧ Printed p ls a.spell := by
  obtain ⟨key, v, condition, line⟩ := a
  obtain ⟨isName, plain, conditional⟩ := h
  cases condition with
  | none =>
      obtain ⟨ls, value, printed⟩ := exists_printed_setting plain (p.after key.toList)
      have tokens := @AttributeTokens.plain key.toList v ls p (p.after key.toList) value
      rw [String.ofList_toList] at tokens
      exact ⟨_, tokens, Printed.name isName printed⟩
  | some condition =>
      obtain ⟨trimmed, quiet⟩ := conditional condition rfl
      let gate : Token := .condition (' ' :: (condition.toList ++ [' ']))
      obtain ⟨ls, value, printed⟩ := exists_printed_setting plain
        ((p.after key.toList).after gate.spell)
      have tokens := @AttributeTokens.gated key.toList (' ' :: (condition.toList ++ [' '])) v ls
        p (p.after key.toList) ((p.after key.toList).after gate.spell) value
      rw [Text.strip_cons_blank rfl, Text.strip_concat_blank rfl, trimmed, String.ofList_toList,
        String.ofList_toList] at tokens
      have gated := Printed.token (t := gate) quiet.spaced.closeBrace quiet.spaced trivial printed
      have spelled : Attribute.spell ⟨key, v, some condition, line⟩
          = key.toList ++ (gate.spell ++ ':' :: ' ' :: v.spell) := by
        simp [gate, Token.spell, Attribute.spell, Attribute.spellGate]
      rw [spelled]
      exact ⟨_, tokens, Printed.name isName gated⟩

namespace Declaration

def spellBlock (attributes : List Attribute) : List Char :=
  if attributes.isEmpty then []
  else ' ' :: '{' :: ' ' :: ([',', ' '].intercalate (attributes.map (·.spell)) ++ [' ', '}'])

def spell (d : Declaration) : List Char := d.className.toList ++ spellBlock d.attributes

/-- A declaration all attributes of which stand on one line. -/
def onLine (line : Int) (d : Declaration) : Declaration :=
  { d with attributes := d.attributes.map fun a => { a with line } }

theorem onLine_onLine (line line' : Int) (d : Declaration) :
    (d.onLine line').onLine line = d.onLine line := by
  simp [onLine]

theorem movedTo_onLine (line : Int) (d : Declaration) :
    (d.onLine 1).movedTo line = d.onLine line := by
  simp [onLine, movedTo]

/-- A declaration that is written without loss. -/
structure Printable (d : Declaration) : Prop where
  className : Token.IsName d.className.toList
  attributes : ∀ a ∈ d.attributes, a.Printable
  keys : (Attribute.plainKeys d.attributes).Nodup

theorem exists_printed {d : Declaration} (h : d.Printable) :
    ∃ ls, DeclarationTokens false (d.onLine 1) ls ∧ Printed {} ls d.spell := by
  obtain ⟨className, attributes⟩ := d
  obtain ⟨isName, printable, _⟩ := h
  cases attributes with
  | nil =>
      have tokens := @DeclarationTokens.name false className.toList {} rfl
      rw [String.ofList_toList] at tokens
      exact ⟨_, tokens, Printed.name isName .nil⟩
  | cons a attributes =>
      have header := Printed.name (p := {}) isName
        (.space (.token (t := .openBrace) trivial trivial trivial (.space .nil)))
      obtain ⟨ls, series, printed⟩ := exists_series 1
        (fun b hb p here => here ▸ exists_printed_attribute (printable b hb) p) _
        (Position.line_after_of_no_lineFeed header.no_lineFeed {})
      have closed := printed.append (.space (.single (t := .closeBrace) trivial trivial trivial _))
      have whole := header.append closed
      have tokens (q o : Position) :=
        @DeclarationTokens.block false className.toList _ ls {} q o series.map
      rw [String.ofList_toList] at tokens
      have spelled : spell ⟨className, a :: attributes⟩ = className.toList ++ [' ', '{', ' ']
          ++ ([',', ' '].intercalate ((a :: attributes).map (·.spell)) ++ [' ', '}']) := by
        simp [spell, spellBlock]
      rw [spelled]
      exact ⟨_, tokens _ _, whole⟩

theorem parse_spell {d : Declaration} (h : d.Printable) (line indent : Int) :
    Declaration.parse false (String.ofList d.spell) line indent = .ok (d.onLine line) := by
  obtain ⟨ls, tokens, printed⟩ := exists_printed h
  refine parse_eq_ok_iff.2 ⟨d.onLine 1, ?_, ?_, (movedTo_onLine line d).symm⟩
  · rw [String.toList_ofList]
    exact ⟨ls, printed.spread, tokens, printed.convertible⟩
  · intro a ha
    obtain ⟨b, hb, rfl⟩ := List.mem_map.1 ha
    exact (h.attributes b hb).value.inRange

end Declaration

end MarkupCascade
