import MarkupCascade.Proofs.Indentation
import MarkupCascade.Proofs.Sheet

/-!
Documents of one declaration on one line. Where a logical line ends is said by a count of braces
that knows nothing of conditions: it takes a quote in one for the beginning of a string, two
slashes for that of a comment, and an opening brace for that of a block. If its conditions are
neutral the document is read whole. If they are not it may be refused as a block without an end; it
is never read in part.
-/

namespace MarkupCascade

open Fragment LogicalLine

namespace Neutral

variable {blank cs : List Char}

theorem head?_ne_of_isBlank (h : Text.IsBlank blank) : blank.head? ≠ some '/' := by
  intro head
  exact absurd (h _ (List.mem_of_mem_head? head)) (by decide)

theorem blank_append (hblank : Text.IsBlank blank) (h : Neutral cs) : Neutral (blank ++ cs) := by
  induction blank with
  | nil => exact h
  | cons c blank ih =>
      obtain ⟨first, others⟩ := List.forall_mem_cons.1 hblank
      have mark {d : Char} (solid : Text.isBlank d = false) : c ≠ d := by
        rintro rfl
        exact absurd first (by simp [solid])
      exact .plain (mark rfl) (mark rfl) (mark rfl) (fun same => absurd same (mark rfl))
        (ih others)

theorem append_blank (h : Neutral cs) (hblank : Text.IsBlank blank) : Neutral (cs ++ blank) := by
  induction h with
  | nil =>
      have blanks := blank_append hblank .nil
      rwa [List.append_nil] at blanks
  | @plain c body quote openBrace closeBrace slashes _ ih =>
      refine .plain quote openBrace closeBrace (fun slash => ?_) ih
      cases body with
      | nil => exact head?_ne_of_isBlank hblank
      | cons d body => exact slashes slash
  | quoted text _ ih =>
      rw [List.cons_append, List.append_assoc]
      exact .quoted text ih

theorem of_strip {body : List Char} (h : Neutral (Text.strip body)) : Neutral body := by
  obtain ⟨before, after, hbefore, hafter, whole⟩ := Text.exists_eq_strip body
  rw [whole]
  exact blank_append hbefore (append_blank h hafter)

end Neutral

namespace Fragment

theorem ne_condition_of_value {v : Value} {ls : List Lexeme} (h : ValueTokens v ls) :
    ∀ l ∈ ls, ∀ body, l.token ≠ .condition body := by
  refine ValueTokens.induction
    (motive := fun _ ls => ∀ l ∈ ls, ∀ body, l.token ≠ .condition body) ?_ ?_ h
  · intro t v p found
    rw [List.forall_mem_singleton]
    rintro body rfl
    cases found
  · intro items ls p q series
    simp only [List.forall_mem_cons, List.forall_mem_append]
    refine ⟨nofun, ?_, nofun, by simp⟩
    intro l hl
    obtain comma | ⟨_, _, own, each, inside⟩ := series.exists_of_mem hl
    · rw [comma]
      exact nofun
    · exact each l inside

/-- A condition among the tokens of a declaration is that of an attribute. -/
theorem exists_condition {required : Bool} {d : Declaration} {ls : List Lexeme}
    (h : DeclarationTokens required d ls) :
    ∀ l ∈ ls, ∀ body, l.token = .condition body →
      ∃ a ∈ d.attributes, a.condition = some (String.ofList (Text.strip body)) := by
  cases h with
  | name _ => simp
  | block series =>
      simp only [List.forall_mem_cons, List.forall_mem_append]
      refine ⟨nofun, nofun, ?_, nofun, by simp⟩
      intro l hl body gate
      obtain comma | ⟨a, ha, own, each, inside⟩ := series.exists_of_mem hl
      · rw [comma] at gate
        cases gate
      · refine ⟨a, ha, ?_⟩
        cases each with
        | plain value =>
            have none := ne_condition_of_value value
            simp only [List.mem_cons] at inside
            obtain rfl | rfl | inside := inside
            · cases gate
            · cases gate
            · exact absurd gate (none l inside body)
        | gated value =>
            have none := ne_condition_of_value value
            simp only [List.mem_cons] at inside
            obtain rfl | rfl | rfl | inside := inside
            · cases gate
            · cases gate
              rfl
            · cases gate
            · exact absurd gate (none l inside body)

end Fragment

/-- The document is a single logical line. -/
def LogicalLine.IsWhole (text : String) : Prop := split text = ⟨[⟨1, "", text⟩], none⟩

namespace Declaration

variable {required : Bool} {d : Declaration}

/-- The conditions of a declaration make no difference to a count of braces. -/
def HasNeutralConditions (d : Declaration) : Prop :=
  ∀ a ∈ d.attributes, ∀ condition ∈ a.condition, Neutral condition.toList

variable {text : String} {ls : List Lexeme}

theorem isName_of_tokens {here : Position} {cs : List Char} (spread : Spread here ls cs)
    (tokens : DeclarationTokens required d ls) : Token.IsName d.className.toList := by
  cases tokens with
  | name _ | block _ =>
      cases spread with
      | cons _ form _ => rwa [String.toList_ofList]

theorem head_of_tokens (spread : Spread {} ls text.toList)
    (tokens : DeclarationTokens required d ls) (front : d.className.toList <+: text.toList) :
    ∃ c ∈ text.toList.head?, Token.isNameStart c = true := by
  have isName := isName_of_tokens spread tokens
  obtain ⟨rest, same⟩ := front
  cases className : d.className.toList with
  | nil =>
      rw [className] at isName
      exact isName.elim
  | cons c cs =>
      rw [className] at isName same
      exact ⟨c, by rw [← same]; rfl, isName.1⟩

theorem isWhole_of_tokens (spread : Spread {} ls text.toList)
    (tokens : DeclarationTokens required d ls) (line : '\n' ∉ text.toList)
    (front : d.className.toList <+: text.toList) (neutral : d.HasNeutralConditions) :
    IsWhole text := by
  have counted : ∀ l ∈ ls, l.token.Counted := by
    intro l hl
    cases token : l.token with
    | condition body =>
        -- What the declaration holds is the condition without the white space around it.
        obtain ⟨a, ha, condition⟩ := exists_condition tokens l hl body token
        have stripped := neutral a ha _ condition
        rw [String.toList_ofList] at stripped
        exact stripped.of_strip
    | _ => trivial
  have found := split_of_line line (head_of_tokens spread tokens front)
  rwa [spread.braceBalance_eq line counted, balance_declaration tokens] at found

theorem movedTo_one (d : Declaration) : d.movedTo 1 = d := by
  have same : (fun a : Attribute => { a with line := 1 + a.line - 1 }) = id := by
    funext a
    have line : 1 + a.line - 1 = a.line := by omega
    rw [line]
    rfl
  rw [movedTo, same, List.map_id]

theorem declaration_unindented (parsed : parse required text = .ok d)
    (keys : (Attribute.plainKeys d.attributes).Nodup) :
    LogicalLine.declaration required ⟨1, "", text⟩ = .ok d :=
  declaration_eq_ok_iff.2 ⟨parsed, keys⟩

theorem depth_unindented (text : String) : LogicalLine.depth ⟨1, "", text⟩ = .ok 0 :=
  depth_eq_ok_iff.2 ⟨by simp, by simp⟩

theorem component_of_isWhole (whole : IsWhole text)
    (parsed : parse false text = .ok d) (keys : (Attribute.plainKeys d.attributes).Nodup) :
    Component.parse text = .ok (.node d.className 1 d.attributes []) := by
  have reads : Template.Reads ⟨1, "", text⟩ ⟨0, 1, d⟩ :=
    ⟨depth_unindented text, rfl, declaration_unindented parsed keys⟩
  rw [Component.parse_eq_ok_iff, whole]
  exact ⟨rfl, [⟨0, 1, d⟩], .cons reads .nil, ⟨by simp, by simp, .singleton _⟩, rfl⟩

theorem stylesheet_of_isWhole (whole : IsWhole text)
    (parsed : parse true text = .ok d) (keys : (Attribute.plainKeys d.attributes).Nodup)
    (name : String) :
    Stylesheet.parse text name = .ok ⟨[⟨d.className, d.attributes, 1⟩], name⟩ := by
  rw [Stylesheet.parse_eq_ok_iff, whole]
  exact ⟨rfl, rfl, .cons (Stylesheet.rule_eq_ok_iff.2
    ⟨d, declaration_unindented parsed keys, rfl⟩) .nil⟩

end Declaration

open Declaration

theorem Component.parse_of_unclosed {text : String} {number : Nat}
    (found : split text = ⟨[], some number⟩) : Component.parse text = .error (.unclosed number) := by
  rw [Component.parse, found]
  rfl

theorem Stylesheet.parse_of_unclosed {text : String} {number : Nat}
    (found : split text = ⟨[], some number⟩) (name : String) :
    Stylesheet.parse text name = .error (.unclosed number) := by
  rw [Stylesheet.parse, found]
  rfl

/-- A document that is a declaration on one line, and begins with its class name, is a single logical
line if its conditions are neutral. If it is one it is read as the declaration that it is, and if it
is not it is refused as a block without an end. -/
theorem Declaration.parse_document {required : Bool} {text : String} {d : Declaration}
    (parsed : parse required text = .ok d) (line : '\n' ∉ text.toList)
    (front : d.className.toList <+: text.toList) :
    (d.HasNeutralConditions → IsWhole text)
      ∧ (IsWhole text → (Attribute.plainKeys d.attributes).Nodup →
        (required = false →
          Component.parse text = .ok (.node d.className 1 d.attributes []))
        ∧ (required = true → ∀ name,
          Stylesheet.parse text name = .ok ⟨[⟨d.className, d.attributes, 1⟩], name⟩))
      ∧ (¬IsWhole text → Component.parse text = .error (.unclosed 1)
        ∧ ∀ name, Stylesheet.parse text name = .error (.unclosed 1)) := by
  obtain ⟨e, ⟨ls, spread, tokens, _⟩, _, rfl⟩ := Declaration.parse_eq_ok_iff.1 parsed
  rw [movedTo_one] at parsed front ⊢
  have found := split_of_line line (head_of_tokens spread tokens front)
  refine ⟨isWhole_of_tokens spread tokens line front, fun whole keys => ⟨?_, ?_⟩,
    fun parted => ?_⟩
  · rintro rfl
    exact component_of_isWhole whole parsed keys
  · rintro rfl name
    exact stylesheet_of_isWhole whole parsed keys name
  · split at found
    · exact ⟨Component.parse_of_unclosed found, Stylesheet.parse_of_unclosed found⟩
    · exact absurd found parted

/-- A string in a condition, with a brace in it. -/
theorem Declaration.parse_document_quoted :
    parse true "a \x7bk?\x7bx=\"\x7b\"\x7d: 1\x7d"
        = .ok ⟨"a", [⟨"k", .integer 1, some "x=\"\x7b\"", 1⟩]⟩
      ∧ Stylesheet.parse "a \x7bk?\x7bx=\"\x7b\"\x7d: 1\x7d" "s"
        = .ok ⟨[⟨"a", [⟨"k", .integer 1, some "x=\"\x7b\"", 1⟩], 1⟩], "s"⟩ := by
  have parsed : parse true "a \x7bk?\x7bx=\"\x7b\"\x7d: 1\x7d"
      = .ok ⟨"a", [⟨"k", .integer 1, some "x=\"\x7b\"", 1⟩]⟩ := by cbv
  have quoted : Neutral ['"', '\x7b', '"'] :=
    @Neutral.quoted ['\x7b'] [] (.plain (by decide) (by decide) (by decide) .nil) .nil
  have neutral : HasNeutralConditions ⟨"a", [⟨"k", .integer 1, some "x=\"\x7b\"", 1⟩]⟩ := by
    refine List.forall_mem_singleton.2 ?_
    rintro _ ⟨⟩
    exact .plain (by decide) (by decide) (by decide) (by decide) <|
      .plain (by decide) (by decide) (by decide) (by decide) quoted
  obtain ⟨whole, read, _⟩ := parse_document parsed (by decide) ⟨_, rfl⟩
  exact ⟨parsed, (read (whole neutral) (by decide)).2 rfl "s"⟩

/-- Two slashes in a condition hide the braces behind them. -/
theorem Declaration.split_slashes :
    parse false "a \x7b k?\x7bx//y\x7d: 1 \x7d"
        = .ok ⟨"a", [⟨"k", .integer 1, some "x//y", 1⟩]⟩
      ∧ split "a \x7b k?\x7bx//y\x7d: 1 \x7d" = ⟨[], some 1⟩
      ∧ Component.parse "a \x7b k?\x7bx//y\x7d: 1 \x7d" = .error (.unclosed 1) := by
  refine ⟨?_, ?_, ?_⟩ <;> cbv

end MarkupCascade
