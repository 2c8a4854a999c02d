import MarkupCascade.Proofs.Brace

/-!
Fragments printed on one line, with single spaces for gaps. Such a text spreads its tokens, and its
braces are counted as theirs.
-/

namespace MarkupCascade

/-- Text inside braces that holds neither braces and quotes nor what looks like a comment. -/
structure Quiet (cs : List Char) : Prop where
  lineFeed : '\n' ∉ cs
  openBrace : '{' ∉ cs
  closeBrace : '}' ∉ cs
  quote : '"' ∉ cs
  slashes : ¬['/', '/'] <:+: cs

namespace Token

/-- Tokens that may stand on one line, with braces that count for what they are. -/
def Inline : Token → Prop
  | .condition body => Quiet body
  | _ => True

theorem Inline.counted {t : Token} (h : t.Inline) : t.Counted := by
  cases t with
  | condition body => exact .of_absent h.openBrace h.closeBrace h.quote h.slashes
  | _ => trivial

theorem Inline.no_lineFeed {t : Token} (h : t.Inline) :
    ∀ body, t = .condition body → '\n' ∉ body := by
  rintro body rfl
  exact h.lineFeed

end Token

theorem Position.line_after_of_no_lineFeed {cs : List Char} (h : '\n' ∉ cs) (p : Position) :
    (p.after cs).line = p.line := by
  rw [line_after, List.count_eq_zero.2 h, Nat.add_zero]

namespace Fragment

/-- A text on one line, made of tokens that can be converted and of spaces. -/
inductive Printed : Position → List Lexeme → List Char → Prop
  | nil {p : Position} : Printed p [] []
  | space {p : Position} {ls : List Lexeme} {cs : List Char} :
      Printed (p.next ' ') ls cs → Printed p ls (' ' :: cs)
  | token {p : Position} {t : Token} {ls : List Lexeme} {cs : List Char} :
      t.WellFormed → t.Inline → t.Convertible → Printed (p.after t.spell) ls cs →
      Printed p (⟨t, p⟩ :: ls) (t.spell ++ cs)

namespace Printed

variable {p : Position} {ls : List Lexeme} {cs : List Char}

theorem single {t : Token} (form : t.WellFormed) (inline : t.Inline)
    (convertible : t.Convertible) (p : Position) : Printed p [⟨t, p⟩] t.spell := by
  have printed := token form inline convertible (nil (p := p.after t.spell))
  rwa [List.append_nil] at printed

theorem name {text : List Char} (isName : Token.IsName text) (h : Printed (p.after text) ls cs) :
    Printed p (⟨.name text, p⟩ :: ls) (text ++ cs) :=
  token (t := .name text) isName trivial trivial h

theorem append {ls' : List Lexeme} {cs' : List Char} (h : Printed p ls cs)
    (h' : Printed (p.after cs) ls' cs') : Printed p (ls ++ ls') (cs ++ cs') := by
  induction h with
  | nil => exact h'
  | space _ ih => exact space (ih h')
  | token form inline convertible _ ih =>
      rw [List.append_assoc, List.cons_append]
      rw [Position.after_append] at h'
      exact token form inline convertible (ih h')

theorem convertible (h : Printed p ls cs) : ∀ l ∈ ls, l.token.Convertible := by
  induction h with
  | nil => simp
  | space _ ih => exact ih
  | token _ _ convertible _ ih => exact List.forall_mem_cons.2 ⟨convertible, ih⟩

theorem counted (h : Printed p ls cs) : ∀ l ∈ ls, l.token.Counted := by
  induction h with
  | nil => simp
  | space _ ih => exact ih
  | token _ inline _ _ ih => exact List.forall_mem_cons.2 ⟨inline.counted, ih⟩

theorem no_lineFeed (h : Printed p ls cs) : '\n' ∉ cs := by
  induction h with
  | nil => simp
  | space _ ih => simp [ih]
  | token form inline _ _ ih => simp [Token.no_lineFeed_spell form inline.no_lineFeed, ih]

end Printed

theorem Spread.space {p : Position} {ls : List Lexeme} {cs : List Char}
    (h : Spread (p.next ' ') ls cs) : Spread p ls (' ' :: cs) := by
  cases h with
  | nil gap => exact .nil (.space rfl gap)
  | cons gap form spread => exact .cons (.space rfl gap) form spread

theorem Printed.spread {p : Position} {ls : List Lexeme} {cs : List Char}
    (h : Printed p ls cs) : Spread p ls cs := by
  induction h with
  | nil => exact .nil .nil
  | space _ ih => exact ih.space
  | token form _ _ _ ih => exact .cons .nil form ih

/-- The braces of a printed text are counted as those of its tokens. -/
theorem Printed.braceBalance_eq {p : Position} {ls : List Lexeme} {cs : List Char}
    (h : Printed p ls cs) : LogicalLine.braceBalance .code cs = balance ls :=
  h.spread.braceBalance_eq h.no_lineFeed h.counted

end Fragment

end MarkupCascade
