import MarkupCascade.LogicalLine
import MarkupCascade.Proofs.Layout

/-!
The braces of a text as they are counted without reading it. Where no condition holds anything that
the count takes for more than text, the count is that of the tokens, and the tokens of a
declaration balance.
-/

namespace MarkupCascade

/-- Text that makes no difference to a count of braces: no brace stands in it and nothing that looks
like a comment, except between two quotes as in a string. -/
inductive Neutral : List Char → Prop
  | nil : Neutral []
  | plain {c : Char} {body : List Char} :
      c ≠ '"' → c ≠ '{' → c ≠ '}' → (c = '/' → body.head? ≠ some '/') → Neutral body →
      Neutral (c :: body)
  | quoted {text body : List Char} :
      Token.StringBody text → Neutral body → Neutral ('"' :: (text ++ '"' :: body))

theorem Neutral.of_absent {cs : List Char} (openBrace : '{' ∉ cs) (closeBrace : '}' ∉ cs)
    (quote : '"' ∉ cs) (slashes : ¬['/', '/'] <:+: cs) : Neutral cs := by
  induction cs with
  | nil => exact .nil
  | cons c cs ih =>
      simp only [List.mem_cons, not_or] at openBrace closeBrace quote
      rw [List.infix_cons_iff, not_or] at slashes
      refine .plain (Ne.symm quote.1) (Ne.symm openBrace.1) (Ne.symm closeBrace.1) ?_
        (ih openBrace.2 closeBrace.2 quote.2 slashes.2)
      rintro rfl second
      obtain ⟨cs, rfl⟩ := List.head?_eq_some_iff.1 second
      exact slashes.1 ⟨cs, rfl⟩

namespace Token

/-- Tokens whose braces count for what they are. -/
def Counted : Token → Prop
  | .condition body => Neutral body
  | _ => True

/-- What a token adds to the braces that are open. -/
def weight : Token → Int
  | .openBrace => 1
  | .closeBrace => -1
  | _ => 0

end Token

namespace LogicalLine

/-- A character that tells nothing about braces. -/
abbrev IsPlain (c : Char) : Prop := c ≠ '"' ∧ c ≠ '{' ∧ c ≠ '}' ∧ c ≠ '/'

theorem isPlain_of_isNameChar {c : Char} (h : Token.isNameChar c = true) : IsPlain c := by
  refine ⟨?_, ?_, ?_, ?_⟩ <;> rintro rfl <;> exact absurd h (by decide)

theorem isPlain_of_isSpace {c : Char} (h : Token.isSpace c = true) : IsPlain c := by
  refine ⟨?_, ?_, ?_, ?_⟩ <;> rintro rfl <;> exact absurd h (by decide)

theorem isPlain_of_isNumeral {digits : List Char} (h : Token.IsNumeral digits) :
    ∀ c ∈ digits, IsPlain c :=
  fun c hc => isPlain_of_isNameChar (by simp [Token.isNameChar, h.2 c hc])

theorem isPlain_sign (negative : Bool) : ∀ c ∈ Token.sign negative, IsPlain c := by
  cases negative <;> simp [Token.sign, IsPlain]

theorem braceBalance_cons {c : Char} {cs : List Char} (quote : c ≠ '"') (openBrace : c ≠ '{')
    (closeBrace : c ≠ '}') (slashes : c = '/' → cs.head? ≠ some '/') :
    braceBalance .code (c :: cs) = braceBalance .code cs := by
  have noComment : (c == '/' && cs.head? == some '/') = false := by simpa using slashes
  simp [braceBalance, *]

theorem braceBalance_plain {as : List Char} (h : ∀ c ∈ as, IsPlain c) (cs : List Char) :
    braceBalance .code (as ++ cs) = braceBalance .code cs := by
  induction as with
  | nil => rfl
  | cons c as ih =>
      obtain ⟨⟨quote, openBrace, closeBrace, slash⟩, others⟩ := List.forall_mem_cons.1 h
      rw [List.cons_append, braceBalance_cons quote openBrace closeBrace fun same =>
        absurd same slash]
      exact ih others

theorem braceBalance_string {body : List Char} (h : Token.StringBody body) (cs : List Char) :
    braceBalance .string (body ++ '"' :: cs) = braceBalance .code cs := by
  induction h with
  | nil => rfl
  | plain quote backslash _ _ ih => simp [braceBalance, quote, backslash, ih]
  | escape _ _ ih => simp [braceBalance, ih]

theorem braceBalance_neutral {body cs : List Char} (h : Neutral body)
    (next : cs.head? ≠ some '/') : braceBalance .code (body ++ cs) = braceBalance .code cs := by
  induction h with
  | nil => rfl
  | @plain c body quote openBrace closeBrace slashes _ ih =>
      rw [List.cons_append, braceBalance_cons quote openBrace closeBrace, ih]
      intro slash
      cases body with
      | nil => exact next
      | cons d body => exact slashes slash
  | quoted text _ ih =>
      rw [List.cons_append, List.append_assoc]
      exact (braceBalance_string text _).trans ih

/-- On one line a gap makes no difference to the count. -/
theorem braceBalance_gap {atEnd : Bool} {g cs : List Char} (h : Token.Gap atEnd g)
    (line : '\n' ∉ g) (ends : atEnd = true → cs = []) :
    braceBalance .code (g ++ cs) = braceBalance .code cs := by
  induction h with
  | nil => rfl
  | @space _ c g space _ ih =>
      obtain ⟨quote, openBrace, closeBrace, slash⟩ := isPlain_of_isSpace space
      rw [List.cons_append, braceBalance_cons quote openBrace closeBrace fun same =>
        absurd same slash]
      exact ih (fun inside => line (List.mem_cons_of_mem c inside)) ends
  | comment _ _ => simp at line
  | lastComment _ =>
      rw [ends rfl]
      rfl

theorem braceBalance_spell {t : Token} (form : t.WellFormed) (counted : t.Counted)
    (cs : List Char) :
    braceBalance .code (t.spell ++ cs) = t.weight + braceBalance .code cs := by
  cases t with
  | openBrace => exact Int.add_comm _ _
  | closeBrace => exact (Int.sub_eq_add_neg).trans (Int.add_comm _ _)
  | condition body =>
      have question : ∀ c ∈ ['?'], IsPlain c := by simp [IsPlain]
      rw [Token.spell, List.cons_append, List.cons_append, List.append_assoc,
        List.singleton_append]
      refine (braceBalance_plain question _).trans ?_
      have inside : braceBalance .code (body ++ '}' :: cs) = braceBalance .code ('}' :: cs) :=
        braceBalance_neutral counted (by simp)
      simp [braceBalance, Token.weight, inside]
  | string body =>
      rw [Token.spell, List.cons_append, List.append_assoc, List.singleton_append]
      simp [braceBalance, Token.weight, braceBalance_string form]
  | name text =>
      have isName : Token.IsName text := form
      refine (braceBalance_plain (fun c hc => ?_) cs).trans (Int.zero_add _).symm
      exact isPlain_of_isNameChar (Token.isNameChar_of_isName isName c hc)
  | float negative whole fraction =>
      refine (braceBalance_plain ?_ cs).trans (Int.zero_add _).symm
      simp only [Token.spell, List.forall_mem_append, List.forall_mem_cons]
      exact ⟨⟨isPlain_sign negative, isPlain_of_isNumeral form.1⟩, by decide,
        isPlain_of_isNumeral form.2⟩
  | percentage negative digits =>
      refine (braceBalance_plain ?_ cs).trans (Int.zero_add _).symm
      simp only [Token.spell, List.forall_mem_append]
      exact ⟨⟨isPlain_sign negative, isPlain_of_isNumeral form⟩, by simp [IsPlain]⟩
  | integer negative digits =>
      refine (braceBalance_plain ?_ cs).trans (Int.zero_add _).symm
      simp only [Token.spell, List.forall_mem_append]
      exact ⟨isPlain_sign negative, isPlain_of_isNumeral form⟩
  | default | openParen | closeParen | comma | colon =>
      exact (braceBalance_plain (by simp [Token.spell, Token.defaultWord, IsPlain]) cs).trans
        (Int.zero_add _).symm

end LogicalLine

namespace Fragment

/-- What some tokens add to the braces that are open. -/
def balance (ls : List Lexeme) : Int := ls.foldr (fun l others => l.token.weight + others) 0

@[simp] theorem balance_nil : balance [] = 0 := rfl

@[simp] theorem balance_cons (l : Lexeme) (ls : List Lexeme) :
    balance (l :: ls) = l.token.weight + balance ls := rfl

@[simp] theorem balance_append (ls ls' : List Lexeme) :
    balance (ls ++ ls') = balance ls + balance ls' := by
  induction ls with
  | nil => simp
  | cons l ls ih => rw [List.cons_append, balance_cons, balance_cons, ih, Int.add_assoc]

/-- The braces of a text on one line are counted as those of its tokens. -/
theorem Spread.braceBalance_eq {p : Position} {ls : List Lexeme} {cs : List Char}
    (h : Spread p ls cs) (line : '\n' ∉ cs) (counted : ∀ l ∈ ls, l.token.Counted) :
    LogicalLine.braceBalance .code cs = balance ls := by
  induction h with
  | @nil _ gap hgap =>
      have quiet : LogicalLine.braceBalance .code (gap ++ []) = 0 :=
        LogicalLine.braceBalance_gap hgap line fun _ => rfl
      rwa [List.append_nil] at quiet
  | cons gap form _ ih =>
      obtain ⟨inGap, inSpell, others⟩ : _ ∧ _ ∧ _ := by
        simpa only [List.mem_append, not_or] using line
      obtain ⟨first, rest⟩ := List.forall_mem_cons.1 counted
      rw [LogicalLine.braceBalance_gap gap inGap nofun,
        LogicalLine.braceBalance_spell form first, ih others rest, balance_cons]

/-- Tokens that neither open a block nor close one. -/
abbrev Weightless (ls : List Lexeme) : Prop := ∀ l ∈ ls, l.token.weight = 0

theorem Weightless.balance_eq {ls : List Lexeme} (h : Weightless ls) : balance ls = 0 := by
  induction ls with
  | nil => rfl
  | cons l ls ih =>
      obtain ⟨first, others⟩ := List.forall_mem_cons.1 h
      rw [balance_cons, first, ih others, Int.zero_add]

theorem weightless_series {α : Type} {as : List α} {ls : List Lexeme}
    (h : Series (fun _ ls => Weightless ls) as ls) : Weightless ls := by
  intro l hl
  obtain comma | ⟨_, _, own, weightless, inside⟩ := h.exists_of_mem hl
  · rw [comma]
    rfl
  · exact weightless l inside

theorem weightless_value {v : Value} {ls : List Lexeme} (h : ValueTokens v ls) :
    Weightless ls := by
  refine ValueTokens.induction (motive := fun _ ls => Weightless ls) ?_ ?_ h
  · intro t v p found
    refine List.forall_mem_singleton.2 ?_
    cases t <;> cases found <;> rfl
  · intro items ls p q series
    exact List.forall_mem_cons.2 ⟨rfl, List.forall_mem_append.2
      ⟨weightless_series series, List.forall_mem_singleton.2 rfl⟩⟩

/-- The tokens inside a block are weightless. -/
theorem weightless_attributes {attributes : List Attribute} {ls : List Lexeme}
    (h : Series AttributeTokens attributes ls) : Weightless ls := by
  refine weightless_series (h.imp fun a ls tokens => ?_)
  cases tokens with
  | plain value => exact List.forall_mem_cons.2 ⟨rfl, List.forall_mem_cons.2
      ⟨rfl, weightless_value value⟩⟩
  | gated value => exact List.forall_mem_cons.2 ⟨rfl, List.forall_mem_cons.2
      ⟨rfl, List.forall_mem_cons.2 ⟨rfl, weightless_value value⟩⟩⟩

/-- A declaration opens no more braces than it closes. -/
theorem balance_declaration {required : Bool} {d : Declaration} {ls : List Lexeme}
    (h : DeclarationTokens required d ls) : balance ls = 0 := by
  cases h with
  | name _ => rfl
  | block series => simp [(weightless_attributes series).balance_eq, Token.weight]

end Fragment

end MarkupCascade
