import Mathlib
import MarkupCascade.Proofs.LiteralPlace
import MarkupCascade.Proofs.Refusal
import MarkupCascade.Proofs.ViablePrefix

/-!
The limit of 64 bits on the numbers of a fragment. A text which fits the grammar is read exactly if
every integer and every percentage in it keeps to the limit, and otherwise it is refused for the
first that does not, wherever in a tuple or a block it stands. A text that leaves the grammar is
refused for that, whatever numbers stand in it.
-/

namespace MarkupCascade

open Outcome

/-- No number beyond 64 bits. -/
def Token.KeepsLimit (t : Token) : Prop :=
  ∀ negative digits, t.IsNumber negative digits →
    -2 ^ 63 ≤ Fragment.integerOf negative digits ∧ Fragment.integerOf negative digits ≤ 2 ^ 63 - 1

theorem Token.IsNumber.keepsLimit_iff {negative : Bool} {digits : List Char} {t : Token}
    (h : t.IsNumber negative digits) :
    t.KeepsLimit ↔ Fragment.Fits (Fragment.integerOf negative digits) := by
  have limit : Fragment.Fits (Fragment.integerOf negative digits)
      ↔ -2 ^ 63 ≤ Fragment.integerOf negative digits
        ∧ Fragment.integerOf negative digits ≤ 2 ^ 63 - 1 := by
    norm_num [Fragment.Fits, Fragment.minInteger, Fragment.maxInteger]
  rw [limit]
  refine ⟨fun keeps => keeps negative digits h, fun fits _ _ again => ?_⟩
  cases h <;> cases again <;> exact fits

theorem Token.Oversized.not_convertible {t : Token} {o : OversizedLiteral} (h : t.Oversized o) :
    ¬t.Convertible := by
  cases h <;> exact Nat.not_le.2 ‹_›

namespace Fragment

/-- Of the numbers that can be converted those that keep to the limit are without fault. -/
theorem fault?_eq_none_iff_keepsLimit {l : Lexeme} (convertible : l.token.Convertible) :
    l.fault? = none ↔ l.token.KeepsLimit := by
  obtain ⟨t, start⟩ := l
  cases t with
  | integer negative digits =>
      rw [Token.IsNumber.integer.keepsLimit_iff]
      exact (numberFault?_eq_none_iff _ _ _ _).trans (and_iff_right convertible)
  | percentage negative digits =>
      rw [Token.IsNumber.percentage.keepsLimit_iff]
      exact (numberFault?_eq_none_iff _ _ _ _).trans (and_iff_right convertible)
  | _ =>
      refine iff_of_true rfl ?_
      rintro _ _ ⟨⟩

theorem FaultlessIff.keepsLimit_iff {ls : List Lexeme} {holds : Prop} (h : FaultlessIff ls holds)
    (convertible : ∀ l ∈ ls, l.token.Convertible) :
    (∀ l ∈ ls, l.token.KeepsLimit) ↔ holds := by
  have faultless : (∀ l ∈ ls, l.fault? = none) ↔ ∀ l ∈ ls, l.token.KeepsLimit :=
    forall₂_congr fun l inside => fault?_eq_none_iff_keepsLimit (convertible l inside)
  exact faultless.symm.trans (h.trans (and_iff_right convertible))

/-- What comes of a text that is made of tokens which are read as a result. It is that result if
all numbers keep to the limit. Otherwise it is an error for the first that does not, on the line of
the document where that stands. -/
inductive Limited {α : Type} (ls : List Lexeme) (cs : List Char) (line : Int) (result : α) :
    Except ReadError α → Prop
  | returned : (∀ l ∈ ls, l.token.KeepsLimit) → Limited ls cs line result (.ok result)
  | refused {before after : List Lexeme} {l : Lexeme} {negative : Bool}
      {digits front rest : List Char} :
      ls = before ++ l :: after → (∀ m ∈ before, m.token.KeepsLimit) → ¬l.token.KeepsLimit →
      l.token.IsNumber negative digits → cs = front ++ (l.token.spell ++ rest) →
      Spread {} before front →
      Limited ls cs line result (.error (.parse
        ⟨.outOfRange (String.ofList (Token.sign negative ++ digits)),
          some (line + front.count '\n'), some l.start.column⟩))

theorem Limited.exists_ok_iff {α : Type} {ls : List Lexeme} {cs : List Char} {line : Int}
    {result : α} {outcome : Except ReadError α} (h : Limited ls cs line result outcome) :
    (∃ a, outcome = .ok a) ↔ ∀ l ∈ ls, l.token.KeepsLimit := by
  cases h with
  | returned keeps => exact iff_of_true ⟨_, rfl⟩ keeps
  | refused whole _ large =>
      refine iff_of_false (by rintro ⟨_, ⟨⟩⟩) fun keeps => large (keeps _ ?_)
      rw [whole]
      exact List.mem_append_right _ List.mem_cons_self

theorem Limited.bind {α β : Type} {ls : List Lexeme} {cs : List Char} {line : Int} {result : α}
    {x : Except ReadError α} (h : Limited ls cs line result x) (g : α → β) :
    Limited ls cs line (g result) (x >>= fun a => pure (g a)) := by
  cases h with
  | returned keeps => exact .returned keeps
  | refused whole others large number stands inFront =>
      exact .refused whole others large number stands inFront

variable {f : Form} {s : Stage f} {cs : List Char}

theorem limited_parse {ls : List Lexeme} {r : f.Result} (spread : Spread {} ls cs)
    (ran : run s ls = some r) (convertible : ∀ l ∈ ls, l.token.Convertible) (line indent : Int) :
    Limited ls cs line r ((parse s cs).mapError (·.toReadError line indent)) := by
  have result : parse s cs = (⟨ls, .ok r⟩ : Reading f).result :=
    congrArg Reading.result (read_of_spread spread ran)
  rw [result, Reading.result]
  cases found : ls.findSome? Lexeme.fault? with
  | none =>
      have keeps := List.findSome?_eq_none_iff.1 found
      exact .returned fun l inside =>
        (fault?_eq_none_iff_keepsLimit (convertible l inside)).1 (keeps l inside)
  | some fault =>
      obtain ⟨before, l, after, rfl, faulty, others⟩ := List.findSome?_eq_some_iff.1 found
      have inside : l ∈ before ++ l :: after := List.mem_append_right _ List.mem_cons_self
      have large : ¬l.token.KeepsLimit := by
        rw [← fault?_eq_none_iff_keepsLimit (convertible l inside), faulty]
        exact Option.some_ne_none fault
      have within : ∀ m ∈ before, m.token.KeepsLimit := fun m earlier =>
        (fault?_eq_none_iff_keepsLimit
          (convertible m (List.mem_append_left _ earlier))).1 (others m earlier)
      obtain ⟨_, front, rest, whole, place, inFront⟩ := spread.exists_of_append
      obtain ⟨o, rfl⟩ | ⟨literal, rfl⟩ := cases_of_fault? faulty
      · exact absurd (convertible l inside) (oversized_of_fault? faulty).not_convertible
      · obtain ⟨_, negative, digits, number, rfl, _⟩ := number_of_fault? faulty
        have below : l.start.line = 1 + front.count '\n' := by
          rw [place]
          exact Position.line_after {} front
        have onLine : line + l.start.line - 1 = line + front.count '\n' := by omega
        have refused : Limited (before ++ l :: after) cs line r _ :=
          .refused rfl within large number whole inFront
        rwa [← onLine] at refused

/-- Whatever numbers stand in it, a text that is not accepted is refused for that. -/
theorem exists_unexpected_of_not_accepts (h : ¬Accepts s {} cs) (line indent : Int) :
    ∃ e, (parse s cs).mapError (·.toReadError line indent) = .error (.parse e)
      ∧ e.cause.IsUnexpected := by
  cases outcome : (read s cs {} {}).outcome with
  | ok r => exact absurd ((accepts_iff_read {}).2 ⟨r, outcome⟩) h
  | error fault =>
      have failed : parse s cs = .error fault := by rw [parse, Reading.result, outcome]
      rw [failed]
      cases earliest_of_read outcome <;> exact ⟨_, rfl, trivial⟩

end Fragment

open Fragment

/-- Of a text that fits the grammar every integer and every percentage is checked against the limit
of 64 bits, in any tuple and in any attribute, and the first that does not keep to it is reported.
Of a text that does not fit the grammar that is reported. -/
theorem Fragment.parse_limited (text : String) (line indent : Int) :
    (∀ v ls, Spread {} ls text.toList → ValueTokens v ls → (∀ l ∈ ls, l.token.Convertible) →
      ((∃ w, Value.parse text line indent = .ok w) ↔ ∀ l ∈ ls, l.token.KeepsLimit)
        ∧ ((∀ l ∈ ls, l.token.KeepsLimit) ↔ v.InRange)
        ∧ Limited ls text.toList line v (Value.parse text line indent))
    ∧ (∀ required d ls, Spread {} ls text.toList → DeclarationTokens required d ls →
      (∀ l ∈ ls, l.token.Convertible) →
      ((∃ e, Declaration.parse required text line indent = .ok e)
          ↔ ∀ l ∈ ls, l.token.KeepsLimit)
        ∧ ((∀ l ∈ ls, l.token.KeepsLimit) ↔ d.InRange)
        ∧ Limited ls text.toList line (d.movedTo line)
          (Declaration.parse required text line indent))
    ∧ (¬Value.Grammatical text.toList →
      ∃ e, Value.parse text line indent = .error (.parse e) ∧ e.cause.IsUnexpected)
    ∧ ∀ required, ¬Declaration.Grammatical required text.toList →
      ∃ e, Declaration.parse required text line indent = .error (.parse e)
        ∧ e.cause.IsUnexpected := by
  refine ⟨?_, ?_, ?_, ?_⟩
  · intro v ls spread tokens convertible
    have limited : Limited ls text.toList line v (Value.parse text line indent) :=
      limited_parse spread (run_value_eq_some_iff.2 tokens) convertible line indent
    exact ⟨limited.exists_ok_iff, (faultlessIff_value tokens).keepsLimit_iff convertible, limited⟩
  · intro required d ls spread tokens convertible
    have parsed := limited_parse spread (run_start_eq_some_iff.2 tokens) convertible line indent
    have limited : Limited ls text.toList line (d.movedTo line)
        (Declaration.parse required text line indent) := parsed.bind (Declaration.movedTo line)
    exact ⟨limited.exists_ok_iff, (faultlessIff_declaration tokens).keepsLimit_iff convertible,
      limited⟩
  · rw [Value.grammatical_eq_accepts]
    exact fun ungrammatical => exists_unexpected_of_not_accepts ungrammatical line indent
  · intro required
    rw [Declaration.grammatical_eq_accepts]
    intro ungrammatical
    obtain ⟨e, failed, unexpected⟩ := exists_unexpected_of_not_accepts ungrammatical line indent
    refine ⟨e, ?_, unexpected⟩
    rw [Declaration.parse, failed]
    rfl

/-- Two numbers beyond the limit, of which the first is reported, and one in a text that is cut
off. -/
theorem Fragment.parse_limited_nested :
    let text := "((9223372036854775808%),\n -9223372036854775809)"
    let cut := "((9223372036854775808%)"
    ((¬∃ v, Value.parse text 5 4 = .ok v) ∧ Value.parse text 5 4
        = .error (.parse ⟨.outOfRange "9223372036854775808", some 5, some 3⟩))
      ∧ ∃ e, Value.parse cut 5 4 = .error (.parse e) ∧ e.cause.IsUnexpected := by
  intro text cut
  let ls : List Lexeme := [⟨.openParen, ⟨1, 1⟩⟩, ⟨.openParen, ⟨1, 2⟩⟩,
    ⟨.percentage false "9223372036854775808".toList, ⟨1, 3⟩⟩, ⟨.closeParen, ⟨1, 23⟩⟩,
    ⟨.comma, ⟨1, 24⟩⟩, ⟨.integer true "9223372036854775809".toList, ⟨2, 2⟩⟩,
    ⟨.closeParen, ⟨2, 22⟩⟩]
  have read : read (.value .whole []) text.toList {} {} = ⟨ls, .ok (.tuple
      [.tuple [.percentage 9223372036854775808], .integer (-9223372036854775809)])⟩ := by cbv
  obtain ⟨spread, ran⟩ := (read_eq_ok_iff {}).1 read
  have convertible : ∀ l ∈ ls, l.token.Convertible := by
    simp [ls, Token.Convertible, OversizedLiteral.maxDigits]
  obtain ⟨returns, _, _⟩ := (parse_limited text 5 4).1 _ ls spread
    (run_value_eq_some_iff.1 ran) convertible
  have stopped : (Fragment.read (.value .whole []) cut.toList {} {}).outcome
      = .error (.unexpectedEnd ⟨1, 23⟩) := by cbv
  refine ⟨⟨?_, by cbv⟩, (parse_limited cut 5 4).2.2.1 ?_⟩
  · rw [returns]
    intro keeps
    have large := keeps ⟨.percentage false "9223372036854775808".toList, ⟨1, 3⟩⟩ (by simp [ls])
      false _ .percentage
    revert large
    decide
  · rw [Value.grammatical_eq_accepts]
    exact not_accepts_of_error stopped

end MarkupCascade
