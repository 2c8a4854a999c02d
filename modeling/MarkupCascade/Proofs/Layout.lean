import MarkupCascade.Proofs.Grammar
import MarkupCascade.Proofs.Lexical
import MarkupCascade.Proofs.Outcome

/-!
Which texts are read as a fragment, and what they are read as. A text spreads some tokens when it
is made of them and of gaps around them; it is read exactly if it spreads the tokens of a fragment.
No two tokens of a fragment that touch run together, since one of the two is always a mark that is
a part of no other token.
-/

namespace MarkupCascade

/-- Only so many digits are converted to a number. -/
def Token.Convertible : Token → Prop
  | .integer _ digits | .percentage _ digits => digits.length ≤ OversizedLiteral.maxDigits
  | _ => True

/-- Whether a number can be held in 64 bits. -/
def Fragment.Fits (n : Int) : Prop := minInteger ≤ n ∧ n ≤ maxInteger

/-- The integers and percentages in a value can be held. -/
inductive Value.InRange : Value → Prop
  | default : InRange .default
  | string {text : String} : InRange (.string text)
  | float {x : Binary64} : InRange (.float x)
  | integer {n : Int} : Fragment.Fits n → InRange (.integer n)
  | percentage {n : Int} : Fragment.Fits n → InRange (.percentage n)
  | tuple {items : List Value} : (∀ v ∈ items, InRange v) → InRange (.tuple items)

namespace Fragment

open Token (Gap)
open Outcome

variable {f : Form}

/-- A text made of the given tokens, each at its place, with gaps around them. -/
inductive Spread : Position → List Lexeme → List Char → Prop
  | nil {here : Position} {gap : List Char} : Gap true gap → Spread here [] gap
  | cons {here : Position} {gap : List Char} {t : Token} {ls : List Lexeme} {cs : List Char} :
      Gap false gap → t.WellFormed → Spread ((here.after gap).after t.spell) ls cs →
      Spread here (⟨t, here.after gap⟩ :: ls) (gap ++ (t.spell ++ cs))

/-! A token that a stage moves on by is found again where it stands. -/

theorem suitsPlace_of_next? {s s' : Stage f} {t : Token} {line : Nat}
    (step : s.next? t line = some s') : t.SuitsPlace s.valueDue := by
  unfold Stage.next? at step
  split at step
  case h_10 =>
      obtain ⟨v, found, _⟩ := Option.map_eq_some_iff.1 step
      cases t <;> first | rfl | trivial
  case h_15 => cases step
  all_goals first | rfl | trivial

theorem growsBy_of_gap {c : Char} (h : Token.isSpace c = true ∨ c = '/') (t : Token) :
    t.growsBy c = false := by
  simp only [Token.isSpace, Bool.or_eq_true, beq_iff_eq] at h
  obtain ((((rfl | rfl) | rfl) | rfl) | rfl) | rfl := h <;> cases t <;> rfl

/-- Two tokens that may follow each other do not run together. -/
theorem growsBy_of_next? {s s' s'' : Stage f} {t t' : Token} {line line' : Nat}
    (step : s.next? t line = some s') (next : s'.next? t' line' = some s'') :
    ∀ c ∈ t'.spell.head?, t.growsBy c = false := by
  unfold Stage.next? at step
  split at step
  -- A name is followed by a mark, and so is a value; no other token can grow.
  case h_1 | h_3 =>
      cases step
      cases t' <;> cases next <;> (intro c hc; cases hc; rfl)
  case h_10 slot tuples _ _ =>
      obtain ⟨v, found, rfl⟩ := Option.map_eq_some_iff.1 step
      cases tuples <;> cases slot <;> cases t' <;> cases next <;> cases t <;> cases found
        <;> (intro c hc; cases hc; rfl)
  case h_15 => cases step
  all_goals exact fun _ _ => rfl

theorem growsBy_of_spread {s s' : Stage f} {t : Token} {line : Nat} {here : Position}
    {ls : List Lexeme} {cs : List Char} {r : f.Result} (step : s.next? t line = some s')
    (spread : Spread here ls cs) (ran : run s' ls = some r) :
    ∀ c ∈ cs.head?, t.growsBy c = false := by
  intro c hc
  cases spread with
  | nil gap => exact growsBy_of_gap (gap.head c hc) t
  | @cons _ gap t' ls cs hgap form _ =>
      cases gap with
      | cons d gap => exact growsBy_of_gap (hgap.head c hc) t
      | nil =>
          obtain ⟨s'', next, _⟩ := Option.bind_eq_some_iff.1 ran
          obtain ⟨d, spelled, hspell, _⟩ := Token.exists_spell_eq_cons form
          rw [List.nil_append, hspell] at hc
          exact growsBy_of_next? step next c (by rw [hspell]; exact hc)

theorem read_end {s : Stage f} {cs gap : List Char} {r : f.Result} {here last : Position}
    (split : Token.splitGap false cs = (gap, [])) (ended : s.result? = some r) :
    read s cs here last = ⟨[], .ok r⟩ := by
  rw [read]
  split
  · rw [ended]
  · simp_all

theorem read_scanned {s : Stage f} {cs gap rest others : List Char} {c : Char} {t : Token}
    {here : Position} (last : Position) (split : Token.splitGap false cs = (gap, c :: rest))
    (scanned : Token.scan? s.valueDue (c :: rest) = some (t, others)) :
    read s cs here last = match s.next? t (here.after gap).line with
      | none => ⟨[], .error (.unexpectedToken ⟨t, here.after gap⟩)⟩
      | some s' =>
        { read s' others ((here.after gap).after t.spell) (here.after gap) with
          lexemes := ⟨t, here.after gap⟩
            :: (read s' others ((here.after gap).after t.spell) (here.after gap)).lexemes } := by
  rw [read]
  split
  · simp_all
  · rename_i split'
    cases split.symm.trans split'
    dsimp only
    split
    · simp_all
    · rename_i scanned'
      cases scanned.symm.trans scanned'
      rfl

theorem read_refused {s : Stage f} {cs gap rest others : List Char} {c : Char} {t : Token}
    {here : Position} (last : Position) (split : Token.splitGap false cs = (gap, c :: rest))
    (scanned : Token.scan? s.valueDue (c :: rest) = some (t, others))
    (refused : s.next? t (here.after gap).line = none) :
    read s cs here last = ⟨[], .error (.unexpectedToken ⟨t, here.after gap⟩)⟩ := by
  rw [read_scanned last split scanned, refused]

theorem read_unscanned {s : Stage f} {cs gap rest : List Char} {c : Char} {here : Position}
    (last : Position) (split : Token.splitGap false cs = (gap, c :: rest))
    (unscanned : Token.scan? s.valueDue (c :: rest) = none) :
    read s cs here last = ⟨[], .error (.unexpectedCharacter c (here.after gap))⟩ := by
  rw [read]
  split
  · simp_all
  · rename_i split'
    cases split.symm.trans split'
    dsimp only
    split
    · rfl
    · simp_all

/-- A token that is found where it stands is read first, behind the gap in front of it. -/
theorem read_spell {s s' : Stage f} {gap cs : List Char} {t : Token} {here : Position}
    (hgap : Gap false gap) (form : t.WellFormed)
    (scanned : Token.scan? s.valueDue (t.spell ++ cs) = some (t, cs))
    (step : s.next? t (here.after gap).line = some s') (last : Position) :
    read s (gap ++ (t.spell ++ cs)) here last
      = { read s' cs ((here.after gap).after t.spell) (here.after gap) with
          lexemes := ⟨t, here.after gap⟩
            :: (read s' cs ((here.after gap).after t.spell) (here.after gap)).lexemes } := by
  have split := Token.splitGap_gap hgap nofun (Token.splitGap_spell_append form cs)
  obtain ⟨c, spelled, hspell, _⟩ := Token.exists_spell_eq_cons form
  rw [hspell, List.cons_append] at split scanned
  rw [hspell, List.cons_append, read_scanned last split scanned, step, hspell]

/-- A text that spreads tokens which lead to a result is read as that result. -/
theorem read_of_spread {s : Stage f} {here last : Position} {ls : List Lexeme} {cs : List Char}
    {r : f.Result} (spread : Spread here ls cs) (ran : run s ls = some r) :
    read s cs here last = ⟨ls, .ok r⟩ := by
  induction spread generalizing s last with
  | @nil here gap hgap =>
      have split := Token.splitGap_gap hgap (fun _ => rfl) (rfl : Token.splitGap false [] = _)
      rw [List.append_nil] at split
      exact read_end split ran
  | @cons here gap t ls cs hgap form spread ih =>
      obtain ⟨s', step, ran'⟩ := Option.bind_eq_some_iff.1 ran
      have scanned := Token.scan?_spell_append form (suitsPlace_of_next? step)
        (growsBy_of_spread step spread ran')
      rw [read_spell hgap form scanned step, ih ran']

/-- A text that is read spreads the tokens that were found. -/
theorem spread_of_read {s : Stage f} {here last : Position} {ls : List Lexeme} {cs : List Char}
    {r : f.Result} (h : read s cs here last = ⟨ls, .ok r⟩) :
    Spread here ls cs ∧ run s ls = some r := by
  fun_induction read s cs here last generalizing ls with
  | case1 s cs here last gap split result ended =>
      cases h
      obtain ⟨rfl, gaps, _⟩ := Token.of_splitGap_eq split
      rw [List.append_nil]
      exact ⟨.nil gaps, ended⟩
  | case2 | case3 | case4 => cases h
  | case5 s cs here last gap c rest split start t others scanned s' step reading =>
      rename_i ih
      obtain ⟨lexemes, outcome⟩ : _ = ls ∧ _ = Except.ok r := by simpa using h
      subst lexemes
      obtain ⟨spread, ran⟩ := ih (congrArg (Reading.mk reading.lexemes) outcome)
      obtain ⟨rfl, gaps, _⟩ := Token.of_splitGap_eq split
      rw [← (Token.scan?_append scanned).1]
      exact ⟨.cons gaps (Token.wellFormed_of_scan? scanned) spread, (run_cons step _).trans ran⟩

theorem read_eq_ok_iff {s : Stage f} {here : Position} (last : Position) {ls : List Lexeme}
    {cs : List Char} {r : f.Result} :
    read s cs here last = ⟨ls, .ok r⟩ ↔ Spread here ls cs ∧ run s ls = some r :=
  ⟨spread_of_read, fun h => read_of_spread h.1 h.2⟩

/-! Numbers: what is wrong with a token and what is wrong with the value it stands for. -/

theorem numberFault?_eq_none_iff (isPercentage negative : Bool) (digits : List Char)
    (start : Position) :
    numberFault? isPercentage negative digits start = none
      ↔ digits.length ≤ OversizedLiteral.maxDigits ∧ Fits (integerOf negative digits) := by
  simp only [numberFault?, Fits, Bool.or_eq_true, decide_eq_true_eq]
  split
  · simp only [reduceCtorEq, false_iff]
    omega
  · split
    · simp only [reduceCtorEq, false_iff]
      omega
    · simp only [true_iff]
      omega

/-- The tokens are without fault exactly if they can be converted and something else holds. -/
abbrev FaultlessIff (ls : List Lexeme) (holds : Prop) : Prop :=
  (∀ l ∈ ls, l.fault? = none) ↔ (∀ l ∈ ls, l.token.Convertible) ∧ holds

theorem faultlessIff_token {t : Token} {v : Value} (h : valueOf? t = some v) (p : Position) :
    FaultlessIff [⟨t, p⟩] v.InRange := by
  simp only [FaultlessIff, List.forall_mem_singleton]
  cases t <;> cases h
  · exact iff_of_true rfl ⟨trivial, .default⟩
  · exact iff_of_true rfl ⟨trivial, .string⟩
  · exact iff_of_true rfl ⟨trivial, .float⟩
  · refine (numberFault?_eq_none_iff _ _ _ _).trans (and_congr_right' ⟨.percentage, ?_⟩)
    rintro (_ | _)
    assumption
  · refine (numberFault?_eq_none_iff _ _ _ _).trans (and_congr_right' ⟨.integer, ?_⟩)
    rintro (_ | _)
    assumption

theorem faultlessIff_cons {l : Lexeme} {ls : List Lexeme} {holds : Prop}
    (faultless : l.fault? = none) (convertible : l.token.Convertible)
    (h : FaultlessIff ls holds) : FaultlessIff (l :: ls) holds := by
  simpa only [FaultlessIff, List.forall_mem_cons, faultless, convertible, true_and] using h

theorem faultlessIff_concat {l : Lexeme} {ls : List Lexeme} {holds : Prop}
    (faultless : l.fault? = none) (convertible : l.token.Convertible)
    (h : FaultlessIff ls holds) : FaultlessIff (ls ++ [l]) holds := by
  simpa only [FaultlessIff, List.forall_mem_append, List.forall_mem_singleton, faultless,
    convertible, and_true] using h

theorem faultlessIff_append {ls others : List Lexeme} {first rest : Prop}
    (h : FaultlessIff ls first) (hothers : FaultlessIff others rest) :
    FaultlessIff (ls ++ others) (first ∧ rest) := by
  rw [FaultlessIff, List.forall_mem_append, List.forall_mem_append, and_and_and_comm]
  exact and_congr h hothers

theorem faultlessIff_series {α : Type} {P : α → Prop} {as : List α} {ls : List Lexeme}
    (h : Series (fun a ls => FaultlessIff ls (P a)) as ls) : FaultlessIff ls (∀ a ∈ as, P a) := by
  induction h with
  | nil => simp [FaultlessIff]
  | last first => simpa only [List.forall_mem_singleton] using first
  | cons first _ ih =>
      rw [List.forall_mem_cons]
      exact faultlessIff_append first (faultlessIff_cons rfl trivial ih)

theorem inRange_tuple_iff {items : List Value} :
    (Value.tuple items).InRange ↔ ∀ v ∈ items, v.InRange :=
  ⟨fun h => by cases h; assumption, .tuple⟩

theorem faultlessIff_value {v : Value} {ls : List Lexeme} (h : ValueTokens v ls) :
    FaultlessIff ls v.InRange := by
  refine ValueTokens.induction (motive := fun v ls => FaultlessIff ls v.InRange) ?_ ?_ h
  · exact fun t v p found => faultlessIff_token found p
  · intro items ls p q series
    rw [inRange_tuple_iff]
    exact faultlessIff_cons rfl trivial
      (faultlessIff_concat rfl trivial (faultlessIff_series series))

theorem faultlessIff_attribute {a : Attribute} {ls : List Lexeme} (h : AttributeTokens a ls) :
    FaultlessIff ls a.value.InRange := by
  cases h with
  | plain value =>
      exact faultlessIff_cons rfl trivial (faultlessIff_cons rfl trivial (faultlessIff_value value))
  | gated value =>
      exact faultlessIff_cons rfl trivial
        (faultlessIff_cons rfl trivial (faultlessIff_cons rfl trivial (faultlessIff_value value)))

theorem faultlessIff_declaration {required : Bool} {d : Declaration} {ls : List Lexeme}
    (h : DeclarationTokens required d ls) :
    FaultlessIff ls (∀ a ∈ d.attributes, a.value.InRange) := by
  cases h with
  | name _ => exact faultlessIff_cons rfl trivial (by simp [FaultlessIff])
  | block series =>
      have inside := faultlessIff_series (series.imp fun _ _ => faultlessIff_attribute)
      exact faultlessIff_cons rfl trivial
        (faultlessIff_cons rfl trivial (faultlessIff_concat rfl trivial inside))

theorem parse_eq_ok_iff {s : Stage f} {cs : List Char} {r : f.Result} :
    parse s cs = .ok r
      ↔ ∃ ls, (Spread {} ls cs ∧ run s ls = some r) ∧ ∀ l ∈ ls, l.fault? = none := by
  simp only [← read_eq_ok_iff {}, ← List.findSome?_eq_none_iff, parse]
  constructor
  · intro h
    unfold Reading.result at h
    split at h
    · cases h
    · rename_i result outcome
      split at h
      · cases h
      · rename_i faultless
        cases h
        exact ⟨_, congrArg (Reading.mk _) outcome, faultless⟩
  · intro given
    obtain ⟨ls, h, faultless⟩ := given
    rw [h]
    simp only [Reading.result, faultless]

end Fragment

/-- A text that is made of the tokens of a value, with gaps around them. -/
def Value.Layout (v : Value) (cs : List Char) : Prop :=
  ∃ ls, Fragment.Spread {} ls cs ∧ Fragment.ValueTokens v ls ∧ ∀ l ∈ ls, l.token.Convertible

namespace Declaration

/-- A text that is made of the tokens of a declaration, with gaps around them. Lines count from the
beginning of the text. -/
def Layout (blockRequired : Bool) (d : Declaration) (cs : List Char) : Prop :=
  ∃ ls, Fragment.Spread {} ls cs ∧ Fragment.DeclarationTokens blockRequired d ls
    ∧ ∀ l ∈ ls, l.token.Convertible

def InRange (d : Declaration) : Prop := ∀ a ∈ d.attributes, a.value.InRange

/-- A declaration whose text begins on the given line of a document. -/
def movedTo (line : Int) (d : Declaration) : Declaration :=
  { d with attributes := d.attributes.map fun a => { a with line := line + a.line - 1 } }

end Declaration

open Outcome Fragment

theorem Value.parse_eq_ok_iff {text : String} {line indent : Int} {v : Value} :
    Value.parse text line indent = .ok v ↔ v.Layout text.toList ∧ v.InRange := by
  rw [Value.parse, mapError_eq_ok_iff, Fragment.parse_eq_ok_iff]
  constructor
  · intro given
    obtain ⟨ls, ⟨spread, ran⟩, faultless⟩ := given
    have tokens := run_value_eq_some_iff.1 ran
    obtain ⟨convertible, inRange⟩ := (faultlessIff_value tokens).1 faultless
    exact ⟨⟨ls, spread, tokens, convertible⟩, inRange⟩
  · intro given
    obtain ⟨⟨ls, spread, tokens, convertible⟩, inRange⟩ := given
    exact ⟨ls, ⟨spread, run_value_eq_some_iff.2 tokens⟩,
      (faultlessIff_value tokens).2 ⟨convertible, inRange⟩⟩

theorem Declaration.parse_eq_ok_iff {required : Bool} {text : String} {line indent : Int}
    {d : Declaration} :
    Declaration.parse required text line indent = .ok d
      ↔ ∃ e, Declaration.Layout required e text.toList ∧ e.InRange ∧ d = e.movedTo line := by
  simp only [Declaration.parse, bind_eq_ok_iff, mapError_eq_ok_iff, pure_eq_ok_iff]
  constructor
  · intro given
    obtain ⟨e, parsed, rfl⟩ := given
    obtain ⟨ls, ⟨spread, ran⟩, faultless⟩ := Fragment.parse_eq_ok_iff.1 parsed
    have tokens := run_start_eq_some_iff.1 ran
    obtain ⟨convertible, inRange⟩ := (faultlessIff_declaration tokens).1 faultless
    exact ⟨e, ⟨ls, spread, tokens, convertible⟩, inRange, rfl⟩
  · intro given
    obtain ⟨e, ⟨ls, spread, tokens, convertible⟩, inRange, rfl⟩ := given
    exact ⟨e, Fragment.parse_eq_ok_iff.2 ⟨ls, ⟨spread, run_start_eq_some_iff.2 tokens⟩,
      (faultlessIff_declaration tokens).2 ⟨convertible, inRange⟩⟩, rfl⟩

/-- Two readings of a text are the same. -/
theorem Fragment.eq_of_spread {f : Form} {s : Stage f} {cs : List Char} {ls ls' : List Lexeme}
    {r r' : f.Result} (h : Spread {} ls cs ∧ run s ls = some r)
    (h' : Spread {} ls' cs ∧ run s ls' = some r') : r = r' := by
  have same := ((read_eq_ok_iff {}).2 h).symm.trans ((read_eq_ok_iff {}).2 h')
  injection same with _ outcome
  exact Except.ok.inj outcome

/-- The texts that are read are the layouts of what they are read as, and no text is a layout of two
values or of two declarations. -/
theorem Fragment.parse_iff_layout (text : String) (line indent : Int) :
    (∀ v, Value.parse text line indent = .ok v ↔ v.Layout text.toList ∧ v.InRange)
      ∧ (∀ required d, Declaration.parse required text line indent = .ok d
        ↔ ∃ e, Declaration.Layout required e text.toList ∧ e.InRange ∧ d = e.movedTo line)
      ∧ (∀ v w : Value, v.Layout text.toList → w.Layout text.toList → v = w)
      ∧ ∀ required d e, Declaration.Layout required d text.toList →
        Declaration.Layout required e text.toList → d = e := by
  refine ⟨fun _ => Value.parse_eq_ok_iff, fun _ _ => Declaration.parse_eq_ok_iff, ?_, ?_⟩
  · rintro v w ⟨ls, spread, tokens, _⟩ ⟨ls', spread', tokens', _⟩
    exact eq_of_spread ⟨spread, run_value_eq_some_iff.2 tokens⟩
      ⟨spread', run_value_eq_some_iff.2 tokens'⟩
  · rintro required d e ⟨ls, spread, tokens, _⟩ ⟨ls', spread', tokens', _⟩
    exact eq_of_spread ⟨spread, run_start_eq_some_iff.2 tokens⟩
      ⟨spread', run_start_eq_some_iff.2 tokens'⟩

theorem Fragment.parse_tuple :
    Value.parse "(-07%, default,)//" 1 0 = .ok (.tuple [.percentage (-7), .default]) := by
  have numeral : Token.IsNumeral ['0', '7'] := ⟨by simp, List.all_eq_true.1 rfl⟩
  have spread : Spread {} [⟨.openParen, ⟨1, 1⟩⟩, ⟨.percentage true ['0', '7'], ⟨1, 2⟩⟩,
      ⟨.comma, ⟨1, 6⟩⟩, ⟨.default, ⟨1, 8⟩⟩, ⟨.comma, ⟨1, 15⟩⟩, ⟨.closeParen, ⟨1, 16⟩⟩]
      "(-07%, default,)//".toList :=
    .cons (t := .openParen) .nil trivial <| .cons (t := .percentage true ['0', '7']) .nil numeral <|
    .cons (t := .comma) .nil trivial <|
    .cons (t := .default) (.space (c := ' ') rfl .nil) trivial <|
    .cons (t := .comma) .nil trivial <| .cons (t := .closeParen) .nil trivial <|
    .nil (.lastComment List.not_mem_nil)
  have seven (p : Position) : ValueTokens (.percentage (-7)) [⟨.percentage true ['0', '7'], p⟩] :=
    @ValueTokens.percentage true ['0', '7'] p
  have inRange : Value.InRange (.tuple [.percentage (-7), .default]) :=
    .tuple (List.forall_mem_cons.2 ⟨.percentage ⟨by decide, by decide⟩,
      List.forall_mem_singleton.2 .default⟩)
  refine ((parse_iff_layout _ 1 0).1 _).2
    ⟨⟨_, spread, .tuple (.cons (seven _) (.cons .default .nil)), ?_⟩, inRange⟩
  simp [Token.Convertible, OversizedLiteral.maxDigits]

end MarkupCascade
