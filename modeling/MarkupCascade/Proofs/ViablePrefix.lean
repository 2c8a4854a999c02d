import MarkupCascade.Proofs.FaultPlace
import MarkupCascade.Proofs.Lookahead

/-!
A text that leaves the grammar is refused as early as it can be, and never too early. What stands in
front of the place of the error can still be gone on with to a fragment, since every stage can. With
the token or the character at that place it cannot, as soon as a line feed keeps that from growing:
what is read up to there is read again whatever follows, and there it is refused again.
-/

namespace MarkupCascade

theorem Position.eq_nil_of_after_eq {p : Position} {cs : List Char} (h : p.after cs = p) :
    cs = [] := by
  have line := congrArg Position.line h
  rw [line_after, Nat.add_eq_left, List.count_eq_zero] at line
  have column := congrArg Position.column h
  rw [after_of_no_lineFeed line] at column
  exact List.length_eq_zero_iff.1 (Nat.add_eq_left.1 column)

/-- Of the texts that another begins with, no two lead to the same place. -/
theorem Position.eq_of_after_eq {p : Position} {front front' rest rest' : List Char}
    (whole : front ++ rest = front' ++ rest') (same : p.after front = p.after front') :
    front = front' := by
  obtain ⟨more, rfl, _⟩ | ⟨more, rfl, _⟩ := List.append_eq_append_iff.1 whole
  · rw [after_append] at same
    rw [eq_nil_of_after_eq same.symm, List.append_nil]
  · rw [after_append] at same
    rw [eq_nil_of_after_eq same, List.append_nil]

namespace Fragment

open Token (Gap)

variable {f : Form} {s s' : Stage f} {here : Position}

/-- A text that is made of tokens which lead from a stage to a result. -/
def Accepts (s : Stage f) (here : Position) (cs : List Char) : Prop :=
  ∃ ls r, Spread here ls cs ∧ run s ls = some r

/-- A text that some fragment begins with, even if a line ends behind it. -/
def Viable (s : Stage f) (here : Position) (cs : List Char) : Prop :=
  ∃ more, Accepts s here (cs ++ '\n' :: more)

theorem accepts_iff_read (last : Position) {cs : List Char} :
    Accepts s here cs ↔ ∃ r, (read s cs here last).outcome = .ok r := by
  simp only [Accepts, ← read_eq_ok_iff last]
  constructor
  · intro given
    obtain ⟨ls, r, found⟩ := given
    exact ⟨r, by rw [found]⟩
  · intro given
    obtain ⟨r, outcome⟩ := given
    exact ⟨_, r, congrArg (Reading.mk _) outcome⟩

theorem not_accepts_of_error {cs : List Char} {last : Position} {fault : Fault}
    (h : (read s cs here last).outcome = .error fault) : ¬Accepts s here cs := by
  rw [accepts_iff_read last, h]
  rintro ⟨_, ⟨⟩⟩

theorem Accepts.gap {gap cs : List Char} (h : Accepts s (here.after gap) cs)
    (hgap : Gap false gap) : Accepts s here (gap ++ cs) := by
  obtain ⟨ls, r, spread, ran⟩ := h
  cases spread with
  | nil rest => exact ⟨[], r, .nil (hgap.append rest), ran⟩
  | @cons _ gap' t ls cs rest form spread =>
      rw [← here.after_append] at spread ran
      have found : Spread here _ _ := .cons (hgap.append rest) form spread
      rw [List.append_assoc] at found
      exact ⟨_, r, found, ran⟩

/-! Every stage can be gone on from, to a result. -/

def Completable (s : Stage f) : Prop := ∀ here, ∃ cs, Accepts s here cs

theorem completable_of_next {t : Token} (form : t.WellFormed)
    (step : ∀ line, ∃ s', s.next? t line = some s' ∧ Completable s') : Completable s := by
  intro here
  obtain ⟨s', moved, next⟩ := step here.line
  obtain ⟨cs, ls, r, spread, ran⟩ := next (here.after t.spell)
  have found : Spread here (⟨t, here⟩ :: ls) ([] ++ (t.spell ++ cs)) := .cons .nil form spread
  exact ⟨t.spell ++ cs, _, r, found, (run_cons moved ls).trans ran⟩

theorem completable_finished (r : f.Result) : Completable (.finished r) :=
  fun _ => ⟨[], [], r, .nil .nil, rfl⟩

theorem completable_entry (b : Block) : Completable (.entry b) :=
  completable_of_next (t := .closeBrace) trivial fun _ =>
    ⟨_, rfl, completable_finished (f := .declaration) _⟩

theorem completable_place (slot : Slot f) (tuples : List (List Value)) (v : Value) :
    Completable (.place slot tuples v) := by
  induction tuples generalizing v with
  | nil =>
      cases slot with
      | whole => exact completable_finished (f := .value) v
      | entry b key condition line => exact completable_entry _
  | cons items tuples ih =>
      exact completable_of_next (t := .closeParen) trivial fun _ => ⟨_, rfl, ih _⟩

theorem completable_value (slot : Slot f) (tuples : List (List Value)) :
    Completable (.value slot tuples) :=
  completable_of_next (t := .default) trivial fun _ =>
    ⟨.place slot tuples .default, by cases tuples <;> rfl, completable_place slot tuples _⟩

theorem completable_colon (b : Block) (key : String) (condition : Option String) (line : Nat) :
    Completable (.colon b key condition line) :=
  completable_of_next (t := .colon) trivial fun _ => ⟨_, rfl, completable_value _ _⟩

theorem completable_key (b : Block) : Completable (.key b) :=
  completable_of_next (t := .closeBrace) trivial fun _ =>
    ⟨_, rfl, completable_finished (f := .declaration) _⟩

theorem completable_opening (required : Bool) (name : String) :
    Completable (.opening required name) :=
  completable_of_next (t := .openBrace) trivial fun _ => ⟨_, rfl, completable_key _⟩

theorem completable (s : Stage f) : Completable s := by
  cases s with
  | start required =>
      exact completable_of_next (t := .name ['a']) ⟨rfl, List.forall_mem_nil _⟩ fun _ =>
        ⟨_, rfl, completable_opening required _⟩
  | opening required name => exact completable_opening required name
  | key b => exact completable_key b
  | gate b key line =>
      exact completable_of_next (t := .colon) trivial fun _ => ⟨_, rfl, completable_value _ _⟩
  | colon b key condition line => exact completable_colon b key condition line
  | value slot tuples => exact completable_value slot tuples
  | item slot items tuples =>
      exact completable_of_next (t := .closeParen) trivial fun _ =>
        ⟨_, rfl, completable_place slot tuples _⟩
  | entry b => exact completable_entry b
  | finished r => exact completable_finished r

/-! What one step of the reading says of a text whose end is changed. -/

theorem viable_gap {atEnd : Bool} {gap : List Char} (h : Gap atEnd gap) : Viable s here gap := by
  obtain ⟨more, accepted⟩ := completable s (here.after (gap ++ ['\n']))
  refine ⟨more, ?_⟩
  have behind := accepted.gap h.endLine
  rwa [List.append_assoc] at behind

/-- A token that is found and fits may be passed. -/
theorem accepts_step_iff {gap cs : List Char} {t : Token} (hgap : Gap false gap)
    (form : t.WellFormed) (scanned : Token.scan? s.valueDue (t.spell ++ cs) = some (t, cs))
    (step : s.next? t (here.after gap).line = some s') :
    Accepts s here (gap ++ (t.spell ++ cs)) ↔ Accepts s' ((here.after gap).after t.spell) cs := by
  rw [accepts_iff_read here, accepts_iff_read (here.after gap), read_spell hgap form scanned step]

theorem viable_step_iff {gap cs rest : List Char} {t : Token} (hgap : Gap false gap)
    (form : t.WellFormed) (fits : t.Fits s.valueDue (cs ++ rest))
    (step : s.next? t (here.after gap).line = some s') :
    Viable s here (gap ++ (t.spell ++ cs)) ↔ Viable s' ((here.after gap).after t.spell) cs := by
  refine exists_congr fun more => ?_
  rw [List.append_assoc, List.append_assoc]
  exact accepts_step_iff hgap form (Token.scan?_of_fits form (fits.cut more)) step

theorem not_viable_of_refused {gap : List Char} {t : Token} (hgap : Gap false gap)
    (form : t.WellFormed) (belongs : t.Belongs s.valueDue)
    (refused : s.next? t (here.after gap).line = none) : ¬Viable s here (gap ++ t.spell) := by
  intro given
  obtain ⟨more, accepted⟩ := given
  have split := Token.splitGap_gap hgap nofun (Token.splitGap_spell_append form ('\n' :: more))
  have scanned := Token.scan?_of_fits form ⟨belongs, Token.stops_lineFeed t more⟩
  obtain ⟨c, spelled, hspell, _⟩ := Token.exists_spell_eq_cons form
  rw [hspell, List.cons_append] at split scanned
  rw [hspell, List.append_assoc, List.cons_append] at accepted
  exact not_accepts_of_error (congrArg Reading.outcome (read_refused here split scanned refused))
    accepted

theorem not_viable_of_unscanned {gap rest : List Char} {c : Char} (hgap : Gap false gap)
    (space : Token.isSpace c = false) (unscanned : Token.scan? s.valueDue (c :: rest) = none) :
    ¬Viable s here (gap ++ [c]) := by
  intro given
  obtain ⟨more, accepted⟩ := given
  rw [List.append_assoc, List.singleton_append] at accepted
  have stops : Token.splitGap false (c :: '\n' :: more) = ([], c :: '\n' :: more) :=
    Token.splitGap_of_stops space (by simp)
  have split := Token.splitGap_gap hgap nofun stops
  exact not_accepts_of_error (congrArg Reading.outcome
    (read_unscanned here split (Token.scan?_eq_none_cut unscanned more))) accepted

/-- What a fault of the grammar tells of a text that is read from a stage. Up to the place of it the
text is viable, and with what stands there it is not. -/
inductive Fault.Earliest (s : Stage f) (here : Position) (cs : List Char) : Fault → Prop
  | token {t : Token} {front rest : List Char} :
      cs = front ++ (t.spell ++ rest) → Viable s here front → ¬Viable s here (front ++ t.spell) →
      Earliest s here cs (.unexpectedToken ⟨t, here.after front⟩)
  | character {c : Char} {front rest : List Char} :
      cs = front ++ c :: rest → Viable s here front → ¬Viable s here (front ++ [c]) →
      Earliest s here cs (.unexpectedCharacter c (here.after front))
  | ending {last : Position} : Viable s here cs → Earliest s here cs (.unexpectedEnd last)

theorem Fault.Earliest.behind {here : Position} {passed cs : List Char} {fault : Fault}
    (h : Earliest s' (here.after passed) cs fault)
    (viable : ∀ front rest, cs = front ++ rest →
      (Viable s here (passed ++ front) ↔ Viable s' (here.after passed) front)) :
    Earliest s here (passed ++ cs) fault := by
  cases h with
  | @token t front rest whole before past =>
      have withItem : cs = front ++ t.spell ++ rest := by rw [whole, List.append_assoc]
      rw [← Position.after_append]
      refine .token (by rw [whole, List.append_assoc]) ((viable _ _ whole).2 before) ?_
      rwa [List.append_assoc, viable _ rest withItem]
  | @character c front rest whole before past =>
      have withItem : cs = front ++ [c] ++ rest := by rw [whole, ← List.append_cons]
      rw [← Position.after_append]
      refine .character (by rw [whole, List.append_assoc]) ((viable _ _ whole).2 before) ?_
      rwa [List.append_assoc, viable _ rest withItem]
  | ending before => exact .ending ((viable cs [] (List.append_nil cs).symm).2 before)

/-- What was passed is passed again with whatever comes behind it, so the induction carries both
halves of the fault back over each token. -/
theorem earliest_of_read {cs : List Char} {last : Position} {fault : Fault}
    (h : (read s cs here last).outcome = .error fault) : fault.Earliest s here cs := by
  fun_induction read s cs here last with
  | case1 => cases h
  | case2 s cs here last gap split _ =>
      cases h
      obtain ⟨rfl, gaps, _⟩ := Token.of_splitGap_eq split
      rw [List.append_nil]
      exact .ending (viable_gap gaps)
  | case3 s cs here last gap c rest split start unscanned =>
      cases h
      obtain ⟨whole, gaps, solid⟩ := Token.of_splitGap_eq split
      exact .character whole (viable_gap gaps)
        (not_viable_of_unscanned gaps (solid c rfl) unscanned)
  | case4 s cs here last gap c rest split start t rest' scanned refused =>
      cases h
      obtain ⟨whole, gaps, _⟩ := Token.of_splitGap_eq split
      rw [← (Token.scan?_append scanned).1] at whole
      exact .token whole (viable_gap gaps) (not_viable_of_refused gaps
        (Token.wellFormed_of_scan? scanned) (Token.fits_of_scan? scanned).belongs refused)
  | case5 s cs here last gap c rest split start t rest' scanned s' step reading ih =>
      obtain ⟨whole, gaps, _⟩ := Token.of_splitGap_eq split
      rw [← (Token.scan?_append scanned).1] at whole
      have later : fault.Earliest s' (here.after (gap ++ t.spell)) rest' := by
        rw [Position.after_append]
        exact ih h
      rw [whole, ← List.append_assoc]
      refine later.behind ?_
      rintro front others rfl
      rw [List.append_assoc, Position.after_append]
      exact viable_step_iff gaps (Token.wellFormed_of_scan? scanned)
        (Token.fits_of_scan? scanned) step

end Fragment

/-- The texts of the grammar of values, whether or not the numbers in them can be held. -/
def Value.Grammatical (cs : List Char) : Prop :=
  ∃ v ls, Fragment.Spread {} ls cs ∧ Fragment.ValueTokens v ls

/-- The texts of the grammar of declarations. -/
def Declaration.Grammatical (blockRequired : Bool) (cs : List Char) : Prop :=
  ∃ d ls, Fragment.Spread {} ls cs ∧ Fragment.DeclarationTokens blockRequired d ls

theorem Value.grammatical_eq_accepts :
    Value.Grammatical = Fragment.Accepts (.value .whole []) {} := by
  refine funext fun cs => propext ⟨?_, ?_⟩
  · rintro ⟨v, ls, spread, tokens⟩
    exact ⟨ls, v, spread, Fragment.run_value_eq_some_iff.2 tokens⟩
  · rintro ⟨ls, v, spread, ran⟩
    exact ⟨v, ls, spread, Fragment.run_value_eq_some_iff.1 ran⟩

theorem Declaration.grammatical_eq_accepts (blockRequired : Bool) :
    Declaration.Grammatical blockRequired = Fragment.Accepts (.start blockRequired) {} := by
  refine funext fun cs => propext ⟨?_, ?_⟩
  · rintro ⟨d, ls, spread, tokens⟩
    exact ⟨ls, d, spread, Fragment.run_start_eq_some_iff.2 tokens⟩
  · rintro ⟨ls, d, spread, ran⟩
    exact ⟨d, ls, spread, Fragment.run_start_eq_some_iff.1 ran⟩

namespace ParseError

/-- The error names a place of a text that begins on a line of a document, behind an indent. -/
def IsAt (e : ParseError) (line indent : Int) (p : Position) : Prop :=
  e.line = some (line + p.line - 1) ∧ e.column = some (p.column + if p.line = 1 then indent else 0)

theorem IsAt.unique {e : ParseError} {line indent : Int} {p q : Position}
    (h : e.IsAt line indent p) (h' : e.IsAt line indent q) : p = q := by
  have onLine := Option.some.inj (h.1.symm.trans h'.1)
  have sameLine : p.line = q.line := by omega
  have inColumn := Option.some.inj (h.2.symm.trans h'.2)
  rw [sameLine] at inColumn
  have sameColumn : p.column = q.column := by omega
  cases p
  cases q
  cases sameLine
  cases sameColumn
  rfl

/-- The error names the place of an item in a text, and no other place of it. A text of the grammar
may begin with what is in front of the item. With the item as well none begins, when a line ends
behind it. -/
structure IsFirstWrong (accepted : List Char → Prop) (text : List Char) (line indent : Int)
    (e : ParseError) (front item : List Char) : Prop where
  stands : front ++ item <+: text
  isAt : e.IsAt line indent (({} : Position).after front)
  only : ∀ other, other <+: text → e.IsAt line indent (({} : Position).after other) → other = front
  before : ∃ more, accepted (front ++ more)
  past : ¬∃ more, accepted (front ++ item ++ '\n' :: more)

/-- The error refuses a text, of which some are accepted, as early as this can be done. -/
inductive Earliest (accepted : List Char → Prop) (text : List Char) (line indent : Int)
    (e : ParseError) : Prop
  | token {item front : List Char} : e.cause = .unexpectedToken (String.ofList item) →
      e.IsFirstWrong accepted text line indent front item → Earliest accepted text line indent e
  | character {c : Char} {front : List Char} : e.cause = .unexpectedCharacter c →
      e.IsFirstWrong accepted text line indent front [c] → Earliest accepted text line indent e
  | ending : e.cause = .unexpectedEnd → (∃ more, accepted (text ++ '\n' :: more)) →
      ¬accepted text → Earliest accepted text line indent e

end ParseError

namespace Fragment

variable {f : Form} {s : Stage f}

theorem isFirstWrong_of_viable {text front item rest : List Char} {line indent : Int}
    {cause : ParseError.Cause} {e : ParseError} (whole : text = front ++ (item ++ rest))
    (located : Fault.toReadError.located line indent cause (({} : Position).after front) = .parse e)
    (before : Viable s {} front) (past : ¬Viable s {} (front ++ item)) :
    e.cause = cause ∧ e.IsFirstWrong (Accepts s {}) text line indent front item := by
  cases located
  refine ⟨rfl, ?_, ⟨rfl, rfl⟩, ?_, ?_, past⟩
  · rw [whole, ← List.append_assoc]
    exact List.prefix_append _ _
  · rintro other ⟨others, rest⟩ place
    exact Position.eq_of_after_eq (rest.trans whole) (place.unique ⟨rfl, rfl⟩)
  · obtain ⟨more, accepted⟩ := before
    exact ⟨'\n' :: more, accepted⟩

/-- Where a text leaves the grammar, its reader stops as early as this can be done. -/
theorem earliest_of_parse_eq_error {cs : List Char} {fault : Fault} {line indent : Int}
    {e : ParseError} (failed : parse s cs = .error fault)
    (same : fault.toReadError line indent = .parse e)
    (unexpected : e.cause.IsUnexpected) : e.Earliest (Accepts s {}) cs line indent := by
  obtain outcome | ⟨ls, l, _, _, faulty⟩ := exists_of_parse_eq_error failed
  · cases earliest_of_read outcome with
    | token whole before past =>
        obtain ⟨cause, wrong⟩ := isFirstWrong_of_viable whole same before past
        exact .token cause wrong
    | character whole before past =>
        obtain ⟨cause, wrong⟩ := isFirstWrong_of_viable whole same before past
        exact .character cause wrong
    | ending viable =>
        cases same
        exact .ending rfl viable (not_accepts_of_error outcome)
  · have unlike := Lexeme.not_isUnexpected_of_fault? faulty line indent
    rw [same] at unlike
    exact absurd unexpected unlike

end Fragment

open Outcome

/-- A value or a declaration that leaves the grammar is refused at the first token or character that
cannot be right or, if there is none, at the end, and then the text is only too short. -/
theorem ParseError.earliest_of_parse (text : String) (line indent : Int) :
    (∀ e, Value.parse text line indent = .error (.parse e) → e.cause.IsUnexpected →
        e.Earliest Value.Grammatical text.toList line indent)
      ∧ ∀ required e, Declaration.parse required text line indent = .error (.parse e) →
        e.cause.IsUnexpected →
        e.Earliest (Declaration.Grammatical required) text.toList line indent := by
  constructor
  · have fails : Fails (fun err => ∀ e, err = .parse e → e.cause.IsUnexpected →
        e.Earliest (Fragment.Accepts (.value .whole []) {}) text.toList line indent)
        (Value.parse text line indent) :=
      Fails.mapError fun _ failed _ => Fragment.earliest_of_parse_eq_error failed
    intro e refused
    rw [Value.grammatical_eq_accepts]
    exact fails _ refused e rfl
  · intro required e refused
    have fails : Fails (fun err => ∀ e, err = .parse e → e.cause.IsUnexpected →
        e.Earliest (Fragment.Accepts (.start required) {}) text.toList line indent)
        (Declaration.parse required text line indent) :=
      Fails.bind (Fails.mapError fun _ failed _ => Fragment.earliest_of_parse_eq_error failed)
        fun _ => fails_pure _
    rw [Declaration.grammatical_eq_accepts]
    exact fails _ refused e rfl

/-- A tuple with a word in it, a value with half a comment behind it, and a rule whose block is cut
off by a comment. -/
theorem ParseError.earliest_of_parse_rule :
    let tuple := "(1,\n default x)"
    let half := "12./ 3"
    let rule := "a \x7b k: 1 // \x7d"
    let e : ParseError := ⟨.unexpectedToken "x", some 8, some 10⟩
    let e' : ParseError := ⟨.unexpectedCharacter '.', some 7, some 7⟩
    let e'' : ParseError := ⟨.unexpectedEnd, some 7, some 12⟩
    (Value.parse tuple 7 4 = .error (.parse e)
        ∧ e.Earliest Value.Grammatical tuple.toList 7 4)
      ∧ (Value.parse half 7 4 = .error (.parse e')
        ∧ e'.Earliest Value.Grammatical half.toList 7 4)
      ∧ Declaration.parse true rule 7 4 = .error (.parse e'')
        ∧ e''.Earliest (Declaration.Grammatical true) rule.toList 7 4 := by
  intro tuple half rule e e' e''
  have inTuple : Value.parse tuple 7 4 = .error (.parse e) := by cbv
  have behindNumber : Value.parse half 7 4 = .error (.parse e') := by cbv
  have atEnd : Declaration.parse true rule 7 4 = .error (.parse e'') := by cbv
  exact ⟨⟨inTuple, (earliest_of_parse _ _ _).1 _ inTuple trivial⟩,
    ⟨behindNumber, (earliest_of_parse _ _ _).1 _ behindNumber trivial⟩,
    atEnd, (earliest_of_parse _ _ _).2 _ _ atEnd trivial⟩

end MarkupCascade
