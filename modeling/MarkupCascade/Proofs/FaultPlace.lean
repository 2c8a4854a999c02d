import MarkupCascade.Proofs.Extent
import MarkupCascade.Proofs.FirstFault

/-!
At which place a text is reported to leave the grammar. The place is that of the token or of the
character which cannot be right or, where the text ends too early, that of its last token. This
holds of the physical lines of a document as it does of the text of one logical line: what is at
fault can be read there, at the line and the column that are reported.
-/

namespace MarkupCascade

open Outcome LogicalLine

theorem Token.isBlank_of_isSpace {c : Char} (h : isSpace c = true) : Text.isBlank c = true := by
  simp only [isSpace, Bool.or_eq_true, beq_iff_eq] at h
  obtain (((rfl | rfl) | rfl) | rfl) | rfl := h <;> rfl

namespace Fragment

open Token (Gap)

/-- What a fault of the grammar is about stands where the fault is said to be: a token or a
character or, for a text that ends too early, the last of the tokens that were found in it. -/
inductive Fault.StandsIn (here : Position) (ls : List Lexeme) (cs : List Char) : Fault → Prop
  | token {t : Token} {front rest : List Char} :
      t.WellFormed → cs = front ++ (t.spell ++ rest) →
      StandsIn here ls cs (.unexpectedToken ⟨t, here.after front⟩)
  | character {c : Char} {front rest : List Char} :
      c ≠ '\n' → cs = front ++ c :: rest →
      StandsIn here ls cs (.unexpectedCharacter c (here.after front))
  | ending {t : Token} {front gap : List Char} :
      t.WellFormed → Gap true gap → cs = front ++ (t.spell ++ gap) →
      ls.getLast? = some ⟨t, here.after front⟩ →
      StandsIn here ls cs (.unexpectedEnd (here.after front))

theorem Fault.StandsIn.behind {here : Position} {ls : List Lexeme} {cs passed : List Char}
    {fault : Fault} (h : StandsIn (here.after passed) ls cs fault) (l : Lexeme) :
    StandsIn here (l :: ls) (passed ++ cs) fault := by
  cases h with
  | @token t front rest form whole =>
      rw [← Position.after_append]
      exact .token form (by rw [whole, List.append_assoc])
  | @character c front rest other whole =>
      rw [← Position.after_append]
      exact .character other (by rw [whole, List.append_assoc])
  | @ending t front gap form hgap whole last =>
      rw [← Position.after_append] at last ⊢
      refine .ending form hgap (by rw [whole, List.append_assoc]) ?_
      rw [List.getLast?_cons, last, Option.getD_some]

theorem Fault.StandsIn.line_le {here : Position} {ls : List Lexeme} {cs : List Char}
    {fault : Fault} (h : StandsIn here ls cs fault) :
    ∀ p ∈ fault.place?, p.line ≤ (here.after cs).line := by
  have within (front rest : List Char) :
      (here.after front).line ≤ (here.after (front ++ rest)).line := by
    rw [Position.after_append]
    exact Position.line_le_after _ rest
  cases h with
  | token _ whole | character _ whole | ending _ _ whole _ =>
      rintro _ ⟨⟩
      rw [whole]
      exact within _ _

variable {f : Form}

/-- Only where no token is found there is nothing to point at. -/
theorem standsIn_of_read {s : Stage f} {cs : List Char} {here last : Position} {fault : Fault}
    (h : (read s cs here last).outcome = .error fault) :
    fault.StandsIn here (read s cs here last).lexemes cs
      ∨ fault = .unexpectedEnd last ∧ (read s cs here last).lexemes = [] ∧ Gap true cs := by
  fun_induction read s cs here last with
  | case1 => cases h
  | case2 s cs here last gap split _ =>
      cases h
      obtain ⟨rfl, gaps, _⟩ := Token.of_splitGap_eq split
      rw [List.append_nil]
      exact .inr ⟨rfl, rfl, gaps⟩
  | case3 s cs here last gap c rest split start _ =>
      cases h
      obtain ⟨whole, _, solid⟩ := Token.of_splitGap_eq split
      refine .inl (.character ?_ whole)
      rintro rfl
      cases solid _ rfl
  | case4 s cs here last gap c rest split start t rest' scanned _ =>
      cases h
      obtain ⟨whole, _, _⟩ := Token.of_splitGap_eq split
      rw [← (Token.scan?_append scanned).1] at whole
      exact .inl (.token (Token.wellFormed_of_scan? scanned) whole)
  | case5 s cs here last gap c rest split start t rest' scanned s' step reading ih =>
      obtain ⟨whole, _, _⟩ := Token.of_splitGap_eq split
      rw [← (Token.scan?_append scanned).1] at whole
      rw [whole]
      obtain inside | ⟨rfl, none, gaps⟩ := ih h
      · rw [← List.append_assoc]
        refine .inl (Fault.StandsIn.behind ?_ _)
        rwa [Position.after_append]
      · refine .inl (.ending (Token.wellFormed_of_scan? scanned) gaps rfl ?_)
        rw [none]
        rfl

end Fragment

/-- Where a text leaves the grammar, it does so with a token, with a character or at its end. -/
def ParseError.Cause.IsUnexpected : ParseError.Cause → Prop
  | .unexpectedToken _ | .unexpectedCharacter _ | .unexpectedEnd => True
  | _ => False

def ReadError.IsUnexpected : ReadError → Prop
  | .parse e => e.cause.IsUnexpected
  | .oversized _ => False

/-- Whether a document is refused for the text of a declaration. -/
def ReadError.IsOfGrammar : ReadError → Prop
  | .parse e => e.cause.rule = .grammar
  | .oversized _ => False

theorem ParseError.Cause.IsUnexpected.isOfGrammar {e : ParseError} (h : e.cause.IsUnexpected) :
    (ReadError.parse e).IsOfGrammar := by
  obtain ⟨cause, line, column⟩ := e
  cases cause <;> first | rfl | exact h.elim

theorem Fragment.Lexeme.not_isUnexpected_of_fault? {l : Lexeme} {fault : Fault}
    (h : l.fault? = some fault) (line indent : Int) :
    ¬(fault.toReadError line indent).IsUnexpected := by
  obtain ⟨o, rfl⟩ | ⟨literal, rfl⟩ := cases_of_fault? h <;> exact id

namespace LogicalLine

open Token (Gap)

/-- A line that leaves the grammar does so where the reader of its text stops. -/
theorem fails_declaration_unexpected (required : Bool) (l : LogicalLine) :
    Fails (fun e => e.IsUnexpected → ∃ fault,
        (Fragment.read (.start required) l.text.toList {} {}).outcome = .error fault
          ∧ e = fault.toReadError l.number l.indent.length)
      (l.declaration required) := by
  refine Fails.bind_of_ok ?_ fun d _ => ?_
  · refine Fails.bind (Fails.mapError fun fault failed unexpected => ?_) fun _ => fails_pure _
    obtain outcome | ⟨ls, l', _, _, faulty⟩ := Fragment.exists_of_parse_eq_error failed
    · exact ⟨fault, outcome, rfl⟩
    · exact absurd unexpected (Fragment.Lexeme.not_isUnexpected_of_fault? faulty _ _)
  · split
    · exact fails_throw False.elim
    · exact fails_pure d

/-- The first line of a gap says nothing. -/
theorem isIdle_firstLine_of_gap {atEnd : Bool} {gap : List Char} (h : Gap atEnd gap) :
    Stylesheet.IsIdle (firstLine gap) := by
  have comment (body : List Char) : Stylesheet.IsIdle ('/' :: '/' :: body) :=
    ⟨[], _, rfl, List.forall_mem_nil _, .inr ⟨body, rfl⟩⟩
  induction h with
  | nil => exact ⟨[], [], rfl, List.forall_mem_nil _, .inl rfl⟩
  | @space _ c gap hc _ ih =>
      by_cases lineFeed : c = '\n'
      · subst lineFeed
        exact ⟨[], [], rfl, List.forall_mem_nil _, .inl rfl⟩
      · obtain ⟨blank, rest, same, blanks, idle⟩ := ih
        rw [firstLine_cons lineFeed, same]
        exact ⟨c :: blank, rest, rfl,
          List.forall_mem_cons.2 ⟨Token.isBlank_of_isSpace hc, blanks⟩, idle⟩
  | comment hbody _ _ =>
      rw [firstLine_cons (by decide), firstLine_cons (by decide), firstLine_append_lineFeed hbody]
      exact comment _
  | lastComment hbody =>
      rw [firstLine_cons (by decide), firstLine_cons (by decide), firstLine_of_no_lineFeed hbody]
      exact comment _

theorem not_gap_of_mem_split {source : String} {l : LogicalLine}
    (h : l ∈ (split source).lines) : ¬Gap true l.text.toList := by
  intro gaps
  obtain ⟨above, line, more, below, lines, shown, _, rfl⟩ := (parts_split source).exists_run l h
  have absent : '\n' ∉ line :=
    no_lineFeed_of_mem_physicalLines source.toList line (by rw [lines]; simp)
  obtain ⟨blank, rest, same, blanks, idle⟩ := isIdle_firstLine_of_gap gaps
  rw [firstLine_text_ofLines _ absent] at same
  have indent : ∀ c ∈ line.takeWhile isIndent, Text.isBlank c = true := fun c hc =>
    isBlank_of_isIndent (List.mem_takeWhile_imp hc)
  have ignored : isIgnored line = true := Stylesheet.isIgnored_of_isIdle
    ⟨line.takeWhile isIndent ++ blank, rest,
      by rw [List.append_assoc, ← same, List.takeWhile_append_dropWhile],
      List.forall_mem_append.2 ⟨indent, blanks⟩, idle⟩
  rw [ignored] at shown
  cases shown

/-- The last token of the line that is found when it is read, with nothing but a gap behind it. -/
def IsLastToken (required : Bool) (l : LogicalLine) (t : Token) : Prop :=
  t.WellFormed
    ∧ (∃ p, (Fragment.read (.start required) l.text.toList {} {}).lexemes.getLast? = some ⟨t, p⟩)
    ∧ ∃ front gap, l.text.toList = front ++ (t.spell ++ gap) ∧ Gap true gap

/-- A text begins with a token, and so its first line with what there is of the token in front of
a line feed. -/
def BeginsWith (t : Token) (text : List Char) : Prop :=
  t.spell <+: text ∧ firstLine t.spell <+: firstLine text

theorem beginsWith_append (t : Token) (cs : List Char) : BeginsWith t (t.spell ++ cs) :=
  ⟨List.prefix_append _ _, firstLine_prefix_append _ _⟩

/-- What is to be read where a line leaves the grammar. -/
inductive Shows (required : Bool) (l : LogicalLine) (text : List Char) : ParseError.Cause → Prop
  | token {t : Token} : t.WellFormed → BeginsWith t text →
      Shows required l text (.unexpectedToken (String.ofList t.spell))
  | character {c : Char} : [c] <+: firstLine text → Shows required l text (.unexpectedCharacter c)
  | ending {t : Token} : l.IsLastToken required t → BeginsWith t text →
      Shows required l text .unexpectedEnd

/-- Of some lines, the first that is refused as a declaration. -/
def FirstRefused (required : Bool) (e : ReadError) (ls : List LogicalLine) (l : LogicalLine) :
    Prop :=
  ∃ passed below, ls = passed ++ l :: below ∧ (∀ m ∈ passed, ∃ d, m.declaration required = .ok d)
    ∧ l.declaration required = .error e

theorem FirstRefused.head {required : Bool} {e : ReadError} {l : LogicalLine}
    (refused : l.declaration required = .error e) (ls : List LogicalLine) :
    FirstRefused required e (l :: ls) l :=
  ⟨[], ls, rfl, List.forall_mem_nil _, refused⟩

theorem FirstRefused.behind {required : Bool} {e : ReadError} {ls : List LogicalLine}
    {l m : LogicalLine} {d : Declaration} (h : FirstRefused required e ls m)
    (read : l.declaration required = .ok d) : FirstRefused required e (l :: ls) m := by
  obtain ⟨passed, below, rfl, others, refused⟩ := h
  exact ⟨l :: passed, below, rfl, List.forall_mem_cons.2 ⟨⟨d, read⟩, others⟩, refused⟩

theorem FirstRefused.mem {required : Bool} {e : ReadError} {ls : List LogicalLine}
    {l : LogicalLine} (h : FirstRefused required e ls l) : l ∈ ls := by
  obtain ⟨passed, below, rfl, _⟩ := h
  exact List.mem_append_right passed List.mem_cons_self

theorem FirstRefused.declaration {required : Bool} {e : ReadError} {ls : List LogicalLine}
    {l : LogicalLine} (h : FirstRefused required e ls l) : l.declaration required = .error e := by
  obtain ⟨_, _, _, _, refused⟩ := h
  exact refused

/-- A document is refused for what it goes on with at a line and a column. The line is one of those
of the logical line that is at fault. -/
structure RefusedAt (required : Bool) (source : String) (e : ParseError) (l : LogicalLine)
    (line column : Nat) (text : List Char) : Prop where
  refused : FirstRefused required (.parse e) (split source).lines l
  onLine : e.line = some (line : Int)
  inColumn : e.column = some (column : Int)
  within : l.number ≤ line ∧ line ≤ l.lastNumber
  goesOn : GoesOn (physicalLines source.toList) line column text
  restAt : RestAt (physicalLines source.toList) line column (firstLine text)
  names : l.Shows required text e.cause

theorem RefusedAt.place_eq {required : Bool} {source : String} {e : ParseError} {l : LogicalLine}
    {line column : Nat} {text : List Char} (h : RefusedAt required source e l line column text)
    {line' column' : Nat} (onLine : e.line = some (line' : Int))
    (inColumn : e.column = some (column' : Int)) : line' = line ∧ column' = column :=
  ⟨Int.ofNat.inj (Option.some.inj (onLine.symm.trans h.onLine)),
    Int.ofNat.inj (Option.some.inj (inColumn.symm.trans h.inColumn))⟩

theorem exists_located {source : String} {l : LogicalLine} (h : l ∈ (split source).lines)
    {front rest : List Char} (whole : l.text.toList = front ++ rest) (cause : ParseError.Cause) :
    ∃ (line column : Nat) (behind : List Char),
      Fragment.Fault.toReadError.located l.number l.indent.length cause
            (({} : Position).after front)
          = .parse ⟨cause, some line, some column⟩
        ∧ (l.number ≤ line ∧ line ≤ l.lastNumber)
        ∧ GoesOn (physicalLines source.toList) line column (rest ++ behind) := by
  obtain ⟨last, behind, goesOn⟩ := exists_goesOn_of_mem_split h whole
  refine ⟨_, _, behind, ?_, ⟨Nat.le_add_right _ _, last⟩, goesOn⟩
  have line : (l.number : Int) + (({} : Position).after front).line - 1
      = (l.number + front.count '\n' : Nat) := by
    have onLine : (({} : Position).after front).line = 1 + front.count '\n' :=
      Position.line_after {} front
    omega
  rw [Fragment.Fault.toReadError.located, line]
  split <;> rfl

/-- A line that is refused for leaving the grammar is refused at a place where it does. -/
theorem exists_refusedAt {required : Bool} {source : String} {e : ParseError} {l : LogicalLine}
    (first : FirstRefused required (.parse e) (split source).lines l)
    (unexpected : e.cause.IsUnexpected) :
    ∃ line column text, RefusedAt required source e l line column text := by
  have shows {line column : Nat} {text : List Char}
      (goesOn : GoesOn (physicalLines source.toList) line column text) :=
    goesOn.restAt (physicalLines_ne_nil _) (no_lineFeed_of_mem_physicalLines _)
  have h : l ∈ (split source).lines := first.mem
  obtain ⟨fault, outcome, same⟩ :=
    fails_declaration_unexpected required l _ first.declaration unexpected
  obtain inside | ⟨_, _, gaps⟩ := Fragment.standsIn_of_read outcome
  · cases inside with
    | @token t front rest form whole =>
        obtain ⟨line, column, behind, located, within, goesOn⟩ :=
          exists_located h whole (.unexpectedToken (String.ofList t.spell))
        cases same.trans located
        rw [List.append_assoc] at goesOn
        exact ⟨line, column, _, first, rfl, rfl, within, goesOn, shows goesOn,
          .token form (beginsWith_append t _)⟩
    | @character c front rest other whole =>
        obtain ⟨line, column, behind, located, within, goesOn⟩ :=
          exists_located h whole (.unexpectedCharacter c)
        cases same.trans located
        refine ⟨line, column, _, first, rfl, rfl, within, goesOn, shows goesOn, .character ?_⟩
        rw [List.cons_append, firstLine_cons other]
        exact ⟨_, rfl⟩
    | @ending t front gap form gaps whole last =>
        obtain ⟨line, column, behind, located, within, goesOn⟩ :=
          exists_located h whole .unexpectedEnd
        cases same.trans located
        rw [List.append_assoc] at goesOn
        exact ⟨line, column, _, first, rfl, rfl, within, goesOn, shows goesOn,
          .ending ⟨form, ⟨_, last⟩, front, gap, whole, gaps⟩ (beginsWith_append t _)⟩
  · exact absurd gaps (not_gap_of_mem_split h)

end LogicalLine

theorem Stylesheet.exists_firstRefused {ls : List LogicalLine} {e : ReadError}
    (h : ls.mapM rule = .error e) : ∃ l, FirstRefused true e ls l := by
  induction ls with
  | nil => cases h
  | cons l ls ih =>
      rw [List.mapM_cons, rule] at h
      cases read : l.declaration true with
      | error e' =>
          rw [read] at h
          cases h
          exact ⟨l, .head read ls⟩
      | ok d =>
          rw [read] at h
          cases others : ls.mapM rule with
          | error e' =>
              rw [others] at h
              cases h
              obtain ⟨m, first⟩ := ih others
              exact ⟨m, first.behind read⟩
          | ok rules =>
              rw [others] at h
              cases h

namespace Template

/-- Of what a template may be refused for at a line, only the declaration is of the grammar. -/
theorem fails_step_ofGrammar (before : Option Nesting) (l : LogicalLine) :
    Fails (fun e => e.IsOfGrammar → l.declaration false = .error e) (step before l) := by
  refine Fails.bind (Fails.mapError fun e failed => ?_) fun depth => ?_
  · rw [depth] at failed
    split at failed <;> cases failed
    rintro ⟨⟩
  · refine Fails.bind (fun e failed _ => failed) fun d => ?_
    refine Fails.bind (Fails.mapError fun e failed => ?_) fun _ => fails_pure _
    cases before with
    | none =>
        simp only [place] at failed
        split at failed <;> cases failed
        rintro ⟨⟩
    | some p =>
        simp only [place] at failed
        split at failed
        · cases failed
          rintro ⟨⟩
        · split at failed <;> cases failed
          rintro ⟨⟩

theorem exists_firstRefused {before : Option Nesting} {ls : List LogicalLine} {e : ReadError}
    (h : entries before ls = .error e) (grammar : e.IsOfGrammar) :
    ∃ l, FirstRefused false e ls l := by
  induction ls generalizing before with
  | nil => cases h
  | cons l ls ih =>
      rw [entries_cons] at h
      cases stepped : step before l with
      | error e' =>
          rw [stepped] at h
          cases h
          exact ⟨l, .head (fails_step_ofGrammar before l e stepped grammar) ls⟩
      | ok read =>
          rw [stepped] at h
          cases others : entries (some read.2) ls with
          | error e' =>
              change (entries (some read.2) ls >>= _) = _ at h
              rw [others] at h
              cases h
              simp only [step, bind_eq_ok_iff] at stepped
              obtain ⟨_, _, d, declared, _⟩ := stepped
              obtain ⟨m, first⟩ := ih others
              exact ⟨m, first.behind declared⟩
          | ok es =>
              change (entries (some read.2) ls >>= _) = _ at h
              rw [others] at h
              cases h

end Template

/-- Where a document is refused for leaving the grammar, the error names the line and the column of
what is unexpected there, and this is the first of its lines that cannot be read. -/
theorem ParseError.refusedAt_of_parse (source : String) :
    (∀ e, Component.parse source = .error (.parse e) → e.cause.IsUnexpected →
        ∃ l line column text, RefusedAt false source e l line column text)
      ∧ ∀ name e, Stylesheet.parse source name = .error (.parse e) → e.cause.IsUnexpected →
        ∃ l line column text, RefusedAt true source e l line column text := by
  constructor
  · intro e refused unexpected
    obtain fault | ⟨_, _, ⟨_, _, same⟩ | ⟨_, _, same⟩⟩ := Component.error_cases refused
    · obtain ⟨l, first⟩ := Template.exists_firstRefused fault unexpected.isOfGrammar
      exact ⟨l, exists_refusedAt first unexpected⟩
    · cases same
      exact unexpected.elim
    · cases same
      exact unexpected.elim
  · intro name e refused unexpected
    obtain fault | ⟨_, _, same⟩ := Stylesheet.error_cases refused
    · obtain ⟨l, first⟩ := Stylesheet.exists_firstRefused fault
      exact ⟨l, exists_refusedAt first unexpected⟩
    · cases same
      exact unexpected.elim

/-- A character on a later line of a block that is indented, a token that goes on over the end of
its line, and a rule behind a tab that ends with its name. -/
theorem ParseError.refusedAt_of_parse_indented :
    let block := "a\n    b \x7b\n  k: 1,\n  %\n\x7d"
    let twoLines := "a \x7b k: ?\x7bx\n\x7d \x7d"
    let rule := "\tb // c"
    let e : ParseError := ⟨.unexpectedCharacter '%', some 4, some 3⟩
    let e' : ParseError := ⟨.unexpectedToken "?\x7bx\n\x7d", some 1, some 8⟩
    let e'' : ParseError := ⟨.unexpectedEnd, some 1, some 2⟩
    (Component.parse block = .error (.parse e) ∧ ∃ l text, RefusedAt false block e l 4 3 text)
      ∧ (Component.parse twoLines = .error (.parse e')
        ∧ ∃ l text, RefusedAt false twoLines e' l 1 8 text)
      ∧ Stylesheet.parse rule "s" = .error (.parse e'')
        ∧ ∃ l text, RefusedAt true rule e'' l 1 2 text := by
  intro block twoLines rule e e' e''
  have inBlock : Component.parse block = .error (.parse e) := by cbv
  have inToken : Component.parse twoLines = .error (.parse e') := by cbv
  have atEnd : Stylesheet.parse rule "s" = .error (.parse e'') := by cbv
  obtain ⟨l, line, column, text, found⟩ := (refusedAt_of_parse _).1 _ inBlock trivial
  obtain ⟨l', line', column', text', found'⟩ := (refusedAt_of_parse _).1 _ inToken trivial
  obtain ⟨l'', line'', column'', text'', found''⟩ := (refusedAt_of_parse _).2 _ _ atEnd trivial
  have place : 4 = line ∧ 3 = column := found.place_eq rfl rfl
  have place' : 1 = line' ∧ 8 = column' := found'.place_eq rfl rfl
  have place'' : 1 = line'' ∧ 2 = column'' := found''.place_eq rfl rfl
  obtain ⟨rfl, rfl⟩ := place
  obtain ⟨rfl, rfl⟩ := place'
  obtain ⟨rfl, rfl⟩ := place''
  exact ⟨⟨inBlock, l, text, found⟩, ⟨inToken, l', text', found'⟩, atEnd, l'', text'', found''⟩

end MarkupCascade
