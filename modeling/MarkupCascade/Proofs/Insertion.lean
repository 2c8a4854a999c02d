import MarkupCascade.Proofs.FaultPlace

/-!
Markup between whose lines others are put in. What is read from a logical line in front of them
stays where it is, what is read from one behind them stands as many lines further down, and so do
the faults for which a line is refused. Where a component belongs does not depend on the number of
its line.
-/

namespace MarkupCascade

open Outcome

/-- The number of a line when `k` lines have been put in behind the first `n`. -/
def numberBelow (n k number : Nat) : Nat := if number ≤ n then number else number + k

/-- The same for the lines of nodes, attributes and errors. -/
def lineBelow (n k : Nat) (line : Int) : Int := if line ≤ n then line else line + k

theorem numberBelow_of_le {n number : Nat} (h : number ≤ n) (k : Nat) :
    numberBelow n k number = number :=
  if_pos h

theorem numberBelow_of_lt {n number : Nat} (h : n < number) (k : Nat) :
    numberBelow n k number = number + k :=
  if_neg (by omega)

theorem lineBelow_of_le {n : Nat} {line : Int} (h : line ≤ n) (k : Nat) :
    lineBelow n k line = line :=
  if_pos h

theorem lineBelow_of_lt {n : Nat} {line : Int} (h : n < line) (k : Nat) :
    lineBelow n k line = line + k :=
  if_neg (by omega)

theorem natCast_numberBelow (n k number : Nat) :
    (numberBelow n k number : Int) = lineBelow n k number := by
  obtain below | above := Nat.lt_or_ge n number
  · rw [numberBelow_of_lt below, lineBelow_of_lt (by omega), Int.natCast_add]
  · rw [numberBelow_of_le above, lineBelow_of_le (by omega)]

variable (n k : Nat)

def Attribute.movedBelow (a : Attribute) : Attribute := { a with line := lineBelow n k a.line }

def Declaration.movedBelow (d : Declaration) : Declaration :=
  { d with attributes := d.attributes.map (·.movedBelow n k) }

mutual

def Component.movedBelow : Component → Component
  | .node className line attributes children =>
    .node className (lineBelow n k line) (attributes.map (·.movedBelow n k))
      (Component.allMovedBelow children)

def Component.allMovedBelow : List Component → List Component
  | [] => []
  | c :: cs => Component.movedBelow c :: Component.allMovedBelow cs

end

/-- The message about a second root quotes the line of the first. -/
def ParseError.Cause.movedBelow : ParseError.Cause → ParseError.Cause
  | .secondRoot className rootName rootLine =>
    .secondRoot className rootName (lineBelow n k rootLine)
  | cause => cause

def ParseError.movedBelow (e : ParseError) : ParseError :=
  { e with cause := e.cause.movedBelow n k, line := e.line.map (lineBelow n k) }

def ReadError.movedBelow : ReadError → ReadError
  | .parse e => .parse (e.movedBelow n k)
  | .oversized o => .oversized o

/-! What stands on one side of the lines that are put in. -/

/-- The fault is that of a line from a first to a last, and not that it is a second root. -/
def ReadError.Within (first last : Int) : ReadError → Prop
  | .parse e => e.cause.rule ≠ .singleRoot ∧ ∃ line, e.line = some line ∧ first ≤ line ∧ line ≤ last
  | .oversized _ => True

namespace Fragment

variable {f : Form}

/-- No fault stands below the text. -/
theorem fails_parse_upTo (s : Stage f) (cs : List Char) :
    Fails (fun fault => ∀ p ∈ fault.place?, p.line ≤ 1 + cs.count '\n') (parse s cs) := by
  intro fault failed
  have last : (({} : Position).after cs).line = 1 + cs.count '\n' := Position.line_after {} cs
  rw [← last]
  obtain outcome | ⟨ls, l, spread, hl, faulty⟩ := exists_of_parse_eq_error failed
  · obtain inside | ⟨rfl, _, _⟩ := standsIn_of_read outcome
    · exact inside.line_le
    · rintro _ ⟨⟩
      exact Position.line_le_after {} cs
  · intro p hp
    rw [place?_of_fault? faulty p hp]
    exact (spread.line_bounds l hl).2

theorem Fault.within_toReadError {fault : Fault} {last : Nat} (low : fault.From 1)
    (high : ∀ p ∈ fault.place?, p.line ≤ 1 + last) (line indent : Int) :
    (fault.toReadError line indent).Within line (line + last) := by
  cases fault with
  | oversized o => trivial
  | _ =>
      have low := low _ rfl
      have high := high _ rfl
      refine ⟨nofun, _, rfl, ?_, ?_⟩ <;> omega

end Fragment

namespace LogicalLine

theorem fails_declaration_within (required : Bool) (l : LogicalLine) :
    Fails (ReadError.Within l.number l.lastNumber) (l.declaration required) := by
  have parsed : Fails (ReadError.Within l.number l.lastNumber)
      (Declaration.parse required l.text l.number l.indent.length) := by
    refine Fails.bind (Fails.mapError fun fault failed => ?_) fun _ => fails_pure _
    exact Fragment.Fault.within_toReadError (Fragment.fails_parse _ _ fault failed)
      (Fragment.fails_parse_upTo _ _ fault failed) _ _
  refine parsed.bind_of_ok fun d read => ?_
  split
  · rename_i a repeated
    have ha := Attribute.mem_of_firstRepeated?_go repeated
    have low := Declaration.le_line_of_parse read a ha
    have high := (Declaration.lines_of_parse read).2 a ha
    refine fails_throw ⟨nofun, _, rfl, ?_⟩
    rw [Attribute.lineOr_eq_line low]
    exact ⟨low, high⟩
  · exact fails_pure d

theorem lines_of_declaration {required : Bool} {l : LogicalLine} {d : Declaration}
    (h : l.declaration required = .ok d) :
    ∀ a ∈ d.attributes, (l.number : Int) ≤ a.line ∧ a.line ≤ l.lastNumber := by
  obtain ⟨parsed, _⟩ := declaration_eq_ok_iff.1 h
  exact fun a ha =>
    ⟨Declaration.le_line_of_parse parsed a ha, (Declaration.lines_of_parse parsed).2 a ha⟩

end LogicalLine

variable {n k}

theorem ParseError.Cause.movedBelow_eq {cause : ParseError.Cause} (h : cause.rule ≠ .singleRoot) :
    cause.movedBelow n k = cause := by
  cases cause with
  | secondRoot _ _ _ => exact absurd rfl h
  | _ => rfl

theorem ReadError.Within.movedBelow_of_le {first last : Int} {e : ReadError}
    (h : e.Within first last) (above : last ≤ n) : e.movedBelow n k = e := by
  cases e with
  | oversized o => rfl
  | parse e =>
      obtain ⟨cause, line, column⟩ := e
      obtain ⟨other, line, rfl, _, high⟩ := h
      have kept := lineBelow_of_le (Int.le_trans high above) k
      have same := @ParseError.Cause.movedBelow_eq n k cause other
      simp only [movedBelow, ParseError.movedBelow, same, Option.map_some, kept]

theorem ReadError.Within.movedBelow_of_lt {first last : Int} {e : ReadError}
    (h : e.Within first last) (below : n < first) : e.movedBelow n k = e.movedBy k := by
  cases e with
  | oversized o => rfl
  | parse e =>
      obtain ⟨cause, line, column⟩ := e
      obtain ⟨other, line, rfl, low, _⟩ := h
      have moved := lineBelow_of_lt (Int.lt_of_lt_of_le below low) k
      have same := @ParseError.Cause.movedBelow_eq n k cause other
      simp only [movedBelow, movedBy, ParseError.movedBelow, ParseError.movedBy, same,
        Option.map_some, moved]

theorem Declaration.movedBelow_of_le {d : Declaration} (h : ∀ a ∈ d.attributes, a.line ≤ n) :
    d.movedBelow n k = d := by
  have each : ∀ a ∈ d.attributes, a.movedBelow n k = a := fun a ha => by
    rw [Attribute.movedBelow, lineBelow_of_le (h a ha)]
  rw [movedBelow, List.map_congr_left each, List.map_id']

theorem Declaration.movedBelow_of_lt {d : Declaration} (h : ∀ a ∈ d.attributes, n < a.line) :
    d.movedBelow n k = d.movedBy k := by
  have each : ∀ a ∈ d.attributes, a.movedBelow n k = a.movedBy k := fun a ha => by
    rw [Attribute.movedBelow, lineBelow_of_lt (h a ha), Attribute.movedBy]
  rw [movedBelow, movedBy, List.map_congr_left each]

namespace LogicalLine

def movedBelow (n k : Nat) (l : LogicalLine) : LogicalLine :=
  { l with number := numberBelow n k l.number }

/-- The first `n` lines of a document end in front of it or behind it. -/
def Clear (n : Nat) (l : LogicalLine) : Prop := l.lastNumber ≤ n ∨ n < l.number

theorem movedBelow_of_le {l : LogicalLine} (h : l.lastNumber ≤ n) (k : Nat) :
    l.movedBelow n k = l := by
  have first : l.number ≤ n := Nat.le_trans (Nat.le_add_right _ _) h
  rw [movedBelow, numberBelow_of_le first]

theorem movedBelow_of_lt {l : LogicalLine} (h : n < l.number) (k : Nat) :
    l.movedBelow n k = l.movedBy k := by
  rw [movedBelow, numberBelow_of_lt h, movedBy]

theorem declaration_movedBelow {l : LogicalLine} (clear : l.Clear n) (required : Bool) :
    (l.movedBelow n k).declaration required
      = bimap (·.movedBelow n k) (·.movedBelow n k) (l.declaration required) := by
  have failed := l.fails_declaration_within required
  obtain above | below := clear
  · have kept : bimap (·.movedBelow n k) (·.movedBelow n k) (l.declaration required)
        = bimap id id (l.declaration required) := by
      refine bimap_congr (fun e h => (failed e h).movedBelow_of_le (by omega)) fun d h => ?_
      refine Declaration.movedBelow_of_le fun a ha => ?_
      have := (lines_of_declaration h a ha).2
      omega
    rw [kept, bimap_id, movedBelow_of_le above]
  · have moved : bimap (·.movedBelow n k) (·.movedBelow n k) (l.declaration required)
        = bimap (·.movedBy k) (·.movedBy k) (l.declaration required) := by
      refine bimap_congr (fun e h => (failed e h).movedBelow_of_lt (by omega)) fun d h => ?_
      refine Declaration.movedBelow_of_lt fun a ha => ?_
      have := (lines_of_declaration h a ha).1
      omega
    rw [moved, ← declaration_movedBy, movedBelow_of_lt below]

theorem depth_movedBelow (n k : Nat) (l : LogicalLine) :
    (l.movedBelow n k).depth.mapError .parse
      = bimap (·.movedBelow n k) id (l.depth.mapError ReadError.parse) := by
  obtain ⟨number, indent, text⟩ := l
  simp only [depth, movedBelow, natCast_numberBelow]
  split <;> rfl

end LogicalLine

namespace Template

def Entry.movedBelow (n k : Nat) (e : Entry) : Entry :=
  { e with line := numberBelow n k e.line, declaration := e.declaration.movedBelow n k }

def Nesting.movedBelow (n k : Nat) (p : Nesting) : Nesting :=
  { p with rootLine := numberBelow n k p.rootLine }

theorem place_movedBelow (n k : Nat) (before : Option Nesting) (e : Entry) :
    (place (before.map (·.movedBelow n k)) (e.movedBelow n k)).mapError .parse
      = bimap (·.movedBelow n k) (·.movedBelow n k)
          ((place before e).mapError ReadError.parse) := by
  cases before with
  | none =>
      dsimp only [place, Option.map_none, Entry.movedBelow]
      rw [natCast_numberBelow]
      split <;> rfl
  | some p =>
      dsimp only [place, Option.map_some, Entry.movedBelow, Nesting.movedBelow]
      rw [natCast_numberBelow, natCast_numberBelow]
      split
      · rfl
      · split <;> rfl

theorem step_movedBelow {l : LogicalLine} (clear : l.Clear n) (before : Option Nesting) :
    step (before.map (·.movedBelow n k)) (l.movedBelow n k)
      = bimap (·.movedBelow n k) (Prod.map (·.movedBelow n k) (·.movedBelow n k))
          (step before l) := by
  rw [step, step, l.depth_movedBelow, l.declaration_movedBelow clear]
  refine (bimap_bind fun depth _ => ?_).symm
  refine bimap_bind fun d _ => ?_
  let e : Entry := ⟨depth, l.number, d⟩
  change _ = (place (before.map (·.movedBelow n k)) (e.movedBelow n k)).mapError ReadError.parse
    >>= fun here => pure (e.movedBelow n k, here)
  rw [place_movedBelow]
  exact bimap_bind fun here _ => rfl

theorem entries_movedBelow {ls : List LogicalLine} (clear : ∀ l ∈ ls, l.Clear n)
    (before : Option Nesting) :
    entries (before.map (·.movedBelow n k)) (ls.map (·.movedBelow n k))
      = bimap (·.movedBelow n k) (List.map (·.movedBelow n k)) (entries before ls) := by
  induction ls generalizing before with
  | nil => rfl
  | cons l ls ih =>
      obtain ⟨first, others⟩ := List.forall_mem_cons.1 clear
      rw [List.map_cons, entries_cons, entries_cons, step_movedBelow first]
      refine (bimap_bind fun read _ => ?_).symm
      obtain ⟨e, here⟩ := read
      change _ = entries ((some here).map _) (ls.map _) >>= _
      rw [ih others (some here)]
      exact bimap_bind fun es _ => rfl

end Template

theorem Component.allMovedBelow_eq_map (n k : Nat) (cs : List Component) :
    allMovedBelow n k cs = cs.map (·.movedBelow n k) := by
  induction cs with
  | nil => rfl
  | cons c cs ih => rw [allMovedBelow, ih, List.map_cons]

namespace Template

/-- Which trees become children of an entry is a matter of their depths. -/
theorem graft_movedBelow (n k : Nat) (e : Entry) (forest : List (Nat × Component)) :
    graft (e.movedBelow n k) (forest.map (Prod.map id (·.movedBelow n k)))
      = (graft e forest).map (Prod.map id (·.movedBelow n k)) := by
  have same : deeper (e.movedBelow n k) ∘ Prod.map id (·.movedBelow n k) = deeper e := rfl
  rw [graft_eq, graft_eq, List.takeWhile_map, List.dropWhile_map, same, List.map_cons, Prod.map,
    Component.movedBelow, Component.allMovedBelow_eq_map, List.map_map, List.map_map,
    ← natCast_numberBelow]
  rfl

theorem root?_movedBelow (n k : Nat) (es : List Entry) :
    root? (es.map (·.movedBelow n k)) = (root? es).map (·.movedBelow n k) := by
  have forest : (es.map (·.movedBelow n k)).foldr graft []
      = (es.foldr graft []).map (Prod.map id (·.movedBelow n k)) := by
    induction es with
    | nil => rfl
    | cons e es ih => rw [List.map_cons, List.foldr_cons, List.foldr_cons, ih, graft_movedBelow]
  rw [root?, root?, forest, List.head?_map, Option.map_map, Option.map_map]
  rfl

end Template

theorem ReadError.movedBelow_unclosed (n k number : Nat) :
    (unclosed number).movedBelow n k = unclosed (numberBelow n k number) := by
  rw [unclosed, unclosed, natCast_numberBelow]
  rfl

/-- The logical lines of a document between which lines are put in. -/
def LogicalLine.Split.movedBelow (n k : Nat) (s : Split) : Split :=
  ⟨s.lines.map (·.movedBelow n k), s.unclosed.map (numberBelow n k)⟩

theorem Component.parse_movedBelow {s t : String}
    (clear : ∀ l ∈ (LogicalLine.split s).lines, l.Clear n)
    (moved : LogicalLine.split t = (LogicalLine.split s).movedBelow n k) :
    Component.parse t
      = bimap (·.movedBelow n k) (·.movedBelow n k) (Component.parse s) := by
  have read := @Template.entries_movedBelow n k _ clear none
  rw [Component.parse, Component.parse, moved]
  change Template.entries none (List.map _ _) >>= _ = _
  rw [Option.map_none] at read
  rw [read]
  refine (bimap_bind fun es _ => ?_).symm
  dsimp only [LogicalLine.Split.movedBelow]
  rw [Template.root?_movedBelow]
  cases (LogicalLine.split s).unclosed with
  | some number => exact congrArg Except.error (ReadError.movedBelow_unclosed n k number)
  | none => cases Template.root? es <;> rfl

end MarkupCascade
