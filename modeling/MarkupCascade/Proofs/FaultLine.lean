import MarkupCascade.Proofs.Moved

/-!
On which line a fault is reported. A fault that is found in a logical line is reported on a line
that is no earlier than that one. So what comes first in a document is reported first, and only
where there are no components at all is the fault on no line.
-/

namespace MarkupCascade

open Outcome

namespace Fragment

/-- Where a fault is, unless it has no place. -/
def Fault.place? : Fault → Option Position
  | .unexpectedToken l => some l.start
  | .unexpectedCharacter _ start => some start
  | .unexpectedEnd last => some last
  | .outOfRange _ start => some start
  | .oversized _ => none

/-- The fault stands on the given line or on a later one. -/
def Fault.From (line : Nat) (fault : Fault) : Prop := ∀ p ∈ fault.place?, line ≤ p.line

variable {f : Form}

theorem fails_outcome_read (s : Stage f) (cs : List Char) (here last : Position) {line : Nat}
    (low : line ≤ here.line) (low' : line ≤ last.line) :
    Fails (Fault.From line) (read s cs here last).outcome := by
  fun_induction read s cs here last with
  | case1 => rintro _ ⟨⟩
  | case2 s cs here last gap _ _ =>
      rintro _ ⟨⟩
      simpa [Fault.From, Fault.place?] using low'
  | case3 s cs here last gap c rest _ start _ =>
      rintro _ ⟨⟩
      simpa [Fault.From, Fault.place?] using low.trans (here.line_le_after gap)
  | case4 s cs here last gap c rest _ start t rest' _ _ =>
      rintro _ ⟨⟩
      simpa [Fault.From, Fault.place?] using low.trans (here.line_le_after gap)
  | case5 s cs here last gap c rest _ start t rest' _ s' _ reading ih =>
      have begins : line ≤ start.line := low.trans (here.line_le_after gap)
      exact ih (begins.trans (start.line_le_after t.spell)) begins

/-- A number is too long, or it is out of range where it stands. -/
theorem cases_of_numberFault? {isPercentage negative : Bool} {digits : List Char}
    {start : Position} {fault : Fault}
    (h : numberFault? isPercentage negative digits start = some fault) :
    (∃ o, fault = .oversized o) ∨ ∃ literal, fault = .outOfRange literal start := by
  simp only [numberFault?] at h
  split at h
  · cases h
    exact .inl ⟨_, rfl⟩
  · split at h <;> cases h
    exact .inr ⟨_, rfl⟩

theorem cases_of_fault? {l : Lexeme} {fault : Fault} (h : l.fault? = some fault) :
    (∃ o, fault = .oversized o) ∨ ∃ literal, fault = .outOfRange literal l.start := by
  obtain ⟨t, start⟩ := l
  cases t with
  | integer _ _ | percentage _ _ => exact cases_of_numberFault? h
  | _ => cases h

/-- The fault of a number stands where the number does. -/
theorem place?_of_fault? {l : Lexeme} {fault : Fault} (h : l.fault? = some fault) :
    ∀ p ∈ fault.place?, p = l.start := by
  obtain ⟨o, rfl⟩ | ⟨literal, rfl⟩ := cases_of_fault? h
  · rintro _ ⟨⟩
  · rintro _ ⟨⟩
    rfl

/-- A text is refused for leaving the grammar, or for a number in it. -/
theorem exists_of_parse_eq_error {s : Stage f} {cs : List Char} {fault : Fault}
    (h : parse s cs = .error fault) :
    (read s cs {} {}).outcome = .error fault
      ∨ ∃ ls l, Spread {} ls cs ∧ l ∈ ls ∧ l.fault? = some fault := by
  rw [parse, Reading.result] at h
  split at h
  · rename_i outcome
    cases h
    exact .inl outcome
  · rename_i result outcome
    split at h
    · rename_i found
      cases h
      obtain ⟨l, hl, faulty⟩ := List.exists_of_findSome?_eq_some found
      obtain ⟨spread, _⟩ := (read_eq_ok_iff {}).1 (congrArg (Reading.mk _) outcome)
      exact .inr ⟨_, l, spread, hl, faulty⟩
    · cases h

theorem fails_parse (s : Stage f) (cs : List Char) : Fails (Fault.From 1) (parse s cs) := by
  intro fault failed
  obtain outcome | ⟨ls, l, spread, hl, faulty⟩ := exists_of_parse_eq_error failed
  · exact fails_outcome_read s cs {} {} (Nat.le_refl 1) (Nat.le_refl 1) _ outcome
  · intro p hp
    rw [place?_of_fault? faulty p hp]
    exact (spread.line_bounds l hl).1

end Fragment

/-- The fault is reported on the given line or on a later one, and will not go away whatever stands
behind. -/
def ReadError.From (line : Int) : ReadError → Prop
  | .parse e => (e.cause.rule ≠ .closedBlock ∧ e.cause.rule ≠ .someRoot)
      ∧ ∃ found, e.line = some found ∧ line ≤ found
  | .oversized _ => True

theorem ReadError.from_anti {line line' : Int} (h : line ≤ line') :
    ∀ e, From line' e → From line e
  | .parse _, given => ⟨given.1, given.2.imp fun _ found => ⟨found.1, Int.le_trans h found.2⟩⟩
  | .oversized _, _ => trivial

theorem Fragment.Fault.From.toReadError {fault : Fault} (h : fault.From 1) (line indent : Int) :
    (fault.toReadError line indent).From line := by
  cases fault with
  | oversized o => trivial
  | _ =>
      have low := h _ rfl
      refine ⟨⟨nofun, nofun⟩, _, rfl, ?_⟩
      omega

theorem Declaration.fails_from (required : Bool) (text : String) (line indent : Int) :
    Fails (ReadError.From line) (Declaration.parse required text line indent) := by
  refine Fails.bind (Fails.mapError ?_) fun _ => fails_pure _
  exact (Fragment.fails_parse _ _).imp fun fault h => h.toReadError line indent

namespace LogicalLine

theorem fails_declaration_from (required : Bool) (l : LogicalLine) :
    Fails (ReadError.From l.number) (l.declaration required) := by
  refine (Declaration.fails_from required l.text _ _).bind_of_ok fun d read => ?_
  split
  · rename_i a repeated
    have low := Declaration.le_line_of_parse read a (Attribute.mem_of_firstRepeated?_go repeated)
    refine fails_throw ⟨⟨nofun, nofun⟩, _, rfl, ?_⟩
    rwa [Attribute.lineOr_eq_line low]
  · exact fails_pure d

theorem fails_depth_from (l : LogicalLine) :
    Fails (ReadError.From l.number) (l.depth.mapError .parse) := by
  refine Fails.mapError fun e failed => ?_
  rw [depth] at failed
  split at failed <;> cases failed
  refine ⟨?_, _, rfl, Int.le_refl _⟩
  constructor <;> rintro ⟨⟩

end LogicalLine

theorem Stylesheet.fails_rule_from (l : LogicalLine) :
    Fails (ReadError.From l.number) (rule l) :=
  (l.fails_declaration_from true).bind fun _ => fails_pure _

namespace Template

theorem fails_place_from (before : Option Nesting) (e : Entry) :
    Fails (ReadError.From e.line) ((place before e).mapError .parse) := by
  refine Fails.mapError fun fault failed => ?_
  cases before with
  | none =>
      simp only [place] at failed
      split at failed <;> cases failed
      exact ⟨⟨nofun, nofun⟩, _, rfl, Int.le_refl _⟩
  | some p =>
      simp only [place] at failed
      split at failed
      · cases failed
        exact ⟨⟨nofun, nofun⟩, _, rfl, Int.le_refl _⟩
      · split at failed <;> cases failed
        exact ⟨⟨nofun, nofun⟩, _, rfl, Int.le_refl _⟩

/-- Reads a line and finds a place for what it says. -/
def step (before : Option Nesting) (l : LogicalLine) : Except ReadError (Entry × Nesting) := do
  let depth ← l.depth.mapError .parse
  let declaration ← l.declaration false
  let e : Entry := ⟨depth, l.number, declaration⟩
  let here ← (place before e).mapError .parse
  return (e, here)

theorem entries_cons (before : Option Nesting) (l : LogicalLine) (ls : List LogicalLine) :
    entries before (l :: ls) = (do
      let (e, here) ← step before l
      let others ← entries (some here) ls
      return e :: others) := by
  simp only [entries, step, bind_assoc, pure_bind]

theorem fails_step_from (before : Option Nesting) (l : LogicalLine) :
    Fails (ReadError.From l.number) (step before l) := by
  refine l.fails_depth_from.bind fun depth => ?_
  refine (l.fails_declaration_from false).bind fun d => ?_
  exact (fails_place_from before _).bind fun _ => fails_pure _

theorem fails_entries_from {first : Int} {ls : List LogicalLine}
    (low : ∀ l ∈ ls, first ≤ l.number) (before : Option Nesting) :
    Fails (ReadError.From first) (entries before ls) := by
  induction ls generalizing before with
  | nil => exact fails_pure []
  | cons l ls ih =>
      obtain ⟨here, others⟩ := List.forall_mem_cons.1 low
      rw [entries_cons]
      refine ((fails_step_from before l).imp (ReadError.from_anti here)).bind fun read => ?_
      exact (ih others (some read.2)).bind fun _ => fails_pure _

end Template

end MarkupCascade
