import MarkupCascade.Proofs.Gathering
import MarkupCascade.Template

/-!
Markup that stands further down. Where a logical line begins some lines later, all that is read from
it stands as many lines later, and so does the fault it is refused for. Nothing else changes.
-/

namespace MarkupCascade

open Outcome

def Attribute.movedBy (k : Nat) (a : Attribute) : Attribute := { a with line := a.line + k }

def Declaration.movedBy (k : Nat) (d : Declaration) : Declaration :=
  { d with attributes := d.attributes.map (·.movedBy k) }

def StyleRule.movedBy (k : Nat) (r : StyleRule) : StyleRule :=
  { r with attributes := r.attributes.map (·.movedBy k), line := r.line + k }

def ParseError.movedBy (k : Nat) (e : ParseError) : ParseError :=
  { e with line := e.line.map (· + (k : Int)) }

def ReadError.movedBy (k : Nat) : ReadError → ReadError
  | .parse e => .parse (e.movedBy k)
  | .oversized o => .oversized o

namespace Attribute

theorem firstRepeated?_go_movedBy (k : Nat) (seen : List String) (attributes : List Attribute) :
    firstRepeated?.go seen (attributes.map (·.movedBy k))
      = (firstRepeated?.go seen attributes).map (·.movedBy k) := by
  induction attributes generalizing seen with
  | nil => rfl
  | cons a attributes ih =>
      rw [List.map_cons, firstRepeated?.go, firstRepeated?.go, ih, ih, apply_ite (Option.map _),
        apply_ite (Option.map _)]
      rfl

theorem firstRepeated?_movedBy (k : Nat) (attributes : List Attribute) :
    firstRepeated? (attributes.map (·.movedBy k)) = (firstRepeated? attributes).map (·.movedBy k) :=
  firstRepeated?_go_movedBy k [] attributes

theorem mem_of_firstRepeated?_go {seen : List String} {attributes : List Attribute} {a : Attribute}
    (h : firstRepeated?.go seen attributes = some a) : a ∈ attributes := by
  induction attributes generalizing seen with
  | nil => cases h
  | cons b attributes ih =>
      rw [firstRepeated?.go] at h
      split at h
      · exact List.mem_cons_of_mem b (ih h)
      · split at h
        · cases h
          exact List.mem_cons_self
        · exact List.mem_cons_of_mem b (ih h)

/-- An attribute that stands behind the beginning of its owner has a line of its own. -/
theorem lineOr_eq_line {a : Attribute} {owner : Nat} (h : owner ≤ a.line) :
    a.lineOr owner = a.line := by
  rw [lineOr]
  split
  · omega
  · rfl

end Attribute

theorem Fragment.Fault.toReadError_movedBy (k : Nat) (line indent : Int) (fault : Fault) :
    fault.toReadError (line + k) indent = (fault.toReadError line indent).movedBy k := by
  have further (p : Position) : line + k + p.line - 1 = line + p.line - 1 + k := by omega
  cases fault <;>
    simp [toReadError, toReadError.located, ReadError.movedBy, ParseError.movedBy, further]

theorem Declaration.parse_movedBy (k : Nat) (required : Bool) (text : String) (line indent : Int) :
    Declaration.parse required text (line + k) indent
      = bimap (·.movedBy k) (·.movedBy k) (Declaration.parse required text line indent) := by
  rw [Declaration.parse, Declaration.parse]
  cases Fragment.parse (.start required) text.toList with
  | error fault => exact congrArg Except.error (fault.toReadError_movedBy k line indent)
  | ok d =>
      have further (a : Attribute) : line + k + a.line - 1 = line + a.line - 1 + k := by omega
      refine congrArg Except.ok ?_
      simp [Declaration.movedBy, Attribute.movedBy, further, Function.comp_def]

theorem Declaration.le_line_of_parse {required : Bool} {text : String} {line indent : Int}
    {d : Declaration} (h : Declaration.parse required text line indent = .ok d) :
    ∀ a ∈ d.attributes, line ≤ a.line :=
  fun _ ha => (List.pairwise_cons.1 (lines_of_parse h).1).1 _ (List.mem_map_of_mem ha)

namespace LogicalLine

theorem declaration_movedBy (k : Nat) (required : Bool) (l : LogicalLine) :
    (l.movedBy k).declaration required
      = bimap (·.movedBy k) (·.movedBy k) (l.declaration required) := by
  have parsed : Declaration.parse required l.text ((l.number + k : Nat) : Int) l.indent.length
      = bimap (·.movedBy k) (·.movedBy k)
          (Declaration.parse required l.text l.number l.indent.length) :=
    Declaration.parse_movedBy k required l.text l.number l.indent.length
  rw [declaration, declaration, movedBy, parsed]
  refine (bimap_bind fun d read => ?_).symm
  rw [Declaration.movedBy, Attribute.firstRepeated?_movedBy]
  cases repeated : Attribute.firstRepeated? d.attributes with
  | none => rfl
  | some a =>
      have low := Declaration.le_line_of_parse read a (Attribute.mem_of_firstRepeated?_go repeated)
      have further : ((l.number + k : Nat) : Int) ≤ a.line + k := by omega
      rw [Option.map_some]
      dsimp only
      rw [Attribute.lineOr_eq_line low, Attribute.lineOr_eq_line (a := a.movedBy k) further]
      rfl

end LogicalLine

theorem Stylesheet.rule_movedBy (k : Nat) (l : LogicalLine) :
    rule (l.movedBy k) = bimap (·.movedBy k) (·.movedBy k) (rule l) := by
  rw [rule, rule, l.declaration_movedBy]
  refine (bimap_bind fun d _ => ?_).symm
  refine congrArg Except.ok ?_
  simp [Declaration.movedBy, StyleRule.movedBy, LogicalLine.movedBy]

end MarkupCascade
