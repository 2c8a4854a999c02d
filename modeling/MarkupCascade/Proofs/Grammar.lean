import MarkupCascade.Fragment
import Mathlib.Logic.Basic

/-!
The grammar of fragments over tokens, and that the machine of stages accepts it. What a stage may
still be followed by is written down as `Demands`; the machine meets it from the last token
backwards.
-/

namespace MarkupCascade.Fragment

/-- Entries one after the other, a comma between two of them and perhaps one after the last. -/
inductive Series {α : Type} (Each : α → List Lexeme → Prop) : List α → List Lexeme → Prop
  | nil : Series Each [] []
  | last {a : α} {ls : List Lexeme} : Each a ls → Series Each [a] ls
  | cons {a : α} {as : List α} {ls others : List Lexeme} {p : Position} :
      Each a ls → Series Each as others → Series Each (a :: as) (ls ++ ⟨.comma, p⟩ :: others)

theorem Series.imp {α : Type} {P Q : α → List Lexeme → Prop} (h : ∀ a ls, P a ls → Q a ls)
    {as : List α} {ls : List Lexeme} (series : Series P as ls) : Series Q as ls := by
  induction series with
  | nil => exact .nil
  | last first => exact .last (h _ _ first)
  | cons first _ ih => exact .cons (h _ _ first) ih

theorem Series.map {α β : Type} {P : β → List Lexeme → Prop} (g : α → β) {as : List α}
    {ls : List Lexeme} (series : Series (fun a => P (g a)) as ls) : Series P (as.map g) ls := by
  induction series with
  | nil => exact .nil
  | last first => exact .last first
  | cons first _ ih => exact .cons first ih

theorem Series.exists_of_mem {α : Type} {Each : α → List Lexeme → Prop} {as : List α}
    {ls : List Lexeme} (series : Series Each as ls) {l : Lexeme} (hl : l ∈ ls) :
    l.token = .comma ∨ ∃ a ∈ as, ∃ own, Each a own ∧ l ∈ own := by
  induction series with
  | nil => simp at hl
  | @last a ls first => exact .inr ⟨a, List.mem_cons_self, ls, first, hl⟩
  | @cons a as ls others p first _ ih =>
      obtain inFirst | rfl | inOthers := by simpa using hl
      · exact .inr ⟨a, List.mem_cons_self, ls, first, inFirst⟩
      · exact .inl rfl
      · refine (ih inOthers).imp_right fun later => ?_
        obtain ⟨b, hb, own, each, inside⟩ := later
        exact ⟨b, List.mem_cons_of_mem a hb, own, each, inside⟩

theorem Series.exists_subset {α : Type} {Each : α → List Lexeme → Prop} {as : List α}
    {ls : List Lexeme} (series : Series Each as ls) :
    ∀ a ∈ as, ∃ own, Each a own ∧ own ⊆ ls := by
  induction series with
  | nil => simp
  | @last a ls first =>
      rw [List.forall_mem_singleton]
      exact ⟨ls, first, List.Subset.refl ls⟩
  | @cons a as ls others p first _ ih =>
      refine List.forall_mem_cons.2 ⟨⟨ls, first, List.subset_append_left _ _⟩, fun b hb => ?_⟩
      obtain ⟨own, each, inside⟩ := ih b hb
      exact ⟨own, each, fun l hl => List.mem_append_right _ (List.mem_cons_of_mem _ (inside hl))⟩

/-- The tokens of a value. -/
inductive ValueTokens : Value → List Lexeme → Prop
  | default {p : Position} : ValueTokens .default [⟨.default, p⟩]
  | string {body : List Char} {p : Position} :
      ValueTokens (.string (String.ofList (Value.unescape body))) [⟨.string body, p⟩]
  | float {negative : Bool} {whole fraction : List Char} {p : Position} :
      ValueTokens (.float (.ofDecimal negative (.ofDigits whole fraction)))
        [⟨.float negative whole fraction, p⟩]
  | percentage {negative : Bool} {digits : List Char} {p : Position} :
      ValueTokens (.percentage (integerOf negative digits)) [⟨.percentage negative digits, p⟩]
  | integer {negative : Bool} {digits : List Char} {p : Position} :
      ValueTokens (.integer (integerOf negative digits)) [⟨.integer negative digits, p⟩]
  | tuple {items : List Value} {ls : List Lexeme} {p q : Position} :
      Series ValueTokens items ls →
      ValueTokens (.tuple items) (⟨.openParen, p⟩ :: (ls ++ [⟨.closeParen, q⟩]))

theorem ValueTokens.of_valueOf? {t : Token} {v : Value} (h : valueOf? t = some v) (p : Position) :
    ValueTokens v [⟨t, p⟩] := by
  cases t <;> cases h
  · exact .default
  · exact .string
  · exact .float
  · exact .percentage
  · exact .integer

/-- A value is a single token, or a tuple whose items have the property in question. -/
theorem ValueTokens.induction {motive : Value → List Lexeme → Prop}
    (token : ∀ t v p, valueOf? t = some v → motive v [⟨t, p⟩])
    (tuple : ∀ items ls p q, Series motive items ls →
      motive (.tuple items) (⟨.openParen, p⟩ :: (ls ++ [⟨.closeParen, q⟩])))
    {v : Value} {ls : List Lexeme} (h : ValueTokens v ls) : motive v ls :=
  @ValueTokens.rec (fun v ls _ => motive v ls) (fun items ls _ => Series motive items ls)
    (token _ _ _ rfl) (token _ _ _ rfl) (token _ _ _ rfl) (token _ _ _ rfl) (token _ _ _ rfl)
    (fun _ ih => tuple _ _ _ _ ih) .nil (fun _ ih => .last ih) (fun _ _ ih ihs => .cons ih ihs)
    v ls h

/-- The tokens of an attribute, whose line is that of its key. -/
inductive AttributeTokens : Attribute → List Lexeme → Prop
  | plain {key : List Char} {v : Value} {ls : List Lexeme} {p q : Position} :
      ValueTokens v ls →
      AttributeTokens ⟨String.ofList key, v, none, p.line⟩ (⟨.name key, p⟩ :: ⟨.colon, q⟩ :: ls)
  | gated {key body : List Char} {v : Value} {ls : List Lexeme} {p q o : Position} :
      ValueTokens v ls →
      AttributeTokens ⟨String.ofList key, v, some (String.ofList (Text.strip body)), p.line⟩
        (⟨.name key, p⟩ :: ⟨.condition body, q⟩ :: ⟨.colon, o⟩ :: ls)

/-- The tokens of a declaration. -/
inductive DeclarationTokens (blockRequired : Bool) : Declaration → List Lexeme → Prop
  | name {className : List Char} {p : Position} :
      blockRequired = false →
      DeclarationTokens blockRequired ⟨String.ofList className, []⟩ [⟨.name className, p⟩]
  | block {className : List Char} {attributes : List Attribute} {ls : List Lexeme}
      {p q o : Position} :
      Series AttributeTokens attributes ls →
      DeclarationTokens blockRequired ⟨String.ofList className, attributes⟩
        (⟨.name className, p⟩ :: ⟨.openBrace, q⟩ :: (ls ++ [⟨.closeBrace, o⟩]))

variable {f : Form}

/-- The result of some tokens, if they lead from a stage to where a fragment may end. -/
def run (s : Stage f) : List Lexeme → Option f.Result
  | [] => s.result?
  | l :: ls => (s.next? l.token l.start.line).bind (run · ls)

theorem run_cons {s s' : Stage f} {l : Lexeme} (h : s.next? l.token l.start.line = some s')
    (ls : List Lexeme) : run s (l :: ls) = run s' ls := by
  rw [run, h, Option.bind_some]

/-! The tokens of a value lead from where it is due to where it is placed. -/

theorem run_value {v : Value} {ls : List Lexeme} (h : ValueTokens v ls) :
    ∀ (slot : Slot f) (tuples : List (List Value)) (rest : List Lexeme),
      run (.value slot tuples) (ls ++ rest) = run (.place slot tuples v) rest := by
  refine ValueTokens.induction (motive := fun v ls => ∀ slot tuples rest,
    run (.value slot tuples) (ls ++ rest) = run (.place slot tuples v) rest) ?_ ?_ h
  · intro t v p found slot tuples rest
    refine run_cons ?_ rest
    cases t <;> cases found <;> rfl
  · intro items ls p q series slot tuples rest
    -- The items that have been read, the latest first, are whatever the stage holds of the tuple.
    have close (done : List Value) :
        run (.value slot (done :: tuples)) (ls ++ ⟨.closeParen, q⟩ :: rest)
          = run (.place slot tuples (.tuple (done.reverse ++ items))) rest := by
      induction series generalizing done with
      | nil =>
          rw [List.append_nil]
          exact run_cons rfl rest
      | last first =>
          rw [first, ← List.reverse_cons]
          exact run_cons rfl rest
      | @cons v vs ls others p first _ ih =>
          rw [List.append_assoc, first, List.cons_append, Stage.place, run_cons rfl, ih,
            List.reverse_cons, ← List.append_cons]
    rw [List.cons_append, List.append_assoc, List.singleton_append, run_cons rfl]
    exact close []

theorem run_attribute {a : Attribute} {ls : List Lexeme} (h : AttributeTokens a ls) (b : Block)
    (rest : List Lexeme) : run (.key b) (ls ++ rest) = run (.entry (b.add a)) rest := by
  cases h with
  | plain value =>
      rw [List.cons_append, List.cons_append, run_cons rfl, run_cons rfl, run_value value]
      rfl
  | gated value =>
      rw [List.cons_append, List.cons_append, List.cons_append, run_cons rfl, run_cons rfl,
        run_cons rfl, run_value value]
      rfl

theorem run_attributes {attributes : List Attribute} {ls : List Lexeme}
    (h : Series AttributeTokens attributes ls) (b : Block) (o : Position) :
    run (.key b) (ls ++ [⟨.closeBrace, o⟩])
      = some ⟨b.className, b.attributes.reverse ++ attributes⟩ := by
  induction h generalizing b with
  | nil =>
      rw [List.append_nil]
      rfl
  | last first =>
      rw [run_attribute first, ← List.reverse_cons]
      rfl
  | @cons a _ _ _ _ first _ ih =>
      rw [List.append_assoc, run_attribute first, List.cons_append, run_cons rfl, ih]
      simp [Block.add]

theorem run_declaration {required : Bool} {d : Declaration} {ls : List Lexeme}
    (h : DeclarationTokens required d ls) : run (.start required) ls = some d := by
  cases h with
  | name optional =>
      subst optional
      rfl
  | block series =>
      rw [run_cons rfl, run_cons rfl]
      exact run_attributes series _ _

/-! What tokens a stage must be followed by, for it to lead to a result. -/

/-- What stands behind an entry and before the token that ends the series. -/
inductive Rest {α : Type} (Each : α → List Lexeme → Prop) : List α → List Lexeme → Prop
  | nil : Rest Each [] []
  | comma {as : List α} {ls : List Lexeme} {p : Position} :
      Series Each as ls → Rest Each as (⟨.comma, p⟩ :: ls)

theorem Rest.series {α : Type} {Each : α → List Lexeme → Prop} {a : α} {as : List α}
    {ls rest : List Lexeme} (first : Each a ls) (h : Rest Each as rest) :
    Series Each (a :: as) (ls ++ rest) := by
  cases h with
  | nil =>
      rw [List.append_nil]
      exact .last first
  | comma others => exact .cons first others

/-- The rest of a block up to its brace, with the declaration that it completes. -/
def EndsBlock (Tokens : List Attribute → List Lexeme → Prop) (b : Block) (ls : List Lexeme)
    (d : Declaration) : Prop :=
  ∃ attributes own o, ls = own ++ [⟨.closeBrace, o⟩] ∧ Tokens attributes own
    ∧ d = ⟨b.className, b.attributes.reverse ++ attributes⟩

/-- The rest of a tuple up to its parenthesis, and what follows the tuple. -/
def EndsTuple (Tokens : List Value → List Lexeme → Prop) (Next : Value → List Lexeme → Prop)
    (items : List Value) (ls : List Lexeme) : Prop :=
  ∃ others own q rest, ls = own ++ ⟨.closeParen, q⟩ :: rest ∧ Tokens others own
    ∧ Next (.tuple (items.reverse ++ others)) rest

/-- What follows a value: the rest of the tuples around it, from the inside out, and then of the
block. -/
def Follows : {f : Form} → Slot f → List (List Value) → Value → List Lexeme → f.Result → Prop
  | _, .whole, [], v, ls, r => ls = [] ∧ r = v
  | _, .entry b key condition line, [], v, ls, d =>
    EndsBlock (Rest AttributeTokens) (b.add ⟨key, v, condition, line⟩) ls d
  | _, slot, items :: tuples, v, ls, r =>
    EndsTuple (Rest ValueTokens) (fun t rest => Follows slot tuples t rest r) (v :: items) ls

def FromValue (slot : Slot f) : List (List Value) → List Lexeme → f.Result → Prop
  | [], ls, r => ∃ v own rest, ls = own ++ rest ∧ ValueTokens v own ∧ Follows slot [] v rest r
  | items :: tuples, ls, r =>
    EndsTuple (Series ValueTokens) (fun t rest => Follows slot tuples t rest r) items ls

/-- The tokens that a stage has to be followed by, with the result they lead to. -/
def Demands : {f : Form} → Stage f → List Lexeme → f.Result → Prop
  | _, .start required, ls, d => DeclarationTokens required d ls
  | _, .opening required name, ls, d =>
    (required = false ∧ ls = [] ∧ d = ⟨name, []⟩)
      ∨ ∃ q rest, ls = ⟨.openBrace, q⟩ :: rest
        ∧ EndsBlock (Series AttributeTokens) ⟨name, []⟩ rest d
  | _, .key b, ls, d => EndsBlock (Series AttributeTokens) b ls d
  | _, .gate b key line, ls, d =>
    (∃ q rest, ls = ⟨.colon, q⟩ :: rest ∧ FromValue (.entry b key none line) [] rest d)
      ∨ ∃ body p q rest, ls = ⟨.condition body, p⟩ :: ⟨.colon, q⟩ :: rest
        ∧ FromValue (.entry b key (some (String.ofList (Text.strip body))) line) [] rest d
  | _, .colon b key condition line, ls, d =>
    ∃ q rest, ls = ⟨.colon, q⟩ :: rest ∧ FromValue (.entry b key condition line) [] rest d
  | _, .value slot tuples, ls, r => FromValue slot tuples ls r
  | _, .item slot items tuples, ls, r =>
    EndsTuple (Rest ValueTokens) (fun t rest => Follows slot tuples t rest r) items ls
  | _, .entry b, ls, d => EndsBlock (Rest AttributeTokens) b ls d
  | _, .finished result, ls, r => ls = [] ∧ r = result

theorem demands_place (slot : Slot f) (tuples : List (List Value)) (v : Value)
    (ls : List Lexeme) (r : f.Result) :
    Demands (.place slot tuples v) ls r = Follows slot tuples v ls r := by
  cases tuples <;> cases slot <;> rfl

theorem fromValue_append {slot : Slot f} {tuples : List (List Value)} {v : Value}
    {own rest : List Lexeme} {r : f.Result} (value : ValueTokens v own)
    (h : Follows slot tuples v rest r) : FromValue slot tuples (own ++ rest) r := by
  cases tuples with
  | nil => exact ⟨v, own, rest, rfl, value, h⟩
  | cons items tuples =>
      simp only [Follows] at h
      obtain ⟨others, more, q, rest, rfl, tokens, next⟩ := h
      refine ⟨v :: others, own ++ more, q, rest, (List.append_assoc _ _ _).symm,
        tokens.series value, ?_⟩
      rwa [List.reverse_cons, ← List.append_cons] at next

theorem demands_nil {s : Stage f} {r : f.Result} (h : s.result? = some r) : Demands s [] r := by
  unfold Stage.result? at h
  split at h
  · cases h
    exact .inl ⟨rfl, rfl, rfl⟩
  · cases h
    exact ⟨rfl, rfl⟩
  · cases h

theorem endsBlock_append {b : Block} {a : Attribute} {own rest : List Lexeme} {d : Declaration}
    (first : AttributeTokens a own) (h : EndsBlock (Rest AttributeTokens) (b.add a) rest d) :
    EndsBlock (Series AttributeTokens) b (own ++ rest) d := by
  obtain ⟨attributes, more, o, rfl, tokens, rfl⟩ := h
  refine ⟨a :: attributes, own ++ more, o, (List.append_assoc _ _ _).symm, tokens.series first, ?_⟩
  rw [Block.add, List.reverse_cons, ← List.append_cons]

theorem endsTuple_nil {Tokens : List Value → List Lexeme → Prop} {slot : Slot f}
    {items : List Value} {tuples : List (List Value)} {ls : List Lexeme} {r : f.Result}
    (empty : Tokens [] []) (p : Position)
    (h : Demands (.place slot tuples (.tuple items.reverse)) ls r) :
    EndsTuple Tokens (fun t rest => Follows slot tuples t rest r) items
      (⟨.closeParen, p⟩ :: ls) := by
  refine ⟨[], [], p, ls, rfl, empty, ?_⟩
  rw [demands_place] at h
  rwa [List.append_nil]

theorem endsBlock_nil {Tokens : List Attribute → List Lexeme → Prop} {ls : List Lexeme}
    {r : Declaration} (b : Block) (empty : Tokens [] []) (p : Position)
    (h : Demands (f := .declaration) (.finished b.close) ls r) :
    EndsBlock Tokens b (⟨.closeBrace, p⟩ :: ls) r := by
  obtain ⟨rfl, rfl⟩ := h
  refine ⟨[], [], p, rfl, empty, ?_⟩
  rw [List.append_nil]
  rfl

/-- A token that a stage moves on by belongs in front of what the next stage demands. -/
theorem demands_cons {s s' : Stage f} {l : Lexeme} {ls : List Lexeme} {r : f.Result}
    (step : s.next? l.token l.start.line = some s') (h : Demands s' ls r) :
    Demands s (l :: ls) r := by
  obtain ⟨t, p⟩ := l
  simp only at step
  unfold Stage.next? at step
  split at step
  case h_1 required text =>
      cases step
      obtain ⟨optional, rfl, rfl⟩ | ⟨q, rest, rfl, attributes, own, o, rfl, series, rfl⟩ := h
      · exact .name optional
      · exact .block series
  case h_2 required name =>
      cases step
      exact .inr ⟨p, ls, rfl, h⟩
  case h_3 b text =>
      cases step
      obtain ⟨q, rest, rfl, v, own, others, rfl, value, follows⟩
        | ⟨body, q, o, rest, rfl, v, own, others, rfl, value, follows⟩ := h
      · exact endsBlock_append (.plain value) follows
      · exact endsBlock_append (.gated value) follows
  case h_4 b =>
      cases step
      exact endsBlock_nil b .nil p h
  case h_5 b key line body =>
      cases step
      obtain ⟨q, rest, rfl, value⟩ := h
      exact .inr ⟨body, p, q, rest, rfl, value⟩
  case h_6 b key line =>
      cases step
      exact .inl ⟨p, ls, rfl, h⟩
  case h_7 b key condition line =>
      cases step
      exact ⟨p, ls, rfl, h⟩
  case h_8 slot tuples =>
      cases step
      obtain ⟨items, own, q, rest, rfl, series, follows⟩ := h
      have value := fromValue_append (.tuple (p := p) (q := q) series) follows
      rwa [List.cons_append, List.append_assoc] at value
  case h_9 slot items tuples =>
      cases step
      exact endsTuple_nil .nil p h
  case h_10 slot tuples _ _ =>
      obtain ⟨v, found, rfl⟩ := Option.map_eq_some_iff.1 step
      rw [demands_place] at h
      exact fromValue_append (.of_valueOf? found p) h
  case h_11 slot items tuples =>
      cases step
      obtain ⟨others, own, q, rest, rfl, series, follows⟩ := h
      exact ⟨others, ⟨.comma, p⟩ :: own, q, rest, rfl, .comma series, follows⟩
  case h_12 slot items tuples =>
      cases step
      exact endsTuple_nil .nil p h
  case h_13 b =>
      cases step
      obtain ⟨attributes, own, o, rfl, series, rfl⟩ := h
      exact ⟨attributes, ⟨.comma, p⟩ :: own, o, rfl, .comma series, rfl⟩
  case h_14 b =>
      cases step
      exact endsBlock_nil b .nil p h
  case h_15 => cases step

theorem demands_of_run {s : Stage f} {ls : List Lexeme} {r : f.Result} (h : run s ls = some r) :
    Demands s ls r := by
  induction ls generalizing s with
  | nil => exact demands_nil h
  | cons l ls ih =>
      obtain ⟨s', step, rest⟩ := Option.bind_eq_some_iff.1 h
      exact demands_cons step (ih rest)

/-! The machine gives a value, or a declaration, for exactly the tokens of it. -/

theorem run_value_eq_some_iff {v : Value} {ls : List Lexeme} :
    run (.value .whole []) ls = some v ↔ ValueTokens v ls := by
  constructor
  · intro h
    obtain ⟨v, own, rest, rfl, value, rfl, rfl⟩ := demands_of_run h
    rwa [List.append_nil]
  · intro h
    have reached := run_value h .whole [] []
    rwa [List.append_nil] at reached

theorem run_start_eq_some_iff {required : Bool} {d : Declaration} {ls : List Lexeme} :
    run (.start required) ls = some d ↔ DeclarationTokens required d ls :=
  ⟨fun h => demands_of_run h, run_declaration⟩

end MarkupCascade.Fragment
