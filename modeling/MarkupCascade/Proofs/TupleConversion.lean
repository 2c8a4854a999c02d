import Mathlib
import MarkupCascade.Conversion
import MarkupCascade.Proofs.Document
import MarkupCascade.Proofs.Rounding

/-!
Colours and vectors, which are made of the elements of a tuple. Such a conversion succeeds exactly
on tuples of its sizes in which every element fits. Otherwise it says what is wrong: that the value
is no tuple, or else that its size is none of these, or else what is wrong with the first element
that does not fit.
-/

namespace MarkupCascade

open Outcome LogicalLine

/-- An integer in a value, at any depth. -/
inductive Value.HasInteger : Value → Int → Prop
  | here {n : Int} : HasInteger (.integer n) n
  | inside {items : List Value} {v : Value} {n : Int} :
      v ∈ items → HasInteger v n → HasInteger (.tuple items) n

/-- All integers in a value have 64 bits. Percentages do not count. -/
def Value.KeepsLimit (v : Value) : Prop := ∀ n, v.HasInteger n → -2 ^ 63 ≤ n ∧ n ≤ 2 ^ 63 - 1

theorem Value.InRange.keepsLimit {v : Value} (h : v.InRange) : v.KeepsLimit := by
  intro n found
  induction found with
  | here =>
      cases h with
      | integer fits => exact ⟨fits.1, fits.2⟩
  | inside among _ ih =>
      cases h with
      | tuple each => exact ih (each _ among)

/-! Outcomes of conversions. -/

/-- A conversion yields just what it gives, and otherwise says just what is wrong. -/
structure Settles {α : Type} (x : Except ConversionError α) (Gives : α → Prop)
    (Refuses : String → Prop) : Prop where
  ok : ∀ a, x = .ok a ↔ Gives a
  error : ∀ message, (∃ e, x = .error e ∧ e.message = message) ↔ Refuses message

/-- What the converted items make, or the first failure to convert one. -/
structure MadeOf {ε α β γ : Type} (f : α → Except ε β) (as : List α) (make : List β → Option γ)
    (x : Except ε γ) : Prop where
  ok : ∀ c, x = .ok c ↔ ∃ bs, as.mapM f = .ok bs ∧ make bs = some c
  error : ∀ e, x = .error e ↔ as.mapM f = .error e

/-- Where one of the two is known to hold, each of them is known. -/
theorem Settles.of_total {α : Type} {x : Except ConversionError α} {Gives : α → Prop}
    {Refuses : String → Prop} (ok : ∀ a, Gives a → x = .ok a)
    (error : ∀ message, Refuses message → ∃ e, x = .error e ∧ e.message = message)
    (total : (∃ a, Gives a) ∨ ∃ message, Refuses message) : Settles x Gives Refuses := by
  cases total with
  | inl given =>
      obtain ⟨a, gives⟩ := given
      have found := ok a gives
      refine ⟨fun b => ⟨fun same => ?_, ok b⟩, fun message => ⟨fun failed => ?_, error message⟩⟩
      · rw [found] at same
        cases same
        exact gives
      · obtain ⟨e, failed, _⟩ := failed
        rw [found] at failed
        cases failed
  | inr given =>
      obtain ⟨message, refuses⟩ := given
      obtain ⟨e, found, said⟩ := error message refuses
      refine ⟨fun b => ⟨fun same => ?_, ok b⟩, fun other => ⟨fun failed => ?_, error other⟩⟩
      · rw [found] at same
        cases same
      · obtain ⟨e', failed, rfl⟩ := failed
        rw [found] at failed
        cases failed
        rwa [said]

section MadeOf

variable {ε α β γ : Type} {f : α → Except ε β} {as : List α} {make : List β → Option γ}

theorem MadeOf.nil {c : γ} (h : make [] = some c) : MadeOf f [] make (pure c : Except ε γ) := by
  constructor
  · intro c'
    simp [pure_eq_ok_iff, h]
  · intro e
    simp [pure, Except.pure]

theorem MadeOf.cons {a : α} {rest : β → Except ε γ}
    (h : ∀ b, MadeOf f as (fun bs => make (b :: bs)) (rest b)) :
    MadeOf f (a :: as) make (f a >>= rest) := by
  constructor
  · intro c
    simp only [List.mapM_cons, bind_eq_ok_iff, pure_eq_ok_iff, (h _).ok]
    constructor
    · intro ⟨b, first, bs, others, made⟩
      exact ⟨b :: bs, ⟨b, first, bs, others, rfl⟩, made⟩
    · intro ⟨_, ⟨b, first, bs, others, whole⟩, made⟩
      subst whole
      exact ⟨b, first, bs, others, made⟩
  · intro e
    simp [List.mapM_cons, bind_eq_error_iff, (h _).error, pure, Except.pure]

theorem MadeOf.exists_ok_iff {x : Except ε γ} (made : MadeOf f as make x) :
    (∃ c, x = .ok c) ↔ ∃ bs, as.mapM f = .ok bs := by
  cases x with
  | ok c =>
      obtain ⟨bs, converted, _⟩ := (made.ok c).1 rfl
      exact iff_of_true ⟨c, rfl⟩ ⟨bs, converted⟩
  | error e => simp [(made.error e).1 rfl]

end MadeOf

theorem forall₂_congr_of_mem {α β : Type} {R S : α → β → Prop} {as : List α} {bs : List β}
    (h : ∀ a ∈ as, ∀ b, R a b ↔ S a b) : List.Forall₂ R as bs ↔ List.Forall₂ S as bs := by
  induction as generalizing bs with
  | nil => simp
  | cons a as ih =>
      obtain ⟨first, others⟩ := List.forall_mem_cons.1 h
      simp only [List.forall₂_cons_left_iff, first, ih others]

/-- What is said of the first value that stands for no number. -/
def FirstFault (Part : Value → Binary64 → Prop) (Fault : Value → String → Prop)
    (items : List Value) (message : String) : Prop :=
  ∃ before x after, items = before ++ x :: after ∧ (∀ y ∈ before, ∃ z, Part y z) ∧ Fault x message

theorem settles_mapM {Part : Value → Binary64 → Prop} {Fault : Value → String → Prop}
    {convert : Value → Except ConversionError Binary64} {items : List Value}
    (each : ∀ x ∈ items, Settles (convert x) (Part x) (Fault x)) :
    Settles (items.mapM convert) (List.Forall₂ Part items) (FirstFault Part Fault items) := by
  constructor
  · intro parts
    rw [mapM_eq_ok_iff]
    exact forall₂_congr_of_mem fun x among => (each x among).ok
  · intro message
    constructor
    · intro ⟨e, failed, said⟩
      obtain ⟨before, x, after, rfl, fine, failed⟩ := mapM_eq_error_iff.1 failed
      refine ⟨before, x, after, rfl, ?_, ((each x (by simp)).error message).1 ⟨e, failed, said⟩⟩
      intro y among
      exact (fine y among).imp fun z => ((each y (by simp [among])).ok z).1
    · intro ⟨before, x, after, whole, fine, fault⟩
      subst whole
      obtain ⟨e, failed, said⟩ := ((each x (by simp)).error message).2 fault
      refine ⟨e, mapM_eq_error_iff.2 ⟨before, x, after, rfl, ?_, failed⟩, said⟩
      intro y among
      exact (fine y among).imp fun z => ((each y (by simp [among])).ok z).2

/-! The elements. -/

namespace Value

/-- A colour channel, an integer from 0 to 255, and its part of 255. -/
inductive IsChannel : Value → Binary64 → Prop
  | integer {n : Int} : 0 ≤ n → n ≤ 255 → IsChannel (.integer n) (.ofRat false (n / 255))

inductive ChannelFault : Value → String → Prop
  | kind {v : Value} : v.kind ≠ .integer → ChannelFault v ("expected integer, got " ++ v.kind.name)
  | range {n : Int} : n < 0 ∨ 255 < n →
      ChannelFault (.integer n) s!"color component {n} is outside 0-255"

/-- An integer, with the number that it is rounded to, or a float with itself. -/
inductive IsNumber : Value → Binary64 → Prop
  | integer {n : Int} : IsNumber (.integer n) (.ofInt n)
  | float {x : Binary64} : IsNumber (.float x) x

inductive NumberFault : Value → String → Prop
  | kind {v : Value} : v.kind ≠ .integer → v.kind ≠ .float →
      NumberFault v ("expected integer or float, got " ++ v.kind.name)

theorem integer_message (k : Kind) :
    (ConversionError.kind [.integer] k).message = "expected integer, got " ++ k.name :=
  rfl

theorem number_message (k : Kind) :
    (ConversionError.kind [.integer, .float] k).message
      = "expected integer or float, got " ++ k.name :=
  rfl

theorem tuple_message (k : Kind) :
    (ConversionError.kind [.tuple] k).message = "expected tuple, got " ++ k.name :=
  rfl

theorem kind_eq_integer_iff {v : Value} : v.kind = .integer ↔ ∃ n, v = .integer n := by
  cases v <;> simp [kind]

theorem kind_eq_tuple_iff {v : Value} : v.kind = .tuple ↔ ∃ items, v = .tuple items := by
  cases v <;> simp [kind]

theorem toNumber?_of_kind {v : Value} (notInteger : v.kind ≠ .integer)
    (notFloat : v.kind ≠ .float) :
    v.toNumber? = .error (.kind [.integer, .float] v.kind) := by
  cases v with
  | integer n => exact absurd rfl notInteger
  | float x => exact absurd rfl notFloat
  | _ => rfl

theorem toChannel?_integer (n : Int) : (Value.integer n).toChannel?
    = if 0 ≤ n && n ≤ 255 then .ok ((Binary64.ofInt n).divNat 255)
      else .error (.colorChannel n) :=
  rfl

theorem toChannel?_of_within {n : Int} (low : 0 ≤ n) (high : n ≤ 255) :
    (Value.integer n).toChannel? = .ok (.ofRat false (n / 255)) := by
  obtain ⟨k, rfl⟩ := Int.eq_ofNat_of_zero_le low
  have rounded := Binary64.divNat_ofInt (k := k) (by omega) 255
  rw [toChannel?_integer, if_pos (by simpa using high), rounded]
  rfl

theorem toChannel?_of_outside {n : Int} (h : n < 0 ∨ 255 < n) :
    (Value.integer n).toChannel? = .error (.colorChannel n) := by
  have outside : ¬(0 ≤ n && n ≤ 255) := by
    rw [Bool.and_eq_true, decide_eq_true_iff, decide_eq_true_iff]
    omega
  rw [toChannel?_integer, if_neg outside]

theorem toChannel?_of_kind {v : Value} (h : v.kind ≠ .integer) :
    v.toChannel? = .error (.kind [.integer] v.kind) := by
  cases v with
  | integer n => exact absurd rfl h
  | _ => rfl

theorem settles_toChannel? (v : Value) : Settles v.toChannel? v.IsChannel v.ChannelFault := by
  apply Settles.of_total
  · intro x fits
    cases fits with
    | integer low high => exact toChannel?_of_within low high
  · intro message fault
    cases fault with
    | kind other => exact ⟨_, toChannel?_of_kind other, integer_message v.kind⟩
    | range outside => exact ⟨_, toChannel?_of_outside outside, rfl⟩
  · by_cases other : v.kind = .integer
    · obtain ⟨n, rfl⟩ := kind_eq_integer_iff.1 other
      by_cases within : 0 ≤ n ∧ n ≤ 255
      · exact .inl ⟨_, .integer within.1 within.2⟩
      · exact .inr ⟨_, .range (by omega)⟩
    · exact .inr ⟨_, .kind other⟩

theorem settles_toNumber? (v : Value) : Settles v.toNumber? v.IsNumber v.NumberFault := by
  apply Settles.of_total
  · intro x fits
    cases fits with
    | integer => rfl
    | float => rfl
  · intro message fault
    cases fault with
    | kind notInteger notFloat =>
        exact ⟨_, toNumber?_of_kind notInteger notFloat, number_message v.kind⟩
  · cases v with
    | integer n => exact .inl ⟨_, .integer⟩
    | float x => exact .inl ⟨x, .float⟩
    | _ => exact .inr ⟨_, .kind (by simp [kind]) (by simp [kind])⟩

end Value

/-! The conversions. -/

/-- What a conversion of tuples is to do, and say. -/
structure TupleSpec (α : Type) where
  /-- The numbers of elements that it takes. -/
  sizes : List Nat
  sizeMessage : Nat → String
  /-- The elements that fit, each with the number that it stands for. -/
  Part : Value → Binary64 → Prop
  Fault : Value → String → Prop
  /-- What it makes of the numbers. -/
  make : List Binary64 → Option α

namespace TupleSpec

variable {α : Type} (spec : TupleSpec α)

/-- A tuple of one of the sizes in which every element fits. -/
def Accepts (v : Value) : Prop :=
  ∃ items, v = .tuple items ∧ items.length ∈ spec.sizes ∧ ∀ x ∈ items, ∃ y, spec.Part x y

def Gives (v : Value) (a : α) : Prop :=
  ∃ items parts, v = .tuple items ∧ items.length ∈ spec.sizes
    ∧ List.Forall₂ spec.Part items parts ∧ spec.make parts = some a

inductive Refuses : Value → String → Prop
  | kind {v : Value} : v.kind ≠ .tuple → Refuses v ("expected tuple, got " ++ v.kind.name)
  | size {items : List Value} :
      items.length ∉ spec.sizes → Refuses (.tuple items) (spec.sizeMessage items.length)
  | element {items : List Value} {message : String} : items.length ∈ spec.sizes →
      FirstFault spec.Part spec.Fault items message → Refuses (.tuple items) message

/-- A conversion that succeeds on what the description accepts, gives what it gives, and refuses all
else as it does. -/
structure Describes (v : Value) (outcome : Except ConversionError α) : Prop where
  accepts : (∃ a, outcome = .ok a) ↔ spec.Accepts v
  settles : Settles outcome (spec.Gives v) (spec.Refuses v)

variable {spec}

theorem describes_of_error {v : Value} {e : ConversionError}
    (unfit : ∀ items, v = .tuple items → items.length ∉ spec.sizes)
    (refuses : spec.Refuses v e.message) (unique : ∀ m, spec.Refuses v m → e.message = m) :
    spec.Describes v (.error e) := by
  refine ⟨iff_of_false (by simp) ?_, .of_total ?_ ?_ (.inr ⟨_, refuses⟩)⟩
  · intro ⟨items, whole, size, _⟩
    exact unfit items whole size
  · intro a ⟨items, parts, whole, size, _⟩
    exact absurd size (unfit items whole)
  · intro m refused
    exact ⟨e, rfl, unique m refused⟩

theorem describes_of_kind {v : Value} {e : ConversionError} (h : v.kind ≠ .tuple)
    (said : e.message = "expected tuple, got " ++ v.kind.name) : spec.Describes v (.error e) := by
  apply describes_of_error
  · intro items whole
    exact absurd (whole ▸ rfl) h
  · exact said ▸ .kind h
  · intro m refused
    cases refused with
    | kind _ => exact said
    | size _ => exact absurd rfl h
    | element _ _ => exact absurd rfl h

theorem describes_of_size {items : List Value} {e : ConversionError}
    (h : items.length ∉ spec.sizes) (said : e.message = spec.sizeMessage items.length) :
    spec.Describes (.tuple items) (.error e) := by
  apply describes_of_error
  · intro items' whole
    cases whole
    exact h
  · exact said ▸ .size h
  · intro m refused
    cases refused with
    | kind other => exact absurd rfl other
    | size _ => exact said
    | element size _ => exact absurd size h

theorem describes_of_elements {items : List Value} {outcome : Except ConversionError α}
    {convert : Value → Except ConversionError Binary64} (size : items.length ∈ spec.sizes)
    (each : ∀ x ∈ items, Settles (convert x) (spec.Part x) (spec.Fault x))
    (made : MadeOf convert items spec.make outcome) : spec.Describes (.tuple items) outcome := by
  have elements := settles_mapM each
  refine ⟨?_, ?_, ?_⟩
  · rw [made.exists_ok_iff, exists_mapM_eq_ok_iff]
    constructor
    · intro fine
      exact ⟨items, rfl, size, fun x among => (fine x among).imp fun y => ((each x among).ok y).1⟩
    · intro ⟨_, whole, _, fits⟩ x among
      cases whole
      exact (fits x among).imp fun y => ((each x among).ok y).2
  · intro a
    simp only [made.ok, elements.ok]
    constructor
    · intro ⟨parts, fit, given⟩
      exact ⟨items, parts, rfl, size, fit, given⟩
    · intro ⟨_, parts, whole, _, fit, given⟩
      cases whole
      exact ⟨parts, fit, given⟩
  · intro message
    simp only [made.error]
    rw [elements.error]
    constructor
    · exact .element size
    · intro refused
      cases refused with
      | kind other => exact absurd rfl other
      | size unfit => exact absurd size unfit
      | element _ fault => exact fault

/-- One element that stands for no number is enough. -/
theorem Describes.not_ok {items : List Value} {outcome : Except ConversionError α} {x : Value}
    (h : spec.Describes (.tuple items) outcome) (among : x ∈ items) (unfit : ∀ y, ¬spec.Part x y) :
    ¬∃ a, outcome = .ok a := by
  rw [h.accepts]
  intro ⟨_, whole, _, fits⟩
  cases whole
  obtain ⟨y, fit⟩ := fits x among
  exact unfit y fit

end TupleSpec

/-- A colour is opaque if it has no fourth component. -/
def colorSpec : TupleSpec Color where
  sizes := [3, 4]
  sizeMessage n := s!"expected a color of 3 or 4 components, got {n}"
  Part := Value.IsChannel
  Fault := Value.ChannelFault
  make
    | [r, g, b] => some ⟨r, g, b, .ofInt 1⟩
    | [r, g, b, a] => some ⟨r, g, b, a⟩
    | _ => none

def vectorSpec : TupleSpec (Binary64 × Binary64) where
  sizes := [2]
  sizeMessage n := s!"expected 2 components, got {n}"
  Part := Value.IsNumber
  Fault := Value.NumberFault
  make
    | [x, y] => some (x, y)
    | _ => none

namespace Value

theorem toTuple?_of_kind {v : Value} (h : v.kind ≠ .tuple) :
    v.toTuple? = .error (.kind [.tuple] v.kind) := by
  cases v with
  | tuple items => exact absurd rfl h
  | _ => rfl

theorem describes_toColor? (v : Value) : colorSpec.Describes v v.toColor? := by
  by_cases shape : v.kind = .tuple
  · obtain ⟨items, rfl⟩ := kind_eq_tuple_iff.1 shape
    have each : ∀ x ∈ items, Settles x.toChannel? (colorSpec.Part x) (colorSpec.Fault x) :=
      fun x _ => settles_toChannel? x
    -- The components are converted one after the other, and the first that fails decides.
    match items with
    | [r, g, b] =>
      apply TupleSpec.describes_of_elements (by simp [colorSpec]) each
      exact .cons fun r => .cons fun g => .cons fun b => .nil rfl
    | [r, g, b, a] =>
      apply TupleSpec.describes_of_elements (by simp [colorSpec]) each
      exact .cons fun r => .cons fun g => .cons fun b => .cons fun a => .nil rfl
    | [] | [_] | [_, _] | _ :: _ :: _ :: _ :: _ :: _ =>
      exact TupleSpec.describes_of_size (by simp [colorSpec]) rfl
  · rw [toColor?, toTuple?_of_kind shape]
    exact TupleSpec.describes_of_kind shape (tuple_message v.kind)

theorem describes_toVector2? (v : Value) : vectorSpec.Describes v v.toVector2? := by
  by_cases shape : v.kind = .tuple
  · obtain ⟨items, rfl⟩ := kind_eq_tuple_iff.1 shape
    have each : ∀ x ∈ items, Settles x.toNumber? (vectorSpec.Part x) (vectorSpec.Fault x) :=
      fun x _ => settles_toNumber? x
    match items with
    | [x, y] =>
      apply TupleSpec.describes_of_elements (by simp [vectorSpec]) each
      exact .cons fun x => .cons fun y => .nil rfl
    | [] | [_] | _ :: _ :: _ :: _ =>
      exact TupleSpec.describes_of_size (by simp [vectorSpec]) rfl
  · rw [toVector2?, toTuple?_of_kind shape]
    exact TupleSpec.describes_of_kind shape (tuple_message v.kind)

end Value

theorem Placed.InOrder.keepsLimit {first last : Nat} {ps : List Placed}
    (h : InOrder first last ps) {p : Placed} (among : p ∈ ps) {a : Attribute}
    (inside : a ∈ p.declaration.attributes) : a.value.KeepsLimit :=
  ((h.wellFormed p among).inRange a inside).keepsLimit

theorem Component.keepsLimit_of_parse {source : String} {root c : Component}
    (h : Component.parse source = .ok root) (among : c ∈ root.walk) {a : Attribute}
    (inside : a ∈ c.attributes) : a.value.KeepsLimit :=
  (Placed.inOrder_of_stands (successive_split source) (Component.forall₂_stands h)).keepsLimit
    (List.mem_map_of_mem among) inside

theorem Stylesheet.keepsLimit_of_parse {source name : String} {sheet : Stylesheet}
    (h : Stylesheet.parse source name = .ok sheet) {r : StyleRule} (among : r ∈ sheet.rules)
    {a : Attribute} (inside : a ∈ r.attributes) : a.value.KeepsLimit :=
  (Placed.inOrder_of_stands (successive_split source) (Stylesheet.forall₂_stands h)).keepsLimit
    (List.mem_map_of_mem among) inside

/-- Colours and vectors are made of tuples just as their descriptions say. No integer is rounded to
infinity as long as it has 64 bits, which all have that are read. -/
theorem Value.compound_conversions :
    (∀ v : Value, v.KeepsLimit →
      colorSpec.Describes v v.toColor? ∧ vectorSpec.Describes v v.toVector2?
      ∧ (∀ n, v.HasInteger n → ∃ negative m q, Binary64.ofInt n = .finite negative m q)
      ∧ ∀ items, v = .tuple items → ∀ x ∈ items, x.kind ∈ [.tuple, .percentage, .default] →
        (∃ message, x.ChannelFault message) ∧ (∃ message, x.NumberFault message)
        ∧ (¬∃ c, v.toColor? = .ok c) ∧ ¬∃ p, v.toVector2? = .ok p)
    ∧ (∀ text line indent v, Value.parse text line indent = .ok v → v.KeepsLimit)
    ∧ (∀ source root, Component.parse source = .ok root →
      ∀ c ∈ root.walk, ∀ a ∈ c.attributes, a.value.KeepsLimit)
    ∧ ∀ source name sheet, Stylesheet.parse source name = .ok sheet →
      ∀ r ∈ sheet.rules, ∀ a ∈ r.attributes, a.value.KeepsLimit := by
  refine ⟨?_, fun _ _ _ _ h => (Value.parse_eq_ok_iff.1 h).2.keepsLimit,
    fun _ _ h _ among _ => Component.keepsLimit_of_parse h among,
    fun _ _ _ h _ among _ => Stylesheet.keepsLimit_of_parse h among⟩
  intro v limit
  refine ⟨describes_toColor? v, describes_toVector2? v, ?_, ?_⟩
  · intro n found
    exact Binary64.exists_ofInt_finite (limit n found).1 (limit n found).2
  · intro items whole x among kind
    subst whole
    have notInteger : x.kind ≠ .integer := by
      intro same
      simp [same] at kind
    have notFloat : x.kind ≠ .float := by
      intro same
      simp [same] at kind
    refine ⟨⟨_, .kind notInteger⟩, ⟨_, .kind notInteger notFloat⟩,
      (describes_toColor? _).not_ok among ?_, (describes_toVector2? _).not_ok among ?_⟩
    · intro y fit
      cases fit with
      | integer _ _ => exact notInteger rfl
    · intro y fit
      cases fit with
      | integer => exact notInteger rfl
      | float => exact notFloat rfl

/-- A colour without a fourth component, one with a number too great before an element of another
kind, a vector, and one with a percentage. -/
theorem Value.compound_conversions_faults :
    let blue : Value := .tuple [.integer 0, .integer 51, .integer 255]
    let tooBright : Value := .tuple [.integer 0, .integer 300, .default]
    let left : Value := .tuple [.integer (-1), .integer 0]
    let partly : Value := .tuple [.integer (-1), .percentage 4]
    blue.toColor? = .ok ⟨.ofRat false ((0 : Int) / 255), .ofRat false ((51 : Int) / 255),
        .ofRat false ((255 : Int) / 255), .ofInt 1⟩
      ∧ (∃ e, tooBright.toColor? = .error e
        ∧ e.message = "color component 300 is outside 0-255")
      ∧ (¬∃ c, tooBright.toColor? = .ok c)
      ∧ left.toVector2? = .ok (.ofInt (-1), .ofInt 0)
      ∧ (∃ negative m q, Binary64.ofInt (-1) = .finite negative m q)
      ∧ ∃ e, partly.toVector2? = .error e
        ∧ e.message = "expected integer or float, got percentage" := by
  intro blue tooBright left partly
  obtain ⟨conversions, values, templates, sheets⟩ := compound_conversions
  have template : Component.parse "a \x7bk: (0, 51, 255)\x7d"
      = .ok (.node "a" 1 [⟨"k", blue, none, 1⟩] []) := by cbv
  have sheet : Stylesheet.parse "a \x7bk: (0, 300, default)\x7d" "s"
      = .ok ⟨[⟨"a", [⟨"k", tooBright, none, 1⟩], 1⟩], "s"⟩ := by cbv
  have value : Value.parse "(-1, 0)" = .ok left := by cbv
  have value' : Value.parse "(-1, 4%)" = .ok partly := by cbv
  have color := (conversions blue
    (templates _ _ template _ List.mem_cons_self _ List.mem_cons_self)).1
  obtain ⟨bright, _, _, faults⟩ := conversions tooBright
    (sheets _ _ _ sheet _ List.mem_cons_self _ List.mem_cons_self)
  obtain ⟨_, vector, finite, _⟩ := conversions left (values _ _ _ _ value)
  have refused := (conversions partly (values _ _ _ _ value')).2.1
  refine ⟨?_, ?_, ?_, ?_, finite (-1) (.inside List.mem_cons_self .here), ?_⟩
  · refine (color.settles.ok _).2 ⟨_, [_, _, _], rfl, by decide, ?_, rfl⟩
    exact .cons (.integer (by decide) (by decide)) <| .cons (.integer (by decide) (by decide)) <|
      .cons (.integer (by decide) (by decide)) .nil
  · refine (bright.settles.error _).2 (.element (by decide) ?_)
    refine ⟨[.integer 0], .integer 300, [.default], rfl, ?_, .range (by decide)⟩
    exact List.forall_mem_singleton.2 ⟨_, .integer (by decide) (by decide)⟩
  · exact (faults _ rfl .default (by simp) (by decide)).2.2.1
  · refine (vector.settles.ok _).2 ⟨_, [_, _], rfl, by decide, ?_, rfl⟩
    exact .cons .integer (.cons .integer .nil)
  · refine (refused.settles.error _).2 (.element (by decide) ?_)
    refine ⟨[.integer (-1)], .percentage 4, [], rfl, ?_, .kind (by decide) (by decide)⟩
    exact List.forall_mem_singleton.2 ⟨_, .integer⟩

end MarkupCascade
