import MarkupCascade.Proofs.Blank
import MarkupCascade.Proofs.Lexical
import MarkupCascade.Condition

/-!
The clauses that the evaluator reads. It strips a text and splits it at its operator. What it reads
that way are texts of four forms, with white space around each part: a key, a key behind an
exclamation mark, and a key compared by one of two operators. A negated key that is compared is none
of them, since the exclamation mark is taken for a part of the key.
-/

namespace MarkupCascade

open Text (IsBlank isBlank strip trimEnd)

namespace Clause

theorem isKeyChar_of_isKey {key : List Char} (h : isKey key = true) :
    ∀ c ∈ key, isKeyChar c = true := by
  cases key with
  | nil => simp
  | cons c key =>
      obtain ⟨start, others⟩ := Bool.and_eq_true_iff.1 h
      exact List.forall_mem_cons.2 ⟨by simp [isKeyChar, start], List.all_eq_true.1 others⟩

theorem not_isBlank_of_isKeyChar {c : Char} (h : isKeyChar c = true) : isBlank c = false := by
  simp only [isKeyChar, Bool.or_eq_true, beq_iff_eq] at h
  obtain ((letter | digit) | rfl) | rfl := h
  · obtain ⟨low, high⟩ := Token.toNat_of_isNameStart letter
    exact Text.not_isBlank_of_toNat (by omega) (by omega)
  · obtain ⟨low, high⟩ := Char.isDigit_iff_toNat.1 digit
    exact Text.not_isBlank_of_toNat (Nat.lt_of_lt_of_le (by decide) low)
      (Nat.lt_of_le_of_lt high (by decide))
  · rfl
  · rfl

/-- A key stands out from white space and operators. -/
structure Solid (key : List Char) : Prop where
  blank : ∀ c ∈ key, isBlank c = false
  mark : '!' ∉ key
  equals : '=' ∉ key

theorem solid_of_isKey {key : List Char} (h : isKey key = true) : Solid key := by
  have inside := isKeyChar_of_isKey h
  exact ⟨fun c hc => not_isBlank_of_isKeyChar (inside c hc),
    fun hc => absurd (inside _ hc) (by decide), fun hc => absurd (inside _ hc) (by decide)⟩

/-! Splitting a clause at its operator. -/

theorem splitDiffers_eq_some {cs left right : List Char}
    (h : splitDiffers cs = some (left, right)) : left ++ '!' :: '=' :: right = cs := by
  fun_induction splitDiffers cs generalizing left with
  | case1 => cases h
  | case2 => cases h; rfl
  | case3 c cs _ ih =>
      obtain ⟨⟨left', right'⟩, inner, same⟩ := Option.map_eq_some_iff.1 h
      cases same
      rw [List.cons_append, ih inner]

theorem splitDiffers_eq_none_iff {cs : List Char} :
    splitDiffers cs = none ↔ ¬['!', '='] <:+: cs := by
  fun_induction splitDiffers cs with
  | case1 => simp
  | case2 cs => simpa using ⟨[], cs, rfl⟩
  | case3 c cs single ih =>
      have apart : ¬['!', '='] <+: c :: cs := by
        intro ⟨rest, same⟩
        cases same
        exact single rest rfl rfl
      rw [Option.map_eq_none_iff, ih, List.infix_cons_iff, not_or, and_iff_right apart]

theorem splitDiffers_append {left : List Char} (h : '!' ∉ left) (right : List Char) :
    splitDiffers (left ++ '!' :: '=' :: right) = some (left, right) := by
  induction left with
  | nil => rfl
  | cons c left ih =>
      obtain ⟨other, others⟩ := not_or.1 (List.mem_cons.not.1 h)
      simp [splitDiffers, Ne.symm other, ih others]

theorem splitEquals_eq_none {cs : List Char} (h : '=' ∉ cs) : splitEquals cs = none := by
  induction cs with
  | nil => rfl
  | cons c cs ih =>
      obtain ⟨other, others⟩ := not_or.1 (List.mem_cons.not.1 h)
      simp [splitEquals, Ne.symm other, ih others]

theorem splitEquals_append {left : List Char} (h : '=' ∉ left) (right : List Char) :
    splitEquals (left ++ '=' :: right) = some (left, right) := by
  induction left with
  | nil => rfl
  | cons c left ih =>
      obtain ⟨other, others⟩ := not_or.1 (List.mem_cons.not.1 h)
      simp [splitEquals, Ne.symm other, ih others]

theorem splitEquals_eq_some {cs left right : List Char}
    (h : splitEquals cs = some (left, right)) : left ++ '=' :: right = cs ∧ '=' ∉ left := by
  fun_induction splitEquals cs generalizing left with
  | case1 => cases h
  | case2 =>
      cases h
      exact ⟨rfl, List.not_mem_nil⟩
  | case3 c cs single ih =>
      obtain ⟨⟨left', right'⟩, inner, same⟩ := Option.map_eq_some_iff.1 h
      cases same
      obtain ⟨whole, others⟩ := ih inner
      exact ⟨congrArg (c :: ·) whole, by simpa [others] using fun same => single same.symm⟩

/-! What is taken for the key and what for the test, for each form of a clause. -/

theorem parts_differs {left : List Char} (h : '!' ∉ left) (right : List Char) :
    parts (left ++ '!' :: '=' :: right) = (strip left, .differs (strip right)) := by
  unfold parts
  rw [splitDiffers_append h]

theorem parts_equals {left right : List Char} (differs : ¬['!', '='] <:+: left ++ '=' :: right)
    (equals : '=' ∉ left) :
    parts (left ++ '=' :: right) = (strip left, .equals (strip right)) := by
  unfold parts
  rw [splitDiffers_eq_none_iff.2 differs, splitEquals_append equals]

theorem not_differs_of_not_equals {cs : List Char} (h : '=' ∉ cs) : ¬['!', '='] <:+: cs :=
  fun inside => h (inside.subset (by simp))

theorem parts_mark {rest : List Char} (h : '=' ∉ rest) :
    parts ('!' :: rest) = (strip rest, .falsy) := by
  have equals : '=' ∉ '!' :: rest := by simp [h]
  unfold parts
  rw [splitDiffers_eq_none_iff.2 (not_differs_of_not_equals equals), splitEquals_eq_none equals]
  rfl

theorem parts_bare {cs : List Char} (equals : '=' ∉ cs) (mark : '!' ∉ cs) :
    parts cs = (cs, .truthy) := by
  unfold parts
  rw [splitDiffers_eq_none_iff.2 (not_differs_of_not_equals equals), splitEquals_eq_none equals]
  dsimp only
  split
  · rename_i rest
    exact absurd List.mem_cons_self mark
  · rfl

theorem exists_parse_eq_ok_iff {piece : List Char} :
    (∃ c, parse piece = .ok c) ↔ isKey (parts (strip piece)).1 = true := by
  simp only [parse]
  split <;> simp_all

/-! The forms of a clause. -/

/-- What a clause compares its key with, if it does. -/
def literal (c : Clause) : List Char :=
  match c.test with
  | .equals literal | .differs literal => literal
  | .truthy | .falsy => []

/-- White space, a key that may be negated, and what follows the key. -/
inductive Headed : (negated : Bool) → (key rest piece : List Char) → Prop
  | plain {before key gap rest : List Char} : IsBlank before → isKey key = true → IsBlank gap →
      Headed false key rest (before ++ (key ++ (gap ++ rest)))
  | negated {before inner key gap rest : List Char} : IsBlank before → IsBlank inner →
      isKey key = true → IsBlank gap →
      Headed true key rest (before ++ '!' :: (inner ++ (key ++ (gap ++ rest))))

theorem strip_key_append {key gap : List Char} {c : Char} (hkey : isKey key = true)
    (h : isBlank c = false) (cs : List Char) :
    strip (key ++ (gap ++ c :: cs)) = key ++ gap ++ c :: trimEnd cs := by
  cases key with
  | nil => cases hkey
  | cons d key =>
      rw [List.cons_append, Text.strip_cons ((solid_of_isKey hkey).blank d List.mem_cons_self),
        ← List.append_assoc, Text.trimEnd_append_cons h]
      rfl

theorem notMem_key_append {c : Char} {key gap : List Char} (hkey : isKey key = true)
    (hgap : IsBlank gap) (other : isKeyChar c = false) (solid : isBlank c = false) :
    c ∉ key ++ gap := by
  intro inside
  cases List.mem_append.1 inside with
  | inl here =>
      rw [isKeyChar_of_isKey hkey c here] at other
      contradiction
  | inr there => exact hgap.notMem solid there

theorem Headed.exists_front {negated : Bool} {key rest piece : List Char}
    (h : Headed negated key rest piece) : ∃ front, piece = front ++ rest
      ∧ ∀ c, isKeyChar c = false → isBlank c = false → c ≠ '!' → c ∉ front := by
  cases h with
  | @plain before key gap _ hbefore hkey hgap =>
      refine ⟨before ++ (key ++ gap), by simp only [List.append_assoc], fun c other solid _ => ?_⟩
      have others := notMem_key_append hkey hgap other solid
      simpa [hbefore.notMem solid] using others
  | @negated before inner key gap _ hbefore hinner hkey hgap =>
      refine ⟨before ++ '!' :: (inner ++ (key ++ gap)),
        by simp only [List.append_assoc, List.cons_append], fun c other solid mark => ?_⟩
      have others := notMem_key_append hkey hgap other solid
      simpa [hbefore.notMem solid, hinner.notMem solid, mark] using others

theorem strip_key_blank {key gap : List Char} (hkey : isKey key = true) (hgap : IsBlank gap) :
    strip (key ++ gap) = key :=
  (Text.strip_append_blank hgap key).trans (Text.strip_eq_self (solid_of_isKey hkey).blank)

/-- The four forms of a clause. Only behind an equals sign is a literal not free to hold `!=`. -/
inductive Worded : Clause → List Char → Prop
  | truthy {key piece : List Char} : Headed false key [] piece →
      Worded ⟨String.ofList key, .truthy⟩ piece
  | falsy {key piece : List Char} : Headed true key [] piece →
      Worded ⟨String.ofList key, .falsy⟩ piece
  | equals {key literal text piece : List Char} : Headed false key ('=' :: text) piece →
      Text.Padded literal text → ¬['!', '='] <:+: literal →
      Worded ⟨String.ofList key, .equals literal⟩ piece
  | differs {key literal text piece : List Char} : Headed false key ('!' :: '=' :: text) piece →
      Text.Padded literal text → Worded ⟨String.ofList key, .differs literal⟩ piece

theorem parse_of_parts {key piece : List Char} {test : Test} (hkey : isKey key = true)
    (h : parts (strip piece) = (key, test)) : parse piece = .ok ⟨String.ofList key, test⟩ := by
  simp [parse, h, hkey]

theorem parse_of_worded {c : Clause} {piece : List Char} (h : Worded c piece) :
    parse piece = .ok c := by
  cases h with
  | @truthy key piece headed =>
      cases headed with
      | @plain before key gap rest hbefore hkey hgap =>
          have solid := solid_of_isKey hkey
          apply parse_of_parts hkey
          rw [List.append_nil, Text.strip_blank_append hbefore, Text.strip_append_blank hgap,
            Text.strip_eq_self solid.blank, parts_bare solid.equals solid.mark]
  | @falsy key piece headed =>
      cases headed with
      | @negated before inner key gap rest hbefore hinner hkey hgap =>
          have solid := solid_of_isKey hkey
          have equals : '=' ∉ trimEnd (inner ++ (key ++ gap)) := fun inside => by
            simpa [hinner.notMem (c := '=') rfl, solid.equals, hgap.notMem (c := '=') rfl] using
              Text.mem_of_mem_trimEnd inside
          apply parse_of_parts hkey
          rw [List.append_nil, Text.strip_blank_append hbefore, Text.strip_cons rfl,
            parts_mark equals, Text.strip_trimEnd, Text.strip_blank_append hinner,
            Text.strip_append_blank hgap, Text.strip_eq_self solid.blank]
  | @equals key literal text piece headed padded single =>
      cases headed with
      | @plain before key gap rest hbefore hkey hgap =>
          have mark := notMem_key_append (c := '!') hkey hgap rfl rfl
          have equals := notMem_key_append (c := '=') hkey hgap rfl rfl
          have trimmed : strip (trimEnd text) = literal :=
            (Text.strip_trimEnd text).trans (Text.padded_iff.1 padded)
          have front : '!' ∉ key ++ gap ++ ['='] := by simpa using mark
          have differs : ¬['!', '='] <:+: key ++ gap ++ '=' :: trimEnd text := by
            rw [List.append_cons, Text.pair_infix_append_left front,
              ← Text.pair_infix_strip rfl rfl, trimmed]
            exact single
          apply parse_of_parts hkey
          rw [Text.strip_blank_append hbefore, strip_key_append hkey rfl,
            parts_equals differs equals, strip_key_blank hkey hgap, trimmed]
  | @differs key literal text piece headed padded =>
      cases headed with
      | @plain before key gap rest hbefore hkey hgap =>
          have mark := notMem_key_append (c := '!') hkey hgap rfl rfl
          apply parse_of_parts hkey
          rw [Text.strip_blank_append hbefore, strip_key_append hkey rfl, Text.trimEnd_cons rfl,
            parts_differs mark, strip_key_blank hkey hgap, Text.strip_trimEnd,
            Text.padded_iff.1 padded]

theorem worded_of_parts {before cs after : List Char} (hkey : isKey (parts cs).1 = true)
    (hbefore : IsBlank before) (hafter : IsBlank after) :
    Worded ⟨String.ofList (parts cs).1, (parts cs).2⟩ (before ++ (cs ++ after)) := by
  -- White space at the ends of the key joins that before the clause and that before the operator.
  have plain {left : List Char} (rest : List Char) (named : isKey (strip left) = true)
      (whole : cs ++ after = left ++ rest) :
      Headed false (strip left) rest (before ++ (cs ++ after)) := by
    obtain ⟨first, last, hfirst, hlast, same⟩ := Text.exists_eq_strip left
    have headed := @Headed.plain (before ++ first) (strip left) last rest
      (List.forall_mem_append.2 ⟨hbefore, hfirst⟩) named hlast
    have moved : before ++ first ++ (strip left ++ (last ++ rest))
        = before ++ (first ++ (strip left ++ last) ++ rest) := by
      simp only [List.append_assoc]
    rw [moved, ← same, ← whole] at headed
    exact headed
  cases differs : splitDiffers cs with
  | some sides =>
      obtain ⟨left, right⟩ := sides
      have taken : parts cs = (strip left, .differs (strip right)) := by simp [parts, differs]
      rw [taken] at hkey ⊢
      refine .differs (plain ('!' :: '=' :: (right ++ after)) hkey ?_)
        (Text.padded_iff.2 (Text.strip_append_blank hafter right))
      simp [← splitDiffers_eq_some differs]
  | none =>
      cases equals : splitEquals cs with
      | some sides =>
          obtain ⟨left, right⟩ := sides
          have whole := (splitEquals_eq_some equals).1
          have taken : parts cs = (strip left, .equals (strip right)) := by
            simp [parts, differs, equals]
          rw [taken] at hkey ⊢
          refine .equals (plain ('=' :: (right ++ after)) hkey (by simp [← whole]))
            (Text.padded_iff.2 (Text.strip_append_blank hafter right)) ?_
          rw [Text.pair_infix_strip rfl rfl]
          intro inside
          apply splitDiffers_eq_none_iff.1 differs
          rw [← whole]
          exact inside.trans ⟨left ++ ['='], [], by simp⟩
      | none =>
          by_cases mark : ∃ rest, cs = '!' :: rest
          · obtain ⟨rest, rfl⟩ := mark
            have taken : parts ('!' :: rest) = (strip rest, .falsy) := by
              simp [parts, differs, equals]
            rw [taken] at hkey ⊢
            obtain ⟨first, last, hfirst, hlast, same⟩ := Text.exists_eq_strip rest
            have headed := @Headed.negated before first (strip rest) (last ++ after) [] hbefore
              hfirst hkey (List.forall_mem_append.2 ⟨hlast, hafter⟩)
            have moved : first ++ (strip rest ++ (last ++ after ++ []))
                = first ++ (strip rest ++ last) ++ after := by
              simp only [List.append_assoc, List.append_nil]
            rw [moved, ← same] at headed
            exact .falsy headed
          · have taken : parts cs = (cs, .truthy) := by
              simp only [parts, differs, equals]
              split
              · rename_i rest
                exact absurd ⟨rest, rfl⟩ mark
              · rfl
            rw [taken] at hkey ⊢
            have headed := @Headed.plain before cs after [] hbefore hkey hafter
            rw [List.append_nil] at headed
            exact .truthy headed

/-- The evaluator reads the four forms and nothing else. -/
theorem parse_eq_ok_iff {c : Clause} {piece : List Char} :
    parse piece = .ok c ↔ Worded c piece := by
  constructor
  · intro read
    obtain ⟨before, after, hbefore, hafter, whole⟩ := Text.exists_eq_strip piece
    simp only [parse] at read
    split at read
    · rename_i hkey
      cases read
      have worded := worded_of_parts hkey hbefore hafter
      rw [← whole] at worded
      exact worded
    · cases read
  · exact parse_of_worded

/-! A negated key that is compared. -/

/-- An exclamation mark in front, and an equals sign somewhere after it. -/
def NegatedComparison (piece : List Char) : Prop :=
  (strip piece).head? = some '!' ∧ '=' ∈ strip piece

instance (piece : List Char) : Decidable (NegatedComparison piece) :=
  inferInstanceAs (Decidable (_ ∧ _))

theorem isKey_strip_mark (cs : List Char) : isKey (strip ('!' :: cs)) = false := by
  rw [Text.strip_cons rfl]
  rfl

/-- Whatever operator is found, the exclamation mark stands before it. -/
theorem NegatedComparison.isKey_eq_false {piece : List Char} (h : NegatedComparison piece) :
    isKey (parts (strip piece)).1 = false := by
  obtain ⟨mark, equals⟩ := h
  generalize strip piece = cs at mark equals ⊢
  unfold parts
  split
  · rename_i left right found
    have whole := splitDiffers_eq_some found
    cases left with
    | nil => rfl
    | cons c left =>
        obtain rfl : c = '!' := by simpa [← whole] using mark
        exact isKey_strip_mark left
  · obtain ⟨left, right, rfl, noEquals⟩ := List.eq_append_cons_of_mem equals
    rw [splitEquals_append noEquals]
    cases left with
    | nil => cases mark
    | cons c left =>
        obtain rfl : c = '!' := by simpa using mark
        exact isKey_strip_mark left

theorem negatedComparison_of_headed {key rest piece : List Char} (h : Headed true key rest piece)
    (equals : '=' ∈ rest) : NegatedComparison piece := by
  cases h with
  | @negated before inner key gap _ hbefore hinner hkey hgap =>
      rw [NegatedComparison, Text.strip_blank_append hbefore, Text.strip_cons rfl]
      exact ⟨rfl, List.mem_cons_of_mem _ (Text.mem_trimEnd (by simp [equals]) rfl)⟩

end Clause

end MarkupCascade
