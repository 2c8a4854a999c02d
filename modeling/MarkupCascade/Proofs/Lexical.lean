import MarkupCascade.Token
import Mathlib.Data.List.Basic
import Mathlib.Data.List.TakeWhile

/-!
What the scanner takes for a gap and for a token. Both are said without the scanner: a gap is a run
of spaces and comments, and each kind of token has its own form. The scanner finds exactly these,
provided that no character follows a token that could have made it longer.
-/

namespace MarkupCascade.Token

/-- Text between tokens. Only at the end of the text may a comment end without a line feed. -/
inductive Gap : (atEnd : Bool) → List Char → Prop
  | nil {atEnd : Bool} : Gap atEnd []
  | space {atEnd : Bool} {c : Char} {g : List Char} :
      isSpace c = true → Gap atEnd g → Gap atEnd (c :: g)
  | comment {atEnd : Bool} {body g : List Char} :
      '\n' ∉ body → Gap atEnd g → Gap atEnd ('/' :: '/' :: (body ++ '\n' :: g))
  | lastComment {body : List Char} : '\n' ∉ body → Gap true ('/' :: '/' :: body)

/-- The first character of a gap is a space or the slash of a comment. -/
theorem Gap.head {atEnd : Bool} {g : List Char} (h : Gap atEnd g) :
    ∀ c ∈ g.head?, isSpace c = true ∨ c = '/' := by
  cases h with
  | nil => simp
  | space hc _ => simpa using Or.inl hc
  | comment _ _ | lastComment _ => simp

theorem splitGap_space {c : Char} (h : isSpace c = true) (cs : List Char) :
    splitGap false (c :: cs) = (c :: (splitGap false cs).1, (splitGap false cs).2) := by
  simp [splitGap, h]

theorem splitGap_slashes (cs : List Char) :
    splitGap false ('/' :: '/' :: cs)
      = ('/' :: '/' :: (splitGap true cs).1, (splitGap true cs).2) := by
  simp [splitGap, isSpace]

theorem splitGap_comment {body : List Char} (h : '\n' ∉ body) (cs : List Char) :
    splitGap true (body ++ '\n' :: cs)
      = (body ++ '\n' :: (splitGap false cs).1, (splitGap false cs).2) := by
  induction body with
  | nil => simp [splitGap]
  | cons c body ih =>
      obtain ⟨other, rest⟩ := not_or.1 (List.mem_cons.not.1 h)
      have stays : (c != '\n') = true := by simpa using Ne.symm other
      simp [splitGap, stays, ih rest]

theorem splitGap_lastComment {body : List Char} (h : '\n' ∉ body) :
    splitGap true body = (body, []) := by
  induction body with
  | nil => rfl
  | cons c body ih =>
      obtain ⟨other, rest⟩ := not_or.1 (List.mem_cons.not.1 h)
      have stays : (c != '\n') = true := by simpa using Ne.symm other
      simp [splitGap, stays, ih rest]

/-- A gap is split off whole in front of a text that begins with none. -/
theorem splitGap_gap {atEnd : Bool} {g rest : List Char} (h : Gap atEnd g)
    (ends : atEnd = true → rest = []) (stops : splitGap false rest = ([], rest)) :
    splitGap false (g ++ rest) = (g, rest) := by
  induction h with
  | nil => exact stops
  | space hc _ ih => rw [List.cons_append, splitGap_space hc, ih ends]
  | comment hbody _ ih =>
      rw [List.cons_append, List.cons_append, List.append_assoc, List.cons_append,
        splitGap_slashes, splitGap_comment hbody, ih ends]
  | lastComment hbody =>
      rw [ends rfl, List.append_nil, splitGap_slashes, splitGap_lastComment hbody]

theorem splitGap_of_stops {c : Char} {cs : List Char} (space : isSpace c = false)
    (comment : ¬(c = '/' ∧ cs.head? = some '/')) : splitGap false (c :: cs) = ([], c :: cs) := by
  have : (c == '/' && cs.head? == some '/') = false := by simpa using comment
  simp [splitGap, space, this]

/-- What is split off is a gap. -/
theorem gap_splitGap (cs : List Char) :
    Gap (splitGap false cs).2.isEmpty (splitGap false cs).1 := by
  induction h : cs.length using Nat.strongRecOn generalizing cs with
  | ind n ih =>
      subst h
      cases cs with
      | nil => exact .nil
      | cons c cs =>
          by_cases space : isSpace c = true
          · rw [splitGap_space space]
            exact .space space (ih _ (by simp) cs rfl)
          by_cases slashes : c = '/' ∧ cs.head? = some '/'
          · obtain ⟨rfl, slash⟩ := slashes
            obtain ⟨cs, rfl⟩ := List.head?_eq_some_iff.1 slash
            rw [splitGap_slashes]
            by_cases ended : '\n' ∈ cs
            · obtain ⟨body, rest, rfl, hbody⟩ := List.eq_append_cons_of_mem ended
              rw [splitGap_comment hbody]
              exact .comment hbody (ih _ (by simp; omega) rest rfl)
            · rw [splitGap_lastComment ended]
              exact .lastComment ended
          · rw [splitGap_of_stops (by simpa using space) slashes]
            exact .nil

/-- What stands behind a gap begins with no space. -/
theorem not_isSpace_head_splitGap (inComment : Bool) (cs : List Char) :
    ∀ c ∈ (splitGap inComment cs).2.head?, isSpace c = false := by
  induction cs generalizing inComment with
  | nil => simp [splitGap]
  | cons d cs ih =>
      rw [splitGap]
      split
      · exact ih _
      · split
        · exact ih _
        · rename_i solid
          split
          · exact ih _
          · simpa using solid

/-- A text is the gap that is split off and a rest that begins with none. -/
theorem of_splitGap_eq {cs gap rest : List Char} (split : splitGap false cs = (gap, rest)) :
    cs = gap ++ rest ∧ Gap rest.isEmpty gap ∧ ∀ c ∈ rest.head?, isSpace c = false := by
  have whole := splitGap_append false cs
  have gaps := gap_splitGap cs
  have solid := not_isSpace_head_splitGap false cs
  rw [split] at whole gaps solid
  exact ⟨whole.symm, gaps, solid⟩

theorem Gap.append {atEnd : Bool} {g g' : List Char} (h : Gap false g) (behind : Gap atEnd g') :
    Gap atEnd (g ++ g') := by
  generalize inside : false = e at h
  induction h with
  | nil => exact behind
  | space hc _ ih => exact .space hc (ih inside)
  | comment hbody _ ih =>
      rw [List.cons_append, List.cons_append, List.append_assoc, List.cons_append]
      exact .comment hbody (ih inside)
  | lastComment => cases inside

/-- A line feed ends a gap even where a comment is the last of it. -/
theorem Gap.endLine {atEnd : Bool} {g : List Char} (h : Gap atEnd g) : Gap false (g ++ ['\n']) := by
  induction h with
  | nil => exact .space (c := '\n') rfl .nil
  | space hc _ ih => exact .space hc ih
  | @comment _ body g hbody _ ih =>
      rw [List.cons_append, List.cons_append, List.append_assoc, List.cons_append]
      exact .comment hbody ih
  | lastComment hbody => exact .comment hbody .nil

/-! Each kind of token has a form of its own. -/

/-- One digit or more. -/
def IsNumeral (digits : List Char) : Prop := digits ≠ [] ∧ ∀ c ∈ digits, c.isDigit = true

theorem isNumeral_toDigits (n : Nat) : IsNumeral (Nat.toDigits 10 n) :=
  ⟨Nat.toDigits_ne_nil, fun _ hc => Nat.isDigit_of_mem_toDigits (by decide) (by decide) hc⟩

def IsName : List Char → Prop
  | [] => False
  | c :: cs => isNameStart c = true ∧ ∀ d ∈ cs, isNameChar d = true

theorem isNameChar_of_isName {text : List Char} (h : IsName text) :
    ∀ c ∈ text, isNameChar c = true := by
  cases text with
  | nil => exact h.elim
  | cons c text => exact List.forall_mem_cons.2 ⟨by simp [isNameChar, h.1], h.2⟩

/-- The inside of a string: a backslash escapes the character after it, no other quote occurs and
no line feed at all. -/
inductive StringBody : List Char → Prop
  | nil : StringBody []
  | plain {c : Char} {body : List Char} :
      c ≠ '"' → c ≠ '\\' → c ≠ '\n' → StringBody body → StringBody (c :: body)
  | escape {c : Char} {body : List Char} :
      c ≠ '\n' → StringBody body → StringBody ('\\' :: c :: body)

def WellFormed : Token → Prop
  | .name text => IsName text
  | .condition body => '}' ∉ body
  | .string body => StringBody body
  | .float _ whole fraction => IsNumeral whole ∧ IsNumeral fraction
  | .percentage _ digits | .integer _ digits => IsNumeral digits
  | _ => True

/-- Whether a character after a token would be taken as a part of it. -/
def growsBy : Token → Char → Bool
  | .name _, c => isNameChar c
  | .float .., c => c.isDigit
  | .integer .., c => c.isDigit || c == '.' || c == '%'
  | _, _ => false

/-- Where a value is due no word is a name, and the keyword is one nowhere else. -/
def SuitsPlace (valueDue : Bool) : Token → Prop
  | .name _ => valueDue = false
  | .default => valueDue = true
  | _ => True

theorem takeWhile_append_stop {p : Char → Bool} {body rest : List Char}
    (inside : ∀ c ∈ body, p c = true) (stops : ∀ c ∈ rest.head?, p c = false) :
    (body ++ rest).takeWhile p = body := by
  rw [List.takeWhile_append_of_pos inside]
  cases rest with
  | nil => simp
  | cons c rest => simp [stops c rfl]

theorem dropWhile_append_stop {p : Char → Bool} {body rest : List Char}
    (inside : ∀ c ∈ body, p c = true) (stops : ∀ c ∈ rest.head?, p c = false) :
    (body ++ rest).dropWhile p = rest := by
  rw [List.dropWhile_append_of_pos inside]
  cases rest with
  | nil => rfl
  | cons c rest => simp [stops c rfl]

theorem stringBody_of_scanString {cs body rest : List Char}
    (h : scanString cs = some (body, rest)) : StringBody body := by
  fun_induction scanString cs generalizing body with
  | case1 | case3 | case4 => simp at h
  | case2 =>
      cases h
      exact .nil
  | case5 c cs other ih =>
      obtain ⟨⟨body', rest'⟩, inner, same⟩ := Option.map_eq_some_iff.1 h
      cases same
      exact .escape other (ih inner)
  | case6 c cs quote lineFeed escaped backslash ih =>
      obtain ⟨⟨body', rest'⟩, inner, same⟩ := Option.map_eq_some_iff.1 h
      cases same
      refine .plain quote (fun same => ?_) lineFeed (ih inner)
      cases cs with
      | nil => simp [scanString] at inner
      | cons d cs => exact backslash d cs same rfl

theorem scanString_append_quote {body : List Char} (h : StringBody body) (rest : List Char) :
    scanString (body ++ '"' :: rest) = some (body, rest) := by
  induction h with
  | nil => rfl
  | plain quote backslash lineFeed _ ih => simp [scanString, *]
  | escape lineFeed _ ih => simp [scanString, *]

theorem isNumeral_takeWhile {cs : List Char} (h : (cs.takeWhile Char.isDigit).isEmpty = false) :
    IsNumeral (cs.takeWhile Char.isDigit) :=
  ⟨by simpa using h, fun _ hc => List.mem_takeWhile_imp hc⟩

theorem wellFormed_of_scanNumber {negative : Bool} {cs rest : List Char} {t : Token}
    (h : scanNumber negative cs = some (t, rest)) : t.WellFormed := by
  simp only [scanNumber] at h
  split at h
  · cases h
  rename_i nonempty
  have whole := isNumeral_takeWhile (by simpa using nonempty)
  split at h
  · rename_i d more _
    split at h <;> cases h
    · refine ⟨whole, by simp, ?_⟩
      intro c hc
      obtain rfl | hc := List.mem_cons.1 hc
      · assumption
      · exact List.mem_takeWhile_imp hc
    · exact whole
  · cases h
    exact whole
  · cases h
    exact whole

theorem wellFormed_of_scanCondition {cs rest : List Char} {t : Token}
    (h : scanCondition cs = some (t, rest)) : t.WellFormed := by
  unfold scanCondition at h
  split at h
  · split at h
    · cases h
      intro inside
      simpa using List.mem_takeWhile_imp inside
    · cases h
  · cases h

theorem wellFormed_scanWord (valueDue : Bool) {c : Char} (cs : List Char)
    (h : isNameStart c = true) : (scanWord valueDue (c :: cs)).1.WellFormed := by
  simp only [scanWord]
  split
  · trivial
  · have start : isNameChar c = true := by simp [isNameChar, h]
    rw [List.takeWhile_cons_of_pos start]
    exact ⟨h, fun d hd => List.mem_takeWhile_imp hd⟩

theorem scan?_of_isNameStart (valueDue : Bool) {c : Char} (cs : List Char)
    (h : isNameStart c = true) :
    scan? valueDue (c :: cs) = some (scanWord valueDue (c :: cs)) := by
  unfold scan?
  split
  case h_11 =>
    rename_i same
    cases same
    rw [if_pos h]
  all_goals
    rename_i same
    cases same
    try exact absurd h (by decide)

theorem toNat_of_isNameStart {c : Char} (h : isNameStart c = true) :
    65 ≤ c.toNat ∧ c.toNat ≤ 122 := by
  obtain letter | underscore := Bool.or_eq_true_iff.1 h
  · obtain upper | lower := Bool.or_eq_true_iff.1 letter
    · obtain ⟨low, high⟩ := of_decide_eq_true upper
      exact ⟨UInt32.le_iff_toNat_le.1 low, Nat.le_trans (UInt32.le_iff_toNat_le.1 high) (by decide)⟩
    · obtain ⟨low, high⟩ := Bool.and_eq_true_iff.1 lower
      have low := UInt32.le_iff_toNat_le.1 (of_decide_eq_true low)
      exact ⟨Nat.le_trans (by decide) low, UInt32.le_iff_toNat_le.1 (of_decide_eq_true high)⟩
  · obtain rfl := eq_of_beq underscore
    decide

theorem isNameStart_of_isDigit {c : Char} (h : c.isDigit = true) : isNameStart c = false := by
  rw [Bool.eq_false_iff]
  intro name
  have high : c.toNat ≤ 57 := (Char.isDigit_iff_toNat.1 h).2
  have low := (toNat_of_isNameStart name).1
  omega

theorem scan?_of_isDigit (valueDue : Bool) {c : Char} (cs : List Char) (h : c.isDigit = true) :
    scan? valueDue (c :: cs) = scanNumber false (c :: cs) := by
  have noName := isNameStart_of_isDigit h
  unfold scan?
  split
  case h_11 =>
    rename_i same
    cases same
    rw [noName, if_neg (by decide), if_pos h]
  all_goals
    rename_i same
    cases same
    try exact absurd h (by decide)

/-- Every token that is found has the form of its kind. -/
theorem wellFormed_of_scan? {valueDue : Bool} {cs rest : List Char} {t : Token}
    (h : scan? valueDue cs = some (t, rest)) : t.WellFormed := by
  fun_cases scan? valueDue cs with
  | case1 | case13 => simp_all [scan?]
  | case2 | case3 | case4 | case5 | case6 | case7 =>
      cases h
      trivial
  | case8 cs =>
      obtain ⟨⟨body, rest'⟩, inner, same⟩ := Option.map_eq_some_iff.1 h
      cases same
      exact stringBody_of_scanString inner
  | case9 => exact wellFormed_of_scanCondition h
  | case10 => exact wellFormed_of_scanNumber h
  | case11 c cs _ _ _ _ _ _ _ _ _ start =>
      have word := (scan?_of_isNameStart valueDue cs start).symm.trans h
      have form := wellFormed_scanWord valueDue cs start
      rwa [Option.some.inj word] at form
  | case12 c cs _ _ _ _ _ _ _ _ _ _ digit =>
      rw [scan?_of_isDigit valueDue cs digit] at h
      exact wellFormed_of_scanNumber h

theorem scanCondition_append_brace {body : List Char} (h : '}' ∉ body) (rest : List Char) :
    scanCondition ('{' :: (body ++ '}' :: rest)) = some (.condition body, rest) := by
  have inside : ∀ c ∈ body, (c != '}') = true := fun c hc => by
    simpa using fun same : c = '}' => h (same ▸ hc)
  rw [scanCondition, dropWhile_append_stop inside (by simp),
    takeWhile_append_stop inside (by simp)]

theorem scanNumber_numeral {digits rest : List Char} (negative : Bool) (h : IsNumeral digits)
    (stops : ∀ c ∈ rest.head?, c.isDigit = false ∧ c ≠ '.' ∧ c ≠ '%') :
    scanNumber negative (digits ++ rest) = some (.integer negative digits, rest) := by
  have ends : ∀ c ∈ rest.head?, c.isDigit = false := fun c hc => (stops c hc).1
  rw [scanNumber, takeWhile_append_stop h.2 ends, dropWhile_append_stop h.2 ends]
  cases rest with
  | nil => simp [h.1]
  | cons c rest => simp [h.1, (stops c rfl).2]

theorem scanNumber_percent {digits : List Char} (negative : Bool) (h : IsNumeral digits)
    (rest : List Char) :
    scanNumber negative (digits ++ '%' :: rest) = some (.percentage negative digits, rest) := by
  have ends : ∀ c ∈ ('%' :: rest).head?, c.isDigit = false := by simp
  rw [scanNumber, takeWhile_append_stop h.2 ends, dropWhile_append_stop h.2 ends]
  simp [h.1]

theorem scanNumber_fraction {whole fraction rest : List Char} (negative : Bool)
    (hwhole : IsNumeral whole) (hfraction : IsNumeral fraction)
    (ends : ∀ c ∈ rest.head?, c.isDigit = false) :
    scanNumber negative (whole ++ '.' :: (fraction ++ rest))
      = some (.float negative whole fraction, rest) := by
  have point : ∀ c ∈ ('.' :: (fraction ++ rest)).head?, c.isDigit = false := by simp
  rw [scanNumber, takeWhile_append_stop hwhole.2 point, dropWhile_append_stop hwhole.2 point]
  obtain ⟨nonempty, digits⟩ := hfraction
  cases fraction with
  | nil => exact absurd rfl nonempty
  | cons d fraction =>
      obtain ⟨first, others⟩ := List.forall_mem_cons.1 digits
      simp [hwhole.1, first, takeWhile_append_stop others ends,
        dropWhile_append_stop others ends]

/-- A sign and digits are scanned as a number. -/
theorem scan?_sign_append (valueDue negative : Bool) {digits : List Char} (h : IsNumeral digits)
    (rest : List Char) :
    scan? valueDue (sign negative ++ (digits ++ rest)) = scanNumber negative (digits ++ rest) := by
  cases negative with
  | true => rfl
  | false =>
      obtain ⟨nonempty, all⟩ := h
      cases digits with
      | nil => exact absurd rfl nonempty
      | cons d digits => exact scan?_of_isDigit valueDue _ (all d List.mem_cons_self)

/-- A token is found where it stands, unless it could be longer there. -/
theorem scan?_spell_append {valueDue : Bool} {t : Token} {rest : List Char} (form : t.WellFormed)
    (place : t.SuitsPlace valueDue) (stops : ∀ c ∈ rest.head?, t.growsBy c = false) :
    scan? valueDue (t.spell ++ rest) = some (t, rest) := by
  cases t with
  | name text =>
      cases text with
      | nil => exact form.elim
      | cons c text =>
          have isName : IsName (c :: text) := form
          have all := isNameChar_of_isName isName
          rw [spell, List.cons_append, scan?_of_isNameStart valueDue _ form.1, scanWord,
            show valueDue = false from place, ← List.cons_append,
            takeWhile_append_stop all stops, dropWhile_append_stop all stops]
          rfl
  | default =>
      rw [show valueDue = true from place]
      simp [spell, defaultWord, scan?_of_isNameStart, isNameStart, scanWord]
  | condition body =>
      rw [spell, List.cons_append, List.cons_append, List.append_assoc, List.singleton_append,
        scan?, scanCondition_append_brace form]
  | string body =>
      rw [spell, List.cons_append, List.append_assoc, List.singleton_append, scan?,
        scanString_append_quote form]
      rfl
  | float negative whole fraction =>
      rw [spell, List.append_assoc, List.append_assoc, List.cons_append,
        scan?_sign_append valueDue negative form.1]
      exact scanNumber_fraction negative form.1 form.2 stops
  | percentage negative digits =>
      rw [spell, List.append_assoc, List.append_assoc, List.singleton_append,
        scan?_sign_append valueDue negative form]
      exact scanNumber_percent negative form rest
  | integer negative digits =>
      rw [spell, List.append_assoc, scan?_sign_append valueDue negative form]
      refine scanNumber_numeral negative form fun c hc => ?_
      have := stops c hc
      simpa [growsBy, and_assoc] using this
  | openBrace | closeBrace | openParen | closeParen | comma | colon => rfl

theorem stops_of_isNameChar {c : Char} (h : isNameChar c = true) :
    isSpace c = false ∧ c ≠ '/' := by
  refine ⟨Bool.eq_false_iff.2 fun space => ?_, fun slash => ?_⟩
  · simp only [isSpace, Bool.or_eq_true, beq_iff_eq] at space
    obtain (((rfl | rfl) | rfl) | rfl) | rfl := space <;> exact absurd h (by decide)
  · subst slash
    exact absurd h (by decide)

/-- The first character of a token belongs to no gap. -/
theorem exists_spell_eq_cons {t : Token} (form : t.WellFormed) :
    ∃ c cs, t.spell = c :: cs ∧ isSpace c = false ∧ c ≠ '/' := by
  have number (negative : Bool) {digits : List Char} (h : IsNumeral digits) (rest : List Char) :
      ∃ c cs, sign negative ++ digits ++ rest = c :: cs ∧ isSpace c = false ∧ c ≠ '/' := by
    obtain ⟨nonempty, all⟩ := h
    cases digits with
    | nil => exact absurd rfl nonempty
    | cons d digits =>
        cases negative with
        | true => exact ⟨'-', _, rfl, rfl, by decide⟩
        | false =>
            have digit : isNameChar d = true := by simp [isNameChar, all d List.mem_cons_self]
            exact ⟨d, _, rfl, stops_of_isNameChar digit⟩
  cases t with
  | name text =>
      cases text with
      | nil => exact form.elim
      | cons c text =>
          have isName : IsName (c :: text) := form
          exact ⟨c, text, rfl,
            stops_of_isNameChar (isNameChar_of_isName isName c List.mem_cons_self)⟩
  | float negative whole fraction => exact number negative form.1 _
  | percentage negative digits => exact number negative form _
  | integer negative digits =>
      have unsuffixed := number negative form []
      rwa [List.append_nil] at unsuffixed
  | _ => exact ⟨_, _, rfl, rfl, by decide⟩

theorem splitGap_spell_append {t : Token} (form : t.WellFormed) (rest : List Char) :
    splitGap false (t.spell ++ rest) = ([], t.spell ++ rest) := by
  obtain ⟨c, cs, spelled, space, slash⟩ := exists_spell_eq_cons form
  rw [spelled, List.cons_append]
  exact splitGap_of_stops space fun h => slash h.1

/-! No line feed stands in a token, except in a condition. -/

theorem StringBody.no_lineFeed {body : List Char} (h : StringBody body) : '\n' ∉ body := by
  induction h with
  | nil => simp
  | plain _ _ lineFeed _ ih => simp [Ne.symm lineFeed, ih]
  | escape lineFeed _ ih => simp [Ne.symm lineFeed, ih]

theorem no_lineFeed_spell {t : Token} (form : t.WellFormed)
    (condition : ∀ body, t = .condition body → '\n' ∉ body) : '\n' ∉ t.spell := by
  have digits {cs : List Char} (h : IsNumeral cs) : '\n' ∉ cs := fun inside =>
    absurd (h.2 _ inside) (by decide)
  have noSign (negative : Bool) : '\n' ∉ sign negative := by cases negative <;> decide
  cases t with
  | name text =>
      intro inside
      have isName : IsName text := form
      exact absurd (isNameChar_of_isName isName _ inside) (by decide)
  | condition body => simp [spell, condition body rfl]
  | string body => simp [spell, form.no_lineFeed]
  | float negative whole fraction => simp [spell, noSign, digits form.1, digits form.2]
  | percentage negative numeral | integer negative numeral =>
      simp [spell, noSign, digits form]
  | _ => decide

/-- A token does not end in a carriage return. -/
theorem getLast?_spell {t : Token} (form : t.WellFormed) :
    ∀ c ∈ t.spell.getLast?, c ≠ '\r' := by
  have numeral {cs : List Char} (h : IsNumeral cs) (before : List Char) :
      ∀ c ∈ (before ++ cs).getLast?, c ≠ '\r' := by
    rintro c last rfl
    rw [List.getLast?_append_of_ne_nil _ h.1] at last
    exact absurd (h.2 _ (List.mem_of_getLast? last)) (by decide)
  cases t with
  | name text =>
      rintro c last rfl
      have isName : IsName text := form
      exact absurd (isNameChar_of_isName isName _ (List.mem_of_getLast? last)) (by decide)
  | condition body | string body => simp [spell, List.getLast?_cons, List.getLast?_append]
  | float negative whole fraction =>
      have last := numeral form.2 (sign negative ++ whole ++ ['.'])
      rwa [List.append_assoc, List.singleton_append] at last
  | percentage negative digits => simp [spell, List.getLast?_append]
  | integer negative digits => exact numeral form _
  | _ => simp [spell, defaultWord]

end MarkupCascade.Token
