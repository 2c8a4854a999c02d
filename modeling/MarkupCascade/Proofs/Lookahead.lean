import MarkupCascade.Proofs.Lexical

/-!
How far the scanner looks beyond a token. Where a token was found it is found again, whatever is put
behind it, as long as the text there cannot be taken as a part of it; for this no more than two
characters matter. A line feed ends every token and makes none possible.
-/

namespace MarkupCascade.Token

/-- The text behind a token does not make it longer. A point belongs to a number only with a digit
behind it. -/
def Stops : Token → List Char → Prop
  | .name _, rest => ∀ c ∈ rest.head?, isNameChar c = false
  | .float .., rest => ∀ c ∈ rest.head?, c.isDigit = false
  | .integer .., rest => (∀ c ∈ rest.head?, c.isDigit = false ∧ c ≠ '%')
      ∧ ∀ c more, rest = '.' :: c :: more → c.isDigit = false
  | _, _ => True

/-- Where a value is due a word is a name only if it does not begin with the keyword, and the
keyword is one nowhere else. -/
def Belongs (valueDue : Bool) : Token → Prop
  | .name text => valueDue = true → ¬defaultWord <+: text
  | .default => valueDue = true
  | _ => True

/-- A token that is found again as long as this text stands behind it. -/
structure Fits (valueDue : Bool) (t : Token) (rest : List Char) : Prop where
  belongs : t.Belongs valueDue
  stops : t.Stops rest

theorem stops_lineFeed (t : Token) (more : List Char) : t.Stops ('\n' :: more) := by
  cases t <;> simp [Stops, isNameChar, isNameStart]

/-- What stands behind a token may be cut off anywhere by a line feed. -/
theorem Stops.cut {t : Token} {cs rest : List Char} (h : t.Stops (cs ++ rest))
    (more : List Char) : t.Stops (cs ++ '\n' :: more) := by
  cases cs with
  | nil => exact stops_lineFeed t more
  | cons c cs =>
      cases t with
      | integer negative digits =>
          refine ⟨h.1, ?_⟩
          intro d others same
          cases cs with
          | nil =>
              cases same
              decide
          | cons d' cs =>
              obtain ⟨rfl, rfl, rfl⟩ : c = '.' ∧ d' = d ∧ cs ++ '\n' :: more = others := by
                simpa using same
              exact h.2 d' (cs ++ rest) rfl
      | name _ | float _ _ _ => exact h
      | _ => trivial

theorem Fits.cut {valueDue : Bool} {t : Token} {cs rest : List Char}
    (h : t.Fits valueDue (cs ++ rest)) (more : List Char) : t.Fits valueDue (cs ++ '\n' :: more) :=
  ⟨h.belongs, h.stops.cut more⟩

theorem head_dropWhile (p : Char → Bool) (cs : List Char) :
    ∀ c ∈ (cs.dropWhile p).head?, p c = false := by
  intro c hc
  have ends := List.head?_dropWhile_not p cs
  rw [hc] at ends
  simpa using ends

theorem fits_of_scanNumber {negative : Bool} {cs rest : List Char} {t : Token}
    (h : scanNumber negative cs = some (t, rest)) (valueDue : Bool) : t.Fits valueDue rest := by
  have noDigit := head_dropWhile Char.isDigit cs
  simp only [scanNumber] at h
  split at h
  · cases h
  split at h
  · rename_i d more point
    split at h <;> cases h
    · exact ⟨trivial, head_dropWhile Char.isDigit more⟩
    · rename_i other
      rw [point] at noDigit ⊢
      refine ⟨trivial, fun c hc => ⟨noDigit c hc, ?_⟩, fun c others same => ?_⟩
      · cases hc
        decide
      · cases same
        simpa using other
  · cases h
    exact ⟨trivial, trivial⟩
  · rename_i fraction percent
    cases h
    refine ⟨trivial, fun c hc => ⟨noDigit c hc, ?_⟩,
      fun c others same => absurd same (fraction c others)⟩
    rintro rfl
    obtain ⟨others, same⟩ := List.head?_eq_some_iff.1 hc
    exact percent others same

theorem fits_scanWord (valueDue : Bool) (cs : List Char) :
    (scanWord valueDue cs).1.Fits valueDue (scanWord valueDue cs).2 := by
  simp only [scanWord]
  split
  · rename_i keyword
    exact ⟨(Bool.and_eq_true_iff.1 keyword).1, trivial⟩
  · rename_i other
    refine ⟨?_, head_dropWhile isNameChar cs⟩
    rintro rfl keyword
    have begins := List.isPrefixOf_iff_prefix.2 (keyword.trans (List.takeWhile_prefix _))
    exact other (by rw [begins, Bool.and_self])

/-- Every token that is found fits where it is found. -/
theorem fits_of_scan? {valueDue : Bool} {cs rest : List Char} {t : Token}
    (h : scan? valueDue cs = some (t, rest)) : t.Fits valueDue rest := by
  fun_cases scan? valueDue cs with
  | case1 | case13 => simp_all [scan?]
  | case2 | case3 | case4 | case5 | case6 | case7 =>
      cases h
      exact ⟨trivial, trivial⟩
  | case8 cs =>
      obtain ⟨⟨body, rest'⟩, inner, same⟩ := Option.map_eq_some_iff.1 h
      cases same
      exact ⟨trivial, trivial⟩
  | case9 cs =>
      change scanCondition cs = _ at h
      unfold scanCondition at h
      split at h
      · split at h <;> cases h
        exact ⟨trivial, trivial⟩
      · cases h
  | case10 => exact fits_of_scanNumber h valueDue
  | case11 c cs _ _ _ _ _ _ _ _ _ start =>
      have word := (scan?_of_isNameStart valueDue cs start).symm.trans h
      have fits := fits_scanWord valueDue (c :: cs)
      rwa [Option.some.inj word] at fits
  | case12 c cs _ _ _ _ _ _ _ _ _ _ digit =>
      rw [scan?_of_isDigit valueDue cs digit] at h
      exact fits_of_scanNumber h valueDue

theorem scanWord_name {valueDue : Bool} {text rest : List Char} (form : IsName text)
    (fits : (name text).Fits valueDue rest) :
    scanWord valueDue (text ++ rest) = (.name text, rest) := by
  obtain ⟨belongs, stops⟩ := fits
  have all := isNameChar_of_isName form
  have body := takeWhile_append_stop all stops
  have noKeyword : ¬(valueDue && defaultWord.isPrefixOf (text ++ rest)) = true := by
    intro keyword
    obtain ⟨due, begins⟩ := Bool.and_eq_true_iff.1 keyword
    obtain ⟨more, same⟩ := List.isPrefixOf_iff_prefix.1 begins
    -- The keyword is all of characters of a name, so it cannot go on over the end of this one.
    rw [← same, List.takeWhile_append_of_pos (List.all_eq_true.1 rfl)] at body
    exact belongs due ⟨_, body⟩
  rw [scanWord, if_neg noKeyword, body, dropWhile_append_stop all stops]

theorem scanNumber_integer {digits rest : List Char} (negative : Bool) (h : IsNumeral digits)
    (stops : (integer negative digits).Stops rest) :
    scanNumber negative (digits ++ rest) = some (.integer negative digits, rest) := by
  obtain ⟨ends, noFraction⟩ := stops
  have noDigit : ∀ c ∈ rest.head?, c.isDigit = false := fun c hc => (ends c hc).1
  have nonempty : digits.isEmpty = false := by simpa using h.1
  rw [scanNumber, takeWhile_append_stop h.2 noDigit, dropWhile_append_stop h.2 noDigit, nonempty]
  split
  · contradiction
  split
  · rename_i d more
    rw [noFraction d more rfl]
    rfl
  · exact absurd rfl (ends '%' rfl).2
  · rfl

/-- A token is found wherever it fits. -/
theorem scan?_of_fits {valueDue : Bool} {t : Token} {rest : List Char} (form : t.WellFormed)
    (fits : t.Fits valueDue rest) : scan? valueDue (t.spell ++ rest) = some (t, rest) := by
  cases t with
  | name text =>
      cases text with
      | nil => exact form.elim
      | cons c text =>
          have isName : IsName (c :: text) := form
          rw [spell, List.cons_append, scan?_of_isNameStart valueDue _ form.1, ← List.cons_append,
            scanWord_name isName fits]
  | integer negative digits =>
      rw [spell, List.append_assoc, scan?_sign_append valueDue negative form]
      exact scanNumber_integer negative form fits.stops
  | float _ _ _ => exact scan?_spell_append form trivial fits.stops
  | default => exact scan?_spell_append form fits.belongs fun _ _ => rfl
  | _ => exact scan?_spell_append form trivial fun _ _ => rfl

theorem scanNumber_ne_none {negative : Bool} {c : Char} (h : c.isDigit = true) (cs : List Char) :
    scanNumber negative (c :: cs) ≠ none := by
  intro none
  simp only [scanNumber, List.takeWhile_cons_of_pos h, List.isEmpty_cons] at none
  split at none
  · contradiction
  split at none
  · split at none <;> cases none
  · cases none
  · cases none

/-- Where no token begins, none begins when the line ends behind the first character. -/
theorem scan?_eq_none_cut {valueDue : Bool} {c : Char} {rest : List Char}
    (h : scan? valueDue (c :: rest) = none) (more : List Char) :
    scan? valueDue (c :: '\n' :: more) = none := by
  by_cases start : isNameStart c = true
  · rw [scan?_of_isNameStart valueDue rest start] at h
    cases h
  by_cases digit : c.isDigit = true
  · rw [scan?_of_isDigit valueDue rest digit] at h
    exact absurd h (scanNumber_ne_none digit rest)
  unfold scan?
  split
  case h_11 =>
    rename_i same
    cases same
    rw [if_neg start, if_neg digit]
  all_goals
    rename_i same
    cases same <;> first | rfl | cases h

end MarkupCascade.Token
