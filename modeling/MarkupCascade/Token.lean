/-!
The tokens of markup, and the text between them that means nothing. Scanning takes the longest
token; a word is a name except where a value is due, where `default` is the keyword even if more of
a word follows.
-/

namespace MarkupCascade

inductive Token where
  | name (text : List Char)
  | default
  /-- A condition, without the brace and question mark around it. -/
  | condition (body : List Char)
  /-- A string, without the quotes and with its escapes. -/
  | string (body : List Char)
  | float (negative : Bool) (whole fraction : List Char)
  | percentage (negative : Bool) (digits : List Char)
  | integer (negative : Bool) (digits : List Char)
  | openBrace
  | closeBrace
  | openParen
  | closeParen
  | comma
  | colon
deriving DecidableEq, Repr

namespace Token

/-- The keyword for a value that the reader of the attribute is to choose. -/
def defaultWord : List Char := ['d', 'e', 'f', 'a', 'u', 'l', 't']

def sign (negative : Bool) : List Char := if negative then ['-'] else []

/-- The characters of a token, as they stand in the source. -/
def spell : Token → List Char
  | .name text => text
  | .default => defaultWord
  | .condition body => '?' :: '{' :: (body ++ ['}'])
  | .string body => '"' :: (body ++ ['"'])
  | .float negative whole fraction => sign negative ++ whole ++ '.' :: fraction
  | .percentage negative digits => sign negative ++ digits ++ ['%']
  | .integer negative digits => sign negative ++ digits
  | .openBrace => ['{']
  | .closeBrace => ['}']
  | .openParen => ['(']
  | .closeParen => [')']
  | .comma => [',']
  | .colon => [':']

/-- Names begin with a letter or an underscore, of ASCII as all characters of a name. -/
def isNameStart (c : Char) : Bool := c.isAlpha || c == '_'

def isNameChar (c : Char) : Bool := isNameStart c || c.isDigit || c == '-'

/-- Space, tab, line feed, form feed or carriage return. -/
def isSpace (c : Char) : Bool :=
  c == ' ' || c == '\t' || c == '\n' || c == '\x0c' || c == '\r'

/-- Splits off the spaces and comments in front of a token. A comment runs to the end of its line;
`inComment` tells whether the text begins inside one. -/
def splitGap (inComment : Bool) : List Char → List Char × List Char
  | [] => ([], [])
  | c :: cs =>
    if inComment then
      let (gap, rest) := splitGap (c != '\n') cs
      (c :: gap, rest)
    else if isSpace c then
      let (gap, rest) := splitGap false cs
      (c :: gap, rest)
    else if c == '/' && cs.head? == some '/' then
      let (gap, rest) := splitGap true cs
      (c :: gap, rest)
    else ([], c :: cs)

/-- The rest of a string after its opening quote, up to the next quote that is not escaped. No
string goes on past the end of its line. -/
def scanString : List Char → Option (List Char × List Char)
  | [] => none
  | '"' :: cs => some ([], cs)
  | '\n' :: _ => none
  | '\\' :: '\n' :: _ => none
  | '\\' :: c :: cs => (scanString cs).map fun (body, rest) => ('\\' :: c :: body, rest)
  | c :: cs => (scanString cs).map fun (body, rest) => (c :: body, rest)

/-- A number: digits with a fraction, with a percent sign, or with neither. -/
def scanNumber (negative : Bool) (cs : List Char) : Option (Token × List Char) :=
  let digits := cs.takeWhile Char.isDigit
  let rest := cs.dropWhile Char.isDigit
  if digits.isEmpty then none
  else match rest with
    | '.' :: d :: more =>
      if d.isDigit then
        some (.float negative digits (d :: more.takeWhile Char.isDigit),
          more.dropWhile Char.isDigit)
      else some (.integer negative digits, rest)
    | '%' :: more => some (.percentage negative digits, more)
    | _ => some (.integer negative digits, rest)

/-- The condition that follows a question mark: any characters between two braces. -/
def scanCondition : List Char → Option (Token × List Char)
  | '{' :: cs =>
    match cs.dropWhile (· != '}') with
    | _ :: rest => some (.condition (cs.takeWhile (· != '}')), rest)
    | [] => none
  | _ => none

/-- A name, or the keyword `default` where a value is due. -/
def scanWord (valueDue : Bool) (cs : List Char) : Token × List Char :=
  if valueDue && defaultWord.isPrefixOf cs then (.default, cs.drop defaultWord.length)
  else (.name (cs.takeWhile isNameChar), cs.dropWhile isNameChar)

/-- The token at the head of a text, and what follows it. -/
def scan? (valueDue : Bool) : List Char → Option (Token × List Char)
  | [] => none
  | '{' :: cs => some (.openBrace, cs)
  | '}' :: cs => some (.closeBrace, cs)
  | '(' :: cs => some (.openParen, cs)
  | ')' :: cs => some (.closeParen, cs)
  | ',' :: cs => some (.comma, cs)
  | ':' :: cs => some (.colon, cs)
  | '"' :: cs => (scanString cs).map fun (body, rest) => (.string body, rest)
  | '?' :: cs => scanCondition cs
  | '-' :: cs => scanNumber true cs
  | c :: cs =>
    if isNameStart c then some (scanWord valueDue (c :: cs))
    else if c.isDigit then scanNumber false (c :: cs)
    else none

/-! Nothing is lost: gap and token stand in the text in front of what follows them. -/

theorem splitGap_append (inComment : Bool) (cs : List Char) :
    (splitGap inComment cs).1 ++ (splitGap inComment cs).2 = cs := by
  induction cs generalizing inComment with
  | nil => rfl
  | cons c cs ih =>
    simp only [splitGap]
    split
    · simp [ih]
    · split
      · simp [ih]
      · split <;> simp [ih]

theorem scanString_append {cs body rest : List Char} (h : scanString cs = some (body, rest)) :
    body ++ '"' :: rest = cs := by
  fun_induction scanString cs generalizing body with
  | case1 | case3 | case4 => simp at h
  | case2 => simp at h; simp [h]
  | case5 | case6 =>
    obtain ⟨⟨body', rest'⟩, inner, same⟩ := Option.map_eq_some_iff.1 h
    cases same
    simp_all

theorem scanNumber_append {negative : Bool} {cs rest : List Char} {t : Token}
    (h : scanNumber negative cs = some (t, rest)) :
    t.spell ++ rest = sign negative ++ cs ∧ t.spell ≠ [] := by
  have whole := List.takeWhile_append_dropWhile (p := Char.isDigit) (l := cs)
  simp only [scanNumber] at h
  split at h
  · simp at h
  rename_i nonempty
  split at h
  · rename_i d more point
    rw [point] at h whole
    clear point
    generalize cs.takeWhile Char.isDigit = digits at *
    subst whole
    split at h <;> cases h
    · simp [spell, List.takeWhile_append_dropWhile]
    · simp_all [spell]
  · rename_i more percent
    rw [percent] at whole
    clear percent
    generalize cs.takeWhile Char.isDigit = digits at *
    subst whole
    cases h
    simp [spell]
  · cases h
    simp_all [spell]

theorem scanCondition_append {cs rest : List Char} {t : Token}
    (h : scanCondition cs = some (t, rest)) : t.spell ++ rest = '?' :: cs ∧ t.spell ≠ [] := by
  fun_cases scanCondition cs with
  | case1 cs c more found =>
    have body := List.takeWhile_append_dropWhile (p := (· != '}')) (l := cs)
    have close : c = '}' := by
      have := List.head?_dropWhile_not (· != '}') cs
      simpa [found] using this
    simp only [scanCondition, found, Option.some.injEq, Prod.mk.injEq] at h
    obtain ⟨rfl, rfl⟩ := h
    simp_all [spell]
  | case2 cs empty =>
    rw [scanCondition, empty] at h
    cases h
  | case3 cs other =>
    rw [scanCondition] at h
    · cases h
    · exact other

theorem scanWord_append (valueDue : Bool) {c : Char} (cs : List Char) (h : isNameStart c = true) :
    (scanWord valueDue (c :: cs)).1.spell ++ (scanWord valueDue (c :: cs)).2 = c :: cs
      ∧ (scanWord valueDue (c :: cs)).1.spell ≠ [] := by
  simp only [scanWord]
  split
  · rename_i keyword
    obtain ⟨rest, same⟩ := List.isPrefixOf_iff_prefix.1 (Bool.and_eq_true_iff.1 keyword).2
    rw [← same]
    simp [spell, defaultWord]
  · simp [spell, isNameChar, h, List.takeWhile_append_dropWhile]

theorem scan?_append {valueDue : Bool} {cs rest : List Char} {t : Token}
    (h : scan? valueDue cs = some (t, rest)) : t.spell ++ rest = cs ∧ t.spell ≠ [] := by
  fun_cases scan? valueDue cs with
  | case1 | case13 => simp_all [scan?]
  | case2 | case3 | case4 | case5 | case6 | case7 =>
    simp only [scan?, Option.some.injEq, Prod.mk.injEq] at h
    obtain ⟨rfl, rfl⟩ := h
    simp [spell]
  | case8 cs =>
    obtain ⟨⟨body, rest'⟩, inner, same⟩ := Option.map_eq_some_iff.1 h
    cases same
    simp [spell, scanString_append inner]
  | case9 => exact scanCondition_append h
  | case10 => exact scanNumber_append h
  | case11 c cs _ _ _ _ _ _ _ _ _ start =>
    have word : scan? valueDue (c :: cs) = some (scanWord valueDue (c :: cs)) := by
      simp_all [scan?]
    have whole := scanWord_append valueDue cs start
    rwa [Option.some.inj (word.symm.trans h)] at whole
  | case12 c cs _ _ _ _ _ _ _ _ _ start digit =>
    have number : scan? valueDue (c :: cs) = scanNumber false (c :: cs) := by
      simp_all [scan?]
    exact @scanNumber_append false _ _ _ (number ▸ h)

theorem length_lt_of_scan? {valueDue : Bool} {cs rest : List Char} {t : Token}
    (h : scan? valueDue cs = some (t, rest)) : rest.length < cs.length := by
  obtain ⟨rfl, nonempty⟩ := scan?_append h
  have := List.length_pos_iff.2 nonempty
  simp only [List.length_append]
  omega

end Token

end MarkupCascade
