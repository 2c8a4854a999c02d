import MarkupCascade.CommandLine
import MarkupCascade.Proofs.Conjunction
import MarkupCascade.Proofs.History

/-!
States that are given as entries of the form `key=value`. Such an entry is cut at its first equals
sign, and a clause at `!=` wherever that stands before it is cut at an equals sign. So an entry that
is read as a condition holds in the state that it describes, but where its value holds `!=`: there
the condition takes what is before `!=` for its key, and is refused.
-/

namespace MarkupCascade

open Outcome
open Text (IsBlank isBlank strip)

namespace CommandLine

/-- What an entry says: the key stands before its first equals sign and the value behind it, both
with white space around them. -/
def Gives (entry key value : String) : Prop :=
  ∃ left right, entry.toList = left ++ '=' :: right ∧ '=' ∉ left ∧ strip left ≠ []
    ∧ key.toList = strip left ∧ value.toList = strip right

theorem stateEntry_eq_ok_iff {entry key : String} {scalar : Scalar} :
    stateEntry entry = .ok (key, scalar)
      ↔ ∃ value, Gives entry key value ∧ scalar = .string value := by
  unfold stateEntry
  cases found : Clause.splitEquals entry.toList with
  | none =>
      refine iff_of_false (by simp) ?_
      intro ⟨value, ⟨left, right, whole, first, _⟩, _⟩
      rw [whole, Clause.splitEquals_append first] at found
      cases found
  | some sides =>
      obtain ⟨left, right⟩ := sides
      obtain ⟨whole, first⟩ := Clause.splitEquals_eq_some found
      constructor
      · intro given
        dsimp only at given
        split at given
        · cases given
        · rename_i named
          cases given
          exact ⟨_, ⟨left, right, whole.symm, first, by simpa using named, by simp, by simp⟩, rfl⟩
      · intro ⟨value, ⟨left', right', whole', first', named, hkey, hvalue⟩, same⟩
        rw [whole', Clause.splitEquals_append first'] at found
        cases found
        dsimp only
        rw [if_neg (by simpa using named), ← hkey, ← hvalue, same]
        simp

theorem exists_stateOf_eq_ok_iff {entries : List String} :
    (∃ state, stateOf entries = .ok state)
      ↔ ∀ entry ∈ entries, ∃ key value, Gives entry key value := by
  rw [stateOf, exists_map_eq_ok_iff, exists_mapM_eq_ok_iff]
  apply forall₂_congr
  intro entry _
  constructor
  · intro ⟨⟨key, scalar⟩, read⟩
    obtain ⟨value, gives, _⟩ := stateEntry_eq_ok_iff.1 read
    exact ⟨key, value, gives⟩
  · intro ⟨key, value, gives⟩
    exact ⟨_, stateEntry_eq_ok_iff.2 ⟨value, gives, rfl⟩⟩

theorem Gives.of_mem {entries : List String} {pairs : List (String × Scalar)}
    (read : entries.mapM stateEntry = .ok pairs) {pair : String × Scalar} (h : pair ∈ pairs) :
    ∃ entry ∈ entries, ∃ value, Gives entry pair.1 value := by
  obtain ⟨entry, inside, given⟩ := exists_of_mem_mapM read h
  obtain ⟨value, gives, _⟩ := stateEntry_eq_ok_iff.1 given
  exact ⟨entry, inside, value, gives⟩

theorem get?_stateOf_eq_none {entries : List String} {state : State} {key : String}
    (described : stateOf entries = .ok state)
    (absent : ∀ entry ∈ entries, ∀ value, ¬Gives entry key value) : state.get? key = none := by
  obtain ⟨pairs, read, rfl⟩ := map_eq_ok_iff.1 described
  rw [Table.get?_ofList, Table.last?_eq_none_iff]
  intro pair h same
  obtain ⟨entry, inside, value, gives⟩ := Gives.of_mem read h
  rw [same] at gives
  exact absent entry inside value gives

theorem get?_stateOf_append {before after : List String} {entry key value : String} {state : State}
    (described : stateOf (before ++ entry :: after) = .ok state) (gives : Gives entry key value)
    (last : ∀ later ∈ after, ∀ other, ¬Gives later key other) :
    state.get? key = some (.string value) := by
  obtain ⟨pairs, read, rfl⟩ := map_eq_ok_iff.1 described
  rw [List.mapM_append, List.mapM_cons, stateEntry_eq_ok_iff.2 ⟨value, gives, rfl⟩] at read
  simp only [bind_eq_ok_iff, pure_eq_ok_iff, Except.ok.injEq, exists_eq_left'] at read
  obtain ⟨earlier, _, rest, ⟨later, readLater, rfl⟩, rfl⟩ := read
  rw [Table.get?_ofList, Table.last?_append_cons]
  intro pair h same
  obtain ⟨entry', inside, other, gives'⟩ := Gives.of_mem readLater h
  rw [same] at gives'
  exact last entry' inside other gives'

/-! An entry read as a condition. -/

theorem evaluate_entry {entry : String} (whole : ¬['&', '&'] <:+: entry.toList)
    (nonblank : ¬IsBlank entry.toList) (state : State) :
    Condition.evaluate state entry = (Clause.parse entry.toList).map (·.holds state) := by
  rw [Condition.evaluate, Condition.parse_of_not_blank nonblank, Condition.pieces_of_whole whole]
  cases read : Clause.parse entry.toList with
  | error e => simp [read, Except.map, bind, Except.bind]
  | ok c => simp [read, Except.map, bind, Except.bind, pure, Except.pure]

theorem Gives.not_isBlank {entry key value : String} (gives : Gives entry key value) :
    ¬IsBlank entry.toList := by
  obtain ⟨left, right, whole, _⟩ := gives
  exact fun blank => blank.notMem (c := '=') rfl (by simp [whole])

theorem Gives.worded {entry key value : String} (gives : Gives entry key value)
    (named : Clause.isKey key.toList = true) (single : ¬['!', '='] <:+: value.toList) :
    Clause.Worded ⟨key, .equals value.toList⟩ entry.toList := by
  obtain ⟨left, right, whole, _, _, hkey, hvalue⟩ := gives
  obtain ⟨before, after, hbefore, hafter, same⟩ := Text.exists_eq_strip left
  rw [← hkey] at same
  have headed := @Clause.Headed.plain before key.toList after ('=' :: right) hbefore named hafter
  have joined : before ++ (key.toList ++ (after ++ '=' :: right)) = entry.toList := by
    rw [whole, same]
    simp only [List.append_assoc]
  rw [joined] at headed
  have worded := Clause.Worded.equals headed (Text.padded_iff.2 hvalue.symm) single
  rwa [String.ofList_toList] at worded

/-- No form of a clause fits an entry whose value holds `!=`: where the first equals sign is the
operator, `!=` is not free to follow, and where it is the end of `!=`, the key is none. -/
theorem Gives.not_worded {entry key value : String} (gives : Gives entry key value)
    (named : Clause.isKey key.toList = true) (inside : ['!', '='] <:+: value.toList) (c : Clause) :
    ¬Clause.Worded c entry.toList := by
  obtain ⟨left, right, whole, first, _, hkey, hvalue⟩ := gives
  have cut : Clause.splitEquals entry.toList = some (left, right) := by
    rw [whole, Clause.splitEquals_append first]
  intro worded
  have headed {negated : Bool} {head rest piece : List Char}
      (h : Clause.Headed negated head rest piece) :
      ∃ front, piece = front ++ rest ∧ '=' ∉ front := by
    obtain ⟨front, same, others⟩ := h.exists_front
    exact ⟨front, same, others '=' rfl rfl (by decide)⟩
  generalize entry.toList = piece at worded cut
  cases worded with
  | truthy bare | falsy bare =>
      obtain ⟨front, rfl, others⟩ := headed bare
      rw [List.append_nil, Clause.splitEquals_eq_none others] at cut
      cases cut
  | equals compared padded single =>
      obtain ⟨front, rfl, others⟩ := headed compared
      rw [Clause.splitEquals_append others] at cut
      cases cut
      rw [hvalue, Text.padded_iff.1 padded] at inside
      exact single inside
  | @differs _ _ text _ compared padded =>
      obtain ⟨front, rfl, others⟩ := headed compared
      rw [List.append_cons, Clause.splitEquals_append (by simp [others])] at cut
      cases cut
      have mark : '!' ∈ strip (front ++ ['!']) := Text.mem_strip (by simp) rfl
      rw [← hkey] at mark
      exact (Clause.solid_of_isKey named).mark mark

/-- A state that is described by entries holds, for each key, what the last entry of the key gives
it, and nothing under other keys. That entry, read as a condition, holds in the state exactly if its
value is without `!=`, and is refused otherwise. This is said of entries that name a key of
conditions and are without `&&`. -/
theorem stateOf_satisfies (entries : List String) :
    ((∃ state, stateOf entries = .ok state)
      ↔ ∀ entry ∈ entries, ∃ key value, Gives entry key value)
    ∧ ∀ state, stateOf entries = .ok state →
      (∀ key, (∀ entry ∈ entries, ∀ value, ¬Gives entry key value) → state.get? key = none)
      ∧ ∀ before entry after key value, entries = before ++ entry :: after →
        Gives entry key value → (∀ later ∈ after, ∀ other, ¬Gives later key other) →
        state.get? key = some (.string value)
        ∧ (Clause.isKey key.toList = true → ¬['&', '&'] <:+: entry.toList →
          (¬['!', '='] <:+: value.toList → Condition.evaluate state entry = .ok true)
          ∧ (['!', '='] <:+: value.toList → ∃ e, Condition.evaluate state entry = .error e)) := by
  refine ⟨exists_stateOf_eq_ok_iff, fun state described =>
    ⟨fun key absent => get?_stateOf_eq_none described absent, ?_⟩⟩
  intro before entry after key value same gives last
  subst same
  have held := get?_stateOf_append described gives last
  refine ⟨held, fun named whole => ⟨?_, ?_⟩⟩
  · intro single
    rw [evaluate_entry whole gives.not_isBlank,
      Clause.parse_eq_ok_iff.2 (gives.worded named single)]
    simp [Except.map, Clause.holds, State.lookUp, held, Scalar.text]
  · intro inside
    rw [evaluate_entry whole gives.not_isBlank]
    cases read : Clause.parse entry.toList with
    | error e => exact ⟨e, rfl⟩
    | ok c => exact absurd (Clause.parse_eq_ok_iff.1 read) (gives.not_worded named inside c)

/-- A key that is given twice, the second time a value that holds both characters of `!=` in the
other order. -/
theorem stateOf_satisfies_overwritten :
    let entries := ["x = 1", " x=a=!b "]
    ∃ state, stateOf entries = .ok state ∧ Gives " x=a=!b " "x" "a=!b"
      ∧ state.get? "x" = some (.string "a=!b")
      ∧ Condition.evaluate state " x=a=!b " = .ok true := by
  intro entries
  have gives : Gives " x=a=!b " "x" "a=!b" :=
    ⟨" x".toList, "a=!b ".toList, rfl, by decide, by decide, rfl, rfl⟩
  have gives' : Gives "x = 1" "x" "1" :=
    ⟨"x ".toList, " 1".toList, rfl, by decide, by decide, rfl, rfl⟩
  obtain ⟨accepted, described⟩ := stateOf_satisfies entries
  obtain ⟨state, read⟩ := accepted.2 (List.forall_mem_cons.2
    ⟨⟨_, _, gives'⟩, List.forall_mem_singleton.2 ⟨_, _, gives⟩⟩)
  obtain ⟨held, condition⟩ := (described state read).2 ["x = 1"] _ [] _ _ rfl gives (by simp)
  exact ⟨state, read, gives, held, (condition rfl (by decide)).1 (by decide)⟩

/-- The state that this entry describes is one in which it is no condition. -/
theorem entry_refused_as_condition :
    Gives "a=b!=c" "a" "b!=c" ∧ Clause.isKey "a".toList = true
      ∧ ¬['&', '&'] <:+: "a=b!=c".toList
      ∧ ∃ state, stateOf ["a=b!=c"] = .ok state
        ∧ Condition.evaluate state "a=b!=c" = .error ⟨"a=b", "a=b!=c"⟩ :=
  ⟨⟨"a".toList, "b!=c".toList, rfl, by decide, by decide, rfl, rfl⟩, rfl, by decide, _, rfl, rfl⟩

end CommandLine

end MarkupCascade
