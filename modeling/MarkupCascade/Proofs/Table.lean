import MarkupCascade.Table

/-!
Tables after any number of writes: the last write of a key decides its value, and the first its
place. A table of what the values have in one part, such as their origins, is kept in step with the
whole by the same writes.
-/

namespace MarkupCascade.Table

variable {α : Type}

/-- The last of some entries that has the key. -/
def last? (key : String) (entries : List (String × α)) : Option α :=
  (entries.reverse.find? (·.1 == key)).map (·.2)

theorem last?_cons (key : String) (e : String × α) (entries : List (String × α)) :
    last? key (e :: entries) = (last? key entries).or (if key = e.1 then some e.2 else none) := by
  simp only [last?, List.reverse_cons, List.find?_append, List.find?_singleton, beq_iff_eq,
    eq_comm (a := e.1)]
  cases entries.reverse.find? fun x => x.1 == key with
  | some x => rfl
  | none => split <;> rfl

theorem last?_eq_none_iff {key : String} {entries : List (String × α)} :
    last? key entries = none ↔ ∀ e ∈ entries, e.1 ≠ key := by
  simp [last?]

theorem last?_append_cons {key : String} (before after : List (String × α)) (value : α)
    (h : ∀ e ∈ after, e.1 ≠ key) :
    last? key (before ++ (key, value) :: after) = some value := by
  have later : last? key after = none := last?_eq_none_iff.2 h
  induction before with
  | nil => rw [List.nil_append, last?_cons, later, Option.none_or, if_pos rfl]
  | cons e before ih => rw [List.cons_append, last?_cons, ih, Option.some_or]

theorem get?_insertAll (t : Table α) (entries : List (String × α)) (key : String) :
    (t.insertAll entries).get? key = (last? key entries).or (t.get? key) := by
  induction entries generalizing t with
  | nil => rfl
  | cons e entries ih =>
      have step : t.insertAll (e :: entries) = (t.insert e.1 e.2).insertAll entries := rfl
      rw [step, ih, get?_insert, last?_cons, Option.or_assoc]
      split <;> rfl

theorem keys_insertAll (t : Table α) (entries : List (String × α)) :
    (t.insertAll entries).keys
      = t.keys ++ ((entries.map (·.1)).filter fun key => key ∉ t.keys).eraseDups := by
  induction entries generalizing t with
  | nil => simp [insertAll]
  | cons e entries ih =>
      have step : t.insertAll (e :: entries) = (t.insert e.1 e.2).insertAll entries := rfl
      rw [step, ih, keys_insert, List.map_cons]
      split
      · rename_i known
        rw [List.filter_cons_of_neg (by simpa using known)]
      · rename_i fresh
        rw [List.filter_cons_of_pos (by simpa using fresh), List.eraseDups_cons,
          List.filter_filter, List.append_assoc, List.singleton_append]
        congr 3
        refine List.filter_congr fun key _ => ?_
        by_cases same : key = e.1 <;> simp [same]

theorem contains_iff_mem_keys (t : Table α) (key : String) :
    t.contains key = true ↔ key ∈ t.keys := by
  rw [contains, Option.isSome_iff_ne_none, ne_eq, get?_eq_none_iff, Decidable.not_not]

/-! The same keys with other values. -/

section Map

variable {β : Type}

def map (f : α → β) (t : Table α) : Table β :=
  ⟨t.entries.map fun e => (e.1, f e.2), by
    rw [List.map_map]
    exact t.distinct⟩

@[simp] theorem keys_map (f : α → β) (t : Table α) : (t.map f).keys = t.keys :=
  List.map_map

@[simp] theorem get?_map (f : α → β) (t : Table α) (key : String) :
    (t.map f).get? key = (t.get? key).map f := by
  simp only [get?, map]
  induction t.entries with
  | nil => rfl
  | cons e rest ih =>
      simp only [List.map_cons, find?, ih]
      split <;> rfl

theorem map_write (f : α → β) (key : String) (value : α) (entries : List (String × α)) :
    (write key value entries).map (fun e => (e.1, f e.2))
      = write key (f value) (entries.map fun e => (e.1, f e.2)) := by
  induction entries with
  | nil => rfl
  | cons e rest ih =>
      simp only [List.map_cons, write, ← ih]
      split <;> rfl

theorem map_insert (f : α → β) (t : Table α) (key : String) (value : α) :
    (t.insert key value).map f = (t.map f).insert key (f value) := by
  simp only [insert, map, map_write]

end Map

end MarkupCascade.Table
