/-!
Tables from texts to values. A table lists its keys in the order in which they were first written;
a later write of a key changes its value and leaves it in its place.
-/

namespace MarkupCascade

structure Table (α : Type) where
  entries : List (String × α)
  distinct : (entries.map (·.1)).Nodup
deriving Repr

namespace Table

variable {α : Type}

def empty : Table α := ⟨[], by simp⟩

instance : EmptyCollection (Table α) := ⟨empty⟩

instance : Inhabited (Table α) := ⟨empty⟩

def keys (t : Table α) : List String := t.entries.map (·.1)

def size (t : Table α) : Nat := t.entries.length

/-- Replaces the value of a key where it stands, or adds the key at the end. -/
def write (key : String) (value : α) : List (String × α) → List (String × α)
  | [] => [(key, value)]
  | (k, v) :: rest => if k = key then (k, value) :: rest else (k, v) :: write key value rest

def find? (key : String) : List (String × α) → Option α
  | [] => none
  | (k, v) :: rest => if k = key then some v else find? key rest

theorem map_fst_write (key : String) (value : α) (l : List (String × α)) :
    (write key value l).map (·.1)
      = if key ∈ l.map (·.1) then l.map (·.1) else l.map (·.1) ++ [key] := by
  induction l with
  | nil => simp [write]
  | cons e rest ih =>
    by_cases h : e.1 = key
    · simp [write, h]
    · have ne : key ≠ e.1 := fun same => h same.symm
      simp only [write, h, if_false, List.map_cons, ih, List.mem_cons, ne, false_or]
      split <;> rfl

theorem nodup_map_fst_write (key : String) (value : α) {l : List (String × α)}
    (h : (l.map (·.1)).Nodup) : ((write key value l).map (·.1)).Nodup := by
  rw [map_fst_write]
  split
  · exact h
  · rename_i fresh
    exact List.nodup_append.2 ⟨h, by simp, by grind⟩

def insert (t : Table α) (key : String) (value : α) : Table α :=
  ⟨write key value t.entries, nodup_map_fst_write key value t.distinct⟩

def get? (t : Table α) (key : String) : Option α := find? key t.entries

def contains (t : Table α) (key : String) : Bool := (t.get? key).isSome

/-- Writes entries one after the other. -/
def insertAll (t : Table α) (entries : List (String × α)) : Table α :=
  entries.foldl (fun t e => t.insert e.1 e.2) t

def ofList (entries : List (String × α)) : Table α := insertAll ∅ entries

@[simp] theorem get?_empty (key : String) : (∅ : Table α).get? key = none := rfl

@[simp] theorem keys_empty : (∅ : Table α).keys = [] := rfl

theorem keys_insert (t : Table α) (key : String) (value : α) :
    (t.insert key value).keys = if key ∈ t.keys then t.keys else t.keys ++ [key] :=
  map_fst_write key value t.entries

@[simp] theorem get?_insert (t : Table α) (key other : String) (value : α) :
    (t.insert key value).get? other = if other = key then some value else t.get? other := by
  simp only [get?, insert]
  induction t.entries with
  | nil => simp [write, find?, eq_comm]
  | cons e rest ih =>
    by_cases h : e.1 = key
    · by_cases same : other = key <;> simp_all [write, find?, eq_comm]
    · by_cases here : e.1 = other <;> simp_all [write, find?, eq_comm]

theorem get?_eq_none_iff (t : Table α) (key : String) : t.get? key = none ↔ key ∉ t.keys := by
  simp only [get?, keys]
  induction t.entries with
  | nil => simp [find?]
  | cons e rest ih => by_cases h : e.1 = key <;> simp_all [find?, eq_comm]

end Table

end MarkupCascade
