import MarkupCascade.Access
import MarkupCascade.Conversion
import MarkupCascade.Proofs.Settlement

/-!
What a typed read of a component goes by. Of the declarations that apply to the component, the last
of the key decides: its value is what is converted, once, and where the conversion fails its origin
is what is named. Without such a declaration nothing is converted.
-/

namespace MarkupCascade.Cascade

/-- The declaration of a key that is in force where all of the given ones apply: the last. -/
def inForce? (key : String) (ds : List (Attribute × Origin)) : Option (Attribute × Origin) :=
  ds.reverse.find? (·.1.key == key)

theorem inForce?_eq_none_iff {key : String} {ds : List (Attribute × Origin)} :
    inForce? key ds = none ↔ ∀ d ∈ ds, d.1.key ≠ key := by
  simp [inForce?]

theorem find?_reverse_eq_some_iff {α : Type} {p : α → Bool} {as : List α} {a : α} :
    as.reverse.find? p = some a ↔ p a = true
      ∧ ∃ before after, as = before ++ a :: after ∧ ∀ b ∈ after, p b = false := by
  simp only [List.find?_eq_some_iff_append, Bool.not_eq_true']
  refine and_congr_right fun _ => ?_
  constructor
  · intro given
    obtain ⟨later, earlier, whole, others⟩ := given
    refine ⟨earlier.reverse, later.reverse, ?_, fun b hb => others b (List.mem_reverse.1 hb)⟩
    rw [← List.reverse_reverse as, whole]
    simp
  · intro given
    obtain ⟨before, after, rfl, others⟩ := given
    exact ⟨after.reverse, before.reverse, by simp, fun b hb => others b (List.mem_reverse.1 hb)⟩

theorem inForce?_eq_some_iff {key : String} {ds : List (Attribute × Origin)}
    {d : Attribute × Origin} :
    inForce? key ds = some d ↔ d.1.key = key
      ∧ ∃ before after, ds = before ++ d :: after ∧ ∀ e ∈ after, e.1.key ≠ key := by
  simp only [inForce?, find?_reverse_eq_some_iff, beq_iff_eq, beq_eq_false_iff_ne]

/-- The setting of a key is that of the declaration in force. -/
theorem get?_settled (className : String) (line : Int) (ds : List (Attribute × Origin))
    (key : String) :
    (settled className line ds).settings.get? key
      = (inForce? key ds).map fun d => ⟨d.1.value, d.2⟩ := by
  rw [settled, Table.ofList, Table.get?_insertAll, Table.get?_empty, Option.or_none, Table.last?,
    ← List.map_reverse, List.find?_map, Option.map_map]
  rfl

variable {n : Type → Type} [Monad n] {ε α β : Type}

/-- A conversion that keeps a record of the values it is called on, the latest last. -/
def noted (conversion : Value → n β) (v : Value) : StateT (List Value) n β := fun record => do
  let converted ← conversion v
  return (converted, record ++ [v])

/-- The error of a conversion, with the declaration whose value it was called on. -/
def blame (className : String) (line : Int) (key : String) (d : Attribute × Origin) (e : ε) :
    AttributeError ε :=
  ⟨className, line, key, e, some d.2⟩

/-- How a component is read under a key, by the declaration in force if there is one. -/
structure ReadBy (className : String) (line : Int) (key : String)
    (decides : Option (Attribute × Origin)) (r : ResolvedAttributes) : Prop where
  read {n : Type → Type} [Monad n] [LawfulMonad n] {ε α : Type}
    (conversion : Value → n (Except ε α)) (fallback : α) :
    r.read key conversion fallback = match decides with
      | none => pure (.ok fallback)
      | some d => Except.mapError (blame className line key d) <$> conversion d.1.value
  calls {n : Type → Type} [Monad n] [LawfulMonad n] {ε α : Type}
    (conversion : Value → n (Except ε α)) (fallback : α) (record : List Value) :
    (r.read key (noted conversion) fallback).run record
      = (·, record ++ decides.toList.map (·.1.value)) <$> r.read key conversion fallback
  read? {n : Type → Type} [Monad n] [LawfulMonad n] {ε α : Type}
    (conversion : Value → n (Except ε α)) :
    r.read? key conversion = match decides with
      | none => pure (.ok none)
      | some d =>
        if d.1.value.isDefault then pure (.ok none)
        else r.read key (fun v => Except.map some <$> conversion v) none
  calls? {n : Type → Type} [Monad n] [LawfulMonad n] {ε α : Type}
    (conversion : Value → n (Except ε α)) (record : List Value) :
    (r.read? key (noted conversion)).run record
      = (·, record ++ (decides.toList.map (·.1.value)).filter (!·.isDefault))
        <$> r.read? key conversion

variable [LawfulMonad n]

theorem run_noted (conversion : Value → n β) (v : Value) (record : List Value) :
    (noted conversion v).run record = (·, record ++ [v]) <$> conversion v := by
  rw [map_eq_pure_bind]
  rfl

section Convert

variable (r : ResolvedAttributes) (key : String) (d : Attribute × Origin)
  (conversion : Value → n (Except ε α))

theorem convert_eq :
    r.convert key ⟨d.1.value, d.2⟩ conversion
      = Except.mapError (blame r.className r.line key d) <$> conversion d.1.value := by
  rw [ResolvedAttributes.convert, map_eq_pure_bind]
  rfl

theorem run_convert_noted (record : List Value) :
    (r.convert key ⟨d.1.value, d.2⟩ (noted conversion)).run record
      = (·, record ++ [d.1.value]) <$> r.convert key ⟨d.1.value, d.2⟩ conversion := by
  simp only [convert_eq, StateT.run_map, run_noted, Functor.map_map]

theorem convert_some :
    Except.map some <$> r.convert key ⟨d.1.value, d.2⟩ conversion
      = r.convert key ⟨d.1.value, d.2⟩ fun v => Except.map some <$> conversion v := by
  simp only [convert_eq, Functor.map_map]
  refine congrArg (· <$> conversion d.1.value) (funext fun converted => ?_)
  cases converted <;> rfl

end Convert

/-- Settings that declarations leave behind are read by the one in force. -/
theorem readBy_settled (className : String) (line : Int) (ds : List (Attribute × Origin))
    (key : String) :
    ReadBy className line key (inForce? key ds) (settled className line ds) := by
  have found := get?_settled className line ds key
  cases decides : inForce? key ds with
  | none =>
      rw [decides, Option.map_none] at found
      constructor <;> intros
      · rw [ResolvedAttributes.read, found]
      · simp [ResolvedAttributes.read, found]
      · rw [ResolvedAttributes.read?, found]
      · simp [ResolvedAttributes.read?, found]
  | some d =>
      rw [decides, Option.map_some] at found
      constructor
      · intro n _ _ ε α conversion fallback
        rw [ResolvedAttributes.read, found]
        exact convert_eq _ key d conversion
      · intro n _ _ ε α conversion fallback record
        rw [ResolvedAttributes.read, ResolvedAttributes.read, found]
        exact run_convert_noted _ key d conversion record
      · intro n _ _ ε α conversion
        rw [ResolvedAttributes.read?, ResolvedAttributes.read, found]
        refine if_congr Iff.rfl rfl ?_
        rw [← map_eq_pure_bind]
        exact convert_some _ key d conversion
      · intro n _ _ ε α conversion record
        rw [ResolvedAttributes.read?, ResolvedAttributes.read?, found]
        dsimp only
        split
        · rename_i isDefault
          simp [isDefault]
        · rename_i other
          rw [← map_eq_pure_bind, ← map_eq_pure_bind, StateT.run_map, run_convert_noted]
          simp [other]

/-- Resolving a tree settles each component, in document order and at its depth, by those of its
declarations that apply; and a component that is settled by some declarations is read, under every
key, by the last of them that has the key. Nothing else of the declarations matters to a read. -/
theorem read_inForce {m : Type → Type} [Monad m] [LawfulMonad m] (ask : String → m Bool)
    (sheet : Stylesheet) :
    (∀ root, ResolvedComponent.outline 0 <$> resolve ask sheet root
        = (root.outline 0).mapM fun t => do
          let ds := declared sheet t.2.className t.2.line t.2.attributes
          let answers ← ds.mapM (verdict ask)
          return (t.1, settled t.2.className t.2.line (applied ds answers)))
      ∧ ∀ className line ds key,
        ((inForce? key ds = none ↔ ∀ d ∈ ds, d.1.key ≠ key)
          ∧ ∀ d, inForce? key ds = some d ↔ d.1.key = key
            ∧ ∃ before after, ds = before ++ d :: after ∧ ∀ e ∈ after, e.1.key ≠ key)
        ∧ ReadBy className line key (inForce? key ds) (settled className line ds) := by
  refine ⟨fun root => ?_, fun className line ds key => ⟨⟨inForce?_eq_none_iff,
    fun d => inForce?_eq_some_iff⟩, readBy_settled className line ds key⟩⟩
  rw [outline_resolve]
  refine congrArg (root.outline 0).mapM (funext fun t => ?_)
  rw [resolveAt, resolveAttributes_eq, map_bind]
  simp only [map_pure]

/-- A key whose last declaration in force is `default`, one whose value has another kind than the
reader expects, and one that is not declared. -/
theorem read_inForce_mixed :
    let ask (_ : String) : StateM Nat Bool := fun n => pure (n % 2 == 0, n + 1)
    let sheet : Stylesheet :=
      ⟨[⟨"a", [⟨"k", .integer 1, some "x", 0⟩, ⟨"j", .string "big", none, 4⟩], 3⟩], "s"⟩
    let root : Component :=
      .node "a" 7 [⟨"k", .default, none, 8⟩, ⟨"j", .integer 2, some "y", 0⟩] []
    let conversion (v : Value) : Id (Except ConversionError Int) := v.toInteger?
    ∃ r, ((ResolvedComponent.outline 0 <$> resolve ask sheet root).run 0).1 = [(0, r)]
      ∧ r.read? "k" conversion = .ok none
      ∧ (r.read? "k" (noted conversion)).run [] = (.ok none, [])
      ∧ (r.read "j" (noted conversion) 0).run []
        = (.error ⟨"a", 7, "j", .kind [.integer] .string, some ⟨.style, 4, "s"⟩⟩, [.string "big"])
      ∧ (r.read "i" (noted conversion) 0).run [] = (.ok 0, []) := by
  intro ask sheet root conversion
  let ds := applied (declared sheet "a" 7 root.attributes) [true, true, true, false]
  have applies : ds = [(⟨"k", .integer 1, some "x", 0⟩, (⟨.style, 3, "s"⟩ : Origin)),
      (⟨"j", .string "big", none, 4⟩, ⟨.style, 4, "s"⟩),
      (⟨"k", .default, none, 8⟩, ⟨.template, 8, "template"⟩)] := by
    simp [ds, applied, declared, sheet, root, Component.attributes]
  obtain ⟨tree, reads⟩ := read_inForce ask sheet
  have k : inForce? "k" ds = some (⟨"k", .default, none, 8⟩, ⟨.template, 8, "template"⟩) :=
    ((reads "a" 7 ds "k").1.2 _).2 ⟨rfl, [_, _], [], applies, by simp⟩
  have j : inForce? "j" ds = some (⟨"j", .string "big", none, 4⟩, ⟨.style, 4, "s"⟩) :=
    ((reads "a" 7 ds "j").1.2 _).2 ⟨rfl, [_], [_], applies, by simp⟩
  have i : inForce? "i" ds = none := (reads "a" 7 ds "i").1.1.2 (by simp [applies])
  have atK := (reads "a" 7 ds "k").2
  have atJ := (reads "a" 7 ds "j").2
  have atI := (reads "a" 7 ds "i").2
  refine ⟨settled "a" 7 ds, ?_, ?_, ?_, ?_, ?_⟩
  · rw [tree]
    rfl
  · rw [atK.read?, k]
    rfl
  · rw [atK.calls?, atK.read?, k]
    rfl
  · rw [atJ.calls, atJ.read, j]
    rfl
  · rw [atI.calls, atI.read, i]
    rfl

end MarkupCascade.Cascade
