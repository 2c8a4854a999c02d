import Mathlib.Data.List.Forall2

/-!
When a computation that may fail succeeds, said of its parts.
-/

namespace MarkupCascade.Outcome

variable {ε ε' α β : Type}

theorem bind_eq_ok_iff {x : Except ε α} {f : α → Except ε β} {b : β} :
    (x >>= f) = .ok b ↔ ∃ a, x = .ok a ∧ f a = .ok b := by
  cases x <;> simp [bind, Except.bind]

theorem mapError_eq_ok_iff {x : Except ε α} {f : ε → ε'} {a : α} :
    x.mapError f = .ok a ↔ x = .ok a := by
  cases x <;> simp [Except.mapError]

theorem pure_eq_ok_iff {a b : α} : (pure a : Except ε α) = .ok b ↔ a = b := by
  simp [pure, Except.pure]

theorem throw_ne_ok {fault : ε} {a : α} : (throw fault : Except ε α) ≠ .ok a := by
  simp [throw, throwThe, MonadExceptOf.throw]

theorem exists_map_eq_ok_iff {x : Except ε α} {f : α → β} :
    (∃ b, x.map f = .ok b) ↔ ∃ a, x = .ok a := by
  cases x <;> simp [Except.map]

theorem exists_mapM_eq_ok_iff {f : α → Except ε β} {as : List α} :
    (∃ bs, as.mapM f = .ok bs) ↔ ∀ a ∈ as, ∃ b, f a = .ok b := by
  induction as with
  | nil => simp [pure_eq_ok_iff]
  | cons a as ih =>
      simp only [List.mapM_cons, bind_eq_ok_iff, pure_eq_ok_iff, List.forall_mem_cons, ← ih]
      constructor
      · intro given
        obtain ⟨_, b, first, bs, others, _⟩ := given
        exact ⟨⟨b, first⟩, bs, others⟩
      · intro given
        obtain ⟨⟨b, first⟩, bs, others⟩ := given
        exact ⟨_, b, first, bs, others, rfl⟩

theorem mapM_eq_ok_iff {f : α → Except ε β} {as : List α} {bs : List β} :
    as.mapM f = .ok bs ↔ List.Forall₂ (fun a b => f a = .ok b) as bs := by
  induction as generalizing bs with
  | nil => rw [List.mapM_nil, pure_eq_ok_iff, List.forall₂_nil_left_iff, eq_comm]
  | cons a as ih =>
      simp only [List.mapM_cons, bind_eq_ok_iff, pure_eq_ok_iff, List.forall₂_cons_left_iff, ih]
      constructor
      · intro given
        obtain ⟨b, first, bs, others, rfl⟩ := given
        exact ⟨b, bs, first, others, rfl⟩
      · intro given
        obtain ⟨b, bs, first, others, rfl⟩ := given
        exact ⟨b, first, bs, others, rfl⟩

theorem map_eq_ok_iff {x : Except ε α} {f : α → β} {b : β} :
    x.map f = .ok b ↔ ∃ a, x = .ok a ∧ f a = b := by
  cases x <;> simp [Except.map]

theorem map_eq_error_iff {x : Except ε α} {f : α → β} {e : ε} :
    x.map f = .error e ↔ x = .error e := by
  cases x <;> simp [Except.map]

theorem bind_eq_error_iff {x : Except ε α} {f : α → Except ε β} {e : ε} :
    (x >>= f) = .error e ↔ x = .error e ∨ ∃ a, x = .ok a ∧ f a = .error e := by
  cases x <;> simp [bind, Except.bind]

theorem exists_of_mem_mapM {f : α → Except ε β} {as : List α} {bs : List β}
    (h : as.mapM f = .ok bs) {b : β} (hb : b ∈ bs) : ∃ a ∈ as, f a = .ok b := by
  rw [mapM_eq_ok_iff] at h
  induction h with
  | nil => cases hb
  | @cons a b' as bs first _ ih =>
      cases hb with
      | head => exact ⟨a, List.mem_cons_self, first⟩
      | tail _ later =>
          obtain ⟨a', inside, read⟩ := ih later
          exact ⟨a', List.mem_cons_of_mem a inside, read⟩

/-- The first that fails decides, after others that did not. -/
theorem mapM_eq_error_iff {f : α → Except ε β} {as : List α} {e : ε} :
    as.mapM f = .error e ↔ ∃ before a after, as = before ++ a :: after
      ∧ (∀ b ∈ before, ∃ y, f b = .ok y) ∧ f a = .error e := by
  induction as with
  | nil => simp [pure, Except.pure]
  | cons a as ih =>
      have step : (a :: as).mapM f = .error e
          ↔ f a = .error e ∨ (∃ y, f a = .ok y) ∧ as.mapM f = .error e := by
        simp [List.mapM_cons, bind_eq_error_iff, pure, Except.pure]
      rw [step, ih]
      constructor
      · intro given
        cases given with
        | inl failed => exact ⟨[], a, as, rfl, by simp, failed⟩
        | inr later =>
            obtain ⟨first, before, b, after, rfl, others, failed⟩ := later
            exact ⟨a :: before, b, after, rfl, List.forall_mem_cons.2 ⟨first, others⟩, failed⟩
      · intro ⟨before, b, after, whole, fine, failed⟩
        cases before with
        | nil =>
            cases whole
            exact .inl failed
        | cons c before =>
            cases whole
            obtain ⟨first, others⟩ := List.forall_mem_cons.1 fine
            exact .inr ⟨first, before, b, after, rfl, others, failed⟩

/-- A computation with another failure and another result. -/
def bimap (onError : ε → ε') (onOk : α → β) : Except ε α → Except ε' β
  | .ok a => .ok (onOk a)
  | .error e => .error (onError e)

section Bimap

variable {α' β' : Type} {onError : ε → ε'} {onOk : α → α'} {onNext : β → β'}

theorem bimap_congr {onError' : ε → ε'} {onOk' : α → α'} {x : Except ε α}
    (error : ∀ e, x = .error e → onError e = onError' e)
    (ok : ∀ a, x = .ok a → onOk a = onOk' a) : bimap onError onOk x = bimap onError' onOk' x := by
  cases x with
  | error e => exact congrArg Except.error (error e rfl)
  | ok a => exact congrArg Except.ok (ok a rfl)

theorem bimap_id (x : Except ε α) : bimap id id x = x := by
  cases x <;> rfl

theorem bimap_bind {x : Except ε α} {f : α → Except ε β} {f' : α' → Except ε' β'}
    (rest : ∀ a, x = .ok a → bimap onError onNext (f a) = f' (onOk a)) :
    bimap onError onNext (x >>= f) = bimap onError onOk x >>= f' := by
  cases x with
  | error e => rfl
  | ok a => exact rest a rfl

theorem mapM_map_eq_bimap {f : α → Except ε β} {f' : α' → Except ε' β'} {as : List α}
    (each : ∀ a ∈ as, f' (onOk a) = bimap onError onNext (f a)) :
    (as.map onOk).mapM f' = bimap onError (List.map onNext) (as.mapM f) := by
  induction as with
  | nil => rfl
  | cons a as ih =>
      obtain ⟨first, others⟩ := List.forall_mem_cons.1 each
      rw [List.map_cons, List.mapM_cons, List.mapM_cons, first, ih others]
      refine (bimap_bind fun b _ => ?_).symm
      exact bimap_bind fun bs _ => rfl

end Bimap

/-- Every failure of a computation has a property. -/
def Fails (P : ε → Prop) (x : Except ε α) : Prop := ∀ e, x = .error e → P e

variable {P Q : ε → Prop} {x : Except ε α}

theorem Fails.imp (fails : Fails P x) (h : ∀ e, P e → Q e) : Fails Q x :=
  fun e failed => h e (fails e failed)

theorem fails_pure (a : α) : Fails P (pure a : Except ε α) := nofun

theorem fails_throw {e : ε} (h : P e) : Fails P (throw e : Except ε α) := by
  rintro _ ⟨⟩
  exact h

theorem Fails.bind_of_ok {f : α → Except ε β} (first : Fails P x)
    (rest : ∀ a, x = .ok a → Fails P (f a)) : Fails P (x >>= f) := by
  intro e failed
  cases x with
  | error e' =>
      cases failed
      exact first e rfl
  | ok a => exact rest a rfl e failed

theorem Fails.bind {f : α → Except ε β} (first : Fails P x) (rest : ∀ a, Fails P (f a)) :
    Fails P (x >>= f) :=
  first.bind_of_ok fun a _ => rest a

theorem Fails.mapError {f : ε → ε'} {P : ε' → Prop} (fails : Fails (fun e => P (f e)) x) :
    Fails P (x.mapError f) := by
  intro e failed
  cases x with
  | error e' =>
      cases failed
      exact fails e' rfl
  | ok a => cases failed

theorem fails_mapM {f : α → Except ε β} {as : List α} (each : ∀ a ∈ as, Fails P (f a)) :
    Fails P (as.mapM f) := by
  induction as with
  | nil => exact fails_pure []
  | cons a as ih =>
      obtain ⟨first, others⟩ := List.forall_mem_cons.1 each
      rw [List.mapM_cons]
      exact first.bind fun _ => (ih others).bind fun _ => fails_pure _

theorem Fails.answered (fails : Fails P x) :
    (∃ a, x = .ok a) ∨ ∃ e, x = .error e ∧ P e := by
  cases x with
  | ok a => exact .inl ⟨a, rfl⟩
  | error e => exact .inr ⟨e, rfl, fails e rfl⟩

end MarkupCascade.Outcome
