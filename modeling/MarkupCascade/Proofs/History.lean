import Mathlib
import MarkupCascade.Proofs.Outcome
import MarkupCascade.Proofs.Table
import MarkupCascade.Session

/-!
What a session goes by. A step that succeeds may write to the state, register a factory or put a
document in use, and a step that fails does none of that. What all the steps of a session have made
of it is told from these writes alone, in their order: the last one of a key or of a class counts,
and the last document of each kind. So a step that failed or that only asked for something might as
well not have been taken.
-/

namespace MarkupCascade

open Outcome

namespace Table

variable {α : Type}

theorem insertAll_append (t : Table α) (entries more : List (String × α)) :
    t.insertAll (entries ++ more) = (t.insertAll entries).insertAll more :=
  List.foldl_append

theorem write_of_notMem {key : String} {value : α} {l : List (String × α)}
    (fresh : key ∉ l.map (·.1)) : write key value l = l ++ [(key, value)] := by
  induction l with
  | nil => rfl
  | cons e l ih =>
      obtain ⟨other, fresh⟩ := not_or.1 (List.mem_cons.not.1 fresh)
      rw [write, if_neg (Ne.symm other), ih fresh]
      rfl

theorem entries_insertAll {t : Table α} {entries : List (String × α)}
    (distinct : ((t.entries ++ entries).map (·.1)).Nodup) :
    (t.insertAll entries).entries = t.entries ++ entries := by
  induction entries generalizing t with
  | nil => rw [List.append_nil]; rfl
  | cons e entries ih =>
      have fresh : e.1 ∉ t.entries.map (·.1) := by
        rw [List.map_append, List.map_cons] at distinct
        exact fun known => (List.nodup_append.1 distinct).2.2 _ known _ List.mem_cons_self rfl
      have written : (t.insert e.1 e.2).entries = t.entries ++ [e] := write_of_notMem fresh
      have step : t.insertAll (e :: entries) = (t.insert e.1 e.2).insertAll entries := rfl
      rw [List.append_cons, ← written] at distinct
      rw [step, ih distinct, written, List.append_assoc, List.singleton_append]

/-- A table is what its entries make when they are written one after the other. -/
theorem ofList_entries (t : Table α) : ofList t.entries = t := by
  have same : (ofList t.entries).entries = t.entries := entries_insertAll (t := ∅) t.distinct
  cases t
  cases h : ofList _
  simp_all

theorem insertAll_eq_ofList (t : Table α) (entries : List (String × α)) :
    t.insertAll entries = ofList (t.entries ++ entries) := by
  rw [ofList, insertAll_append]
  exact congrArg (insertAll · entries) t.ofList_entries.symm

theorem get?_ofList (entries : List (String × α)) (key : String) :
    (ofList entries).get? key = last? key entries := by
  rw [ofList, get?_insertAll, get?_empty, Option.or_none]

theorem keys_ofList (entries : List (String × α)) :
    (ofList entries).keys = (entries.map (·.1)).eraseDups := by
  rw [ofList, keys_insertAll, keys_empty, List.nil_append, List.filter_eq_self.2 (by simp)]

end Table

namespace Session

variable {α : Type}

namespace Step

/-- What a step writes to the state. -/
def writes : Step α → List (String × Scalar)
  | .set key value => [(key, value)]
  | .update entries => entries
  | _ => []

/-- What a step registers. -/
def registrations : Step α → List (String × (ResolvedAttributes → α))
  | .register className factory => [(className, factory)]
  | _ => []

/-- The template that a step puts in use. A text that cannot be read is none. -/
def template? : Step α → Option Component
  | .template source => (Component.parse source).toOption
  | _ => none

def stylesheet? : Step α → Option Stylesheet
  | .stylesheet source name => (Stylesheet.parse source name).toOption
  | _ => none

/-- The steps that ask for something. -/
def isQuery : Step α → Bool
  | .template _ | .stylesheet _ _ | .set _ _ | .update _ | .register _ _ => false
  | .get _ _ | .contains _ | .lookUp _ | .summary | .evaluate _ | .resolve | .resolveTwice
  | .validate _ | .classNames | .isRegistered _ | .create => true

end Step

/-- What some steps make of a session, told from what they write. -/
def after (s : Session α) (steps : List (Step α)) : Session α where
  state := s.state.insertAll (steps.flatMap Step.writes)
  template := (steps.filterMap Step.template?).getLast?.or s.template
  stylesheet := (steps.filterMap Step.stylesheet?).getLast?.getD s.stylesheet
  registry := s.registry.insertAll (steps.flatMap Step.registrations)

theorem after_append (s : Session α) (steps more : List (Step α)) :
    s.after (steps ++ more) = (s.after steps).after more := by
  simp only [after, List.flatMap_append, List.filterMap_append, Table.insertAll_append,
    List.getLast?_append, Option.or_assoc, Option.getD_or]

theorem after_query (s : Session α) {t : Step α} (h : t.isQuery = true) : s.after [t] = s := by
  cases t <;> first | rfl | cases h

/-- A query changes nothing, whether it is answered or fails. -/
theorem unchanged_of_query (s : Session α) {t : Step α} (h : t.isQuery = true) :
    ∀ answer next, s.step t = .ok (answer, next) → next = s := by
  intro answer next ran
  cases t with
  | template _ | stylesheet _ _ | set _ _ | update _ | register _ _ => cases h
  | get _ _ | contains _ | lookUp _ | summary | classNames | isRegistered _ =>
      cases ran
      rfl
  | evaluate _ | resolve | validate _ | create =>
      obtain ⟨_, _, last⟩ := bind_eq_ok_iff.1 ran
      cases last
      rfl
  | resolveTwice =>
      obtain ⟨_, _, ran⟩ := bind_eq_ok_iff.1 ran
      obtain ⟨_, _, last⟩ := bind_eq_ok_iff.1 ran
      cases last
      rfl

/-- A step fails and changes nothing, or it changes the session as its writes say. -/
theorem step_cases (s : Session α) (t : Step α) :
    (∃ e, s.step t = .error e ∧ s.after [t] = s)
      ∨ ∃ answer, s.step t = .ok (answer, s.after [t]) := by
  by_cases query : t.isQuery = true
  · have same := s.after_query query
    cases ran : s.step t with
    | error e => exact .inl ⟨e, rfl, same⟩
    | ok done =>
        obtain ⟨answer, next⟩ := done
        rw [s.unchanged_of_query query answer next ran, same]
        exact .inr ⟨answer, rfl⟩
  · cases t with
    | set key value => exact .inr ⟨.done, rfl⟩
    | update entries =>
        have written : [Step.update entries].flatMap (@Step.writes α) = entries :=
          List.flatMap_singleton _ _
        refine .inr ⟨.done, ?_⟩
        rw [after, written]
        rfl
    | register className factory => exact .inr ⟨.done, rfl⟩
    | template source =>
        rw [step, after]
        cases read : Component.parse source with
        | error e =>
            have none : (Step.template source : Step α).template? = none := by
              rw [Step.template?, read]
              rfl
            refine .inl ⟨.read e, rfl, ?_⟩
            rw [List.filterMap_cons_none none]
            rfl
        | ok root =>
            have found : (Step.template source : Step α).template? = some root := by
              rw [Step.template?, read]
              rfl
            refine .inr ⟨.names (root.walk.map (·.className)), ?_⟩
            rw [List.filterMap_cons_some found]
            rfl
    | stylesheet source name =>
        rw [step, after]
        cases read : Stylesheet.parse source name with
        | error e =>
            have none : (Step.stylesheet source name : Step α).stylesheet? = none := by
              rw [Step.stylesheet?, read]
              rfl
            refine .inl ⟨.read e, rfl, ?_⟩
            rw [List.filterMap_cons_none none]
            rfl
        | ok sheet =>
            have found : (Step.stylesheet source name : Step α).stylesheet? = some sheet := by
              rw [Step.stylesheet?, read]
              rfl
            refine .inr ⟨.names (sheet.rules.map (·.className)), ?_⟩
            rw [List.filterMap_cons_some found]
            rfl
    | _ => exact absurd rfl query

/-- What a session answers to a step. -/
def answer (s : Session α) (t : Step α) : Except Failure (Answer α) := (s.step t).map (·.1)

theorem run_cons (s : Session α) (t : Step α) (rest : List (Step α)) :
    s.run (t :: rest) = s.answer t :: (s.after [t]).run rest := by
  rw [run, answer]
  obtain ⟨e, ran, same⟩ | ⟨answer, ran⟩ := s.step_cases t
  · rw [ran, same]
    rfl
  · rw [ran]
    rfl

theorem length_run (s : Session α) (steps : List (Step α)) :
    (s.run steps).length = steps.length := by
  induction steps generalizing s with
  | nil => rfl
  | cons t steps ih => rw [run_cons, List.length_cons, List.length_cons, ih]

/-- The answers to some steps are the same whatever follows, and those to what follows depend on
what the steps before have written. -/
theorem run_append (s : Session α) (before rest : List (Step α)) :
    s.run (before ++ rest) = s.run before ++ (s.after before).run rest := by
  induction before generalizing s with
  | nil => rfl
  | cons t before ih =>
      have whole : s.after (t :: before) = (s.after [t]).after before := s.after_append [t] before
      rw [List.cons_append, run_cons, run_cons, ih, whole, List.cons_append]

theorem getElem?_run (s : Session α) (before : List (Step α)) (t : Step α)
    (rest : List (Step α)) :
    (s.run (before ++ t :: rest))[before.length]? = some ((s.after before).answer t) := by
  rw [run_append, run_cons, ← s.length_run before, List.getElem?_append_right (Nat.le_refl _),
    Nat.sub_self, List.getElem?_cons_zero]

/-! Steps left out. -/

/-- A step, with its answer, that leaves no trace: it asks for something, or it failed. -/
def Traceless (x : Step α × Except Failure (Answer α)) : Prop :=
  x.1.isQuery = true ∨ ∃ e, x.2 = .error e

/-- What is left of some steps and their answers when any that leave no trace are deleted. -/
inductive Thinned : List (Step α × Except Failure (Answer α)) →
    List (Step α × Except Failure (Answer α)) → Prop
  | nil : Thinned [] []
  | keep {x : Step α × Except Failure (Answer α)}
      {xs left : List (Step α × Except Failure (Answer α))} :
      Thinned xs left → Thinned (x :: xs) (x :: left)
  | drop {x : Step α × Except Failure (Answer α)}
      {xs left : List (Step α × Except Failure (Answer α))} :
      Traceless x → Thinned xs left → Thinned (x :: xs) left

theorem after_of_traceless {s : Session α} {t : Step α} (h : Traceless (t, s.answer t)) :
    s.after [t] = s := by
  obtain query | ⟨e, failed⟩ := h
  · exact s.after_query query
  · obtain ⟨_, _, same⟩ | ⟨answer, ran⟩ := s.step_cases t
    · exact same
    · rw [Session.answer, ran] at failed
      cases failed

theorem run_of_thinned {s : Session α} {steps : List (Step α)}
    {left : List (Step α × Except Failure (Answer α))}
    (h : Thinned (steps.zip (s.run steps)) left) : s.run (left.map (·.1)) = left.map (·.2) := by
  induction steps generalizing s left with
  | nil =>
      cases h
      rfl
  | cons t steps ih =>
      rw [run_cons, List.zip_cons_cons] at h
      cases h with
      | keep rest => rw [List.map_cons, List.map_cons, run_cons, ih rest]
      | drop traceless rest =>
          rw [after_of_traceless traceless] at rest
          exact ih rest

/-! The answers. -/

/-- What is built from a component, if the last of some factories for its class is taken. -/
def buildLast (s : Session α) (factories : List (String × (ResolvedAttributes → α)))
    (c : Component) : Except Failure α := do
  let resolved ← (Cascade.resolveAttributes (Condition.evaluate s.state) s.stylesheet
    c.className c.line c.attributes).mapError .condition
  match Table.last? c.className factories with
  | some factory => return factory resolved
  | none => throw (.unknownClass ⟨c.className, some c.line⟩)

/-- The answers of a session to steps behind some others, by what was written in the beginning and
by those others. -/
structure Remembers (s : Session α) (before rest : List (Step α)) : Prop where
  answer : ∀ t, (s.run (before ++ t :: rest))[before.length]? = some ((s.after before).answer t)
  get : ∀ key fallback, (s.after before).answer (.get key fallback)
    = .ok (.scalar
      ((Table.last? key (s.state.entries ++ before.flatMap Step.writes)).getD fallback))
  contains : ∀ key, (s.after before).answer (.contains key)
    = .ok (.flag (decide (∃ e ∈ s.state.entries ++ before.flatMap Step.writes, e.1 = key)))
  summary : (s.after before).answer .summary
    = .ok (.text ("RuntimeState(keys=[" ++ ", ".intercalate
      (((s.state.entries ++ before.flatMap Step.writes).map (·.1)).eraseDups.map Text.quote)
      ++ "])"))
  update : ∀ entries, ∃ others,
    s.run (before ++ .update entries :: rest) = s.run before ++ .ok .done :: others
      ∧ s.run (before ++ (entries.map fun e => .set e.1 e.2) ++ rest)
        = s.run before ++ (entries.map fun _ => .ok .done) ++ others
  create : ∀ root, (s.after before).template = some root → (s.after before).answer .create
    = .ok (.created (root.walk.map ((s.after before).buildLast
      (s.registry.entries ++ before.flatMap Step.registrations))))

theorem state_after (s : Session α) (steps : List (Step α)) :
    (s.after steps).state = Table.ofList (s.state.entries ++ steps.flatMap Step.writes) :=
  s.state.insertAll_eq_ofList _

theorem registry_after (s : Session α) (steps : List (Step α)) :
    (s.after steps).registry
      = Table.ofList (s.registry.entries ++ steps.flatMap Step.registrations) :=
  s.registry.insertAll_eq_ofList _

theorem build_eq_buildLast {s : Session α} {factories : List (String × (ResolvedAttributes → α))}
    (h : s.registry = Table.ofList factories) (c : Component) :
    s.build c = s.buildLast factories c := by
  rw [build, buildLast]
  cases resolved : Cascade.resolveAttributes (Condition.evaluate s.state) s.stylesheet
    c.className c.line c.attributes with
  | error e => rfl
  | ok attributes =>
      rw [Cascade.resolveAttributes] at resolved
      obtain ⟨winners, _, last⟩ := bind_eq_ok_iff.1 resolved
      cases last
      change (s.registry.create _).mapError _ = _
      rw [Registry.create, h, Table.get?_ofList]
      dsimp only [Except.mapError, bind, Except.bind]
      cases Table.last? c.className factories <;> rfl

/-- To set entries one by one is to update them all at once. -/
theorem after_map_set (s : Session α) (entries : List (String × Scalar)) :
    s.after (entries.map fun e => .set e.1 e.2) = s.after [.update entries] := by
  have one : (entries.map fun e => Step.set e.1 e.2).flatMap (@Step.writes α) = entries := by
    rw [List.flatMap_map]
    exact List.flatMap_singleton' entries
  have all : [Step.update entries].flatMap (@Step.writes α) = entries :=
    List.flatMap_singleton _ _
  have silent {β : Type} {f : Step α → Option β} (h : ∀ key value, f (.set key value) = none) :
      (entries.map fun e => Step.set e.1 e.2).filterMap f = [] := by
    rw [List.filterMap_eq_nil_iff, List.forall_mem_map]
    exact fun e _ => h e.1 e.2
  have registered : (entries.map fun e => Step.set e.1 e.2).flatMap (@Step.registrations α)
      = [] := by
    rw [List.flatMap_eq_nil_iff, List.forall_mem_map]
    exact fun _ _ => rfl
  rw [after, after, one, all, registered, silent fun _ _ => rfl, silent fun _ _ => rfl]
  rfl

theorem run_map_set (s : Session α) (entries : List (String × Scalar)) :
    s.run (entries.map fun e => .set e.1 e.2) = entries.map fun _ => .ok .done := by
  induction entries generalizing s with
  | nil => rfl
  | cons e entries ih =>
      rw [List.map_cons, run_cons, ih]
      rfl

theorem remembers (s : Session α) (before rest : List (Step α)) : Remembers s before rest := by
  have state := s.state_after before
  constructor
  case answer => exact fun t => s.getElem?_run before t rest
  case get =>
    intro key fallback
    rw [answer, step, state, Table.get?_ofList]
    rfl
  case contains =>
    intro key
    have known : (s.after before).state.contains key
        = decide (∃ e ∈ s.state.entries ++ before.flatMap Step.writes, e.1 = key) := by
      rw [Bool.eq_iff_iff, Table.contains_iff_mem_keys, state, Table.keys_ofList,
        List.mem_eraseDups, List.mem_map, decide_eq_true_eq]
    rw [answer, step, known]
    rfl
  case summary =>
    have keys : (s.after before).state.keys
        = ((s.state.entries ++ before.flatMap Step.writes).map (·.1)).eraseDups := by
      rw [state, Table.keys_ofList]
    change Except.ok (Answer.text (s.after before).state.summary) = _
    unfold State.summary
    rw [keys]
  case update =>
    intro entries
    refine ⟨((s.after before).after [.update entries]).run rest, ?_, ?_⟩
    · rw [run_append, run_cons]
      rfl
    · rw [run_append, run_append, after_append, after_map_set, run_map_set]
  case create =>
    intro root current
    have built : (s.after before).build = (s.after before).buildLast
        (s.registry.entries ++ before.flatMap Step.registrations) :=
      funext fun c => build_eq_buildLast (s.registry_after before) c
    rw [answer, step, Session.current, current, built]
    rfl

/-- Every answer of a session is as the successful writes before it say, and the answers that are
left when steps which failed or only asked are deleted are those of a session without these
steps. -/
theorem run_remembers (s : Session α) :
    (∀ before rest, Remembers s before rest)
      ∧ ∀ (steps : List (Step α)) left, Thinned (steps.zip (s.run steps)) left →
        s.run (left.map (·.1)) = left.map (·.2) :=
  ⟨s.remembers, fun _ _ => run_of_thinned⟩

/-- A text that is no template and a question are left out of a session. In what is left a factory
is replaced, and the later one builds. -/
theorem run_remembers_thinned :
    let s : Session Nat := { state := Table.ofList [("k", .integer 1)] }
    let wrong : Step Nat := .template "a \x7b"
    let question : Step Nat := .get "k" .null
    let kept : List (Step Nat) := [.template "a", .register "a" fun _ => 1, .set "k" (.integer 2),
      .register "a" fun r => r.settings.size, .create]
    let answers : List (Except Failure (Answer Nat)) := [.ok (.names ["a"]), .ok .done, .ok .done,
      .ok .done, .ok (.created [.ok 0])]
    let steps := wrong :: question :: kept
    Thinned (steps.zip (s.run steps)) (kept.zip answers)
      ∧ s.run kept = answers
      ∧ (s.run (steps ++ [question]))[7]? = some (.ok (.scalar (.integer 2))) := by
  intro s wrong question kept answers steps
  have failed : Component.parse "a \x7b" = .error (.unclosed 1) := by cbv
  have read : Component.parse "a" = .ok (.node "a" 1 [] []) := by cbv
  have ran : s.run steps
      = .error (.read (.unclosed 1)) :: .ok (.scalar (.integer 1)) :: answers := by
    simp only [steps, wrong, question, kept, run, step, failed, read]
    rfl
  obtain ⟨told, thinned⟩ := run_remembers s
  have left : Thinned (steps.zip (s.run steps)) (kept.zip answers) := by
    rw [ran]
    exact .drop (.inr ⟨_, rfl⟩) (.drop (.inl rfl) (.keep (.keep (.keep (.keep (.keep .nil))))))
  have asked := told steps []
  have last := asked.answer question
  rw [asked.get "k" .null] at last
  exact ⟨left, thinned _ _ left, last⟩

end Session

end MarkupCascade
