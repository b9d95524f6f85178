import TwoWay.Event

/-!
How a computation with a bounded supply of calls ends: with an answer, with a refusal that states
its reason, or with the supply used up. A traced outcome also carries the events reported on the
way; a refusal ends the computation, and the events before it are kept.
-/

namespace TwoWay

inductive Outcome (κ α : Type) where
  | done (answer : α)
  | refused (reason : κ)
  | exhausted
  deriving DecidableEq

namespace Outcome

variable {κ α β : Type}

def bind (outcome : Outcome κ α) (next : α → Outcome κ β) : Outcome κ β :=
  match outcome with
  | done x => next x
  | refused reason => refused reason
  | exhausted => exhausted

def map (f : α → β) (outcome : Outcome κ α) : Outcome κ β := outcome.bind fun x => done (f x)

/-- Tries another computation after a refusal, and only then. -/
def orElse (outcome : Outcome κ α) (other : Unit → Outcome κ α) : Outcome κ α :=
  match outcome with
  | done x => done x
  | refused _ => other ()
  | exhausted => exhausted

def ofOption : Option α → Outcome Unit α
  | some x => done x
  | none => refused ()

def require (condition : Bool) : Outcome Unit Unit :=
  if condition then done () else refused ()

@[simp] theorem done_bind (x : α) (next : α → Outcome κ β) : (done x).bind next = next x := rfl

@[simp] theorem refused_bind (reason : κ) (next : α → Outcome κ β) :
    (refused reason).bind next = refused reason := rfl

@[simp] theorem exhausted_bind (next : α → Outcome κ β) :
    (exhausted : Outcome κ α).bind next = exhausted := rfl

theorem bind_done (outcome : Outcome κ α) : outcome.bind done = outcome := by
  cases outcome <;> rfl

theorem bind_assoc {γ : Type} (outcome : Outcome κ α) (next : α → Outcome κ β)
    (last : β → Outcome κ γ) :
    (outcome.bind next).bind last = outcome.bind fun x => (next x).bind last := by
  cases outcome <;> rfl

theorem bind_eq_done_iff {outcome : Outcome κ α} {next : α → Outcome κ β} {y : β} :
    outcome.bind next = done y ↔ ∃ x, outcome = done x ∧ next x = done y := by
  cases outcome <;> simp

theorem bind_eq_refused_iff {outcome : Outcome κ α} {next : α → Outcome κ β} {reason : κ} :
    outcome.bind next = refused reason ↔
      outcome = refused reason ∨ ∃ x, outcome = done x ∧ next x = refused reason := by
  cases outcome <;> simp

theorem map_eq_done_iff {outcome : Outcome κ α} {f : α → β} {y : β} :
    outcome.map f = done y ↔ ∃ x, outcome = done x ∧ f x = y := by
  simp [map, bind_eq_done_iff]

@[simp] theorem map_eq_refused_iff {outcome : Outcome κ α} {f : α → β} {reason : κ} :
    outcome.map f = refused reason ↔ outcome = refused reason := by
  simp [map, bind_eq_refused_iff]

theorem orElse_eq_done_iff {outcome : Outcome κ α} {other : Unit → Outcome κ α} {x : α} :
    outcome.orElse other = done x ↔
      outcome = done x ∨ (∃ reason, outcome = refused reason) ∧ other () = done x := by
  cases outcome <;> simp [orElse]

/-- Nothing else is tried unless there is a refusal. -/
theorem orElse_eq_self {outcome : Outcome κ α} {other : Unit → Outcome κ α}
    (h : ∀ reason, outcome ≠ refused reason) : outcome.orElse other = outcome := by
  cases outcome with
  | refused reason => exact absurd rfl (h reason)
  | done _ | exhausted => rfl

theorem bind_eq_exhausted_iff {outcome : Outcome κ α} {next : α → Outcome κ β} :
    outcome.bind next = exhausted ↔
      outcome = exhausted ∨ ∃ x, outcome = done x ∧ next x = exhausted := by
  cases outcome <;> simp

@[simp] theorem map_eq_exhausted_iff {outcome : Outcome κ α} {f : α → β} :
    outcome.map f = exhausted ↔ outcome = exhausted := by
  simp [map, bind_eq_exhausted_iff]

theorem orElse_eq_exhausted_iff {outcome : Outcome κ α} {other : Unit → Outcome κ α} :
    outcome.orElse other = exhausted ↔
      outcome = exhausted ∨ (∃ reason, outcome = refused reason) ∧ other () = exhausted := by
  cases outcome <;> simp [orElse]

@[simp] theorem exists_eq_refused_iff {outcome : Outcome Unit α} :
    (∃ reason, outcome = refused reason) ↔ outcome = refused () := by
  cases outcome <;> simp

theorem ofOption_bind (x : Option α) (next : α → Option β) :
    ofOption (x.bind next) = (ofOption x).bind fun y => ofOption (next y) := by
  cases x <;> rfl

theorem ofOption_map (x : Option α) (f : α → β) : ofOption (x.map f) = (ofOption x).map f := by
  cases x <;> rfl

@[simp] theorem ofOption_eq_done_iff {x : Option α} {y : α} : ofOption x = done y ↔ x = some y := by
  cases x <;> simp [ofOption]

@[simp] theorem ofOption_eq_refused_iff {x : Option α} : ofOption x = refused () ↔ x = none := by
  cases x <;> simp [ofOption]

@[simp] theorem require_eq_done_iff {condition : Bool} {u : Unit} :
    require condition = done u ↔ condition = true := by
  cases condition <;> simp [require]

@[simp] theorem require_eq_refused_iff {condition : Bool} {u : Unit} :
    require condition = refused u ↔ condition = false := by
  cases condition <;> simp [require]

@[simp] theorem require_ne_exhausted (condition : Bool) : require condition ≠ exhausted := by
  cases condition <;> simp [require]

@[simp] theorem ofOption_ne_exhausted (x : Option α) : ofOption x ≠ exhausted := by
  cases x <;> simp [ofOption]

end Outcome

/-- An outcome with the events reported on the way to it, in order. -/
structure Traced (κ α : Type) where
  outcome : Outcome κ α
  events : List Event
  deriving DecidableEq

namespace Traced

variable {κ α β : Type}

def done (x : α) : Traced κ α := ⟨.done x, []⟩

def refused (reason : κ) : Traced κ α := ⟨.refused reason, []⟩

/-- Goes on from an answer; its events come first. -/
def andThen (run : Traced κ α) (next : α → Traced κ β) : Traced κ β :=
  match run.outcome with
  | .done x =>
    let rest := next x
    ⟨rest.outcome, run.events ++ rest.events⟩
  | .refused reason => ⟨.refused reason, run.events⟩
  | .exhausted => ⟨.exhausted, run.events⟩

@[simp] theorem done_andThen (x : α) (next : α → Traced κ β) : (done x).andThen next = next x := rfl

@[simp] theorem refused_andThen (reason : κ) (next : α → Traced κ β) :
    (refused reason).andThen next = refused reason := rfl

@[simp] theorem outcome_done (x : α) : (done x : Traced κ α).outcome = .done x := rfl

@[simp] theorem outcome_refused (reason : κ) :
    (refused reason : Traced κ α).outcome = .refused reason := rfl

theorem outcome_andThen (run : Traced κ α) (next : α → Traced κ β) :
    (run.andThen next).outcome = run.outcome.bind fun x => (next x).outcome := by
  unfold andThen
  cases run.outcome <;> rfl

/-- A computation that gives every answer back unchanged adds nothing. -/
theorem andThen_eq_self {run : Traced κ α} {next : α → Traced κ α}
    (h : ∀ x, run.outcome = .done x → next x = done x) : run.andThen next = run := by
  obtain ⟨outcome, events⟩ := run
  cases outcome with
  | done x =>
      simp only [andThen, h x rfl, done, List.append_nil]
  | refused _ | exhausted => rfl

theorem outcome_andThen_eq_done_iff {run : Traced κ α} {next : α → Traced κ β} {y : β} :
    (run.andThen next).outcome = .done y ↔
      ∃ x, run.outcome = .done x ∧ (next x).outcome = .done y := by
  rw [outcome_andThen, Outcome.bind_eq_done_iff]

theorem outcome_andThen_eq_refused_iff {run : Traced κ α} {next : α → Traced κ β} {reason : κ} :
    (run.andThen next).outcome = .refused reason ↔
      run.outcome = .refused reason ∨
        ∃ x, run.outcome = .done x ∧ (next x).outcome = .refused reason := by
  rw [outcome_andThen, Outcome.bind_eq_refused_iff]

end Traced
end TwoWay
