import TwoWay.Grammar.Text

/-!
What each form of a grammar writes, at a fixed meaning of the rules. A writing that ends with an
output passes through the outputs of the parts, from the last part to the first.
-/

namespace TwoWay
namespace Grammar

variable {σ ε : Type} [Sequence σ ε] {ρ : Type → Type} {α β δ : Type}
variable {m : Meaning ρ σ} {rest out : σ}

theorem write_satisfy_eq_done_iff {accepts : ε → Bool} {x : ε} :
    ((satisfy accepts : Grammar ε ρ ε).write m x rest).outcome = .done out ↔
      accepts x = true ∧ out = Sequence.cons x rest := by
  rw [write_satisfy]
  cases accepts x <;> simp [eq_comm]

theorem write_both_eq_done_iff {first : Grammar ε ρ α} {second : Grammar ε ρ β} {x : α} {y : β} :
    ((both first second).write m (x, y) rest).outcome = .done out ↔
      ∃ mid, (second.write m y rest).outcome = .done mid ∧
        (first.write m x mid).outcome = .done out := by
  rw [write_both, Traced.outcome_andThen_eq_done_iff]

theorem write_many_cons_eq_done_iff {item : Grammar ε ρ α} {x : α} {xs : List α} :
    ((many item).write m (x :: xs) rest).outcome = .done out ↔
      ∃ mid, ((many item).write m xs rest).outcome = .done mid ∧
        (item.write m x mid).outcome = .done out := by
  rw [write_many_cons, Traced.outcome_andThen_eq_done_iff]

/-- A list that cannot be written fails at an item, and the items behind it are written. -/
theorem write_many_cons_eq_refused_iff {item : Grammar ε ρ α} {x : α} {xs : List α}
    {error : Error} :
    ((many item).write m (x :: xs) rest).outcome = .refused error ↔
      ((many item).write m xs rest).outcome = .refused error ∨
        ∃ mid, ((many item).write m xs rest).outcome = .done mid ∧
          (item.write m x mid).outcome = .refused error := by
  rw [write_many_cons, Traced.outcome_andThen_eq_refused_iff]

/-- A list of the right length is written as any list of items is. -/
theorem write_replicate_length (item : Grammar ε ρ α) (xs : List α) (rest : σ) :
    (replicate xs.length item).write m xs rest = (many item).write m xs rest := by
  rw [write_replicate, if_pos rfl]

theorem write_replicate_eq_done_iff {count : Nat} {item : Grammar ε ρ α} {xs : List α} :
    ((replicate count item).write m xs rest).outcome = .done out ↔
      xs.length = count ∧ ((many item).write m xs rest).outcome = .done out := by
  by_cases h : xs.length = count
  · subst h
    rw [write_replicate_length]
    simp
  · rw [write_replicate, if_neg h]
    simp [h]

/-- An end is not written. -/
theorem write_seqLeft_eof (left : Grammar ε ρ α) (x : α) :
    (seqLeft left eof).write m x rest = left.write m x rest := rfl

theorem write_bind_eq_done_iff {driver : Grammar ε ρ δ} {continuation : δ → Grammar ε ρ α}
    {driverOf : α → δ} {x : α} :
    ((bind driver continuation driverOf).write m x rest).outcome = .done out ↔
      ∃ mid, ((continuation (driverOf x)).write m x rest).outcome = .done mid ∧
        (driver.write m (driverOf x) mid).outcome = .done out := by
  rw [write_bind, Traced.outcome_andThen_eq_done_iff]

section Checks

variable [BEq δ] [BEq α] {driver : Grammar ε ρ δ} {continuation : δ → Grammar ε ρ α}
variable {driverOf : α → δ} {d : δ} {x : α}

/-- An output that reads as a driver, and in the format of that driver as a value, which are equal
to the given ones. -/
def Reproduces (m : Meaning ρ σ) (driver : Grammar ε ρ δ) (continuation : δ → Grammar ε ρ α) (d : δ)
    (x : α) (out : σ) : Prop :=
  ∃ found mid y left, driver.read m out = .done (found, mid) ∧ found == d ∧
    (continuation found).read m mid = .done (y, left) ∧ y == x

/-- Where only identical things are equal, the driver and the value themselves are read. -/
theorem reproduces_iff [LawfulBEq δ] [LawfulBEq α] :
    Reproduces m driver continuation d x out ↔
      ∃ mid left, driver.read m out = .done (d, mid) ∧
        (continuation d).read m mid = .done (x, left) := by
  refine ⟨?_, ?_⟩
  · intro h
    obtain ⟨found, mid, y, left, hd, hdriver, hx, hvalue⟩ := h
    obtain rfl := eq_of_beq hdriver
    obtain rfl := eq_of_beq hvalue
    exact ⟨mid, left, hd, hx⟩
  · intro h
    obtain ⟨mid, left, hd, hx⟩ := h
    exact ⟨d, mid, x, left, hd, BEq.rfl, hx, BEq.rfl⟩

theorem readsBackAs_eq_done_iff :
    readsBackAs (driver.read m) (fun d => (continuation d).read m) d x out = .done () ↔
      Reproduces m driver continuation d x out := by
  simp only [readsBackAs, Outcome.bind_eq_done_iff, Prod.exists, Outcome.require_eq_done_iff,
    exists_const, exists_and_left, Reproduces]

/-- The check fails if the driver or the value is not read, or one is read that is not equal. -/
theorem readsBackAs_eq_refused_iff :
    readsBackAs (driver.read m) (fun d => (continuation d).read m) d x out = .refused () ↔
      driver.read m out = .refused () ∨
        ∃ found mid, driver.read m out = .done (found, mid) ∧
          ((found == d) = false ∨ found == d ∧ ((continuation found).read m mid = .refused () ∨
            ∃ y left, (continuation found).read m mid = .done (y, left) ∧ (y == x) = false)) := by
  simp only [readsBackAs, Outcome.bind_eq_refused_iff, Prod.exists, Outcome.require_eq_refused_iff,
    Outcome.require_eq_done_iff, exists_const]

/-- The check does not end if reading the driver, or the value behind a driver that is equal, does
not. -/
theorem readsBackAs_eq_exhausted_iff :
    readsBackAs (driver.read m) (fun d => (continuation d).read m) d x out = .exhausted ↔
      driver.read m out = .exhausted ∨
        ∃ found mid, driver.read m out = .done (found, mid) ∧ found == d ∧
          (continuation found).read m mid = .exhausted := by
  simp only [readsBackAs, Outcome.bind_eq_exhausted_iff, Prod.exists, Outcome.require_ne_exhausted,
    Outcome.require_eq_done_iff, and_false, exists_const, exists_false, or_false, false_or]

/-- A check that passes every output leaves no trace. -/
theorem write_bindChecked_eq_write_bind
    (passes : ∀ out, ((bind driver continuation driverOf).write m x rest).outcome = .done out →
      Reproduces m driver continuation (driverOf x) x out) :
    (bindChecked driver continuation driverOf).write m x rest =
      (bind driver continuation driverOf).write m x rest := by
  rw [write_bindChecked]
  refine Traced.andThen_eq_self fun out written => ?_
  rw [readsBackAs_eq_done_iff.2 (passes out written)]

/-- A checked bind gives the output of the unchecked one, if that output reads back as an equal
driver and value. -/
theorem write_bindChecked_eq_done_iff :
    ((bindChecked driver continuation driverOf).write m x rest).outcome = .done out ↔
      ((bind driver continuation driverOf).write m x rest).outcome = .done out ∧
        Reproduces m driver continuation (driverOf x) x out := by
  rw [write_bindChecked, Traced.outcome_andThen_eq_done_iff, ← readsBackAs_eq_done_iff]
  refine ⟨?_, ?_⟩
  · intro h
    obtain ⟨output, hw, hc⟩ := h
    split at hc
    · next back =>
        cases hc
        exact ⟨hw, back⟩
    · cases hc
    · cases hc
  · intro h
    obtain ⟨hw, back⟩ := h
    refine ⟨out, hw, ?_⟩
    rw [back]
    rfl

/-- A checked bind is refused if the unchecked one is, and besides if the check fails. -/
theorem write_bindChecked_eq_refused_iff {error : Error} :
    ((bindChecked driver continuation driverOf).write m x rest).outcome = .refused error ↔
      ((bind driver continuation driverOf).write m x rest).outcome = .refused error ∨
        error = .inconsistentDriver ∧
          ∃ out, ((bind driver continuation driverOf).write m x rest).outcome = .done out ∧
            readsBackAs (driver.read m) (fun d => (continuation d).read m) (driverOf x) x out =
              .refused () := by
  rw [write_bindChecked, Traced.outcome_andThen_eq_refused_iff, ← exists_and_left]
  refine or_congr_right (exists_congr fun out => ?_)
  cases readsBackAs (driver.read m) (fun d => (continuation d).read m) (driverOf x) x out <;>
    simp [eq_comm, and_comm]

/-- An output that reads back otherwise is refused, if reading it back comes to an end. -/
theorem write_bindChecked_eq_inconsistentDriver
    (written : ((bind driver continuation driverOf).write m x rest).outcome = .done out)
    (ends : driver.read m out ≠ .exhausted)
    (ends' : ∀ found mid, driver.read m out = .done (found, mid) → found == driverOf x →
      (continuation found).read m mid ≠ .exhausted)
    (differs : ¬ Reproduces m driver continuation (driverOf x) x out) :
    ((bindChecked driver continuation driverOf).write m x rest).outcome =
      .refused .inconsistentDriver := by
  refine write_bindChecked_eq_refused_iff.2 (.inr ⟨rfl, out, written, ?_⟩)
  cases check : readsBackAs (driver.read m) (fun d => (continuation d).read m) (driverOf x) x
    out with
  | done _ => exact absurd (readsBackAs_eq_done_iff.1 check) differs
  | refused _ => rfl
  | exhausted =>
      obtain hd | ⟨found, mid, hd, same, hx⟩ := readsBackAs_eq_exhausted_iff.1 check
      · exact absurd hd ends
      · exact absurd hx (ends' found mid hd same)

end Checks

end Grammar
end TwoWay
