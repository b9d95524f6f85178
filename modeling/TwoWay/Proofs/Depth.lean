import TwoWay.Grammar.Rules
import TwoWay.Proofs.Reading
import TwoWay.Proofs.Writing

/-!
The depth to which a run is followed does not change how it ends. An outcome is below another one
if it is exhausted or the same; every form of a grammar is monotone in the meaning of the rules,
so a greater depth only ends runs that were cut off. A run of a recursive format is therefore
described without a depth: it ends in some way if it does so at any depth.
-/

namespace TwoWay

variable {κ α β : Type}

namespace Outcome

def Below (outcome other : Outcome κ α) : Prop := outcome = exhausted ∨ other = outcome

theorem Below.refl (outcome : Outcome κ α) : outcome.Below outcome := .inr rfl

theorem Below.eq {outcome other : Outcome κ α} (h : outcome.Below other)
    (ended : outcome ≠ exhausted) : other = outcome :=
  h.resolve_left ended

theorem Below.trans {first second third : Outcome κ α} (h : first.Below second)
    (h' : second.Below third) : first.Below third := by
  obtain he | rfl := h
  · exact .inl he
  · exact h'

theorem Below.bind {outcome other : Outcome κ α} {next next' : α → Outcome κ β}
    (h : outcome.Below other) (hn : ∀ x, (next x).Below (next' x)) :
    (outcome.bind next).Below (other.bind next') := by
  obtain rfl | rfl := h
  · exact .inl rfl
  · cases other with
    | done x => exact hn x
    | refused _ | exhausted => exact .refl _

theorem Below.map {outcome other : Outcome κ α} (h : outcome.Below other) (f : α → β) :
    (outcome.map f).Below (other.map f) :=
  h.bind fun _ => .refl _

theorem Below.orElse {outcome other : Outcome κ α} {next next' : Unit → Outcome κ α}
    (h : outcome.Below other) (hn : (next ()).Below (next' ())) :
    (outcome.orElse next).Below (other.orElse next') := by
  obtain rfl | rfl := h
  · exact .inl rfl
  · cases other with
    | refused _ => exact hn
    | done _ | exhausted => exact .refl _

end Outcome

namespace Traced

def Below (run other : Traced κ α) : Prop := run.outcome = .exhausted ∨ other = run

theorem Below.refl (run : Traced κ α) : run.Below run := .inr rfl

theorem Below.outcome {run other : Traced κ α} (h : run.Below other) :
    run.outcome.Below other.outcome :=
  h.imp_right (congrArg Traced.outcome)

theorem Below.trans {first second third : Traced κ α} (h : first.Below second)
    (h' : second.Below third) : first.Below third := by
  obtain he | rfl := h
  · exact .inl he
  · exact h'

theorem Below.andThen {run other : Traced κ α} {next next' : α → Traced κ β}
    (h : run.Below other) (hn : ∀ x, (next x).Below (next' x)) :
    (run.andThen next).Below (other.andThen next') := by
  obtain he | rfl := h
  · left
    rw [outcome_andThen, he]
    rfl
  · rw [Traced.andThen, Traced.andThen]
    cases other.outcome with
    | done x =>
        obtain hx | hx := hn x
        · exact .inl hx
        · right
          simp only [hx]
    | refused _ | exhausted => exact .refl _

end Traced

/-- At every rule, one meaning ends as the other one does, if it ends. -/
structure Meaning.Below {ρ : Type → Type} {σ : Type} (meaning other : Meaning ρ σ) : Prop where
  read : ∀ {α : Type} (rule : ρ α) (s : σ), (meaning.read rule s).Below (other.read rule s)
  write : ∀ {α : Type} (rule : ρ α) (x : α) (rest : σ),
    (meaning.write rule x rest).Below (other.write rule x rest)

theorem Meaning.Below.refl {ρ : Type → Type} {σ : Type} (meaning : Meaning ρ σ) :
    meaning.Below meaning :=
  ⟨fun _ _ => .refl _, fun _ _ _ => .refl _⟩

theorem Meaning.Below.trans {ρ : Type → Type} {σ : Type} {first second third : Meaning ρ σ}
    (h : first.Below second) (h' : second.Below third) : first.Below third :=
  ⟨fun rule s => (h.read rule s).trans (h'.read rule s),
    fun rule x rest => (h.write rule x rest).trans (h'.write rule x rest)⟩

namespace Grammar

variable {σ ε : Type} {ρ : Type → Type} {δ : Type}

theorem readMany_below {item item' : σ → Reading α σ} (h : ∀ s, (item s).Below (item' s))
    (bound : Nat) (found : List α) (s : σ) :
    (readMany item bound found s).Below (readMany item' bound found s) := by
  induction bound generalizing found s with
  | zero =>
      rw [readMany, readMany]
      obtain hs | hs := h s
      · rw [hs]
        exact .inl rfl
      · rw [hs]
        exact .refl _
  | succ bound ih =>
      rw [readMany, readMany]
      obtain hs | hs := h s
      · rw [hs]
        exact .inl rfl
      · rw [hs]
        cases item s with
        | done p => exact ih (p.1 :: found) p.2
        | refused _ | exhausted => exact .refl _

theorem readCount_below {item item' : σ → Reading α σ} (h : ∀ s, (item s).Below (item' s))
    (count : Nat) (found : List α) (s : σ) :
    (readCount item count found s).Below (readCount item' count found s) := by
  induction count generalizing found s with
  | zero => exact .refl _
  | succ count ih =>
      rw [readCount_succ, readCount_succ]
      exact (h s).bind fun p => ih (p.1 :: found) p.2

theorem readsBackAs_below [BEq δ] [BEq α] {readDriver readDriver' : σ → Reading δ σ}
    {readValue readValue' : δ → σ → Reading α σ}
    (hd : ∀ s, (readDriver s).Below (readDriver' s))
    (hv : ∀ d s, (readValue d s).Below (readValue' d s)) (d : δ) (x : α) (output : σ) :
    (readsBackAs readDriver readValue d x output).Below
      (readsBackAs readDriver' readValue' d x output) :=
  (hd output).bind fun _ => (Outcome.Below.refl _).bind fun _ => (hv _ _).bind fun _ => .refl _

theorem writeEach_below {item item' : α → σ → Writing σ}
    (h : ∀ x s, (item x s).Below (item' x s)) (xs : List α) (rest : σ) :
    (writeEach item xs rest).Below (writeEach item' xs rest) := by
  induction xs with
  | nil => exact .refl _
  | cons x xs ih => exact ih.andThen (h x)

variable [Sequence σ ε]

theorem read_below {m m' : Meaning ρ σ} (h : m.Below m') (g : Grammar ε ρ α) (s : σ) :
    (g.read m s).Below (g.read m' s) := by
  induction g generalizing s with
  | element | fromPrism _ | success _ | failure | eof | satisfy _ => exact .refl _
  | both first second ih₁ ih₂ => exact (ih₁ s).bind fun p => (ih₂ p.2).map _
  | choose first second ih₁ ih₂ => exact ((ih₁ s).map _).orElse ((ih₂ s).map _)
  | many item ih => exact readMany_below ih _ _ s
  | replicate count item ih => exact readCount_below ih _ _ s
  | adapt prism inner ih => exact (ih s).bind fun _ => .refl _
  | bind driver continuation driverOf ih₁ ih₂ | bindChecked driver continuation driverOf ih₁ ih₂ =>
      exact (ih₁ s).bind fun p => ih₂ p.1 p.2
  | call rule => exact h.read rule s

theorem write_below {m m' : Meaning ρ σ} (h : m.Below m') (g : Grammar ε ρ α) (x : α) (rest : σ) :
    (g.write m x rest).Below (g.write m' x rest) := by
  induction g generalizing rest with
  | element | fromPrism _ | success _ | failure | eof | satisfy _ => exact .refl _
  | both first second ih₁ ih₂ => exact (ih₂ x.2 rest).andThen (ih₁ x.1)
  | choose first second ih₁ ih₂ =>
      cases x with
      | inl x => exact ih₁ x rest
      | inr y => exact ih₂ y rest
  | many item ih => exact writeEach_below ih x rest
  | replicate count item ih =>
      by_cases hlen : x.length = count
      · subst hlen
        rw [write_replicate_length, write_replicate_length]
        exact writeEach_below ih x rest
      · rw [write_replicate, write_replicate, if_neg hlen, if_neg hlen]
        exact .refl _
  | adapt prism inner ih => exact ih (prism.review x) rest
  | bind driver continuation driverOf ih₁ ih₂ =>
      exact (ih₂ (driverOf x) x rest).andThen (ih₁ (driverOf x))
  | bindChecked driver continuation driverOf ih₁ ih₂ =>
      rw [write_bindChecked, write_bindChecked]
      refine ((ih₂ (driverOf x) x rest).andThen (ih₁ (driverOf x))).andThen fun output => ?_
      obtain hb | hb := readsBackAs_below (read_below h driver)
        (fun d => read_below h (continuation d)) (driverOf x) x output
      · left
        rw [hb]
      · rw [hb]
        exact .refl _
  | call rule => exact h.write rule x rest

namespace Rules

variable (rules : Rules ε ρ)

theorem meaning_below_succ (depth : Nat) :
    (rules.meaning depth : Meaning ρ σ).Below (rules.meaning (depth + 1)) := by
  induction depth with
  | zero => exact ⟨fun _ _ => .inl rfl, fun _ _ _ => .inl rfl⟩
  | succ depth ih =>
      exact ⟨fun rule => read_below ih (rules.definition rule),
        fun rule => write_below ih (rules.definition rule)⟩

theorem meaning_below {depth greater : Nat} (h : depth ≤ greater) :
    (rules.meaning depth : Meaning ρ σ).Below (rules.meaning greater) := by
  induction h with
  | refl => exact .refl _
  | step _ ih => exact ih.trans (rules.meaning_below_succ _)

end Rules
end Grammar
end TwoWay
