import TwoWay.Proofs.Reading

/-!
Readings that come to an end. An item is consuming if whatever it reads leaves a shorter sequence
behind. A sequence holds no more consuming items than elements, so a repetition of them never
meets the bound on their number. A grammar whose repetitions are of this kind ends on every
sequence.
-/

namespace TwoWay
namespace Grammar

variable {σ ε : Type} [Sequence σ ε] {ρ : Type → Type} {α : Type}

/-- Nothing is read without leaving a shorter sequence behind. -/
def Consuming (item : σ → Reading α σ) : Prop :=
  ∀ {s x rest}, item s = .done (x, rest) → Sequence.size rest < Sequence.size s

variable {item : σ → Reading α σ} {s rest : σ} {xs : List α} {m : Meaning ρ σ}

/-- Each item of the chain takes an element at least. -/
theorem Chain.length_add_size_le (chain : Chain item s xs rest) (consuming : Consuming item) :
    xs.length + Sequence.size rest ≤ Sequence.size s := by
  induction chain with
  | nil => simp
  | cons head _ ih =>
      have shorter := consuming head
      rw [List.length_cons]
      omega

theorem read_many_eq_done_iff_of_consuming {item : Grammar ε ρ α}
    (consuming : Consuming (item.read m)) :
    (many item).read m s = .done (xs, rest) ↔
      Chain (item.read m) s xs rest ∧ item.read m rest = .refused () := by
  rw [read_many_eq_done_iff]
  constructor
  · intro h
    exact h.2
  · intro h
    have room := h.1.length_add_size_le consuming
    exact ⟨by omega, h⟩

theorem readMany_ne_exhausted (consuming : Consuming item) (ends : ∀ s, item s ≠ .exhausted)
    {bound : Nat} (room : Sequence.size s ≤ bound) (found : List α) :
    readMany item bound found s ≠ .exhausted := by
  induction bound generalizing s found with
  | zero =>
      rw [readMany]
      cases hs : item s with
      | refused _ => simp
      | exhausted => exact absurd hs (ends s)
      | done p =>
          have shorter := consuming hs
          omega
  | succ bound ih =>
      rw [readMany]
      cases hs : item s with
      | refused _ => simp
      | exhausted => exact absurd hs (ends s)
      | done p =>
          have shorter := consuming hs
          exact ih (by omega) (p.1 :: found)

theorem readCount_ne_exhausted (ends : ∀ s, item s ≠ .exhausted) (count : Nat) (found : List α) :
    readCount item count found s ≠ .exhausted := by
  induction count generalizing s found with
  | zero => simp [readCount]
  | succ count ih =>
      rw [readCount]
      cases hs : item s with
      | refused _ => simp
      | exhausted => exact absurd hs (ends s)
      | done p => exact ih (p.1 :: found)

/-- Every repeated part is consuming, and every call ends. -/
def Progressive (m : Meaning ρ σ) : {α : Type} → Grammar ε ρ α → Prop
  | _, element | _, fromPrism _ | _, success _ | _, failure | _, eof | _, satisfy _ => True
  | _, both first second | _, choose first second => first.Progressive m ∧ second.Progressive m
  | _, many item => item.Progressive m ∧ Consuming (item.read m)
  | _, replicate _ item => item.Progressive m
  | _, adapt _ inner => inner.Progressive m
  | _, bind driver continuation _ | _, bindChecked driver continuation _ =>
    driver.Progressive m ∧ ∀ d, (continuation d).Progressive m
  | _, call rule => ∀ s, m.read rule s ≠ .exhausted

/-- A reading ends with a value or with a refusal. -/
theorem Progressive.read_ne_exhausted {g : Grammar ε ρ α} (h : g.Progressive m) (s : σ) :
    g.read m s ≠ .exhausted := by
  induction g generalizing s with
  | element => exact Outcome.ofOption_ne_exhausted _
  | fromPrism prism => exact Outcome.ofOption_ne_exhausted _
  | success _ => simp [read_success]
  | failure => intro ends; cases ends
  | eof => rw [read_eof]; split <;> simp
  | satisfy accepts =>
      rw [read_satisfy]
      split
      · simp
      · split <;> simp
  | both first second ihf ihs =>
      rw [read_both, ne_eq, Outcome.bind_eq_exhausted_iff]
      rintro (hx | ⟨p, -, hy⟩)
      · exact ihf h.1 s hx
      · exact ihs h.2 p.2 (Outcome.map_eq_exhausted_iff.1 hy)
  | choose first second ihf ihs =>
      rw [read_choose, ne_eq, Outcome.orElse_eq_exhausted_iff]
      rintro (hx | ⟨-, hy⟩)
      · exact ihf h.1 s (Outcome.map_eq_exhausted_iff.1 hx)
      · exact ihs h.2 s (Outcome.map_eq_exhausted_iff.1 hy)
  | many item ih => exact readMany_ne_exhausted h.2 (ih h.1) (Nat.le_refl _) []
  | replicate count item ih => exact readCount_ne_exhausted (ih h) count []
  | adapt prism inner ih =>
      rw [read_adapt, ne_eq, Outcome.bind_eq_exhausted_iff]
      rintro (hx | ⟨p, -, hy⟩)
      · exact ih h s hx
      · exact Outcome.ofOption_ne_exhausted _ hy
  | bind driver continuation driverOf ihd ihc
  | bindChecked driver continuation driverOf ihd ihc =>
      intro ends
      obtain hd | ⟨p, -, hx⟩ := Outcome.bind_eq_exhausted_iff.1 ends
      · exact ihd h.1 s hd
      · exact ihc p.1 (h.2 p.1) p.2 hx
  | call rule => exact h s

theorem Progressive.read_eq_refused_iff {g : Grammar ε ρ α} (h : g.Progressive m) {s : σ} :
    g.read m s = .refused () ↔ ∀ x rest, g.read m s ≠ .done (x, rest) := by
  cases hs : g.read m s with
  | done p => exact iff_of_false (by simp) fun nothing => nothing p.1 p.2 rfl
  | refused _ => simp
  | exhausted => exact absurd hs (h.read_ne_exhausted s)

theorem consuming_satisfy [LawfulSequence σ ε] (accepts : ε → Bool) :
    Consuming ((satisfy accepts : Grammar ε ρ ε).read m) := by
  intro s x rest h
  rw [Sequence.size_of_uncons (read_satisfy_eq_done_iff.1 h).1]
  exact Nat.lt_succ_self _

end Grammar
end TwoWay
