import TwoWay.Grammar.Text

/-!
What each form of a grammar reads, at a fixed meaning of the rules. A reading that ends with a
value is described by the readings of the parts; a repetition is described by the chain of
sequences that its items leave behind one after the other.
-/

namespace TwoWay
namespace Grammar

variable {σ ε : Type} [Sequence σ ε] {ρ : Type → Type} {α β δ : Type}

/-- Items read one after the other, each from what the item before it left behind. -/
inductive Chain (item : σ → Reading α σ) : σ → List α → σ → Prop
  | nil (s : σ) : Chain item s [] s
  | cons {s mid rest : σ} {x : α} {xs : List α} (head : item s = .done (x, mid))
      (tail : Chain item mid xs rest) : Chain item s (x :: xs) rest

namespace Chain

variable {item : σ → Reading α σ} {s rest : σ} {x : α} {xs : List α}

theorem nil_iff : Chain item s [] rest ↔ s = rest :=
  ⟨fun h => by cases h; rfl, fun h => h ▸ .nil s⟩

theorem cons_iff :
    Chain item s (x :: xs) rest ↔ ∃ mid, item s = .done (x, mid) ∧ Chain item mid xs rest := by
  refine ⟨?_, ?_⟩
  · intro h
    cases h with
    | cons head tail => exact ⟨_, head, tail⟩
  · intro h
    obtain ⟨mid, head, tail⟩ := h
    exact .cons head tail

theorem append {mid : σ} {ys : List α} (h : Chain item s xs mid) (h' : Chain item mid ys rest) :
    Chain item s (xs ++ ys) rest := by
  induction h with
  | nil => exact h'
  | cons head _ ih => exact .cons head (ih h')

/-- The first items of a chain are a chain, and so are the others from where these end. -/
theorem split (h : Chain item s xs rest) (count : Nat) :
    ∃ mid, Chain item s (xs.take count) mid ∧ Chain item mid (xs.drop count) rest := by
  induction h generalizing count with
  | nil s => exact ⟨s, by rw [List.take_nil]; exact .nil s, by rw [List.drop_nil]; exact .nil s⟩
  | cons head tail ih =>
      cases count with
      | zero => exact ⟨_, .nil _, .cons head tail⟩
      | succ count =>
          obtain ⟨mid, first, others⟩ := ih count
          exact ⟨mid, .cons head first, others⟩

theorem eq_of_idle (h : Chain item s xs rest) (idle : item s = .done (x, s)) : rest = s := by
  induction h with
  | nil => rfl
  | cons head _ ih =>
      rw [idle] at head
      cases head
      exact ih idle

end Chain

theorem readMany_eq_done_iff {item : σ → Reading α σ} {bound : Nat} {found ys : List α}
    {s rest : σ} :
    readMany item bound found s = .done (ys, rest) ↔
      ∃ xs, ys = found.reverse ++ xs ∧ xs.length ≤ bound ∧ Chain item s xs rest ∧
        item rest = .refused () := by
  induction bound generalizing found s with
  | zero =>
      rw [readMany]
      cases hs : item s with
      | refused _ =>
          refine ⟨?_, ?_⟩
          · intro h
            cases h
            exact ⟨[], by simp, by simp, .nil _, hs⟩
          · intro h
            obtain ⟨xs, rfl, hlen, hc, -⟩ := h
            obtain rfl := List.eq_nil_of_length_eq_zero (Nat.le_zero.1 hlen)
            cases hc
            simp
      | exhausted | done _ =>
          simp only [reduceCtorEq, false_iff]
          intro h
          obtain ⟨xs, -, hlen, hc, stop⟩ := h
          obtain rfl := List.eq_nil_of_length_eq_zero (Nat.le_zero.1 hlen)
          cases hc
          rw [hs] at stop
          cases stop
  | succ bound ih =>
      rw [readMany]
      cases hs : item s with
      | refused _ =>
          refine ⟨?_, ?_⟩
          · intro h
            cases h
            exact ⟨[], by simp, by simp, .nil _, hs⟩
          · intro h
            obtain ⟨xs, rfl, -, hc, -⟩ := h
            cases hc with
            | nil => simp
            | cons head _ => rw [hs] at head; cases head
      | exhausted =>
          simp only [reduceCtorEq, false_iff]
          intro h
          obtain ⟨xs, -, -, hc, stop⟩ := h
          cases hc with
          | nil => rw [hs] at stop; cases stop
          | cons head _ => rw [hs] at head; cases head
      | done p =>
          obtain ⟨x, mid⟩ := p
          simp only [ih, List.reverse_cons, List.append_assoc, List.singleton_append]
          refine ⟨?_, ?_⟩
          · intro h
            obtain ⟨xs, rfl, hlen, hc, stop⟩ := h
            exact ⟨x :: xs, rfl, by simpa using hlen, .cons hs hc, stop⟩
          · intro h
            obtain ⟨xs, rfl, hlen, hc, stop⟩ := h
            cases hc with
            | nil => rw [hs] at stop; cases stop
            | cons head tail =>
                rw [hs] at head
                cases head
                exact ⟨_, rfl, by simpa using hlen, tail, stop⟩

/-- A count of one more is an item and the rest of the count behind it. -/
theorem readCount_succ (item : σ → Reading α σ) (count : Nat) (found : List α) (s : σ) :
    readCount item (count + 1) found s =
      (item s).bind fun p => readCount item count (p.1 :: found) p.2 := by
  rw [readCount]
  cases item s <;> rfl

theorem readCount_eq_done_iff {item : σ → Reading α σ} {count : Nat} {found ys : List α}
    {s rest : σ} :
    readCount item count found s = .done (ys, rest) ↔
      ∃ xs, ys = found.reverse ++ xs ∧ xs.length = count ∧ Chain item s xs rest := by
  induction count generalizing found s with
  | zero =>
      rw [readCount]
      refine ⟨?_, ?_⟩
      · intro h
        cases h
        exact ⟨[], by simp, rfl, .nil _⟩
      · intro h
        obtain ⟨xs, rfl, hlen, hc⟩ := h
        obtain rfl := List.eq_nil_of_length_eq_zero hlen
        cases hc
        simp
  | succ count ih =>
      rw [readCount]
      cases hs : item s with
      | refused _ | exhausted =>
          simp only [reduceCtorEq, false_iff]
          intro h
          obtain ⟨xs, -, hlen, hc⟩ := h
          cases hc with
          | nil => cases hlen
          | cons head _ => rw [hs] at head; cases head
      | done p =>
          obtain ⟨x, mid⟩ := p
          simp only [ih, List.reverse_cons, List.append_assoc, List.singleton_append]
          refine ⟨?_, ?_⟩
          · intro h
            obtain ⟨xs, rfl, hlen, hc⟩ := h
            exact ⟨x :: xs, rfl, by simpa using hlen, .cons hs hc⟩
          · intro h
            obtain ⟨xs, rfl, hlen, hc⟩ := h
            cases hc with
            | nil => cases hlen
            | cons head tail =>
                rw [hs] at head
                cases head
                exact ⟨_, rfl, by simpa using hlen, tail⟩

/-- A count is refused if the item is, after some items that do not make up the count. -/
theorem readCount_eq_refused_iff {item : σ → Reading α σ} {count : Nat} {found : List α} {s : σ} :
    readCount item count found s = .refused () ↔
      ∃ xs rest, xs.length < count ∧ Chain item s xs rest ∧ item rest = .refused () := by
  induction count generalizing found s with
  | zero => simp [readCount]
  | succ count ih =>
      rw [readCount_succ, Outcome.bind_eq_refused_iff, Prod.exists]
      simp only [ih]
      refine ⟨?_, ?_⟩
      · intro h
        obtain stop | ⟨x, mid, head, xs, rest, hlen, tail, stop⟩ := h
        · exact ⟨[], s, Nat.succ_pos count, .nil s, stop⟩
        · exact ⟨x :: xs, rest, Nat.succ_lt_succ hlen, .cons head tail, stop⟩
      · intro h
        obtain ⟨xs, rest, hlen, chain, stop⟩ := h
        cases chain with
        | nil => exact .inl stop
        | cons head tail =>
            exact .inr ⟨_, _, head, _, rest, Nat.lt_of_succ_lt_succ hlen, tail, stop⟩

section Forms

variable {m : Meaning ρ σ} {s rest : σ}

theorem read_element_eq_done_iff {x : ε} :
    (element : Grammar ε ρ ε).read m s = .done (x, rest) ↔ Sequence.uncons s = some (x, rest) := by
  rw [read_element, Outcome.ofOption_eq_done_iff]

theorem read_uncons_eq_done_iff {x : ε} :
    (uncons : Grammar ε ρ ε).read m s = .done (x, rest) ↔ Sequence.uncons s = some (x, rest) := by
  rw [uncons, read_fromPrism, Outcome.ofOption_eq_done_iff, Prism.preview_uncons]

theorem read_satisfy_eq_done_iff {accepts : ε → Bool} {x : ε} :
    (satisfy accepts : Grammar ε ρ ε).read m s = .done (x, rest) ↔
      Sequence.uncons s = some (x, rest) ∧ accepts x = true := by
  rw [read_satisfy]
  cases Sequence.uncons s with
  | none => simp
  | some p =>
      obtain ⟨y, mid⟩ := p
      cases hy : accepts y with
      | false =>
          simp only [hy, Bool.false_eq_true, if_false, reduceCtorEq, false_iff, Option.some.injEq,
            Prod.mk.injEq]
          intro h
          obtain ⟨⟨rfl, -⟩, hx⟩ := h
          rw [hy] at hx
          cases hx
      | true =>
          simp only [hy, if_true, Outcome.done.injEq, Option.some.injEq, Prod.mk.injEq,
            iff_self_and]
          intro h
          rw [← h.1, hy]

theorem read_eof_eq_done_iff :
    (eof : Grammar ε ρ Unit).read m s = .done ((), rest) ↔
      Sequence.uncons s = none ∧ rest = Sequence.empty := by
  rw [read_eof]
  cases Sequence.uncons s <;> simp [eq_comm]

theorem read_both_eq_done_iff {first : Grammar ε ρ α} {second : Grammar ε ρ β} {x : α} {y : β} :
    (both first second).read m s = .done ((x, y), rest) ↔
      ∃ mid, first.read m s = .done (x, mid) ∧ second.read m mid = .done (y, rest) := by
  rw [read_both, Outcome.bind_eq_done_iff]
  simp only [Outcome.map_eq_done_iff, Prod.exists, Prod.mk.injEq]
  refine ⟨?_, ?_⟩
  · intro h
    obtain ⟨_, mid, hx, _, _, hy, ⟨rfl, rfl⟩, rfl⟩ := h
    exact ⟨mid, hx, hy⟩
  · intro h
    obtain ⟨mid, hx, hy⟩ := h
    exact ⟨x, mid, hx, y, rest, hy, ⟨rfl, rfl⟩, rfl⟩

theorem read_choose_inl_eq_done_iff {first : Grammar ε ρ α} {second : Grammar ε ρ β} {x : α} :
    (choose first second).read m s = .done (.inl x, rest) ↔ first.read m s = .done (x, rest) := by
  rw [read_choose]
  simp only [Outcome.orElse_eq_done_iff, Outcome.map_eq_done_iff, Prod.exists, Prod.mk.injEq]
  simp

theorem read_choose_inr_eq_done_iff {first : Grammar ε ρ α} {second : Grammar ε ρ β} {y : β} :
    (choose first second).read m s = .done (.inr y, rest) ↔
      first.read m s = .refused () ∧ second.read m s = .done (y, rest) := by
  rw [read_choose]
  simp only [Outcome.orElse_eq_done_iff, Outcome.map_eq_done_iff, Prod.exists, Prod.mk.injEq]
  simp

theorem read_many_eq_done_iff {item : Grammar ε ρ α} {xs : List α} :
    (many item).read m s = .done (xs, rest) ↔
      xs.length ≤ Sequence.size s ∧ Chain (item.read m) s xs rest ∧
        item.read m rest = .refused () := by
  rw [read_many, readMany_eq_done_iff]
  simp

theorem read_many_nil {item : Grammar ε ρ α} (h : item.read m s = .refused ()) :
    (many item).read m s = .done ([], s) :=
  read_many_eq_done_iff.2 ⟨Nat.zero_le _, .nil s, h⟩

/-- An item that makes the sequence shorter leaves room for the items behind it. -/
theorem read_many_cons {item : Grammar ε ρ α} {x : α} {xs : List α} {mid : σ}
    (h : item.read m s = .done (x, mid)) (shorter : Sequence.size mid < Sequence.size s)
    (h' : (many item).read m mid = .done (xs, rest)) :
    (many item).read m s = .done (x :: xs, rest) := by
  obtain ⟨hlen, chain, stop⟩ := read_many_eq_done_iff.1 h'
  exact read_many_eq_done_iff.2 ⟨by rw [List.length_cons]; omega, .cons h chain, stop⟩

theorem read_replicate_eq_done_iff {count : Nat} {item : Grammar ε ρ α} {xs : List α} :
    (replicate count item).read m s = .done (xs, rest) ↔
      xs.length = count ∧ Chain (item.read m) s xs rest := by
  rw [read_replicate, readCount_eq_done_iff]
  simp

theorem read_replicate_eq_refused_iff {count : Nat} {item : Grammar ε ρ α} :
    (replicate count item).read m s = .refused () ↔
      ∃ xs rest, xs.length < count ∧ Chain (item.read m) s xs rest ∧
        item.read m rest = .refused () := by
  rw [read_replicate, readCount_eq_refused_iff]

theorem read_adapt_eq_done_iff {prism : Prism α β} {inner : Grammar ε ρ α} {y : β} :
    (adapt prism inner).read m s = .done (y, rest) ↔
      ∃ x, inner.read m s = .done (x, rest) ∧ prism.preview x = some y := by
  rw [read_adapt, Outcome.bind_eq_done_iff]
  simp only [Outcome.ofOption_eq_done_iff, Prod.exists, Prism.preview_onFirst,
    Option.map_eq_some_iff, Prod.mk.injEq]
  refine ⟨?_, ?_⟩
  · intro h
    obtain ⟨x, _, hx, y, hy, rfl, rfl⟩ := h
    exact ⟨x, hx, hy⟩
  · intro h
    obtain ⟨x, hx, hy⟩ := h
    exact ⟨x, rest, hx, y, hy, rfl, rfl⟩

theorem read_adapt_eq_refused {prism : Prism α β} {inner : Grammar ε ρ α} {x : α}
    (h : inner.read m s = .done (x, rest)) (missed : prism.preview x = none) :
    (adapt prism inner).read m s = .refused () := by
  rw [read_adapt, h, Outcome.done_bind, Outcome.ofOption_eq_refused_iff, Prism.preview_onFirst,
    missed]
  rfl

theorem read_seqLeft_eq_done_iff {left : Grammar ε ρ α} {right : Grammar ε ρ Unit} {x : α} :
    (seqLeft left right).read m s = .done (x, rest) ↔
      ∃ mid, left.read m s = .done (x, mid) ∧ right.read m mid = .done ((), rest) := by
  rw [seqLeft, read_adapt_eq_done_iff, Prod.exists]
  simp only [read_both_eq_done_iff]
  refine ⟨?_, ?_⟩
  · intro h
    obtain ⟨y, _, hread, hy⟩ := h
    cases hy
    exact hread
  · intro h
    exact ⟨x, (), h, rfl⟩

theorem read_bind_eq_done_iff {driver : Grammar ε ρ δ} {continuation : δ → Grammar ε ρ α}
    {driverOf : α → δ} {x : α} :
    (bind driver continuation driverOf).read m s = .done (x, rest) ↔
      ∃ d mid, driver.read m s = .done (d, mid) ∧
        (continuation d).read m mid = .done (x, rest) := by
  rw [read_bind, Outcome.bind_eq_done_iff, Prod.exists]

end Forms
end Grammar
end TwoWay
