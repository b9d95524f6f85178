import TwoWay.Grammar.Rules
import TwoWay.Proofs.Progress

/-!
Loops and their unrollings. A list of items is an item with a list behind it, or else the end of
the list. A repetition of a consuming item reads and writes as this description of it says: that
its loop collects the items in reverse and stops at a bound on their number does not show. A counted
repetition is an item with one item fewer behind it, or else it fails: that it looks at the length
of a list before anything is written does not show either.
-/

namespace TwoWay
namespace Grammar

variable {σ ε : Type} [Sequence σ ε] {ρ : Type → Type} {α : Type} {m : Meaning ρ σ}

/-- A list as an item with a list behind it, or else as an ending that stands for no items. -/
def unrolled (item : Grammar ε ρ α) (others : Grammar ε ρ (List α)) (ending : Grammar ε ρ Unit) :
    Grammar ε ρ (List α) :=
  adapt (.ofIso .list) (choose (both item others) ending)

section Unrolled

variable {item : Grammar ε ρ α} {others : Grammar ε ρ (List α)} {ending : Grammar ε ρ Unit}
variable {s rest : σ}

theorem read_unrolled :
    (unrolled item others ending).read m s =
      ((item.read m s).bind fun (x, mid) =>
        (others.read m mid).map fun (xs, rest) => (x :: xs, rest)).orElse fun _ =>
          (ending.read m s).map fun (_, rest) => ([], rest) := by
  rw [unrolled, read_adapt, read_choose, read_both]
  cases item.read m s with
  | refused _ => cases ending.read m s <;> rfl
  | exhausted => rfl
  | done p =>
      obtain ⟨x, mid⟩ := p
      simp only [Outcome.done_bind]
      cases others.read m mid with
      | refused _ => cases ending.read m s <;> rfl
      | done _ | exhausted => rfl

theorem write_unrolled_nil :
    (unrolled item others ending).write m [] rest = ending.write m () rest := rfl

theorem write_unrolled_cons {x : α} {xs : List α} :
    (unrolled item others ending).write m (x :: xs) rest =
      (others.write m xs rest).andThen (item.write m x) := rfl

end Unrolled

section Loop

variable {item : σ → Reading α σ} {s mid : σ} {x : α}

/-- The items found before are put in front of those that the loop finds. -/
theorem readMany_eq_map (bound : Nat) (found : List α) :
    readMany item bound found s =
      (readMany item bound [] s).map fun (xs, rest) => (found.reverse ++ xs, rest) := by
  induction bound generalizing found s with
  | zero =>
      rw [readMany, readMany]
      cases item s with
      | refused _ => simp [Outcome.map]
      | done _ | exhausted => rfl
  | succ bound ih =>
      rw [readMany, readMany]
      cases item s with
      | refused _ => simp [Outcome.map]
      | exhausted => rfl
      | done p =>
          obtain ⟨x, mid⟩ := p
          change readMany item bound (x :: found) mid = (readMany item bound [x] mid).map _
          rw [ih (x :: found), ih [x]]
          cases readMany item bound [] mid <;> simp [Outcome.map]

/-- All bounds that have room for the elements of the sequence are as good. -/
theorem readMany_eq_of_room (consuming : Consuming item) {bound bound' : Nat}
    (room : Sequence.size s ≤ bound) (room' : Sequence.size s ≤ bound') (found : List α) :
    readMany item bound found s = readMany item bound' found s := by
  induction bound generalizing s bound' found with
  | zero =>
      rw [readMany, readMany]
      cases hs : item s with
      | refused _ | exhausted => rfl
      | done p =>
          have shorter := consuming hs
          omega
  | succ bound ih =>
      rw [readMany, readMany]
      cases hs : item s with
      | refused _ | exhausted => rfl
      | done p =>
          have shorter := consuming hs
          cases bound' with
          | zero => omega
          | succ bound' => exact ih (by omega) (by omega) (p.1 :: found)

theorem readMany_ne_refused (bound : Nat) (found : List α) (reason : Unit) :
    readMany item bound found s ≠ .refused reason := by
  induction bound generalizing found s with
  | zero => rw [readMany]; cases item s <;> simp
  | succ bound ih =>
      rw [readMany]
      cases item s with
      | refused _ | exhausted => simp
      | done p => exact ih (p.1 :: found)

/-- The same for a counted loop. -/
theorem readCount_eq_map (count : Nat) (found : List α) :
    readCount item count found s =
      (readCount item count [] s).map fun (xs, rest) => (found.reverse ++ xs, rest) := by
  induction count generalizing found s with
  | zero => simp [readCount, Outcome.map]
  | succ count ih =>
      rw [readCount_succ, readCount_succ]
      cases item s with
      | refused _ | exhausted => rfl
      | done p =>
          obtain ⟨x, mid⟩ := p
          simp only [Outcome.done_bind]
          rw [ih (x :: found), ih [x]]
          cases readCount item count [] mid <;> simp [Outcome.map]

end Loop

variable {item : Grammar ε ρ α} {s mid : σ} {x : α}

/-- Behind an item the repetition goes on as it does from there. -/
theorem read_many_of_done (consuming : Consuming (item.read m))
    (h : item.read m s = .done (x, mid)) :
    (many item).read m s = ((many item).read m mid).map fun (xs, rest) => (x :: xs, rest) := by
  have shorter := consuming h
  obtain ⟨bound, hbound⟩ := Nat.exists_eq_succ_of_ne_zero (Nat.ne_zero_of_lt shorter)
  calc
    (many item).read m s = readMany (item.read m) bound [x] mid := by
      rw [read_many, hbound, readMany, h]
    _ = (readMany (item.read m) bound [] mid).map fun (xs, rest) => (x :: xs, rest) :=
      readMany_eq_map bound [x]
    _ = ((many item).read m mid).map fun (xs, rest) => (x :: xs, rest) := by
      rw [read_many, readMany_eq_of_room consuming (by omega) (Nat.le_refl _)]

theorem read_many_eq_unrolled (consuming : Consuming (item.read m)) (s : σ) :
    (many item).read m s = (unrolled item (many item) (success ())).read m s := by
  rw [read_unrolled, read_success]
  cases h : item.read m s with
  | refused _ => exact read_many_nil h
  | exhausted => rw [read_many, readMany, h]; rfl
  | done p =>
      obtain ⟨x, mid⟩ := p
      rw [read_many_of_done consuming h, Outcome.done_bind, Outcome.orElse_eq_self]
      exact fun reason refused => readMany_ne_refused _ _ () (Outcome.map_eq_refused_iff.1 refused)

/-- Whatever reads as its own unrolling reads as the repetition. -/
theorem read_eq_many_of_unrolled {others : Grammar ε ρ (List α)}
    (consuming : Consuming (item.read m))
    (unrolls : ∀ s, others.read m s = (unrolled item others (success ())).read m s) (s : σ) :
    others.read m s = (many item).read m s := by
  induction hsize : Sequence.size s using Nat.strongRecOn generalizing s with
  | _ _ ih =>
      rw [unrolls, read_many_eq_unrolled consuming, read_unrolled, read_unrolled]
      cases h : item.read m s with
      | refused _ | exhausted => rfl
      | done p =>
          have shorter := consuming h
          simp only [Outcome.done_bind]
          rw [ih _ (hsize ▸ shorter) p.2 rfl]

theorem write_many_eq_unrolled (xs : List α) (rest : σ) :
    (many item).write m xs rest = (unrolled item (many item) (success ())).write m xs rest := by
  cases xs with
  | nil =>
      rw [write_unrolled_nil]
      rfl
  | cons x xs => rw [write_many_cons, write_unrolled_cons]

/-- A repetition reads and writes as an item with the repetition behind it or else as nothing. Only
its reading needs that the item is consuming. -/
theorem many_unrolls (m : Meaning ρ σ) (item : Grammar ε ρ α) :
    (Consuming (item.read m) → ∀ s : σ,
      (many item).read m s = (unrolled item (many item) (success ())).read m s) ∧
    ∀ xs (rest : σ),
      (many item).write m xs rest = (unrolled item (many item) (success ())).write m xs rest :=
  ⟨fun consuming => read_many_eq_unrolled consuming, write_many_eq_unrolled⟩

/-- Pairs of a digit and a letter, with a lone digit behind them and with a pair that is not
written. -/
theorem many_unrolls_pairs :
    let pair : Grammar Char NoRule (Char × Char) := both digit alpha
    Consuming (σ := List Char) (pair.read NoRule.meaning) ∧
    (many pair).read NoRule.meaning ['1', 'a', '2', 'b', '3', '4'] =
      (unrolled pair (many pair) (success ())).read NoRule.meaning ['1', 'a', '2', 'b', '3', '4'] ∧
    (many pair).write NoRule.meaning [('1', 'a'), ('x', 'b'), ('2', 'c')] ['.'] =
      (unrolled pair (many pair) (success ())).write NoRule.meaning
        [('1', 'a'), ('x', 'b'), ('2', 'c')] ['.'] := by
  intro pair
  have consuming : Consuming (σ := List Char) (pair.read NoRule.meaning) := by
    rintro s ⟨x, y⟩ rest h
    obtain ⟨mid, hx, hy⟩ := read_both_eq_done_iff.1 h
    exact Nat.lt_trans (consuming_satisfy _ hy) (consuming_satisfy _ hx)
  obtain ⟨reads, writes⟩ := many_unrolls (σ := List Char) NoRule.meaning pair
  exact ⟨consuming, reads consuming _, writes _ _⟩

/-- A failure stands in for no items, so a refusal is final. -/
theorem read_unrolled_failure {others : Grammar ε ρ (List α)} :
    (unrolled item others failure).read m s =
      (item.read m s).bind fun (x, mid) =>
        (others.read m mid).map fun (xs, rest) => (x :: xs, rest) := by
  rw [read_unrolled]
  cases (item.read m s).bind fun (x, mid) =>
      (others.read m mid).map fun (xs, rest) => (x :: xs, rest) with
  | done _ | refused _ | exhausted => rfl

theorem read_replicate_eq_unrolled (item : Grammar ε ρ α) (count : Nat) (s : σ) :
    (replicate (count + 1) item).read m s =
      (unrolled item (replicate count item) failure).read m s := by
  rw [read_unrolled_failure, read_replicate, readCount_succ]
  cases item.read m s with
  | refused _ | exhausted => rfl
  | done p => exact readCount_eq_map count [p.1]

/-- A list of another length fails before any item is written, as it does at the end of the
unrolling. -/
theorem write_replicate_eq_unrolled (item : Grammar ε ρ α) (count : Nat) (xs : List α) (rest : σ) :
    (replicate (count + 1) item).write m xs rest =
      (unrolled item (replicate count item) failure).write m xs rest := by
  cases xs with
  | nil =>
      -- An item is missing, and the failure stands in its place.
      rw [write_unrolled_nil, write_replicate, if_neg (by simp)]
      rfl
  | cons x xs =>
      have lengths : (x :: xs).length = count + 1 ↔ xs.length = count := by simp
      rw [write_unrolled_cons, write_replicate, write_replicate]
      by_cases same : xs.length = count
      · rw [if_pos (lengths.2 same), if_pos same, write_many_cons]
      · rw [if_neg (mt lengths.1 same), if_neg same]
        rfl

/-- A counted repetition with each of its turns unrolled, down to the empty list. -/
def unrolledTimes (item : Grammar ε ρ α) : Nat → Grammar ε ρ (List α)
  | 0 => replicate 0 item
  | count + 1 => unrolled item (unrolledTimes item count) failure

theorem read_replicate_eq_unrolledTimes (item : Grammar ε ρ α) (count : Nat) (s : σ) :
    (replicate count item).read m s = (unrolledTimes item count).read m s := by
  induction count generalizing s with
  | zero => rfl
  | succ count ih =>
      rw [read_replicate_eq_unrolled, unrolledTimes, read_unrolled_failure, read_unrolled_failure]
      simp only [ih]

theorem write_replicate_eq_unrolledTimes (item : Grammar ε ρ α) (count : Nat) (xs : List α)
    (rest : σ) : (replicate count item).write m xs rest =
      (unrolledTimes item count).write m xs rest := by
  induction count generalizing xs rest with
  | zero => rfl
  | succ count ih =>
      rw [write_replicate_eq_unrolled, unrolledTimes]
      cases xs with
      | nil => rw [write_unrolled_nil, write_unrolled_nil]
      | cons x xs => rw [write_unrolled_cons, write_unrolled_cons, ih]

/-- One more of an item is an item with the others behind it, and nothing else: both read the same
and fail alike, and both write the same and are refused for the same reason, be it the length of the
list or one of its items. The same goes for all turns unrolled, where the length shows at the very
end. -/
theorem replicate_unrolls (m : Meaning ρ σ) (item : Grammar ε ρ α) (count : Nat) :
    (∀ s : σ, (replicate (count + 1) item).read m s =
      (unrolled item (replicate count item) failure).read m s) ∧
    (∀ xs (rest : σ), (replicate (count + 1) item).write m xs rest =
      (unrolled item (replicate count item) failure).write m xs rest) ∧
    (∀ s : σ, (replicate count item).read m s = (unrolledTimes item count).read m s) ∧
    ∀ xs (rest : σ), (replicate count item).write m xs rest =
      (unrolledTimes item count).write m xs rest :=
  ⟨read_replicate_eq_unrolled item count, write_replicate_eq_unrolled item count,
    read_replicate_eq_unrolledTimes item count, write_replicate_eq_unrolledTimes item count⟩

end Grammar
end TwoWay
