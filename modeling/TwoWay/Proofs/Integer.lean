import TwoWay.Grammar.Rules
import TwoWay.Proofs.Progress
import TwoWay.Proofs.Text

/-!
Integers as a format. What is read is a numeral in range that no digit follows, and everything else
is refused. An integer is always written, as its decimal text, and it comes back unless a digit
stands behind it. Writing what was read puts the canonical numeral in place of the one that was
there.
-/

namespace TwoWay

namespace Sequence

variable {σ ε : Type} [Sequence σ ε] [LawfulSequence σ ε]

theorem prepend_left_inj {xs ys : List ε} {s : σ} : prepend xs s = prepend ys s ↔ xs = ys := by
  rw [eq_prepend_iff, toList_prepend, List.append_left_inj]

end Sequence

namespace Grammar

open Decimal Sequence

variable {σ : Type} [Sequence σ Char] [LawfulSequence σ Char] {ρ : Type → Type} {m : Meaning ρ σ}
variable {s rest : σ} {n : Int64}

theorem progressive_integer : (integer : Grammar Char ρ Int64).Progressive m (σ := σ) :=
  ⟨⟨trivial, trivial⟩, trivial, consuming_satisfy Char.isDigit⟩

/-- What does not start with a numeral in range and then something else than a digit is refused. -/
theorem read_integer_eq_refused_iff :
    (integer : Grammar Char ρ Int64).read m s = .refused () ↔
      ¬ ∃ (numeral : Numeral) (rest : σ), numeral.InRange ∧ s = prepend numeral.chars rest ∧
        NoDigitAhead rest := by
  rw [progressive_integer.read_eq_refused_iff]
  constructor
  · rintro unread ⟨numeral, rest, inRange, hs, stop⟩
    obtain ⟨n, value⟩ := numeral.inRange_iff.1 inRange
    exact unread n rest (read_integer_eq_done_iff_numeral.2 ⟨numeral, value, hs, stop⟩)
  · intro unspelled n rest read
    obtain ⟨numeral, value, hs, stop⟩ := read_integer_eq_done_iff_numeral.1 read
    exact unspelled ⟨numeral, rest, numeral.inRange_iff.2 ⟨n, value⟩, hs, stop⟩

/-- An integer reads exactly its numerals, whatever zeros stand in front of the digits. -/
theorem integer_reads_numerals (m : Meaning ρ σ) :
    (∀ (s : σ) n rest, (integer : Grammar Char ρ Int64).read m s = .done (n, rest) ↔
      ∃ numeral : Numeral, numeral.value = n.toInt ∧ s = prepend numeral.chars rest ∧
        NoDigitAhead rest) ∧
    (∀ s : σ, (integer : Grammar Char ρ Int64).read m s = .refused () ↔
      ¬ ∃ (numeral : Numeral) (rest : σ), numeral.InRange ∧ s = prepend numeral.chars rest ∧
        NoDigitAhead rest) ∧
    (∀ (numeral : Numeral) zeros (n : Int64) (rest : σ), numeral.value = n.toInt →
      NoDigitAhead rest →
      (integer : Grammar Char ρ Int64).read m (prepend (numeral.withZeros zeros).chars rest) =
        .done (n, rest)) ∧
    ∀ zeros (rest : σ), NoDigitAhead rest →
      (integer : Grammar Char ρ Int64).read m
        (prepend ('-' :: List.replicate (zeros + 1) '0') rest) = .done (0, rest) := by
  refine ⟨fun s n rest => read_integer_eq_done_iff_numeral, fun s => read_integer_eq_refused_iff,
    fun numeral zeros n rest => read_integer_withZeros zeros, fun zeros rest stop => ?_⟩
  let minusZero : Numeral :=
    ⟨true, ['0'], List.cons_ne_nil _ _, List.forall_mem_singleton.2 rfl⟩
  have value : minusZero.value = Int64.toInt 0 := rfl
  rw [List.replicate_succ']
  exact read_integer_withZeros zeros value stop

/-- The least integer behind zeros, the number above the greatest one, and a plus sign. -/
theorem integer_reads_numerals_at_limits :
    let least : Numeral :=
      ⟨true, Nat.toDigits 10 9223372036854775808, Nat.toDigits_ne_nil, isDigit_toDigits⟩
    least.value = Int64.minValue.toInt ∧ NoDigitAhead ['.', '5'] ∧
    integer.read NoRule.meaning (prepend (least.withZeros 2).chars ['.', '5']) =
      .done (Int64.minValue, ['.', '5']) ∧
    (∃ numeral : Numeral, numeral.value = Int64.toInt 12 ∧
      ['0', '1', '2', '-'] = prepend numeral.chars ['-'] ∧ NoDigitAhead ['-']) ∧
    (¬ ∃ (numeral : Numeral) (rest : List Char), numeral.InRange ∧
      Nat.toDigits 10 9223372036854775808 = prepend numeral.chars rest ∧ NoDigitAhead rest) ∧
    (¬ ∃ (numeral : Numeral) (rest : List Char), numeral.InRange ∧
      ['+', '1'] = prepend numeral.chars rest ∧ NoDigitAhead rest) ∧
    integer.read NoRule.meaning (prepend ['-', '0', '0'] ['.', '5']) = .done (0, ['.', '5']) := by
  intro least
  have value : least.value = Int64.minValue.toInt := by decide
  have stop : NoDigitAhead ['.', '5'] := by
    intro c hc
    cases hc
    rfl
  obtain ⟨values, refusals, zerosInFront, minusZero⟩ :=
    integer_reads_numerals (σ := List Char) NoRule.meaning
  exact ⟨value, stop, zerosInFront least 2 _ _ value stop, (values _ 12 _).1 (by decide),
    (refusals _).1 (by decide), (refusals _).1 (by decide), minusZero 1 _ stop⟩

theorem read_integer_write (n : Int64) (stop : NoDigitAhead rest) :
    (integer : Grammar Char ρ Int64).read m (prepend (Decimal.write n) rest) = .done (n, rest) := by
  rw [← Numeral.chars_ofInt64]
  exact read_integer_eq_done_iff_numeral.2 ⟨_, Numeral.value_ofInt64 n, rfl, stop⟩

/-- Every integer is written as its decimal text and comes back unless a digit stands behind it. -/
theorem integer_reads_back_iff (m : Meaning ρ σ) (n : Int64) (rest : σ) :
    ∃ out : σ, (integer : Grammar Char ρ Int64).write m n rest = .done out ∧
      toList out = n.toInt.repr.toList ++ toList rest ∧
      ((integer : Grammar Char ρ Int64).read m out = .done (n, rest) ↔ NoDigitAhead rest) := by
  refine ⟨prepend (Decimal.write n) rest, write_integer n rest, ?_, ?_, read_integer_write n⟩
  · rw [toList_prepend, write_eq_repr]
  · intro read
    obtain ⟨-, -, -, stop⟩ := read_integer_eq_done_iff_numeral.1 read
    exact stop

theorem integer_reads_back_iff_at_least :
    ∃ out : List Char, integer.write NoRule.meaning Int64.minValue ['7'] = .done out ∧
      toList out = Int64.minValue.toInt.repr.toList ++ toList ['7'] ∧
      (integer.read NoRule.meaning out = .done (Int64.minValue, ['7']) ↔ NoDigitAhead ['7']) :=
  integer_reads_back_iff NoRule.meaning Int64.minValue ['7']

/-- Writing the integer that was read gives a text that is no longer and reads the same. It is the
text that was read if the numeral there was canonical. -/
theorem integer_rewritten_canonically (m : Meaning ρ σ)
    (h : (integer : Grammar Char ρ Int64).read m s = .done (n, rest)) :
    ∃ t : σ, (integer : Grammar Char ρ Int64).write m n rest = .done t ∧ size t ≤ size s ∧
      (integer : Grammar Char ρ Int64).read m t = .done (n, rest) ∧
      ∃ numeral : Numeral, s = prepend numeral.chars rest ∧ (t = s ↔ numeral.Canonical) := by
  obtain ⟨numeral, value, rfl, stop⟩ := read_integer_eq_done_iff_numeral.1 h
  refine ⟨prepend (Decimal.write n) rest, write_integer n rest, ?_, read_integer_write n stop,
    numeral, rfl, ?_⟩
  · rw [LawfulSequence.size_eq_length, LawfulSequence.size_eq_length, toList_prepend,
      toList_prepend, List.length_append, List.length_append]
    exact Nat.add_le_add_right (Numeral.length_write_le value) _
  · rw [prepend_left_inj, Numeral.write_eq_chars_iff value]

theorem integer_rewritten_canonically_minus_zero :
    integer.read NoRule.meaning ['-', '0', '0', 'x'] = .done (0, ['x']) ∧
    ∃ t : List Char, integer.write NoRule.meaning 0 ['x'] = .done t ∧
      size t ≤ size ['-', '0', '0', 'x'] ∧ integer.read NoRule.meaning t = .done (0, ['x']) ∧
      ∃ numeral : Numeral, ['-', '0', '0', 'x'] = prepend numeral.chars ['x'] ∧
        (t = ['-', '0', '0', 'x'] ↔ numeral.Canonical) := by
  have read : integer.read NoRule.meaning ['-', '0', '0', 'x'] = .done (0, ['x']) := by decide
  exact ⟨read, integer_rewritten_canonically NoRule.meaning read⟩

end Grammar
end TwoWay
