import TwoWay.Proofs.Numeral
import TwoWay.Proofs.Reading
import TwoWay.Proofs.Writing

/-!
Runs of elements that pass a test, and integers. A repetition of a test reads the longest run that
passes; an integer reads an optional minus sign with the longest run of digits and is written as
its canonical text.
-/

namespace TwoWay

namespace Sequence

variable {σ ε : Type} [Sequence σ ε]

/-- The sequence with the given elements in front. -/
def prepend (xs : List ε) (s : σ) : σ := xs.foldr cons s

theorem prepend_cons (x : ε) (xs : List ε) (s : σ) :
    prepend (x :: xs) s = cons x (prepend xs s) := rfl

theorem prepend_append (xs ys : List ε) (s : σ) :
    prepend (xs ++ ys) s = prepend xs (prepend ys s) := List.foldr_append

variable [LawfulSequence σ ε]

@[simp] theorem toList_prepend (xs : List ε) (s : σ) :
    toList (prepend xs s) = xs ++ toList s := by
  induction xs with
  | nil => rfl
  | cons x xs ih => rw [prepend_cons, LawfulSequence.toList_cons, ih, List.cons_append]

theorem prepend_eq_append {α : Type} (xs s : List α) : prepend xs s = xs ++ s :=
  toList_prepend xs s

theorem size_lt_size_prepend {xs : List ε} (hne : xs ≠ []) (s : σ) :
    size s < size (prepend xs s) := by
  rw [LawfulSequence.size_eq_length, LawfulSequence.size_eq_length, toList_prepend,
    List.length_append]
  exact Nat.lt_add_of_pos_left (List.length_pos_iff.2 hne)

theorem eq_prepend_iff {xs : List ε} {s t : σ} :
    s = prepend xs t ↔ toList s = xs ++ toList t := by
  rw [← toList_inj, toList_prepend]

end Sequence

namespace Grammar

variable {σ ε : Type} [Sequence σ ε] {ρ : Type → Type} {α β : Type} {m : Meaning ρ σ} {s rest : σ}

theorem read_opt_some_eq_done_iff {inner : Grammar ε ρ α} {x : α} :
    (opt inner).read m s = .done (some x, rest) ↔ inner.read m s = .done (x, rest) := by
  rw [opt, read_adapt_eq_done_iff, Sum.exists]
  simp only [read_choose_inl_eq_done_iff]
  simp [Iso.option, Iso.get, Iso.directions]

theorem read_opt_none_eq_done_iff {inner : Grammar ε ρ α} :
    (opt inner).read m s = .done (none, rest) ↔ inner.read m s = .refused () ∧ s = rest := by
  rw [opt, read_adapt_eq_done_iff, Sum.exists]
  simp only [read_choose_inr_eq_done_iff]
  simp [Iso.option, Iso.get, Iso.directions, read_success]

variable [LawfulSequence σ ε] {accepts : ε → Bool}

theorem read_satisfy_eq_refused_iff :
    (satisfy accepts : Grammar ε ρ ε).read m s = .refused () ↔
      ∀ x ∈ (Sequence.toList s).head?, accepts x = false := by
  rw [read_satisfy]
  cases hs : Sequence.uncons s with
  | none => simp [Sequence.uncons_eq_none_iff.1 hs]
  | some p =>
      rw [Sequence.uncons_eq_some_iff.1 hs]
      cases hx : accepts p.1 <;> simp [hx]

theorem chain_satisfy_iff {xs : List ε} :
    Chain ((satisfy accepts : Grammar ε ρ ε).read m) s xs rest ↔
      s = Sequence.prepend xs rest ∧ ∀ x ∈ xs, accepts x = true := by
  induction xs generalizing s with
  | nil => simp [Chain.nil_iff, Sequence.prepend]
  | cons x xs ih =>
      simp only [Chain.cons_iff, read_satisfy_eq_done_iff, ih, List.forall_mem_cons,
        Sequence.prepend_cons]
      refine ⟨?_, ?_⟩
      · intro h
        obtain ⟨mid, ⟨hs, hx⟩, hmid, hxs⟩ := h
        exact ⟨by rw [Sequence.eq_cons_of_uncons hs, hmid], hx, hxs⟩
      · intro h
        obtain ⟨hs, hx, hxs⟩ := h
        exact ⟨_, ⟨by rw [hs, Sequence.uncons_cons], hx⟩, rfl, hxs⟩

/-- Reading is greedy: the element behind a run does not pass the test. -/
theorem read_many_satisfy_eq_done_iff {xs : List ε} :
    (many (satisfy accepts) : Grammar ε ρ (List ε)).read m s = .done (xs, rest) ↔
      s = Sequence.prepend xs rest ∧ (∀ x ∈ xs, accepts x = true) ∧
        ∀ x ∈ (Sequence.toList rest).head?, accepts x = false := by
  rw [read_many_eq_done_iff, chain_satisfy_iff, read_satisfy_eq_refused_iff, and_assoc]
  constructor
  · exact fun h => h.2
  · intro h
    refine ⟨?_, h⟩
    rw [LawfulSequence.size_eq_length, h.1, Sequence.toList_prepend, List.length_append]
    exact Nat.le_add_right _ _

omit [LawfulSequence σ ε] in
theorem write_many_satisfy {xs : List ε} (h : ∀ x ∈ xs, accepts x = true) (rest : σ) :
    (many (satisfy accepts) : Grammar ε ρ (List ε)).write m xs rest =
      .done (Sequence.prepend xs rest) := by
  induction xs with
  | nil => rfl
  | cons x xs ih =>
      rw [write_many_cons, ih fun y hy => h y (List.mem_cons_of_mem x hy), Traced.done_andThen,
        write_satisfy, if_pos (h x (List.mem_cons_self ..)), Sequence.prepend_cons]

end Grammar

namespace Grammar

variable {σ : Type} [Sequence σ Char] {ρ : Type → Type} {m : Meaning ρ σ}

/-- The sequence does not go on with a digit. -/
def NoDigitAhead (s : σ) : Prop := ∀ c ∈ (Sequence.toList s).head?, c.isDigit = false

/-- The minus sign and the digits that an integer is written with. -/
def signAndDigits (n : Int64) : Option Char × List Char :=
  (if n.toInt < 0 then some '-' else none, Nat.toDigits 10 n.toInt.natAbs)

theorem isDigit_eq_false_of_isAlpha {c : Char} (h : c.isAlpha = true) : c.isDigit = false := by
  have above : 65 ≤ c.toNat := by
    obtain upper | lower := Bool.or_eq_true_iff.1 h
    · exact UInt32.le_iff_toNat_le.1 (of_decide_eq_true upper).1
    · have from_a : 97 ≤ c.toNat :=
        UInt32.le_iff_toNat_le.1 (of_decide_eq_true (Bool.and_eq_true_iff.1 lower).1)
      omega
  refine Bool.eq_false_iff.2 fun digit => ?_
  have below : c.toNat ≤ 57 := (Char.isDigit_iff_toNat.1 digit).2
  omega

theorem write_eq_signAndDigits (n : Int64) :
    Decimal.write n = (signAndDigits n).1.toList ++ (signAndDigits n).2 := by
  unfold signAndDigits Decimal.write
  split <;> rfl

/-- Between a sign with digits and the integer they spell. -/
abbrev numeral : Prism (Option Char × List Char) Int64 :=
  (Prism.ofIso (Iso.signedDigits.compose .charsText)).compose .integerText

theorem preview_numeral (sign : Option Char) (digits : List Char) :
    numeral.preview (sign, digits) = Decimal.read? (sign.toList ++ digits) := by
  cases sign <;>
    simp [Prism.integerText, Iso.signedDigits, Iso.charsText, String.toList_ofList]

theorem review_numeral (n : Int64) : numeral.review n = signAndDigits n := by
  simp only [Prism.review_compose, Prism.integerText, Prism.review_functions, Prism.review_ofIso,
    Iso.reverseGet_compose, Iso.charsText, Iso.reverseGet_functions, String.toList_ofList,
    Iso.signedDigits]
  by_cases negative : n.toInt < 0
  · simp only [Decimal.write, signAndDigits, if_pos negative]
  · simp only [Decimal.write, signAndDigits, if_neg negative]
    split
    · next minus =>
        have digit := Decimal.isDigit_toDigits '-' (by rw [minus]; exact List.mem_cons_self ..)
        cases digit
    · rfl

theorem preview_review_numeral (n : Int64) : numeral.preview (numeral.review n) = some n := by
  rw [review_numeral, preview_numeral, ← write_eq_signAndDigits, Decimal.read?_write]

variable [LawfulSequence σ Char] {s rest : σ}

/-- A run of digits is not taken for a minus sign. -/
theorem read_minus_eq_refused {digits : List Char} (hne : digits ≠ [])
    (hdigits : ∀ c ∈ digits, c.isDigit = true) :
    (symbol '-' : Grammar Char ρ Char).read m (Sequence.prepend digits rest) = .refused () := by
  refine read_satisfy_eq_refused_iff.2 fun c hc => decide_eq_false fun minus => ?_
  obtain ⟨d, ds, rfl⟩ := List.exists_cons_of_ne_nil hne
  rw [Sequence.toList_prepend, List.cons_append, List.head?_cons, Option.mem_some_iff] at hc
  have digit := hdigits d (List.mem_cons_self ..)
  rw [hc, minus] at digit
  cases digit

theorem read_integer_eq_done_iff {n : Int64} :
    (integer : Grammar Char ρ Int64).read m s = .done (n, rest) ↔
      ∃ (sign : Option Char) (digits : List Char), (∀ c ∈ sign, c = '-') ∧
        (∀ c ∈ digits, c.isDigit = true) ∧ s = Sequence.prepend (sign.toList ++ digits) rest ∧
        NoDigitAhead rest ∧ Decimal.read? (sign.toList ++ digits) = some n := by
  rw [integer, read_adapt_eq_done_iff, Prod.exists]
  refine exists_congr fun sign => exists_congr fun digits => ?_
  rw [preview_numeral, read_both_eq_done_iff]
  cases sign with
  | some c =>
      simp only [read_opt_some_eq_done_iff, symbol, read_satisfy_eq_done_iff, digit,
        read_many_satisfy_eq_done_iff, beq_iff_eq, Option.mem_some_iff, forall_eq',
        Option.toList_some, List.singleton_append, Sequence.prepend_cons]
      refine ⟨?_, ?_⟩
      · intro h
        obtain ⟨⟨mid, ⟨hs, hc⟩, hmid, hdigits, stop⟩, value⟩ := h
        exact ⟨hc, hdigits, by rw [Sequence.eq_cons_of_uncons hs, hmid], stop, value⟩
      · intro h
        obtain ⟨hc, hdigits, hs, stop, value⟩ := h
        exact ⟨⟨_, ⟨by rw [hs, Sequence.uncons_cons], hc⟩, rfl, hdigits, stop⟩, value⟩
  | none =>
      simp only [read_opt_none_eq_done_iff, digit, read_many_satisfy_eq_done_iff,
        Option.not_mem_none, false_imp_iff, implies_true, true_and, Option.toList_none,
        List.nil_append]
      refine ⟨?_, ?_⟩
      · intro h
        obtain ⟨⟨_, ⟨-, rfl⟩, hs, hdigits, stop⟩, value⟩ := h
        exact ⟨hdigits, hs, stop, value⟩
      · intro h
        obtain ⟨hdigits, hs, stop, value⟩ := h
        have hne : digits ≠ [] := by
          intro empty
          rw [empty] at value
          cases value
        exact ⟨⟨s, ⟨by rw [hs, read_minus_eq_refused hne hdigits], rfl⟩, hs, hdigits, stop⟩, value⟩

/-- An integer is read off the numerals of its value that no digit follows. -/
theorem read_integer_eq_done_iff_numeral {n : Int64} :
    (integer : Grammar Char ρ Int64).read m s = .done (n, rest) ↔
      ∃ numeral : Decimal.Numeral, numeral.value = n.toInt ∧
        s = Sequence.prepend numeral.chars rest ∧ NoDigitAhead rest := by
  rw [read_integer_eq_done_iff]
  constructor
  · rintro ⟨sign, digits, hsign, hdigits, hs, stop, value⟩
    obtain ⟨numeral, rfl, rfl, hn⟩ :=
      (Decimal.read?_sign_digits_eq_some_iff hsign hdigits).1 value
    exact ⟨numeral, hn, hs, stop⟩
  · rintro ⟨numeral, hn, hs, stop⟩
    refine ⟨numeral.sign, numeral.digits, numeral.eq_minus_of_mem_sign, numeral.isDigit_digits, hs,
      stop, ?_⟩
    exact (Decimal.read?_sign_digits_eq_some_iff numeral.eq_minus_of_mem_sign
      numeral.isDigit_digits).2 ⟨numeral, rfl, rfl, hn⟩

omit [LawfulSequence σ Char] in
theorem write_integer (n : Int64) (rest : σ) :
    (integer : Grammar Char ρ Int64).write m n rest =
      .done (Sequence.prepend (Decimal.write n) rest) := by
  have digits : ∀ c ∈ (signAndDigits n).2, c.isDigit = true := Decimal.isDigit_toDigits
  rw [integer, write_adapt, review_numeral, write_eq_signAndDigits, Sequence.prepend_append]
  change ((many digit).write m (signAndDigits n).2 rest).andThen
    ((opt (symbol '-')).write m (signAndDigits n).1) = _
  rw [digit, write_many_satisfy digits, Traced.done_andThen]
  by_cases negative : n.toInt < 0
  · simp only [signAndDigits, if_pos negative]
    rfl
  · simp only [signAndDigits, if_neg negative]
    rfl

/-- Zeros in front of the digits of an integer do not change what it is read as. -/
theorem read_integer_withZeros (zeros : Nat) {numeral : Decimal.Numeral} {n : Int64}
    (value : numeral.value = n.toInt) (stop : NoDigitAhead rest) :
    (integer : Grammar Char ρ Int64).read m
      (Sequence.prepend (numeral.withZeros zeros).chars rest) = .done (n, rest) := by
  refine read_integer_eq_done_iff_numeral.2 ⟨numeral.withZeros zeros, ?_, rfl, stop⟩
  rw [numeral.value_withZeros, value]

theorem read_integer_zeros (zeros : Nat) {n : Nat} (h : n ≤ Int64.maxValue.toInt.toNat)
    (stop : NoDigitAhead rest) :
    (integer : Grammar Char ρ Int64).read m
        (Sequence.prepend (List.replicate zeros '0' ++ Nat.toDigits 10 n) rest) =
      .done (Int64.ofNat n, rest) := by
  let numeral : Decimal.Numeral :=
    ⟨false, Nat.toDigits 10 n, Nat.toDigits_ne_nil, Decimal.isDigit_toDigits⟩
  have value : numeral.value = (Int64.ofNat n).toInt := by
    rw [Int64.toInt_ofNat_of_lt (Nat.lt_of_le_of_lt h (by decide))]
    exact congrArg Int.ofNat Nat.ofDigitChars_ten_toDigits
  exact read_integer_withZeros zeros value stop

theorem noDigitAhead_empty : NoDigitAhead (Sequence.empty : σ) := by
  intro c hc
  rw [LawfulSequence.toList_empty] at hc
  cases hc

/-- An integer has at least one digit. -/
theorem read_integer_empty :
    (integer : Grammar Char ρ Int64).read m (Sequence.empty : σ) = .refused () := by
  have parts : (both (opt (symbol '-')) (many digit) : Grammar Char ρ _).read m
      (Sequence.empty : σ) = .done ((none, []), Sequence.empty) := by
    refine read_both_eq_done_iff.2 ⟨Sequence.empty, read_opt_none_eq_done_iff.2 ⟨?_, rfl⟩,
      read_many_nil ?_⟩
    · exact read_satisfy_eq_refused_iff.2 (by simp)
    · exact read_satisfy_eq_refused_iff.2 (by simp)
  exact read_adapt_eq_refused parts (preview_numeral none [])

end Grammar
end TwoWay
