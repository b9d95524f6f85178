import TwoWay.Optic.Standard

/-!
Decimal numerals. A numeral is an integer as it may be spelled: an optional minus sign and at least
one digit. Zeros in front of the digits do not change its value, and every run of digits is the
canonical one of its value with zeros in front. No numeral of an integer is shorter than the text it
is written as, which is the only canonical one.
-/

namespace TwoWay
namespace Decimal

theorem isDigit_toDigits {n : Nat} : ∀ c ∈ Nat.toDigits 10 n, c.isDigit = true :=
  fun _ hc => Nat.isDigit_of_mem_toDigits (by decide) (by decide) hc

theorem magnitude?_eq_some_iff {digits : List Char} {n : Nat} :
    magnitude? digits = some n ↔
      digits ≠ [] ∧ (∀ c ∈ digits, c.isDigit = true) ∧ Nat.ofDigitChars 10 digits 0 = n := by
  simp only [magnitude?, List.all_eq_true, Option.ite_none_right_eq_some, Option.some.injEq,
    and_assoc]

theorem read?_of_digits {digits : List Char} (h : ∀ c ∈ digits, c.isDigit = true) :
    read? digits = (magnitude? digits).bind fun n => ofInt? n := by
  unfold read?
  split
  · have minus := h '-' (List.mem_cons_self ..)
    cases minus
  · have plus := h '+' (List.mem_cons_self ..)
    cases plus
  · rfl

theorem read?_minus (digits : List Char) :
    read? ('-' :: digits) = (magnitude? digits).bind fun n => ofInt? (-n) := rfl

theorem ofInt?_eq_some_iff {z : Int} {n : Int64} : ofInt? z = some n ↔ z = n.toInt := by
  constructor
  · intro h
    obtain ⟨inRange, same⟩ := Option.ite_none_right_eq_some.1 h
    rw [← Option.some.inj same]
    have low : Int64.minValue.toInt = -9223372036854775808 := by decide
    have high : Int64.maxValue.toInt = 9223372036854775807 := by decide
    exact (Int64.toInt_ofInt_of_le (by omega) (by omega)).symm
  · intro h
    rw [h, ofInt?_toInt]

theorem toDigits_inj {n n' : Nat} : Nat.toDigits 10 n = Nat.toDigits 10 n' ↔ n = n' := by
  constructor
  · intro same
    rw [← Nat.ofDigitChars_ten_toDigits (n := n), same, Nat.ofDigitChars_ten_toDigits]
  · exact congrArg (Nat.toDigits 10)

/-! Runs of digits and the canonical digits of their values. -/

section Digits

variable {digits : List Char} {n : Nat}

theorem toDigits_of_isDigit {c : Char} (h : c.isDigit = true) :
    Nat.toDigits 10 (c.toNat - '0'.toNat) = [c] := by
  obtain ⟨low, high⟩ := Char.isDigit_iff_toNat.1 h
  change 48 ≤ c.toNat at low
  change c.toNat ≤ 57 at high
  change Nat.toDigits 10 (c.toNat - 48) = [c]
  have small : c.toNat - 48 < 10 := by omega
  have same : Nat.digitChar (c.toNat - 48) = c := by
    rw [← Char.toNat_inj, Nat.toNat_digitChar_of_lt_ten small]
    omega
  rw [Nat.toDigits_of_lt_base small, same]

/-- Behind the digits of a positive number any digits go on with it. -/
theorem toDigits_append (positive : 0 < n) (h : ∀ c ∈ digits, c.isDigit = true) :
    Nat.toDigits 10 n ++ digits = Nat.toDigits 10 (Nat.ofDigitChars 10 digits n) := by
  induction digits generalizing n with
  | nil => rw [List.append_nil, Nat.ofDigitChars_nil]
  | cons c digits ih =>
      obtain ⟨hc, hdigits⟩ := List.forall_mem_cons.1 h
      have small : c.toNat - '0'.toNat < 10 := by
        have high : c.toNat ≤ 57 := (Char.isDigit_iff_toNat.1 hc).2
        change c.toNat - 48 < 10
        omega
      calc
        Nat.toDigits 10 n ++ c :: digits = (Nat.toDigits 10 n ++ [c]) ++ digits := by
          rw [List.append_assoc, List.singleton_append]
        _ = Nat.toDigits 10 (10 * n + (c.toNat - '0'.toNat)) ++ digits := by
          rw [← toDigits_of_isDigit hc, Nat.toDigits_append_toDigits (by decide) positive small]
        _ = Nat.toDigits 10 (Nat.ofDigitChars 10 (c :: digits) n) := by
          rw [ih (by omega) hdigits, Nat.ofDigitChars_cons]

/-- A run of digits is the canonical one of its value with zeros in front. -/
theorem exists_zeros_append_toDigits (hne : digits ≠ []) (h : ∀ c ∈ digits, c.isDigit = true) :
    ∃ zeros, digits =
      List.replicate zeros '0' ++ Nat.toDigits 10 (Nat.ofDigitChars 10 digits 0) := by
  induction digits with
  | nil => exact absurd rfl hne
  | cons c digits ih =>
      obtain ⟨hc, hdigits⟩ := List.forall_mem_cons.1 h
      rw [Nat.ofDigitChars_cons, Nat.mul_zero, Nat.zero_add]
      by_cases zero : c.toNat - '0'.toNat = 0
      · have head := toDigits_of_isDigit hc
        rw [zero, Nat.toDigits_zero, List.cons.injEq] at head
        rw [zero, ← head.1]
        by_cases last : digits = []
        · exact ⟨0, by rw [last]; rfl⟩
        · obtain ⟨zeros, split⟩ := ih last hdigits
          exact ⟨zeros + 1, by rw [List.replicate_succ, List.cons_append, ← split]⟩
      · refine ⟨0, ?_⟩
        rw [← toDigits_append (Nat.pos_of_ne_zero zero) hdigits, toDigits_of_isDigit hc]
        rfl

theorem length_toDigits_le (hne : digits ≠ []) (h : ∀ c ∈ digits, c.isDigit = true) :
    (Nat.toDigits 10 (Nat.ofDigitChars 10 digits 0)).length ≤ digits.length := by
  obtain ⟨zeros, split⟩ := exists_zeros_append_toDigits hne h
  have lengths := congrArg List.length split
  rw [List.length_append] at lengths
  omega

/-- Only zero is written with a zero in front. -/
theorem head?_toDigits_ne (positive : 0 < n) : (Nat.toDigits 10 n).head? ≠ some '0' := by
  intro head
  obtain ⟨digits, split⟩ := List.head?_eq_some_iff.1 head
  have value : Nat.ofDigitChars 10 digits 0 = n := by
    have whole : Nat.ofDigitChars 10 ('0' :: digits) 0 = n := by
      rw [← split, Nat.ofDigitChars_ten_toDigits]
    exact whole
  have hne : digits ≠ [] := by
    rintro rfl
    rw [← value] at positive
    exact absurd positive (Nat.lt_irrefl 0)
  have hdigits : ∀ c ∈ digits, c.isDigit = true := by
    intro c hc
    exact isDigit_toDigits c (by rw [split]; exact List.mem_cons_of_mem '0' hc)
  -- The digits behind the zero would be at least as long as all of them.
  have shorter := length_toDigits_le hne hdigits
  rw [value, split, List.length_cons] at shorter
  omega

/-- A run of digits is canonical if it is a lone zero or does not start with a zero. -/
theorem toDigits_eq_iff (hne : digits ≠ []) (h : ∀ c ∈ digits, c.isDigit = true) :
    Nat.toDigits 10 (Nat.ofDigitChars 10 digits 0) = digits ↔
      digits = ['0'] ∨ digits.head? ≠ some '0' := by
  obtain ⟨zeros, split⟩ := exists_zeros_append_toDigits hne h
  constructor
  · intro same
    obtain zero | positive := Nat.eq_zero_or_pos (Nat.ofDigitChars 10 digits 0)
    · left
      rw [← same, zero, Nat.toDigits_zero]
    · right
      rw [← same]
      exact head?_toDigits_ne positive
  · rintro (rfl | head)
    · rfl
    · cases zeros with
      | zero => exact split.symm
      | succ zeros =>
          rw [split] at head
          exact absurd rfl head

end Digits

/-- An integer as it may be spelled: an optional minus sign and at least one digit. -/
structure Numeral where
  minus : Bool
  digits : List Char
  digits_ne_nil : digits ≠ []
  isDigit_digits : ∀ c ∈ digits, c.isDigit = true

namespace Numeral

variable (numeral : Numeral)

def sign : Option Char := if numeral.minus then some '-' else none

def chars : List Char := numeral.sign.toList ++ numeral.digits

def value : Int :=
  if numeral.minus then -(Nat.ofDigitChars 10 numeral.digits 0 : Int)
  else (Nat.ofDigitChars 10 numeral.digits 0 : Int)

theorem chars_of_minus (minus : numeral.minus = true) : numeral.chars = '-' :: numeral.digits := by
  rw [chars, sign, if_pos minus]
  rfl

theorem chars_of_plain (plain : ¬ numeral.minus = true) : numeral.chars = numeral.digits := by
  rw [chars, sign, if_neg plain]
  rfl

theorem value_of_minus (minus : numeral.minus = true) :
    numeral.value = -(Nat.ofDigitChars 10 numeral.digits 0 : Int) :=
  if_pos minus

theorem value_of_plain (plain : ¬ numeral.minus = true) :
    numeral.value = (Nat.ofDigitChars 10 numeral.digits 0 : Int) :=
  if_neg plain

theorem eq_minus_of_mem_sign : ∀ c ∈ numeral.sign, c = '-' := by
  intro c hc
  unfold sign at hc
  split at hc
  · exact (Option.mem_some_iff.1 hc).symm
  · cases hc

theorem chars_ne_nil : numeral.chars ≠ [] :=
  List.append_ne_nil_of_right_ne_nil _ numeral.digits_ne_nil

theorem read?_chars : read? numeral.chars = ofInt? numeral.value := by
  have spelled : magnitude? numeral.digits = some (Nat.ofDigitChars 10 numeral.digits 0) :=
    magnitude?_eq_some_iff.2 ⟨numeral.digits_ne_nil, numeral.isDigit_digits, rfl⟩
  by_cases minus : numeral.minus = true
  · rw [numeral.chars_of_minus minus, numeral.value_of_minus minus, read?_minus, spelled,
      Option.bind_some]
  · rw [numeral.chars_of_plain minus, numeral.value_of_plain minus,
      read?_of_digits numeral.isDigit_digits, spelled, Option.bind_some]

/-- The same number with more zeros in front of its digits. -/
def withZeros (zeros : Nat) : Numeral where
  minus := numeral.minus
  digits := List.replicate zeros '0' ++ numeral.digits
  digits_ne_nil := List.append_ne_nil_of_right_ne_nil _ numeral.digits_ne_nil
  isDigit_digits := by
    intro c hc
    obtain hz | hn := List.mem_append.1 hc
    · rw [(List.mem_replicate.1 hz).2]
      rfl
    · exact numeral.isDigit_digits c hn

theorem value_withZeros (zeros : Nat) : (numeral.withZeros zeros).value = numeral.value := by
  have digits : Nat.ofDigitChars 10 (List.replicate zeros '0' ++ numeral.digits) 0 =
      Nat.ofDigitChars 10 numeral.digits 0 := by
    rw [Nat.ofDigitChars_append, Nat.ofDigitChars_replicate_zero, Nat.mul_zero]
  unfold value withZeros
  rw [digits]

/-- The numeral an integer is written as. -/
def ofInt64 (n : Int64) : Numeral where
  minus := n.toInt < 0
  digits := Nat.toDigits 10 n.toInt.natAbs
  digits_ne_nil := Nat.toDigits_ne_nil
  isDigit_digits := isDigit_toDigits

theorem chars_ofInt64 (n : Int64) : (ofInt64 n).chars = write n := by
  unfold chars sign ofInt64 write
  by_cases negative : n.toInt < 0 <;> simp [negative]

theorem value_ofInt64 (n : Int64) : (ofInt64 n).value = n.toInt := by
  simp only [value, ofInt64, Nat.ofDigitChars_ten_toDigits, decide_eq_true_eq]
  omega

/-- The value is one of a 64-bit integer. -/
def InRange : Prop :=
  Int64.minValue.toInt ≤ numeral.value ∧ numeral.value ≤ Int64.maxValue.toInt

theorem inRange_iff : numeral.InRange ↔ ∃ n : Int64, numeral.value = n.toInt := by
  constructor
  · intro inRange
    exact ⟨Int64.ofInt numeral.value, ofInt?_eq_some_iff.1 (if_pos inRange)⟩
  · rintro ⟨n, value⟩
    rw [InRange, value]
    exact ⟨n.minValue_le_toInt, n.toInt_le⟩

/-- No zeros are in front of the digits, and zero has no minus sign. -/
def Canonical : Prop := numeral.chars = ['0'] ∨ numeral.digits.head? ≠ some '0'

instance : Decidable numeral.Canonical :=
  inferInstanceAs (Decidable (numeral.chars = ['0'] ∨ numeral.digits.head? ≠ some '0'))

variable {numeral} {n : Int64}

theorem ofDigitChars_digits (h : numeral.value = n.toInt) :
    Nat.ofDigitChars 10 numeral.digits 0 = n.toInt.natAbs := by
  unfold value at h
  split at h <;> omega

/-- No numeral of an integer is shorter than the one it is written as. -/
theorem length_write_le (h : numeral.value = n.toInt) :
    (write n).length ≤ numeral.chars.length := by
  have digits := length_toDigits_le numeral.digits_ne_nil numeral.isDigit_digits
  rw [ofDigitChars_digits h] at digits
  rw [write]
  by_cases minus : numeral.minus = true
  · rw [numeral.chars_of_minus minus]
    split <;> simp only [List.length_cons] <;> omega
  · rw [numeral.value_of_plain minus] at h
    rw [numeral.chars_of_plain minus, if_neg (by omega)]
    exact digits

/-- Of the numerals of an integer the one it is written as is canonical, and no other. -/
theorem write_eq_chars_iff (h : numeral.value = n.toInt) :
    write n = numeral.chars ↔ numeral.Canonical := by
  have digits := toDigits_eq_iff numeral.digits_ne_nil numeral.isDigit_digits
  rw [ofDigitChars_digits h] at digits
  by_cases minus : numeral.minus = true
  · rw [numeral.value_of_minus minus] at h
    rw [Canonical, numeral.chars_of_minus minus, or_iff_right (by simp), write]
    split
    · next negative =>
        rw [List.cons_inj_right, digits, or_iff_right]
        intro zero
        rw [zero] at h
        change -0 = n.toInt at h
        omega
    · next nonnegative =>
        -- This is a zero with a minus sign.
        have zero : n.toInt = 0 := by omega
        rw [zero, Int.natAbs_zero, Nat.toDigits_zero] at digits ⊢
        refine iff_of_false (by simp) fun head => ?_
        rw [← digits.2 (.inr head)] at head
        exact head rfl
  · rw [numeral.value_of_plain minus] at h
    rw [Canonical, numeral.chars_of_plain minus, write, if_neg (by omega), digits]

end Numeral

theorem write_eq_repr (n : Int64) : write n = n.toInt.repr.toList := by
  rw [write, Int.repr_eq_if]
  by_cases negative : n.toInt < 0
  · have magnitude : (-n.toInt).toNat = n.toInt.natAbs := by omega
    rw [if_pos negative, if_neg (by omega), String.toList_append, Nat.toList_repr, magnitude]
    rfl
  · have magnitude : n.toInt.toNat = n.toInt.natAbs := by omega
    rw [if_neg negative, if_pos (by omega), Nat.toList_repr, magnitude]

theorem read?_write (n : Int64) : read? (write n) = some n := by
  rw [← Numeral.chars_ofInt64, Numeral.read?_chars, Numeral.value_ofInt64, ofInt?_toInt]

/-- Of the texts with an optional sign in front of digits, the numerals in range are read. -/
theorem read?_sign_digits_eq_some_iff {sign : Option Char} {digits : List Char} {n : Int64}
    (hsign : ∀ c ∈ sign, c = '-') (hdigits : ∀ c ∈ digits, c.isDigit = true) :
    read? (sign.toList ++ digits) = some n ↔
      ∃ numeral : Numeral, numeral.sign = sign ∧ numeral.digits = digits ∧
        numeral.value = n.toInt := by
  constructor
  · intro h
    have hne : digits ≠ [] := by
      intro empty
      subst empty
      cases sign with
      | none => cases h
      | some c =>
          rw [hsign c rfl] at h
          cases h
    have same : (Numeral.mk sign.isSome digits hne hdigits).sign = sign := by
      cases sign with
      | none => rfl
      | some c => rw [hsign c rfl]; rfl
    refine ⟨⟨sign.isSome, digits, hne, hdigits⟩, same, rfl, ?_⟩
    rw [← ofInt?_eq_some_iff, ← Numeral.read?_chars, Numeral.chars, same]
    exact h
  · rintro ⟨numeral, rfl, rfl, value⟩
    rw [← Numeral.chars, numeral.read?_chars, ofInt?_eq_some_iff, value]

end Decimal
end TwoWay
