import TwoWay.Proofs.CountPrefixed.RoundTrip

/-!
Words can be told from their text. The block of a word is its canonical count with its letters, and
no block is the front of another one: the lone zero of an empty word starts no other count, and any
other count ends at the first letter behind it. So a text has one division into blocks, also where
reading takes the zero of an empty word for a part of the count that follows it.
-/

namespace TwoWay

namespace CountPrefixed

open Grammar Sequence

variable {word word' : String} {ws ws' : List String} {s s' : List Char}

theorem takeWhile_toDigits_append (n : Nat) (stop : NoDigitAhead s) :
    (Nat.toDigits 10 n ++ s).takeWhile Char.isDigit = Nat.toDigits 10 n := by
  have behind : s.takeWhile Char.isDigit = [] := by
    cases s with
    | nil => rfl
    | cons c s =>
        have other : c.isDigit = false := stop c rfl
        rw [List.takeWhile_cons, other]
        rfl
  rw [List.takeWhile_append_of_pos Decimal.isDigit_toDigits, behind, List.append_nil]

/-- A canonical count is told from what stands behind it, if that is no digit. -/
theorem toDigits_append_inj {n n' : Nat} (stop : NoDigitAhead s) (stop' : NoDigitAhead s')
    (same : Nat.toDigits 10 n ++ s = Nat.toDigits 10 n' ++ s') : n = n' ∧ s = s' := by
  have digits := congrArg (List.takeWhile Char.isDigit) same
  rw [takeWhile_toDigits_append n stop, takeWhile_toDigits_append n' stop'] at digits
  rw [digits] at same
  exact ⟨Decimal.toDigits_inj.1 digits, List.append_cancel_left same⟩

theorem block_empty : block "" = ['0'] := by
  rw [block, String.toList_empty, List.append_nil]
  rfl

theorem block_ne_nil (word : String) : block word ≠ [] :=
  List.append_ne_nil_of_left_ne_nil Nat.toDigits_ne_nil _

theorem head?_block_append_eq_zero_iff (word : String) (s : List Char) :
    (block word ++ s).head? = some '0' ↔ word = "" := by
  constructor
  · intro head
    by_contra hne
    have positive : 0 < word.length := Nat.pos_of_ne_zero (mt String.length_eq_zero_iff.1 hne)
    rw [block, List.append_assoc, List.head?_append_of_ne_nil _ Nat.toDigits_ne_nil] at head
    exact Decimal.head?_toDigits_ne positive head
  · rintro rfl
    rw [block_empty]
    rfl

/-- No block is the front of another one. -/
theorem block_append_inj (h : Writable word) (h' : Writable word')
    (same : block word ++ s = block word' ++ s') : word = word' ∧ s = s' := by
  -- Only the block of an empty word starts with a zero, so both words are empty or none is.
  have zero : word = "" ↔ word' = "" := by
    rw [← head?_block_append_eq_zero_iff word s, same, head?_block_append_eq_zero_iff]
  by_cases hempty : word = ""
  · have hempty' := zero.1 hempty
    rw [hempty, hempty'] at same ⊢
    exact ⟨rfl, List.append_cancel_left same⟩
  · have stop := noDigitAhead_of_writable h hempty s
    have stop' := noDigitAhead_of_writable h' (mt zero.2 hempty) s'
    rw [prepend_eq_append] at stop stop'
    rw [block, block, List.append_assoc, List.append_assoc] at same
    -- The counts agree, so the letters do not run into what follows them.
    obtain ⟨lengths, letters⟩ := toDigits_append_inj stop stop' same
    rw [← String.length_toList, ← String.length_toList] at lengths
    obtain ⟨words, rests⟩ := List.append_inj letters lengths
    exact ⟨String.toList_inj.1 words, rests⟩

theorem text_inj (h : ∀ word ∈ ws, Writable word) (h' : ∀ word ∈ ws', Writable word) :
    text ws = text ws' ↔ ws = ws' := by
  refine ⟨fun same => ?_, congrArg text⟩
  induction ws generalizing ws' with
  | nil =>
      cases ws' with
      | nil => rfl
      | cons word' ws' =>
          exact absurd same.symm (List.append_ne_nil_of_left_ne_nil (block_ne_nil word') _)
  | cons word ws ih =>
      cases ws' with
      | nil => exact absurd same (List.append_ne_nil_of_left_ne_nil (block_ne_nil word) _)
      | cons word' ws' =>
          obtain ⟨hword, hws⟩ := List.forall_mem_cons.1 h
          obtain ⟨hword', hws'⟩ := List.forall_mem_cons.1 h'
          obtain ⟨rfl, others⟩ := block_append_inj hword hword' same
          rw [ih hws hws' others]

section Printing

variable {σ : Type} [Sequence σ Char] [LawfulSequence σ Char] {ρ : Type → Type}

/-- Words that are written as the same text are the same, though an empty word in front of another
one is not read back. -/
theorem words_print_loses_nothing (m : Meaning ρ σ) :
    (∀ ws ws' (s : σ), (words.print m ws).outcome = .done s →
      (words.print m ws').outcome = .done s → ws = ws') ∧
    ∃ ws, ∃ s : σ, (words.print m ws).outcome = .done s ∧ (words.parse m s).outcome ≠ .done ws := by
  constructor
  · intro ws ws' s printed printed'
    obtain ⟨writable, rfl⟩ := print_words_eq_done_iff.1 printed
    obtain ⟨writable', same⟩ := print_words_eq_done_iff.1 printed'
    exact (text_inj writable writable').1 (prepend_left_inj.1 same)
  · have writable : ∀ word ∈ ["", ""], Writable word :=
      List.forall_mem_cons.2 ⟨writable_empty, List.forall_mem_singleton.2 writable_empty⟩
    refine ⟨["", ""], _, print_words_eq_done_iff.2 ⟨writable, rfl⟩, fun back => ?_⟩
    have absent := (parse_text_eq_self_iff writable).1 back
    exact absent (List.mem_singleton_self "")

end Printing

/-- The text of an empty word and a letter is the text of no other words, and the letter is all that
comes back. -/
theorem words_print_loses_nothing_before_letter :
    (words.print NoRule.meaning ["", "a"]).outcome = .done ['0', '1', 'a'] ∧
    (words.parse NoRule.meaning ['0', '1', 'a']).outcome = .done ["a"] ∧
    ∀ ws, (words.print NoRule.meaning ws).outcome = .done ['0', '1', 'a'] → ws = ["", "a"] := by
  have printed : (words.print NoRule.meaning ["", "a"]).outcome = .done ['0', '1', 'a'] := by decide
  refine ⟨printed, by decide, fun ws printed' => ?_⟩
  exact (words_print_loses_nothing NoRule.meaning).1 _ _ _ printed' printed

end CountPrefixed
end TwoWay
