import TwoWay.Proofs.CountPrefixed.Blocks

/-!
Words that are written and read back, and texts that are read and written again. What is written
is the text of the words, and the words that come back are the survivors: every empty word in
front of another word is lost. Reading a text yields such a word only where a minus sign stands
behind the first character.
-/

namespace TwoWay
namespace CountPrefixed

open Grammar Sequence

variable {σ : Type} [Sequence σ Char] {ρ : Type → Type} {m : Meaning ρ σ} {s : σ}
variable {ws : List String}

theorem survivors_eq_self_iff : survivors ws = ws ↔ "" ∉ ws.dropLast := by
  have whole : ws.dropLast ++ ws.getLast?.toList = ws := by
    cases ws with
    | nil => rfl
    | cons word ws =>
        rw [List.getLast?_eq_some_getLast (List.cons_ne_nil word ws)]
        exact List.dropLast_concat_getLast _
  calc
    survivors ws = ws ↔ survivors ws = ws.dropLast ++ ws.getLast?.toList := by rw [whole]
    _ ↔ ws.dropLast.filter (fun word => word ≠ "") = ws.dropLast := List.append_left_inj _
    _ ↔ ∀ word ∈ ws.dropLast, word ≠ "" := by simp only [List.filter_eq_self, decide_eq_true_eq]
    _ ↔ "" ∉ ws.dropLast := by
      constructor
      · intro nonempty hempty
        exact nonempty "" hempty rfl
      · intro absent word hword hempty
        exact absent (hempty ▸ hword)

theorem spells_words :
    Spells m (words : Grammar Char ρ (List String)) (fun ws => ∀ word ∈ ws, Writable word) text :=
  spells_item.many.seqLeft_eof

theorem print_words_eq_done_iff :
    (words.print m ws).outcome = .done s ↔
      (∀ word ∈ ws, Writable word) ∧ s = prepend (text ws) empty := by
  rw [print_eq_done_iff, spells_words.done_iff]

variable [LawfulSequence σ Char]

theorem parse_text (h : ∀ word ∈ ws, Writable word) :
    (words.parse m (prepend (text ws) (empty : σ))).outcome = .done (survivors ws) :=
  parse_eq_done_iff.2 ⟨empty, read_words h⟩

theorem parse_text_eq_self_iff (h : ∀ word ∈ ws, Writable word) :
    (words.parse m (prepend (text ws) (empty : σ))).outcome = .done ws ↔ "" ∉ ws.dropLast := by
  rw [parse_text h, Outcome.done.injEq, survivors_eq_self_iff]

/-- Writing words and reading them back: the words that are written, the text that is written for
them, and the words that come back. -/
theorem words_print_parse (m : Meaning ρ σ)
    (short : ∀ word ∈ ws, word.length ≤ Int64.maxValue.toInt.toNat) :
    ((∃ s : σ, (words.print m ws).outcome = .done s) ↔ ∀ word ∈ ws, Lettered word) ∧
    ((words.print m ws).outcome = .refused .cannotBuild ↔ ¬ ∀ word ∈ ws, Lettered word) ∧
    ∀ s, (words.print m ws).outcome = .done s →
      toList s = ws.flatMap (fun word => Nat.toDigits 10 word.length ++ word.toList) ∧
      (words.parse m s).outcome =
        .done (ws.dropLast.filter (fun word => word ≠ "") ++ ws.getLast?.toList) ∧
      ((words.parse m s).outcome = .done ws ↔ "" ∉ ws.dropLast) := by
  refine ⟨?_, ?_, ?_⟩
  · simp only [print_words_eq_done_iff, forall_writable_iff short, exists_and_left, exists_eq,
      and_true]
  · rw [print_eq_refused_iff, spells_words.refused_iff, forall_writable_iff short]
    simp only [and_true]
  · intro s hs
    obtain ⟨writable, rfl⟩ := print_words_eq_done_iff.1 hs
    refine ⟨?_, parse_text writable, parse_text_eq_self_iff writable⟩
    rw [toList_prepend, LawfulSequence.toList_empty, List.append_nil]
    rfl

theorem words_print_parse_empty_between :
    (∀ word ∈ ["ab", "", "c", ""], word.length ≤ Int64.maxValue.toInt.toNat) ∧
    (words.print NoRule.meaning ["ab", "", "c", ""]).outcome =
      .done ['2', 'a', 'b', '0', '1', 'c', '0'] ∧
    toList ['2', 'a', 'b', '0', '1', 'c', '0'] =
      ["ab", "", "c", ""].flatMap (fun word => Nat.toDigits 10 word.length ++ word.toList) ∧
    (words.parse NoRule.meaning ['2', 'a', 'b', '0', '1', 'c', '0']).outcome =
      .done ["ab", "c", ""] ∧
    ((words.parse NoRule.meaning ['2', 'a', 'b', '0', '1', 'c', '0']).outcome =
      .done ["ab", "", "c", ""] ↔ "" ∉ ["ab", "", "c", ""].dropLast) := by
  have short : ∀ word ∈ ["ab", "", "c", ""], word.length ≤ Int64.maxValue.toInt.toNat := by decide
  have printed : (words.print NoRule.meaning ["ab", "", "c", ""]).outcome =
      .done ['2', 'a', 'b', '0', '1', 'c', '0'] := by decide
  exact ⟨short, printed, (words_print_parse NoRule.meaning short).2.2 _ printed⟩

/-- Only a minus sign lets a block without letters stand in front of another one. -/
theorem not_mem_dropLast_words {blocks : List Block} (chain : blocks.IsChain Block.Apart)
    (unsigned : '-' ∉ (blocks.flatMap Block.chars).tail) :
    "" ∉ (blocks.map Block.word).dropLast := by
  induction chain with
  | nil | singleton _ => exact List.not_mem_nil
  | @cons_cons block next blocks apart _ ih =>
      rw [List.flatMap_cons, List.tail_append_of_ne_nil block.chars_ne_nil, List.mem_append,
        not_or] at unsigned
      rw [List.map_cons, List.map_cons, List.dropLast_cons_cons, ← List.map_cons, List.mem_cons,
        not_or]
      constructor
      · intro hempty
        have stop := apart (block.word_eq_empty_iff.1 hempty.symm)
        apply unsigned.2
        rw [List.flatMap_cons]
        exact List.mem_append_left _ (next.minus_mem_chars stop)
      · apply ih
        intro minus
        exact unsigned.2 (List.mem_of_mem_tail minus)

/-- Reading a text and writing the words again: the words are always written, and the same words
are read again unless an empty one stands in front of another. -/
theorem words_parse_print (m : Meaning ρ σ) (h : (words.parse m s).outcome = .done ws) :
    ∃ t : σ, (words.print m ws).outcome = .done t ∧
      (words.parse m t).outcome = .done (survivors ws) ∧
      ((words.parse m t).outcome = .done ws ↔ "" ∉ ws.dropLast) ∧
      ('-' ∉ (toList s).tail → (words.parse m t).outcome = .done ws) := by
  obtain ⟨rest, hread⟩ := parse_eq_done_iff.1 h
  obtain ⟨⟨blocks, rfl, rfl, chain⟩, -⟩ := read_words_eq_done_iff.1 hread
  have writable : ∀ word ∈ blocks.map Block.word, Writable word := by
    intro word hword
    obtain ⟨block, -, rfl⟩ := List.mem_map.1 hword
    exact block.writable_word
  refine ⟨_, print_words_eq_done_iff.2 ⟨writable, rfl⟩, parse_text writable,
    parse_text_eq_self_iff writable, ?_⟩
  intro unsigned
  rw [toList_prepend, LawfulSequence.toList_empty, List.append_nil] at unsigned
  exact (parse_text_eq_self_iff writable).2 (not_mem_dropLast_words chain unsigned)

theorem words_parse_print_leading_zero :
    (words.parse NoRule.meaning ['0', '1', 'a', '-', '3']).outcome = .done ["a", ""] ∧
    ∃ t : List Char, (words.print NoRule.meaning ["a", ""]).outcome = .done t ∧
      (words.parse NoRule.meaning t).outcome = .done (survivors ["a", ""]) ∧
      ((words.parse NoRule.meaning t).outcome = .done ["a", ""] ↔ "" ∉ ["a", ""].dropLast) ∧
      ('-' ∉ (toList ['0', '1', 'a', '-', '3']).tail →
        (words.parse NoRule.meaning t).outcome = .done ["a", ""]) := by
  have read : (words.parse NoRule.meaning ['0', '1', 'a', '-', '3']).outcome =
      .done ["a", ""] := by decide
  exact ⟨read, words_parse_print NoRule.meaning read⟩

/-- Zero and minus zero are two counts, and their words are written as one count. -/
theorem words_parse_print_loses_word :
    (words.parse NoRule.meaning "0-0").outcome = .done ["", ""] ∧
    ¬ ∃ t : String, (words.print NoRule.meaning ["", ""]).outcome = .done t ∧
      (words.parse NoRule.meaning t).outcome = .done ["", ""] := by
  refine ⟨by decide +kernel, ?_⟩
  rintro ⟨t, printed, back⟩
  have zeros : (words.print NoRule.meaning ["", ""]).outcome = .done "00" := by decide +kernel
  rw [zeros] at printed
  cases printed
  have one : (words.parse NoRule.meaning "00").outcome = .done [""] := by decide +kernel
  rw [one] at back
  cases back

end CountPrefixed
end TwoWay
