import Mathlib.Data.List.Chain
import TwoWay.Proofs.CountPrefixed
import TwoWay.Proofs.Integer

/-!
The texts that are read as words. Such a text is a row of blocks, each a count with as many
letters behind it as it says. A count goes on as long as there are digits, so behind a block
without letters comes a minus sign or nothing. Every other text is refused.
-/

namespace TwoWay
namespace CountPrefixed

open Grammar Sequence

/-- A count, however it is spelled, and the word it counts. A negative count says no letters. -/
structure Block where
  numeral : Decimal.Numeral
  count : Int64
  word : String
  value_numeral : numeral.value = count.toInt
  length_word : word.length = count.toInt.toNat
  isAlpha_word : ∀ c ∈ word.toList, c.isAlpha = true

namespace Block

variable (block : Block)

def chars : List Char := block.numeral.chars ++ block.word.toList

/-- A count that says no letters does not run into the next block. -/
def Apart (next : Block) : Prop := block.count.toInt ≤ 0 → NoDigitAhead next.chars

theorem chars_ne_nil : block.chars ≠ [] :=
  List.append_ne_nil_of_left_ne_nil block.numeral.chars_ne_nil _

/-- A block that does not start with a digit starts with a minus sign. -/
theorem minus_mem_chars (stop : NoDigitAhead block.chars) : '-' ∈ block.chars := by
  by_cases minus : block.numeral.minus = true
  · rw [chars, block.numeral.chars_of_minus minus]
    exact List.mem_cons_self ..
  · obtain ⟨d, ds, split⟩ := List.exists_cons_of_ne_nil block.numeral.digits_ne_nil
    have digit := block.numeral.isDigit_digits d (by rw [split]; exact List.mem_cons_self ..)
    have first : block.chars.head? = some d := by
      rw [chars, block.numeral.chars_of_plain minus, split]
      rfl
    have other := stop d first
    rw [digit] at other
    cases other

theorem writable_word : Writable block.word := by
  refine ⟨?_, block.isAlpha_word⟩
  rw [block.length_word]
  exact Int.toNat_le_toNat block.count.toInt_le

theorem word_eq_empty_iff : block.word = "" ↔ block.count.toInt ≤ 0 := by
  rw [← String.length_eq_zero_iff, block.length_word, Int.toNat_eq_zero]

end Block

section Reading

variable {σ : Type} [Sequence σ Char] [LawfulSequence σ Char] {ρ : Type → Type} {m : Meaning ρ σ}
variable {s rest : σ} {word : String} {ws : List String}

/-- Letters end a count, and so does whatever is no digit. -/
theorem noDigitAhead_word_iff (block : Block) (s : σ) :
    NoDigitAhead (prepend block.word.toList s) ↔ (block.count.toInt ≤ 0 → NoDigitAhead s) := by
  by_cases hempty : block.word = ""
  · have saysNone := block.word_eq_empty_iff.1 hempty
    rw [hempty, String.toList_empty]
    exact ⟨fun stop _ => stop, fun stop => stop saysNone⟩
  · have saysSome := mt block.word_eq_empty_iff.2 hempty
    exact iff_of_true (noDigitAhead_of_writable block.writable_word hempty s)
      fun saysNone => absurd saysNone saysSome

theorem noDigitAhead_blocks_iff (blocks : List Block) :
    NoDigitAhead (prepend (blocks.flatMap Block.chars) (empty : σ)) ↔
      ∀ next ∈ blocks.head?, NoDigitAhead next.chars := by
  cases blocks with
  | nil => exact iff_of_true noDigitAhead_empty fun next hnext => nomatch hnext
  | cons block blocks =>
      obtain ⟨c, cs, split⟩ := List.exists_cons_of_ne_nil block.chars_ne_nil
      have first : (toList (prepend ((block :: blocks).flatMap Block.chars) (empty : σ))).head? =
          (toList block.chars).head? := by
        rw [toList_prepend, List.flatMap_cons, split]
        rfl
      rw [NoDigitAhead, first]
      simp only [List.head?_cons, Option.mem_some_iff, forall_eq']
      rfl

theorem read_item_eq_done_iff_block :
    (bind integer letters count : Grammar Char ρ String).read m s = .done (word, rest) ↔
      ∃ block : Block, block.word = word ∧ s = prepend block.chars rest ∧
        (block.count.toInt ≤ 0 → NoDigitAhead rest) := by
  rw [read_bind_eq_done_iff]
  constructor
  · rintro ⟨n, mid, hn, hword⟩
    obtain ⟨numeral, value, hs, stop⟩ := read_integer_eq_done_iff_numeral.1 hn
    obtain ⟨hlen, hmid, hletters⟩ := read_letters_eq_done_iff.1 hword
    let block : Block := ⟨numeral, n, word, value, hlen, hletters⟩
    rw [hmid] at stop hs
    refine ⟨block, rfl, ?_, (noDigitAhead_word_iff block rest).1 stop⟩
    rw [hs, ← prepend_append]
    rfl
  · rintro ⟨block, rfl, rfl, apart⟩
    refine ⟨block.count, prepend block.word.toList rest, ?_, ?_⟩
    · refine read_integer_eq_done_iff_numeral.2 ⟨block.numeral, block.value_numeral, ?_, ?_⟩
      · rw [Block.chars, prepend_append]
      · exact (noDigitAhead_word_iff block rest).2 apart
    · exact read_letters_eq_done_iff.2 ⟨block.length_word, rfl, block.isAlpha_word⟩

theorem consuming_item :
    Consuming ((bind integer letters count : Grammar Char ρ String).read m (σ := σ)) := by
  intro s word rest h
  obtain ⟨block, -, rfl, -⟩ := read_item_eq_done_iff_block.1 h
  exact size_lt_size_prepend block.chars_ne_nil rest

theorem chain_item_iff_blocks :
    Chain ((bind integer letters count : Grammar Char ρ String).read m) s ws empty ↔
      ∃ blocks : List Block, blocks.map Block.word = ws ∧
        s = prepend (blocks.flatMap Block.chars) empty ∧ blocks.IsChain Block.Apart := by
  induction ws generalizing s with
  | nil =>
      rw [Chain.nil_iff]
      constructor
      · intro h
        exact ⟨[], rfl, h, .nil⟩
      · rintro ⟨blocks, hwords, hs, -⟩
        rw [hs, List.map_eq_nil_iff.1 hwords]
        rfl
  | cons word ws ih =>
      rw [Chain.cons_iff]
      constructor
      · rintro ⟨mid, hword, hws⟩
        obtain ⟨block, rfl, rfl, apart⟩ := read_item_eq_done_iff_block.1 hword
        obtain ⟨blocks, rfl, rfl, chain⟩ := ih.1 hws
        -- What stands behind a block starts as the next block does.
        have next := fun saysNone => (noDigitAhead_blocks_iff blocks).1 (apart saysNone)
        refine ⟨block :: blocks, rfl, ?_, List.isChain_cons.2 ⟨?_, chain⟩⟩
        · rw [List.flatMap_cons, prepend_append]
        · exact fun other hother saysNone => next saysNone other hother
      · rintro ⟨blocks, hwords, hs, chain⟩
        obtain ⟨block, blocks, rfl, rfl, rfl⟩ := List.map_eq_cons_iff.1 hwords
        obtain ⟨apart, chain⟩ := List.isChain_cons.1 chain
        rw [List.flatMap_cons, prepend_append] at hs
        refine ⟨_, read_item_eq_done_iff_block.2 ⟨block, rfl, hs, fun saysNone => ?_⟩,
          ih.2 ⟨blocks, rfl, rfl, chain⟩⟩
        exact (noDigitAhead_blocks_iff blocks).2 fun other hother => apart other hother saysNone

theorem read_words_eq_done_iff :
    words.read m s = .done (ws, rest) ↔
      (∃ blocks : List Block, blocks.map Block.word = ws ∧
        s = prepend (blocks.flatMap Block.chars) empty ∧ blocks.IsChain Block.Apart) ∧
      rest = empty := by
  rw [words, read_seqLeft_eq_done_iff]
  simp only [read_many_eq_done_iff_of_consuming consuming_item, read_eof_eq_done_iff]
  constructor
  · rintro ⟨mid, ⟨chain, -⟩, atEnd, rfl⟩
    rw [eq_empty_of_uncons atEnd] at chain
    exact ⟨chain_item_iff_blocks.1 chain, rfl⟩
  · rintro ⟨blocks, rfl⟩
    exact ⟨empty, ⟨chain_item_iff_blocks.2 blocks, read_item_empty⟩, uncons_empty, rfl⟩

theorem progressive_words : (words : Grammar Char ρ (List String)).Progressive m (σ := σ) := by
  have item : (bind integer letters count : Grammar Char ρ String).Progressive m (σ := σ) :=
    ⟨progressive_integer, fun _ => trivial⟩
  exact ⟨⟨item, consuming_item⟩, trivial⟩

/-- The words of a text are those of its blocks, and a text that has none is refused. -/
theorem words_parse_iff_blocks (m : Meaning ρ σ) (s : σ) :
    (∀ ws, (words.parse m s).outcome = .done ws ↔
      ∃ blocks : List Block, blocks.map Block.word = ws ∧
        toList s = blocks.flatMap Block.chars ∧ blocks.IsChain Block.Apart) ∧
    ((words.parse m s).outcome = .refused () ↔
      ¬ ∃ blocks : List Block, toList s = blocks.flatMap Block.chars ∧
        blocks.IsChain Block.Apart) := by
  have values : ∀ ws, (words.parse m s).outcome = .done ws ↔
      ∃ blocks : List Block, blocks.map Block.word = ws ∧
        toList s = blocks.flatMap Block.chars ∧ blocks.IsChain Block.Apart := by
    intro ws
    simp only [parse_eq_done_iff, read_words_eq_done_iff, eq_prepend_iff,
      LawfulSequence.toList_empty, List.append_nil, exists_and_left, exists_eq, and_true]
  refine ⟨values, ?_⟩
  rw [parse_eq_refused_iff, progressive_words.read_eq_refused_iff]
  constructor
  · rintro unread ⟨blocks, hs, chain⟩
    obtain ⟨rest, hread⟩ := parse_eq_done_iff.1 ((values _).2 ⟨blocks, rfl, hs, chain⟩)
    exact unread _ rest hread
  · intro unsplit ws rest hread
    obtain ⟨blocks, -, split⟩ := (values ws).1 (parse_eq_done_iff.2 ⟨rest, hread⟩)
    exact unsplit ⟨blocks, split⟩

end Reading

/-- A leading zero and a negative count, and a count without its letters. -/
theorem words_parse_minus_thirty :
    (∃ blocks : List Block, blocks.map Block.word = ["ab", ""] ∧
      ['0', '2', 'a', 'b', '-', '3', '0'] = blocks.flatMap Block.chars ∧
      blocks.IsChain Block.Apart) ∧
    ¬ ∃ blocks : List Block, ['1', 'a', '2'] = blocks.flatMap Block.chars ∧
      blocks.IsChain Block.Apart := by
  have read : (words.parse NoRule.meaning ['0', '2', 'a', 'b', '-', '3', '0']).outcome =
      .done ["ab", ""] := by decide
  have refused : (words.parse NoRule.meaning ['1', 'a', '2']).outcome = .refused () := by decide
  refine ⟨((words_parse_iff_blocks NoRule.meaning _).1 _).1 read, ?_⟩
  exact (words_parse_iff_blocks NoRule.meaning _).2.1 refused

end CountPrefixed
end TwoWay
