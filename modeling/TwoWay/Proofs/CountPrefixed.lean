import TwoWay.Format.CountPrefixed
import TwoWay.Grammar.Rules
import TwoWay.Grammar.Run
import TwoWay.Proofs.Spelling

/-!
Words with their counts in front. The text of a list of words is the text of its words one after
the other. An empty word is a lone zero, and reading takes it for a leading zero of the count
behind it: of the empty words only one at the end of the list comes back. The checked format
writes an empty word only in front of empty words, and all of them but the last are lost.
-/

namespace TwoWay
namespace CountPrefixed

open Grammar Sequence

/-- Only ASCII letters. -/
def Lettered (word : String) : Prop := ∀ c ∈ word.toList, c.isAlpha = true

/-- A word whose length fits its count and that consists of letters. -/
def Writable (word : String) : Prop :=
  word.length ≤ Int64.maxValue.toInt.toNat ∧ ∀ c ∈ word.toList, c.isAlpha = true

/-- Of words that are not too long to be counted, the ones of letters can be written. -/
theorem forall_writable_iff {ws : List String}
    (short : ∀ word ∈ ws, word.length ≤ Int64.maxValue.toInt.toNat) :
    (∀ word ∈ ws, Writable word) ↔ ∀ word ∈ ws, Lettered word := by
  constructor
  · intro h word hword
    exact (h word hword).2
  · intro h word hword
    exact ⟨short word hword, h word hword⟩

def block (word : String) : List Char := Nat.toDigits 10 word.length ++ word.toList

def text (ws : List String) : List Char := ws.flatMap block

/-- The words that are left after writing and reading: empty ones only at the end. -/
def survivors (ws : List String) : List String :=
  ws.dropLast.filter (fun word => word ≠ "") ++ ws.getLast?.toList

theorem survivors_empty_cons (word : String) (ws : List String) :
    survivors ("" :: word :: ws) = survivors (word :: ws) := by
  simp [survivors, List.getLast?_cons_cons]

theorem survivors_cons {word : String} (h : word ≠ "") (ws : List String) :
    survivors (word :: ws) = word :: survivors ws := by
  cases ws with
  | nil => rfl
  | cons next ws => simp [survivors, h, List.getLast?_cons_cons]

theorem survivors_replicate (count : Nat) :
    survivors (List.replicate (count + 1) "") = [""] := by
  induction count with
  | zero => rfl
  | succ count ih => rw [List.replicate_succ, List.replicate_succ, survivors_empty_cons,
      ← List.replicate_succ, ih]

theorem survivors_replicate_cons (count : Nat) {word : String} (h : word ≠ "")
    (ws : List String) :
    survivors (List.replicate count "" ++ word :: ws) = word :: survivors ws := by
  induction count with
  | zero => exact survivors_cons h ws
  | succ count ih =>
      rw [← ih]
      cases count with
      | zero => exact survivors_empty_cons word ws
      | succ count => exact survivors_empty_cons "" _

/-- An empty word is followed by empty words only. -/
def EmptyLast (ws : List String) : Prop :=
  ws.Pairwise fun word later => word = "" → later = ""

theorem EmptyLast.replicate {ws : List String} (h : EmptyLast ("" :: ws)) :
    ws = List.replicate ws.length "" :=
  List.eq_replicate_of_mem fun _ later => List.rel_of_pairwise_cons h later rfl

/-- Empty words at the end survive if there is at most one. -/
theorem EmptyLast.survivors_eq_iff {ws : List String} (h : EmptyLast ws) :
    survivors ws = ws ↔ ¬ ["", ""] <:+ ws := by
  induction ws with
  | nil => simp [survivors]
  | cons word ws ih =>
      by_cases hw : word = ""
      · subst hw
        rw [h.replicate, ← List.replicate_succ, survivors_replicate]
        cases ws with
        | nil => simp [List.suffix_cons_iff]
        | cons next ws =>
            have ends : ["", ""] <:+ List.replicate ((next :: ws).length + 1) "" := by
              refine ⟨List.replicate ws.length "", ?_⟩
              rw [show ["", ""] = List.replicate 2 "" from rfl, List.replicate_append_replicate]
              rfl
            refine iff_of_false (fun same => ?_) (not_not_intro ends)
            have lengths := congrArg List.length same
            simp at lengths
      · rw [survivors_cons hw, List.cons.injEq, ih h.tail, List.suffix_cons_iff]
        simp [hw, eq_comm]

theorem count_eq_ofNat {word : String} (h : Writable word) :
    count word = Int64.ofNat word.length := by
  rw [count, Nat.min_eq_left h.1]

theorem toNatClampNeg_count (word : String) :
    (count word).toNatClampNeg = min word.length Int64.maxValue.toInt.toNat := by
  refine Int64.toNatClampNeg_ofNat_of_lt (Nat.lt_of_le_of_lt (Nat.min_le_right _ _) ?_)
  decide

theorem write_count {word : String} (h : Writable word) :
    Decimal.write (count word) = Nat.toDigits 10 word.length := by
  have value : (count word).toInt = word.length := by
    rw [count_eq_ofNat h]
    refine Int64.toInt_ofNat_of_lt (Nat.lt_of_le_of_lt h.1 ?_)
    decide
  rw [Decimal.write, value, if_neg (by omega), Int.natAbs_natCast]

section Items

variable {σ : Type} [Sequence σ Char] {ρ : Type → Type} {m : Meaning ρ σ} {s rest out : σ}
variable {word : String} {ws : List String}

theorem prepend_text_cons (word : String) (ws : List String) (s : σ) :
    prepend (text (word :: ws)) s = prepend (block word) (prepend (text ws) s) := by
  rw [text, List.flatMap_cons, prepend_append, text]

theorem spells_letters (n : Int64) :
    Spells m (letters n : Grammar Char ρ String)
      (fun word => word.length = n.toNatClampNeg ∧ Lettered word) String.toList := by
  have list := (Spells.satisfy (m := m) (ρ := ρ) Char.isAlpha).replicate n.toNatClampNeg
  refine (list.adapt (.ofIso .charsText)).congr ?_ ?_
  · intro word
    rw [Prism.review_ofIso, Iso.charsText, Iso.reverseGet_functions, String.length_toList]
    rfl
  · intro word _
    exact List.flatMap_singleton' word.toList

theorem spells_item :
    Spells m (bind integer letters count : Grammar Char ρ String) Writable block := by
  refine (Spells.integer.bind spells_letters).congr ?_ ?_
  · intro word
    have fits : word.length = min word.length Int64.maxValue.toInt.toNat ↔
        word.length ≤ Int64.maxValue.toInt.toNat := by omega
    rw [and_true, toNatClampNeg_count, fits]
    rfl
  · intro word h
    rw [write_count h, block]

variable [LawfulSequence σ Char]

theorem read_letters_eq_done_iff {n : Int64} :
    (letters n : Grammar Char ρ String).read m s = .done (word, rest) ↔
      word.length = n.toNatClampNeg ∧ s = prepend word.toList rest ∧
        ∀ c ∈ word.toList, c.isAlpha = true := by
  rw [letters, read_adapt_eq_done_iff]
  simp only [Prism.preview_ofIso, Iso.charsText, Iso.get_functions, Option.some.injEq,
    read_replicate_eq_done_iff, alpha, chain_satisfy_iff]
  refine ⟨?_, ?_⟩
  · intro h
    obtain ⟨letters, ⟨hlen, hs, hl⟩, rfl⟩ := h
    rw [String.length_ofList, String.toList_ofList]
    exact ⟨hlen, hs, hl⟩
  · intro h
    exact ⟨word.toList, by rwa [String.length_toList], String.ofList_toList⟩

theorem noDigitAhead_of_writable (h : Writable word) (hne : word ≠ "") (s : σ) :
    NoDigitAhead (prepend word.toList s) := by
  intro c hc
  obtain ⟨first, others, split⟩ := List.exists_cons_of_ne_nil (mt String.toList_eq_nil_iff.1 hne)
  rw [toList_prepend, split, List.cons_append, List.head?_cons, Option.mem_some_iff] at hc
  exact isDigit_eq_false_of_isAlpha (h.2 c (by rw [split, ← hc]; exact List.mem_cons_self ..))

theorem read_count (h : Writable word) (stop : NoDigitAhead (prepend word.toList s)) (zeros : Nat) :
    (integer : Grammar Char ρ Int64).read m
        (prepend (List.replicate zeros '0' ++ block word) s) =
      .done (count word, prepend word.toList s) := by
  rw [block, ← List.append_assoc, prepend_append, read_integer_zeros zeros h.1 stop,
    count_eq_ofNat h]

theorem read_letters_count (h : Writable word) (s : σ) :
    (letters (count word) : Grammar Char ρ String).read m (prepend word.toList s) =
      .done (word, s) :=
  read_letters_eq_done_iff.2 ⟨by rw [toNatClampNeg_count, Nat.min_eq_left h.1], rfl, h.2⟩

theorem read_item (h : Writable word) (stop : NoDigitAhead (prepend word.toList s)) (zeros : Nat) :
    (bind integer letters count : Grammar Char ρ String).read m
        (prepend (List.replicate zeros '0' ++ block word) s) = .done (word, s) :=
  read_bind_eq_done_iff.2 ⟨_, _, read_count h stop zeros, read_letters_count h s⟩

theorem writable_empty : Writable "" :=
  ⟨Nat.zero_le _, fun c hc => by cases hc⟩

theorem read_zeros (zeros : Nat) :
    (bind integer letters count : Grammar Char ρ String).read m
        (prepend (List.replicate (zeros + 1) '0') (empty : σ)) = .done ("", empty) := by
  rw [List.replicate_succ']
  exact read_item writable_empty noDigitAhead_empty zeros

/-- Reading stops where nothing is left to read. -/
theorem read_item_empty :
    (bind integer letters count : Grammar Char ρ String).read m (empty : σ) = .refused () := by
  rw [read_bind, read_integer_empty, Outcome.refused_bind]

/-- What comes back of the text of some words behind zeros, which stand for empty words too. -/
theorem read_text (h : ∀ word ∈ ws, Writable word) (zeros : Nat) :
    (many (bind integer letters count) : Grammar Char ρ (List String)).read m
        (prepend (List.replicate zeros '0' ++ text ws) (empty : σ)) =
      .done (survivors (List.replicate zeros "" ++ ws), empty) := by
  induction ws generalizing zeros with
  | nil =>
      cases zeros with
      | zero => exact read_many_nil read_item_empty
      | succ zeros =>
          rw [text, List.flatMap_nil, List.append_nil, List.append_nil, survivors_replicate]
          exact read_many_cons (read_zeros zeros) (size_lt_size_prepend (by simp) _)
            (read_many_nil read_item_empty)
  | cons word ws ih =>
      obtain ⟨hword, hws⟩ := List.forall_mem_cons.1 h
      by_cases hne : word = ""
      · subst hne
        -- The word's zero joins the zeros that are waiting for a count.
        have moved := ih hws (zeros + 1)
        rw [List.replicate_succ', List.replicate_succ', List.append_assoc, List.append_assoc]
          at moved
        exact moved
      · rw [survivors_replicate_cons zeros hne, prepend_append, prepend_text_cons, ← prepend_append]
        have others := ih hws 0
        refine read_many_cons (read_item hword (noDigitAhead_of_writable hword hne _) zeros)
          (size_lt_size_prepend ?_ _) others
        simp [block]

theorem text_replicate (n : Nat) : text (List.replicate n "") = List.replicate n '0' := by
  induction n with
  | zero => rfl
  | succ n ih => rw [List.replicate_succ, text, List.flatMap_cons, ← text, ih]; rfl

theorem count_ne_count_empty (h : Writable word) (hne : word ≠ "") : count word ≠ count "" := by
  intro same
  have lengths := congrArg Int64.toNatClampNeg same
  rw [toNatClampNeg_count, Nat.min_eq_left h.1, toNatClampNeg_count, String.length_empty,
    Nat.zero_min] at lengths
  exact hne (String.length_eq_zero_iff.1 lengths)

/-- The zero of an empty word is a leading zero of the count behind it. -/
theorem read_merged (h : Writable word) (hne : word ≠ "") (s : σ) :
    (integer : Grammar Char ρ Int64).read m (prepend (block "") (prepend (block word) s)) =
      .done (count word, prepend word.toList s) := by
  have merged := read_count (m := m) h (noDigitAhead_of_writable h hne s) 1
  rw [prepend_append] at merged
  exact merged

/-- A word in front of others is read back, if it is not an empty one in front of a nonempty one. -/
theorem reads_back_iff (hword : Writable word) (hws : ∀ later ∈ ws, Writable later)
    (last : EmptyLast ws) :
    (∃ mid left, (integer : Grammar Char ρ Int64).read m
        (prepend (block word) (prepend (text ws) (empty : σ))) = .done (count word, mid) ∧
      (letters (count word)).read m mid = .done (word, left)) ↔ EmptyLast (word :: ws) := by
  by_cases hne : word = ""
  · subst hne
    by_cases all : ∀ later ∈ ws, later = ""
    · refine iff_of_true ?_ (.cons (fun later hlater _ => all later hlater) last)
      have zeros : block "" ++ List.replicate ws.length '0' =
          List.replicate ws.length '0' ++ block "" :=
        List.replicate_succ.symm.trans List.replicate_succ'
      rw [List.eq_replicate_of_mem all, text_replicate, ← prepend_append, zeros]
      exact ⟨_, _, read_count writable_empty noDigitAhead_empty _,
        read_letters_count writable_empty _⟩
    · refine iff_of_false ?_ fun h =>
        all fun later hlater => List.rel_of_pairwise_cons h hlater rfl
      intro h
      obtain ⟨mid, left, back, -⟩ := h
      cases ws with
      | nil => exact all fun later hlater => nomatch hlater
      | cons next ws =>
          have hnext := hws next (List.mem_cons_self ..)
          have nonempty : next ≠ "" := by
            intro hempty
            subst hempty
            rw [last.replicate] at all
            exact all (by simp)
          rw [prepend_text_cons, read_merged hnext nonempty] at back
          injection back with same
          injection same with same
          exact count_ne_count_empty hnext nonempty same
  · refine iff_of_true ?_ (.cons (fun _ _ hempty => absurd hempty hne) last)
    exact ⟨_, _, read_count hword (noDigitAhead_of_writable hword hne _) 0,
      read_letters_count hword _⟩

theorem write_checked_eq_done_iff :
    ((many (bindChecked integer letters count) : Grammar Char ρ (List String)).write m ws
        (empty : σ)).outcome = .done out ↔
      (∀ word ∈ ws, Writable word) ∧ EmptyLast ws ∧ out = prepend (text ws) empty := by
  induction ws generalizing out with
  | nil =>
      refine ⟨?_, ?_⟩
      · intro h
        cases h
        exact ⟨List.forall_mem_nil _, .nil, rfl⟩
      · intro h
        rw [h.2.2]
        rfl
  | cons word ws ih =>
      simp only [write_many_cons_eq_done_iff, ih, write_bindChecked_eq_done_iff,
        reproduces_iff, spells_item.done_iff, List.forall_mem_cons, prepend_text_cons]
      refine ⟨?_, ?_⟩
      · intro h
        obtain ⟨mid, ⟨hws, last, rfl⟩, ⟨hword, rfl⟩, back⟩ := h
        exact ⟨⟨hword, hws⟩, (reads_back_iff hword hws last).1 back, rfl⟩
      · intro h
        obtain ⟨⟨hword, hws⟩, last, rfl⟩ := h
        exact ⟨_, ⟨hws, last.tail, rfl⟩, ⟨hword, rfl⟩,
          (reads_back_iff hword hws last.tail).2 last⟩

theorem read_words (h : ∀ word ∈ ws, Writable word) :
    words.read m (prepend (text ws) (empty : σ)) =
      .done (survivors ws, empty) :=
  read_seqLeft_eq_done_iff.2 ⟨_, read_text h 0, read_eof_eq_done_iff.2 ⟨uncons_empty, rfl⟩⟩

omit [LawfulSequence σ Char] in
theorem read_checkedWords (m : Meaning ρ σ) (s : σ) :
    checkedWords.read m s = words.read m s := rfl

/-- What the checked format has written comes back with at most one of the empty words at its
end: the same words come back unless the last two are empty. -/
theorem checkedWords_print_parse (m : Meaning ρ σ)
    (h : (checkedWords.print m ws).outcome = .done s) :
    (checkedWords.parse m s).outcome = .done (survivors ws) ∧
      ((checkedWords.parse m s).outcome = .done ws ↔ ¬ ["", ""] <:+ ws) := by
  rw [print_eq_done_iff, checkedWords, write_seqLeft_eof, write_checked_eq_done_iff] at h
  obtain ⟨writable, last, rfl⟩ := h
  have back : (checkedWords.parse m (prepend (text ws) empty)).outcome =
      .done (survivors ws) :=
    parse_eq_done_iff.2 ⟨empty, by rw [read_checkedWords, read_words writable]⟩
  refine ⟨back, ?_⟩
  rw [back, Outcome.done.injEq, last.survivors_eq_iff]

end Items

theorem checkedWords_print_parse_letters :
    (checkedWords.print NoRule.meaning ["ab", "c", ""]).outcome =
      .done ['2', 'a', 'b', '1', 'c', '0'] ∧
    (checkedWords.parse NoRule.meaning ['2', 'a', 'b', '1', 'c', '0']).outcome =
      .done (survivors ["ab", "c", ""]) ∧
    ((checkedWords.parse NoRule.meaning ['2', 'a', 'b', '1', 'c', '0']).outcome =
      .done ["ab", "c", ""] ↔ ¬ ["", ""] <:+ ["ab", "c", ""]) := by
  have printed : (checkedWords.print NoRule.meaning ["ab", "c", ""]).outcome =
      .done ['2', 'a', 'b', '1', 'c', '0'] := by decide
  exact ⟨printed, checkedWords_print_parse NoRule.meaning printed⟩

/-- The zero of the first of two empty words passes its check in front of the other one, though
reading it takes both. -/
theorem checkedWords_merges_empty_words :
    (checkedWords.print NoRule.meaning ["", ""]).outcome = .done ['0', '0'] ∧
    (checkedWords.parse NoRule.meaning ['0', '0']).outcome = .done [""] := by
  decide

end CountPrefixed
end TwoWay
