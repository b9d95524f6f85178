import TwoWay.Proofs.Guarded
import TwoWay.Proofs.SelfDelimiting

/-!
Greedy repetition. A repetition walks through the leftovers of its items up to the first one that
holds no further item, and a counted repetition walks through the same leftovers, as far as its
count goes. So nothing that the item reads is left behind a repetition; and items that stand in a
rest are read together with those that were written in front of it.
-/

namespace TwoWay
namespace Grammar

open Sequence

variable {σ ε : Type} [Sequence σ ε] {ρ : Type → Type} {α : Type}

section Counts

variable {m : Meaning ρ σ} {item : Grammar ε ρ α} {s rest : σ} {xs : List α} {count : Nat}

theorem read_eq_refused_of_many (h : (many item).read m s = .done (xs, rest)) :
    item.read m rest = .refused () :=
  (read_many_eq_done_iff.1 h).2.2

/-- A count is met by the first items that the repetition reads. -/
theorem read_replicate_of_many (h : (many item).read m s = .done (xs, rest))
    (hc : count ≤ xs.length) :
    ∃ mid, (replicate count item).read m s = .done (xs.take count, mid) ∧
      (count = xs.length → mid = rest) := by
  obtain ⟨-, chain, -⟩ := read_many_eq_done_iff.1 h
  obtain ⟨mid, first, others⟩ := chain.split count
  refine ⟨mid, read_replicate_eq_done_iff.2 ⟨List.length_take_of_le hc, first⟩, fun all => ?_⟩
  rw [List.drop_of_length_le (Nat.le_of_eq all.symm)] at others
  exact Chain.nil_iff.1 others

theorem read_replicate_eq_refused_of_many (h : (many item).read m s = .done (xs, rest))
    (hc : xs.length < count) : (replicate count item).read m s = .refused () :=
  read_replicate_eq_refused_iff.2 ⟨xs, rest, hc, (read_many_eq_done_iff.1 h).2⟩

theorem read_both_many_self_ne_done (p : List α × α) :
    (both (many item) item).read m s ≠ .done (p, rest) := by
  intro h
  obtain ⟨mid, hxs, hx⟩ := read_both_eq_done_iff.1 h
  cases (read_eq_refused_of_many hxs).symm.trans hx

theorem read_both_many_self_eq_refused (h : (many item).read m s = .done (xs, rest)) :
    (both (many item) item).read m s = .refused () := by
  rw [read_both, h]
  exact Outcome.map_eq_refused_iff.2 (read_eq_refused_of_many h)

theorem read_many1_eq_done_iff (consuming : Consuming (item.read m)) {list : NonEmptyList α} :
    (many1 item).read m s = .done (list, rest) ↔
      (many item).read m s = .done (list.toList, rest) := by
  rw [many1, read_adapt_eq_done_iff, read_many_eq_done_iff_of_consuming consuming,
    NonEmptyList.toList, Chain.cons_iff]
  constructor
  · intro h
    obtain ⟨⟨x, xs⟩, h, same⟩ := h
    cases same
    obtain ⟨mid, hx, hxs⟩ := read_both_eq_done_iff.1 h
    obtain ⟨chain, stop⟩ := (read_many_eq_done_iff_of_consuming consuming).1 hxs
    exact ⟨⟨mid, hx, chain⟩, stop⟩
  · intro h
    obtain ⟨⟨mid, hx, chain⟩, stop⟩ := h
    have hxs := (read_many_eq_done_iff_of_consuming consuming).2 ⟨chain, stop⟩
    exact ⟨(list.head, list.tail), read_both_eq_done_iff.2 ⟨mid, hx, hxs⟩, rfl⟩

end Counts

namespace Rules

variable {rules : Rules ε ρ} {g : Grammar ε ρ α} {s rest out left : σ} {xs ys : List α}
variable {list : NonEmptyList α}

/-- Written items are read back one by one, and the repetition goes on into the rest. -/
theorem ReadsBack.reads_many (back : rules.ReadsBack σ g) (consumes : rules.Consumes σ g)
    (written : rules.Writes (many g) xs rest out) (ahead : rules.Reads (many g) rest ys left) :
    rules.Reads (many g) out (xs ++ ys) left := by
  induction xs generalizing out with
  | nil =>
      obtain rfl := written.many_nil
      exact ahead
  | cons x xs ih =>
      obtain ⟨mid, hxs, hx⟩ := written.many_cons
      have head := back.reads hx
      exact head.many_cons (consumes.shorter head) (ih hxs)

theorem ReadsBack.reads_many_iff (back : rules.ReadsBack σ g) (consumes : rules.Consumes σ g)
    (written : rules.Writes (many g) xs rest out) :
    rules.Reads (many g) out xs rest ↔ rules.Refuses g rest := by
  constructor
  · intro h
    obtain ⟨depth, hd⟩ := h
    exact ⟨depth, read_eq_refused_of_many hd⟩
  · intro refuses
    have read := back.reads_many consumes written (.many_nil refuses)
    rwa [List.append_nil] at read

theorem reads_many1_iff (consumes : rules.Consumes σ g) :
    rules.Reads (many1 g) s list rest ↔ rules.Reads (many g) s list.toList rest :=
  exists_congr fun depth => read_many1_eq_done_iff (consumes.consuming depth)

/-- A nonempty list is written as the list of its items. -/
theorem writes_many1_iff :
    rules.Writes (many1 g) list rest out ↔ rules.Writes (many g) list.toList rest out := Iff.rfl

end Rules

/-- A repetition of a consuming part always reads a list, of no more items than the sequence has
elements, and leaves nothing behind that the part reads. A counted repetition reads the first items
of that list, and it fails if there are fewer. -/
theorem many_is_maximal (rules : Rules ε ρ) {g : Grammar ε ρ α} (consumes : rules.Consumes σ g) :
    (∀ (s : σ) p left, ¬ rules.Reads (both (many g) g) s p left) ∧
    ∀ s : σ, rules.EndsAlong g s →
      ∃ xs rest, rules.Reads (many g) s xs rest ∧ xs.length ≤ size s ∧ rules.Refuses g rest ∧
        rules.Refuses (both (many g) g) s ∧
        ∀ count,
          ((∃ ys mid, rules.Reads (replicate count g) s ys mid) ↔ count ≤ xs.length) ∧
          (∀ ys mid, rules.Reads (replicate count g) s ys mid →
            ys = xs.take count ∧ (count = xs.length → mid = rest)) ∧
          (xs.length < count → rules.Refuses (replicate count g) s) ∧
          (size s < count → rules.Refuses (replicate count g) s) := by
  constructor
  · intro s p left h
    obtain ⟨depth, hd⟩ := h
    exact read_both_many_self_ne_done p hd
  intro s ends
  obtain ⟨xs, rest, depth, hd⟩ := ends.reads_many consumes
  have few : xs.length ≤ size s := (read_many_eq_done_iff.1 hd).1
  have met (count : Nat) (hc : count ≤ xs.length) :
      ∃ mid, rules.Reads (replicate count g) s (xs.take count) mid ∧
        (count = xs.length → mid = rest) := by
    obtain ⟨mid, first, all⟩ := read_replicate_of_many hd hc
    exact ⟨mid, ⟨depth, first⟩, all⟩
  have missed (count : Nat) (hc : xs.length < count) : rules.Refuses (replicate count g) s :=
    ⟨depth, read_replicate_eq_refused_of_many hd hc⟩
  have enough {count : Nat} {ys : List α} {mid : σ}
      (h : rules.Reads (replicate count g) s ys mid) : count ≤ xs.length :=
    Nat.le_of_not_lt fun hc => h.not_refuses (missed count hc)
  refine ⟨xs, rest, ⟨depth, hd⟩, few, ⟨depth, read_eq_refused_of_many hd⟩,
    ⟨depth, read_both_many_self_eq_refused hd⟩, fun count => ⟨⟨?_, ?_⟩, ?_, missed count, ?_⟩⟩
  · intro h
    obtain ⟨ys, mid, hys⟩ := h
    exact enough hys
  · intro hc
    obtain ⟨mid, first, -⟩ := met count hc
    exact ⟨_, mid, first⟩
  · intro ys mid hys
    obtain ⟨mid', first, all⟩ := met count (enough hys)
    obtain ⟨rfl, rfl⟩ := hys.unique first
    exact ⟨rfl, all⟩
  · intro hc
    exact missed count (Nat.lt_of_le_of_lt few hc)

/-- Two digits, each with a comma behind it, and a third one without. -/
theorem many_is_maximal_before_lone_digit :
    let rules : Rules Char NoRule := ⟨fun rule => nomatch rule⟩
    let field : Grammar Char NoRule Char := seqLeft digit (literal ',')
    let s : List Char := ['1', ',', '2', ',', '3']
    rules.Consumes (List Char) field ∧ rules.EndsAlong field s ∧
    rules.Reads (many field) s ['1', '2'] ['3'] ∧
    (∀ count, (∃ ys mid, rules.Reads (replicate count field) s ys mid) ↔ count ≤ 2) ∧
    rules.Refuses (replicate 18446744073709551615 field) s ∧
    ∀ p left, ¬ rules.Reads (both (many field) field) s p left := by
  intro rules field s
  have consumes : rules.Consumes (List Char) field :=
    .seqLeft (fun rule => nomatch rule) (.satisfy Char.isDigit) trivial
  have progressive : field.Progressive (rules.meaning 0 : Meaning NoRule (List Char)) :=
    ⟨trivial, trivial⟩
  have ends : rules.EndsAlong field s := ⟨fun _ => ⟨0, progressive.read_ne_exhausted _⟩⟩
  have read : rules.Reads (many field) s ['1', '2'] ['3'] := ⟨0, by decide⟩
  obtain ⟨never, maximal⟩ := many_is_maximal rules consumes
  obtain ⟨xs, rest, hxs, -, -, -, counts⟩ := maximal s ends
  obtain ⟨rfl, rfl⟩ := hxs.unique read
  exact ⟨consumes, ends, read, fun count => (counts count).1, (counts _).2.2.2 (by decide), never s⟩

/-- In front of a rest that starts with further items, what a repetition writes is read together
with them; the value comes back, with the rest left behind, just when the rest starts with none. -/
theorem many_absorbs_what_follows (rules : Rules ε ρ) {g : Grammar ε ρ α}
    (consumes : rules.Consumes σ g) (back : rules.ReadsBack σ g) (rest out : σ) :
    (∀ xs, rules.Writes (many g) xs rest out →
      (∀ ys left, rules.Reads (many g) rest ys left →
        rules.Reads (many g) out (xs ++ ys) left) ∧
      (rules.Reads (many g) out xs rest ↔ rules.Refuses g rest)) ∧
    ∀ list, rules.Writes (many1 g) list rest out →
      (∀ ys left, rules.Reads (many g) rest ys left →
        rules.Reads (many1 g) out ⟨list.head, list.tail ++ ys⟩ left) ∧
      (∀ more left, rules.Reads (many1 g) rest more left →
        rules.Reads (many1 g) out ⟨list.head, list.tail ++ more.toList⟩ left) ∧
      (rules.Reads (many1 g) out list rest ↔ rules.Refuses g rest) := by
  constructor
  · intro xs written
    exact ⟨fun ys left => back.reads_many consumes written, back.reads_many_iff consumes written⟩
  · intro list written
    rw [Rules.writes_many1_iff] at written
    simp only [Rules.reads_many1_iff consumes]
    exact ⟨fun ys left => back.reads_many consumes written,
      fun more left => back.reads_many consumes written, back.reads_many_iff consumes written⟩

/-- Two digits, each with a comma behind it, in front of a third one. -/
theorem many_absorbs_next_digit :
    let rules : Rules Char NoRule := ⟨fun rule => nomatch rule⟩
    let field : Grammar Char NoRule Char := seqLeft digit (literal ',')
    let rest : List Char := ['3', ',', '!']
    let out : List Char := ['1', ',', '2', ',', '3', ',', '!']
    rules.Consumes (List Char) field ∧ rules.ReadsBack (List Char) field ∧
    rules.Writes (many field) ['1', '2'] rest out ∧
    rules.Reads (many field) rest ['3'] ['!'] ∧
    rules.Reads (many field) out ['1', '2', '3'] ['!'] ∧
    ¬ rules.Reads (many field) out ['1', '2'] rest ∧
    rules.Writes (many1 field) ⟨'1', ['2']⟩ rest out ∧
    rules.Reads (many1 field) out ⟨'1', ['2', '3']⟩ ['!'] := by
  intro rules field rest out
  have table : ∀ {β : Type} (rule : NoRule β),
      SelfDelimiting (List Char) (rules.definition rule) := fun rule => nomatch rule
  have delimited : SelfDelimiting (List Char) field := .seqLeft (.satisfy _) (.literal ',')
  have consumes : rules.Consumes (List Char) field :=
    .seqLeft (fun rule => nomatch rule) (.satisfy Char.isDigit) trivial
  have back : rules.ReadsBack (List Char) field :=
    .of_meaning fun depth => delimited.readsBack (Rules.meaning_readsBack table depth)
  have written : rules.Writes (many field) ['1', '2'] rest out := ⟨0, by decide⟩
  have written1 : rules.Writes (many1 field) ⟨'1', ['2']⟩ rest out := ⟨0, by decide⟩
  have ahead : rules.Reads (many field) rest ['3'] ['!'] := ⟨0, by decide⟩
  have next : rules.Reads field rest '3' ['!'] := ⟨0, by decide⟩
  obtain ⟨lists, nonempty⟩ := many_absorbs_what_follows rules consumes back rest out
  exact ⟨consumes, back, written, ahead, (lists _ written).1 _ _ ahead,
    fun same => next.not_refuses ((lists _ written).2.1 same), written1,
    (nonempty _ written1).1 _ _ ahead⟩

end Grammar
end TwoWay
