import TwoWay.Proofs.Greedy

/-!
Choices that prefer their first alternative, and the optional parts made of them. What the first
alternative has written is always read back. What the second one has written is read back just when
the first one refuses it. A part that is left out has written nothing, so there it is the rest that
has to be refused.
-/

namespace TwoWay
namespace Grammar

variable {σ ε : Type} [Sequence σ ε] {ρ : Type → Type} {α β : Type}

section Defaults

variable [BEq α] {m : Meaning ρ σ} {g : Grammar ε ρ α} {default x : α} {s rest : σ}

theorem read_withDefault_eq_done_iff :
    (withDefault default g).read m s = .done (x, rest) ↔
      g.read m s = .done (x, rest) ∨ g.read m s = .refused () ∧ default = x ∧ s = rest := by
  rw [withDefault, read_adapt_eq_done_iff, Sum.exists]
  refine or_congr ?_ ?_
  · simp only [read_choose_inl_eq_done_iff, Prism.preview_ofIso, Iso.get_content, Choice.content,
      Sum.elim_inl, id_eq, Option.some.injEq, exists_eq_right]
  · simp only [read_choose_inr_eq_done_iff, read_success, Outcome.done.injEq, Prod.mk.injEq,
      Prism.preview_ofIso, Iso.get_content, Choice.content, Sum.elim_inr, id_eq,
      Option.some.injEq, exists_eq_right]

theorem write_withDefault_of_ne (h : (x == default) = false) (rest : σ) :
    (withDefault default g).write m x rest = g.write m x rest := by
  rw [withDefault, write_adapt, Prism.review_ofIso, Iso.reverseGet_content,
    if_pos (by rw [bne, h, Bool.not_false])]
  rfl

theorem write_withDefault_of_beq (h : x == default) (rest : σ) :
    (withDefault default g).write m x rest = .done rest := by
  rw [withDefault, write_adapt, Prism.review_ofIso, Iso.reverseGet_content,
    if_neg (by rw [bne, h]; exact Bool.false_ne_true)]
  rfl

end Defaults

namespace Rules

variable {rules : Rules ε ρ} {g : Grammar ε ρ α} {h : Grammar ε ρ β} {s rest out left : σ}

theorem reads_choose_inl_iff {x : α} :
    rules.Reads (choose g h) s (.inl x) rest ↔ rules.Reads g s x rest :=
  exists_congr fun _ => read_choose_inl_eq_done_iff

theorem reads_choose_inr_iff {y : β} :
    rules.Reads (choose g h) s (.inr y) rest ↔ rules.Refuses g s ∧ rules.Reads h s y rest := by
  constructor
  · intro read
    obtain ⟨depth, hd⟩ := read
    obtain ⟨refused, hy⟩ := read_choose_inr_eq_done_iff.1 hd
    exact ⟨⟨depth, refused⟩, ⟨depth, hy⟩⟩
  · intro parts
    exact .choose_inr parts.1 parts.2

theorem reads_opt_some_iff {x : α} :
    rules.Reads (opt g) s (some x) rest ↔ rules.Reads g s x rest :=
  exists_congr fun _ => read_opt_some_eq_done_iff

theorem reads_opt_none_iff : rules.Reads (opt g) s none rest ↔ rules.Refuses g s ∧ s = rest := by
  simp only [Reads, read_opt_none_eq_done_iff, exists_and_right, Refuses]

theorem Writes.opt_none (h : rules.Writes (opt g) none rest out) : out = rest := by
  obtain ⟨depth, hd⟩ := h
  cases hd
  rfl

/-- What is read from a sequence leaves something else behind. -/
theorem Consumes.not_reads_idle (h : rules.Consumes σ g) (x : α) (s : σ) :
    ¬ rules.Reads g s x s := by
  intro idle
  exact Nat.lt_irrefl _ (h.shorter idle)

section Defaults

variable [BEq α] {default x y : α}

theorem reads_withDefault_iff :
    rules.Reads (withDefault default g) s x rest ↔
      rules.Reads g s x rest ∨ rules.Refuses g s ∧ default = x ∧ s = rest := by
  simp only [Reads, read_withDefault_eq_done_iff, exists_or, exists_and_right, Refuses]

theorem Writes.withDefault_of_ne (h : rules.Writes (withDefault default g) x rest out)
    (hne : (x == default) = false) : rules.Writes g x rest out := by
  obtain ⟨depth, hd⟩ := h
  rw [write_withDefault_of_ne hne] at hd
  exact ⟨depth, hd⟩

theorem Writes.withDefault_of_beq (h : rules.Writes (withDefault default g) x rest out)
    (same : x == default) : out = rest := by
  obtain ⟨depth, hd⟩ := h
  rw [write_withDefault_of_beq same] at hd
  cases hd
  rfl

theorem ReadsBack.reads_withDefault (back : rules.ReadsBack σ g)
    (written : rules.Writes (withDefault default g) x rest out) (hne : (x == default) = false) :
    rules.Reads (withDefault default g) out x rest :=
  reads_withDefault_iff.2 (.inl (back.reads (written.withDefault_of_ne hne)))

/-- The part takes nothing away from the rest if it refuses it, and otherwise it takes something. -/
theorem Consumes.reads_withDefault_default_iff (consumes : rules.Consumes σ g)
    (written : rules.Writes (withDefault default g) x rest out) (same : x == default) :
    rules.Reads (withDefault default g) out default rest ↔ rules.Refuses g rest := by
  obtain rfl := written.withDefault_of_beq same
  rw [reads_withDefault_iff, or_iff_right (consumes.not_reads_idle default out),
    and_iff_left ⟨rfl, rfl⟩]

/-- Nothing but a value equal to the default is read back as another one. That is the default, or
it stands in the rest. -/
theorem ReadsBack.same_or_in_rest (back : rules.ReadsBack σ g)
    (written : rules.Writes (withDefault default g) x rest out)
    (read : rules.Reads (withDefault default g) out y left) :
    y = x ∧ left = rest ∨
      x == default ∧ (y = default ∧ left = rest ∨ rules.Reads g rest y left) := by
  cases same : x == default with
  | true =>
      obtain rfl := written.withDefault_of_beq same
      -- Nothing was written for the default, so what is taken now comes from the rest.
      obtain taken | ⟨-, rfl, rfl⟩ := reads_withDefault_iff.1 read
      · exact .inr ⟨rfl, .inr taken⟩
      · exact .inr ⟨rfl, .inl ⟨rfl, rfl⟩⟩
  | false => exact .inl (read.unique (back.reads_withDefault written same))

end Defaults
end Rules

/-- When the parts of a choice read back, so does every value of the first alternative, and a value
of the second one if the first one refuses what was written. With an optional part and with a
default, what was not left out reads back; what was left out reads as nothing or as the default if
the part refuses the rest, and otherwise it is the rest that a value is read from. -/
theorem biased_choice_reads_back (rules : Rules ε ρ) {g : Grammar ε ρ α} {h : Grammar ε ρ β}
    (back : rules.ReadsBack σ g) (back' : rules.ReadsBack σ h) (consumes : rules.Consumes σ g)
    (rest out : σ) :
    (∀ x, rules.Writes (choose g h) (.inl x) rest out →
      rules.Reads (choose g h) out (.inl x) rest) ∧
    (∀ y, rules.Writes (choose g h) (.inr y) rest out →
      (rules.Reads (choose g h) out (.inr y) rest ↔ rules.Refuses g out)) ∧
    (∀ x, rules.Writes (opt g) (some x) rest out → rules.Reads (opt g) out (some x) rest) ∧
    (rules.Writes (opt g) none rest out →
      (rules.Reads (opt g) out none rest ↔ rules.Refuses g rest)) ∧
    ∀ [BEq α] (default : α),
      (∀ x, (x == default) = false → rules.Writes (withDefault default g) x rest out →
        rules.Reads (withDefault default g) out x rest) ∧
      (∀ x, x == default → rules.Writes (withDefault default g) x rest out →
        (rules.Reads (withDefault default g) out default rest ↔ rules.Refuses g rest)) ∧
      ∀ x, rules.Writes (withDefault default g) x rest out →
        ∀ y left, rules.Reads (withDefault default g) out y left →
          y = x ∧ left = rest ∨
            x == default ∧ (y = default ∧ left = rest ∨ rules.Reads g rest y left) := by
  refine ⟨?_, ?_, ?_, ?_, ?_⟩
  · intro x written
    exact Rules.reads_choose_inl_iff.2 (back.reads written)
  · intro y written
    rw [Rules.reads_choose_inr_iff, and_iff_left (back'.reads written)]
  · intro x written
    exact Rules.reads_opt_some_iff.2 (back.reads written)
  · intro written
    obtain rfl := written.opt_none
    rw [Rules.reads_opt_none_iff, and_iff_left rfl]
  · intro _ default
    exact ⟨fun x hne written => back.reads_withDefault written hne,
      fun x same written => consumes.reads_withDefault_default_iff written same,
      fun x written y left => back.same_or_in_rest written⟩

/-- Digits in front of digits and of other characters. -/
theorem biased_choice_reads_back_digits :
    let rules : Rules Char NoRule := ⟨fun rule => nomatch rule⟩
    rules.ReadsBack (List Char) digit ∧ rules.ReadsBack (List Char) element ∧
    rules.Consumes (List Char) digit ∧
    rules.Writes (choose digit element) (.inr 'x') ['7'] ['x', '7'] ∧
    rules.Reads (choose digit element) ['x', '7'] (.inr 'x') ['7'] ∧
    rules.Writes (choose digit element) (.inr '5') ['7'] ['5', '7'] ∧
    ¬ rules.Reads (choose digit element) ['5', '7'] (.inr '5') ['7'] ∧
    rules.Writes (opt digit) none ['7'] ['7'] ∧
    ¬ rules.Reads (opt digit) ['7'] none ['7'] ∧
    rules.Writes (withDefault '0' digit) '5' ['7'] ['5', '7'] ∧
    rules.Reads (withDefault '0' digit) ['5', '7'] '5' ['7'] ∧
    rules.Writes (withDefault '0' digit) '0' ['7'] ['7'] ∧
    ¬ rules.Reads (withDefault '0' digit) ['7'] '0' ['7'] := by
  intro rules
  have back : rules.ReadsBack (List Char) digit := .of_meaning fun _ => .satisfy _
  have back' : rules.ReadsBack (List Char) element := .of_meaning fun _ => .element
  have consumes : rules.Consumes (List Char) digit := .satisfy Char.isDigit
  have biased := biased_choice_reads_back rules back back' consumes
  have other : rules.Writes (choose digit element) (.inr 'x') ['7'] ['x', '7'] := ⟨0, by decide⟩
  have same : rules.Writes (choose digit element) (.inr '5') ['7'] ['5', '7'] := ⟨0, by decide⟩
  have absent : rules.Writes (opt digit) none ['7'] ['7'] := ⟨0, by decide⟩
  have five : rules.Writes (withDefault '0' digit) '5' ['7'] ['5', '7'] := ⟨0, by decide⟩
  have zero : rules.Writes (withDefault '0' digit) '0' ['7'] ['7'] := ⟨0, by decide⟩
  have passed : rules.Refuses digit ['x', '7'] := ⟨0, by decide⟩
  have taken : rules.Reads digit ['5', '7'] '5' ['7'] := ⟨0, by decide⟩
  have ahead : rules.Reads digit ['7'] '7' [] := ⟨0, by decide⟩
  obtain ⟨-, ofOther, -, -, -⟩ := biased ['7'] ['x', '7']
  obtain ⟨-, ofDigit, -, -, written⟩ := biased ['7'] ['5', '7']
  obtain ⟨-, -, -, ofAbsent, leftOut⟩ := biased ['7'] ['7']
  refine ⟨back, back', consumes, other, (ofOther _ other).2 passed, same, ?_, absent, ?_,
    five, (written '0').1 _ (by decide) five, zero, ?_⟩
  · exact fun read => taken.not_refuses ((ofDigit _ same).1 read)
  · exact fun read => ahead.not_refuses ((ofAbsent absent).1 read)
  · exact fun read => ahead.not_refuses (((leftOut '0').2.1 '0' rfl zero).1 read)

end Grammar
end TwoWay
