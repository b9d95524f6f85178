import TwoWay.Grammar.Run
import TwoWay.Proofs.Lossless
import TwoWay.Proofs.Progress
import TwoWay.Proofs.SelfDelimiting
import TwoWay.Proofs.Spelling

/-!
Records and their sequences correspond one to one. An item that reads back and restores what it read
can be repeated up to the end of the input without an ambiguity. A record is such an item: its
payload is delimited by the length in front of it, whatever elements it holds, and a length is read
as the number it was written for, so that only a payload too long for a length has no written form.
-/

namespace TwoWay
namespace Grammar

open Sequence

variable {σ ε : Type} [Sequence σ ε] {ρ : Type → Type} {α : Type} {m : Meaning ρ σ}
variable {item : Grammar ε ρ α} {xs : List α} {s : σ}

/-- Written items are read back one by one, and the repetition goes on with the items that stood
there before. -/
theorem ReadsBack.read_many (hi : ReadsBack m item) (consuming : Consuming (item.read m))
    {ys : List α} {rest out left : σ} (written : ((many item).write m xs rest).outcome = .done out)
    (ahead : (many item).read m rest = .done (ys, left)) :
    (many item).read m out = .done (xs ++ ys, left) := by
  obtain ⟨chain, stop⟩ := (read_many_eq_done_iff_of_consuming consuming).1 ahead
  exact (read_many_eq_done_iff_of_consuming consuming).2 ⟨(hi.chain written).append chain, stop⟩

theorem print_many_eof_eq_done_iff :
    ((seqLeft (many item) eof).print m xs).outcome = .done s ↔
      ((many item).write m xs empty).outcome = .done s := by
  rw [print_eq_done_iff, write_seqLeft_eof]

variable [LawfulSequence σ ε]

theorem parse_many_eof_eq_done_iff :
    ((seqLeft (many item) eof).parse m s).outcome = .done xs ↔
      (many item).read m s = .done (xs, empty) := by
  simp only [parse_eq_done_iff, read_seqLeft_eq_done_iff, read_eof_eq_done_iff]
  constructor
  · intro h
    obtain ⟨_, mid, hxs, hmid, -⟩ := h
    rw [hxs, eq_empty_of_uncons hmid]
  · intro h
    exact ⟨empty, empty, h, uncons_empty, rfl⟩

/-- What is printed item by item is parsed again, if no item is read from nothing. -/
theorem parse_of_print_many (hi : ReadsBack m item) (consuming : Consuming (item.read m))
    (ends : item.read m empty = .refused ())
    (printed : ((seqLeft (many item) eof).print m xs).outcome = .done s) :
    ((seqLeft (many item) eof).parse m s).outcome = .done xs := by
  have back := hi.read_many consuming (print_many_eof_eq_done_iff.1 printed) (read_many_nil ends)
  rw [List.append_nil] at back
  exact parse_many_eof_eq_done_iff.2 back

theorem print_of_parse_many (hi : Restores m item)
    (parsed : ((seqLeft (many item) eof).parse m s).outcome = .done xs) :
    ((seqLeft (many item) eof).print m xs).outcome = .done s := by
  rw [print_many_eof_eq_done_iff, hi.many.write (parse_many_eof_eq_done_iff.1 parsed),
    Traced.outcome_done]

/-- An item that restores what it read has read at least what it is spelled with. -/
theorem Restores.consuming {kind : α → Prop} {spelling : α → List ε} (hi : Restores m item)
    (spells : Spells m item kind spelling) (nonempty : ∀ x, spelling x ≠ []) :
    Consuming (item.read m) := by
  intro s x rest h
  have written : (item.write m x rest).outcome = .done s := by rw [hi.write h, Traced.outcome_done]
  obtain ⟨-, rfl⟩ := spells.done_iff.1 written
  exact size_lt_size_prepend (nonempty x) rest

end Grammar

namespace Records

open Grammar Sequence

variable {σ ε : Type} [Sequence σ ε] {ρ : Type → Type} {m : Meaning ρ σ} {code : LengthCode ε}
variable {length : Grammar ε ρ ε}

/-- A part that is exactly one element, of those that hold a length. -/
structure ReadsLength (m : Meaning ρ σ) (code : LengthCode ε) (length : Grammar ε ρ ε) : Prop where
  spells : Spells m length (fun x => code.accepts x = true) (fun x => [x])
  readsBack : ReadsBack m length
  restores : Restores m length

theorem ReadsLength.accepts_of_read (hl : ReadsLength m code length) {s rest : σ} {d : ε}
    (h : length.read m s = .done (d, rest)) : code.accepts d = true := by
  have written : (length.write m d rest).outcome = .done s := by
    rw [hl.restores.write h, Traced.outcome_done]
  exact (hl.spells.done_iff.1 written).1

theorem ReadsLength.spells_record (hl : ReadsLength m code length) :
    Spells m (recordOver code length) (fun r => r.2.length ≤ 255)
      (fun r => r.1 :: code.ofNat r.2.length :: r.2) := by
  refine (Spells.element.both (hl.spells.bind fun d =>
    Spells.element.replicate (code.toNat d))).congr (fun r => ?_) (fun r hr => ?_)
  · have short := Nat.min_le_right r.2.length 255
    have toNat := code.toNat_ofNat short
    have accepted := code.accepts_ofNat short
    simp only [toNat, accepted, implies_true, and_true, true_and]
    omega
  · rw [Nat.min_eq_left hr, List.flatMap_singleton']
    rfl

variable [LawfulSequence σ ε]

theorem readsLength_satisfy (code : LengthCode ε) :
    ReadsLength m code (satisfy code.accepts : Grammar ε ρ ε) :=
  ⟨.satisfy _, .satisfy _, .satisfy _⟩

theorem readsLength_element {σ : Type} [Sequence σ UInt8] [LawfulSequence σ UInt8]
    {m : Meaning ρ σ} : ReadsLength m .byte (element : Grammar UInt8 ρ UInt8) :=
  ⟨Spells.element.congr (fun _ => (iff_true_intro rfl).symm) (fun _ _ => rfl), .element, .element⟩

theorem ReadsLength.readsBack_record (hl : ReadsLength m code length) :
    ReadsBack m (recordOver code length) :=
  ReadsBack.element.both (hl.readsBack.bind (fun d => ReadsBack.element.replicate (code.toNat d)) _)

/-- The length that was read is the one that is written for the payload behind it. -/
theorem ReadsLength.restores_record (hl : ReadsLength m code length) :
    Restores m (recordOver code length) := by
  refine Restores.element.both
    (hl.restores.bind (fun d => Restores.element.replicate (code.toNat d)) ?_)
  intro d s mid payload rest hd hpayload
  have accepted := hl.accepts_of_read hd
  have hlen : payload.length = code.toNat d := (read_replicate_eq_done_iff.1 hpayload).1
  rw [hlen, Nat.min_eq_left (code.toNat_le accepted), code.ofNat_toNat accepted]

theorem read_record_empty :
    (recordOver code length).read m (empty : σ) = .refused () := by
  rw [recordOver, read_both, read_element, uncons_empty]
  rfl

/-- The lists of records whose payloads have at most 255 elements are the ones that are printed, and
printing and parsing undo each other. -/
structure OneToOne (m : Meaning ρ σ) (format : Grammar ε ρ (List (ε × List ε))) : Prop where
  prints_iff : ∀ rs, (∃ s, (format.print m rs).outcome = .done s) ↔ ∀ r ∈ rs, r.2.length ≤ 255
  refuses_iff : ∀ rs, (format.print m rs).outcome = .refused .cannotBuild ↔
    ¬ ∀ r ∈ rs, r.2.length ≤ 255
  parse_print : ∀ {rs s}, (format.print m rs).outcome = .done s →
    (format.parse m s).outcome = .done rs
  print_parse : ∀ {s rs}, (format.parse m s).outcome = .done rs →
    (format.print m rs).outcome = .done s

theorem ReadsLength.oneToOne (hl : ReadsLength m code length) :
    OneToOne m (recordsOver code length) := by
  have spells := hl.spells_record
  have consuming : Consuming ((recordOver code length).read m) :=
    hl.restores_record.consuming spells fun r => List.cons_ne_nil _ _
  constructor
  · intro rs
    simp only [recordsOver, print_many_eof_eq_done_iff, spells.many.done_iff, exists_and_left,
      exists_eq, and_true]
  · intro rs
    rw [recordsOver, print_eq_refused_iff, spells.many.seqLeft_eof.refused_iff]
    simp only [and_true]
  · intro rs s printed
    exact parse_of_print_many hl.readsBack_record consuming read_record_empty printed
  · intro s rs parsed
    exact print_of_parse_many hl.restores_record parsed

/-- Records of bytes correspond to their sequences one to one, and so do records of any elements of
which some hold the lengths. -/
theorem records_oneToOne (ρ : Type → Type) :
    (∀ {σ : Type} [Sequence σ UInt8] [LawfulSequence σ UInt8] (m : Meaning ρ σ),
      OneToOne m records) ∧
    ∀ {σ ε : Type} [Sequence σ ε] [LawfulSequence σ ε] (code : LengthCode ε) (m : Meaning ρ σ),
      OneToOne m (recordsOver code (satisfy code.accepts)) :=
  ⟨fun _ => readsLength_element.oneToOne, fun code _ => (readsLength_satisfy code).oneToOne⟩

/-- A payload that looks like a length and a tag, and a payload of one byte too many. -/
theorem records_oneToOne_at_boundary :
    let wide : Grammar Int64 NoRule (List (Int64 × List Int64)) :=
      recordsOver .int64 (satisfy LengthCode.int64.accepts)
    let long : List (UInt8 × List UInt8) := [(7, []), (1, List.replicate 256 0)]
    (wide.print NoRule.meaning [(7, [1, 0]), (-300, [])]).outcome = .done [7, 2, 1, 0, -300, 0] ∧
    (wide.parse NoRule.meaning [7, 2, 1, 0, -300, 0]).outcome = .done [(7, [1, 0]), (-300, [])] ∧
    (∃ s : List Int64, (wide.print NoRule.meaning [(7, List.replicate 255 9)]).outcome = .done s) ∧
    (¬ ∀ r ∈ long, r.2.length ≤ 255) ∧
    (records.print (NoRule.meaning : Meaning NoRule (List UInt8)) long).outcome =
      .refused .cannotBuild := by
  intro wide long
  obtain ⟨bytes, integers⟩ := records_oneToOne NoRule
  have parsed : (wide.parse NoRule.meaning [7, 2, 1, 0, -300, 0]).outcome =
      .done [(7, [1, 0]), (-300, [])] := by decide
  have tooLong : ¬ ∀ r ∈ long, r.2.length ≤ 255 := by
    intro short
    have last := short (1, List.replicate 256 0)
      (List.mem_cons_of_mem _ (List.mem_singleton_self _))
    rw [List.length_replicate] at last
    omega
  have oneToOne : OneToOne (NoRule.meaning : Meaning NoRule (List Int64)) wide :=
    integers .int64 NoRule.meaning
  have printed := oneToOne.print_parse parsed
  have longest : ∀ r ∈ [((7 : Int64), List.replicate 255 (9 : Int64))], r.2.length ≤ 255 := by
    intro r hr
    exact Nat.le_of_eq (by rw [List.mem_singleton.1 hr, List.length_replicate])
  exact ⟨printed, oneToOne.parse_print printed, (oneToOne.prints_iff _).2 longest, tooLong,
    ((bytes NoRule.meaning).refuses_iff long).2 tooLong⟩

end Records
end TwoWay
