import TwoWay.Format.CountPrefixed
import TwoWay.Grammar.Run
import TwoWay.Proofs.SelfDelimiting

/-!
What the check of a checked bind finds. It is all that sets a checked bind apart: outputs that pass
are given as they are, errors of the parts come first. An output that passes reads back as a driver
and a value that are equal to those it was written for, by the comparisons of their types. What is
left behind then is not compared: reading may have gone on into the rest, or have stopped short of
it, as long as the value is equal. The rest is left behind where the driver reads back in front of
what follows it, and the value behind the driver in front of the rest.
-/

namespace TwoWay
namespace Grammar

open Sequence

variable {σ ε : Type} [Sequence σ ε] {ρ : Type → Type} {α δ : Type}

section Refusal

variable [BEq δ] [BEq α] {m : Meaning ρ σ} {driver : Grammar ε ρ δ}
variable {continuation : δ → Grammar ε ρ α} {driverOf : α → δ} {x : α} {rest out : σ}

theorem read_of_write_bindChecked
    (h : ((bindChecked driver continuation driverOf).write m x rest).outcome = .done out) :
    ∃ y left, (bindChecked driver continuation driverOf).read m out = .done (y, left) ∧ y == x := by
  obtain ⟨-, found, mid, y, left, hd, -, hx, same⟩ := write_bindChecked_eq_done_iff.1 h
  rw [read_bindChecked]
  exact ⟨y, left, read_bind_eq_done_iff.2 ⟨found, mid, hd, hx⟩, same⟩

/-- A checked bind reads as the unchecked one, fails with its errors and gives its outputs, except
for those that do not read back as an equal driver and, in the format of the driver that was read,
an equal value: these it refuses. So whatever it writes reads back as an equal value, and whatever
it prints is parsed again. Where only identical things are equal, it is the driver itself and the
value itself that have to be read. -/
theorem checked_bind_adds_one_refusal (m : Meaning ρ σ) (driver : Grammar ε ρ δ)
    (continuation : δ → Grammar ε ρ α) (driverOf : α → δ) :
    let plain := bind driver continuation driverOf
    let checked := bindChecked driver continuation driverOf
    (∀ s : σ, checked.read m s = plain.read m s) ∧
    (∀ x (rest : σ) error, (plain.write m x rest).outcome = .refused error →
      checked.write m x rest = plain.write m x rest) ∧
    (∀ x (rest out : σ), (plain.write m x rest).outcome = .done out →
      (Reproduces m driver continuation (driverOf x) x out →
        checked.write m x rest = plain.write m x rest) ∧
      (driver.read m out ≠ .exhausted →
        (∀ found mid, driver.read m out = .done (found, mid) → found == driverOf x →
          (continuation found).read m mid ≠ .exhausted) →
        ¬ Reproduces m driver continuation (driverOf x) x out →
        (checked.write m x rest).outcome = .refused .inconsistentDriver)) ∧
    (∀ x (rest out : σ), (checked.write m x rest).outcome = .done out →
      ∃ y left, checked.read m out = .done (y, left) ∧ y == x) ∧
    (∀ x (out : σ), (checked.print m x).outcome = .done out →
      ∃ y, (checked.parse m out).outcome = .done y ∧ y == x) ∧
    ∀ [LawfulBEq δ] [LawfulBEq α] x (out : σ),
      Reproduces m driver continuation (driverOf x) x out ↔
        ∃ mid left, driver.read m out = .done (driverOf x, mid) ∧
          (continuation (driverOf x)).read m mid = .done (x, left) := by
  intro plain checked
  refine ⟨fun _ => rfl, ?_, ?_, ?_, ?_, fun _ _ => reproduces_iff⟩
  · intro x rest error refused
    refine write_bindChecked_eq_write_bind fun out written => ?_
    cases refused.symm.trans written
  · intro x rest out written
    refine ⟨fun back => ?_, write_bindChecked_eq_inconsistentDriver written⟩
    refine write_bindChecked_eq_write_bind fun out' written' => ?_
    cases written.symm.trans written'
    exact back
  · intro x rest out written
    exact read_of_write_bindChecked written
  · intro x out printed
    obtain ⟨y, left, read, same⟩ := read_of_write_bindChecked (print_eq_done_iff.1 printed)
    exact ⟨y, parse_eq_done_iff.2 ⟨left, read⟩, same⟩

end Refusal

/-- A word of no letters, an empty word whose count joins the digit behind it, and a word that
reads back. -/
theorem checked_bind_adds_one_refusal_to_words :
    let m : Meaning NoRule (List Char) := NoRule.meaning
    let plain : Grammar Char NoRule String :=
      bind integer CountPrefixed.letters CountPrefixed.count
    let checked : Grammar Char NoRule String :=
      bindChecked integer CountPrefixed.letters CountPrefixed.count
    (plain.write m "-" ['7']).outcome = .refused .cannotBuild ∧
    checked.write m "-" ['7'] = plain.write m "-" ['7'] ∧
    (plain.write m "" ['7']).outcome = .done ['0', '7'] ∧
    (checked.write m "" ['7']).outcome = .refused .inconsistentDriver ∧
    checked.write m "ab" ['7'] = plain.write m "ab" ['7'] ∧
    (checked.write m "ab" ['7']).outcome = .done ['2', 'a', 'b', '7'] ∧
    (∃ left, checked.read m ['2', 'a', 'b', '7'] = .done ("ab", left)) ∧
    (checked.print m "ab").outcome = .done ['2', 'a', 'b'] ∧
    (checked.parse m ['2', 'a', 'b']).outcome = .done "ab" := by
  intro m plain checked
  obtain ⟨-, errors, outputs, written, printed, lawful⟩ :=
    checked_bind_adds_one_refusal m integer CountPrefixed.letters CountPrefixed.count
  have refused : (plain.write m "-" ['7']).outcome = .refused .cannotBuild := by decide
  have joined : (plain.write m "" ['7']).outcome = .done ['0', '7'] := by decide
  have count : (integer : Grammar Char NoRule Int64).read m ['0', '7'] = .done (7, []) := by decide
  have differs (found : Int64) (mid : List Char) (h : (integer : Grammar Char NoRule Int64).read m
      ['0', '7'] = .done (found, mid)) : ¬ found == CountPrefixed.count "" := by
    cases count.symm.trans h
    decide
  have back : (integer : Grammar Char NoRule Int64).read m ['2', 'a', 'b', '7'] =
      .done (CountPrefixed.count "ab", ['a', 'b', '7']) := by decide
  have plainly : (plain.write m "ab" ['7']).outcome = .done ['2', 'a', 'b', '7'] := by decide
  have passes := (outputs _ _ _ plainly).1
    ((lawful _ _).2 ⟨['a', 'b', '7'], ['7'], back, by decide⟩)
  have output : (checked.write m "ab" ['7']).outcome = .done ['2', 'a', 'b', '7'] :=
    passes ▸ plainly
  have prints : (checked.print m "ab").outcome = .done ['2', 'a', 'b'] := by decide
  obtain ⟨y, left, read, same⟩ := written _ _ _ output
  obtain ⟨y', parsed, same'⟩ := printed _ _ prints
  obtain rfl := eq_of_beq same
  obtain rfl := eq_of_beq same'
  refine ⟨refused, errors _ _ _ refused, joined, ?_, passes, output, ⟨left, read⟩, prints, parsed⟩
  refine (outputs _ _ _ joined).2 (by rw [count]; simp)
    (fun found mid h same => absurd same (differs found mid h)) ?_
  rintro ⟨found, mid, -, -, h, same, -⟩
  exact differs found mid h same

/-- Not a number is refused although it reads back as it was. And where two different drivers are
equal, the check goes on in the format of the one that is read: the zero that is left out reads back
as the other zero, behind which five is not read, though it is read behind the zero it was written
for. -/
theorem checked_bind_compares_what_it_reads :
    let m : Meaning NoRule (List Float) := NoRule.meaning
    let nan : Float := 0.0 / 0.0
    let single : Grammar Float NoRule Float :=
      bindChecked (success ()) (fun _ => element) fun _ => ()
    let zero : Grammar Float NoRule Float := withDefault (-0.0) (satisfy fun x => 100 < x)
    let positive (d : Float) : Grammar Float NoRule Float := satisfy fun _ => 0 < 1 / d
    (success () : Grammar Float NoRule Unit).read m [nan] = .done ((), [nan]) ∧
    (element : Grammar Float NoRule Float).read m [nan] = .done (nan, []) ∧
    ((bind (success ()) (fun _ => element) fun _ => () : Grammar Float NoRule Float).write m nan
      []).outcome = .done [nan] ∧
    (single.write m nan []).outcome = .refused .inconsistentDriver ∧
    ((bind zero positive fun _ => 0.0).write m 5 []).outcome = .done [5] ∧
    zero.read m [5] = .done (-0.0, [5]) ∧ ((-0.0 : Float) == 0.0) = true ∧
    (positive 0.0).read m [5] = .done (5, []) ∧ ((5 : Float) == 5) = true ∧
    ((bindChecked zero positive fun _ => 0.0).write m 5 []).outcome =
      .refused .inconsistentDriver := by
  intro m nan single zero positive
  exact ⟨by decide, by decide, by decide, by decide, by decide, by decide, by decide, by decide,
    by decide, by decide⟩

/-- All prisms on sequences work at the front, those in the definitions of the rules too. -/
structure Rules.InFront (σ : Type) [Sequence σ ε] (rules : Rules ε ρ) (g : Grammar ε ρ α) :
    Prop where
  takesOff : g.Prisms (TakesOff σ)
  putsOn : g.Prisms (PutsOn σ)
  callsTakeOff : ∀ {β : Type} (rule : ρ β), (rules.definition rule).Prisms (TakesOff σ)
  callsPutOn : ∀ {β : Type} (rule : ρ β), (rules.definition rule).Prisms (PutsOn σ)

variable {rules : Rules ε ρ} {g : Grammar ε ρ α} {x : α} {rest left out : σ}

section Parts

variable [BEq δ] [BEq α] {driver : Grammar ε ρ δ} {continuation : δ → Grammar ε ρ α}
variable {driverOf : α → δ}

theorem Rules.reproduces_of_checked_writes
    (h : rules.Writes (bindChecked driver continuation driverOf) x rest out) :
    ∃ found mid y left, rules.Reads driver out found mid ∧ found == driverOf x ∧
      rules.Reads (continuation found) mid y left ∧ y == x := by
  obtain ⟨depth, hd⟩ := h
  obtain ⟨-, found, mid, y, left, hdriver, same, hx, same'⟩ := write_bindChecked_eq_done_iff.1 hd
  exact ⟨found, mid, y, left, ⟨depth, hdriver⟩, same, ⟨depth, hx⟩, same'⟩

/-- It is read on from where the driver ends, in the format of that driver. -/
theorem Rules.Reads.bindChecked_iff {s mid : σ} {d : δ} (first : rules.Reads driver s d mid) :
    rules.Reads (Grammar.bindChecked driver continuation driverOf) s x rest ↔
      rules.Reads (continuation d) mid x rest := by
  refine ⟨?_, fun second => (first.bind second).bindChecked⟩
  intro h
  obtain ⟨depth, hd⟩ := h
  rw [read_bindChecked] at hd
  obtain ⟨d', mid', hdriver, hx⟩ := read_bind_eq_done_iff.1 hd
  obtain ⟨rfl, rfl⟩ := first.unique ⟨depth, hdriver⟩
  exact ⟨depth, hx⟩

end Parts

variable [LawfulSequence σ ε]

/-- Reading an output leaves the rest behind, or goes on into it, or stops short of it. -/
theorem Rules.InFront.left_or_right (front : rules.InFront σ g)
    (written : rules.Writes g x rest out) {y : α} (back : rules.Reads g out y left) :
    left = rest ∨ (∃ z zs, rest = prepend (z :: zs) left) ∨
      ∃ z zs, left = prepend (z :: zs) rest := by
  have kept := written.suffix front.callsPutOn front.putsOn
  have found := back.suffix front.callsTakeOff front.takesOff
  obtain shorter | longer := List.suffix_or_suffix_of_suffix found kept
  · obtain ⟨_ | ⟨z, zs⟩, hzs⟩ := suffix_iff_exists_prepend.1 shorter
    · exact .inl hzs.symm
    · exact .inr (.inl ⟨z, zs, hzs⟩)
  · obtain ⟨_ | ⟨z, zs⟩, hzs⟩ := suffix_iff_exists_prepend.1 longer
    · exact .inl hzs
    · exact .inr (.inr ⟨z, zs, hzs⟩)

/-- What was taken off the rest is not left behind any more. -/
theorem Rules.InFront.left_ne [BEq δ] [BEq α] {driver : Grammar ε ρ δ}
    {continuation : δ → Grammar ε ρ α} {driverOf : α → δ} {d : δ} {mid : σ}
    (front : rules.InFront σ (bindChecked driver continuation driverOf))
    (second : rules.Reads (continuation d) mid x left)
    (into : ∃ z zs, rest = prepend (z :: zs) mid) : left ≠ rest := by
  rintro rfl
  obtain ⟨z, zs, longer⟩ := into
  have shorter := (second.suffix front.callsTakeOff (front.takesOff.2 d)).length_le
  rw [longer, toList_prepend, List.length_append, List.length_cons] at shorter
  omega

/-- An output that passes the check reads back as a driver and a value that are equal to those it
was written for. Where it is the driver itself that is read, the value comes back and the rest is
left exactly if the continuation reads that value from what follows the driver and leaves that rest;
so it is left whenever both parts read back, and it is not left where the driver is read on into it.
Otherwise reading goes on into the rest or stops short of it, which the check does not see. -/
theorem checked_writing_reads_back_iff (rules : Rules ε ρ) [BEq δ] [BEq α]
    {driver : Grammar ε ρ δ} {continuation : δ → Grammar ε ρ α} {driverOf : α → δ}
    (h : rules.Writes (bindChecked driver continuation driverOf) x rest out) :
    let checked := bindChecked driver continuation driverOf
    ∃ found mid y left,
      (rules.Reads driver out found mid ∧ found == driverOf x) ∧
      (rules.Reads (continuation found) mid y left ∧ y == x ∧ ∀ [LawfulBEq α], y = x) ∧
      rules.Reads checked out y left ∧
      (rules.Reads checked out x rest ↔ y = x ∧ left = rest) ∧
      (∀ seg, rules.Reads driver out (driverOf x) seg →
        (y = x ∧ left = rest ↔ rules.Reads (continuation (driverOf x)) seg x rest)) ∧
      (rules.ReadsBack σ driver → rules.ReadsBack σ (continuation (driverOf x)) →
        y = x ∧ left = rest) ∧
      (rules.InFront σ checked → (∃ z zs, rest = prepend (z :: zs) mid) → left ≠ rest) ∧
      (rules.InFront σ checked → left = rest ∨ (∃ z zs, rest = prepend (z :: zs) left) ∨
        ∃ z zs, left = prepend (z :: zs) rest) := by
  intro checked
  obtain ⟨found, mid, y, left, hd, same, hx, same'⟩ := Rules.reproduces_of_checked_writes h
  have back : rules.Reads checked out y left := hd.bindChecked_iff.2 hx
  have exact_iff : rules.Reads checked out x rest ↔ y = x ∧ left = rest := by
    refine ⟨fun read => back.unique read, ?_⟩
    rintro ⟨rfl, rfl⟩
    exact back
  have behind (seg : σ) (first : rules.Reads driver out (driverOf x) seg) :
      y = x ∧ left = rest ↔ rules.Reads (continuation (driverOf x)) seg x rest :=
    exact_iff.symm.trans first.bindChecked_iff
  refine ⟨found, mid, y, left, ⟨hd, same⟩, ⟨hx, same', eq_of_beq same'⟩, back, exact_iff,
    behind, ?_, fun front => front.left_ne hx, fun front => front.left_or_right h back⟩
  intro reads reads'
  obtain ⟨seg, hseg, hout⟩ := h.bindChecked.bind
  exact (behind seg (reads.reads hout)).2 (reads'.reads hseg)

/-- An empty word in front of a zero, and a word of two letters. -/
theorem checked_word_reads_back_iff :
    let rules : Rules Char NoRule := ⟨fun rule => nomatch rule⟩
    let word : Grammar Char NoRule String :=
      bindChecked integer CountPrefixed.letters CountPrefixed.count
    rules.Writes word "" ['0'] ['0', '0'] ∧ rules.InFront (List Char) word ∧
    (∃ left : List Char, rules.Reads word ['0', '0'] "" left ∧
      (rules.Reads word ['0', '0'] "" ['0'] ↔ left = ['0']) ∧
      (rules.InFront (List Char) word →
        left = ['0'] ∨ (∃ y ys, ['0'] = prepend (y :: ys) left) ∨
          ∃ y ys, left = prepend (y :: ys) ['0'])) ∧
    rules.Writes word "ab" ['0'] ['2', 'a', 'b', '0'] ∧
    rules.Reads integer ['2', 'a', 'b', '0'] (CountPrefixed.count "ab") ['a', 'b', '0'] ∧
    rules.Reads word ['2', 'a', 'b', '0'] "ab" ['0'] := by
  intro rules word
  have written : rules.Writes word "" ['0'] ['0', '0'] := ⟨0, by decide⟩
  have front : rules.InFront (List Char) word := by
    refine ⟨?_, ?_, (fun rule => nomatch rule), (fun rule => nomatch rule)⟩
    · exact ⟨⟨⟨trivial, trivial⟩, trivial⟩, fun _ => trivial⟩
    · exact ⟨⟨⟨trivial, trivial⟩, trivial⟩, fun _ => trivial⟩
  obtain ⟨-, -, y, left, -, ⟨-, -, same⟩, back, returns, -, -, -, place⟩ :=
    checked_writing_reads_back_iff rules written
  obtain rfl := same
  have written' : rules.Writes word "ab" ['0'] ['2', 'a', 'b', '0'] := ⟨0, by decide⟩
  have count : rules.Reads integer ['2', 'a', 'b', '0'] (CountPrefixed.count "ab")
      ['a', 'b', '0'] := ⟨0, by decide⟩
  obtain ⟨_, _, y', left', -, -, -, returns', behind, -⟩ :=
    checked_writing_reads_back_iff rules written'
  have letters : rules.Reads word ['2', 'a', 'b', '0'] "ab" ['0'] :=
    returns'.2 ((behind ['a', 'b', '0'] count).2 ⟨0, by decide⟩)
  refine ⟨written, front, ⟨left, back, ?_, place⟩, written', count, letters⟩
  rw [returns, and_iff_right rfl]

/-- The count of an empty word goes on into a zero behind it, and the check passes. -/
theorem checked_word_reads_into_rest :
    let rules : Rules Char NoRule := ⟨fun rule => nomatch rule⟩
    let word : Grammar Char NoRule String :=
      bindChecked integer CountPrefixed.letters CountPrefixed.count
    rules.Writes word "" ['0'] ['0', '0'] ∧ rules.Reads word ['0', '0'] "" [] ∧
      ¬ rules.Reads word ['0', '0'] "" ['0'] := by
  intro rules word
  have back : rules.Reads word ['0', '0'] "" [] := ⟨0, by decide⟩
  refine ⟨⟨0, by decide⟩, back, fun other => ?_⟩
  have same := (back.unique other).2
  cases same

end Grammar
end TwoWay
