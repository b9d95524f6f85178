import TwoWay.Grammar.Text

/-!
Words written one after the other, each with the number of its letters in front. An empty word is
written as a zero, which reads as a leading zero of the count that follows it; the checked format
refuses to write words that would be read back differently.
-/

namespace TwoWay
namespace CountPrefixed

variable {ρ : Type → Type}

open Grammar

/-- The number of characters of a word, as far as a count can tell. -/
def count (word : String) : Int64 :=
  Int64.ofNat (min word.length Int64.maxValue.toInt.toNat)

/-- As many letters as a count says; a negative count says none. -/
def letters (count : Int64) : Grammar Char ρ String :=
  adapt (.ofIso .charsText) (replicate count.toNatClampNeg alpha)

def words : Grammar Char ρ (List String) :=
  seqLeft (many (bind integer letters count)) eof

/-- The same format, each word read back after it is written. -/
def checkedWords : Grammar Char ρ (List String) :=
  seqLeft (many (bindChecked integer letters count)) eof

end CountPrefixed
end TwoWay
