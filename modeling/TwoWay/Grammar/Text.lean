import TwoWay.Grammar.Derived

/-!
Grammars over characters: digits, letters and integers.
-/

namespace TwoWay
namespace Grammar

variable {ρ : Type → Type}

def digit : Grammar Char ρ Char := satisfy Char.isDigit

def alpha : Grammar Char ρ Char := satisfy Char.isAlpha

/-- An optional minus sign and as many digits as there are, as the 64-bit integer they spell. -/
def integer : Grammar Char ρ Int64 :=
  adapt ((Prism.ofIso (Iso.signedDigits.compose .charsText)).compose .integerText)
    (both (opt (symbol '-')) (many digit))

end Grammar
end TwoWay
