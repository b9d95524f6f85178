import TwoWay.Grammar.Derived

/-!
Records of bytes, each a tag, the length of a payload and the payload. The same format over other
elements needs some of them to hold the lengths up to 255.
-/

namespace TwoWay
namespace Records

variable {ρ : Type → Type}

open Grammar

/-- The length byte of a payload; 255 stands for every longer one too. -/
def lengthByte (payload : List UInt8) : UInt8 := UInt8.ofNat (min payload.length 255)

/-- A length byte and as many bytes as it says. -/
def payload : Grammar UInt8 ρ (List UInt8) :=
  bind element (fun length => replicate length.toNat element) lengthByte

def records : Grammar UInt8 ρ (List (UInt8 × List UInt8)) :=
  seqLeft (many (both element payload)) eof

/-- Elements that hold the numbers up to 255, one element for each number. -/
structure LengthCode (ε : Type) where
  accepts : ε → Bool
  toNat : ε → Nat
  ofNat : Nat → ε
  toNat_le : ∀ {x}, accepts x = true → toNat x ≤ 255
  ofNat_toNat : ∀ {x}, accepts x = true → ofNat (toNat x) = x
  accepts_ofNat : ∀ {n}, n ≤ 255 → accepts (ofNat n) = true
  toNat_ofNat : ∀ {n}, n ≤ 255 → toNat (ofNat n) = n

namespace LengthCode

def byte : LengthCode UInt8 where
  accepts _ := true
  toNat := UInt8.toNat
  ofNat := UInt8.ofNat
  toNat_le {x} _ := Nat.le_of_lt_succ x.toNat_lt
  ofNat_toNat _ := UInt8.ofNat_toNat
  accepts_ofNat _ := rfl
  toNat_ofNat h := UInt8.toNat_ofNat_of_lt' (Nat.lt_succ_of_le h)

/-- Wider integers, of which only those from 0 to 255 are lengths. -/
def int64 : LengthCode Int64 where
  accepts x := 0 ≤ x && x ≤ 255
  toNat := Int64.toNatClampNeg
  ofNat := Int64.ofNat
  toNat_le {x} h := by
    simp only [Bool.and_eq_true, decide_eq_true_eq, Int64.le_iff_toInt_le] at h
    have upper : x.toInt ≤ 255 := h.2
    rw [Int64.toNatClampNeg]
    omega
  ofNat_toNat {x} h := by
    simp only [Bool.and_eq_true, decide_eq_true_eq, Int64.le_iff_toInt_le] at h
    have lower : 0 ≤ x.toInt := h.1
    rw [Int64.toNatClampNeg, ← Int64.ofInt_eq_ofNat, Int.toNat_of_nonneg lower, Int64.ofInt_toInt]
  accepts_ofNat {n} h := by
    have value : (Int64.ofNat n).toInt = n := Int64.toInt_ofNat_of_lt (by omega)
    simp only [Bool.and_eq_true, decide_eq_true_eq, Int64.le_iff_toInt_le, value]
    exact ⟨Int.natCast_nonneg n, Int.ofNat_le.2 h⟩
  toNat_ofNat {n} h := by
    have value : (Int64.ofNat n).toInt = n := Int64.toInt_ofNat_of_lt (by omega)
    rw [Int64.toNatClampNeg, value, Int.toNat_natCast]

end LengthCode

variable {ε : Type}

/-- A tag, an element that holds a length, and as many elements as it says. -/
def recordOver (code : LengthCode ε) (length : Grammar ε ρ ε) : Grammar ε ρ (ε × List ε) :=
  both element
    (bind length (fun d => replicate (code.toNat d) element)
      fun payload => code.ofNat (min payload.length 255))

def recordsOver (code : LengthCode ε) (length : Grammar ε ρ ε) : Grammar ε ρ (List (ε × List ε)) :=
  seqLeft (many (recordOver code length)) eof

end Records
end TwoWay
