import TransitionSystems.Text.Basic

/-!
# Decimal numerals

Different numbers have different numerals, and a numeral consists of digits.
-/

namespace TransitionSystems.Text

private theorem ofNat_toNat_of_isDigit {digit : Char} (isDigit : digit.isDigit = true) :
    Char.ofNat digit.toUInt8.toNat = digit := by
  have bounds : digit.val ≥ 48 ∧ digit.val ≤ 57 := by simpa [Char.isDigit] using isDigit
  have small : digit.toUInt8.toNat = digit.toNat := by
    have upper : digit.val.toNat ≤ 57 := bounds.2
    simp only [Char.toUInt8, Char.toNat, UInt32.toNat_toUInt8]
    omega
  rw [small, Char.ofNat_toNat]

/-- The numeral of a number determines it. -/
theorem ofNat_injective {left right : Nat} (same : ofNat left = ofNat right) : left = right := by
  have digits (number : Nat) :
      (ofNat number).map (fun byte => Char.ofNat byte.toNat) = Nat.toDigits 10 number := by
    rw [ofNat, List.map_map]
    calc
      (Nat.toDigits 10 number).map _ = (Nat.toDigits 10 number).map id := by
        apply List.map_congr_left
        intro digit member
        exact ofNat_toNat_of_isDigit (Nat.isDigit_of_mem_toDigits (by decide) (by decide) member)
      _ = Nat.toDigits 10 number := List.map_id _
  rw [← Nat.ofDigitChars_ten_toDigits (n := left), ← digits left, same, digits right,
    Nat.ofDigitChars_ten_toDigits]

theorem isDigit_of_mem_ofNat {number : Nat} {byte : UInt8} (member : byte ∈ ofNat number) :
    isDigit byte = true := by
  obtain ⟨digit, listed, rfl⟩ := List.mem_map.1 member
  have bounds : digit.val ≥ 48 ∧ digit.val ≤ 57 := by
    simpa [Char.isDigit] using Nat.isDigit_of_mem_toDigits (by decide) (by decide) listed
  have lower : 48 ≤ digit.val.toNat := bounds.1
  have upper : digit.val.toNat ≤ 57 := bounds.2
  simp only [isDigit, Char.toUInt8, Bool.and_eq_true, decide_eq_true_eq, UInt8.le_iff_toNat_le,
    UInt32.toNat_toUInt8]
  change 48 ≤ _ ∧ _ ≤ 57
  omega

theorem ne_zero_of_mem_ofNat {number : Nat} {byte : UInt8} (member : byte ∈ ofNat number) :
    byte ≠ 0 := by
  rintro rfl
  exact absurd (isDigit_of_mem_ofNat member) (by decide)

theorem ofNat_ne_minus (number : Nat) (text : Text) : ofNat number ≠ ("-" : Text) ++ text := by
  intro same
  have sign : (45 : UInt8) ∈ ofNat number := by
    rw [same]
    exact List.mem_cons_self
  exact absurd (isDigit_of_mem_ofNat sign) (by decide)

theorem ofInt_injective : Function.Injective ofInt := by
  intro left right same
  match left, right with
  | .ofNat left, .ofNat right => rw [ofNat_injective (same : ofNat left = ofNat right)]
  | .ofNat left, .negSucc right => exact absurd same (ofNat_ne_minus left _)
  | .negSucc left, .ofNat right => exact absurd same.symm (ofNat_ne_minus right _)
  | .negSucc left, .negSucc right =>
      have numerals : ofNat (left + 1) = ofNat (right + 1) := List.append_cancel_left same
      rw [Nat.succ.inj (ofNat_injective numerals)]

end TransitionSystems.Text
