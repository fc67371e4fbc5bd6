import CodeDelta.Text.Blank

/-!
# Small letters

Making letters small settles their case for good (`lowerAscii_idem`), so two texts that differ in
nothing but case have one small form, and that form is its own.
-/

namespace CodeDelta.Text

/-- The characters of a text in small letters. -/
theorem toList_lowerAscii (text : String) :
    (lowerAscii text).toList = text.toList.map Char.toLower := String.toList_ofList

/-- The capital letters are those from A to Z. -/
theorem isUpper_iff {c : Char} : c.isUpper = true ↔ 65 ≤ c.toNat ∧ c.toNat ≤ 90 := by
  unfold Char.isUpper
  exact decide_eq_true_iff

/-- Nothing but capital letters changes. -/
theorem toLower_of_not_isUpper {c : Char} (other : c.isUpper ≠ true) : c.toLower = c := by
  unfold Char.toLower
  exact dif_neg fun range => other (isUpper_iff.2 range)

/-- A capital letter becomes the small letter 32 places further on. -/
theorem toNat_toLower {c : Char} (capital : c.isUpper = true) :
    c.toLower.toNat = c.toNat + 32 := by
  have range := isUpper_iff.1 capital
  have small : c.toLower.val = c.val + ('a'.val - 'A'.val) := by
    unfold Char.toLower
    exact congrArg Char.val (dif_pos range)
  have distance : ('a'.val - 'A'.val).toNat = 32 := rfl
  have bound : c.val.toNat ≤ 90 := range.2
  change c.toLower.val.toNat = c.val.toNat + 32
  rw [small, UInt32.toNat_add, distance]
  omega

/-- A capital letter becomes a small one. -/
theorem isLower_toLower {c : Char} (capital : c.isUpper = true) : c.toLower.isLower = true := by
  have range := isUpper_iff.1 capital
  have place := toNat_toLower capital
  have small : 97 ≤ c.toLower.toNat ∧ c.toLower.toNat ≤ 122 := by omega
  unfold Char.isLower
  rw [Bool.and_eq_true, decide_eq_true_eq, decide_eq_true_eq]
  exact small

/-- A capital letter is capital no more. -/
theorem not_isUpper_toLower {c : Char} (capital : c.isUpper = true) :
    c.toLower.isUpper ≠ true := by
  have range := isUpper_iff.1 capital
  rw [ne_eq, isUpper_iff, toNat_toLower capital]
  omega

/-- A small letter is its own small letter. -/
theorem toLower_idem (c : Char) : c.toLower.toLower = c.toLower := by
  by_cases capital : c.isUpper = true
  · exact toLower_of_not_isUpper (not_isUpper_toLower capital)
  · rw [toLower_of_not_isUpper capital, toLower_of_not_isUpper capital]

/-- Letters stay letters, and nothing else becomes one. -/
theorem isAlpha_toLower (c : Char) : c.toLower.isAlpha = c.isAlpha := by
  by_cases capital : c.isUpper = true
  · unfold Char.isAlpha
    rw [isLower_toLower capital, capital, Bool.or_true, Bool.true_or]
  · rw [toLower_of_not_isUpper capital]

/-- Small letters stay. -/
theorem lowerAscii_idem (text : String) : lowerAscii (lowerAscii text) = lowerAscii text := by
  have twice : Char.toLower ∘ Char.toLower = Char.toLower := funext toLower_idem
  rw [← String.toList_inj, toList_lowerAscii, toList_lowerAscii, List.map_map, twice]

end CodeDelta.Text
