import CodeDelta.Json.Draft
import CodeDelta.Json.Writer
import Mathlib.Data.Int.Notation
import Mathlib.Data.Nat.Notation

/-!
# Literals read back

The string and number literals that are written are read back, whatever follows them: a string up to
its closing quote (`readLiteral_write`), one character after another, and a whole number of 64 bits
as far as what follows does not go on with it (`readNumber_write`).
-/

namespace CodeDelta.Json

/-! ### Strings -/

/-- A character that is written as itself. -/
theorem readLiteral_plain {c : Char} (quote : c ≠ '"') (backslash : c ≠ '\\')
    (shown : ¬c.toNat < 32) (rest : List Char) :
    readLiteral (c :: rest) = (readLiteral rest).cons c := by
  rw [readLiteral, if_neg shown]
  · exact quote
  · exact fun _ _ _ _ _ same => absurd same backslash
  · exact fun _ same => absurd same backslash
  · exact fun same => absurd same backslash
  · exact fun _ _ same => absurd same backslash

/-- A character that is written as a letter behind a backslash. -/
theorem readLiteral_letter {letter c : Char} (notCode : letter ≠ 'u')
    (h : unescape? letter = some c) (rest : List Char) :
    readLiteral ('\\' :: letter :: rest) = (readLiteral rest).cons c := by
  rw [readLiteral, h]
  · exact fun _ _ _ _ _ same => absurd same notCode
  · exact notCode

/-- A character that is written by its number, which is none of a surrogate. -/
theorem readLiteral_code {n : ℕ} {a b c d : Char} (h : hexFour? a b c d = some n)
    (scalar : n < 0xD800) (rest : List Char) :
    readLiteral ('\\' :: 'u' :: a :: b :: c :: d :: rest) =
      (readLiteral rest).cons (Char.ofNat n) := by
  rw [readLiteral, h]
  dsimp only
  rw [if_neg (by omega), if_neg (by omega)]

/-- The four digits of a control character write its number. -/
theorem hexFour?_control :
    ∀ n < 32, hexFour? '0' '0' (hexDigit (n / 16)) (hexDigit (n % 16)) = some n := by
  decide

/-- A written character is read. -/
theorem readLiteral_escapeChar (c : Char) (rest : List Char) :
    readLiteral (escapeChar c ++ rest) = (readLiteral rest).cons c := by
  have self : Char.ofNat c.toNat = c := Char.ofNat_toNat c
  unfold escapeChar
  by_cases quote : c = '"'
  · rw [if_pos quote, quote]
    exact readLiteral_letter (by decide) rfl rest
  rw [if_neg quote]
  by_cases backslash : c = '\\'
  · rw [if_pos backslash, backslash]
    exact readLiteral_letter (by decide) rfl rest
  rw [if_neg backslash]
  by_cases backspace : c.toNat = 8
  · rw [if_pos backspace, ← self, backspace]
    exact readLiteral_letter (by decide) rfl rest
  rw [if_neg backspace]
  by_cases formFeed : c.toNat = 12
  · rw [if_pos formFeed, ← self, formFeed]
    exact readLiteral_letter (by decide) rfl rest
  rw [if_neg formFeed]
  by_cases newline : c = '\n'
  · rw [if_pos newline, newline]
    exact readLiteral_letter (by decide) rfl rest
  rw [if_neg newline]
  by_cases carriage : c = '\r'
  · rw [if_pos carriage, carriage]
    exact readLiteral_letter (by decide) rfl rest
  rw [if_neg carriage]
  by_cases tab : c = '\t'
  · rw [if_pos tab, tab]
    exact readLiteral_letter (by decide) rfl rest
  rw [if_neg tab]
  by_cases control : c.toNat < 32
  · have read := readLiteral_code (hexFour?_control c.toNat control) (by omega) rest
    rw [self] at read
    rw [if_pos control]
    exact read
  · rw [if_neg control]
    exact readLiteral_plain quote backslash control rest

/-- A written string is read up to its closing quote. -/
theorem readLiteral_write (text rest : List Char) :
    readLiteral (text.flatMap escapeChar ++ '"' :: rest) = ⟨.ok text, .ok rest⟩ := by
  induction text with
  | nil => rw [List.flatMap_nil, List.nil_append, readLiteral]
  | cons c text ih =>
    rw [List.flatMap_cons, List.append_assoc, readLiteral_escapeChar, ih]
    rfl

/-! ### Numbers -/

/-- A digit is zero only for zero. -/
theorem eq_zero_of_digitChar : ∀ n < 10, Nat.digitChar n = '0' → n = 0 := by
  decide

/-- The digits of a number start with a zero only for zero. -/
theorem eq_zero_of_head?_toDigits {n : ℕ} (h : (Nat.toDigits 10 n).head? = some '0') : n = 0 := by
  induction n using Nat.strongRecOn with
  | ind n ih =>
    by_cases small : n < 10
    · rw [Nat.toDigits_of_lt_base small, List.head?_cons, Option.some_inj] at h
      exact eq_zero_of_digitChar n small h
    · obtain ⟨digit, digits, leading⟩ := List.exists_cons_of_length_pos
        (Nat.length_toDigits_pos (b := 10) (n := n / 10))
      rw [Nat.toDigits_of_base_le (by decide) (by omega), leading, List.cons_append,
        List.head?_cons] at h
      have zero : n / 10 = 0 := ih (n / 10) (by omega) (by rw [leading, List.head?_cons, h])
      omega

/-- The digits of a number write it. -/
theorem decimalValue_toDigits (n : ℕ) : decimalValue (Nat.toDigits 10 n) = n := by
  have read : Nat.ofDigitChars 10 (Nat.toDigits 10 n) 0 = n := Nat.ofDigitChars_ten_toDigits
  have step : (fun (n : ℕ) (c : Char) => n * 10 + (c.toNat - 48)) =
      fun n c => 10 * n + (c.toNat - '0'.toNat) := by
    funext n c
    rw [Nat.mul_comm]
    rfl
  rw [Nat.ofDigitChars_eq_foldl] at read
  unfold decimalValue
  rw [step]
  exact read

/-- The characters that may go on with a number. -/
def continuesNumber (c : Char) : Bool := c.isDigit || c == '.' || c == 'e' || c == 'E'

/-- What may follow a number: nothing, or a character that does not go on with it. -/
def Apart (rest : List Char) : Prop := ∀ c ∈ rest.head?, continuesNumber c = false

/-- The whole numbers that a document holds: those of 64 bits, with a sign or without. -/
def FitsWord (value : ℤ) : Prop := -Int.pow 2 63 ≤ value ∧ value < Int.pow 2 64

/-- A character that does not go on with a number is no digit, point or mark of an exponent. -/
theorem Apart.head {c : Char} {rest : List Char} (h : Apart (c :: rest)) :
    c.isDigit = false ∧ c ≠ '.' ∧ c ≠ 'e' ∧ c ≠ 'E' := by
  have stops := h c rfl
  simp only [continuesNumber, Bool.or_eq_false_iff, beq_eq_false_iff_ne] at stops
  obtain ⟨⟨⟨digit, point⟩, small⟩, capital⟩ := stops
  exact ⟨digit, point, small, capital⟩

/-- Digits are read up to where they end. -/
theorem takeWhile_digits {digits rest : List Char} (all : ∀ c ∈ digits, c.isDigit = true)
    (h : Apart rest) : (digits ++ rest).takeWhile Char.isDigit = digits := by
  rw [List.takeWhile_append_of_pos all]
  cases rest with
  | nil => exact List.append_nil digits
  | cons c rest =>
    rw [List.takeWhile_cons, if_neg (Bool.eq_false_iff.1 h.head.1), List.append_nil]

/-- What follows digits is left. -/
theorem dropWhile_digits {digits rest : List Char} (all : ∀ c ∈ digits, c.isDigit = true)
    (h : Apart rest) : (digits ++ rest).dropWhile Char.isDigit = rest := by
  rw [List.dropWhile_append_of_pos all]
  cases rest with
  | nil => rfl
  | cons c rest => rw [List.dropWhile_cons, if_neg (Bool.eq_false_iff.1 h.head.1)]

/-- Without an exponent a number ends. -/
theorem readExponent_of_apart {rest : List Char} (h : Apart rest) (source : List Char)
    (negative : Bool) (whole fraction : List Char) :
    readExponent source negative whole fraction rest =
      ⟨numberOf (source.take (source.length - rest.length)) negative whole fraction none,
        .ok rest⟩ := by
  unfold readExponent
  split
  · exact absurd rfl h.head.2.2.1
  · exact absurd rfl h.head.2.2.2
  · rfl

/-- The digits of a number are digits. -/
theorem isDigit_of_mem_toDigits {n : ℕ} : ∀ c ∈ Nat.toDigits 10 n, c.isDigit = true :=
  fun _ hc => Nat.isDigit_of_mem_toDigits (by decide) (by decide) hc

/-- Only the number zero starts with a zero, and nothing follows that. -/
theorem not_leadingZero (n : ℕ) :
    ¬((Nat.toDigits 10 n).head? == some '0' && decide ((Nat.toDigits 10 n).length > 1)) = true := by
  intro h
  rw [Bool.and_eq_true, beq_iff_eq, decide_eq_true_eq] at h
  rw [eq_zero_of_head?_toDigits h.1] at h
  exact absurd h.2 (by decide)

/-- Digits stand for a number of 64 bits. -/
theorem numberOf_toDigits {n : ℕ} (h : n < Nat.pow 2 64) (literal : List Char) :
    numberOf literal false (Nat.toDigits 10 n) [] none = .ok (.integer n) := by
  unfold numberOf
  rw [decimalValue_toDigits]
  exact if_pos (by rw [decide_eq_true h]; rfl)

/-- Digits behind a sign stand for a negative number of 64 bits. -/
theorem numberOf_toDigits_negative {n : ℕ} (h : n + 1 ≤ Nat.pow 2 63) (literal : List Char) :
    numberOf literal true (Nat.toDigits 10 (n + 1)) [] none = .ok (.integer (.negSucc n)) := by
  unfold numberOf
  rw [decimalValue_toDigits]
  exact (if_neg Bool.false_ne_true).trans (if_pos (by rw [decide_eq_true h]; rfl))

/-- A written number is read up to where it ends. -/
theorem readNumber_write {value : ℤ} (fits : FitsWord value) {rest : List Char} (h : Apart rest) :
    readNumber (writeNumber (.integer value) ++ rest) = ⟨.ok (.integer value), .ok rest⟩ := by
  unfold readNumber
  split
  next negative text sign =>
  -- Behind the sign stand the digits of the magnitude, which give the value with the sign.
  have digits : ∃ n, text = Nat.toDigits 10 n ++ rest ∧ ∀ literal,
      numberOf literal negative (Nat.toDigits 10 n) [] none = .ok (.integer value) := by
    cases value with
    | ofNat n =>
      have small : n < Nat.pow 2 64 := Int.ofNat_lt.1 fits.2
      split at sign
      · next source text' same =>
        obtain ⟨digit, more, leading⟩ := List.exists_cons_of_length_pos
          (Nat.length_toDigits_pos (b := 10) (n := n))
        have written : writeNumber (.integer (.ofNat n)) = digit :: more := leading
        rw [written] at same
        have minus : digit = '-' := (List.cons.inj same).1
        have digit_ := isDigit_of_mem_toDigits digit (leading ▸ List.mem_cons_self)
        rw [minus] at digit_
        exact absurd digit_ (by decide)
      · obtain ⟨rfl, rfl⟩ := Prod.mk.inj sign
        exact ⟨n, rfl, numberOf_toDigits small⟩
    | negSucc n =>
      have small : n + 1 ≤ Nat.pow 2 63 := by
        have above := fits.1
        rw [Int.negSucc_eq] at above
        exact Int.ofNat_le.1 (Int.neg_le_neg_iff.1 above)
      obtain ⟨rfl, rfl⟩ := Prod.mk.inj sign
      exact ⟨n + 1, rfl, numberOf_toDigits_negative small⟩
  obtain ⟨n, rfl, value_⟩ := digits
  have filled : (Nat.toDigits 10 n).isEmpty = false := by
    rw [List.isEmpty_eq_false_iff]
    exact List.ne_nil_of_length_pos Nat.length_toDigits_pos
  dsimp only
  rw [takeWhile_digits isDigit_of_mem_toDigits h, dropWhile_digits isDigit_of_mem_toDigits h,
    filled, if_neg Bool.false_ne_true, if_neg (not_leadingZero n)]
  split
  · exact absurd rfl h.head.2.1
  · rw [readExponent_of_apart h, value_]

end CodeDelta.Json
