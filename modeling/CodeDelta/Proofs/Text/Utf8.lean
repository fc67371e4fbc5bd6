import CodeDelta.Text.Utf8
import Mathlib.Data.Nat.Notation
import Mathlib.Tactic.SplitIfs

/-!
# Bytes of a text

The bytes of a text are those that the library writes (`encodeUtf8_toList`). Encoded text is
decoded to itself (`decodeUtf8_encodeUtf8`), one character after another: the leading byte of a
character opens the state that its other bytes close. The bytes of a text hold a zero only where the
text does, so a zero byte can end an entry of a listing.
-/

namespace CodeDelta.Text

/-- A byte below `0x100` is the number it was made from. -/
theorem toNat_byte {n : ℕ} (h : n < 0x100) : (UInt8.ofNat n).toNat = n := by
  rw [UInt8.toNat_ofNat']
  exact Nat.mod_eq_of_lt h

/-- The byte that closes a character. -/
theorem decodeFrom_last {index start taken least greatest value n : ℕ} (rest : List UInt8)
    (h : n < 0x100) (above : least ≤ n) (below : n ≤ greatest) :
    decodeFrom index (.inside start taken 1 least greatest value) (UInt8.ofNat n :: rest) =
      (decodeFrom (index + 1) .between rest).map
        (Char.ofNat (value * 0x40 + n % 0x40) :: ·) := by
  have inBounds : ¬(n < least ∨ greatest < n) := by omega
  rw [decodeFrom]
  simp only [toNat_byte h, if_neg inBounds, Nat.le_refl, if_true]

/-- A byte that more bytes of its character follow. -/
theorem decodeFrom_more {index start taken missing least greatest value n : ℕ}
    (rest : List UInt8) (h : n < 0x100) (above : least ≤ n) (below : n ≤ greatest)
    (more : 1 < missing) :
    decodeFrom index (.inside start taken missing least greatest value) (UInt8.ofNat n :: rest) =
      decodeFrom (index + 1)
        (.inside start (taken + 1) (missing - 1) 0x80 0xBF (value * 0x40 + n % 0x40)) rest := by
  have inBounds : ¬(n < least ∨ greatest < n) := by omega
  have notLast : ¬missing ≤ 1 := by omega
  rw [decodeFrom]
  simp only [toNat_byte h, if_neg inBounds, if_neg notLast]

/-- The byte that opens a character of several bytes. -/
theorem decodeFrom_first {index count least greatest n : ℕ} (rest : List UInt8) (h : n < 0x100)
    (opens : continuation? n = some (count + 1, least, greatest)) :
    decodeFrom index .between (UInt8.ofNat n :: rest) =
      decodeFrom (index + 1)
        (.inside index 1 (count + 1) least greatest (leadingBits (count + 1) n)) rest := by
  rw [decodeFrom, toNat_byte h, opens]

/-- The leading byte of a character of two bytes. -/
theorem continuation?_two {n : ℕ} (h₁ : 0xC2 ≤ n) (h₂ : n < 0xE0) :
    continuation? n = some (1, 0x80, 0xBF) := by
  unfold continuation?
  rw [if_neg (by omega), if_neg (by omega), if_pos h₂]

/-- The leading byte of a character of three bytes. Its second byte is bounded so that the number
needs three bytes and is none of a surrogate. -/
theorem continuation?_three {n second : ℕ} (h₁ : 0xE0 ≤ n) (h₂ : n < 0xF0)
    (s₁ : 0x80 ≤ second) (s₂ : second ≤ 0xBF) (long : n = 0xE0 → 0xA0 ≤ second)
    (scalar : n = 0xED → second ≤ 0x9F) :
    ∃ least greatest, continuation? n = some (2, least, greatest) ∧
      least ≤ second ∧ second ≤ greatest := by
  unfold continuation?
  rw [if_neg (by omega), if_neg (by omega), if_neg (by omega)]
  by_cases h₃ : n = 0xE0
  · exact ⟨0xA0, 0xBF, by rw [if_pos h₃], long h₃, s₂⟩
  · by_cases h₄ : n = 0xED
    · exact ⟨0x80, 0x9F, by rw [if_neg h₃, if_pos h₄], s₁, scalar h₄⟩
    · exact ⟨0x80, 0xBF, by rw [if_neg h₃, if_neg h₄, if_pos h₂], s₁, s₂⟩

/-- The leading byte of a character of four bytes. Its second byte is bounded so that the number
needs four bytes and is one of a character. -/
theorem continuation?_four {n second : ℕ} (h₁ : 0xF0 ≤ n) (h₂ : n ≤ 0xF4)
    (s₁ : 0x80 ≤ second) (s₂ : second ≤ 0xBF) (long : n = 0xF0 → 0x90 ≤ second)
    (scalar : n = 0xF4 → second ≤ 0x8F) :
    ∃ least greatest, continuation? n = some (3, least, greatest) ∧
      least ≤ second ∧ second ≤ greatest := by
  unfold continuation?
  rw [if_neg (by omega), if_neg (by omega), if_neg (by omega), if_neg (by omega),
    if_neg (by omega), if_neg (by omega)]
  by_cases h₃ : n = 0xF0
  · exact ⟨0x90, 0xBF, by rw [if_pos h₃], long h₃, s₂⟩
  · by_cases h₄ : n < 0xF4
    · exact ⟨0x80, 0xBF, by rw [if_neg h₃, if_pos h₄], s₁, s₂⟩
    · have h₅ : n = 0xF4 := by omega
      exact ⟨0x80, 0x8F, by rw [if_neg h₃, if_neg h₄, if_pos h₅], s₁, scalar h₅⟩

/-- The number of a character is below the surrogates, or above them and at most `0x10FFFF`. -/
theorem toNat_scalar (c : Char) :
    c.toNat < 0xD800 ∨ 0xDFFF < c.toNat ∧ c.toNat < 0x110000 := c.valid

/-- The bytes of a character are decoded to it. -/
theorem decodeFrom_encodeChar (index : ℕ) (c : Char) (rest : List UInt8) :
    decodeFrom index .between (encodeChar c ++ rest) =
      (decodeFrom (index + (encodeChar c).length) .between rest).map (c :: ·) := by
  have scalar := toNat_scalar c
  have self : Char.ofNat c.toNat = c := Char.ofNat_toNat c
  -- The number alone decides on the bytes, and the bytes spell it again.
  unfold encodeChar
  generalize c.toNat = n at scalar self
  by_cases one : n < 0x80
  · have opens : continuation? n = some (0, 0, 0) := if_pos one
    simp only [if_pos one, List.cons_append, List.nil_append]
    rw [decodeFrom, toNat_byte (by omega), opens, self]
    rfl
  simp only [if_neg one]
  by_cases two : n < 0x800
  · have value : leadingBits 1 (0xC0 + n / 0x40) * 0x40 + (0x80 + n % 0x40) % 0x40 = n := by
      change (0xC0 + n / 0x40) % 0x20 * 0x40 + (0x80 + n % 0x40) % 0x40 = n
      omega
    simp only [if_pos two, List.cons_append, List.nil_append]
    rw [decodeFrom_first _ (by omega) (continuation?_two (by omega) (by omega)),
      decodeFrom_last _ (by omega) (by omega) (by omega), value, self]
    rfl
  simp only [if_neg two]
  by_cases three : n < 0x10000
  · obtain ⟨least, greatest, opens, above, below⟩ :=
      @continuation?_three (0xE0 + n / 0x1000) (0x80 + n / 0x40 % 0x40) (by omega) (by omega)
        (by omega) (by omega) (by omega) (by omega)
    have value : (leadingBits 2 (0xE0 + n / 0x1000) * 0x40 + (0x80 + n / 0x40 % 0x40) % 0x40) *
        0x40 + (0x80 + n % 0x40) % 0x40 = n := by
      change ((0xE0 + n / 0x1000) % 0x10 * 0x40 + (0x80 + n / 0x40 % 0x40) % 0x40) * 0x40 +
        (0x80 + n % 0x40) % 0x40 = n
      omega
    simp only [if_pos three, List.cons_append, List.nil_append]
    rw [decodeFrom_first _ (by omega) opens,
      decodeFrom_more _ (by omega) above below (by omega),
      decodeFrom_last _ (by omega) (by omega) (by omega), value, self]
    rfl
  · obtain ⟨least, greatest, opens, above, below⟩ :=
      @continuation?_four (0xF0 + n / 0x40000) (0x80 + n / 0x1000 % 0x40) (by omega) (by omega)
        (by omega) (by omega) (by omega) (by omega)
    have value : ((leadingBits 3 (0xF0 + n / 0x40000) * 0x40 +
        (0x80 + n / 0x1000 % 0x40) % 0x40) * 0x40 + (0x80 + n / 0x40 % 0x40) % 0x40) * 0x40 +
        (0x80 + n % 0x40) % 0x40 = n := by
      change (((0xF0 + n / 0x40000) % 0x08 * 0x40 + (0x80 + n / 0x1000 % 0x40) % 0x40) * 0x40 +
        (0x80 + n / 0x40 % 0x40) % 0x40) * 0x40 + (0x80 + n % 0x40) % 0x40 = n
      omega
    simp only [if_neg three, List.cons_append, List.nil_append]
    rw [decodeFrom_first _ (by omega) opens,
      decodeFrom_more _ (by omega) above below (by omega),
      decodeFrom_more _ (by omega) (by omega) (by omega) (by omega),
      decodeFrom_last _ (by omega) (by omega) (by omega), value, self]
    rfl

/-- The bytes of a character are those that the library writes. -/
theorem encodeChar_eq_utf8EncodeChar (c : Char) : encodeChar c = String.utf8EncodeChar c := by
  have scalar := toNat_scalar c
  have number : c.val.toNat = c.toNat := rfl
  unfold encodeChar String.utf8EncodeChar
  rw [number]
  generalize c.toNat = n at scalar
  dsimp only
  have last : 0x80 + n % 0x40 = n % 0x40 + 0x80 := Nat.add_comm _ _
  have second : 0x80 + n / 0x40 % 0x40 = n / 0x40 % 0x40 + 0x80 := Nat.add_comm _ _
  have third : 0x80 + n / 0x1000 % 0x40 = n / 0x1000 % 0x40 + 0x80 := Nat.add_comm _ _
  -- A leading byte has room for all bits above those of the bytes behind it.
  by_cases one : n < 0x80
  · rw [if_pos one, if_pos (by omega : n ≤ 0x7F)]
  rw [if_neg one, if_neg (by omega : ¬n ≤ 0x7F)]
  by_cases two : n < 0x800
  · have first : 0xC0 + n / 0x40 = n / 0x40 % 0x20 + 0xC0 := by omega
    rw [if_pos two, if_pos (by omega : n ≤ 0x7FF), first, last]
  rw [if_neg two, if_neg (by omega : ¬n ≤ 0x7FF)]
  by_cases three : n < 0x10000
  · have first : 0xE0 + n / 0x1000 = n / 0x1000 % 0x10 + 0xE0 := by omega
    rw [if_pos three, if_pos (by omega : n ≤ 0xFFFF), first, second, last]
  · have first : 0xF0 + n / 0x40000 = n / 0x40000 % 0x08 + 0xF0 := by omega
    rw [if_neg three, if_neg (by omega : ¬n ≤ 0xFFFF), first, third, second, last]

/-- The bytes of a text are those that the library writes. -/
theorem encodeUtf8_toList (text : String) :
    encodeUtf8 text.toList = text.toUTF8.data.toList := by
  have bytes : encodeUtf8 text.toList = text.toList.flatMap String.utf8EncodeChar :=
    congrArg (text.toList.flatMap ·) (funext encodeChar_eq_utf8EncodeChar)
  calc encodeUtf8 text.toList
      = (text.toList.flatMap String.utf8EncodeChar).toByteArray.data.toList := by
        rw [bytes, List.toList_data_toByteArray]
    _ = text.toUTF8.data.toList :=
        congrArg (·.data.toList) (String.utf8Encode_toList : text.toList.utf8Encode = _)

/-- Encoded text is decoded to itself. -/
theorem decodeUtf8_encodeUtf8 (text : List Char) : decodeUtf8 (encodeUtf8 text) = .ok text := by
  have from_index : ∀ index, decodeFrom index .between (encodeUtf8 text) = .ok text := by
    induction text with
    | nil => exact fun index => rfl
    | cons c rest ih =>
      intro index
      unfold encodeUtf8 at ih ⊢
      rw [List.flatMap_cons, decodeFrom_encodeChar, ih]
      rfl
  exact from_index 0

/-- Every character has a byte. -/
theorem encodeChar_ne_nil (c : Char) : encodeChar c ≠ [] := by
  unfold encodeChar
  dsimp only
  split_ifs <;> exact List.cons_ne_nil _ _

/-- Only the empty text has no bytes. -/
theorem encodeUtf8_eq_nil_iff {text : List Char} : encodeUtf8 text = [] ↔ text = [] := by
  constructor
  · intro h
    unfold encodeUtf8 at h
    rw [List.flatMap_eq_nil_iff] at h
    exact List.eq_nil_iff_forall_not_mem.2 fun c hc => encodeChar_ne_nil c (h c hc)
  · rintro rfl
    rfl

/-- The byte of an ASCII character stands in the bytes of no other character. -/
theorem ascii_not_mem_encodeChar {c d : Char} (ascii : d.toNat < 0x80) (h : c ≠ d) :
    UInt8.ofNat d.toNat ∉ encodeChar c := by
  have scalar := toNat_scalar c
  have apart : c.toNat ≠ d.toNat := by
    intro same
    exact h (by rw [← Char.ofNat_toNat c, same, Char.ofNat_toNat])
  have differs : ∀ {n : ℕ}, n ≠ d.toNat → n < 0x100 → UInt8.ofNat d.toNat ≠ UInt8.ofNat n := by
    intro n other small same
    have values := congrArg UInt8.toNat same
    rw [toNat_byte small, toNat_byte (by omega)] at values
    exact other values.symm
  unfold encodeChar
  dsimp only
  split_ifs <;> simp only [List.mem_cons, List.not_mem_nil, or_false, not_or]
  · exact differs apart (by omega)
  · exact ⟨differs (by omega) (by omega), differs (by omega) (by omega)⟩
  · exact ⟨differs (by omega) (by omega), differs (by omega) (by omega),
      differs (by omega) (by omega)⟩
  · exact ⟨differs (by omega) (by omega), differs (by omega) (by omega),
      differs (by omega) (by omega), differs (by omega) (by omega)⟩

/-- A text without an ASCII character is written without its byte. -/
theorem ascii_not_mem_encodeUtf8 {text : List Char} {d : Char} (ascii : d.toNat < 0x80)
    (h : d ∉ text) : UInt8.ofNat d.toNat ∉ encodeUtf8 text := by
  unfold encodeUtf8
  rw [List.mem_flatMap]
  rintro ⟨c, hc, byte⟩
  refine ascii_not_mem_encodeChar ascii ?_ byte
  rintro rfl
  exact h hc

/-- A text without a zero character has no zero byte. -/
theorem zero_not_mem_encodeUtf8 {text : List Char} (h : Char.ofNat 0 ∉ text) :
    (0 : UInt8) ∉ encodeUtf8 text :=
  ascii_not_mem_encodeUtf8 (by decide : (Char.ofNat 0).toNat < 0x80) h

end CodeDelta.Text
