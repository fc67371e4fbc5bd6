import CodeDelta.Proofs.Text.Split
import CodeDelta.Proofs.Text.Utf8
import Mathlib.Logic.Basic

/-!
# Octets of a text

The octets of other characters than ASCII are not ASCII, so octets read one by one (`asOctets`) hold
an ASCII character only where the text does. They are cut at such a character exactly where the text
is cut (`splitOnChar_asOctets`), and tell texts apart (`asOctets_injective`).
-/

namespace CodeDelta.Text

/-- The octets of a text, each read as a character of its own. -/
def asOctets (text : List Char) : List Char := octets (encodeUtf8 text)

/-- The octets of a text are those of its parts. -/
theorem asOctets_append (before after : List Char) :
    asOctets (before ++ after) = asOctets before ++ asOctets after := by
  unfold asOctets octets encodeUtf8
  rw [List.flatMap_append, List.map_append]

/-- The octets of the first character come first. -/
theorem asOctets_cons (c : Char) (rest : List Char) :
    asOctets (c :: rest) = asOctets [c] ++ asOctets rest := asOctets_append [c] rest

/-- The characters of one octet. -/
def IsAscii (c : Char) : Prop := c.toNat < 0x80

instance (c : Char) : Decidable (IsAscii c) := inferInstanceAs (Decidable (_ < _))

/-- An ASCII character is its own octet. -/
theorem asOctets_ascii {c : Char} (h : IsAscii c) : asOctets [c] = [c] := by
  have one : encodeChar c = [UInt8.ofNat c.toNat] := if_pos h
  have self : (UInt8.ofNat c.toNat).toNat = c.toNat := toNat_byte (Nat.lt_trans h (by decide))
  unfold asOctets octets encodeUtf8
  rw [List.flatMap_singleton, one, List.map_singleton, self, Char.ofNat_toNat]

/-- The number of a character made from an octet. -/
theorem toNat_ofNat_octet {n : ℕ} (h : n < 0x100) :
    (Char.ofNat (UInt8.ofNat n).toNat).toNat = n := by
  have valid : n.isValidChar := Or.inl (Nat.lt_trans h (by decide))
  rw [toNat_byte h, Char.ofNat, dif_pos valid]
  rfl

/-- The octets of other characters are not ASCII. -/
theorem not_isAscii_of_mem_asOctets {c d : Char} (h : ¬IsAscii c) (hd : d ∈ asOctets [c]) :
    ¬IsAscii d := by
  have scalar := toNat_scalar c
  have high : ∀ {n : ℕ}, 0x80 ≤ n → n < 0x100 → ¬IsAscii (Char.ofNat (UInt8.ofNat n).toNat) := by
    intro n above below
    unfold IsAscii
    rw [toNat_ofNat_octet below]
    omega
  unfold IsAscii at h
  unfold asOctets octets encodeUtf8 at hd
  rw [List.flatMap_singleton] at hd
  unfold encodeChar at hd
  dsimp only at hd
  rw [if_neg h] at hd
  split_ifs at hd <;>
    simp only [List.map_cons, List.map_nil, List.mem_cons, List.not_mem_nil, or_false] at hd
  · rcases hd with rfl | rfl
    · exact high (by omega) (by omega)
    · exact high (by omega) (by omega)
  · rcases hd with rfl | rfl | rfl
    · exact high (by omega) (by omega)
    · exact high (by omega) (by omega)
    · exact high (by omega) (by omega)
  · rcases hd with rfl | rfl | rfl | rfl
    · exact high (by omega) (by omega)
    · exact high (by omega) (by omega)
    · exact high (by omega) (by omega)
    · exact high (by omega) (by omega)

/-- An ASCII character stands in front of the octets of the rest. -/
theorem asOctets_cons_ascii {c : Char} (h : IsAscii c) (rest : List Char) :
    asOctets (c :: rest) = c :: asOctets rest := by
  rw [asOctets_cons, asOctets_ascii h, List.singleton_append]

/-- Only the empty text has no octets. -/
theorem asOctets_eq_nil_iff {text : List Char} : asOctets text = [] ↔ text = [] := by
  unfold asOctets octets
  rw [List.map_eq_nil_iff, encodeUtf8_eq_nil_iff]

/-- Every character has an octet. -/
theorem asOctets_singleton_ne_nil (c : Char) : asOctets [c] ≠ [] :=
  mt asOctets_eq_nil_iff.1 (List.cons_ne_nil c [])

/-- The octets of a text start with one of its first character. -/
theorem exists_first_octet (c : Char) (rest : List Char) :
    ∃ d ∈ asOctets [c], ∃ more, asOctets (c :: rest) = d :: more := by
  obtain ⟨d, more, octets⟩ := List.exists_cons_of_ne_nil (asOctets_singleton_ne_nil c)
  refine ⟨d, octets ▸ List.mem_cons_self, more ++ asOctets rest, ?_⟩
  rw [asOctets_cons, octets, List.cons_append]

/-- An ASCII character is among the octets of the texts that have it. -/
theorem mem_asOctets_iff {mark : Char} (h : IsAscii mark) {text : List Char} :
    mark ∈ asOctets text ↔ mark ∈ text := by
  induction text with
  | nil => exact Iff.rfl
  | cons c rest ih =>
    rw [asOctets_cons, List.mem_append, List.mem_cons, ih]
    refine or_congr_left ?_
    by_cases ascii : IsAscii c
    · rw [asOctets_ascii ascii, List.mem_singleton]
    · refine iff_of_false (fun hm => not_isAscii_of_mem_asOctets ascii hm h) ?_
      rintro rfl
      exact ascii h

/-- A text starts as its octets do, as far as that is ASCII. -/
theorem isPrefix_asOctets_iff {lead : List Char} (h : ∀ c ∈ lead, IsAscii c) {text : List Char} :
    lead <+: asOctets text ↔ lead <+: text := by
  induction lead generalizing text with
  | nil => exact iff_of_true List.nil_prefix List.nil_prefix
  | cons a lead ih =>
    have ha : IsAscii a := h a List.mem_cons_self
    cases text with
    | nil => exact Iff.rfl
    | cons c rest =>
      by_cases ascii : IsAscii c
      · rw [asOctets_cons_ascii ascii, List.cons_prefix_cons, List.cons_prefix_cons,
          ih fun d hd => h d (List.mem_cons_of_mem a hd)]
      · refine iff_of_false (fun starts => ?_) fun starts => ?_
        · obtain ⟨d, hd, more, octets⟩ := exists_first_octet c rest
          rw [octets, List.cons_prefix_cons] at starts
          exact not_isAscii_of_mem_asOctets ascii hd (starts.1 ▸ ha)
        · exact ascii ((List.cons_prefix_cons.1 starts).1 ▸ ha)

/-! ## Octets and bytes -/

/-- Octets are read back as their bytes. -/
theorem ofOctets_octets (bytes : List UInt8) : ofOctets (octets bytes) = bytes := by
  have back : ∀ byte : UInt8, UInt8.ofNat (Char.ofNat byte.toNat).toNat = byte := by
    intro byte
    have small : byte.toNat < 0x100 := byte.toNat_lt
    have same : UInt8.ofNat byte.toNat = byte := UInt8.ofNat_toNat
    have number := toNat_ofNat_octet small
    rw [same] at number
    rw [number, same]
  unfold ofOctets octets
  rw [List.map_map]
  exact List.map_id'' back bytes

/-- Different texts have different octets. -/
theorem asOctets_injective {text other : List Char} (same : asOctets text = asOctets other) :
    text = other := by
  have bytes := congrArg ofOctets same
  unfold asOctets at bytes
  rw [ofOctets_octets, ofOctets_octets] at bytes
  have decoded := congrArg decodeUtf8 bytes
  rw [decodeUtf8_encodeUtf8, decodeUtf8_encodeUtf8] at decoded
  exact Except.ok.inj decoded

/-! ## Cuts at ASCII characters -/

/-- The octets of both parts. -/
def octetParts (parts : List Char × List Char) : List Char × List Char :=
  (asOctets parts.1, asOctets parts.2)

/-- The octets of a text are cut at its last mark. -/
theorem splitLast?_asOctets {mark : Char} (ascii : IsAscii mark) (text : List Char) :
    splitLast? mark (asOctets text) = (splitLast? mark text).map octetParts := by
  cases cut : splitLast? mark text with
  | none =>
    rw [splitLast?_eq_none_iff, ← mem_asOctets_iff ascii] at cut
    rw [Option.map_none, splitLast?_eq_none_iff]
    exact cut
  | some parts =>
    obtain ⟨before, after⟩ := parts
    obtain ⟨rfl, absent⟩ := eq_of_splitLast? cut
    rw [asOctets_append, asOctets_cons_ascii ascii,
      splitLast?_append_cons (mt (mem_asOctets_iff ascii).1 absent)]
    rfl

/-- The octets of a text are cut at its first mark. -/
theorem splitFirst?_asOctets {mark : Char} (ascii : IsAscii mark) (text : List Char) :
    splitFirst? mark (asOctets text) = (splitFirst? mark text).map octetParts := by
  cases cut : splitFirst? mark text with
  | none =>
    rw [splitFirst?_eq_none_iff, ← mem_asOctets_iff ascii] at cut
    rw [Option.map_none, splitFirst?_eq_none_iff]
    exact cut
  | some parts =>
    obtain ⟨before, after⟩ := parts
    obtain ⟨rfl, absent⟩ := eq_of_splitFirst? cut
    rw [asOctets_append, asOctets_cons_ascii ascii,
      splitFirst?_append_cons (mt (mem_asOctets_iff ascii).1 absent)]
    rfl

/-- The octets of a text are cut at all its marks. -/
theorem splitOnChar_asOctets {mark : Char} (ascii : IsAscii mark) (text : List Char) :
    splitOnChar mark (asOctets text) = (splitOnChar mark text).map asOctets := by
  rw [splitOnChar_eq_splitOn, splitOnChar_eq_splitOn]
  -- Up to the first mark there is one piece, and what follows it is a shorter text.
  by_cases inside : mark ∈ text
  · obtain ⟨before, after, cut, absent⟩ := List.eq_append_cons_of_mem inside
    have shorter : after.length < text.length := by
      rw [cut, List.length_append, List.length_cons]
      omega
    have later := splitOnChar_asOctets ascii after
    rw [splitOnChar_eq_splitOn, splitOnChar_eq_splitOn] at later
    rw [cut, asOctets_append, asOctets_cons_ascii ascii,
      List.splitOn_append_cons_self_of_not_mem absent,
      List.splitOn_append_cons_self_of_not_mem (mt (mem_asOctets_iff ascii).1 absent), later,
      List.map_cons]
  · rw [List.splitOn_eq_singleton inside,
      List.splitOn_eq_singleton (mt (mem_asOctets_iff ascii).1 inside), List.map_singleton]
termination_by text.length

end CodeDelta.Text
