import CodeDelta.Proofs.Text.Utf8

/-!
# Bytes that need not be text

A character of several bytes is no ASCII character, whatever the bytes are, since no sequence may be
longer than its number needs (`Utf8State.IsLong`). So an ASCII character is decoded from its own
byte only, also where replacement characters stand for what is no UTF-8
(`mem_of_mem_decodeLossy`), and some character is decoded from any bytes (`decodeLossy_ne_nil`).
-/

namespace CodeDelta.Text

variable {bytes rest : List UInt8} {text : List Char} {c : Char} {state : Utf8State} {index : ℕ}

/-- What is under way is no ASCII character: with the least byte that may come next its number needs
more than seven bits. -/
def Utf8State.IsLong : Utf8State → Prop
  | .between => True
  | .inside _ _ missing least greatest value =>
    (missing ≤ 1 → 2 ≤ value) ∧ 2 ≤ value * 0x40 + (least - 0x80) ∧ 0x80 ≤ least ∧ greatest ≤ 0xBF

/-- Between characters nothing is under way. -/
theorem isLong_between : Utf8State.between.IsLong := trivial

/-- A leading byte of several starts no ASCII character. -/
theorem isLong_of_continuation? {n count least greatest : ℕ}
    (opens : continuation? n = some (count + 1, least, greatest)) :
    (Utf8State.inside index 1 (count + 1) least greatest (leadingBits (count + 1) n)).IsLong := by
  unfold continuation? at opens
  split_ifs at opens
  all_goals
    obtain ⟨same, bounds⟩ := Prod.mk.inj (Option.some.inj opens)
    obtain ⟨rfl, rfl⟩ := Prod.mk.inj bounds
    rw [← same]
    simp only [Utf8State.IsLong, leadingBits]
    omega

/-- Nor does what goes on from one. -/
theorem isLong_next {start taken missing least greatest value b : ℕ}
    (long : (Utf8State.inside start taken missing least greatest value).IsLong)
    (above : least ≤ b) (below : b ≤ greatest) :
    (Utf8State.inside start (taken + 1) (missing - 1) 0x80 0xBF
      (value * 0x40 + b % 0x40)).IsLong := by
  obtain ⟨-, needed, low, high⟩ := long
  have payload : b % 0x40 = b - 0x80 := by omega
  rw [payload]
  exact ⟨fun _ => by omega, by omega, Nat.le_refl _, Nat.le_refl _⟩

/-- What is decoded after a character. -/
theorem exists_of_map_cons {later : Except Utf8Fault (List Char)}
    (h : later.map (c :: ·) = .ok text) : ∃ more, later = .ok more ∧ text = c :: more := by
  cases later with
  | error fault => cases h
  | ok more => exact ⟨more, rfl, (Except.ok.inj h).symm⟩

/-- The first byte of what is decoded between characters, and then the rest of it. -/
theorem decodeFrom_between_cons {byte : UInt8}
    (decoded : decodeFrom index .between (byte :: rest) = .ok text) :
    (∃ more, decodeFrom (index + 1) .between rest = .ok more ∧
        text = Char.ofNat byte.toNat :: more) ∨
      ∃ state : Utf8State, state ≠ .between ∧ state.IsLong ∧
        decodeFrom (index + 1) state rest = .ok text := by
  rw [decodeFrom] at decoded
  split at decoded
  · cases decoded
  · exact Or.inl (exists_of_map_cons decoded)
  · next opens =>
    exact Or.inr ⟨_, Utf8State.noConfusion, isLong_of_continuation? opens, decoded⟩

/-- The next byte of what is decoded inside a character, and then the rest of it. -/
theorem decodeFrom_inside_cons {start taken missing least greatest value : ℕ} {byte : UInt8}
    (long : (Utf8State.inside start taken missing least greatest value).IsLong)
    (decoded : decodeFrom index (.inside start taken missing least greatest value) (byte :: rest) =
      .ok text) :
    (∃ number more, 0x80 ≤ number ∧ decodeFrom (index + 1) .between rest = .ok more ∧
        text = Char.ofNat number :: more) ∨
      ∃ state : Utf8State, state ≠ .between ∧ state.IsLong ∧
        decodeFrom (index + 1) state rest = .ok text := by
  rw [decodeFrom] at decoded
  dsimp only at decoded
  split_ifs at decoded with outside last
  · obtain ⟨more, later, whole⟩ := exists_of_map_cons decoded
    have needed : 2 ≤ value := long.1 last
    exact Or.inl ⟨_, more, by omega, later, whole⟩
  · exact Or.inr ⟨_, Utf8State.noConfusion, isLong_next long (by omega) (by omega), decoded⟩

/-- Some character is decoded from bytes, and from what is under way. -/
theorem ne_nil_of_decodeFrom (long : state.IsLong) (some_ : state ≠ .between ∨ bytes ≠ [])
    (decoded : decodeFrom index state bytes = .ok text) : text ≠ [] := by
  induction bytes generalizing index state text with
  | nil =>
    cases state with
    | between => exact absurd rfl (some_.resolve_left (absurd rfl))
    | inside => cases decoded
  | cons byte rest ih =>
    cases state with
    | between =>
      rcases decodeFrom_between_cons decoded with ⟨more, -, rfl⟩ | ⟨state, under, long, later⟩
      · exact List.cons_ne_nil _ more
      · exact ih long (Or.inl under) later
    | inside =>
      rcases decodeFrom_inside_cons long decoded with
        ⟨-, more, -, -, rfl⟩ | ⟨state, under, long, later⟩
      · exact List.cons_ne_nil _ more
      · exact ih long (Or.inl under) later

/-- The number that a character is made from is its own. -/
theorem toNat_ofNat_of_valid {n : ℕ} (valid : n.isValidChar) : (Char.ofNat n).toNat = n := by
  rw [Char.ofNat, dif_pos valid]
  rfl

/-- What is made from the number of no character is zero. -/
theorem toNat_ofNat_of_not_valid {n : ℕ} (invalid : ¬n.isValidChar) : (Char.ofNat n).toNat = 0 := by
  rw [Char.ofNat, dif_neg invalid]
  rfl

/-- An ASCII character but zero is decoded from its own byte. -/
theorem mem_of_mem_decodeFrom (long : state.IsLong)
    (decoded : decodeFrom index state bytes = .ok text) (ascii : c.toNat < 0x80)
    (zero : c.toNat ≠ 0) (inside : c ∈ text) : UInt8.ofNat c.toNat ∈ bytes := by
  induction bytes generalizing index state text with
  | nil =>
    cases state with
    | between =>
      obtain rfl := Except.ok.inj decoded
      exact absurd inside List.not_mem_nil
    | inside => cases decoded
  | cons byte rest ih =>
    cases state with
    | between =>
      rcases decodeFrom_between_cons decoded with ⟨more, later, rfl⟩ | ⟨state, -, long, later⟩
      · rcases List.mem_cons.1 inside with rfl | inside
        · have valid : byte.toNat.isValidChar := Or.inl (Nat.lt_trans byte.toNat_lt (by decide))
          have number : (Char.ofNat byte.toNat).toNat = byte.toNat := by
            rw [Char.ofNat, dif_pos valid]
            rfl
          rw [number, UInt8.ofNat_toNat]
          exact List.mem_cons_self
        · exact List.mem_cons_of_mem byte (ih isLong_between later inside)
      · exact List.mem_cons_of_mem byte (ih long later inside)
    | inside =>
      rcases decodeFrom_inside_cons long decoded with
        ⟨number, more, large, later, rfl⟩ | ⟨state, -, long, later⟩
      · rcases List.mem_cons.1 inside with rfl | inside
        · by_cases valid : number.isValidChar
          · rw [toNat_ofNat_of_valid valid] at ascii
            omega
          · exact absurd (toNat_ofNat_of_not_valid valid) zero
        · exact List.mem_cons_of_mem byte (ih isLong_between later inside)
      · exact List.mem_cons_of_mem byte (ih long later inside)

/-! ## Replacement characters -/

/-- Bytes that are not UTF-8 are decoded up to a replacement character, and from there on. -/
theorem decodeLossyFrom_of_error {rounds : ℕ} {fault : Utf8Fault}
    (refused : decodeUtf8 bytes = .error fault) :
    ∃ valid next, decodeLossyFrom (rounds + 1) bytes =
      (decodeUtf8 (bytes.take valid)).toOption.getD [] ++
        Char.ofNat 0xFFFD :: decodeLossyFrom rounds (bytes.drop next) := by
  rw [decodeLossyFrom, refused]
  cases fault <;> exact ⟨_, _, rfl⟩

/-- An ASCII character but zero stands for its own byte, whatever is no UTF-8. -/
theorem mem_of_mem_decodeLossyFrom {rounds : ℕ} (ascii : c.toNat < 0x80) (zero : c.toNat ≠ 0)
    (inside : c ∈ decodeLossyFrom rounds bytes) : UInt8.ofNat c.toNat ∈ bytes := by
  induction rounds generalizing bytes with
  | zero => exact absurd inside List.not_mem_nil
  | succ rounds ih =>
    have told {part : List UInt8} {text : List Char} (decoded : decodeUtf8 part = .ok text)
        (h : c ∈ text) : UInt8.ofNat c.toNat ∈ part :=
      mem_of_mem_decodeFrom isLong_between decoded ascii zero h
    cases read : decodeUtf8 bytes with
    | ok text =>
      rw [decodeLossyFrom, read] at inside
      exact told read inside
    | error fault =>
      obtain ⟨valid, next, whole⟩ := decodeLossyFrom_of_error read
      rw [whole, List.mem_append, List.mem_cons] at inside
      rcases inside with before | rfl | after
      · cases start : decodeUtf8 (bytes.take valid) with
        | ok text =>
          rw [start] at before
          exact List.mem_of_mem_take (told start before)
        | error fault =>
          rw [start] at before
          exact absurd before List.not_mem_nil
      · exact absurd ascii (by decide)
      · exact List.mem_of_mem_drop (ih after)

/-- An ASCII character but zero stands for its own byte. -/
theorem mem_of_mem_decodeLossy (ascii : c.toNat < 0x80) (zero : c.toNat ≠ 0)
    (inside : c ∈ decodeLossy bytes) : UInt8.ofNat c.toNat ∈ bytes :=
  mem_of_mem_decodeLossyFrom ascii zero inside

/-- Some character stands for bytes. -/
theorem decodeLossy_ne_nil (some_ : bytes ≠ []) : decodeLossy bytes ≠ [] := by
  unfold decodeLossy
  cases read : decodeUtf8 bytes with
  | ok text =>
    rw [decodeLossyFrom, read]
    exact ne_nil_of_decodeFrom isLong_between (Or.inr some_) read
  | error fault =>
    obtain ⟨valid, next, whole⟩ := decodeLossyFrom_of_error read
    rw [whole]
    exact List.append_ne_nil_of_right_ne_nil _ (List.cons_ne_nil _ _)

/-- Text is decoded to itself. -/
theorem decodeLossy_encodeUtf8 (text : List Char) : decodeLossy (encodeUtf8 text) = text := by
  unfold decodeLossy
  rw [decodeLossyFrom, decodeUtf8_encodeUtf8]

end CodeDelta.Text
