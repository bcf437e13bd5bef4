import OneShot.Proofs.Http.Escapes

/-!
# Decoding

The bytes of a text are read back as that text, and no other bytes are read.  A character is
written as a sequence of one to four bytes, whose shapes are spelled out once: the decoder takes
each sequence as its character, and whatever it takes without a break is made of such sequences.
-/

namespace OneShot.Text

/-! ## Sequences -/

theorem val_ofNat {code : Nat} (hvalid : code.isValidChar) :
    (Char.ofNat code).val.toNat = code := by
  rw [Char.ofNat, dif_pos hvalid]
  exact UInt32.toNat_ofNatLT ..

theorem ofNat_toNat_of_eq {n : Nat} {byte : UInt8} (h : n = byte.toNat) :
    UInt8.ofNat n = byte := by
  rw [h, UInt8.ofNat_toNat]

/-- A byte that goes on with a character. -/
def IsTail (byte : UInt8) : Prop :=
  0x80 ≤ byte.toNat ∧ byte.toNat ≤ 0xBF

section Sequences

variable {first second third fourth : UInt8}

theorem encode_two (hfirst : 0xC2 ≤ first.toNat ∧ first.toNat ≤ 0xDF) (hsecond : IsTail second) :
    String.utf8EncodeChar (Char.ofNat (64 * (first.toNat - 0xC0) + (second.toNat - 0x80))) =
      [first, second] := by
  obtain ⟨hlow, hhigh⟩ := hsecond
  rw [String.utf8EncodeChar, val_ofNat (Or.inl (by omega)), if_neg (by omega),
    if_pos (by omega)]
  simp only [List.cons.injEq, and_true]
  exact ⟨ofNat_toNat_of_eq (by omega), ofNat_toNat_of_eq (by omega)⟩

theorem encode_three (hfirst : 0xE0 ≤ first.toNat ∧ first.toNat ≤ 0xEF) (hsecond : IsTail second)
    (hlong : first.toNat = 0xE0 → 0xA0 ≤ second.toNat)
    (hsurrogate : first.toNat = 0xED → second.toNat ≤ 0x9F) (hthird : IsTail third) :
    String.utf8EncodeChar (Char.ofNat (64 * (64 * (first.toNat - 0xE0) + (second.toNat - 0x80)) +
        (third.toNat - 0x80))) =
      [first, second, third] := by
  obtain ⟨hlow, hhigh⟩ := hsecond
  obtain ⟨hlow', hhigh'⟩ := hthird
  have hvalid : (64 * (64 * (first.toNat - 0xE0) + (second.toNat - 0x80)) +
      (third.toNat - 0x80)).isValidChar := by
    unfold Nat.isValidChar
    omega
  rw [String.utf8EncodeChar, val_ofNat hvalid, if_neg (by omega), if_neg (by omega),
    if_pos (by omega)]
  simp only [List.cons.injEq, and_true]
  exact ⟨ofNat_toNat_of_eq (by omega), ofNat_toNat_of_eq (by omega), ofNat_toNat_of_eq (by omega)⟩

theorem encode_four (hfirst : 0xF0 ≤ first.toNat ∧ first.toNat ≤ 0xF4) (hsecond : IsTail second)
    (hlong : first.toNat = 0xF0 → 0x90 ≤ second.toNat)
    (hlarge : first.toNat = 0xF4 → second.toNat ≤ 0x8F) (hthird : IsTail third)
    (hfourth : IsTail fourth) :
    String.utf8EncodeChar (Char.ofNat (64 * (64 * (64 * (first.toNat - 0xF0) +
        (second.toNat - 0x80)) + (third.toNat - 0x80)) + (fourth.toNat - 0x80))) =
      [first, second, third, fourth] := by
  obtain ⟨hlow, hhigh⟩ := hsecond
  obtain ⟨hlow', hhigh'⟩ := hthird
  obtain ⟨hlow'', hhigh''⟩ := hfourth
  have hvalid : (64 * (64 * (64 * (first.toNat - 0xF0) + (second.toNat - 0x80)) +
      (third.toNat - 0x80)) + (fourth.toNat - 0x80)).isValidChar := by
    unfold Nat.isValidChar
    omega
  rw [String.utf8EncodeChar, val_ofNat hvalid, if_neg (by omega), if_neg (by omega),
    if_neg (by omega)]
  simp only [List.cons.injEq, and_true]
  exact ⟨ofNat_toNat_of_eq (by omega), ofNat_toNat_of_eq (by omega), ofNat_toNat_of_eq (by omega),
    ofNat_toNat_of_eq (by omega)⟩

end Sequences

/-- The sequences of bytes that stand for a character. -/
inductive Sequence : Bytes → Char → Prop
  | one {first : UInt8} (hfirst : first.toNat < 0x80) : Sequence [first] (Char.ofNat first.toNat)
  | two {first second : UInt8} (hfirst : 0xC2 ≤ first.toNat ∧ first.toNat ≤ 0xDF)
      (hsecond : IsTail second) :
      Sequence [first, second]
        (Char.ofNat (64 * (first.toNat - 0xC0) + (second.toNat - 0x80)))
  | three {first second third : UInt8} (hfirst : 0xE0 ≤ first.toNat ∧ first.toNat ≤ 0xEF)
      (hsecond : IsTail second) (hlong : first.toNat = 0xE0 → 0xA0 ≤ second.toNat)
      (hsurrogate : first.toNat = 0xED → second.toNat ≤ 0x9F) (hthird : IsTail third) :
      Sequence [first, second, third]
        (Char.ofNat (64 * (64 * (first.toNat - 0xE0) + (second.toNat - 0x80)) +
          (third.toNat - 0x80)))
  | four {first second third fourth : UInt8} (hfirst : 0xF0 ≤ first.toNat ∧ first.toNat ≤ 0xF4)
      (hsecond : IsTail second) (hlong : first.toNat = 0xF0 → 0x90 ≤ second.toNat)
      (hlarge : first.toNat = 0xF4 → second.toNat ≤ 0x8F) (hthird : IsTail third)
      (hfourth : IsTail fourth) :
      Sequence [first, second, third, fourth]
        (Char.ofNat (64 * (64 * (64 * (first.toNat - 0xF0) + (second.toNat - 0x80)) +
          (third.toNat - 0x80)) + (fourth.toNat - 0x80)))

theorem Sequence.encode {bytes : Bytes} {c : Char} (h : Sequence bytes c) :
    String.utf8EncodeChar c = bytes := by
  cases h with
  | @one first hfirst =>
      rw [String.utf8EncodeChar, val_ofNat (Or.inl (by omega)), if_pos (by omega),
        UInt8.ofNat_toNat]
  | two hfirst hsecond => exact encode_two hfirst hsecond
  | three hfirst hsecond hlong hsurrogate hthird =>
      exact encode_three hfirst hsecond hlong hsurrogate hthird
  | four hfirst hsecond hlong hlarge hthird hfourth =>
      exact encode_four hfirst hsecond hlong hlarge hthird hfourth

theorem Sequence.congr {bytes : Bytes} {c d : Char} (h : Sequence bytes c) (hcd : c = d) :
    Sequence bytes d :=
  hcd ▸ h

/-- A character is written as one of the sequences that stand for it. -/
theorem sequence_encode (c : Char) : Sequence (String.utf8EncodeChar c) c := by
  have hvalid : c.val.toNat < 0xD800 ∨ 0xDFFF < c.val.toNat ∧ c.val.toNat < 0x110000 := c.valid
  have hself : Char.ofNat c.val.toNat = c := Char.ofNat_toNat c
  have hbyte : ∀ n, n < 256 → (UInt8.ofNat n).toNat = n := fun n hn => by
    rw [UInt8.toNat_ofNat', Nat.mod_eq_of_lt hn]
  unfold String.utf8EncodeChar
  simp only
  -- the code alone decides the shape, and from its parts the code is put together again
  generalize hcode : c.val.toNat = code at hvalid hself
  split
  next =>
    have hfirst := hbyte code (by omega)
    refine (Sequence.one ?_).congr ?_ <;> rw [hfirst]
    · omega
    · exact hself
  split
  next =>
    have hfirst := hbyte (code / 64 % 32 + 192) (by omega)
    have hsecond := hbyte (code % 64 + 128) (by omega)
    refine (Sequence.two ?_ ?_).congr ?_
    · omega
    · exact ⟨by omega, by omega⟩
    · exact (congrArg Char.ofNat (by omega)).trans hself
  split
  next =>
    have hfirst := hbyte (code / 4096 % 16 + 224) (by omega)
    have hsecond := hbyte (code / 64 % 64 + 128) (by omega)
    have hthird := hbyte (code % 64 + 128) (by omega)
    refine (Sequence.three ?_ ?_ ?_ ?_ ?_).congr ?_
    · omega
    · exact ⟨by omega, by omega⟩
    · omega
    · omega
    · exact ⟨by omega, by omega⟩
    · exact (congrArg Char.ofNat (by omega)).trans hself
  next =>
    have hfirst := hbyte (code / 262144 % 8 + 240) (by omega)
    have hsecond := hbyte (code / 4096 % 64 + 128) (by omega)
    have hthird := hbyte (code / 64 % 64 + 128) (by omega)
    have hfourth := hbyte (code % 64 + 128) (by omega)
    refine (Sequence.four ?_ ?_ ?_ ?_ ?_ ?_).congr ?_
    · omega
    · exact ⟨by omega, by omega⟩
    · omega
    · omega
    · exact ⟨by omega, by omega⟩
    · exact ⟨by omega, by omega⟩
    · exact (congrArg Char.ofNat (by omega)).trans hself

/-! ## Pieces -/

theorem leadOf_one {byte : UInt8} (hbyte : byte.toNat < 0x80) :
    leadOf byte = .single (Char.ofNat byte.toNat) :=
  if_pos hbyte

theorem leadOf_two {byte : UInt8} (hbyte : 0xC2 ≤ byte.toNat ∧ byte.toNat ≤ 0xDF) :
    leadOf byte = .start ⟨1, 0x80, 0xBF, byte.toNat - 0xC0⟩ := by
  unfold leadOf
  rw [if_neg (by omega), if_pos hbyte]

theorem leadOf_three {byte : UInt8} (hbyte : 0xE0 ≤ byte.toNat ∧ byte.toNat ≤ 0xEF) :
    leadOf byte = .start ⟨2, if byte.toNat = 0xE0 then 0xA0 else 0x80,
      if byte.toNat = 0xED then 0x9F else 0xBF, byte.toNat - 0xE0⟩ := by
  unfold leadOf
  grind

theorem leadOf_four {byte : UInt8} (hbyte : 0xF0 ≤ byte.toNat ∧ byte.toNat ≤ 0xF4) :
    leadOf byte = .start ⟨3, if byte.toNat = 0xF0 then 0x90 else 0x80,
      if byte.toNat = 0xF4 then 0x8F else 0xBF, byte.toNat - 0xF0⟩ := by
  unfold leadOf
  grind

theorem leadOf_broken {byte : UInt8}
    (hbyte : 0x80 ≤ byte.toNat ∧ byte.toNat < 0xC2 ∨ 0xF4 < byte.toNat) :
    leadOf byte = .broken := by
  unfold leadOf
  grind

theorem Pending.accepts_iff (pending : Pending) (byte : UInt8) :
    pending.accepts byte = true ↔ pending.lower ≤ byte.toNat ∧ byte.toNat ≤ pending.upper := by
  simp [accepts]

theorem IsTail.accepts {byte : UInt8} (h : IsTail byte) (needed code : Nat) :
    (⟨needed, 0x80, 0xBF, code⟩ : Pending).accepts byte = true :=
  (Pending.accepts_iff _ _).mpr h

/-- The bounds of a second byte, which depend on the first one. -/
theorem accepts_second_iff (needed code : Nat) {first second : UInt8}
    {long limit least most : Nat} (hleast : 0x80 ≤ least) (hmost : most ≤ 0xBF) :
    (⟨needed, if first.toNat = long then least else 0x80,
        if first.toNat = limit then most else 0xBF, code⟩ : Pending).accepts second = true ↔
      IsTail second ∧ (first.toNat = long → least ≤ second.toNat) ∧
        (first.toNat = limit → second.toNat ≤ most) := by
  rw [Pending.accepts_iff, IsTail]
  grind

section Pieces

variable {byte : UInt8} {rest : Bytes} {pending : Pending}

theorem utf8Pieces_start (hlead : leadOf byte = .start pending) :
    utf8Pieces none (byte :: rest) = utf8Pieces (some pending) rest := by
  rw [utf8Pieces, hlead]

theorem utf8Pieces_next (haccepts : pending.accepts byte = true) (hneeded : 1 < pending.needed) :
    utf8Pieces (some pending) (byte :: rest) =
      utf8Pieces (some ⟨pending.needed - 1, 0x80, 0xBF, pending.grow byte⟩) rest := by
  rw [utf8Pieces, if_pos haccepts]
  exact if_neg (Nat.not_le.mpr hneeded)

theorem utf8Pieces_last (haccepts : pending.accepts byte = true) (hneeded : pending.needed ≤ 1) :
    utf8Pieces (some pending) (byte :: rest) =
      some (Char.ofNat (pending.grow byte)) :: utf8Pieces none rest := by
  rw [utf8Pieces, if_pos haccepts]
  exact if_pos hneeded

/-- What is pending goes on with a byte that is accepted, unless something is broken. -/
theorem exists_accepted {bytes : Bytes} (hwhole : none ∉ utf8Pieces (some pending) bytes) :
    ∃ byte rest, bytes = byte :: rest ∧ pending.accepts byte = true := by
  cases bytes with
  | nil => simp [utf8Pieces] at hwhole
  | cons byte rest =>
      rw [utf8Pieces] at hwhole
      split at hwhole
      next haccepts => exact ⟨byte, rest, rfl, haccepts⟩
      next => split at hwhole <;> simp at hwhole

end Pieces

/-- A sequence is read as its character, and what follows is not touched. -/
theorem Sequence.pieces_append {bytes : Bytes} {c : Char} (h : Sequence bytes c) (rest : Bytes) :
    utf8Pieces none (bytes ++ rest) = some c :: utf8Pieces none rest := by
  cases h with
  | one hfirst => rw [List.singleton_append, utf8Pieces, leadOf_one hfirst]
  | @two first second hfirst hsecond =>
      change utf8Pieces none (first :: second :: rest) = _
      rw [utf8Pieces_start (leadOf_two hfirst)]
      exact utf8Pieces_last (hsecond.accepts 1 _) le_rfl
  | @three first second third hfirst hsecond hlong hsurrogate hthird =>
      have haccepts := (accepts_second_iff 2 (first.toNat - 0xE0) (by decide) (by decide)).mpr
        ⟨hsecond, hlong, hsurrogate⟩
      change utf8Pieces none (first :: second :: third :: rest) = _
      rw [utf8Pieces_start (leadOf_three hfirst), utf8Pieces_next haccepts (by decide : 1 < 2)]
      exact utf8Pieces_last (hthird.accepts 1 _) le_rfl
  | @four first second third fourth hfirst hsecond hlong hlarge hthird hfourth =>
      have haccepts := (accepts_second_iff 3 (first.toNat - 0xF0) (by decide) (by decide)).mpr
        ⟨hsecond, hlong, hlarge⟩
      change utf8Pieces none (first :: second :: third :: fourth :: rest) = _
      rw [utf8Pieces_start (leadOf_four hfirst), utf8Pieces_next haccepts (by decide : 1 < 3)]
      exact (utf8Pieces_next (hthird.accepts 2 _) (by decide : 1 < 2)).trans
        (utf8Pieces_last (hfourth.accepts 1 _) le_rfl)

/-- Unless something is broken, a sequence stands in front. -/
theorem exists_sequence {first : UInt8} {bytes : Bytes}
    (hwhole : none ∉ utf8Pieces none (first :: bytes)) :
    ∃ spelled c rest, Sequence spelled c ∧ first :: bytes = spelled ++ rest := by
  rcases Nat.lt_or_ge first.toNat 0x80 with hone | hmany
  · exact ⟨[first], _, bytes, .one hone, rfl⟩
  by_cases htwo : 0xC2 ≤ first.toNat ∧ first.toNat ≤ 0xDF
  · rw [utf8Pieces_start (leadOf_two htwo)] at hwhole
    obtain ⟨second, rest, rfl, hsecond⟩ := exists_accepted hwhole
    exact ⟨[first, second], _, rest, .two htwo ((Pending.accepts_iff _ _).mp hsecond), rfl⟩
  by_cases hthree : 0xE0 ≤ first.toNat ∧ first.toNat ≤ 0xEF
  · rw [utf8Pieces_start (leadOf_three hthree)] at hwhole
    obtain ⟨second, rest, rfl, hsecond⟩ := exists_accepted hwhole
    rw [utf8Pieces_next hsecond (by decide : 1 < 2)] at hwhole
    obtain ⟨third, rest, rfl, hthird⟩ := exists_accepted hwhole
    obtain ⟨htail, hlong, hsurrogate⟩ :=
      (accepts_second_iff _ _ (by decide) (by decide)).mp hsecond
    exact ⟨[first, second, third], _, rest, .three hthree htail hlong hsurrogate
      ((Pending.accepts_iff _ _).mp hthird), rfl⟩
  by_cases hfour : 0xF0 ≤ first.toNat ∧ first.toNat ≤ 0xF4
  · rw [utf8Pieces_start (leadOf_four hfour)] at hwhole
    obtain ⟨second, rest, rfl, hsecond⟩ := exists_accepted hwhole
    rw [utf8Pieces_next hsecond (by decide : 1 < 3)] at hwhole
    obtain ⟨third, rest, rfl, hthird⟩ := exists_accepted hwhole
    rw [utf8Pieces_next hthird (by decide : 1 < 2)] at hwhole
    obtain ⟨fourth, rest, rfl, hfourth⟩ := exists_accepted hwhole
    obtain ⟨htail, hlong, hlarge⟩ := (accepts_second_iff _ _ (by decide) (by decide)).mp hsecond
    exact ⟨[first, second, third, fourth], _, rest, .four hfour htail hlong hlarge
      ((Pending.accepts_iff _ _).mp hthird) ((Pending.accepts_iff _ _).mp hfourth), rfl⟩
  · rw [utf8Pieces, leadOf_broken (by omega)] at hwhole
    simp at hwhole

/-! ## Texts -/

theorem utf8Pieces_encode (chars : List Char) :
    utf8Pieces none (chars.flatMap String.utf8EncodeChar) = chars.map some := by
  induction chars with
  | nil => rfl
  | cons c rest ih =>
      rw [List.flatMap_cons, (sequence_encode c).pieces_append, ih]
      rfl

theorem encode_of_utf8Pieces {chars : List Char} {bytes : Bytes}
    (hpieces : utf8Pieces none bytes = chars.map some) :
    chars.flatMap String.utf8EncodeChar = bytes := by
  induction chars generalizing bytes with
  | nil =>
      cases bytes with
      | nil => rfl
      | cons first bytes =>
          have hwhole : none ∉ utf8Pieces none (first :: bytes) := by simp [hpieces]
          obtain ⟨spelled, c, rest, hspelled, hbytes⟩ := exists_sequence hwhole
          rw [hbytes, hspelled.pieces_append] at hpieces
          cases hpieces
  | cons c chars ih =>
      cases bytes with
      | nil => cases hpieces
      | cons first bytes =>
          have hwhole : none ∉ utf8Pieces none (first :: bytes) := by simp [hpieces]
          obtain ⟨spelled, d, rest, hspelled, hbytes⟩ := exists_sequence hwhole
          rw [hbytes, hspelled.pieces_append, List.map_cons] at hpieces
          injection hpieces with hc hpieces
          cases hc
          rw [hbytes, List.flatMap_cons, hspelled.encode, ih hpieces]

theorem mapM_id_eq_some_iff {α : Type} {pieces : List (Option α)} {items : List α} :
    pieces.mapM id = some items ↔ pieces = items.map some := by
  induction pieces generalizing items with
  | nil => cases items <;> simp
  | cons piece rest ih =>
      rw [List.mapM_cons]
      cases piece with
      | none => cases items <;> simp
      | some item => cases items <;> simp [Option.bind_eq_some_iff, ih, and_comm]

/-- Bytes are decoded as the text that they encode. -/
theorem ofUtf8?_eq_some_iff {bytes : Bytes} {text : String} :
    ofUtf8? bytes = some text ↔ utf8Bytes text = bytes := by
  rw [ofUtf8?, Option.map_eq_some_iff, utf8Bytes_eq]
  constructor
  · rintro ⟨chars, hchars, rfl⟩
    rw [String.toList_ofList]
    exact encode_of_utf8Pieces (mapM_id_eq_some_iff.mp hchars)
  · intro hbytes
    refine ⟨text.toList, mapM_id_eq_some_iff.mpr ?_, String.ofList_toList⟩
    rw [← hbytes, utf8Pieces_encode]

end OneShot.Text
