import OneShot.Json.Reader
import OneShot.Json.Writer
import Mathlib.Data.List.Basic

/-!
# Reading written strings

Every string is read back from its written form, whether or not characters
beyond ASCII are escaped, and so are the arrays and the objects that hold
strings only.  A character becomes a piece that stands for itself, a code unit,
or a pair of surrogates; joining the pieces gives the characters again.
-/

namespace OneShot

namespace Text

theorem hexValue?_hexDigit {digit : Nat} (hdigit : digit < 16) :
    hexValue? (hexDigit digit) = some digit :=
  (by decide : ∀ digit < 16, hexValue? (hexDigit digit) = some digit) digit hdigit

end Text

namespace Json

open OneShot.Text

/-! ## Code units -/

theorem stringPieces_unitEscape {unit : Nat} (hunit : unit < 0x10000) (rest : List Char) :
    stringPieces (unitEscape unit ++ rest) =
      (stringPieces rest).map fun found => (.unit unit :: found.1, found.2) := by
  have hread : hexUnit? (hexDigit (unit / 16 / 16 / 16 % 16)) (hexDigit (unit / 16 / 16 % 16))
      (hexDigit (unit / 16 % 16)) (hexDigit (unit % 16)) = some unit := by
    have hdigit : ∀ n, hexValue? (hexDigit (n % 16)) = some (n % 16) :=
      fun n => hexValue?_hexDigit (Nat.mod_lt n (by decide))
    simp only [hexUnit?, hdigit, bind, Option.bind, pure]
    congr 1
    omega
  simp only [unitEscape, hexDigits, List.nil_append, List.cons_append, stringPieces, hread]

theorem code_cases (c : Char) :
    c.toNat < 0xD800 ∨ 0xDFFF < c.toNat ∧ c.toNat < 0x110000 := c.valid

theorem joinPieces_unit (c : Char) (hsmall : c.toNat < 0x10000) (pieces : List Piece) :
    joinPieces none (.unit c.toNat :: pieces) = c :: joinPieces none pieces := by
  have hcode := code_cases c
  have hleading : isLeading c.toNat = false := by
    simp only [isLeading, Bool.and_eq_false_iff, decide_eq_false_iff_not]
    omega
  have htrailing : isTrailing c.toNat = false := by
    simp only [isTrailing, Bool.and_eq_false_iff, decide_eq_false_iff_not]
    omega
  simp only [joinPieces, hleading, htrailing, Bool.false_eq_true, if_false, Char.ofNat_toNat]

theorem joinPieces_pair (c : Char) (hlarge : ¬ c.toNat < 0x10000) (pieces : List Piece) :
    joinPieces none (.unit (0xD800 + (c.toNat - 0x10000) / 0x400) ::
        .unit (0xDC00 + (c.toNat - 0x10000) % 0x400) :: pieces) =
      c :: joinPieces none pieces := by
  have hcode := code_cases c
  have hleading : isLeading (0xD800 + (c.toNat - 0x10000) / 0x400) = true := by
    simp only [isLeading, Bool.and_eq_true, decide_eq_true_eq]
    omega
  have htrailing : isTrailing (0xDC00 + (c.toNat - 0x10000) % 0x400) = true := by
    simp only [isTrailing, Bool.and_eq_true, decide_eq_true_eq]
    omega
  have hjoined : 0x10000 + (0xD800 + (c.toNat - 0x10000) / 0x400 - 0xD800) * 0x400 +
      (0xDC00 + (c.toNat - 0x10000) % 0x400 - 0xDC00) = c.toNat := by
    omega
  simp only [joinPieces, hleading, htrailing, if_true, hjoined, Char.ofNat_toNat]

/-! ## Strings -/

theorem stringPieces_plain {c : Char} (hquote : c ≠ '"') (hslash : c ≠ '\\')
    (hshown : ¬ c.toNat < 0x20) (rest : List Char) :
    stringPieces (c :: rest) =
      (stringPieces rest).map fun found => (.char c :: found.1, found.2) := by
  rw [stringPieces.eq_def]
  split
  next heq => cases heq
  next heq => exact absurd (List.cons.inj heq).1 hquote
  next heq => exact absurd (List.cons.inj heq).1 hslash
  next heq => exact absurd (List.cons.inj heq).1 hslash
  next other tail heq =>
    cases heq
    rw [if_neg]
    simp [hslash, hshown]

theorem stringPieces_letter {letter c : Char} (hletter : escapeLetter? letter = some c)
    (rest : List Char) :
    stringPieces ('\\' :: letter :: rest) =
      (stringPieces rest).map fun found => (.char c :: found.1, found.2) := by
  have hunit : letter ≠ 'u' := by
    rintro rfl
    cases hletter
  rw [stringPieces.eq_def]
  split
  next heq => cases heq
  next heq => cases heq
  next heq =>
    cases heq
    exact absurd rfl hunit
  next heq =>
    cases heq
    simp only [hletter]
  next hother heq =>
    cases heq
    exact (hother letter rest rfl rfl).elim

/-- A written character gives pieces that are joined to the character. -/
theorem stringPieces_writeChar (asciiOnly : Bool) (c : Char) :
    ∃ pieces : List Piece,
      (∀ rest, stringPieces (writeChar asciiOnly c ++ rest) =
        (stringPieces rest).map fun found => (pieces ++ found.1, found.2)) ∧
      ∀ more, joinPieces none (pieces ++ more) = c :: joinPieces none more := by
  have hletter : ∀ {letter c : Char}, escapeLetter? letter = some c →
      ∃ pieces : List Piece,
        (∀ rest, stringPieces (['\\', letter] ++ rest) =
          (stringPieces rest).map fun found => (pieces ++ found.1, found.2)) ∧
        ∀ more, joinPieces none (pieces ++ more) = c :: joinPieces none more :=
    fun {_ c} hletter => ⟨[.char c], stringPieces_letter hletter, fun _ => rfl⟩
  have hunit : c.toNat < 0x10000 →
      ∃ pieces : List Piece,
        (∀ rest, stringPieces (unitEscape c.toNat ++ rest) =
          (stringPieces rest).map fun found => (pieces ++ found.1, found.2)) ∧
        ∀ more, joinPieces none (pieces ++ more) = c :: joinPieces none more :=
    fun hsmall => ⟨[.unit c.toNat], stringPieces_unitEscape hsmall, joinPieces_unit c hsmall⟩
  unfold writeChar
  split
  next => exact hletter rfl
  next => exact hletter rfl
  next => exact hletter rfl
  next => exact hletter rfl
  next => exact hletter rfl
  next => exact hletter rfl
  next => exact hletter rfl
  next hquote hslash _ _ _ _ _ =>
    split
    next hcontrol => exact hunit (Nat.lt_trans hcontrol (by decide))
    next hshown =>
      split
      next =>
        unfold unitEscapes
        split
        next hsmall => exact hunit hsmall
        next hlarge =>
          have hcode := code_cases c
          refine ⟨[.unit (0xD800 + (c.toNat - 0x10000) / 0x400),
            .unit (0xDC00 + (c.toNat - 0x10000) % 0x400)], fun rest => ?_,
            joinPieces_pair c hlarge⟩
          rw [List.append_assoc, stringPieces_unitEscape (by omega),
            stringPieces_unitEscape (by omega), Option.map_map]
          rfl
      next =>
        exact ⟨[.char c], stringPieces_plain hquote hslash hshown, fun _ => rfl⟩

theorem stringBody_written (asciiOnly : Bool) (chars rest : List Char) :
    stringBody (chars.flatMap (writeChar asciiOnly) ++ '"' :: rest) =
      some (String.ofList chars, rest) := by
  have hpieces : ∃ pieces : List Piece,
      stringPieces (chars.flatMap (writeChar asciiOnly) ++ '"' :: rest) = some (pieces, rest) ∧
        joinPieces none pieces = chars := by
    induction chars with
    | nil => exact ⟨[], rfl, rfl⟩
    | cons c chars ih =>
        obtain ⟨later, hlater, hjoined⟩ := ih
        obtain ⟨pieces, hread, hjoin⟩ := stringPieces_writeChar asciiOnly c
        refine ⟨pieces ++ later, ?_, by rw [hjoin, hjoined]⟩
        rw [List.flatMap_cons, List.append_assoc, hread, hlater, Option.map_some]
  obtain ⟨pieces, hread, hjoined⟩ := hpieces
  rw [stringBody, hread, Option.map_some, hjoined]

theorem writeString_toList (asciiOnly : Bool) (value : String) (rest : List Char) :
    (writeString asciiOnly value).toList ++ rest =
      '"' :: (value.toList.flatMap (writeChar asciiOnly) ++ '"' :: rest) := by
  simp [writeString]

theorem stringBody_writeString (asciiOnly : Bool) (value : String) (rest : List Char) :
    stringBody (value.toList.flatMap (writeChar asciiOnly) ++ '"' :: rest) =
      some (value, rest) := by
  rw [stringBody_written, String.ofList_toList]

/-! ## Arrays and objects of strings -/

theorem readValue_string (asciiOnly : Bool) (fuel room : Nat) (value : String)
    (rest : List Char) :
    readValue (fuel + 1) room ((writeString asciiOnly value).toList ++ rest) =
      .ok (.str value, rest) := by
  rw [writeString_toList, readValue, stringBody_writeString]
  rfl

theorem skipSpace_of_visible {c : Char} (hvisible : isSpace c = false) (rest : List Char) :
    skipSpace (c :: rest) = c :: rest := by
  rw [skipSpace, List.dropWhile_cons_of_neg (by simp [hvisible])]

/-! ## Lists of texts between commas -/

/-- A text that starts with a quote. -/
def Opens (text : String) : Prop :=
  ∃ rest, text.toList = '"' :: rest

theorem opens_writeString (asciiOnly : Bool) (value : String) :
    Opens (writeString asciiOnly value) :=
  ⟨_, String.toList_ofList⟩

theorem Opens.append {text : String} (hopens : Opens text) (more : String) :
    Opens (text ++ more) := by
  obtain ⟨rest, hrest⟩ := hopens
  exact ⟨rest ++ more.toList, by rw [String.toList_append, hrest, List.cons_append]⟩

theorem toList_intercalate_cons_cons (first next : String) (texts : List String)
    (rest : List Char) :
    (", ".intercalate (first :: next :: texts)).toList ++ rest =
      first.toList ++ ',' :: ' ' :: ((", ".intercalate (next :: texts)).toList ++ rest) := by
  rw [String.intercalate_cons_cons, String.toList_append, String.toList_append,
    List.append_assoc, List.append_assoc]
  rfl

theorem Opens.intercalate {first : String} (hopens : Opens first) (texts : List String)
    (rest : List Char) :
    ∃ more, (", ".intercalate (first :: texts)).toList ++ rest = '"' :: more := by
  obtain ⟨body, hbody⟩ := hopens
  cases texts with
  | nil => exact ⟨body ++ rest, by rw [String.intercalate_singleton, hbody, List.cons_append]⟩
  | cons next texts =>
      rw [toList_intercalate_cons_cons, hbody]
      exact ⟨_, rfl⟩

theorem Opens.skipSpace_intercalate {first : String} (hopens : Opens first) (texts : List String)
    (rest : List Char) :
    skipSpace (' ' :: ((", ".intercalate (first :: texts)).toList ++ rest)) =
      (", ".intercalate (first :: texts)).toList ++ rest := by
  obtain ⟨more, hmore⟩ := hopens.intercalate texts rest
  rw [hmore]
  rfl

theorem length_le_intercalate (texts : List String) :
    texts.length ≤ (", ".intercalate texts).toList.length + 1 := by
  induction texts with
  | nil => exact Nat.zero_le _
  | cons first texts ih =>
      cases texts with
      | nil => exact Nat.le_add_left 1 _
      | cons next texts =>
          have hsplit := congrArg List.length (toList_intercalate_cons_cons first next texts [])
          simp only [List.append_nil, List.length_append, List.length_cons] at hsplit ih ⊢
          omega

/-! ## Arrays of strings -/

theorem readItems_strings (fuel room : Nat) (value : String) (values : List String)
    (rest : List Char) (hfuel : values.length + 1 < fuel) :
    readItems fuel room
        ((", ".intercalate ((value :: values).map (writeString true))).toList ++ ']' :: rest) =
      .ok ((value :: values).map .str, rest) := by
  obtain ⟨fuel, rfl⟩ : ∃ more, fuel = more + 2 := ⟨fuel - 2, by omega⟩
  induction values generalizing value fuel with
  | nil =>
      rw [List.map_singleton, String.intercalate_singleton, readItems, readValue_string]
      rfl
  | cons next values ih =>
      obtain ⟨fuel, rfl⟩ : ∃ more, fuel = more + 1 :=
        ⟨fuel - 1, by rw [List.length_cons] at hfuel; omega⟩
      have hrest := ih next fuel (by rw [List.length_cons] at hfuel; omega)
      rw [List.map_cons] at hrest
      rw [List.map_cons, List.map_cons, toList_intercalate_cons_cons, readItems, readValue_string]
      simp only [skipSpace_of_visible (show isSpace ',' = false by decide), bind, Except.bind]
      rw [(opens_writeString true next).skipSpace_intercalate, hrest]
      rfl

theorem readValue_strings (fuel room : Nat) (values : List String) (rest : List Char)
    (hfuel : values.length < fuel) :
    readValue (fuel + 1) (room + 1)
        ('[' :: ((", ".intercalate (values.map (writeString true))).toList ++ ']' :: rest)) =
      .ok (.arr (values.map .str), rest) := by
  cases values with
  | nil => rw [readValue]; rfl
  | cons value values =>
      have hitems := readItems_strings fuel room value values rest hfuel
      obtain ⟨more, hmore⟩ := (opens_writeString true value).intercalate
        (values.map (writeString true)) (']' :: rest)
      rw [List.map_cons] at hitems ⊢
      rw [hmore] at hitems ⊢
      rw [readValue, skipSpace_of_visible (by decide)]
      change (readItems fuel room ('"' :: more)).map (fun items => (Json.arr items.1, items.2)) = _
      rw [hitems]
      rfl

theorem writeItems_strings (style : Style) (values : List String) :
    writeItems style (values.map .str) = values.map (writeString style.asciiOnly) := by
  induction values with
  | nil => rfl
  | cons value values ih => simp only [List.map_cons, writeItems, write, ih]

/-- An array of strings is read back from its written form. -/
theorem read?_write_strings (values : List String) :
    read? (write .spaced (.arr (values.map .str))) = some (.arr (values.map .str)) := by
  have hwritten : (write .spaced (.arr (values.map .str))).toList =
      '[' :: ((", ".intercalate (values.map (writeString true))).toList ++ [']']) := by
    rw [write, writeItems_strings, String.toList_append, String.toList_append, List.append_assoc]
    rfl
  have hlength := length_le_intercalate (values.map (writeString true))
  rw [List.length_map] at hlength
  rw [read?, read, ofChars, hwritten, skipSpace_of_visible (by decide), usualRoom,
    readValue_strings]
  · rfl
  · rw [List.length_cons, List.length_append, List.length_singleton]
    omega

/-! ## Objects with strings as values -/

/-- The written form of a member. -/
def memberText (member : String × String) : String :=
  writeString true member.1 ++ ": " ++ writeString true member.2

def ofMember (member : String × String) : String × Json :=
  (member.1, .str member.2)

theorem opens_memberText (member : String × String) : Opens (memberText member) :=
  ((opens_writeString true member.1).append _).append _

/-- A member is read, and then what follows it. -/
theorem readMembers_memberText (fuel room : Nat) (member : String × String) (rest : List Char) :
    readMembers (fuel + 2) room ((memberText member).toList ++ rest) =
      match skipSpace rest with
      | '\x7d' :: tail => .ok ([ofMember member], tail)
      | ',' :: tail =>
          (readMembers (fuel + 1) room (skipSpace tail)).map fun members =>
            (ofMember member :: members.1, members.2)
      | _ => .error .malformed := by
  have htext : (memberText member).toList ++ rest =
      '"' :: (member.1.toList.flatMap (writeChar true) ++
        '"' :: ':' :: ' ' :: ((writeString true member.2).toList ++ rest)) := by
    simp [memberText, writeString]
  have hblank : skipSpace (' ' :: ((writeString true member.2).toList ++ rest)) =
      (writeString true member.2).toList ++ rest := by
    rw [writeString_toList]
    rfl
  rw [htext, readMembers, stringBody_writeString]
  simp only [wellFormed, bind, Except.bind,
    skipSpace_of_visible (show isSpace ':' = false by decide), hblank, readValue_string]
  rfl

theorem readMembers_strings (fuel room : Nat) (member : String × String)
    (members : List (String × String)) (rest : List Char) (hfuel : members.length + 1 < fuel) :
    readMembers fuel room
        ((", ".intercalate ((member :: members).map memberText)).toList ++ '\x7d' :: rest) =
      .ok ((member :: members).map ofMember, rest) := by
  obtain ⟨fuel, rfl⟩ : ∃ more, fuel = more + 2 := ⟨fuel - 2, by omega⟩
  induction members generalizing member fuel with
  | nil =>
      rw [List.map_singleton, String.intercalate_singleton, readMembers_memberText]
      rfl
  | cons next members ih =>
      obtain ⟨fuel, rfl⟩ : ∃ more, fuel = more + 1 :=
        ⟨fuel - 1, by rw [List.length_cons] at hfuel; omega⟩
      have hrest := ih next fuel (by rw [List.length_cons] at hfuel; omega)
      rw [List.map_cons] at hrest
      rw [List.map_cons, List.map_cons, toList_intercalate_cons_cons, readMembers_memberText]
      simp only [skipSpace_of_visible (show isSpace ',' = false by decide)]
      rw [(opens_memberText next).skipSpace_intercalate, hrest]
      rfl

theorem readValue_members (fuel room : Nat) (members : List (String × String))
    (rest : List Char) (hfuel : members.length < fuel) :
    readValue (fuel + 1) (room + 1)
        ('\x7b' :: ((", ".intercalate (members.map memberText)).toList ++ '\x7d' :: rest)) =
      .ok (.obj (Assoc.ofList (members.map ofMember)), rest) := by
  cases members with
  | nil => rw [readValue]; rfl
  | cons member members =>
      have hmembers := readMembers_strings fuel room member members rest hfuel
      obtain ⟨more, hmore⟩ := (opens_memberText member).intercalate
        (members.map memberText) ('\x7d' :: rest)
      rw [List.map_cons] at hmembers ⊢
      rw [hmore] at hmembers ⊢
      rw [readValue, skipSpace_of_visible (by decide)]
      change (readMembers fuel room ('"' :: more)).map
        (fun members => (Json.obj (Assoc.ofList members.1), members.2)) = _
      rw [hmembers]
      rfl

theorem writeMembers_strings (members : List (String × String)) :
    writeMembers .spaced (members.map ofMember) = members.map memberText := by
  induction members with
  | nil => rfl
  | cons member members ih =>
      simp only [List.map_cons, ofMember, writeMembers, write, memberText] at ih ⊢
      rw [ih]
      rfl

/-- An object with strings as values is read back from its written form; of
members with the same name the last counts. -/
theorem read?_write_members (members : List (String × String)) :
    read? (write .spaced (.obj (members.map ofMember))) =
      some (.obj (Assoc.ofList (members.map ofMember))) := by
  have hwritten : (write .spaced (.obj (members.map ofMember))).toList =
      '\x7b' :: ((", ".intercalate (members.map memberText)).toList ++ ['\x7d']) := by
    rw [write, writeMembers_strings, String.toList_append, String.toList_append, List.append_assoc]
    rfl
  have hlength := length_le_intercalate (members.map memberText)
  rw [List.length_map] at hlength
  rw [read?, read, ofChars, hwritten, skipSpace_of_visible (by decide), usualRoom,
    readValue_members]
  · rfl
  · rw [List.length_cons, List.length_append, List.length_singleton]
    omega

end Json

end OneShot
