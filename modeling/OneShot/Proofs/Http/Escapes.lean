import OneShot.Http.Url
import Mathlib.Data.List.Basic
import Mathlib.Data.String.Basic

/-!
# Escapes in paths

A path whose characters have been escaped stands for the bytes of the path before, unless what
was there already reads as an escape.  Slashes are neither made nor lost, so a path and its
escaped form fall into the same segments.
-/

namespace OneShot

open OneShot.Text

/-! ## Bytes of a text -/

namespace Text

theorem byteArray_toList (bytes : ByteArray) : bytes.toList = bytes.data.toList := by
  have hloop : ∀ (left position : Nat) (before : List UInt8), bytes.size - position = left →
      ByteArray.toList.loop bytes position before =
        before.reverse ++ bytes.data.toList.drop position := by
    intro left
    induction left with
    | zero =>
        intro position before hleft
        rw [ByteArray.toList.loop]
        have hend : ¬ position < bytes.size := by omega
        rw [if_neg hend, List.drop_eq_nil_of_le, List.append_nil]
        rw [Array.length_toList]
        exact Nat.not_lt.mp hend
    | succ left ih =>
        intro position before hleft
        rw [ByteArray.toList.loop]
        have hinside : position < bytes.size := by omega
        have hlength : position < bytes.data.toList.length := by
          rw [Array.length_toList]
          exact hinside
        have hget : bytes.get! position = bytes.data.toList[position] := by
          rw [Array.getElem_toList]
          exact getElem!_pos bytes.data position hinside
        rw [if_pos hinside, ih (position + 1) _ (by omega), List.reverse_cons,
          List.drop_eq_getElem_cons hlength, List.append_assoc, hget]
        rfl
  rw [ByteArray.toList, hloop bytes.size 0 [] rfl]
  rfl

theorem utf8Bytes_eq (text : String) :
    utf8Bytes text = text.toList.flatMap String.utf8EncodeChar := by
  have hbytes : text.toUTF8 = text.toList.utf8Encode := by
    rw [← String.toByteArray_ofList, String.ofList_toList]
    rfl
  rw [utf8Bytes, byteArray_toList, hbytes, List.utf8Encode]
  simp

theorem utf8Bytes_inj {one other : String} (hbytes : utf8Bytes one = utf8Bytes other) :
    one = other := by
  rw [utf8Bytes, utf8Bytes, byteArray_toList, byteArray_toList, Array.toList_inj] at hbytes
  exact String.toByteArray_inj.mp (ByteArray.ext hbytes)

theorem utf8Bytes_singleton (c : Char) :
    utf8Bytes (String.singleton c) = String.utf8EncodeChar c := by
  rw [utf8Bytes_eq]
  simp

end Text

namespace Http

/-! ## Escapes -/

/-- The digit of an escape. -/
def escapeDigit (n : Nat) : Char :=
  (hexDigit n).toUpper

theorem byteEscape_eq (byte : UInt8) :
    byteEscape byte =
      ['%', escapeDigit (byte.toNat / 16 % 16), escapeDigit (byte.toNat % 16)] :=
  rfl

/-- What the digits of escapes are: hexadecimal, and neither escaped themselves nor slashes. -/
theorem escapeDigit_spec {n : Nat} (hn : n < 16) :
    hexValue? (escapeDigit n) = some n ∧ isPathEscaped (escapeDigit n) = false ∧
      escapeDigit n ≠ '/' := by
  have hall : ∀ n < 16, hexValue? (escapeDigit n) = some n ∧
      isPathEscaped (escapeDigit n) = false ∧ escapeDigit n ≠ '/' := by decide
  exact hall n hn

theorem mem_byteEscape {byte : UInt8} {c : Char} (hc : c ∈ byteEscape byte) :
    isPathEscaped c = false ∧ c ≠ '/' := by
  rw [byteEscape_eq] at hc
  simp only [List.mem_cons, List.not_mem_nil, or_false] at hc
  rcases hc with rfl | rfl | rfl
  · decide
  · exact (escapeDigit_spec (Nat.mod_lt _ (by decide))).2
  · exact (escapeDigit_spec (Nat.mod_lt _ (by decide))).2

theorem exists_escapeChar_eq_cons (c : Char) : ∃ others, escapeChar c = '%' :: others := by
  rw [escapeChar, utf8Bytes_singleton]
  cases hbytes : String.utf8EncodeChar c with
  | nil => exact absurd hbytes String.utf8EncodeChar_ne_nil
  | cons byte bytes => exact ⟨_, rfl⟩

theorem mem_escapeChar {c d : Char} (hd : d ∈ escapeChar c) :
    isPathEscaped d = false ∧ d ≠ '/' := by
  obtain ⟨byte, -, hbyte⟩ := List.mem_flatMap.mp hd
  exact mem_byteEscape hbyte

/-- No character that is escaped is left. -/
theorem isPathEscaped_of_mem_escape {chars : List Char} {c : Char}
    (hc : c ∈ escape isPathEscaped chars) : isPathEscaped c = false := by
  obtain ⟨d, -, hd⟩ := List.mem_flatMap.mp hc
  split at hd
  next => exact (mem_escapeChar hd).1
  next hplain =>
    rw [List.mem_singleton.mp hd]
    exact eq_false_of_ne_true hplain

theorem escape_cons (c : Char) (rest : List Char) :
    escape isPathEscaped (c :: rest) =
      (if isPathEscaped c then escapeChar c else [c]) ++ escape isPathEscaped rest :=
  List.flatMap_cons

theorem escape_append (chars more : List Char) :
    escape isPathEscaped (chars ++ more) =
      escape isPathEscaped chars ++ escape isPathEscaped more :=
  List.flatMap_append

theorem escape_of_plain {chars : List Char} (hplain : ∀ c ∈ chars, isPathEscaped c = false) :
    escape isPathEscaped chars = chars := by
  induction chars with
  | nil => rfl
  | cons c rest ih =>
      rw [escape_cons, hplain c List.mem_cons_self,
        ih fun d hd => hplain d (List.mem_cons_of_mem c hd)]
      rfl

theorem slash_mem_of_mem_escape {chars : List Char} (hmem : '/' ∈ escape isPathEscaped chars) :
    '/' ∈ chars := by
  obtain ⟨d, hd, hslash⟩ := List.mem_flatMap.mp hmem
  split at hslash
  next => exact absurd rfl (mem_escapeChar hslash).2
  next => exact List.mem_singleton.mp hslash ▸ hd

theorem splitOn_append_of_not_mem {front : List Char} (hfront : '/' ∉ front) (back : List Char) :
    (front ++ back).splitOn '/' = (back.splitOn '/').modifyHead (front ++ ·) := by
  induction front with
  | nil =>
      cases hpieces : back.splitOn '/' with
      | nil => exact absurd hpieces (List.splitOn_ne_nil _ _)
      | cons piece pieces => simp [hpieces]
  | cons c rest ih =>
      rw [List.mem_cons, not_or] at hfront
      have hc : (c == '/') = false := beq_eq_false_iff_ne.mpr (Ne.symm hfront.1)
      rw [List.cons_append, List.splitOn_cons_eq_if_modifyHead, hc, ih hfront.2,
        if_neg Bool.false_ne_true, List.modifyHead_modifyHead]
      rfl

/-- Escaping leaves the segments of a path apart. -/
theorem splitOn_escape (chars : List Char) :
    (escape isPathEscaped chars).splitOn '/' =
      (chars.splitOn '/').map (escape isPathEscaped) := by
  induction chars with
  | nil => rfl
  | cons c rest ih =>
      have hcons : escape isPathEscaped (c :: rest) =
          escape isPathEscaped [c] ++ escape isPathEscaped rest := escape_append [c] rest
      by_cases hslash : c = '/'
      · have hkept : escape isPathEscaped ['/'] = ['/'] := by decide
        rw [hcons, hslash, hkept, List.singleton_append, List.splitOn_cons_eq_if_modifyHead,
          List.splitOn_cons_eq_if_modifyHead, ih]
        rfl
      · have hapart : '/' ∉ escape isPathEscaped [c] := fun hmem =>
          hslash (List.mem_singleton.mp (slash_mem_of_mem_escape hmem)).symm
        have hc : (c == '/') = false := beq_eq_false_iff_ne.mpr hslash
        rw [hcons, splitOn_append_of_not_mem hapart, List.splitOn_cons_eq_if_modifyHead, hc,
          if_neg Bool.false_ne_true, ih]
        cases rest.splitOn '/' with
        | nil => rfl
        | cons piece pieces =>
            simp only [List.modifyHead_cons, List.map_cons]
            rw [← escape_append]
            rfl

/-! ## What a path stands for -/

/-- Whether two hexadecimal digits follow a percent sign at the front of a text. -/
def startsEscape : List Char → Bool
  | c :: high :: low :: _ => c == '%' && (hexValue? high).isSome && (hexValue? low).isSome
  | _ => false

/-- Whether a text holds what reads as an escape. -/
def holdsEscape : List Char → Bool
  | [] => false
  | c :: rest => startsEscape (c :: rest) || holdsEscape rest

theorem unescaped_cons {c : Char} {rest : List Char} (hplain : startsEscape (c :: rest) = false) :
    unescaped (c :: rest) = String.utf8EncodeChar c ++ unescaped rest := by
  rcases rest with _ | ⟨high, _ | ⟨low, rest⟩⟩
  · simp [unescaped, utf8Bytes_singleton]
  · simp [unescaped, utf8Bytes_singleton]
  · rw [unescaped]
    split
    next h l hpercent hhigh hlow =>
      rw [startsEscape, hpercent, hhigh, hlow] at hplain
      cases hplain
    next => rw [utf8Bytes_singleton]

theorem unescaped_byteEscape (byte : UInt8) (rest : List Char) :
    unescaped (byteEscape byte ++ rest) = byte :: unescaped rest := by
  have hhigh := (escapeDigit_spec (Nat.mod_lt (byte.toNat / 16) (by decide : 0 < 16))).1
  have hlow := (escapeDigit_spec (Nat.mod_lt byte.toNat (by decide : 0 < 16))).1
  have hvalue : UInt8.ofNat (16 * (byte.toNat / 16 % 16) + byte.toNat % 16) = byte := by
    have hbound := byte.toNat_lt
    have hsplit : 16 * (byte.toNat / 16 % 16) + byte.toNat % 16 = byte.toNat := by omega
    rw [hsplit, UInt8.ofNat_toNat]
  rw [byteEscape_eq]
  simp only [List.cons_append, List.nil_append, unescaped, hhigh, hlow, beq_self_eq_true, hvalue]

theorem unescaped_escapeChar (c : Char) (rest : List Char) :
    unescaped (escapeChar c ++ rest) = String.utf8EncodeChar c ++ unescaped rest := by
  have hbytes : ∀ bytes : List UInt8,
      unescaped (bytes.flatMap byteEscape ++ rest) = bytes ++ unescaped rest := by
    intro bytes
    induction bytes with
    | nil => rfl
    | cons byte bytes ih =>
        rw [List.flatMap_cons, List.append_assoc, unescaped_byteEscape, ih]
        rfl
  rw [escapeChar, utf8Bytes_singleton, hbytes]

theorem startsEscape_of_ne {c : Char} (hc : c ≠ '%') (rest : List Char) :
    startsEscape (c :: rest) = false := by
  have hpercent : (c == '%') = false := beq_eq_false_iff_ne.mpr hc
  rcases rest with _ | ⟨high, _ | ⟨low, rest⟩⟩
  · rfl
  · rfl
  · rw [startsEscape, hpercent, Bool.false_and, Bool.false_and]

/-- What reads as an escape does so whatever follows it. -/
theorem unescaped_of_startsEscape {chars : List Char} (hstarts : startsEscape chars = true) :
    ∃ high low rest byte, chars = '%' :: high :: low :: rest ∧
      ∀ more, unescaped ('%' :: high :: low :: more) = byte :: unescaped more := by
  rcases chars with _ | ⟨c, _ | ⟨high, _ | ⟨low, rest⟩⟩⟩
  · cases hstarts
  · cases hstarts
  · cases hstarts
  · simp only [startsEscape, Bool.and_eq_true, beq_iff_eq] at hstarts
    obtain ⟨⟨rfl, hhigh⟩, hlow⟩ := hstarts
    obtain ⟨h, hh⟩ := Option.isSome_iff_exists.mp hhigh
    obtain ⟨l, hl⟩ := Option.isSome_iff_exists.mp hlow
    refine ⟨high, low, rest, UInt8.ofNat (16 * h + l), rfl, fun more => ?_⟩
    simp only [unescaped, beq_self_eq_true, hh, hl]

/-- What stands at the front of an escaped text was there before, unless it begins an escape. -/
theorem exists_of_escape_eq_cons {chars rest : List Char} {c : Char}
    (hescape : escape isPathEscaped chars = c :: rest) (hc : c ≠ '%') :
    ∃ more, chars = c :: more ∧ escape isPathEscaped more = rest := by
  cases chars with
  | nil => cases hescape
  | cons d more =>
      rw [escape_cons] at hescape
      split at hescape
      next =>
        obtain ⟨others, hothers⟩ := exists_escapeChar_eq_cons d
        rw [hothers] at hescape
        cases hescape
        exact absurd rfl hc
      next =>
        cases hescape
        exact ⟨more, rfl, rfl⟩

theorem startsEscape_cons_escape {c : Char} {rest : List Char}
    (hstarts : startsEscape (c :: escape isPathEscaped rest) = true) :
    startsEscape (c :: rest) = true := by
  cases hrest : escape isPathEscaped rest with
  | nil =>
      rw [hrest] at hstarts
      cases hstarts
  | cons high more =>
      cases more with
      | nil =>
          rw [hrest] at hstarts
          cases hstarts
      | cons low others =>
          rw [hrest] at hstarts
          have hdigits := hstarts
          simp only [startsEscape, Bool.and_eq_true] at hdigits
          -- digits are no percent signs, so they were there before
          have hhigh : high ≠ '%' := by
            rintro rfl
            cases hdigits.1.2
          have hlow : low ≠ '%' := by
            rintro rfl
            cases hdigits.2
          obtain ⟨tail, rfl, htail⟩ := exists_of_escape_eq_cons hrest hhigh
          obtain ⟨tail, rfl, -⟩ := exists_of_escape_eq_cons htail hlow
          exact hstarts

/-- A path stands for its text, if nothing in it reads as an escape. -/
theorem unescaped_escape {chars : List Char} (hplain : holdsEscape chars = false) :
    unescaped (escape isPathEscaped chars) = chars.flatMap String.utf8EncodeChar := by
  induction chars with
  | nil => rfl
  | cons c rest ih =>
      rw [holdsEscape, Bool.or_eq_false_iff] at hplain
      rw [escape_cons, List.flatMap_cons, ← ih hplain.2]
      split
      next => rw [unescaped_escapeChar]
      next =>
        apply unescaped_cons
        by_contra hstarts
        have hbefore := startsEscape_cons_escape (eq_true_of_ne_false hstarts)
        rw [hplain.1] at hbefore
        cases hbefore

/-- A slash ends whatever stands before it. -/
theorem unescaped_append_slash (front back : List Char) :
    unescaped (front ++ '/' :: back) =
      unescaped front ++ (String.utf8EncodeChar '/' ++ unescaped back) := by
  induction hlength : front.length using Nat.strong_induction_on generalizing front with
  | _ length ih =>
    subst hlength
    cases front with
    | nil => exact unescaped_cons (startsEscape_of_ne (by decide) back)
    | cons c rest =>
        cases hstarts : startsEscape (c :: rest) with
        | true =>
            obtain ⟨high, low, more, byte, hchars, hbyte⟩ := unescaped_of_startsEscape hstarts
            obtain ⟨rfl, rfl⟩ := List.cons.inj hchars
            rw [hbyte more, List.cons_append, List.cons_append, List.cons_append, hbyte,
              ih more.length (by simp only [List.length_cons]; omega) more rfl]
            rfl
        | false =>
            have hnone : hexValue? '/' = none := by decide
            have hlonger : startsEscape (c :: (rest ++ '/' :: back)) = false := by
              rcases rest with _ | ⟨high, _ | ⟨low, rest⟩⟩
              · cases back with
                | nil => rfl
                | cons low back => simp [startsEscape, hnone]
              · simp [startsEscape, hnone]
              · exact hstarts
            rw [List.cons_append, unescaped_cons hlonger, unescaped_cons hstarts,
              ih rest.length (by simp) rest rfl, List.append_assoc]

end Http

end OneShot
