import Mathlib.Data.List.TakeWhile
import OneShot.Resource.Key

/-!
# Texts of keys

A text stands for a key if it is one segment, or two segments joined by a slash.  The first form is
short for the second one in the default namespace, and apart from this every key has one text.
-/

namespace OneShot.ObjectKey

/-- A part of a key as it can stand in a text. -/
structure Segment (part : String) : Prop where
  nonempty : part ≠ ""
  slashless : '/' ∉ part.toList

/-- A key whose text can be cut into its parts again. -/
structure Plain (key : ObjectKey) : Prop where
  ns : Segment key.ns
  name : Segment key.name

variable {value other d : String} {key : ObjectKey}

/-! ## The first slash -/

theorem splitSlash_of_not_mem {chars : List Char} (hslash : '/' ∉ chars) :
    splitSlash chars = (chars, none) := by
  have hall : ∀ c ∈ chars, (c != '/') = true := by
    intro c hc
    exact bne_iff_ne.mpr fun heq => hslash (heq ▸ hc)
  rw [splitSlash, List.takeWhile_eq_self_iff.mpr hall, List.dropWhile_eq_nil_iff.mpr hall]

theorem splitSlash_append {before after : List Char} (hslash : '/' ∉ before) :
    splitSlash (before ++ '/' :: after) = (before, some after) := by
  have hall : ∀ c ∈ before, (c != '/') = true := by
    intro c hc
    exact bne_iff_ne.mpr fun heq => hslash (heq ▸ hc)
  rw [splitSlash, List.takeWhile_append_of_pos hall, List.dropWhile_append_of_pos hall]
  simp

theorem toList_text (key : ObjectKey) :
    key.text.toList = key.ns.toList ++ '/' :: key.name.toList := by
  have hslash : "/".toList = ['/'] := by decide
  rw [text, String.toList_append, String.toList_append, hslash, List.append_assoc]
  rfl

/-! ## Reading a text -/

theorem parse_of_not_mem (hslash : '/' ∉ value.toList) (hd : d ≠ "") :
    parse value d = if value = "" then .error ⟨value⟩ else .ok ⟨d, value⟩ := by
  simp only [parse, splitSlash_of_not_mem hslash, Bool.or_eq_true, String.isEmpty_iff,
    List.contains_iff_mem, hd, hslash, false_or, or_false]

theorem parse_text (hslash : '/' ∉ key.ns.toList) :
    parse key.text d =
      if key.ns = "" ∨ key.name = "" ∨ '/' ∈ key.name.toList then .error ⟨key.text⟩
      else .ok key := by
  simp only [parse, toList_text, splitSlash_append hslash, String.ofList_toList, Bool.or_eq_true,
    String.isEmpty_iff, List.contains_iff_mem, or_assoc]

/-- A text without a slash is a name, and every other text is cut at its first slash. -/
theorem bare_or_text (value : String) :
    '/' ∉ value.toList ∨ ∃ key : ObjectKey, '/' ∉ key.ns.toList ∧ value = key.text := by
  by_cases hslash : '/' ∈ value.toList
  · obtain ⟨before, after, hchars, hbefore⟩ := List.eq_append_cons_of_mem hslash
    refine .inr ⟨⟨String.ofList before, String.ofList after⟩, ?_, ?_⟩
    · rwa [String.toList_ofList]
    · rw [← String.toList_inj, toList_text, String.toList_ofList, String.toList_ofList, hchars]
  · exact .inl hslash

theorem parse_text_of_plain (hkey : key.Plain) (d : String) : parse key.text d = .ok key := by
  rw [parse_text hkey.ns.slashless, if_neg]
  rintro (hns | hname | hslash)
  · exact hkey.ns.nonempty hns
  · exact hkey.name.nonempty hname
  · exact hkey.name.slashless hslash

theorem parse_joined {ns name : String} (hns : Segment ns) (hname : Segment name) (d : String) :
    parse (ns ++ "/" ++ name) d = .ok ⟨ns, name⟩ := by
  have hplain : Plain ⟨ns, name⟩ := ⟨hns, hname⟩
  have hread := parse_text_of_plain hplain d
  rwa [text] at hread

theorem parse_of_segment (hd : Segment d) (hvalue : Segment value) :
    parse value d = .ok ⟨d, value⟩ := by
  rw [parse_of_not_mem hvalue.slashless hd.nonempty, if_neg hvalue.nonempty]

/-- The texts that stand for a key. -/
theorem parse_eq_ok_iff (hd : Segment d) :
    parse value d = .ok key ↔
      key.Plain ∧ (value = key.text ∨ key.ns = d ∧ value = key.name) := by
  constructor
  · intro hread
    rcases bare_or_text value with hslash | ⟨cut, hslash, rfl⟩
    · rw [parse_of_not_mem hslash hd.nonempty] at hread
      split at hread
      case isTrue => cases hread
      case isFalse hempty =>
        cases hread
        exact ⟨⟨hd, hempty, hslash⟩, .inr ⟨rfl, rfl⟩⟩
    · rw [parse_text hslash] at hread
      split at hread
      case isTrue => cases hread
      case isFalse hparts =>
        cases hread
        rw [not_or, not_or] at hparts
        exact ⟨⟨⟨hparts.1, hslash⟩, ⟨hparts.2.1, hparts.2.2⟩⟩, .inl rfl⟩
  · rintro ⟨hkey, rfl | ⟨rfl, rfl⟩⟩
    · exact parse_text_of_plain hkey d
    · exact parse_of_segment hd hkey.name

/-- A text that is no key is named by the fault. -/
theorem parse_eq_error {fault : Malformed} (hd : Segment d)
    (hread : parse value d = .error fault) : fault = ⟨value⟩ := by
  rcases bare_or_text value with hslash | ⟨cut, hslash, rfl⟩
  · rw [parse_of_not_mem hslash hd.nonempty] at hread
    split at hread
    · exact (Except.error.inj hread).symm
    · cases hread
  · rw [parse_text hslash] at hread
    split at hread
    · exact (Except.error.inj hread).symm
    · cases hread

theorem parse_same_iff (hd : Segment d) :
    (∃ key, parse value d = .ok key ∧ parse other d = .ok key) ↔
      (value = other ∧ ∃ key, parse value d = .ok key) ∨
        (Segment value ∧ other = d ++ "/" ++ value) ∨
        (Segment other ∧ value = d ++ "/" ++ other) := by
  constructor
  · rintro ⟨key, hvalue, hother⟩
    obtain ⟨hkey, hvalue' | ⟨hns, hvalue'⟩⟩ := (parse_eq_ok_iff hd).mp hvalue
    · obtain ⟨-, hother' | ⟨hns, hother'⟩⟩ := (parse_eq_ok_iff hd).mp hother
      · exact .inl ⟨hvalue'.trans hother'.symm, key, hvalue⟩
      · refine .inr (.inr ⟨hother' ▸ hkey.name, ?_⟩)
        rw [hvalue', hother', ← hns, text]
    · obtain ⟨-, hother' | ⟨-, hother'⟩⟩ := (parse_eq_ok_iff hd).mp hother
      · refine .inr (.inl ⟨hvalue' ▸ hkey.name, ?_⟩)
        rw [hvalue', hother', ← hns, text]
      · exact .inl ⟨hvalue'.trans hother'.symm, key, hvalue⟩
  · rintro (⟨rfl, key, hread⟩ | ⟨hname, rfl⟩ | ⟨hname, rfl⟩)
    · exact ⟨key, hread, hread⟩
    · exact ⟨⟨d, value⟩, parse_of_segment hd hname, parse_joined hd hname d⟩
    · exact ⟨⟨d, other⟩, parse_joined hd hname d, parse_of_segment hd hname⟩

/-- Which texts stand for a key, that a key is read back from its own text in any default
namespace, and that only a bare name shares its key with another text. -/
theorem texts_unambiguous (hd : Segment d) :
    (∀ value, (∃ key, parse value d = .ok key) ↔
      Segment value ∨ ∃ ns name, Segment ns ∧ Segment name ∧ value = ns ++ "/" ++ name) ∧
    (∀ value, (¬ ∃ key, parse value d = .ok key) → parse value d = .error ⟨value⟩) ∧
    (∀ value key, parse value d = .ok key →
      Segment key.ns ∧ Segment key.name ∧ ∀ d', parse key.text d' = .ok key) ∧
    (∀ value other,
      (∃ key, parse value d = .ok key ∧ parse other d = .ok key) ↔
        (value = other ∧ ∃ key, parse value d = .ok key) ∨
          (Segment value ∧ other = d ++ "/" ++ value) ∨
          (Segment other ∧ value = d ++ "/" ++ other)) := by
  refine ⟨fun value => ⟨?_, ?_⟩, fun value hnone => ?_, fun value key hread => ?_,
    fun value other => parse_same_iff hd⟩
  · rintro ⟨key, hread⟩
    obtain ⟨hkey, hvalue | ⟨-, hvalue⟩⟩ := (parse_eq_ok_iff hd).mp hread
    · exact .inr ⟨key.ns, key.name, hkey.ns, hkey.name, hvalue⟩
    · exact .inl (hvalue ▸ hkey.name)
  · rintro (hvalue | ⟨ns, name, hns, hname, rfl⟩)
    · exact ⟨⟨d, value⟩, parse_of_segment hd hvalue⟩
    · exact ⟨⟨ns, name⟩, parse_joined hns hname d⟩
  · cases hread : parse value d with
    | error fault => rw [parse_eq_error hd hread]
    | ok key => exact absurd ⟨key, hread⟩ hnone
  · have hkey := ((parse_eq_ok_iff hd).mp hread).1
    exact ⟨hkey.ns, hkey.name, parse_text_of_plain hkey⟩

theorem texts_unambiguous_in_default :
    Segment defaultNamespace ∧
      parse "default/web" = parse "web" ∧ parse "web/default" ≠ parse "web" := by
  have hdefault : Segment defaultNamespace := ⟨by decide, by decide⟩
  have hweb : Segment "web" := ⟨by decide, by decide⟩
  obtain ⟨haccepted, -, -, hsame⟩ := texts_unambiguous hdefault
  refine ⟨hdefault, ?_, fun heq => ?_⟩
  · obtain ⟨key, hshort, hlong⟩ :=
      (hsame "web" "default/web").mpr (.inr (.inl ⟨hweb, by decide⟩))
    exact hlong.trans hshort.symm
  · obtain ⟨key, hread⟩ := (haccepted "web").mpr (.inl hweb)
    rcases (hsame "web/default" "web").mp ⟨key, heq.trans hread, hread⟩ with
      ⟨hcontra, -⟩ | ⟨-, hcontra⟩ | ⟨-, hcontra⟩
    all_goals exact absurd hcontra (by decide)

end OneShot.ObjectKey
