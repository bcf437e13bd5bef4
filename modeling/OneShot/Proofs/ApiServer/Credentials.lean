import OneShot.CommandLine.Session
import OneShot.Proofs.Decimal.Positive
import OneShot.Proofs.Text.Utf8
import OneShot.Proofs.Toml.Interruptions
import OneShot.Proofs.Traversal
import Mathlib.Data.List.DropRight

/-!
# Credentials that can be used

A file of credentials is refused as a mistake, or it gives settings by which a server can be
reached: the entries that are accepted are those that can be used.  Not all files are so.  Bytes
that are no text, whole numbers with too many digits or beyond all floats and values that are
nested too deep interrupt the reading, and a time for requests that is no number, or a truth value,
passes the check.  A session ends as one that cannot be meant exactly if the file of its
credentials is a mistake.
-/

namespace OneShot

open OneShot.Decimal
open OneShot.Text (Bytes isBlank isBlankText ofUtf8? trim utf8Bytes)

/-! ## Trimmed texts -/

namespace Text

/-- A text that is not empty, without blanks at its ends. -/
structure Trimmed (text : String) : Prop where
  ne_empty : text ≠ ""
  head : ∀ c ∈ text.toList.head?, isBlank c = false
  last : ∀ c ∈ text.toList.getLast?, isBlank c = false

theorem trimmed_trim {text : String} (htext : isBlankText text = false) : Trimmed (trim text) := by
  have hsome : text.toList.dropWhile isBlank ≠ [] := by
    rw [Ne, List.dropWhile_eq_nil_iff]
    intro hblank
    rw [isBlankText, List.all_eq_true.mpr hblank] at htext
    cases htext
  have hhead := List.head_dropWhile_not isBlank hsome
  have htrim : (trim text).toList = (text.toList.dropWhile isBlank).rdropWhile isBlank :=
    String.toList_ofList
  have hrest : (text.toList.dropWhile isBlank).rdropWhile isBlank ≠ [] := by
    rw [Ne, List.rdropWhile_eq_nil_iff]
    intro hblank
    rw [hblank _ (List.head_mem hsome)] at hhead
    cases hhead
  constructor
  case ne_empty =>
    intro hempty
    rw [hempty] at htrim
    exact hrest htrim.symm
  case head =>
    intro c hc
    rw [htrim, List.head?_eq_some_head hrest, (List.rdropWhile_prefix isBlank _).head hrest] at hc
    cases hc
    exact hhead
  case last =>
    intro c hc
    rw [htrim, List.getLast?_eq_some_getLast hrest] at hc
    cases hc
    exact Bool.eq_false_iff.mpr (List.rdropWhile_last_not isBlank _ hrest)

end Text

namespace ApiServer

variable {path : String} {document : Toml} {entry : Option Toml}

/-! ## Entries -/

/-- A time for a request, which must be a number above zero. -/
inductive Lasting : Toml → Prop
  | whole {seconds : Int} (hpos : 0 < seconds)
      (hfinite : isInfinite (floatOfInt seconds) = false) : Lasting (.number (.whole seconds))
  | real {seconds : Float} {time : EReal} (htime : time ∈ value? seconds) (hpos : 0 < time) :
      Lasting (.number (.real seconds))

/-- A time that is not refused, though it is no number above zero that a float can be. -/
inductive Mistimed : Toml → Prop
  | yes : Mistimed (.bool true)
  | noNumber {seconds : Float} (hnan : seconds.isNaN = true) : Mistimed (.number (.real seconds))
  | huge {seconds : Int} (hpos : 0 < seconds)
      (hinfinite : isInfinite (floatOfInt seconds) = true) : Mistimed (.number (.whole seconds))

/-- A document that describes a server, where times for a request are of some kind. -/
structure Describes (timed : Toml → Prop) (document : Toml) : Prop where
  server : ∃ text, document.get? "server" = some (.text text) ∧ isBlankText text = false
  token : ∀ entry ∈ document.get? "token", ∃ text, entry = .text text
  ns : ∀ entry ∈ document.get? "namespace", ∃ text, entry = .text text ∧ text ≠ ""
  timeout : ∀ entry ∈ document.get? "timeout_seconds", timed entry
  verification : ∀ entry ∈ document.get? "verify",
    (∃ yes, entry = .bool yes) ∨ ∃ file, entry = .text file
  rate : ∀ entry ∈ document.get? "requests_per_second",
    ∃ rate, entry = .number (.whole rate) ∧ 1 ≤ rate

theorem exists_serverOf_iff (path : String) : (∃ server, serverOf path entry = .ok server) ↔
    ∃ text, entry = some (.text text) ∧ isBlankText text = false := by
  unfold serverOf
  split
  next text => cases hblank : isBlankText text <;> simp [hblank]
  next hother =>
    simp only [reduceCtorEq, exists_false, false_iff]
    rintro ⟨text, rfl, -⟩
    exact hother text rfl

theorem exists_tokenOf_iff : (∃ token, tokenOf entry = .ok token) ↔
    ∀ value ∈ entry, ∃ text, value = .text text := by
  unfold tokenOf
  split <;> simp_all

theorem exists_namespaceOf_iff : (∃ ns, namespaceOf entry = .ok ns) ↔
    ∀ value ∈ entry, ∃ text, value = .text text ∧ text ≠ "" := by
  unfold namespaceOf
  split
  next => simp
  next ns => by_cases hempty : ns = "" <;> simp [hempty]
  next value hother => simp_all

theorem exists_verificationOf_iff : (∃ verification, verificationOf entry = .ok verification) ↔
    ∀ value ∈ entry, (∃ yes, value = .bool yes) ∨ ∃ file, value = .text file := by
  unfold verificationOf
  split <;> simp_all

theorem exists_rateOf_iff : (∃ rate, rateOf entry = .ok rate) ↔
    ∀ value ∈ entry, ∃ rate, value = .number (.whole rate) ∧ 1 ≤ rate := by
  unfold rateOf
  split
  next => simp
  next rate => by_cases hlow : rate < 1 <;> simp [hlow]; omega
  next value hother => simp_all

/-- A float is above zero, or no number, unless a comparison shows that it is not above zero. -/
theorem not_le_zero_iff {seconds : Float} :
    ¬ seconds ≤ 0 ↔ (∃ time ∈ value? seconds, 0 < time) ∨ seconds.isNaN = true := by
  constructor
  · intro hpos
    cases hnan : seconds.isNaN with
    | true => exact Or.inr rfl
    | false =>
        obtain ⟨time, htime⟩ := exists_value hnan
        exact Or.inl ⟨time, htime, pos_of_not_le_zero hpos time htime⟩
  · rintro (⟨time, htime, hpos⟩ | hnan)
    · rw [not_le_iff]
      intro a ha b hb
      rw [value?_zero] at hb
      cases hb
      cases htime.symm.trans ha
      exact hpos
    · rw [not_le_iff]
      intro a ha
      rw [isNaN_of_value ha] at hnan
      cases hnan

theorem accepted_whole_iff {seconds : Int} :
    Lasting (.number (.whole seconds)) ∨ Mistimed (.number (.whole seconds)) ↔ 0 < seconds := by
  constructor
  · rintro (hlasting | hmistimed)
    · cases hlasting with
      | whole hpos => exact hpos
    · cases hmistimed with
      | huge hpos => exact hpos
  · intro hpos
    cases hinfinite : isInfinite (floatOfInt seconds) with
    | true => exact Or.inr (.huge hpos hinfinite)
    | false => exact Or.inl (.whole hpos hinfinite)

theorem accepted_real_iff {seconds : Float} :
    Lasting (.number (.real seconds)) ∨ Mistimed (.number (.real seconds)) ↔ ¬ seconds ≤ 0 := by
  rw [not_le_zero_iff]
  constructor
  · rintro (hlasting | hmistimed)
    · cases hlasting with
      | real htime hpos => exact Or.inl ⟨_, htime, hpos⟩
    · cases hmistimed with
      | noNumber hnan => exact Or.inr hnan
  · rintro (⟨time, htime, hpos⟩ | hnan)
    · exact Or.inl (.real htime hpos)
    · exact Or.inr (.noNumber hnan)

theorem exists_timeoutOf_iff : (∃ timeout, timeoutOf entry = .ok timeout) ↔
    ∀ value ∈ entry, Lasting value ∨ Mistimed value := by
  unfold timeoutOf
  split
  next => simp
  next => simp [Mistimed.yes]
  next seconds => by_cases hle : seconds ≤ 0 <;> simp [hle, accepted_whole_iff]; omega
  next seconds => by_cases hle : seconds ≤ 0 <;> simp [hle, accepted_real_iff]
  next value hyes hwhole hreal =>
    simp only [reduceCtorEq, exists_false, Option.mem_def, Option.some.injEq, forall_eq', false_iff]
    rintro (hvalue | hvalue) <;> cases hvalue <;> simp_all

/-- Every entry passes its check exactly if the document describes a server. -/
theorem exists_stated_iff (path : String) :
    (∃ stated, Settings.stated path document = .ok stated) ↔
      Describes (fun entry => Lasting entry ∨ Mistimed entry) document := by
  constructor
  · rintro ⟨stated, hok⟩
    simp only [Settings.stated, bind_eq_ok_iff] at hok
    obtain ⟨server, hserver, token, htoken, ns, hns, timeout, htimeout, verification,
      hverification, rate, hrate, -⟩ := hok
    exact
      { server := (exists_serverOf_iff path).mp ⟨server, hserver⟩
        token := exists_tokenOf_iff.mp ⟨token, htoken⟩
        ns := exists_namespaceOf_iff.mp ⟨ns, hns⟩
        timeout := exists_timeoutOf_iff.mp ⟨timeout, htimeout⟩
        verification := exists_verificationOf_iff.mp ⟨verification, hverification⟩
        rate := exists_rateOf_iff.mp ⟨rate, hrate⟩ }
  · rintro ⟨hserver, htoken, hns, htimeout, hverification, hrate⟩
    obtain ⟨server, hserver⟩ := (exists_serverOf_iff path).mpr hserver
    obtain ⟨token, htoken⟩ := exists_tokenOf_iff.mpr htoken
    obtain ⟨ns, hns⟩ := exists_namespaceOf_iff.mpr hns
    obtain ⟨timeout, htimeout⟩ := exists_timeoutOf_iff.mpr htimeout
    obtain ⟨verification, hverification⟩ := exists_verificationOf_iff.mpr hverification
    obtain ⟨rate, hrate⟩ := exists_rateOf_iff.mpr hrate
    simp only [Settings.stated, bind_eq_ok_iff]
    exact ⟨_, server, hserver, token, htoken, ns, hns, timeout, htimeout, verification,
      hverification, rate, hrate, rfl⟩

/-! ## Settings -/

/-- Settings by which a server can be reached. -/
structure Settings.Usable (settings : Settings) : Prop where
  server : Text.Trimmed settings.server
  ns : settings.ns ≠ ""
  timeout : ∃ time ∈ value? settings.timeout, 0 < time
  rate : 1 ≤ settings.requestsPerSecond

theorem server_of_serverOf {server : String} (hok : serverOf path entry = .ok server) :
    Text.Trimmed server := by
  unfold serverOf at hok
  split at hok
  next text =>
    split at hok
    next => cases hok
    next hblank =>
      cases hok
      exact Text.trimmed_trim (Bool.eq_false_iff.mpr hblank)
  next => cases hok

theorem ne_empty_of_namespaceOf {ns : String} (hok : namespaceOf entry = .ok ns) : ns ≠ "" := by
  unfold namespaceOf at hok
  split at hok
  next =>
    cases hok
    decide
  next text =>
    split at hok
    next => cases hok
    next hempty =>
      cases hok
      simpa using hempty
  next => cases hok

theorem one_le_of_rateOf {rate : Int} (hok : rateOf entry = .ok rate) : 1 ≤ rate := by
  unfold rateOf at hok
  split at hok
  next =>
    cases hok
    decide
  next value =>
    split at hok
    next => cases hok
    next hlow =>
      cases hok
      omega
  next => cases hok

theorem timeoutOf_of_stated {timeout : Quantity} {settings : Settings}
    (hok : Settings.stated path document = .ok (timeout, settings)) :
    timeoutOf (document.get? "timeout_seconds") = .ok timeout := by
  simp only [Settings.stated, bind_eq_ok_iff] at hok
  obtain ⟨_, _, _, _, _, _, _, htimeout, _, _, _, _, hfound⟩ := hok
  cases hfound
  exact htimeout

/-- What is stated can be used, given a time that can. -/
theorem usable_of_stated {timeout : Quantity} {settings : Settings} {seconds : Float}
    (hok : Settings.stated path document = .ok (timeout, settings))
    (hpos : ∃ time ∈ value? seconds, 0 < time) :
    ({ settings with timeout := seconds } : Settings).Usable := by
  simp only [Settings.stated, bind_eq_ok_iff] at hok
  obtain ⟨_, hserver, _, _, _, hns, _, _, _, _, _, hrate, hfound⟩ := hok
  cases hfound
  exact ⟨server_of_serverOf hserver, ne_empty_of_namespaceOf hns, hpos, one_le_of_rateOf hrate⟩

/-! ## Times -/

section Times

variable {value : Toml} {timeout : Quantity}

theorem finite_of_lasting (hvalue : Lasting value) (hok : timeoutOf (some value) = .ok timeout) :
    ∃ seconds, finite timeout = .ok seconds ∧ ∃ time ∈ value? seconds, 0 < time := by
  cases hvalue with
  | @whole seconds hpos hfinite =>
      rw [timeoutOf, if_neg (not_le.mpr hpos)] at hok
      cases hok
      exact ⟨_, if_neg (Bool.eq_false_iff.mp hfinite), value?_floatOfInt_pos hpos⟩
  | @real seconds time htime hpos =>
      rw [timeoutOf, if_neg (not_le_zero_iff.mpr (Or.inl ⟨time, htime, hpos⟩))] at hok
      cases hok
      exact ⟨seconds, rfl, time, htime, hpos⟩

/-- The time that no document need state. -/
theorem finite_of_unstated (hok : timeoutOf none = .ok timeout) :
    ∃ seconds, finite timeout = .ok seconds ∧ ∃ time ∈ value? seconds, 0 < time := by
  cases hok
  obtain ⟨time, htime⟩ := exists_value (by decide : (30.0 : Float).isNaN = false)
  exact ⟨30.0, rfl, time, htime, pos_of_not_le_zero (by decide) time htime⟩

/-- What becomes of a time that is not refused as it should be. -/
theorem finite_of_mistimed (hvalue : Mistimed value)
    (hok : timeoutOf (some value) = .ok timeout) :
    value = .bool true ∨ finite timeout = .error .outOfRange ∨
      ∃ seconds, finite timeout = .ok seconds ∧ seconds.isNaN = true := by
  cases hvalue with
  | yes => exact Or.inl rfl
  | @noNumber seconds hnan =>
      rw [timeoutOf, if_neg (not_le_zero_iff.mpr (Or.inr hnan))] at hok
      cases hok
      exact Or.inr (Or.inr ⟨seconds, rfl, hnan⟩)
  | @huge seconds hpos hinfinite =>
      rw [timeoutOf, if_neg (not_le.mpr hpos)] at hok
      cases hok
      exact Or.inr (Or.inl (if_pos hinfinite))

end Times

/-! ## Documents -/

theorem Describes.imp {timed timed' : Toml → Prop} (h : Describes timed document)
    (himp : ∀ entry ∈ document.get? "timeout_seconds", timed' entry) :
    Describes timed' document :=
  { h with timeout := himp }

theorem ofToml_of_stated {timeout : Quantity} {settings : Settings}
    (hok : Settings.stated path document = .ok (timeout, settings)) :
    Settings.ofToml path document =
      ((finite timeout).mapError SettingsTrouble.upset >>= fun seconds =>
        .ok { settings with timeout := seconds }) := by
  rw [Settings.ofToml, hok]
  rfl

/-- A document that describes no server is at fault. -/
theorem ofToml_of_not_describes (path : String)
    (hnot : ¬ Describes (fun entry => Lasting entry ∨ Mistimed entry) document) :
    ∃ fault, Settings.ofToml path document = .error (.fault fault) := by
  rw [← exists_stated_iff path] at hnot
  cases hstated : Settings.stated path document with
  | ok stated => exact absurd ⟨stated, hstated⟩ hnot
  | error fault =>
      refine ⟨fault, ?_⟩
      rw [Settings.ofToml, hstated]
      rfl

theorem ofToml_of_describes_lasting (path : String) (h : Describes Lasting document) :
    ∃ settings, Settings.ofToml path document = .ok settings ∧ settings.Usable := by
  obtain ⟨⟨timeout, settings⟩, hstated⟩ := (exists_stated_iff path).mpr
    (h.imp fun entry hentry => Or.inl (h.timeout entry hentry))
  have htimeout := timeoutOf_of_stated hstated
  obtain ⟨seconds, hfinite, hpos⟩ : ∃ seconds, finite timeout = .ok seconds ∧
      ∃ time ∈ value? seconds, 0 < time := by
    cases hentry : document.get? "timeout_seconds" with
    | none =>
        rw [hentry] at htimeout
        exact finite_of_unstated htimeout
    | some entry =>
        rw [hentry] at htimeout
        exact finite_of_lasting (h.timeout entry hentry) htimeout
  refine ⟨_, ?_, usable_of_stated hstated hpos⟩
  rw [ofToml_of_stated hstated, hfinite]
  rfl

/-- A document that states a time which is not refused is not at fault; it gives settings without a
time, or from a truth value, or it gives none. -/
theorem ofToml_of_mistimed (path : String) {entry : Toml}
    (h : Describes (fun _ => True) document)
    (hentry : entry ∈ document.get? "timeout_seconds") (htime : Mistimed entry) :
    (∃ upset, Settings.ofToml path document = .error (.upset upset)) ∨
      ∃ settings, Settings.ofToml path document = .ok settings ∧
        (entry = .bool true ∨ settings.timeout.isNaN = true) := by
  have hdescribes : Describes (fun entry => Lasting entry ∨ Mistimed entry) document := by
    refine h.imp fun other hother => Or.inr ?_
    cases hentry.symm.trans hother
    exact htime
  obtain ⟨⟨timeout, settings⟩, hstated⟩ := (exists_stated_iff path).mpr hdescribes
  have htimeout := timeoutOf_of_stated hstated
  rw [Option.mem_def.mp hentry] at htimeout
  rw [ofToml_of_stated hstated]
  cases hfinite : finite timeout with
  | error upset => exact Or.inl ⟨upset, rfl⟩
  | ok seconds =>
      refine Or.inr ⟨_, rfl, ?_⟩
      obtain hyes | hout | ⟨_, hseconds, hnan⟩ := finite_of_mistimed htime htimeout
      · exact Or.inl hyes
      · cases hfinite.symm.trans hout
      · cases hfinite.symm.trans hseconds
        exact Or.inr hnan

/-! ## Files -/

/-- The document in a file. -/
def Reads (room : List Char → Nat) (content : Bytes) (document : Toml) : Prop :=
  ∃ text, utf8Bytes text = content ∧ Toml.read room text = .ok document

/-- A file that describes a server with a time for requests that is a number above zero. -/
def Good (room : List Char → Nat) (content : Bytes) : Prop :=
  ∃ document, Reads room content document ∧ Describes Lasting document

/-- A file whose reading is interrupted, or that states a time which is not refused though it is
no number above zero, or too large.  Only a long file can be nested too deep. -/
inductive Unforeseen (room : List Char → Nat) (content : Bytes) : Prop
  | notUtf8 (hbytes : ∀ text, utf8Bytes text ≠ content)
  | longInteger {text : String} {digits : Nat} (hbytes : utf8Bytes text = content)
      (hread : Toml.read room text = .error (.tooLong digits)) (hlong : longestInteger < digits)
  | tooDeep {text : String} (hbytes : utf8Bytes text = content)
      (hread : Toml.read room text = .error .tooDeep)
      (hlong : ∀ least, Toml.Spares room least → least < 3 * (text.toList.length + 1))
  | mistimed {document entry : Toml} (hread : Reads room content document)
      (hentry : entry ∈ document.get? "timeout_seconds") (htime : Mistimed entry)
      (hothers : Describes (fun _ => True) document)

/-- Whether the time for a request is stated as a truth value. -/
def TimedByTruth (room : List Char → Nat) (content : Bytes) : Prop :=
  ∃ document yes, Reads room content document ∧ document.get? "timeout_seconds" = some (.bool yes)

section Files

variable {room : List Char → Nat} {content : Bytes} {text : String}

theorem ofBytes_of_not_utf8 (path : String) (hbytes : ∀ text, utf8Bytes text ≠ content) :
    Settings.ofBytes room path content = .error (.upset .notUtf8) := by
  cases htext : ofUtf8? content with
  | none => rw [Settings.ofBytes, htext]
  | some text => exact absurd (Text.ofUtf8?_eq_some_iff.mp htext) (hbytes text)

theorem ofBytes_of_text (path : String) (hbytes : utf8Bytes text = content) :
    Settings.ofBytes room path content =
      match Toml.read room text with
      | .error .malformed => .error (.fault .malformedCredentials)
      | .error (.tooLong digits) => .error (.upset (.longInteger digits))
      | .error .tooDeep => .error (.upset .tooDeep)
      | .ok document => Settings.ofToml path document := by
  have htext := Text.ofUtf8?_eq_some_iff.mpr hbytes
  rcases hread : Toml.read room text with (_ | _ | _) | _ <;>
    simp only [Settings.ofBytes, htext, hread]

theorem Reads.ofBytes (hread : Reads room content document) (path : String) :
    Settings.ofBytes room path content = Settings.ofToml path document := by
  obtain ⟨text, hbytes, hread⟩ := hread
  rw [ofBytes_of_text path hbytes, hread]

theorem Reads.unique {document' : Toml} (hread : Reads room content document)
    (hread' : Reads room content document') : document = document' := by
  obtain ⟨text, rfl, hdocument⟩ := hread
  obtain ⟨text', hbytes, hdocument'⟩ := hread'
  cases Text.utf8Bytes_inj hbytes
  exact Except.ok.inj (hdocument.symm.trans hdocument')

/-- A document is at fault, unless the file is good or unforeseen. -/
theorem fault_of_reads (path : String) (hread : Reads room content document)
    (hgood : ¬ Good room content) (hforeseen : ¬ Unforeseen room content) :
    ∃ fault, Settings.ofBytes room path content = .error (.fault fault) := by
  rw [hread.ofBytes path]
  by_contra hfault
  -- without a fault every entry has passed its check, so only the time can be out of order
  have hdescribes := not_not.mp (mt (ofToml_of_not_describes path) hfault)
  refine hgood ⟨document, hread, hdescribes.imp fun entry hentry => ?_⟩
  obtain hlasting | hmistimed := hdescribes.timeout entry hentry
  · exact hlasting
  · exact absurd (.mistimed hread hentry hmistimed (hdescribes.imp fun _ _ => trivial)) hforeseen

theorem usable_of_good (path : String) (hgood : Good room content) :
    ∃ settings, Settings.ofBytes room path content = .ok settings ∧ settings.Usable ∧
      ¬ TimedByTruth room content := by
  obtain ⟨document, hread, hdescribes⟩ := hgood
  obtain ⟨settings, hok, husable⟩ := ofToml_of_describes_lasting path hdescribes
  refine ⟨settings, (hread.ofBytes path).trans hok, husable, ?_⟩
  rintro ⟨document', yes, hread', hentry⟩
  cases hread.unique hread'
  cases hdescribes.timeout _ hentry

/-- An unforeseen file is no fault, and what it gives cannot be used, or is timed by a truth
value. -/
theorem not_kept_of_unforeseen (path : String) (hunforeseen : Unforeseen room content) :
    (∀ fault, Settings.ofBytes room path content ≠ .error (.fault fault)) ∧
      ∀ settings, Settings.ofBytes room path content = .ok settings → settings.Usable →
        TimedByTruth room content := by
  cases hunforeseen with
  | notUtf8 hbytes =>
      rw [ofBytes_of_not_utf8 path hbytes]
      simp
  | longInteger hbytes hread hlong =>
      rw [ofBytes_of_text path hbytes, hread]
      simp
  | tooDeep hbytes hread hlong =>
      rw [ofBytes_of_text path hbytes, hread]
      simp
  | mistimed hread hentry htime hothers =>
      rw [hread.ofBytes path]
      obtain ⟨upset, hupset⟩ | ⟨settings, hok, hodd⟩ :=
        ofToml_of_mistimed path hothers hentry htime
      · rw [hupset]
        simp
      · rw [hok]
        refine ⟨by simp, ?_⟩
        rintro _ ⟨⟩ husable
        obtain rfl | hnan := hodd
        · exact ⟨_, true, hread, hentry⟩
        · obtain ⟨time, htime, -⟩ := husable.timeout
          rw [isNaN_of_value htime] at hnan
          cases hnan

/-- A file is at fault exactly if it is neither good nor unforeseen. -/
theorem fault_iff (path : String) :
    (∃ fault, Settings.ofBytes room path content = .error (.fault fault)) ↔
      ¬ Good room content ∧ ¬ Unforeseen room content := by
  constructor
  · rintro ⟨fault, hfault⟩
    refine ⟨fun hgood => ?_, fun hunforeseen =>
      (not_kept_of_unforeseen path hunforeseen).1 fault hfault⟩
    obtain ⟨settings, hok, -⟩ := usable_of_good path hgood
    cases hfault.symm.trans hok
  · rintro ⟨hgood, hforeseen⟩
    by_cases hutf8 : ∃ text, utf8Bytes text = content
    · obtain ⟨text, hbytes⟩ := hutf8
      cases hread : Toml.read room text with
      | ok document => exact fault_of_reads path ⟨text, hbytes, hread⟩ hgood hforeseen
      | error fault =>
          cases fault with
          | malformed =>
              refine ⟨.malformedCredentials, ?_⟩
              rw [ofBytes_of_text path hbytes, hread]
          | tooLong digits =>
              have hlong := Toml.allows_of_read (fun _ => Nat.zero_le _) hread
              exact absurd (.longInteger hbytes hread hlong) hforeseen
          | tooDeep =>
              refine absurd (.tooDeep hbytes hread fun least hroom => ?_) hforeseen
              exact Toml.allows_of_read hroom hread
    · exact absurd (.notUtf8 (not_exists.mp hutf8)) hforeseen

end Files

end ApiServer

/-! ## Sessions -/

namespace CommandLine

variable {σ : Type}

theorem listed_ending_ne_misuse (absence : String) (isEmpty : Bool)
    (lines : Option (List String)) : (listed absence isEmpty lines).ending ≠ .misuse := by
  unfold listed
  split
  · exact nofun
  · split <;> exact nofun

theorem changed_ending_ne_misuse {α : Type} (done : String) (name : α → String)
    (answer : Except Fault α) : (changed done name answer).ending ≠ .misuse := by
  cases answer <;> exact nofun

/-- A command that is carried out does not end as if it could not be meant. -/
theorem perform_ending_ne_misuse (backend : Backend σ) (now : Calendar.DateTime)
    (command : Command) (state : σ) :
    (perform backend now command state).1.ending ≠ .misuse := by
  unfold perform
  split
  · dsimp only [Prod.map]
    split
    · exact listed_ending_ne_misuse _ _ _
    · exact nofun
  · dsimp only [Prod.map]
    split
    · exact listed_ending_ne_misuse _ _ _
    · exact nofun
  · exact changed_ending_ne_misuse _ _ _
  · exact changed_ending_ne_misuse _ _ _
  · exact changed_ending_ne_misuse _ _ _
  · exact nofun

theorem Ending.status_eq_two_iff (ending : Ending) : ending.status = 2 ↔ ending = .misuse := by
  cases ending <;> decide

section Sessions

variable {gateway : Gateway σ} {surroundings : Files.Surroundings} {plan : Plan} {state : σ}

theorem openStore_ne_misuse (gateway : Gateway σ) (state : σ)
    (hfound : ∀ fault, ApiServer.Settings.find surroundings plan.invocation.credentials ≠
      .error (.fault fault)) :
    (openStore gateway surroundings plan.invocation.credentials state).1 ≠ .error .misuse := by
  unfold openStore
  split
  next fault hfault => exact absurd hfault (hfound fault)
  next => exact nofun
  next => split <;> exact nofun
  next => split <;> exact nofun

/-- A session with a command line that can be meant ends as if it could not exactly if the settings
for the server are at fault. -/
theorem carryOut_ending_eq_misuse_iff :
    (carryOut gateway surroundings plan state).1.ending = .misuse ↔
      ∃ fault, ApiServer.Settings.find surroundings plan.invocation.credentials =
        .error (.fault fault) := by
  constructor
  · intro hmisuse
    by_contra hfound
    have hopen := openStore_ne_misuse gateway state (not_exists.mp hfound)
    unfold carryOut at hmisuse
    split at hmisuse
    next ending _ hending =>
      cases hmisuse
      rw [hending] at hopen
      exact hopen rfl
    next =>
      split at hmisuse
      next => cases hmisuse
      next => exact perform_ending_ne_misuse _ _ _ _ hmisuse
  · rintro ⟨fault, hfault⟩
    rw [carryOut, openStore, hfault]

end Sessions

end CommandLine

/-! ## All files -/

namespace ApiServer

/-- A file at a path that is named for the credentials is where the settings are found. -/
theorem find_of_namedPath {surroundings : Files.Surroundings} {explicit : Option String}
    {path : Files.Path} {content : Bytes}
    (hpath : namedPath surroundings explicit = .ok (some path))
    (hcontent : surroundings.files.content? (surroundings.folder.below path) = some content) :
    Settings.find surroundings explicit =
      (Settings.ofBytes surroundings.room path.text content).map some := by
  have hfound : credentialsPath surroundings explicit = .ok (some path) := by
    rw [credentialsPath, hpath]
    change (if _ then _ else _) = _
    rw [hcontent]
    rfl
  rw [Settings.find, hfound]
  change (Settings.ofBytes surroundings.room path.text ((_ : Option Bytes).getD []) >>= _) = _
  rw [hcontent]
  rfl

/-- Every file of credentials is at fault or gives settings that can be used, unless it is
unforeseen; and a command line that can be meant, if it names the file for its credentials, ends as
one that cannot exactly if the file is neither good nor unforeseen. -/
theorem bad_credentials_are_faults_unless_unforeseen (content : Bytes) :
    (∀ (room : List Char → Nat) (path : String),
      (∃ fault, Settings.ofBytes room path content = .error (.fault fault)) ∨
          (∃ settings, Settings.ofBytes room path content = .ok settings ∧ settings.Usable ∧
            ¬ TimedByTruth room content) ↔
        ¬ Unforeseen room content) ∧
      ∀ (σ : Type) (gateway : CommandLine.Gateway σ) (surroundings : Files.Surroundings)
        (line : List String) (state : σ) (plan : CommandLine.Plan) (path : Files.Path),
        CommandLine.Plan.read surroundings.env line = .ok plan →
        namedPath surroundings plan.invocation.credentials = .ok (some path) →
        surroundings.files.content? (surroundings.folder.below path) = some content →
        ((CommandLine.session gateway surroundings line state).1.ending.status = 2 ↔
          ¬ Good surroundings.room content ∧ ¬ Unforeseen surroundings.room content) := by
  constructor
  · intro room path
    constructor
    · intro hkept hunforeseen
      obtain ⟨hfault, hsettings⟩ := not_kept_of_unforeseen path hunforeseen
      obtain ⟨fault, hok⟩ | ⟨settings, hok, husable, htruth⟩ := hkept
      · exact hfault fault hok
      · exact htruth (hsettings settings hok husable)
    · intro hforeseen
      by_cases hgood : Good room content
      · exact Or.inr (usable_of_good path hgood)
      · exact Or.inl ((fault_iff path).mpr ⟨hgood, hforeseen⟩)
  · intro σ gateway surroundings line state plan path hplan hpath hcontent
    rw [CommandLine.Ending.status_eq_two_iff, CommandLine.session, hplan]
    simp only
    rw [CommandLine.carryOut_ending_eq_misuse_iff, find_of_namedPath hpath hcontent,
      ← fault_iff]
    cases Settings.ofBytes surroundings.room path.text content <;> simp [Except.map]

theorem exists_ok_of_any {α ε : Type} {found : Except ε α} {test : α → Bool}
    (htest : found.toOption.any test = true) : ∃ value, found = .ok value ∧ test value = true := by
  cases found with
  | ok value => exact ⟨value, rfl, htest⟩
  | error trouble => cases htest

/-- The bytes of a text in ASCII. -/
def asciiBytes (text : String) : Bytes :=
  text.toList.map fun c => UInt8.ofNat c.toNat

/-- Surroundings with a single file. -/
def surroundingsOf (content : Bytes) : Files.Surroundings where
  files := ⟨[(["cluster.toml"], .file content)]⟩

/-- No way to any store. -/
def noGateway : CommandLine.Gateway Unit where
  openLocal state := (none, state)
  openServer _ := none
  now _ := ⟨⟨2026, 10, 19⟩, 12, 0, 0, 0, some 0⟩

theorem bad_credentials_are_faults_of_number_for_server :
    (CommandLine.session noGateway (surroundingsOf (asciiBytes "server = 1"))
        ["list", "--credentials", "/cluster.toml"] ()).1.ending.status = 2 ∧
      ¬ Good Files.usualRoom (asciiBytes "server = 1") ∧
      ¬ Unforeseen Files.usualRoom (asciiBytes "server = 1") := by
  have hiff := (bad_credentials_are_faults_unless_unforeseen (asciiBytes "server = 1")).2 Unit
    noGateway (surroundingsOf (asciiBytes "server = 1")) ["list", "--credentials", "/cluster.toml"]
    () ⟨⟨some "/cluster.toml", .list .ats none false⟩, none⟩ ⟨"/", ["cluster.toml"]⟩ rfl rfl rfl
  have hstatus : (CommandLine.session noGateway (surroundingsOf (asciiBytes "server = 1"))
      ["list", "--credentials", "/cluster.toml"] ()).1.ending.status = 2 := by
    decide +kernel
  exact ⟨hstatus, hiff.mp hstatus⟩

/-- A byte that begins no character interrupts the reading, so that the session fails, and the word
for no number is accepted as a time, as is a truth value. -/
theorem broken_bytes_and_odd_times_are_no_faults :
    Settings.ofBytes Files.usualRoom "/cluster.toml" [0xFF] = .error (.upset .notUtf8) ∧
      (CommandLine.session noGateway (surroundingsOf [0xFF])
        ["list", "--credentials", "/cluster.toml"] ()).1.ending.status = 1 ∧
      (∃ settings, Settings.ofBytes Files.usualRoom "/cluster.toml"
          (asciiBytes "server = 's'\ntimeout_seconds = nan") = .ok settings ∧
        settings.timeout.isNaN = true) ∧
      ∃ settings, Settings.ofBytes Files.usualRoom "/cluster.toml"
          (asciiBytes "server = 's'\ntimeout_seconds = true") = .ok settings ∧
        settings.timeout == 1 := by
  refine ⟨rfl, by decide +kernel, exists_ok_of_any ?_, exists_ok_of_any ?_⟩
  · decide +kernel
  · decide +kernel

end ApiServer

end OneShot
