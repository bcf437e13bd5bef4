import OneShot.Proofs.Http.Escapes
import OneShot.Http.Retry
import Mathlib.Data.List.TakeWhile

/-!
# Paths below the address of a server

A path without question mark and number sign is put below the path of the server, and the
segments `.` and `..` are resolved.  What the server is asked for is its own path and the resolved
segments, so two paths meet only if their segments do.
-/

namespace OneShot.Http

open OneShot.Text

theorem piecesAt_eq_splitOn (separator : Char) (chars : List Char) :
    piecesAt separator chars = chars.splitOn separator := by
  induction chars with
  | nil => rfl
  | cons c rest ih =>
      rw [piecesAt, ih, List.splitOn_cons_eq_if_modifyHead]
      cases hpieces : rest.splitOn separator with
      | nil => exact absurd hpieces (List.splitOn_ne_nil _ _)
      | cons piece pieces => rfl

/-! ## Resolving -/

/-- What a segment does to the segments before it, the last one first. -/
def push (kept : List (List Char)) (piece : List Char) : List (List Char) :=
  if piece == ['.'] then kept
  else if piece == ['.', '.'] then
    if kept.isEmpty || kept == [[]] then kept else kept.drop 1
  else piece :: kept

theorem resolvePath_eq (path : List Char) :
    resolvePath path = ['/'].intercalate ((path.splitOn '/').foldl push []).reverse := by
  rw [resolvePath, piecesAt_eq_splitOn]
  rfl

theorem mem_intercalate {separator c : Char} {pieces : List (List Char)}
    (hc : c ∈ [separator].intercalate pieces) : c = separator ∨ ∃ piece ∈ pieces, c ∈ piece := by
  induction pieces with
  | nil => cases hc
  | cons first rest ih =>
      cases rest with
      | nil =>
          rw [List.intercalate_singleton] at hc
          exact Or.inr ⟨first, List.mem_cons_self, hc⟩
      | cons second rest =>
          rw [List.intercalate_cons_cons, List.append_assoc, List.mem_append, List.mem_append,
            List.mem_singleton] at hc
          rcases hc with hfirst | hmark | hlater
          · exact Or.inr ⟨first, List.mem_cons_self, hfirst⟩
          · exact Or.inl hmark
          · rcases ih hlater with hmark | ⟨piece, hpiece, hc⟩
            · exact Or.inl hmark
            · exact Or.inr ⟨piece, List.mem_cons_of_mem first hpiece, hc⟩

theorem mem_of_mem_splitOn {chars piece : List Char} {separator c : Char}
    (hpiece : piece ∈ chars.splitOn separator) (hc : c ∈ piece) : c ∈ chars := by
  induction chars generalizing piece with
  | nil =>
      rw [List.splitOn_nil, List.mem_singleton] at hpiece
      subst hpiece
      cases hc
  | cons d rest ih =>
      rw [List.splitOn_cons_eq_if_modifyHead] at hpiece
      split at hpiece
      next =>
        rcases List.mem_cons.mp hpiece with rfl | hlater
        · cases hc
        · exact List.mem_cons_of_mem d (ih hlater hc)
      next =>
        cases hpieces : rest.splitOn separator with
        | nil => exact absurd hpieces (List.splitOn_ne_nil _ _)
        | cons first others =>
            rw [hpieces, List.modifyHead_cons] at hpiece
            rcases List.mem_cons.mp hpiece with rfl | hlater
            · rcases List.mem_cons.mp hc with rfl | hrest
              · exact List.mem_cons_self
              · exact List.mem_cons_of_mem d (ih (hpieces ▸ List.mem_cons_self) hrest)
            · exact List.mem_cons_of_mem d (ih (hpieces ▸ List.mem_cons_of_mem first hlater) hc)

theorem mem_foldl_push {pieces kept : List (List Char)} {piece : List Char}
    (hpiece : piece ∈ pieces.foldl push kept) : piece ∈ pieces ∨ piece ∈ kept := by
  induction pieces generalizing kept with
  | nil => exact Or.inr hpiece
  | cons first rest ih =>
      rcases ih hpiece with hlater | hpushed
      · exact Or.inl (List.mem_cons_of_mem first hlater)
      · unfold push at hpushed
        split at hpushed
        next => exact Or.inr hpushed
        next =>
          split at hpushed
          next =>
            split at hpushed
            next => exact Or.inr hpushed
            next => exact Or.inr (List.mem_of_mem_drop hpushed)
          next =>
            rcases List.mem_cons.mp hpushed with rfl | hkept
            · exact Or.inl List.mem_cons_self
            · exact Or.inr hkept

/-- Resolving brings no new characters into a path but slashes. -/
theorem mem_resolvePath {path : List Char} {c : Char} (hc : c ∈ resolvePath path) :
    c = '/' ∨ c ∈ path := by
  rw [resolvePath_eq] at hc
  rcases mem_intercalate hc with hslash | ⟨piece, hpiece, hmem⟩
  · exact Or.inl hslash
  · rcases mem_foldl_push (List.mem_reverse.mp hpiece) with hpiece | hnone
    · exact Or.inr (mem_of_mem_splitOn hpiece hmem)
    · cases hnone

/-- A directory and a name in it; the name `..` leads out of the directory again. -/
def climb (directory : List (List Char)) (name : List Char) : List (List Char) :=
  if name = ['.', '.'] then directory.dropLast else directory ++ [name]

/-- Segments as they stand in a path, the last one first, on top of others. -/
def stacked (segments kept : List (List Char)) : List (List Char) :=
  (segments.map (escape isPathEscaped)).reverse ++ kept

variable {segments kept : List (List Char)} {name : List Char}

theorem stacked_under (segments more kept : List (List Char)) :
    stacked (segments ++ more) kept = stacked more (stacked segments kept) := by
  simp [stacked]

theorem stacked_append (name : List Char) :
    stacked (segments ++ [name]) kept = escape isPathEscaped name :: stacked segments kept := by
  simp [stacked]

/-- Escaping makes no dots. -/
theorem escape_eq_dots_iff {dots : List Char} (hdots : ∀ c ∈ dots, c = '.') :
    escape isPathEscaped name = dots ↔ name = dots := by
  constructor
  · intro hescape
    induction dots generalizing name with
    | nil =>
        cases name with
        | nil => rfl
        | cons c rest =>
            rw [escape_cons] at hescape
            split at hescape
            next =>
              obtain ⟨others, hothers⟩ := exists_escapeChar_eq_cons c
              rw [hothers] at hescape
              cases hescape
            next => cases hescape
    | cons dot dots ih =>
        have hdot : dot ≠ '%' := by
          rw [hdots dot List.mem_cons_self]
          decide
        obtain ⟨more, rfl, hmore⟩ := exists_of_escape_eq_cons hescape hdot
        rw [ih (fun c hc => hdots c (List.mem_cons_of_mem dot hc)) hmore]
  · rintro rfl
    apply escape_of_plain
    intro c hc
    rw [hdots c hc]
    decide

theorem push_of_name (hname : name ≠ ['.']) (hparent : name ≠ ['.', '.']) :
    push kept (escape isPathEscaped name) = escape isPathEscaped name :: kept := by
  have hdot : (escape isPathEscaped name == ['.']) = false :=
    beq_eq_false_iff_ne.mpr (mt (escape_eq_dots_iff (by simp)).mp hname)
  have hdots : (escape isPathEscaped name == ['.', '.']) = false :=
    beq_eq_false_iff_ne.mpr (mt (escape_eq_dots_iff (by simp)).mp hparent)
  rw [push, hdot, hdots, if_neg Bool.false_ne_true, if_neg Bool.false_ne_true]

theorem push_stacked (hname : name ≠ ['.']) (hparent : name ≠ ['.', '.']) :
    push (stacked segments kept) (escape isPathEscaped name) =
      stacked (segments ++ [name]) kept := by
  rw [push_of_name hname hparent, stacked_append]

theorem foldl_push_names {names : List (List Char)}
    (hnames : ∀ name ∈ names, name ≠ ['.'] ∧ name ≠ ['.', '.']) :
    (names.map (escape isPathEscaped)).foldl push kept = stacked names kept := by
  induction names generalizing kept with
  | nil => rfl
  | cons name rest ih =>
      obtain ⟨hname, hparent⟩ := hnames name List.mem_cons_self
      rw [List.map_cons, List.foldl_cons, push_of_name hname hparent,
        ih fun other hother => hnames other (List.mem_cons_of_mem name hother)]
      simp [stacked]

/-- A segment leads into the directory of the segments before it, or out of it again. -/
theorem push_climb {directory : List Char} (hdirectory : directory ≠ []) (hname : name ≠ ['.']) :
    push (stacked (segments ++ [directory]) kept) (escape isPathEscaped name) =
      stacked (climb (segments ++ [directory]) name) kept := by
  by_cases hparent : name = ['.', '.']
  · subst hparent
    have hdots : escape isPathEscaped ['.', '.'] = ['.', '.'] := by decide
    have hfilled : escape isPathEscaped directory ≠ [] :=
      mt (escape_eq_dots_iff (by simp)).mp hdirectory
    rw [climb, if_pos rfl, List.dropLast_concat, stacked_append, hdots]
    simp [push, hfilled]
  · rw [push_of_name hname hparent, climb, if_neg hparent]
    exact (stacked_append name).symm

/-! ## Addresses -/

/-- The path of a server without the slash at its end. -/
def Url.trunk (base : Url) : List Char :=
  base.baseTarget.dropLast

theorem Url.baseTarget_eq (base : Url) : base.baseTarget = base.trunk ++ ['/'] := by
  have hlast : base.baseTarget.getLast? = some '/' := by
    rw [Url.baseTarget]
    split
    next hslash => exact beq_iff_eq.mp hslash
    next => exact List.getLast?_concat
  obtain ⟨front, hfront⟩ := List.getLast?_eq_some_iff.mp hlast
  rw [Url.trunk, hfront, List.dropLast_concat]

/-- The path of an address that was read holds nothing that would be escaped. -/
theorem Url.plain_path {address : String} {base : Url} (hread : Url.read? address = some base) :
    ∀ c ∈ base.path, isPathEscaped c = false := by
  obtain ⟨reference, -, hurl⟩ := Option.bind_eq_some_iff.mp hread
  unfold Reference.url? at hurl
  split at hurl
  next => cases hurl
  next =>
    obtain ⟨host, -, rfl⟩ := Option.map_eq_some_iff.mp hurl
    exact fun c hc => isPathEscaped_of_mem_escape hc

theorem Url.plain_baseTarget {address : String} {base : Url}
    (hread : Url.read? address = some base) (hquery : base.query = none) :
    ∀ c ∈ base.baseTarget, isPathEscaped c = false := by
  have hslash : isPathEscaped '/' = false := by decide
  have htarget : ∀ c ∈ base.target.toList, isPathEscaped c = false := by
    rw [Url.target, String.toList_ofList, hquery, joinQuery]
    split
    next =>
      intro c hc
      rw [List.mem_singleton.mp hc]
      exact hslash
    next => exact Url.plain_path hread
  intro c hc
  rw [Url.baseTarget] at hc
  split at hc
  next => exact htarget c hc
  next =>
    rcases List.mem_append.mp hc with hc | hc
    · exact htarget c hc
    · rw [List.mem_singleton.mp hc]
      exact hslash

section Reading

variable {text : String} {rest : List Char}

/-- What begins like a path of resources is read for a path, up to a question mark or a number
sign. -/
theorem Reference.read?_of_head (hhead : text.toList = '/' :: 'a' :: rest) :
    Reference.read? text =
      if (text.toList.any fun c => c.toNat < 0x20 || c.toNat == 0x7F) ||
          longestReference < text.toList.length then none
      else some
        { path := '/' :: 'a' :: rest.takeWhile fun c => c != '?' && c != '#'
          query := queryOf (rest.dropWhile fun c => c != '?' && c != '#') } := by
  have hslash : isSchemeChar '/' = false := by decide
  unfold Reference.read?
  simp [hhead, splitScheme, splitAuthority, hslash]

theorem url?_of_path (tail : List Char) (query : Option (List Char)) :
    ∃ url, Reference.url? { path := '/' :: 'a' :: tail, query } = some url ∧
      url.isAbsolute = false :=
  ⟨_, rfl, rfl⟩

/-- A path that can be taken neither for a host or a scheme nor for a query. -/
structure IsPlainPath (text : String) : Prop where
  head : ∃ rest, text.toList = '/' :: 'a' :: rest
  marks : ∀ c ∈ text.toList, c ≠ '?' ∧ c ≠ '#'

theorem IsPlainPath.eq_of_read? (hpath : IsPlainPath text) {reference : Reference}
    (hread : Reference.read? text = some reference) : reference = { path := text.toList } := by
  obtain ⟨rest, hhead⟩ := hpath.head
  have hmarks : ∀ c ∈ rest, (c != '?' && c != '#') = true := by
    intro c hc
    have hmem : c ∈ text.toList := by
      rw [hhead]
      exact List.mem_cons_of_mem _ (List.mem_cons_of_mem _ hc)
    obtain ⟨hquestion, hnumber⟩ := hpath.marks c hmem
    simp [hquestion, hnumber]
  rw [Reference.read?_of_head hhead, List.takeWhile_eq_self_iff.mpr hmarks,
    List.dropWhile_eq_nil_iff.mpr hmarks] at hread
  split at hread
  next => cases hread
  next =>
    cases hread
    rw [hhead]
    rfl

end Reading

/-- The path of the request for a path. -/
theorem IsPlainPath.path_of_resolve? {text address : String} {base url : Url}
    (hpath : IsPlainPath text) (hread : Url.read? address = some base)
    (hquery : base.query = none) (hresolve : base.resolve? text = some url) :
    url.path =
      if base.scheme.isEmpty && base.host.isEmpty then
        base.trunk ++ escape isPathEscaped text.toList
      else resolvePath (base.trunk ++ escape isPathEscaped text.toList) := by
  obtain ⟨rest, hhead⟩ := hpath.head
  obtain ⟨tail, htail⟩ : ∃ tail, escape isPathEscaped text.toList = '/' :: 'a' :: tail := by
    rw [hhead]
    exact ⟨_, rfl⟩
  unfold Url.resolve? at hresolve
  obtain ⟨reference, hreference, hresolve⟩ := Option.bind_eq_some_iff.mp hresolve
  obtain rfl := hpath.eq_of_read? hreference
  have hbelow : base.targetBelow { path := text.toList } =
      base.trunk ++ escape isPathEscaped text.toList := by
    rw [Url.targetBelow, Url.baseTarget_eq, Reference.target]
    simp [htail, joinQuery]
  obtain ⟨found, hfound, hrelative⟩ := url?_of_path rest none
  rw [← hhead] at hfound
  have hplain : ∀ c ∈ base.trunk ++ escape isPathEscaped text.toList,
      isPathEscaped c = false := by
    intro c hc
    rcases List.mem_append.mp hc with hc | hc
    · apply Url.plain_baseTarget hread hquery
      rw [Url.baseTarget_eq]
      exact List.mem_append_left _ hc
    · exact isPathEscaped_of_mem_escape hc
  have hwhole : (base.trunk ++ escape isPathEscaped text.toList).takeWhile (· != '?') =
      base.trunk ++ escape isPathEscaped text.toList := by
    rw [List.takeWhile_eq_self_iff]
    intro c hc
    rw [bne_iff_ne]
    rintro rfl
    exact absurd (hplain _ hc) (by decide)
  have hresolved : ∀ c ∈ resolvePath (base.trunk ++ escape isPathEscaped text.toList),
      isPathEscaped c = false := by
    intro c hc
    rcases mem_resolvePath hc with rfl | hc
    · decide
    · exact hplain c hc
  rw [hfound] at hresolve
  simp only [Option.bind_eq_bind, Option.bind_some, hrelative, Bool.false_eq_true, if_false,
    hbelow] at hresolve
  split at hresolve
  next =>
    cases hresolve
    simp only [Url.ofTarget, hwhole]
    split
    next => exact escape_of_plain hplain
    next => exact escape_of_plain hresolved
  next => cases hresolve

/-! ## What is asked for -/

theorem unescaped_intercalate {pieces : List (List Char)}
    (hplain : ∀ piece ∈ pieces, holdsEscape piece = false) :
    unescaped (['/'].intercalate (pieces.map (escape isPathEscaped))) =
      (['/'].intercalate pieces).flatMap String.utf8EncodeChar := by
  induction pieces with
  | nil => rfl
  | cons first rest ih =>
      have hfirst := unescaped_escape (hplain first List.mem_cons_self)
      have hrest := ih fun piece hpiece => hplain piece (List.mem_cons_of_mem first hpiece)
      cases rest with
      | nil => simpa using hfirst
      | cons second rest =>
          rw [List.map_cons, List.map_cons, List.intercalate_cons_cons, ← List.map_cons,
            List.append_assoc, List.singleton_append, unescaped_append_slash, hfirst, hrest,
            List.intercalate_cons_cons, List.append_assoc, List.singleton_append,
            List.flatMap_append, List.flatMap_cons]

/-- Segments that stand before others are read by themselves. -/
theorem exists_front_unescaped (front : List (List Char)) :
    ∃ bytes, ∀ pieces, pieces ≠ [] → unescaped (['/'].intercalate (front ++ pieces)) =
      bytes ++ unescaped (['/'].intercalate pieces) := by
  induction front with
  | nil => exact ⟨[], fun pieces _ => rfl⟩
  | cons first rest ih =>
      obtain ⟨bytes, hbytes⟩ := ih
      refine ⟨unescaped first ++ (String.utf8EncodeChar '/' ++ bytes), fun pieces hpieces => ?_⟩
      obtain ⟨second, others, hcons⟩ :
          ∃ second others, rest ++ pieces = second :: others :=
        List.exists_cons_of_ne_nil (List.append_ne_nil_of_right_ne_nil rest hpieces)
      rw [List.cons_append, hcons, List.intercalate_cons_cons, ← hcons, List.append_assoc,
        List.singleton_append, unescaped_append_slash, hbytes pieces hpieces]
      simp only [List.append_assoc]

theorem flatMap_utf8_inj {one other : List Char}
    (hbytes : one.flatMap String.utf8EncodeChar = other.flatMap String.utf8EncodeChar) :
    one = other := by
  have hsame : utf8Bytes (String.ofList one) = utf8Bytes (String.ofList other) := by
    simpa only [utf8Bytes_eq, String.toList_ofList] using hbytes
  exact String.ofList_injective (utf8Bytes_inj hsame)

/-- A path, the segments that it falls into, and those that are left when they are resolved. -/
structure Settles (text : String) (segments settled : List (List Char)) : Prop where
  path : IsPlainPath text
  splits : text.toList.splitOn '/' = [] :: segments
  pushes : ∀ kept, (segments.map (escape isPathEscaped)).foldl push kept = stacked settled kept
  inhabited : segments ≠ [] ∧ settled ≠ []
  plain : ∀ piece ∈ segments ++ settled, '/' ∉ piece ∧ holdsEscape piece = false

section Settles

variable {text other address : String} {base url url' : Url}
  {segments settled segments' settled' : List (List Char)}

theorem Settles.splitOn_escape_eq (hsettles : Settles text segments settled) :
    (escape isPathEscaped text.toList).splitOn '/' =
      [] :: segments.map (escape isPathEscaped) := by
  rw [splitOn_escape, hsettles.splits]
  rfl

theorem Settles.escape_eq (hsettles : Settles text segments settled) :
    escape isPathEscaped text.toList =
      '/' :: ['/'].intercalate (segments.map (escape isPathEscaped)) := by
  have hwhole : ['/'].intercalate ((escape isPathEscaped text.toList).splitOn '/') =
      escape isPathEscaped text.toList := List.intercalate_splitOn '/'
  obtain ⟨first, rest, hsegments⟩ := List.exists_cons_of_ne_nil hsettles.inhabited.1
  rw [← hwhole, hsettles.splitOn_escape_eq, hsegments, List.map_cons,
    List.intercalate_cons_cons]
  rfl

theorem Settles.resolvePath_eq (hsettles : Settles text segments settled) (trunk : List Char) :
    resolvePath (trunk ++ escape isPathEscaped text.toList) =
      ['/'].intercalate (((trunk.splitOn '/').foldl push []).reverse ++
        settled.map (escape isPathEscaped)) := by
  have htail : (['/'].intercalate (segments.map (escape isPathEscaped))).splitOn '/' =
      segments.map (escape isPathEscaped) := by
    have hwhole := hsettles.splitOn_escape_eq
    rw [hsettles.escape_eq, List.splitOn_cons_eq_if_modifyHead] at hwhole
    exact (List.cons.inj hwhole).2
  rw [Http.resolvePath_eq, hsettles.escape_eq, List.splitOn_append_cons_self, htail,
    List.foldl_append, hsettles.pushes, stacked, List.reverse_append, List.reverse_reverse]

/-- What the request for a path asks for: something of the server, and then the segments. -/
theorem exists_unescaped_path (hread : Url.read? address = some base)
    (hquery : base.query = none) :
    ∃ bytes, ∀ {text segments settled url}, Settles text segments settled →
      base.resolve? text = some url →
        unescaped url.path = bytes ++
          (['/'].intercalate (if base.scheme.isEmpty && base.host.isEmpty then segments
            else settled)).flatMap String.utf8EncodeChar := by
  cases hrelative : base.scheme.isEmpty && base.host.isEmpty with
  | true =>
      refine ⟨unescaped base.trunk ++ String.utf8EncodeChar '/', ?_⟩
      intro text segments settled url hsettles hresolve
      have hplain : ∀ piece ∈ segments, holdsEscape piece = false := fun piece hpiece =>
        (hsettles.plain piece (List.mem_append_left settled hpiece)).2
      rw [hsettles.path.path_of_resolve? hread hquery hresolve, hrelative, if_pos rfl,
        if_pos rfl, hsettles.escape_eq, unescaped_append_slash, unescaped_intercalate hplain,
        List.append_assoc]
  | false =>
      obtain ⟨bytes, hbytes⟩ :=
        exists_front_unescaped ((base.trunk.splitOn '/').foldl push []).reverse
      refine ⟨bytes, ?_⟩
      intro text segments settled url hsettles hresolve
      have hplain : ∀ piece ∈ settled, holdsEscape piece = false := fun piece hpiece =>
        (hsettles.plain piece (List.mem_append_right segments hpiece)).2
      have hsettled : settled.map (escape isPathEscaped) ≠ [] :=
        mt List.map_eq_nil_iff.mp hsettles.inhabited.2
      rw [hsettles.path.path_of_resolve? hread hquery hresolve, hrelative,
        if_neg Bool.false_ne_true, if_neg Bool.false_ne_true, hsettles.resolvePath_eq,
        hbytes _ hsettled, unescaped_intercalate hplain]

theorem intercalate_inj {pieces pieces' : List (List Char)} (hpieces : pieces ≠ [])
    (hpieces' : pieces' ≠ []) (hapart : ∀ piece ∈ pieces, '/' ∉ piece)
    (hapart' : ∀ piece ∈ pieces', '/' ∉ piece)
    (hsame : ['/'].intercalate pieces = ['/'].intercalate pieces') : pieces = pieces' := by
  rw [← List.splitOn_intercalate '/' hapart hpieces, hsame,
    List.splitOn_intercalate '/' hapart' hpieces']

/-- Below one server, the requests for two paths ask for the same only if their segments are the
same, or at least those that are left. -/
theorem Settles.eq_of_unescaped (hsettles : Settles text segments settled)
    (hsettles' : Settles other segments' settled') (hread : Url.read? address = some base)
    (hquery : base.query = none) (hresolve : base.resolve? text = some url)
    (hresolve' : base.resolve? other = some url')
    (hsame : unescaped url.path = unescaped url'.path) :
    segments = segments' ∨ settled = settled' := by
  obtain ⟨bytes, hbytes⟩ := exists_unescaped_path hread hquery
  rw [hbytes hsettles hresolve, hbytes hsettles' hresolve'] at hsame
  have hinner := flatMap_utf8_inj (List.append_cancel_left hsame)
  have hapart : ∀ {text segments settled}, Settles text segments settled →
      (∀ piece ∈ segments, '/' ∉ piece) ∧ ∀ piece ∈ settled, '/' ∉ piece :=
    fun hsettles =>
      ⟨fun piece hpiece => (hsettles.plain piece (List.mem_append_left _ hpiece)).1,
        fun piece hpiece => (hsettles.plain piece (List.mem_append_right _ hpiece)).1⟩
  split at hinner
  next =>
    exact Or.inl (intercalate_inj hsettles.inhabited.1 hsettles'.inhabited.1 (hapart hsettles).1
      (hapart hsettles').1 hinner)
  next =>
    exact Or.inr (intercalate_inj hsettles.inhabited.2 hsettles'.inhabited.2 (hapart hsettles).2
      (hapart hsettles').2 hinner)

end Settles

end OneShot.Http
