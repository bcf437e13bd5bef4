import OneShot.ApiServer.Calls
import OneShot.Proofs.Http.Addresses
import OneShot.Proofs.Wire.Endpoints

/-!
# What requests reach

Before a request is sent, the segments `.` and `..` of its path are resolved, and what stands
behind a question mark or a number sign is split off.  Requests for two resources ask a server for
the same only if the resources are the same, unless a name is read for more than a name.
-/

namespace OneShot.Wire

open OneShot.Http (climb stacked push escape isPathEscaped holdsEscape IsPlainPath Settles
  push_stacked push_climb)

/-- A segment that stands for itself, or for the directory above. -/
structure PlainSegment (segment : List Char) : Prop where
  slash : '/' ∉ segment
  marks : ∀ c ∈ segment, c ≠ '?' ∧ c ≠ '#'
  escapes : holdsEscape segment = false
  dot : segment ≠ ['.']

theorem plainSegment_iff {segment : List Char} :
    (segment.all (fun c => c != '/' && c != '?' && c != '#') && !holdsEscape segment &&
      segment != ['.']) = true ↔ PlainSegment segment := by
  simp only [Bool.and_eq_true, List.all_eq_true, bne_iff_ne, Bool.not_eq_true']
  constructor
  · rintro ⟨⟨hmarks, hescapes⟩, hdot⟩
    exact ⟨fun hslash => (hmarks '/' hslash).1.1 rfl,
      fun c hc => ⟨(hmarks c hc).1.2, (hmarks c hc).2⟩, hescapes, hdot⟩
  · rintro ⟨hslash, hmarks, hescapes, hdot⟩
    refine ⟨⟨fun c hc => ⟨⟨?_, (hmarks c hc).1⟩, (hmarks c hc).2⟩, hescapes⟩, hdot⟩
    rintro rfl
    exact hslash hc

instance (segment : List Char) : Decidable (PlainSegment segment) :=
  decidable_of_iff _ plainSegment_iff

/-- The segments that are the same for all objects of a kind. -/
def fixedSegments (kind : ResourceKind) : List (List Char) :=
  rootSegments kind ++ [pluralSegment kind, "namespaces".toList, "status".toList]

theorem plain_of_fixed {kind : ResourceKind} {segment : List Char}
    (hsegment : segment ∈ fixedSegments kind) :
    PlainSegment segment ∧ segment ≠ ['.', '.'] ∧ segment ≠ [] := by
  have hfixed : (fixedSegments kind).all (fun segment =>
      decide (PlainSegment segment) && segment != ['.', '.'] && segment != []) = true := by
    cases kind <;> decide +kernel
  simpa [and_assoc] using List.all_eq_true.mp hfixed segment hsegment

namespace Target

/-- The directory of a namespace below the root of a kind; the name `..` leads to the root. -/
def directory (ns : String) : List (List Char) :=
  climb ["namespaces".toList] ns.toList

/-- The segments below the root of a kind that are left when a path is resolved. -/
def settled (plural : List Char) : Target → List (List Char)
  | collection none => [plural]
  | collection (some ns) => directory ns ++ [plural]
  | item key => climb (directory key.ns ++ [plural]) key.name.toList
  | status key => climb (directory key.ns ++ [plural]) key.name.toList ++ ["status".toList]

/-- The collection of all namespaces, and the one that the name `..` leads to. -/
def IsWhole (target : Target) : Prop :=
  target = collection none ∨ target = collection (some "..")

variable {kind : ResourceKind} {plural : List Char} {one other : Target}

theorem toList_eq_dots {name : String} : name.toList = ['.', '.'] ↔ name = ".." := by
  have hdots : "..".toList = ['.', '.'] := by decide
  rw [← hdots, String.toList_inj]

theorem directory_eq (ns : String) :
    directory ns = if ns = ".." then [] else ["namespaces".toList, ns.toList] := by
  simp only [directory, climb, toList_eq_dots]
  split <;> rfl

theorem length_directory_mod_two (ns : String) : (directory ns).length % 2 = 0 := by
  rw [directory_eq]
  split <;> simp

theorem directory_inj {ns ns' : String} (hsame : directory ns = directory ns') : ns = ns' := by
  rw [directory_eq, directory_eq] at hsame
  split at hsame <;> split at hsame
  next hns hns' => rw [hns, hns']
  next => cases hsame
  next => cases hsame
  next =>
    simp only [List.cons.injEq, true_and, and_true] at hsame
    exact String.toList_inj.mp hsame

theorem climb_directory (plural : List Char) (ns name : String) :
    climb (directory ns ++ [plural]) name.toList =
      if name = ".." then directory ns else directory ns ++ [plural, name.toList] := by
  simp only [climb, toList_eq_dots, List.dropLast_concat, List.append_assoc,
    List.singleton_append]

theorem length_climb_mod_two (plural : List Char) (ns name : String) :
    (climb (directory ns ++ [plural]) name.toList).length % 2 = 0 := by
  have hdirectory := length_directory_mod_two ns
  rw [climb_directory]
  split
  next => exact hdirectory
  next =>
    rw [List.length_append, List.length_cons, List.length_singleton]
    omega

theorem climb_directory_inj {ns ns' name name' : String} (hplural : plural ≠ "namespaces".toList)
    (hsame : climb (directory ns ++ [plural]) name.toList =
      climb (directory ns' ++ [plural]) name'.toList) : ns = ns' ∧ name = name' := by
  -- no directory is an item, whose segments begin with the plural or have a plural behind two
  have hapart : ∀ ns ns' name, directory ns ≠ directory ns' ++ [plural, name] := by
    intro ns ns' name hsame
    rw [directory_eq, directory_eq] at hsame
    split at hsame <;> split at hsame
    case isFalse.isTrue => exact hplural (List.cons.inj hsame).1.symm
    all_goals simp at hsame
  rw [climb_directory, climb_directory] at hsame
  split at hsame <;> split at hsame
  next hname hname' => exact ⟨directory_inj hsame, hname.trans hname'.symm⟩
  next => exact absurd hsame (hapart _ _ _)
  next => exact absurd hsame.symm (hapart _ _ _)
  next =>
    obtain ⟨hdirectory, hrest⟩ := List.append_inj' hsame rfl
    simp only [List.cons.injEq, true_and, and_true] at hrest
    exact ⟨directory_inj hdirectory, String.toList_inj.mp hrest⟩

/-- What the collection of a namespace, or of all of them, is put below. -/
theorem settled_collection (plural : List Char) (ns : Option String) :
    (collection ns).settled plural = directory (ns.getD "..") ++ [plural] := by
  cases ns with
  | none =>
      have hroot : directory ".." = [] := by decide
      rw [Option.getD_none, hroot]
      rfl
  | some ns => rfl

theorem isWhole_or_eq_of_getD {ns ns' : Option String} (hsame : ns.getD ".." = ns'.getD "..") :
    collection ns = collection ns' ∨ (collection ns).IsWhole ∧ (collection ns').IsWhole := by
  cases ns with
  | none =>
      cases ns' with
      | none => exact Or.inl rfl
      | some name =>
          obtain rfl : ".." = name := hsame
          exact Or.inr ⟨Or.inl rfl, Or.inr rfl⟩
  | some name =>
      cases ns' with
      | none =>
          obtain rfl : name = ".." := hsame
          exact Or.inr ⟨Or.inr rfl, Or.inl rfl⟩
      | some name' =>
          obtain rfl : name = name' := hsame
          exact Or.inl rfl

/-- Whether an odd number of segments is left of a path. -/
def parity : Target → Nat
  | item _ => 0
  | collection _ | status _ => 1

/-- Items are an even number of segments below the root, and whatever else there is an odd one. -/
theorem length_settled_mod_two (plural : List Char) (target : Target) :
    (target.settled plural).length % 2 = target.parity := by
  cases target with
  | collection ns =>
      have hdirectory := length_directory_mod_two (ns.getD "..")
      rw [settled_collection, List.length_append, List.length_singleton, parity]
      omega
  | item key => exact length_climb_mod_two plural key.ns key.name
  | status key =>
      have hitem := length_climb_mod_two plural key.ns key.name
      rw [settled, List.length_append, List.length_singleton, parity]
      omega

/-- What is left of two paths tells them apart: items by the number of segments, and collections
and statuses by the last one. -/
theorem settled_inj (hplural : plural ≠ "namespaces".toList) (hstatus : plural ≠ "status".toList)
    (hsame : one.settled plural = other.settled plural) :
    one = other ∨ one.IsWhole ∧ other.IsWhole := by
  have hparity : one.parity = other.parity := by
    rw [← length_settled_mod_two plural one, hsame, length_settled_mod_two]
  match one, other with
  | item _, collection _ | item _, status _ => cases hparity
  | collection _, item _ | status _, item _ => cases hparity
  | collection ns, collection ns' =>
      rw [settled_collection, settled_collection] at hsame
      exact isWhole_or_eq_of_getD (directory_inj (List.append_cancel_right hsame))
  | collection ns, status key =>
      rw [settled_collection, settled] at hsame
      exact absurd (List.append_singleton_inj.mp hsame).2 hstatus
  | status key, collection ns =>
      rw [settled_collection, settled] at hsame
      exact absurd (List.append_singleton_inj.mp hsame).2.symm hstatus
  | item ⟨ns, name⟩, item ⟨ns', name'⟩ =>
      obtain ⟨rfl, rfl⟩ := climb_directory_inj hplural hsame
      exact Or.inl rfl
  | status ⟨ns, name⟩, status ⟨ns', name'⟩ =>
      obtain ⟨rfl, rfl⟩ := climb_directory_inj hplural (List.append_cancel_right hsame)
      exact Or.inl rfl

/-! ## Plain names -/

/-- The segments of a path whose names are segments themselves. -/
def plainSegments (plural : List Char) : Target → List (List Char)
  | collection none => [plural]
  | collection (some ns) => ["namespaces".toList, ns.toList, plural]
  | item key => ["namespaces".toList, key.ns.toList, plural, key.name.toList]
  | status key =>
      ["namespaces".toList, key.ns.toList, plural, key.name.toList, "status".toList]

theorem segments_of_plain {target : Target}
    (hnames : ∀ name ∈ target.names, PlainSegment name.toList) :
    target.segments plural = target.plainSegments plural := by
  cases target with
  | collection ns => cases ns <;> rfl
  | item key =>
      have hname := (hnames key.name (by simp [names])).slash
      rw [segments, itemSegments, List.splitOn_eq_singleton hname]
      rfl
  | status key =>
      have hname := (hnames key.name (by simp [names])).slash
      have hchars : (key.name ++ "/status").toList = key.name.toList ++ '/' :: "status".toList :=
        String.toList_append
      have hstatus : '/' ∉ "status".toList := by decide
      rw [segments, itemSegments, hchars, List.splitOn_append_cons_self_of_not_mem hname,
        List.splitOn_eq_singleton hstatus]
      rfl

theorem mem_directory {ns : String} {segment : List Char} (hsegment : segment ∈ directory ns) :
    segment ∈ ["namespaces".toList, ns.toList] := by
  rw [directory_eq] at hsegment
  split at hsegment
  next => cases hsegment
  next => exact hsegment

theorem mem_climb_directory {ns name : String} {segment : List Char}
    (hsegment : segment ∈ climb (directory ns ++ [plural]) name.toList) :
    segment ∈ ["namespaces".toList, ns.toList, plural, name.toList] := by
  rw [climb_directory] at hsegment
  split at hsegment
  next => exact List.mem_append_left [plural, name.toList] (mem_directory hsegment)
  next =>
    rcases List.mem_append.mp hsegment with hdirectory | hbelow
    · exact List.mem_append_left [plural, name.toList] (mem_directory hdirectory)
    · exact List.mem_append_right ["namespaces".toList, ns.toList] hbelow

/-- Resolving brings no new segments into a path. -/
theorem mem_of_mem_settled {target : Target} {segment : List Char}
    (hsegment : segment ∈ target.settled plural) : segment ∈ target.plainSegments plural := by
  match target with
  | collection none => exact hsegment
  | collection (some ns) =>
      rcases List.mem_append.mp hsegment with hdirectory | hplural
      · exact List.mem_append_left [plural] (mem_directory hdirectory)
      · exact List.mem_append_right ["namespaces".toList, ns.toList] hplural
  | item key => exact mem_climb_directory hsegment
  | status key =>
      rcases List.mem_append.mp hsegment with hitem | hstatus
      · exact List.mem_append_left ["status".toList] (mem_climb_directory hitem)
      · exact List.mem_append_right (plainSegments plural (item key)) hstatus

/-- A segment of a path is a name or the same for all objects of the kind. -/
theorem mem_plainSegments {target : Target} {segment : List Char}
    (hsegment : segment ∈ target.plainSegments (pluralSegment kind)) :
    segment ∈ fixedSegments kind ∨ ∃ name ∈ target.names, segment = name.toList := by
  have hfixed : segment = pluralSegment kind ∨ segment = "namespaces".toList ∨
      segment = "status".toList → segment ∈ fixedSegments kind := fun hsegment =>
    List.mem_append_right _ (by simpa using hsegment)
  match target with
  | collection none | collection (some ns) | item key | status key =>
      simp only [plainSegments, List.mem_cons, List.not_mem_nil, or_false] at hsegment
      simp only [names, Option.toList, List.mem_cons, List.not_mem_nil, or_false]
      grind

/-- Resolving the segments below the root of a kind. -/
theorem foldl_push_plainSegments {target : Target} (kept : List (List Char))
    (hnames : ∀ name ∈ target.names, PlainSegment name.toList) :
    ((target.plainSegments (pluralSegment kind)).map (escape isPathEscaped)).foldl push kept =
      stacked (target.settled (pluralSegment kind)) kept := by
  have hfixed : ∀ {segment}, segment ∈ fixedSegments kind → ∀ segments,
      push (stacked segments kept) (escape isPathEscaped segment) =
        stacked (segments ++ [segment]) kept := by
    intro segment hsegment segments
    obtain ⟨hplain, hparent, -⟩ := plain_of_fixed hsegment
    exact push_stacked hplain.dot hparent
  have hplural : pluralSegment kind ∈ fixedSegments kind := by simp [fixedSegments]
  have hnamespaces : "namespaces".toList ∈ fixedSegments kind := by simp [fixedSegments]
  have hstatus : "status".toList ∈ fixedSegments kind := by simp [fixedSegments]
  have hcollection : ∀ ns, PlainSegment ns.toList →
      push (push (push kept (escape isPathEscaped "namespaces".toList))
        (escape isPathEscaped ns.toList)) (escape isPathEscaped (pluralSegment kind)) =
        stacked (directory ns ++ [pluralSegment kind]) kept := by
    intro ns hns
    have hfirst : push kept (escape isPathEscaped "namespaces".toList) =
        stacked ([] ++ ["namespaces".toList]) kept := hfixed hnamespaces []
    rw [hfirst, push_climb (plain_of_fixed hnamespaces).2.2 hns.dot, List.nil_append,
      ← directory, hfixed hplural]
  have hitem : ∀ ns (name : String), PlainSegment name.toList →
      push (stacked (directory ns ++ [pluralSegment kind]) kept)
        (escape isPathEscaped name.toList) =
        stacked (climb (directory ns ++ [pluralSegment kind]) name.toList) kept :=
    fun ns name hname => push_climb (plain_of_fixed hplural).2.2 hname.dot
  match target with
  | collection none => exact hfixed hplural []
  | collection (some ns) => exact hcollection ns (hnames ns (by simp [names]))
  | item key =>
      simp only [plainSegments, List.map_cons, List.map_nil, List.foldl_cons, List.foldl_nil]
      rw [hcollection key.ns (hnames key.ns (by simp [names])),
        hitem key.ns key.name (hnames key.name (by simp [names])), settled]
  | status key =>
      simp only [plainSegments, List.map_cons, List.map_nil, List.foldl_cons, List.foldl_nil]
      rw [hcollection key.ns (hnames key.ns (by simp [names])),
        hitem key.ns key.name (hnames key.name (by simp [names])), hfixed hstatus, settled]

end Target

/-! ## Requests -/

section Requests

variable {endpoint one other : Endpoint}

theorem Endpoint.plain_ns (hnames : ∀ name ∈ endpoint.target.names, PlainSegment name.toList) :
    ∀ ns ∈ endpoint.target.ns?, '/' ∉ ns.toList := by
  intro ns hns
  apply (hnames ns _).slash
  obtain ⟨kind, target⟩ := endpoint
  cases target with
  | collection ns' => exact Option.mem_toList.mpr hns
  | item key | status key => exact List.mem_cons.mpr (Or.inl (Option.mem_some.mp hns).symm)

theorem Endpoint.isPlainPath {segments : List (List Char)}
    (hsplit : endpoint.path.toList.splitOn '/' =
      [] :: (rootSegments endpoint.kind ++ segments))
    (hplain : ∀ segment ∈ rootSegments endpoint.kind ++ segments, PlainSegment segment) :
    IsPlainPath endpoint.path := by
  have hchars : endpoint.path.toList =
      ['/'].intercalate ([] :: (rootSegments endpoint.kind ++ segments)) := by
    rw [← hsplit, List.intercalate_splitOn]
  constructor
  case head =>
    obtain ⟨more, hroot⟩ := List.head?_eq_some_iff.mp (head?_rootSegments endpoint.kind)
    obtain ⟨first, hfirst⟩ : ∃ first, firstSegment endpoint.kind = 'a' :: first := by
      cases endpoint.kind <;> exact ⟨_, rfl⟩
    rw [hchars, hroot, hfirst, List.cons_append, List.intercalate_cons_cons]
    cases more ++ segments with
    | nil =>
        rw [List.intercalate_singleton]
        exact ⟨first, rfl⟩
    | cons second rest =>
        rw [List.intercalate_cons_cons]
        exact ⟨_, rfl⟩
  case marks =>
    intro c hc
    rw [hchars] at hc
    rcases Http.mem_intercalate hc with rfl | ⟨segment, hsegment, hc⟩
    · decide
    · rcases List.mem_cons.mp hsegment with rfl | hsegment
      · cases hc
      · exact (hplain segment hsegment).marks c hc

/-- What a path of plain names leads to when its segments are resolved. -/
theorem Endpoint.settles (hnames : ∀ name ∈ endpoint.target.names, PlainSegment name.toList) :
    Settles endpoint.path
      (rootSegments endpoint.kind ++ endpoint.target.plainSegments (pluralSegment endpoint.kind))
      (rootSegments endpoint.kind ++ endpoint.target.settled (pluralSegment endpoint.kind)) := by
  have hsplit := Endpoint.splitOn_path (plain_ns hnames)
  rw [Target.segments_of_plain hnames] at hsplit
  have hroot : ∀ {segment}, segment ∈ rootSegments endpoint.kind →
      PlainSegment segment ∧ segment ≠ ['.', '.'] ∧ segment ≠ [] :=
    fun hmem => plain_of_fixed (List.mem_append_left _ hmem)
  have hplain : ∀ segment ∈ rootSegments endpoint.kind ++
      endpoint.target.plainSegments (pluralSegment endpoint.kind), PlainSegment segment := by
    intro segment hmem
    rcases List.mem_append.mp hmem with hmem | hmem
    · exact (hroot hmem).1
    · rcases Target.mem_plainSegments hmem with hfixed | ⟨name, hname, rfl⟩
      · exact (plain_of_fixed hfixed).1
      · exact hnames name hname
  have hinhabited : rootSegments endpoint.kind ≠ [] := by
    intro hnone
    have hfirst := head?_rootSegments endpoint.kind
    rw [hnone] at hfirst
    cases hfirst
  constructor
  case path => exact isPlainPath hsplit hplain
  case splits => exact hsplit
  case pushes =>
    intro kept
    rw [List.map_append, List.foldl_append, Target.foldl_push_plainSegments _ hnames,
      Http.foldl_push_names, Http.stacked_under]
    exact fun segment hmem => ⟨(hroot hmem).1.dot, (hroot hmem).2.1⟩
  case inhabited =>
    exact ⟨List.append_ne_nil_of_left_ne_nil hinhabited _,
      List.append_ne_nil_of_left_ne_nil hinhabited _⟩
  case plain =>
    intro segment hmem
    have hbefore : PlainSegment segment := by
      apply hplain
      rcases List.mem_append.mp hmem with hmem | hmem
      · exact hmem
      · rcases List.mem_append.mp hmem with hmem | hmem
        · exact List.mem_append_left _ hmem
        · exact List.mem_append_right _ (Target.mem_of_mem_settled hmem)
    exact ⟨hbefore.slash, hbefore.escapes⟩

/-- Plain names hold no slash, so that no item has the path of a status. -/
theorem Endpoint.not_statusLike
    (hnames : ∀ name ∈ other.target.names, PlainSegment name.toList) : ¬ one.StatusLike other := by
  rintro ⟨kind, key, rfl, rfl⟩
  have hplain := hnames (key.name ++ "/status") (by simp [Target.names])
  apply hplain.slash
  rw [String.toList_append]
  exact List.mem_append_right _ (by decide)

/-- Below one server, requests for two paths of plain names ask for the same only if the paths
lead to the same. -/
theorem Endpoint.eq_of_unescaped {address : String} {base url url' : Http.Url}
    (hone : ∀ name ∈ one.target.names, PlainSegment name.toList)
    (hother : ∀ name ∈ other.target.names, PlainSegment name.toList)
    (hread : Http.Url.read? address = some base) (hquery : base.query = none)
    (hresolve : base.resolve? one.path = some url)
    (hresolve' : base.resolve? other.path = some url')
    (hsame : Http.unescaped url.path = Http.unescaped url'.path) :
    one = other ∨ one.kind = other.kind ∧ one.target.IsWhole ∧ other.target.IsWhole := by
  rcases (settles hone).eq_of_unescaped (settles hother) hread hquery hresolve hresolve' hsame
    with hsegments | hsettled
  · have hpath : one.path = other.path := by
      apply toList_splitOn_inj
      rw [splitOn_path (plain_ns hone), splitOn_path (plain_ns hother),
        Target.segments_of_plain hone, Target.segments_of_plain hother, hsegments]
    rcases (path_eq_iff (plain_ns hone) (plain_ns hother)).mp hpath with hsame | hlike | hlike
    · exact Or.inl hsame
    · exact absurd hlike (not_statusLike hother)
    · exact absurd hlike (not_statusLike hone)
  · obtain ⟨kind, target⟩ := one
    obtain ⟨kind', target'⟩ := other
    obtain rfl : kind = kind' := rootSegments_apart hsettled
    have hstatus : pluralSegment kind ≠ "status".toList := by
      cases kind <;> decide
    rcases Target.settled_inj (plural_ne_namespaces kind) hstatus
      (List.append_cancel_left hsettled) with rfl | hwhole
    · exact Or.inl rfl
    · exact Or.inr ⟨rfl, hwhole⟩

end Requests

end OneShot.Wire

namespace OneShot.ApiServer

open OneShot.Wire

/-- As long as no namespace holds a slash, two paths are the same only if they lead to the same,
or if an item is named like the status of another.  The requests for two paths ask a server for
the same only if they lead to the same, if all names are plain: a namespace `..` makes a collection
the one of all namespaces, and nothing else is taken for anything else. -/
theorem resources_are_told_apart (one other : Endpoint)
    (hone : ∀ ns ∈ one.target.ns?, '/' ∉ ns.toList)
    (hother : ∀ ns ∈ other.target.ns?, '/' ∉ ns.toList) :
    (one.path = other.path ↔ one = other ∨ one.StatusLike other ∨ other.StatusLike one) ∧
      ∀ (settings : Settings) (policy : Http.RetryPolicy) (session : Http.Session),
        settings.session? policy = some session → session.base.query = none →
        (∀ name ∈ one.target.names ++ other.target.names, PlainSegment name.toList) →
        ∀ (method method' : String) (body body' : Option Json) (request request' : Http.Request),
          session.request? method one.path body = some request →
          session.request? method' other.path body' = some request' →
          Http.unescaped request.url.path = Http.unescaped request'.url.path →
            one = other ∨ one.kind = other.kind ∧ one.target.IsWhole ∧ other.target.IsWhole := by
  constructor
  · exact Endpoint.path_eq_iff hone hother
  · intro settings policy session hsession hquery hnames method method' body body' request request'
      hrequest hrequest' hsame
    obtain ⟨base, hread, rfl⟩ := Option.map_eq_some_iff.mp hsession
    obtain ⟨url, hresolve, rfl⟩ := Option.map_eq_some_iff.mp hrequest
    obtain ⟨url', hresolve', rfl⟩ := Option.map_eq_some_iff.mp hrequest'
    apply Endpoint.eq_of_unescaped _ _ hread hquery hresolve hresolve' hsame
    · exact fun name hname => hnames name (List.mem_append_left _ hname)
    · exact fun name hname => hnames name (List.mem_append_right _ hname)

/-- An item and the status of a task have paths of their own and are asked for apart. -/
theorem resources_are_told_apart_of_item_and_status :
    itemPath .at ⟨"team-a", "a"⟩ ≠ statusPath .task ⟨"..", "%a"⟩ ∧
      ∃ session request request',
        Settings.session? { server := "http://h" } {} = some session ∧
          session.request? "DELETE" (itemPath .at ⟨"team-a", "a"⟩) none = some request ∧
          session.request? "PUT" (statusPath .task ⟨"..", "%a"⟩) none = some request' ∧
          Http.unescaped request.url.path ≠ Http.unescaped request'.url.path := by
  have hruns : ((Settings.session? { server := "http://h" } {}).bind fun session =>
      (session.request? "DELETE" (itemPath .at ⟨"team-a", "a"⟩) none).bind fun _ =>
        (session.request? "PUT" (statusPath .task ⟨"..", "%a"⟩) none).map fun _ =>
          session.base.query) = some none := by decide +kernel
  obtain ⟨session, hsession, hruns⟩ := Option.bind_eq_some_iff.mp hruns
  obtain ⟨request, hrequest, hruns⟩ := Option.bind_eq_some_iff.mp hruns
  obtain ⟨request', hrequest', hquery⟩ := Option.map_eq_some_iff.mp hruns
  have hplain : ∀ name ∈ ["team-a", "a", "..", "%a"], PlainSegment name.toList := by
    have hchecked : ["team-a", "a", "..", "%a"].all
        (fun name => decide (PlainSegment name.toList)) = true := by decide
    exact fun name hname => of_decide_eq_true (List.all_eq_true.mp hchecked name hname)
  obtain ⟨hpath, hreach⟩ := resources_are_told_apart ⟨.at, .item ⟨"team-a", "a"⟩⟩
    ⟨.task, .status ⟨"..", "%a"⟩⟩ (by decide) (by decide)
  constructor
  · intro hsame
    rcases hpath.mp hsame with hsame | ⟨kind, key, hsame, -⟩ | ⟨kind, key, hstatus, hitem⟩
    · cases hsame
    · cases hsame
    · cases hstatus
      exact absurd (congrArg Endpoint.kind hitem) (by decide)
  · refine ⟨session, request, request', hsession, hrequest, hrequest', fun hsame => ?_⟩
    rcases hreach _ _ session hsession hquery hplain _ _ _ _ request request' hrequest hrequest'
      hsame with hsame | ⟨hkind, -⟩
    · cases hsame
    · cases hkind

/-- An item is named like a status, another one lies where a collection is, and a request for a
third one reaches a collection. -/
theorem names_lead_elsewhere :
    itemPath .at ⟨"a", "x/status"⟩ = statusPath .at ⟨"a", "x"⟩ ∧
      itemPath .at ⟨"x", "y/ats"⟩ = collectionPath .at (some "x/ats/y") ∧
      ((Settings.session? { server := "http://h" } {}).bind fun session =>
        (session.request? "DELETE" (itemPath .at ⟨"a", "."⟩) none).bind fun request =>
          (session.request? "GET" (collectionPath .at (some "a")) none).map fun request' =>
            request.url.path == request'.url.path) = some true := by
  decide +kernel

end OneShot.ApiServer
