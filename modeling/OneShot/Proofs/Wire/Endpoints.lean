import OneShot.Wire.Path

/-!
# Where the paths of resources lead

The paths of collections, items and statuses are joined from names without escaping them.  As
long as no namespace holds a slash, a path tells where it leads, with one exception: the status of
an item has the path of an item with a longer name.
-/

namespace OneShot.Wire

/-- What a path of a kind of objects leads to. -/
inductive Target where
  | collection (ns : Option String)
  | item (key : ObjectKey)
  | status (key : ObjectKey)
  deriving DecidableEq

/-- What a path leads to. -/
structure Endpoint where
  kind : ResourceKind
  target : Target
  deriving DecidableEq

namespace Target

/-- The namespaces and the names that are part of a path. -/
def names : Target → List String
  | collection ns => ns.toList
  | item key | status key => [key.ns, key.name]

def ns? : Target → Option String
  | collection ns => ns
  | item key | status key => some key.ns

/-- The key of the item that a path belongs to; a status has the path of an item, too. -/
def itemKey? : Target → Option ObjectKey
  | collection _ => none
  | item key => some key
  | status key => some { key with name := key.name ++ "/status" }

/-- The segments of the path of an item below the root of its kind. -/
def itemSegments (plural : List Char) (key : ObjectKey) : List (List Char) :=
  ["namespaces".toList, key.ns.toList, plural] ++ key.name.toList.splitOn '/'

/-- The segments of a path below the root of its kind. -/
def segments (plural : List Char) : Target → List (List Char)
  | collection none => [plural]
  | collection (some ns) => ["namespaces".toList, ns.toList, plural]
  | item key => itemSegments plural key
  | status key => itemSegments plural { key with name := key.name ++ "/status" }

end Target

namespace Endpoint

def path (endpoint : Endpoint) : String :=
  match endpoint.target with
  | .collection ns => collectionPath endpoint.kind ns
  | .item key => itemPath endpoint.kind key
  | .status key => statusPath endpoint.kind key

/-- The status of an item, and the item that has the path of this status for its name. -/
def StatusLike (one other : Endpoint) : Prop :=
  ∃ kind key, one = ⟨kind, .status key⟩ ∧
    other = ⟨kind, .item { key with name := key.name ++ "/status" }⟩

end Endpoint

/-- The segments of the path below which the objects of a kind are found. -/
def rootSegments (kind : ResourceKind) : List (List Char) :=
  ((apiRoot kind).toList.splitOn '/').tail

def pluralSegment (kind : ResourceKind) : List Char :=
  (plural kind).toList

/-! ## Segments -/

theorem splitOn_apiRoot (kind : ResourceKind) :
    (apiRoot kind).toList.splitOn '/' = [] :: rootSegments kind := by
  cases kind <;> decide +kernel

theorem slash_not_mem_plural (kind : ResourceKind) : '/' ∉ pluralSegment kind := by
  cases kind <;> decide

theorem statusPath_eq (kind : ResourceKind) (key : ObjectKey) :
    statusPath kind key = itemPath kind { key with name := key.name ++ "/status" } := by
  simp only [statusPath, itemPath, String.append_assoc]

theorem splitOn_collectionPath {kind : ResourceKind} {ns : String} (hns : '/' ∉ ns.toList) :
    (collectionPath kind (some ns)).toList.splitOn '/' =
      [] :: (rootSegments kind ++ ["namespaces".toList, ns.toList, pluralSegment kind]) := by
  have hchars : (collectionPath kind (some ns)).toList = (apiRoot kind).toList ++ '/' ::
      ("namespaces".toList ++ '/' :: (ns.toList ++ '/' :: pluralSegment kind)) := by
    have hmiddle : "/namespaces/".toList = '/' :: ("namespaces".toList ++ ['/']) := by decide
    have hslash : "/".toList = ['/'] := by decide
    rw [collectionPath, String.toList_append, String.toList_append, String.toList_append,
      String.toList_append, hmiddle, hslash, pluralSegment]
    simp
  have hnamespaces : '/' ∉ "namespaces".toList := by decide
  rw [hchars, List.splitOn_append_cons_self, splitOn_apiRoot,
    List.splitOn_append_cons_self_of_not_mem hnamespaces,
    List.splitOn_append_cons_self_of_not_mem hns,
    List.splitOn_eq_singleton (slash_not_mem_plural kind)]
  rfl

theorem splitOn_itemPath {kind : ResourceKind} {key : ObjectKey} (hns : '/' ∉ key.ns.toList) :
    (itemPath kind key).toList.splitOn '/' =
      [] :: (rootSegments kind ++ Target.itemSegments (pluralSegment kind) key) := by
  have hchars : (itemPath kind key).toList =
      (collectionPath kind (some key.ns)).toList ++ '/' :: key.name.toList := by
    have hslash : "/".toList = ['/'] := by decide
    rw [itemPath, String.toList_append, String.toList_append, hslash, List.append_assoc]
    rfl
  rw [hchars, List.splitOn_append_cons_self, splitOn_collectionPath hns, List.cons_append,
    List.append_assoc, Target.itemSegments]

/-- A path falls into its segments, if its namespace is one segment. -/
theorem Endpoint.splitOn_path {endpoint : Endpoint}
    (hns : ∀ ns ∈ endpoint.target.ns?, '/' ∉ ns.toList) :
    endpoint.path.toList.splitOn '/' =
      [] :: (rootSegments endpoint.kind ++
        endpoint.target.segments (pluralSegment endpoint.kind)) := by
  obtain ⟨kind, target⟩ := endpoint
  cases target with
  | collection ns =>
      cases ns with
      | none =>
          have hchars : (collectionPath kind none).toList =
              (apiRoot kind).toList ++ '/' :: pluralSegment kind := by
            have hslash : "/".toList = ['/'] := by decide
            rw [collectionPath, String.toList_append, String.toList_append, hslash,
              List.append_assoc]
            rfl
          rw [Endpoint.path, hchars, List.splitOn_append_cons_self, splitOn_apiRoot,
            List.splitOn_eq_singleton (slash_not_mem_plural kind)]
          rfl
      | some ns => exact splitOn_collectionPath (hns ns rfl)
  | item key => exact splitOn_itemPath (hns key.ns rfl)
  | status key =>
      have hpath : Endpoint.path ⟨kind, .status key⟩ =
          itemPath kind { key with name := key.name ++ "/status" } := statusPath_eq kind key
      rw [hpath]
      exact splitOn_itemPath (hns key.ns rfl)

theorem toList_splitOn_inj {one other : String}
    (hsame : one.toList.splitOn '/' = other.toList.splitOn '/') : one = other := by
  have hchars := congrArg ['/'].intercalate hsame
  rw [List.intercalate_splitOn, List.intercalate_splitOn] at hchars
  exact String.toList_inj.mp hchars

theorem plural_ne_namespaces (kind : ResourceKind) :
    pluralSegment kind ≠ "namespaces".toList := by
  cases kind <;> decide

namespace Target

variable {plural : List Char} {one other target : Target} {key : ObjectKey}

/-- A key is told by its namespace and the segments of its name. -/
theorem itemSegments_inj {other : ObjectKey}
    (hsame : itemSegments plural key = itemSegments plural other) : key = other := by
  obtain ⟨ns, name⟩ := key
  obtain ⟨ns', name'⟩ := other
  simp only [itemSegments, List.cons_append, List.nil_append, List.cons.injEq, true_and] at hsame
  rw [String.toList_inj.mp hsame.1, toList_splitOn_inj hsame.2]

theorem segments_of_itemKey? (hkey : target.itemKey? = some key) :
    target.segments plural = itemSegments plural key := by
  cases target with
  | collection ns => cases hkey
  | item found | status found =>
      cases hkey
      rfl

theorem length_segments_of_itemKey? (plural : List Char) (hkey : target.itemKey? = some key) :
    3 < (target.segments plural).length := by
  have hname : 0 < (key.name.toList.splitOn '/').length :=
    List.length_pos_iff.mpr (List.splitOn_ne_nil _ _)
  rw [segments_of_itemKey? hkey, itemSegments, List.length_append]
  simp only [List.length_cons, List.length_nil]
  omega

theorem length_segments_collection (plural : List Char) (ns : Option String) :
    ((collection ns).segments plural).length ≤ 3 := by
  cases ns with
  | none => simp [segments]
  | some ns => simp [segments]

theorem itemKey?_eq_of_segments (hsame : one.segments plural = other.segments plural) :
    one.itemKey? = other.itemKey? := by
  have hcollection : ∀ {target : Target}, target.itemKey? = none →
      (target.segments plural).length ≤ 3 := by
    intro target hnone
    cases target with
    | collection ns => exact length_segments_collection plural ns
    | item key | status key => cases hnone
  have hlength := congrArg List.length hsame
  cases hone : one.itemKey? with
  | none =>
      cases hother : other.itemKey? with
      | none => rfl
      | some key =>
          have hshort := hcollection hone
          have hlong := length_segments_of_itemKey? plural hother
          omega
  | some key =>
      cases hother : other.itemKey? with
      | none =>
          have hshort := hcollection hother
          have hlong := length_segments_of_itemKey? plural hone
          omega
      | some key' =>
          rw [segments_of_itemKey? hone, segments_of_itemKey? hother] at hsame
          rw [itemSegments_inj hsame]

theorem statusName_inj {key other : ObjectKey}
    (hsame : { key with name := key.name ++ "/status" } =
      { other with name := other.name ++ "/status" }) : key = other := by
  obtain ⟨ns, name⟩ := key
  obtain ⟨ns', name'⟩ := other
  simp only [ObjectKey.mk.injEq] at hsame
  obtain ⟨rfl, hnames⟩ := hsame
  have hchars := congrArg String.toList hnames
  rw [String.toList_append, String.toList_append] at hchars
  rw [String.toList_inj.mp (List.append_cancel_right hchars)]

theorem collection_inj {ns ns' : Option String}
    (hsame : (collection ns).segments plural = (collection ns').segments plural) : ns = ns' := by
  cases ns <;> cases ns' <;> simp [segments] at hsame ⊢
  exact String.toList_inj.mp hsame

/-- Below one root, segments tell where they lead. -/
theorem segments_inj {kind : ResourceKind}
    (hsame : one.segments (pluralSegment kind) = other.segments (pluralSegment kind)) :
    one = other ∨ Endpoint.StatusLike ⟨kind, one⟩ ⟨kind, other⟩ ∨
      Endpoint.StatusLike ⟨kind, other⟩ ⟨kind, one⟩ := by
  have hkeys := itemKey?_eq_of_segments hsame
  match one, other with
  | collection ns, collection ns' => exact Or.inl (by rw [collection_inj hsame])
  | collection _, item _ | collection _, status _ => cases hkeys
  | item _, collection _ | status _, collection _ => cases hkeys
  | item key, item key' =>
      cases hkeys
      exact Or.inl rfl
  | item key, status key' =>
      cases hkeys
      exact Or.inr (Or.inr ⟨kind, key', rfl, rfl⟩)
  | status key, item key' =>
      cases hkeys
      exact Or.inr (Or.inl ⟨kind, key, rfl, rfl⟩)
  | status key, status key' =>
      rw [statusName_inj (Option.some.inj hkeys)]
      exact Or.inl rfl

end Target

/-- The first segment of the paths of a kind. -/
def firstSegment : ResourceKind → List Char
  | .at => "apis".toList
  | .task => "api".toList

theorem head?_rootSegments (kind : ResourceKind) :
    (rootSegments kind).head? = some (firstSegment kind) := by
  cases kind <;> decide +kernel

/-- The segments below the roots of two kinds differ from the first one on. -/
theorem rootSegments_apart {kind other : ResourceKind} {rest rest' : List (List Char)}
    (hsame : rootSegments kind ++ rest = rootSegments other ++ rest') : kind = other := by
  have hheads := congrArg List.head? hsame
  rw [List.head?_append, List.head?_append, head?_rootSegments, head?_rootSegments,
    Option.some_or, Option.some_or, Option.some_inj] at hheads
  cases kind <;> cases other
  case at.at | task.task => rfl
  all_goals exact absurd hheads (by decide)

/-- As long as namespaces hold no slashes, paths tell where they lead, but for the items that have
the path of a status. -/
theorem Endpoint.path_eq_iff {one other : Endpoint}
    (hone : ∀ ns ∈ one.target.ns?, '/' ∉ ns.toList)
    (hother : ∀ ns ∈ other.target.ns?, '/' ∉ ns.toList) :
    one.path = other.path ↔ one = other ∨ one.StatusLike other ∨ other.StatusLike one := by
  constructor
  · intro hpath
    have hsegments := congrArg (fun path : String => path.toList.splitOn '/') hpath
    simp only [splitOn_path hone, splitOn_path hother, List.cons.injEq, true_and] at hsegments
    obtain ⟨kind, target⟩ := one
    obtain ⟨kind', target'⟩ := other
    obtain rfl : kind = kind' := rootSegments_apart hsegments
    rcases Target.segments_inj (List.append_cancel_left hsegments) with rfl | hlike
    · exact Or.inl rfl
    · exact Or.inr hlike
  · rintro (rfl | ⟨kind, key, rfl, rfl⟩ | ⟨kind, key, rfl, rfl⟩)
    · rfl
    · exact statusPath_eq kind key
    · exact (statusPath_eq kind key).symm

end OneShot.Wire
