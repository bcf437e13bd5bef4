import OneShot.Resource.Object

/-!
# Paths of resources

Where an API server keeps the objects of a kind: the collections of all
namespaces or of one, the items in them, and the status of an item.
-/

namespace OneShot.Wire

/-- The path below which the objects of a kind are found. -/
def apiRoot : ResourceKind → String
  | .at => "/apis/" ++ atApiVersion
  | .task => "/api/v1"

/-- The name of the collections of a kind; tasks are kept as pods. -/
def plural : ResourceKind → String
  | .at => "ats"
  | .task => "pods"

/-- The collection of a namespace, or of all of them. -/
def collectionPath (kind : ResourceKind) : Option String → String
  | none => apiRoot kind ++ "/" ++ plural kind
  | some ns => apiRoot kind ++ "/namespaces/" ++ ns ++ "/" ++ plural kind

def itemPath (kind : ResourceKind) (key : ObjectKey) : String :=
  collectionPath kind (some key.ns) ++ "/" ++ key.name

def statusPath (kind : ResourceKind) (key : ObjectKey) : String :=
  itemPath kind key ++ "/status"

end OneShot.Wire
