import GovernedCatalog.Error

/-!
# Annotations

Values that clients attach to entities under keys of their own.
-/

namespace GovernedCatalog

/-- Values by key. -/
abbrev Annotations := SortedMap String Json

namespace Annotations

def find (annotations : Annotations) (uri : String) : Except Error Json :=
  match annotations.get? uri with
  | some value => .ok value
  | none => .error (.annotationMissing uri)

/-- The value under a key and the annotations without it. -/
def remove (annotations : Annotations) (uri : String) :
    Except Error (Json × Annotations) :=
  (annotations.find uri).map fun value => (value, annotations.erase uri)

end Annotations

end GovernedCatalog
