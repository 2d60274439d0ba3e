import DeclGraph.Graph.Property
import DeclGraph.Json

/-!
The model as JSON: one object an element, in increasing order of handles, without the elements of
the profile unless they are asked for. A summary counts the elements by kind.
-/

namespace DeclGraph

namespace Graph

def listField (key : String) (items : List Json) : List (String × Json) :=
  if items.isEmpty then [] else [(key, .arr items)]

def field {α : Type} (key : String) (f : α → Json) (value : Option α) : List (String × Json) :=
  (value.map fun a => (key, f a)).toList

def flag (key : String) (value : Bool) : List (String × Json) :=
  if value then [(key, .bool true)] else []

/-- The fields of an element's object. What is unset or empty is left out; ends of associations
always say whether they are navigable. -/
def nodeFields (g : Graph) (n : NodeId) (r : Node) : Except GraphFault (List (String × Json)) := do
  let stereotypes ← r.stereotypes.mapM g.nameOf
  return [("id", .int n), ("kind", .str r.kind.label)]
    ++ field "name" .str r.name
    ++ field "owner" .int r.owner
    ++ field "visibility" (.str ·.label) r.visibility
    ++ field "type" .int r.type
    ++ field "multiplicity" .str r.multiplicity
    ++ field "initial_value" .str r.initialValue
    ++ field "value" .str r.value
    ++ field "direction" (.str ·.label) r.direction
    ++ (if r.kind = .associationEnd then [("navigable", .bool r.isNavigable)] else [])
    ++ flag "is_abstract" r.isAbstract
    ++ flag "is_leaf" r.isLeaf
    ++ flag "is_root" r.isRoot
    ++ flag "is_read_only" r.isReadOnly
    ++ field "general" .int r.general
    ++ field "specific" .int r.specific
    ++ listField "clients" (r.clients.map .int)
    ++ listField "suppliers" (r.suppliers.map .int)
    ++ (match r.resident with
      | none => []
      | some resident => [("resident", .int resident), ("container", .intOrNull r.container)])
    ++ listField "stereotypes" (stereotypes.map .strOrNull)
    ++ listField "base_classes" (r.baseClasses.map .str)

/-- The elements that an export lists. -/
def exported (g : Graph) (includeProfile : Bool) : Except GraphFault (List (NodeId × Node)) :=
  g.entries.filterM fun (n, _) =>
    if includeProfile then .ok true else (!·) <$> g.inProfile n

/-- The model as one JSON object. -/
def toJson (g : Graph) (includeProfile : Bool) : Except GraphFault Json := do
  let nodes ← (← g.exported includeProfile).mapM fun (n, r) => Json.obj <$> g.nodeFields n r
  return .obj [("format", .str "reveng-model"), ("version", .int 1), ("root", .int root),
    ("profile", .str g.profile.name), ("nodes", .arr nodes)]

/-- The model as JSON text. -/
def toJsonText (g : Graph) (includeProfile : Bool) : Except GraphFault String :=
  Json.pretty <$> g.toJson includeProfile

/-- The number of elements of every kind that occurs, in order of the kinds' labels. The root and
the profile do not count. -/
def summarize (g : Graph) : Except GraphFault (List (String × Nat)) := do
  let kinds := ((← g.exported false).filter (·.1 ≠ root)).map (·.2.kind)
  let counts := NodeKind.all.map fun k => (k.label, kinds.count k)
  return (counts.filter (·.2 ≠ 0)).mergeSort fun a b => a.1 ≤ b.1

end Graph

end DeclGraph
