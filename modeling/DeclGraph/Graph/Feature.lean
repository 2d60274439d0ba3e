import DeclGraph.Graph.Property

/-!
Features of classifiers: operations with their parameters, and attributes.
-/

namespace DeclGraph

namespace Graph

def featuresOf (g : Graph) (n : NodeId) : Except GraphFault (List NodeId) :=
  (·.features) <$> g.get n
def parametersOf (g : Graph) (n : NodeId) : Except GraphFault (List NodeId) :=
  (·.parameters) <$> g.get n

/-- The features of a kind. -/
def featuresOfKind (g : Graph) (n : NodeId) (kind : NodeKind) :
    Except GraphFault (List NodeId) := do
  g.followAll (·.kind = kind) (← g.featuresOf n)

def operationsOf (g : Graph) (n : NodeId) : Except GraphFault (List NodeId) :=
  g.featuresOfKind n .operation
def attributesOf (g : Graph) (n : NodeId) : Except GraphFault (List NodeId) :=
  g.featuresOfKind n .attr

/-- The first feature of a kind and name. -/
def feature? (g : Graph) (n : NodeId) (name : String) (kind : NodeKind) :
    Except GraphFault (Option NodeId) := do
  return g.findIn (← g.featuresOf n) fun r => r.kind = kind && r.name = some name

end Graph

namespace GraphM

def buildOperation (classifier : NodeId) (name : Option String) : GraphM NodeId :=
  create .operation name (some classifier)

def buildAttribute (classifier : NodeId) (type : Option NodeId) (name : Option String) :
    GraphM NodeId := do
  let n ← create .attr name (some classifier)
  setType n type
  return n

def buildParameter (operation : NodeId) (type : Option NodeId) (name : Option String)
    (direction : Direction) : GraphM NodeId := do
  let n ← create .parameter name (some operation)
  setType n type
  update n ({ · with direction := some direction })
  return n

/-- Deletes a parameter of an operation. -/
def removeParameter (operation parameter : NodeId) : GraphM Unit := do
  if parameter ∉ (← get operation).parameters then
    throw (.notParameterOf parameter operation)
  delete parameter

end GraphM

end DeclGraph
