import DeclGraph.Proofs.Import.Framing
import DeclGraph.Proofs.Import.Shape

/-! Calls on a unit in any order, some of which fail: the open scopes mirror the graph all the time,
and a classifier that is left takes none of the others with it. -/

namespace DeclGraph

open DeclGraph.Graph

/-- What a unit can be asked to do. -/
inductive UnitCall where
  | addComponent
  | enterPackage (name : String)
  | addImport (name : String)
  | addClass (name : String) (modifiers : ModifierSet) (superclass : Option String)
      (interfaces : List String) (doc : Option String)
  | addInterface (name : String) (modifiers : ModifierSet) (interfaces : List String)
      (doc : Option String)
  | addEnumeration (name : String) (modifiers : ModifierSet) (interfaces : List String)
      (doc : Option String)
  | addAttribute (modifiers : ModifierSet) (type : Option String) (name : String)
      (initializer doc : Option String)
  | addOperation (modifiers : ModifierSet) (returnType : Option String) (name : String)
      (parameters : List ParameterDeclaration) (doc : Option String)
  | addEnumerationLiteral (name : String)
  | popClassifier

namespace UnitCall

/-- The program of a call. -/
def run (u : UnitContext) : UnitCall → ImportM Unit
  | addComponent => discard <| ImportM.addComponent u
  | enterPackage name => discard <| ImportM.enterPackage u name
  | addImport name => discard <| ImportM.addImport u name
  | addClass name modifiers superclass interfaces doc =>
    discard <| ImportM.addClass u name modifiers superclass interfaces doc
  | addInterface name modifiers interfaces doc =>
    discard <| ImportM.addInterface u name modifiers interfaces doc
  | addEnumeration name modifiers interfaces doc =>
    discard <| ImportM.addEnumeration u name modifiers interfaces doc
  | addAttribute modifiers type name initializer doc =>
    discard <| ImportM.addAttribute u modifiers type name initializer doc
  | addOperation modifiers returnType name parameters doc =>
    discard <| ImportM.addOperation u modifiers returnType name parameters doc
  | addEnumerationLiteral name => discard <| ImportM.addEnumerationLiteral u name
  | popClassifier => discard <| ImportM.popClassifier u

/-- The state that a call leaves, whether it fails or not. -/
def after (u : UnitContext) (s : UnitState) (c : UnitCall) : UnitState := finalState (c.run u s)

end UnitCall

namespace Graph

variable {g : Graph} {n package : NodeId} {r : Node} {tag : String} {homes inner outer : List NodeId}

/-- The root is the only model. -/
lemma Rooted.eq_root (h : g.Rooted) (hg : g.Sound) (hn : g.kind? n = some .model) : n = root := by
  obtain ⟨r, hr, hk⟩ := kind?_eq_some.mp hn
  have unowned : ∀ {p}, r.owner ≠ some p := by
    intro p hp
    obtain ⟨rp, -, hmay⟩ := hg.mayOwn hr hp
    rw [hk] at hmay
    exact Bool.noConfusion hmay
  obtain ⟨rp, hrp, hkp, -⟩ := h.profile
  rcases h.founded hr (by simp [hk]) with hb | hb <;> cases hb with
  | part _ hr' ho => exact absurd ho (Option.some.inj (hr.symm.trans hr') ▸ unowned)
  | self => first
    | rfl
    | exact absurd (hk.symm.trans (Option.some.inj (hr.symm.trans hrp) ▸ hkp)) (by decide)

/-- Where no element carries a tag for another, no look-up finds it. -/
lemma Sound.taggedValueNode?_eq (h : g.Sound) (hr : g.node? n = some r) (ht : ¬g.Tagged n tag) :
    g.taggedValueNode? n tag = .ok none := by
  rw [GraphM.taggedValueNode?_ok h.toLinked hr]
  cases hf : g.findIn r.taggedValues (·.name = some tag) with
  | none => rfl
  | some t =>
    obtain ⟨hin, rt, hrt, hname⟩ := findIn_eq_some hf
    obtain ⟨rt', hrt', ho, -⟩ := (h.mem_children hr .taggedValues t).mp hin
    obtain rfl := Option.some.inj (hrt.symm.trans hrt')
    have hkt := h.kind?_taggedValue hr hin
    rw [kind?_eq hrt] at hkt
    exact absurd ⟨t, rt, hrt, Option.some.inj hkt, ho, by simpa using hname⟩ ht

lemma Nested.nodup (h : g.Nested package homes) : homes.Nodup := by
  induction homes with
  | nil => exact List.nodup_nil
  | cons n outer ih => exact List.nodup_cons.mpr ⟨h.1, ih h.2.2.2⟩

lemma Nested.of_append (h : g.Nested package (inner ++ outer)) : g.Nested package outer := by
  induction inner with
  | nil => exact h
  | cons n inner ih => exact ih h.2.2.2

end Graph

/-- The scopes of a unit mirror the graph: the package is there, each open classifier is there, no
placeholder and owned by what the next outer scope stands for, and none is open twice. -/
structure ScopeStack.Mirrors (s : ScopeStack) (g : Graph) : Prop where
  package : s.package = root ∧ g.isLive root = true ∨ g.kind? s.package = some .package
  classifiers : ∀ {inner scope outer}, s.opened = inner ++ scope :: outer → ∃ n,
    scope.frame.classifier = some n ∧ scope.frame.home = n ∧ g.isClassifier n = .ok true ∧
      g.taggedValueNode? n generatedTag = .ok none ∧
      g.namespaceOf n = .ok (some ({ s with opened := outer } : ScopeStack).current.home)
  nodup : s.enclosing.Nodup

/-- The innermost classifier was left: it is `n`, and the others are still where they were. -/
structure UnitState.Leaves (s : UnitState) (n : NodeId) (t : UnitState) : Prop where
  innermost : ∃ scope, s.scopes.opened = scope :: t.scopes.opened ∧
    scope.frame.classifier = some n
  mirrors : t.scopes.Mirrors t.graph
  remaining : ∀ c ∈ t.scopes.enclosing, ∃ r r', s.graph.node? c = some r ∧
    t.graph.node? c = some r' ∧ r'.kind = r.kind ∧ r'.owner = r.owner ∧ r'.name = r.name

namespace UnitState

variable {s t : UnitState} {u : UnitContext} {n : NodeId} {store : Store}

lemma Nested.enclosing (h : s.Nested) : s.scopes.enclosing = s.homes := by
  rw [ScopeStack.enclosing, homes, ← List.filterMap_eq_map]
  exact List.filterMap_congr h.frames

lemma Framed.mirrors (h : s.Framed) : s.scopes.Mirrors s.graph := by
  refine ⟨?_, fun {inner scope outer} ho => ?_, ?_⟩
  · obtain ⟨k, hk, hp⟩ := h.package
    cases k with
    | model => exact Or.inl ⟨h.rooted.eq_root h.graph hk, h.graph.root_live⟩
    | package => exact Or.inr hk
    | _ => exact Bool.noConfusion hp
  · have hin : scope ∈ s.scopes.opened := by simp [ho]
    have hn : s.graph.Nested s.scopes.package
        (scope.frame.home :: outer.map (·.frame.home)) := by
      have hall := h.nested
      rw [ho, List.map_append, List.map_cons] at hall
      exact hall.of_append
    obtain ⟨-, htag, ⟨r, hr, hc, hown⟩, -⟩ := hn
    refine ⟨_, h.frames scope hin, rfl, isClassifier_eq_ok (kind?_eq hr) hc,
      h.graph.taggedValueNode?_eq hr htag, ?_⟩
    rw [namespaceOf_eq_ok hr, hown]
    cases outer <;> rfl
  · rw [h.toNested.enclosing]
    exact h.nested.nodup

lemma framed_start (h : Imported (fun _ => True) store.graph) : (start u store).Framed :=
  ⟨⟨sound_start h.sound, trivial, by simp [start]⟩, h.rooted, by simp [start, frames]⟩

/-- Leaving a classifier takes none of the others along. -/
lemma Framed.leaves (h : s.Framed) (hrun : ImportM.popClassifier u s = .ok n t) : s.Leaves n t := by
  cases ho : s.scopes.opened with
  | nil =>
    rw [ImportM.popClassifier_closed ho] at hrun
    exact absurd hrun (by simp)
  | cons scope rest =>
    obtain ⟨rfl, ht, hscopes, hout⟩ := ImportM.framed_popClassifier h ho hrun
    have hopen : t.scopes.opened = rest := by rw [hscopes]
    refine ⟨⟨scope, by rw [ho, hopen], h.frames scope (by simp [ho])⟩, ht.mirrors, fun c hc => ?_⟩
    rw [ht.toNested.enclosing, homes, hopen] at hc
    obtain ⟨scope', hin, rfl⟩ := List.mem_map.mp hc
    have hin' : scope' ∈ s.scopes.opened := by simp [ho, hin]
    obtain ⟨k, hk, -⟩ := h.toNested.isClassifier hin'
    obtain ⟨r, hr, -⟩ := kind?_eq_some.mp hk
    obtain ⟨r', hr', hkind, howner, hname⟩ := (hout scope' hin).node hr
    exact ⟨r, r', hr, hr', hkind, howner, hname⟩

end UnitState

namespace UnitCall

variable {s : UnitState} {u : UnitContext}

/-- What a program leaves does not depend on what is done with its answer. -/
lemma framed_discard {α : Type} {x : ImportM α} {Q : α → UnitState → Prop}
    (h : Orderly (x s) Q) : (finalState ((discard x : ImportM Unit) s)).Framed := by
  rw [final_discard]
  exact h.final

/-- A call leaves what is open in order, whether it fails or not. -/
lemma framed_after (h : s.Framed) (c : UnitCall) : (c.after u s).Framed := by
  cases c with
  | addComponent => exact framed_discard (ImportM.orderly_addComponent h)
  | enterPackage name => exact framed_discard (ImportM.orderly_enterPackage h name)
  | addImport name => exact framed_discard (ImportM.orderly_addImport h name)
  | addClass name modifiers superclass interfaces doc =>
    exact framed_discard
      (ImportM.orderly_declaration h .classType name modifiers superclass interfaces doc)
  | addInterface name modifiers interfaces doc =>
    exact framed_discard
      (ImportM.orderly_declaration h .interfaceType name modifiers none interfaces doc)
  | addEnumeration name modifiers interfaces doc =>
    exact framed_discard
      (ImportM.orderly_declaration h .enumeration name modifiers none interfaces doc)
  | addAttribute modifiers type name initializer doc =>
    exact framed_discard (ImportM.orderly_addAttribute h modifiers type name initializer doc)
  | addOperation modifiers returnType name parameters doc =>
    exact framed_discard
      (ImportM.orderly_addOperation h modifiers returnType name parameters doc)
  | addEnumerationLiteral name =>
    exact framed_discard (ImportM.orderly_addEnumerationLiteral h name)
  | popClassifier => exact framed_discard (ImportM.orderly_popClassifier h)

lemma framed_calls (h : s.Framed) (calls : List UnitCall) : (calls.foldl (after u) s).Framed := by
  induction calls generalizing s with
  | nil => exact h
  | cons c calls ih => exact ih (framed_after h c)

end UnitCall

/-- Calls on a unit keep its scopes a mirror of the graph, in whichever order they come and wherever
they fail, and a classifier that is left is the innermost one and takes none of the others along. -/
theorem scopes_mirror_graph {store : Store} (h : Imported (fun _ => True) store.graph)
    (u : UnitContext) (calls : List UnitCall) :
    let s := calls.foldl (UnitCall.after u) (.start u store)
    s.scopes.Mirrors s.graph ∧ ∀ n t, ImportM.popClassifier u s = .ok n t → s.Leaves n t := by
  intro s
  have hs : s.Framed := UnitCall.framed_calls (UnitState.framed_start h) calls
  exact ⟨hs.mirrors, fun _ _ => hs.leaves⟩

/-- A unit whose second pass makes placeholders. -/
def forcingUnit : UnitContext where
  name := "x.idl"
  pass := .references
  settings := { unresolvedPolicy := .force }

/-- Classes in each other, a package clause that comes too late and a reference from inside that
leaves a placeholder under the name of an open class. -/
def nestedCalls : List UnitCall :=
  [.addComponent, .addClass "A" {} none [] none, .enterPackage "p",
    .addClass "B" {} (some "A") [] none, .addAttribute {} (some "q.B") "b" none none,
    .popClassifier]

theorem scopes_mirror_graph_of_nested_calls :
    Imported (fun _ => True) (Graph.new "m" ⟨"p", [], []⟩) ∧
      let s := nestedCalls.foldl (UnitCall.after forcingUnit)
        (.start forcingUnit { graph := .new "m" ⟨"p", [], []⟩ })
      s.scopes.Mirrors s.graph ∧
        ∀ n t, ImportM.popClassifier forcingUnit s = .ok n t → s.Leaves n t :=
  have h : Imported (fun _ => True) ({ graph := .new "m" ⟨"p", [], []⟩ } : Store).graph :=
    .fresh "m" ⟨"p", [], []⟩
  ⟨h, scopes_mirror_graph h forcingUnit nestedCalls⟩

end DeclGraph
