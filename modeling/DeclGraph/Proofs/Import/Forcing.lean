import DeclGraph.Proofs.Graph.Placeholders
import DeclGraph.Proofs.Import.Constancy

/-! Imports that make placeholders: whatever they force, no two placeholders stand for the same. -/

namespace DeclGraph

open DeclGraph.Graph

namespace Graph

variable {g : Graph} {n : NodeId} {name tag : String} {profile : Profile}

/-- No two placeholders have their owner, name and kind in common. -/
def SinglePlaceholders (g : Graph) : Prop :=
  ∀ ⦃m n x y⦄, g.isPlaceholder m = .ok true → g.isPlaceholder n = .ok true →
    g.node? m = some x → g.node? n = some y → x.owner = y.owner → x.name = y.name →
    x.kind = y.kind → m = n

lemma kind_ne_taggedValue_new {r : Node} (h : (new name profile).node? n = some r) :
    r.kind ≠ .taggedValue := by
  intro hk
  have := kind_of_node?_new h
  simp [hk, NodeKind.isPackage] at this

lemma singled_new (name : String) (profile : Profile) : (new name profile).Singled := by
  have untagged : ∀ n, ¬(new name profile).Tagged n generatedTag := by
    rintro n ⟨t, x, hx, hk, -⟩
    exact kind_ne_taggedValue_new hx hk
  exact ⟨fun _ ht => absurd ht (untagged _), fun _ _ ht => absurd ht (untagged _),
    kind?_profilePackage_new⟩

/-- Nothing that lies directly in the profile package carries a tag. -/
lemma Secludes.not_tagged (h : (new name profile).Secludes g) {r : Node} (hr : g.node? n = some r)
    (ho : r.owner = some profilePackage) : ¬g.Tagged n tag := by
  rintro ⟨t, x, hx, hk, hxo, -⟩
  rcases (new name profile).inProfile_or_outside t with hin | hout
  · exact kind_ne_taggedValue_new ((h.node hin).symm.trans hx) hk
  · have hn := h.apart hout hx n (Node.mem_kin_of_owner hxo)
    have hp := h.apart hn hr profilePackage (Node.mem_kin_of_owner ho)
    exact hp.not_inProfile (inProfile_profilePackage _)

end Graph

lemma kept_singled : KeptByPasses (fun _ => True) fun g => g.Sound ∧ g.Singled := by
  constructor
  rintro store settings ⟨hsound, hsingled⟩ - name unit p
  have hsteps : Steps (Permit.free ⟨name, p, settings⟩) store.graph
      (finalState (StoreM.runPass name settings unit p store)).graph := StoreM.steps_runPass hsound
  refine ⟨hsound.steps hsteps, hsingled.steps hsound hsteps ?_⟩
  intro g c hc
  cases c with
  | build r => exact hc
  | _ => trivial

/-- Whatever is imported into a new graph, with placeholders or without them, and whether the runs
fail or not, no two placeholders stand for the same. -/
theorem singlePlaceholders_of_runs (name : String) (profile : Profile) (runs : List ImportRun) :
    (runs.foldl ImportRun.run (.new name profile)).SinglePlaceholders := by
  obtain ⟨hsound, hsingled⟩ :=
    kept_singled.runs ⟨sound_new name profile, singled_new name profile⟩ runs
  have hsecludes := (kept_secludes (.new name profile)).runs secludes_new runs
  intro m n x y hm hn hx hy ho hname hk
  have htm := isPlaceholder_eq_true hsound hm
  have hout : x.owner ≠ some profilePackage := fun hown => hsecludes.not_tagged hx hown htm
  exact hsingled.unique hx hy htm (isPlaceholder_eq_true hsound hn) hout ho hname hk

/-- Two classes that make an interface and a class of one name, and then a declaration of a class
of this name, which takes the place of the interface. -/
def twinCalls : List SourceCall :=
  ["class A implements X { } class B extends X { }", "class X { }"].map fun source =>
    { source, name := "x", settings := { unresolvedPolicy := .force }, session := {}, passes := Pass.all }

/-- A declaration may get a class beside a placeholder of its name and kind. -/
theorem classTwins_of_twinCalls :
    let g := twinCalls.foldl SourceCall.run (.new "m" ⟨"p", [], []⟩)
    ∀ n ∈ [12, 15], (g.node? n).map (fun r => (r.owner, r.name, r.kind)) =
      some (some root, some "X", .classType) := by
  decide +kernel

end DeclGraph
