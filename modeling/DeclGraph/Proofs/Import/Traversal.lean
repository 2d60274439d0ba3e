import DeclGraph.Proofs.Import.Composition

/-! Imports of whole units, as they are put together from what the units declare. -/

namespace DeclGraph

/-- In a manner, all that units consist of is declared. -/
class Manner.Declaring (M : Manner) (u : UnitContext) : Prop extends Manner.Laying M,
    Manner.Misplacing M where
  inconsistent : M.raises .inconsistent
  addImport : ∀ name, Composed M (ImportM.addImport u name)
  addInheritance : ∀ n kind superclass interfaces,
    Composed M (ImportM.addInheritance u n kind superclass interfaces)
  addAttribute : ∀ modifiers type name initializer doc,
    Composed M (ImportM.addAttribute u modifiers type name initializer doc)
  addOperation : ∀ modifiers returnType name parameters doc,
    Composed M (ImportM.addOperation u modifiers returnType name parameters doc)

attribute [instance] Manner.Declaring.addImport Manner.Declaring.addInheritance
  Manner.Declaring.addAttribute Manner.Declaring.addOperation

namespace ImportM

-- the instance for a program is as long as the program
set_option synthInstance.maxSize 4096

variable {M : Manner} {u : UnitContext} {file : Option String}

instance composed_simpleName [hM : M.Describing] (head : Head) :
    Composed M (head.simpleName file) := by
  unfold Head.simpleName
  split
  · infer_instance
  · exact .refuse (hM.raises _ (by simp [ImportError.kind]))

variable [hM : M.Declaring u]

instance composed_popClassifier : Composed M (popClassifier u) := by
  unfold popClassifier
  refine .look (fun s => .bind inferInstance fun ⟨scope, scopes⟩ => ?_) fun _ _ => rfl
  refine .bind inferInstance fun _ => .bind inferInstance fun _ => ?_
  cases scope.frame.classifier with
  | some n => infer_instance
  | none => exact .refuse hM.inconsistent

instance composed_addEnumerationLiteral (name : String) :
    Composed M (addEnumerationLiteral u name) := by
  unfold addEnumerationLiteral
  refine .bind inferInstance fun enumeration => .bind inferInstance fun is => ?_
  exact .ite (composed_refuse_bind (hM.misplaced _)) inferInstance

lemma composed_importMembers {ms : List Member}
    (hinner : ∀ c, .classifier c ∈ ms → Composed M (importClassifier u file c)) :
    Composed M (importMembers u file ms) := by
  induction ms with
  | nil =>
    rw [importMembers]
    infer_instance
  | cons m ms ih =>
    have hm : Composed M (importMember u file m) := by
      cases m with
      | attr a =>
        rw [importMember, importAttribute]
        infer_instance
      | operation o =>
        rw [importMember, importOperation]
        infer_instance
      | classifier c =>
        rw [importMember]
        exact hinner c (by simp)
    rw [importMembers]
    exact hm.bind fun _ => ih fun c hc => hinner c (by simp [hc])

instance composed_importClassifier (c : Classifier) : Composed M (importClassifier u file c) := by
  induction c using Classifier.nested_induction with
  | step c ih =>
    have hbody : Composed M (importBody u file c) := by
      cases c with
      | typed head heritage members => exact composed_importMembers ih
      | enumeration head interfaces literals =>
        unfold importBody
        infer_instance
    rw [importClassifier_eq]
    unfold enterClassifier
    infer_instance

instance composed_openUnit (unit : CompilationUnit) : Composed M (openUnit u unit) := by
  unfold openUnit
  cases unit.package <;> dsimp only <;> infer_instance

instance composed_importUnit (unit : CompilationUnit) : Composed M (importUnit u unit) := by
  rw [importUnit_eq]
  infer_instance

end ImportM

end DeclGraph
