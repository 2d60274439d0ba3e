import DeclGraph.Proofs.Import.Failures
import DeclGraph.Proofs.Import.Framing
import DeclGraph.Proofs.Import.Redeclaration

/-! The order in which a unit is imported. On a graph that imports lead to, a pass over a unit ends
with no classifier open or with an error that is due to the unit, and every classifier that is
entered on the way is the one that is left. -/

namespace DeclGraph

open DeclGraph.Graph

namespace ModifierSet

/-- The labels of modifiers tell them apart. -/
lemma find_label (m : Modifier) :
    m.label ≠ "NONE" ∧ (Modifier.all.find? (·.label = m.label)) = some m := by
  cases m <;> decide +kernel

/-- The words of modifiers name them. -/
lemma insertWord_word (s : ModifierSet) (m : Modifier) :
    s.insertWord m.word = .ok (s.insert m) := by
  obtain ⟨hne, hfind⟩ := find_label m
  have hlabel : Text.upper m.word = m.label := rfl
  simp only [insertWord, hlabel, if_neg hne, hfind]

lemma foldlM_insertWord (ms : List Modifier) (s : ModifierSet) :
    (ms.map (·.word)).foldlM insertWord s = .ok (ms.foldl insert s) := by
  induction ms generalizing s with
  | nil => rfl
  | cons m ms ih =>
    rw [List.map_cons, List.foldlM_cons, insertWord_word]
    exact ih (s.insert m)

lemma any_access_word (m : Modifier) :
    (Modifier.all.any fun m' => m'.isAccess && decide (m'.word = m.word)) = m.isAccess := by
  cases m <;> decide

/-- A declaration is read as it was written. -/
lemma ofDeclaration_words (ms : List Modifier) :
    ofDeclaration (ms.map (·.word)) = .ok (declared ms) := by
  have haccess : ((ms.map (·.word)).any fun w =>
      Modifier.all.any fun m => m.isAccess && decide (m.word = w)) = ms.any (·.isAccess) := by
    rw [List.any_map]
    exact congrArg ms.any (funext any_access_word)
  unfold ofDeclaration ofWords declared ofList
  rw [foldlM_insertWord, haccess]
  cases ms.any (·.isAccess) <;> rfl

end ModifierSet

/-- What a unit can be at fault for. -/
lemma ImportError.IsDue.kind_mem {e : ImportError} (h : e.IsDue) :
    e.kind ∈ [FailureKind.source, .stereotype, .graph, .unresolved] := by
  revert h
  rcases e with _ | _ | _ | (_ | _ | _ | _ | _) | _ | _ <;> simp [IsDue, kind]

namespace ImportM

variable {u : UnitContext} {file : Option String} {c d : Classifier} {n : NodeId}
  {s s₁ s₂ t : UnitState}

/-- What ends a unit makes sure that nothing is open. -/
lemma opened_importUnit {unit : CompilationUnit} (hrun : importUnit u unit s = .ok () t) :
    t.scopes.opened = [] := by
  rw [importUnit_eq] at hrun
  obtain ⟨_, s₁, -, hrun⟩ := bind_eq_ok.mp hrun
  obtain ⟨_, s₂, -, hfinish⟩ := bind_eq_ok.mp hrun
  unfold finish at hfinish
  obtain ⟨_, _, hget, hfinish⟩ := bind_eq_ok.mp hfinish
  cases hget
  split_ifs at hfinish with hdepth
  · cases hfinish
  · cases hfinish
    simpa [ScopeStack.depth] using hdepth

/-- Whatever a declaration has in it, the classifier that its head opened is there to be left. -/
lemma left_of_entered (h : s.Nested) (hhead : enterClassifier u file d s = .ok n s₁)
    (hbody : importBody u file d s₁ = .ok () s₂) :
    ∃ t, popClassifier u s₂ = .ok n t ∧ importClassifier u file d s = .ok () t := by
  obtain ⟨-, t₀, frame, -, -, hopened, hl⟩ := (performs_enterClassifier h d).ok hhead
  have h₁ : s₁.Nested := hopened.nested.leads hl
  have ho₁ : s₁.scopes.opened = { frame } :: (s.scopes.touch n).opened := by
    rw [hl.unit.scopes, hopened.scopes]
    rfl
  have hvisit : Performs (.free u) s₁ (importBody u file d s₁) fun _ t => ∃ touched,
      UnitState.Visit { frame } (s.scopes.touch n).opened (bodyKeys u file d s₁) touched s₁ t :=
    performs_importBody h₁ ho₁ fun c' _ _ hs => performs_settled hs c'
  obtain ⟨hs₂, touched, hv⟩ := hvisit.ok hbody
  have ho₂ : s₂.scopes.opened = { frame, touched } :: (s.scopes.touch n).opened := by
    rw [hv.scopes]
  obtain ⟨t, hpop⟩ := popClassifier_ok (u := u) (hv.nested h₁ ho₁ hs₂) ho₂
  rw [hopened.frames.home] at hpop
  refine ⟨t, hpop, ?_⟩
  rw [importClassifier_eq, bind_run hhead, bind_run hbody, bind_run hpop]
  rfl

/-- Imports keep to the order in which classifiers are entered and left. Whatever a pass with any
settings is given, it ends with no classifier open, or with an error that the source, a missing
stereotype, an operation on the model or a name that is not found is the reason of: no error is about
declarations in wrong places, a record that is missing or a state that contradicts itself. Wherever
a declaration is met in the course of it, what is left at the end of its body is the classifier that
its head opened. The words of its modifiers are known. -/
theorem ends_in_order {store : Store} (h : Imported (fun _ => True) store.graph) (u : UnitContext)
    (unit : CompilationUnit) :
    ((∃ t, importUnit u unit (.start u store) = .ok () t ∧ t.scopes.opened = []) ∨
      ∃ e t, importUnit u unit (.start u store) = .error e t ∧
        e.kind ∈ [FailureKind.source, .stereotype, .graph, .unresolved]) ∧
      ∀ d s, BeginsIn u unit store d s →
        ModifierSet.ofDeclaration (d.head.modifiers.map (·.word)) = .ok d.head.modifierSet ∧
        ∀ n s₁ s₂, enterClassifier u unit.file d s = .ok n s₁ →
          importBody u unit.file d s₁ = .ok () s₂ →
          ∃ t, popClassifier u s₂ = .ok n t ∧ importClassifier u unit.file d s = .ok () t := by
  have hstart : (UnitState.start u store).Sound := UnitState.sound_start h.sound
  have hdue := dueFrom_importUnit (u := u) hstart rfl rfl unit
  refine ⟨?_, fun d s hd => ⟨ModifierSet.ofDeclaration_words _, fun n s₁ s₂ hhead hbody => ?_⟩⟩
  · cases hrun : importUnit u unit (.start u store) with
    | ok a t => exact .inl ⟨t, rfl, opened_importUnit hrun⟩
    | error e t => exact .inr ⟨e, t, rfl,
        (hdue.error (StoreM.ready_start h.sound u) hrun).kind_mem⟩
  · exact left_of_entered (hd.nested h.sound) hhead hbody

/-- An enumeration in the class in which a class of its name was. -/
def nestedEnumeration : Classifier := .enumeration ⟨"B", [.static], ⟨2, 1, 0, 0⟩, none⟩ [] ["x"]

def unitOfNested : CompilationUnit :=
  { definitions := [plainClass "A" [.classifier nestedEnumeration]] }

/-- Where the class is met. -/
def startOfOuter : UnitState :=
  finalState (openUnit contextOfLoss unitOfNested (.start contextOfLoss beforeLoss))

/-- Where the enumeration in it is met. -/
def startOfNested : UnitState :=
  finalState (importHead contextOfLoss none ⟨"A", [], ⟨1, 1, 0, 0⟩, none⟩ (.ofClass none [])
    startOfOuter)

/-- Where its literal is met. -/
def startOfLiteral : UnitState :=
  finalState (enterClassifier contextOfLoss none nestedEnumeration startOfNested)

def endOfLiteral : UnitState :=
  finalState (importBody contextOfLoss none nestedEnumeration startOfLiteral)

/-- A class that comes again with an enumeration where it had a class: the enumeration is entered,
gets its literal and is left, and nothing is open at the end. -/
theorem ends_in_order_of_nested :
    Imported (fun _ => True) beforeLoss.graph ∧
      BeginsIn contextOfLoss unitOfNested beforeLoss nestedEnumeration startOfNested ∧
      succeeds (importUnit contextOfLoss unitOfNested (.start contextOfLoss beforeLoss)) = true ∧
      (finalState (importUnit contextOfLoss unitOfNested
        (.start contextOfLoss beforeLoss))).scopes.opened = [] ∧
      ∃ n, enterClassifier contextOfLoss none nestedEnumeration startOfNested =
          .ok n startOfLiteral ∧
        importBody contextOfLoss none nestedEnumeration startOfLiteral = .ok () endOfLiteral ∧
        ∃ t, popClassifier contextOfLoss endOfLiteral = .ok n t ∧
          importClassifier contextOfLoss none nestedEnumeration startOfNested = .ok () t := by
  have hstore : Imported (fun _ => True) beforeLoss.graph :=
    (Imported.fresh "m" ⟨"p", [], []⟩).pass trivial "x" _ .references
  have hopens : succeeds (openUnit contextOfLoss unitOfNested
      (.start contextOfLoss beforeLoss)) = true := by cbv
  have hhead : succeeds (importHead contextOfLoss none ⟨"A", [], ⟨1, 1, 0, 0⟩, none⟩
      (.ofClass none []) startOfOuter) = true := by cbv
  have henters : succeeds (enterClassifier contextOfLoss none nestedEnumeration startOfNested) =
      true := by cbv
  have hliterals : succeeds (importBody contextOfLoss none nestedEnumeration startOfLiteral) =
      true := by cbv
  have hruns : succeeds (importUnit contextOfLoss unitOfNested
      (.start contextOfLoss beforeLoss)) = true := by cbv
  have hnone : (([] : List Classifier).forM (importClassifier contextOfLoss none) : ImportM Unit)
      startOfOuter = .ok () startOfOuter := rfl
  have hnomember : importMembers contextOfLoss none [] startOfNested = .ok () startOfNested := by
    rw [importMembers]
    rfl
  have hinside : Begins contextOfLoss none nestedEnumeration startOfNested
      (plainClass "A" ([] ++ [.classifier nestedEnumeration])) startOfOuter :=
    .inside (eq_ok_of_succeeds hhead) hnomember .here
  have hbegins : BeginsIn contextOfLoss unitOfNested beforeLoss nestedEnumeration startOfNested :=
    .intro rfl (eq_ok_of_succeeds hopens) hnone hinside
  obtain ⟨n, hn⟩ := exists_ok_of_succeeds henters
  have hbody := eq_ok_of_succeeds hliterals
  obtain ⟨hend, hvisits⟩ := ends_in_order hstore contextOfLoss unitOfNested
  refine ⟨hstore, hbegins, hruns, ?_, n, hn, hbody, (hvisits _ _ hbegins).2 n _ _ hn hbody⟩
  rcases hend with ⟨t, hrun, ht⟩ | ⟨e, t, hrun, -⟩
  · rw [hrun]
    exact ht
  · rw [hrun] at hruns
    cases hruns

end ImportM

end DeclGraph
