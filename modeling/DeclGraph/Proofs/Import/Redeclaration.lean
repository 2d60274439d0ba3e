import DeclGraph.Proofs.Import.Runs

/-! Declarations met again: at the end of a visit a classifier has the members that its declaration
names, each once, and no others. -/

namespace DeclGraph

open DeclGraph.Graph

namespace Graph

variable {g : Graph} {n m : NodeId} {r : Node} {role : MemberRole} {k : NodeKind}
  {ms : List NodeId} {names : List String}

def name? (g : Graph) (n : NodeId) : Option String := (g.node? n).bind (·.name)

/-- Some elements have some names, one each. -/
def Bear (g : Graph) (ms : List NodeId) (names : List String) : Prop :=
  (ms.map g.name?).Perm (names.dedup.map some)

lemma IsMember.name? {name : Option String} (h : g.IsMember n role name m) : g.name? m = name := by
  obtain ⟨r, hr, -, -, hname⟩ := h
  simp [Graph.name?, hr, hname]

/-- Members in a role bear their names, since they are told apart by them. -/
lemma Sound.bear (h : g.Sound) (hn : g.kind? n = some k) (hk : k.isClassifier = true)
    (hnodup : ms.Nodup) (hms : ∀ m, m ∈ ms ↔ ∃ name, g.IsMember n role (some name) m)
    (hnames : ∀ name, (∃ m, g.IsMember n role (some name) m) ↔ name ∈ names) :
    g.Bear ms names := by
  have hinj : ∀ m ∈ ms, ∀ m' ∈ ms, g.name? m = g.name? m' → m = m' := by
    intro m hm m' hm' heq
    obtain ⟨name, hmem⟩ := (hms m).mp hm
    obtain ⟨name', hmem'⟩ := (hms m').mp hm'
    rw [hmem.name?, hmem'.name?] at heq
    exact h.distinct hn hk hmem (heq ▸ hmem')
  have hdedup : (names.dedup.map some).Nodup :=
    (List.nodup_dedup names).map (Option.some_injective _)
  apply (List.perm_ext_iff_of_nodup (hnodup.map_on hinj) hdedup).mpr
  intro title
  simp only [List.mem_map, List.mem_dedup]
  constructor
  · rintro ⟨m, hm, rfl⟩
    obtain ⟨name, hmem⟩ := (hms m).mp hm
    exact ⟨name, (hnames name).mp ⟨m, hmem⟩, hmem.name?.symm⟩
  · rintro ⟨name, hname, rfl⟩
    obtain ⟨m, hmem⟩ := (hnames name).mpr hname
    exact ⟨m, (hms m).mpr ⟨name, hmem⟩, hmem.name?⟩

lemma mem_featuresOfKind {role : MemberRole} (h : g.Sound) (hr : g.node? n = some r)
    (hrole : role ≠ .inner) (hk : ∀ {k' : NodeKind}, k'.role? = some role ↔ k' = k) :
    m ∈ g.selectIn r.features (·.kind = k) ↔ ∃ name, g.IsMember n role (some name) m := by
  simp only [selectIn, List.mem_filter, h.mem_features hr, Option.any_eq_true, decide_eq_true_eq]
  constructor
  · rintro ⟨⟨role', name, -, hm⟩, x, hx, hkx⟩
    obtain ⟨x', hx', ho, hrole', hname⟩ := hm
    obtain rfl := Option.some.inj (hx.symm.trans hx')
    exact ⟨name, x, hx, ho, hk.mpr hkx, hname⟩
  · rintro ⟨name, hm⟩
    obtain ⟨x, hx, -, hrole', -⟩ := id hm
    exact ⟨⟨role, name, hrole, hm⟩, x, hx, hk.mp hrole'⟩

variable {roles : MemberRole → Bool} {keys : List (MemberRole × String)} {g' : Graph}

/-- The features of a kind after a visit that declares them. -/
lemma Renewed.featuresOfKind (h : g.Renewed n roles keys g') (hg : g'.Sound)
    (hn : g.kind? n = some k) (hc : k.isClassifier = true) {kind : NodeKind}
    (hroles : roles role = true) (hrole : role ≠ .inner)
    (hkind : ∀ {k : NodeKind}, k.role? = some role ↔ k = kind)
    (hkeys : ∀ name, (role, name) ∈ keys ↔ name ∈ names) :
    ∃ ms, g'.featuresOfKind n kind = .ok ms ∧ g'.Bear ms names := by
  have hn' := h.kind? hn
  obtain ⟨r, hr, -⟩ := kind?_eq_some.mp hn'
  refine ⟨_, GraphM.featuresOfKind_ok hg.toLinked hr kind, ?_⟩
  apply hg.bear hn' hc ((hg.nodup hr .features).filter _)
  · intro m
    exact mem_featuresOfKind hg hr hrole hkind
  · intro name
    rw [h.declared hroles, hkeys]

/-- The inner classifiers after a visit. -/
lemma Renewed.innerClassifiers (h : g.Renewed n roles keys g') (hg : g'.Sound)
    (hn : g.kind? n = some k) (hc : k.isClassifier = true) (hroles : roles .inner = true)
    (hkeys : ∀ name, (.inner, name) ∈ keys ↔ name ∈ names) :
    ∃ ms, g'.innerClassifiers n = .ok ms ∧ g'.Bear ms names := by
  have hn' := h.kind? hn
  obtain ⟨r, hr, -⟩ := kind?_eq_some.mp hn'
  refine ⟨_, GraphM.innerClassifiers_ok hg.toLinked hr, ?_⟩
  apply hg.bear hn' hc ((hg.nodup hr .owned).filter _)
  · exact fun m => hg.mem_innerClassifiers hr
  · intro name
    rw [h.declared hroles, hkeys]

end Graph

namespace ImportM

variable {u : UnitContext} {file : Option String} {s t : UnitState} {c d : Classifier}
  {ms : List Member} {name : String}

/-- The names under which a declaration has members in a role, if its body is imported in a state:
operations and constructors, attributes for literals and for those fields that do not become
associations, and inner classifiers. -/
def declaredNames (u : UnitContext) (file : Option String) (c : Classifier) (s : UnitState) :
    MemberRole → List String
  | .operation => c.members.filterMap (·.operationName?)
  | .attr => c.literals ++ attributesAlong u file c.members s
  | .inner => c.members.filterMap (·.innerName?)

lemma mem_memberKeys {m : Member} {role : MemberRole} :
    (role, name) ∈ memberKeys u s m ↔ match role with
      | .operation => u.pass.buildsReferences = true ∧ m.operationName? = some name
      | .attr => u.pass.buildsReferences = true ∧ attributeName? u s m = some name
      | .inner => m.innerName? = some name := by
  cases role <;> cases hb : u.pass.buildsReferences <;> simp [memberKeys, hb]

lemma mem_keysAlong {role : MemberRole} : (role, name) ∈ keysAlong u file ms s ↔
    match role with
    | .operation => u.pass.buildsReferences = true ∧ name ∈ ms.filterMap (·.operationName?)
    | .attr => u.pass.buildsReferences = true ∧ name ∈ attributesAlong u file ms s
    | .inner => name ∈ ms.filterMap (·.innerName?) := by
  induction ms generalizing s with
  | nil => cases role <;> simp [keysAlong, attributesAlong]
  | cons m ms ih =>
    rw [keysAlong, List.mem_append, mem_memberKeys, ih]
    cases role with
    | operation => simp [List.mem_filterMap, and_or_left]
    | attr => simp [attributesAlong, and_or_left]
    | inner => simp [List.mem_filterMap]

lemma mem_bodyKeys {role : MemberRole} : (role, name) ∈ bodyKeys u file c s ↔
    u.pass.declares role = true ∧ name ∈ declaredNames u file c s role := by
  cases c with
  | typed head heritage members =>
    rw [bodyKeys, mem_keysAlong]
    cases role <;> simp [Pass.declares, declaredNames, Classifier.members, Classifier.literals]
  | enumeration head interfaces literals =>
    cases hb : u.pass.buildsReferences <;> cases role <;>
      simp [bodyKeys, hb, Pass.declares, declaredNames, Classifier.members, Classifier.literals,
        attributesAlong]

/-- In the course of the import of `c` from `s`, the import of the declaration `d` begins in `t`. -/
inductive Begins (u : UnitContext) (file : Option String) (d : Classifier) (t : UnitState) :
    Classifier → UnitState → Prop
  | here : Begins u file d t d t
  | inside {head : Head} {heritage : Heritage} {before after : List Member} {c : Classifier}
      {s s' s'' : UnitState} : importHead u file head heritage s = .ok () s' →
      importMembers u file before s' = .ok () s'' → Begins u file d t c s'' →
      Begins u file d t (.typed head heritage (before ++ .classifier c :: after)) s

/-- In the course of the import of a unit from a store, the import of `d` begins in `t`. -/
inductive BeginsIn (u : UnitContext) (unit : CompilationUnit) (store : Store) (d : Classifier)
    (t : UnitState) : Prop
  | intro {before after : List Classifier} {c : Classifier} {s s' : UnitState} :
      unit.definitions = before ++ c :: after → openUnit u unit (.start u store) = .ok () s →
      (before.forM (importClassifier u unit.file) : ImportM Unit) s = .ok () s' →
      Begins u unit.file d t c s' → BeginsIn u unit store d t

lemma importHead_eq (head : Head) (heritage : Heritage) (members : List Member) :
    importHead u file head heritage = (do
      let _ ← enterClassifier u file (.typed head heritage members) : ImportM Unit) := by
  cases heritage <;>
    simp [enterClassifier, importHead, addClass, addInterface, Classifier.kind,
      Classifier.superclass, Classifier.interfaces, Classifier.head]

/-- Where a declaration begins, the open classifiers are in order. -/
lemma Begins.nested (h : Begins u file d t c s) (hs : s.Nested) : t.Nested := by
  induction h with
  | here => exact hs
  | @inside head heritage before after c s s' s'' hhead hmembers _ ih =>
    rw [importHead_eq head heritage []] at hhead
    obtain ⟨n, s₁, henter, hpure⟩ := bind_eq_ok.mp hhead
    obtain ⟨-, rfl⟩ := EStateM.Result.ok.inj hpure
    obtain ⟨-, t₀, frame, -, -, hopened, hl⟩ := (performs_enterClassifier hs _).ok henter
    have hs' : s₁.Nested := hopened.nested.leads hl
    have ho : s₁.scopes.opened = { frame } :: (s.scopes.touch n).opened := by
      rw [hl.unit.scopes, hopened.scopes]
      rfl
    have hinner : ∀ c, Member.classifier c ∈ before → ∀ s : UnitState, s.Nested →
        Performs (.free u) s (importClassifier u file c s) fun _ t =>
          ∃ n, UnitState.Settled c.head.simple n s t := by
      intro c _ s hs
      exact (performs_importClassifier c hs).imp fun _ _ ⟨n, _, _, hn⟩ => ⟨n, hn.settled⟩
    obtain ⟨hsteps, touched, hv⟩ := (performs_importMembers hs' ho hinner).ok hmembers
    exact ih (hv.nested hs' ho hsteps)

lemma BeginsIn.nested {unit : CompilationUnit} {store : Store} (h : BeginsIn u unit store d t)
    (hs : store.graph.Sound) : t.Nested := by
  obtain ⟨-, hopen, hbefore, hbegins⟩ := h
  have hstart := UnitState.sound_start (u := u) hs
  obtain ⟨-, hopened, -⟩ := (performs_openUnit hstart rfl rfl unit).ok hopen
  exact hbegins.nested ((performs_definitions hopened _).ok hbefore).2

/-- What the import of `d` from `s` to `t` makes of its element `n`, which was in its place in `t₀`
and connected in `t₁`. What was there before was so in `t₀`, and in `s` if `n` was. -/
structure Redeclared (u : UnitContext) (file : Option String) (d : Classifier) (n : NodeId)
    (s t₀ t₁ t : UnitState) : Prop where
  added : addClassifier u d.kind d.head.simple d.head.modifierSet d.head.doc s = .ok n t₀
  connected : addInheritance u n d.kind d.superclass d.interfaces t₀ = .ok () t₁
  operations : u.pass.buildsReferences = true → ∃ ms, t.graph.operationsOf n = .ok ms ∧
    t.graph.Bear ms (declaredNames u file d t₁ .operation)
  attributes : u.pass.buildsReferences = true → ∃ ms, t.graph.attributesOf n = .ok ms ∧
    t.graph.Bear ms (declaredNames u file d t₁ .attr)
  inner : ∃ ms, t.graph.innerClassifiers n = .ok ms ∧
    t.graph.Bear ms (declaredNames u file d t₁ .inner)
  kept : ∀ g, g = t₀.graph ∨ g = s.graph ∧ s.graph.isLive n = true → ∀ {role name m},
    role ≠ .inner → u.pass.declares role = true → name ∈ declaredNames u file d t₁ role →
    g.IsMember n role (some name) m → t.graph.IsMember n role (some name) m
  gone : ∀ g, g = t₀.graph ∨ g = s.graph ∧ s.graph.isLive n = true → ∀ {role name m},
    u.pass.declares role = true → name ∉ declaredNames u file d t₁ role →
    g.IsMember n role (some name) m → ¬t.graph.isLive m = true
  features : u.pass.buildsReferences = false → ∃ ms, t₀.graph.featuresOf n = .ok ms ∧
    t.graph.featuresOf n = .ok ms

lemma redeclared_of_visited {n : NodeId} {t₀ t₁ : UnitState} (h : Visited u file d n s t₀ t₁ t)
    (ht : t.graph.Sound) : Redeclared u file d n s t₀ t₁ t := by
  have hkind : d.kind.nodeKind.isClassifier = true := by cases d.kind <;> rfl
  obtain ⟨r₀, hr₀, hk₀, -⟩ := h.upserted.node
  have hn₀ : t₀.graph.kind? n = some d.kind.nodeKind := by rw [kind?_eq hr₀, hk₀]
  have hkeys : ∀ {role}, u.pass.declares role = true → ∀ name,
      (role, name) ∈ bodyKeys u file d t₁ ↔ name ∈ declaredNames u file d t₁ role := by
    intro role hrole name
    rw [mem_bodyKeys, and_iff_right hrole]
  have hprior : ∀ g, g = t₀.graph ∨ g = s.graph ∧ s.graph.isLive n = true → ∀ {role name m},
      g.IsMember n role name m → t₀.graph.IsMember n role name m := by
    rintro g (rfl | ⟨rfl, hl⟩) role name m hm
    · exact hm
    · exact (h.upserted.member hl).mpr hm
  have hinner : u.pass.declares .inner = true := by simp [Pass.declares]
  refine ⟨h.added, h.connected, fun hb => ?_, fun hb => ?_, ?_, ?_, ?_, fun hb => ?_⟩
  · have hop : u.pass.declares .operation = true := by simp [Pass.declares, hb]
    apply h.renewed.featuresOfKind ht hn₀ hkind hop (by simp) _ (hkeys hop)
    intro k
    cases k <;> simp [NodeKind.role?]
  · have hattr : u.pass.declares .attr = true := by simp [Pass.declares, hb]
    apply h.renewed.featuresOfKind ht hn₀ hkind hattr (by simp) _ (hkeys hattr)
    intro k
    cases k <;> simp [NodeKind.role?]
  · exact h.renewed.innerClassifiers ht hn₀ hkind hinner (hkeys hinner)
  · intro g hg role name m hne hrole hname hm
    exact h.renewed.kept hne ((hkeys hrole name).mpr hname) (hprior g hg hm)
  · intro g hg role name m hrole hname hm
    exact h.renewed.gone hrole (fun hkey => hname ((hkeys hrole name).mp hkey)) (hprior g hg hm)
  · have honly : ∀ role, u.pass.declares role = true → role = .inner := by
      intro role hrole
      simpa [Pass.declares, hb] using hrole
    obtain ⟨r, hr, -⟩ := h.renewed.node hr₀
    have hsame := h.renewed.features honly r₀ r hr₀ hr
    exact ⟨r₀.features, by simp [featuresOf, get_of_node? hr₀],
      by simp [featuresOf, get_of_node? hr, hsame]⟩

/-- The eviction of stale members is exact: for every declaration that is visited in the course of
the import of a unit into a graph that imports led to, if the visit does not fail, the members of
its element are those declared, members that were declared again are what they were, and the others
are gone. In the first pass this holds of inner classifiers, and features stay as they are. -/
theorem redeclared_of_visit {unit : CompilationUnit} {store : Store}
    (h : Imported (fun _ => True) store.graph) (hd : BeginsIn u unit store d s)
    (hrun : importClassifier u unit.file d s = .ok () t) :
    ∃ n t₀ t₁, Redeclared u unit.file d n s t₀ t₁ t := by
  have hs := hd.nested h.sound
  obtain ⟨hsteps, n, t₀, t₁, hv⟩ := (performs_importClassifier d hs).ok hrun
  exact ⟨n, t₀, t₁, redeclared_of_visited hv (hs.graph.steps hsteps)⟩

/-- A class declaration without modifiers and parents. -/
def plainClass (name : String) (members : List Member) : Classifier :=
  .typed ⟨name, [], ⟨1, 1, 0, 0⟩, none⟩ (.ofClass none []) members

def plainConstructor (name : String) : Member :=
  .operation ⟨⟨name, [], ⟨1, 1, 0, 0⟩, none⟩, none, [], []⟩

def plainField (type name : String) : Member :=
  .attr ⟨⟨name, [], ⟨1, 1, 0, 0⟩, none⟩, { name := type }, none⟩

/-- A class with an operation, a field and an inner class has been imported. -/
def beforeLoss : Store :=
  finalState (StoreM.runPass "x" {} { definitions := [plainClass "A"
    [plainConstructor "g", plainField "long" "f", .classifier (plainClass "B" [])]] } .references
    { graph := .new "m" ⟨"p", [], []⟩ })

/-- The class has nothing but the operation. -/
def classOfLoss : Classifier := plainClass "A" [plainConstructor "g"]

def contextOfLoss : UnitContext := ⟨"x", .references, {}⟩

/-- Where the class is met again. -/
def startOfLoss : UnitState :=
  finalState (openUnit contextOfLoss { definitions := [classOfLoss] }
    (.start contextOfLoss beforeLoss))

def endOfLoss : UnitState := finalState (importClassifier contextOfLoss none classOfLoss startOfLoss)

/-- A class that is met again without a field and an inner class: both are gone. -/
theorem redeclared_of_visit_of_loss :
    Imported (fun _ => True) beforeLoss.graph ∧
      BeginsIn contextOfLoss { definitions := [classOfLoss] } beforeLoss classOfLoss startOfLoss ∧
      importClassifier contextOfLoss none classOfLoss startOfLoss = .ok () endOfLoss ∧
      (∃ n t₀ t₁, Redeclared contextOfLoss none classOfLoss n startOfLoss t₀ t₁ endOfLoss) ∧
      [6, 8, 9].map startOfLoss.graph.isLive = [true, true, true] ∧
      [6, 8, 9].map endOfLoss.graph.isLive = [true, false, false] := by
  have hstore : Imported (fun _ => True) beforeLoss.graph :=
    (Imported.fresh "m" ⟨"p", [], []⟩).pass trivial "x" _ .references
  have hopens : succeeds (openUnit contextOfLoss { definitions := [classOfLoss] }
      (.start contextOfLoss beforeLoss)) = true := by cbv
  have hruns : succeeds (importClassifier contextOfLoss none classOfLoss startOfLoss) = true := by
    cbv
  have hnone : (([] : List Classifier).forM (importClassifier contextOfLoss none) : ImportM Unit)
      startOfLoss = .ok () startOfLoss := rfl
  have hbegins : BeginsIn contextOfLoss { definitions := [classOfLoss] } beforeLoss classOfLoss
      startOfLoss := .intro rfl (eq_ok_of_succeeds hopens) hnone .here
  have hrun := eq_ok_of_succeeds hruns
  exact ⟨hstore, hbegins, hrun, redeclared_of_visit hstore hbegins hrun, by cbv, by cbv⟩

end ImportM

end DeclGraph
