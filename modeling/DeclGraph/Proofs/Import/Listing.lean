import DeclGraph.Proofs.Import.Constancy
import DeclGraph.Proofs.Import.Shape

/-! The export. It lists what lies outside of the profile package, and what the listed objects refer
to is listed or lies in it. The summary counts what is listed. -/

namespace DeclGraph

open DeclGraph.Graph

namespace Json

/-- The value under a key of an object. -/
def field? (v : Json) (key : String) : Option Json :=
  match v with
  | obj fields => fields.lookup key
  | _ => none

/-- The number under a key. -/
def number? (v : Json) (key : String) : Option Int :=
  match v.field? key with
  | some (int n) => some n
  | _ => none

/-- The text under a key. -/
def text? (v : Json) (key : String) : Option String :=
  match v.field? key with
  | some (str s) => some s
  | _ => none

/-- The number that a value is, or the numbers that it lists. -/
def numbers : Json → List Int
  | int n => [n]
  | arr items => items.filterMap fun
    | int n => some n
    | _ => none
  | _ => []

/-- A number stands under a key of an object, alone or in a list. -/
def Mentions (v : Json) (key : String) (n : Int) : Prop :=
  ∃ fields w, v = obj fields ∧ (key, w) ∈ fields ∧ n ∈ w.numbers

@[simp] lemma numbers_arr_int (ns : List Int) : (arr (ns.map int)).numbers = ns := by
  simp [numbers, List.filterMap_map]

@[simp] lemma numbers_intOrNull (n : Option Int) : (intOrNull n).numbers = n.toList := by
  cases n <;> rfl

end Json

/-- A map that can fail, read through functions of what it takes and gives. -/
lemma map_of_mapM {ε α β γ : Type} {f : α → Except ε β} {p : β → γ} {q : α → γ} {xs : List α}
    {ys : List β} (h : xs.mapM f = .ok ys) (hf : ∀ x y, f x = .ok y → p y = q x) :
    ys.map p = xs.map q := by
  induction xs generalizing ys with
  | nil =>
    obtain rfl := Except.ok.inj h
    rfl
  | cons x xs ih =>
    rw [List.mapM_cons] at h
    obtain ⟨y, hy, h⟩ := except_bind_eq_ok.mp h
    obtain ⟨zs, hzs, h⟩ := except_bind_eq_ok.mp h
    obtain rfl := Except.ok.inj h
    rw [List.map_cons, List.map_cons, hf x y hy, ih hzs]

/-- What a map that can fail gives comes from what it takes. -/
lemma exists_of_mem_mapM {ε α β : Type} {f : α → Except ε β} {xs : List α} {ys : List β}
    (h : xs.mapM f = .ok ys) {y : β} (hy : y ∈ ys) : ∃ x ∈ xs, f x = .ok y := by
  induction xs generalizing ys with
  | nil =>
    obtain rfl := Except.ok.inj h
    simp at hy
  | cons x xs ih =>
    rw [List.mapM_cons] at h
    obtain ⟨z, hz, h⟩ := except_bind_eq_ok.mp h
    obtain ⟨zs, hzs, h⟩ := except_bind_eq_ok.mp h
    obtain rfl := Except.ok.inj h
    rcases List.mem_cons.mp hy with rfl | hy
    · exact ⟨x, by simp, hz⟩
    · obtain ⟨x', hx', hfx'⟩ := ih hzs hy
      exact ⟨x', by simp [hx'], hfx'⟩

namespace Graph

/-- The keys under which objects of an export mention other elements. -/
def referenceKeys : List String :=
  ["owner", "type", "general", "specific", "clients", "suppliers", "resident", "container"]

variable {g : Graph} {n m : NodeId} {r : Node} {chain : List NodeId} {fields : List (String × Json)}

section objects

variable {α : Type} {key key' : String} {w : Json}

lemma mem_field {f : α → Json} {value : Option α} :
    (key, w) ∈ field key' f value ↔ key = key' ∧ ∃ a, value = some a ∧ w = f a := by
  cases value <;> simp [field]

lemma mem_flag {value : Bool} :
    (key, w) ∈ flag key' value ↔ key = key' ∧ value = true ∧ w = .bool true := by
  cases value <;> simp [flag]

lemma mem_listField {items : List Json} :
    (key, w) ∈ listField key' items ↔ key = key' ∧ items ≠ [] ∧ w = .arr items := by
  cases items <;> simp [listField]

/-- What an object of an export mentions is what the record refers to. -/
lemma mentions_nodeFields (h : g.nodeFields n r = .ok fields) (hkey : key ∈ referenceKeys)
    (hm : (Json.obj fields).Mentions key m) :
    m ∈ r.links ∧ (key = "owner" → r.owner = some m) := by
  obtain ⟨_, w, hobj, hw, hin⟩ := hm
  obtain rfl := Json.obj.inj hobj
  obtain ⟨names, -, h⟩ := except_bind_eq_ok.mp h
  obtain rfl := Except.ok.inj h
  have number : ∀ {o : Option NodeId}, (∃ a, o = some a ∧ w = .int a) → o = some m := by
    rintro _ ⟨a, rfl, rfl⟩
    simpa [Json.numbers, eq_comm] using hin
  have listed : ∀ {ns : List NodeId}, (¬ns = [] ∧ w = .arr (ns.map .int)) → m ∈ ns := by
    rintro ns ⟨-, rfl⟩
    simpa using hin
  simp only [referenceKeys, List.mem_cons, List.not_mem_nil, or_false] at hkey
  -- The fields of a residence are written if it has a resident.
  cases hres : r.resident with
  | none =>
    rcases hkey with rfl | rfl | rfl | rfl | rfl | rfl | rfl | rfl <;>
      simp [mem_field, mem_flag, mem_listField, hres] at hw
    · simp [Node.links, number hw]
    · simp [Node.links, number hw]
    · simp [Node.links, number hw]
    · simp [Node.links, number hw]
    · simp [Node.links, listed hw]
    · simp [Node.links, listed hw]
  | some resident =>
    rcases hkey with rfl | rfl | rfl | rfl | rfl | rfl | rfl | rfl <;>
      simp [mem_field, mem_flag, mem_listField, hres] at hw
    · simp [Node.links, number hw]
    · simp [Node.links, number hw]
    · simp [Node.links, number hw]
    · simp [Node.links, number hw]
    · simp [Node.links, listed hw]
    · simp [Node.links, listed hw]
    · simp [Node.links, number ⟨resident, hres, hw⟩]
    · have hin : m ∈ r.container.toList := by simpa [hw] using hin
      simp [Node.links, Option.mem_toList.mp hin]

/-- An object of an export says what it is about. -/
lemma head_nodeFields (h : g.nodeFields n r = .ok fields) :
    (Json.obj fields).number? "id" = some n ∧
      (Json.obj fields).text? "kind" = some r.kind.label := by
  obtain ⟨names, -, h⟩ := except_bind_eq_ok.mp h
  obtain rfl := Except.ok.inj h
  constructor <;> simp [Json.number?, Json.text?, Json.field?, List.lookup_cons]

end objects

lemma map_entries (g : Graph) : g.entries.map (·.1) = g.handles := by
  have hlive : ∀ n ∈ g.handles, ((g.node? n).map (n, ·)).map Prod.fst = some n := by
    intro n hn
    obtain ⟨r, hr⟩ := isLive_iff.mp (mem_handles.mp hn)
    rw [hr]
    rfl
  rw [entries, List.map_filterMap, List.filterMap_congr hlive, List.filterMap_some]

/-- The way up from an element meets what the element lies below. -/
lemma Ascends.mem_iff_below {top : NodeId} (h : g.Ascends n chain) :
    top ∈ chain ↔ g.Below top n := by
  constructor
  · intro hm
    induction h with
    | top => exact List.mem_singleton.mp hm ▸ .self
    | up hr ho _ ih =>
      rcases List.mem_cons.mp hm with rfl | hm
      exacts [.self, (ih hm).part hr ho]
  · intro hb
    induction hb generalizing chain with
    | self => cases h <;> simp
    | part _ hr ho ih =>
      cases h with
      | top hr' ho' =>
        obtain rfl := Option.some.inj (hr.symm.trans hr')
        exact absurd (ho.symm.trans ho') nofun
      | up hr' ho' h =>
        obtain rfl := Option.some.inj (hr.symm.trans hr')
        obtain rfl := Option.some.inj (ho.symm.trans ho')
        exact List.mem_cons_of_mem _ (ih h)

section listed

variable {kept : List (NodeId × Node)} {nodes : List Json}

/-- Elements in the profile package are left out of an export, and no others. -/
lemma Sound.mem_exported (h : g.Sound) (hroot : g.Rooted) (hkept : g.exported false = .ok kept) :
    (n, r) ∈ kept ↔ g.node? n = some r ∧ ¬g.Below profilePackage n := by
  rw [mem_filterM hkept, mem_entries]
  refine and_congr_right fun hr => ?_
  obtain ⟨chain, hc, hrun⟩ := (h.traversable hroot).inProfile (isLive_of_node? hr)
  rw [← hc.mem_iff_below]
  simp [hrun]

/-- The objects of an export, as far as they say what they are about. -/
lemma map_objects {α : Type} (f : Option Int → Option String → α)
    (h : kept.mapM (fun entry => Json.obj <$> g.nodeFields entry.1 entry.2) = .ok nodes) :
    nodes.map (fun v => f (v.number? "id") (v.text? "kind")) =
      kept.map fun entry => f (some entry.1) (some entry.2.kind.label) := by
  refine map_of_mapM h fun entry v hv => ?_
  obtain ⟨fields, hfields, rfl⟩ := except_map_eq_ok.mp hv
  obtain ⟨hid, hkind⟩ := head_nodeFields hfields
  rw [hid, hkind]

/-- The handles in the objects of an export are listed, or they are those of elements that the
profile brought along; handles of owners are listed. -/
lemma Sound.mentions_listed (h : g.Sound) (hroot : g.Rooted) (hkept : g.exported false = .ok kept)
    (hnodes : kept.mapM (fun entry => Json.obj <$> g.nodeFields entry.1 entry.2) = .ok nodes)
    {v : Json} (hv : v ∈ nodes) {key : String} (hkey : key ∈ referenceKeys) (hm : v.Mentions key m) :
    (m ∈ kept.map (·.1) ∨ g.isLive m = true ∧ g.Below profilePackage m) ∧
      (key = "owner" → m ∈ kept.map (·.1)) := by
  obtain ⟨⟨n, r⟩, hin, hobj⟩ := exists_of_mem_mapM hnodes hv
  obtain ⟨fields, hfields, rfl⟩ := except_map_eq_ok.mp hobj
  obtain ⟨hr, hout⟩ := (h.mem_exported hroot hkept).mp hin
  obtain ⟨hlink, howner⟩ := mentions_nodeFields hfields hkey hm
  obtain ⟨x, hx⟩ := isLive_iff.mp (h.live hr m hlink)
  have listed : ¬g.Below profilePackage m → m ∈ kept.map (·.1) := fun hb =>
    List.mem_map_of_mem (f := Prod.fst) ((h.mem_exported hroot hkept).mpr ⟨hx, hb⟩)
  constructor
  · by_cases hb : g.Below profilePackage m
    · exact Or.inr ⟨isLive_of_node? hx, hb⟩
    · exact Or.inl (listed hb)
  · exact fun hk => listed fun hb => hout (hb.part hr (howner hk))

end listed

end Graph

lemma NodeKind.mem_all (k : NodeKind) : k ∈ all := by cases k <;> decide

lemma NodeKind.label_injective : Function.Injective label := by
  intro k k' h
  cases k <;> cases k' <;> first | rfl | exact absurd h (by decide)

/-- What a summary says of the elements that are listed. -/
lemma Graph.summarize_eq {g : Graph} {kept : List (NodeId × Node)}
    (hkept : g.exported false = .ok kept) : ∃ counts, g.summarize = .ok counts ∧
      counts.Pairwise (·.1 < ·.1) ∧ ∀ label count, (label, count) ∈ counts ↔ count ≠ 0 ∧
        ∃ k : NodeKind, label = k.label ∧
          count = kept.countP fun entry => entry.2.kind = k && entry.1 ≠ root := by
  let kinds := (kept.filter (·.1 ≠ root)).map (·.2.kind)
  let counts := ((NodeKind.all.map fun k => (k.label, kinds.count k)).filter (·.2 ≠ 0)).mergeSort
    fun a b => a.1 ≤ b.1
  have hcount : ∀ k, kinds.count k = kept.countP fun entry => entry.2.kind = k && entry.1 ≠ root := by
    intro k
    simp only [kinds, List.count, List.countP_map, List.countP_filter]
    refine List.countP_congr fun entry _ => ?_
    simp
  refine ⟨counts, ?_, ?_, ?_⟩
  · rw [summarize, hkept]
    rfl
  · have hle : counts.Pairwise fun a b => decide (a.1 ≤ b.1) = true := by
      refine List.pairwise_mergeSort (fun a b c hab hbc => ?_) (fun a b => ?_) _
      · simpa using le_trans (of_decide_eq_true hab) (of_decide_eq_true hbc)
      · simpa using le_total a.1 b.1
    replace hle : counts.Pairwise (·.1 ≤ ·.1) := hle.imp of_decide_eq_true
    have hne : (counts.map (·.1)).Nodup := by
      have hperm := (List.mergeSort_perm ((NodeKind.all.map fun k => (k.label, kinds.count k)).filter
        (·.2 ≠ 0)) fun a b => a.1 ≤ b.1).map (·.1)
      refine hperm.nodup_iff.mpr ((List.filter_sublist.map _).nodup ?_)
      rw [List.map_map]
      exact List.Nodup.map NodeKind.label_injective (by decide)
    exact (hle.and (List.pairwise_map.mp hne)).imp fun h => lt_of_le_of_ne h.1 h.2
  · intro label count
    simp only [counts, List.mem_mergeSort, List.mem_filter, List.mem_map, Prod.mk.injEq,
      NodeKind.mem_all, true_and, decide_eq_true_eq, hcount]
    constructor
    · rintro ⟨⟨k, rfl, rfl⟩, hne⟩
      exact ⟨hne, k, rfl, rfl⟩
    · rintro ⟨hne, k, rfl, rfl⟩
      exact ⟨⟨k, rfl, rfl⟩, hne⟩

/-- After any import runs, failed ones included, a model can be exported without its profile. The
objects are those of the elements outside of the profile package, each once and in increasing order of
handles. Every handle in one of them is that of a listed object or of an element of the profile, and of
a listed object if it is an owner. The summary counts the listed objects by kind, apart from the
root. -/
theorem export_closed (name : String) (profile : Profile) (runs : List ImportRun) :
    let g := runs.foldl ImportRun.run (.new name profile)
    ∃ (listed : List NodeId) (nodes : List Json) (counts : List (String × Nat)),
      g.toJson false = .ok (.obj [("format", .str "reveng-model"), ("version", .int 1),
        ("root", .int root), ("profile", .str g.profile.name), ("nodes", .arr nodes)]) ∧
      nodes.map (·.number? "id") = listed.map some ∧ listed.Pairwise (· < ·) ∧
      (∀ n, n ∈ listed ↔ g.isLive n = true ∧ ¬g.Below profilePackage n) ∧
      (∀ v ∈ nodes, ∀ key ∈ referenceKeys, ∀ m, v.Mentions key m →
        (m ∈ listed ∨ g.isLive m = true ∧ g.Below profilePackage m) ∧
          (key = "owner" → m ∈ listed)) ∧
      g.summarize = .ok counts ∧ counts.Pairwise (·.1 < ·.1) ∧
      ∀ label count, (label, count) ∈ counts ↔ count ≠ 0 ∧ ∃ k : NodeKind, label = k.label ∧
        count = nodes.countP fun v => v.text? "kind" = some k.label && v.number? "id" ≠ some root := by
  intro g
  have himported : Imported (fun _ => True) g := Imported.kept.runs (.fresh name profile) runs
  have hsound := himported.sound
  have hroot := himported.rooted
  obtain ⟨json, hjson⟩ := (hsound.traversable hroot).toJson false
  obtain ⟨kept, hkept, h⟩ := except_bind_eq_ok.mp hjson
  obtain ⟨nodes, hnodes, hobj⟩ := except_bind_eq_ok.mp h
  obtain rfl := Except.ok.inj hobj
  have hsub : kept.Sublist g.entries := by
    obtain ⟨kept', hkept', hsub⟩ := hsound.exported_ok hroot false
    exact Except.ok.inj (hkept.symm.trans hkept') ▸ hsub
  obtain ⟨counts, hcounts, hsorted, hmem⟩ := summarize_eq hkept
  refine ⟨kept.map (·.1), nodes, counts, hjson, ?_, ?_, fun n => ?_, fun v hv key hkey m hm => ?_,
    hcounts, hsorted, fun label count => ?_⟩
  · rw [map_objects (fun id _ => id) hnodes, List.map_map]
    rfl
  · have hle := hsub.map (·.1)
    rw [map_entries] at hle
    exact g.handles_increasing.sublist hle
  · rw [isLive_iff]
    constructor
    · intro hn
      obtain ⟨⟨_, r⟩, hin, rfl⟩ := List.mem_map.mp hn
      obtain ⟨hr, hout⟩ := (hsound.mem_exported hroot hkept).mp hin
      exact ⟨⟨r, hr⟩, hout⟩
    · rintro ⟨⟨r, hr⟩, hout⟩
      exact List.mem_map_of_mem (f := Prod.fst) ((hsound.mem_exported hroot hkept).mpr ⟨hr, hout⟩)
  · exact hsound.mentions_listed hroot hkept hnodes hv hkey hm
  · have hcount : ∀ k : NodeKind, (kept.countP fun entry => entry.2.kind = k && entry.1 ≠ root) =
        nodes.countP fun v => v.text? "kind" = some k.label && v.number? "id" ≠ some root := by
      intro k
      have hmap := congrArg (List.countP id)
        (map_objects (fun id kind => kind = some k.label && id ≠ some root) hnodes)
      rw [List.countP_map, List.countP_map] at hmap
      refine .trans (List.countP_congr fun entry _ => ?_) hmap.symm
      simp [NodeKind.label_injective.eq_iff]
    simp only [hmem, hcount]

end DeclGraph
