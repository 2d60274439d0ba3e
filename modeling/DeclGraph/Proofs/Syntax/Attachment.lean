import DeclGraph.Proofs.Syntax.Extents

/-!
Documentation comments and the declarations they belong to. Declarations start one after the other
in the order of the tree, so a comment that any declaration follows belongs to exactly one.
-/

namespace DeclGraph

def Member.start (m : Member) : Nat := m.head.loc.start

/-- The comment ends before the declaration starts, and no other declaration of the unit starts
between the two. -/
def DocToken.Precedes (c : DocToken) (u : CompilationUnit) (d : Member) : Prop :=
  c.stop ≤ d.start ∧ ∀ e ∈ u.declarations, c.stop ≤ e.start → ¬e.start < d.start

instance (c : DocToken) (u : CompilationUnit) (d : Member) : Decidable (c.Precedes u d) :=
  inferInstanceAs (Decidable (_ ∧ _))

/-- Every declaration has the last of the comments that precede it, and every comment with a
declaration after it precedes exactly one. -/
structure CompilationUnit.Documented (u : CompilationUnit) (comments : List DocToken) : Prop where
  inOrder : comments.Pairwise fun c c' => c.stop ≤ c'.start
  starts : u.declarations.Pairwise fun d e => d.start < e.start
  doc : ∀ d ∈ u.declarations,
    d.head.doc = ((comments.filter fun c => c.Precedes u d).getLast?).map (·.text)
  considered : ∀ c ∈ comments, (∃ d ∈ u.declarations, c.stop ≤ d.start) →
    ∃! d, d ∈ u.declarations ∧ c.Precedes u d

section Starts

mutual

/-- The declarations in a classifier start in order. -/
lemma Classifier.Spans.starts : ∀ {c : Classifier} {ts : List Token}, c.Spans ts →
    Token.InOrder ts → (∀ t ∈ ts, t.start.offset < t.stop) →
    c.declarations.Pairwise fun d e => d.start < e.start
  | .typed head heritage members, ts, h, ho, hlt => by
    obtain ⟨body, hpart, hbody, hinside⟩ := h.inside ho hlt
    refine List.pairwise_cons.2 ⟨fun d hd => ?_, ?_⟩
    · obtain ⟨us, hus, hd⟩ := hbody.declarations d hd
      exact (hinside _ us hus.isInfix hd.covers).1
    · exact Member.SpanAll.starts hbody (ho.sublist hpart.sublist)
        fun t ht => hlt t (hpart.subset ht)
  | .enumeration .., _, _, _, _ => List.pairwise_singleton _ _

lemma Member.Spans.starts : ∀ {m : Member} {ts : List Token}, m.Spans ts →
    Token.InOrder ts → (∀ t ∈ ts, t.start.offset < t.stop) →
    m.declarations.Pairwise fun d e => d.start < e.start
  | .attr _, _, _, _, _ => List.pairwise_singleton _ _
  | .operation _, _, _, _, _ => List.pairwise_singleton _ _
  | .classifier _, _, .classifier h, ho, hlt => Classifier.Spans.starts h ho hlt

lemma Member.SpanAll.starts : ∀ {ms : List Member} {ts : List Token}, Member.SpanAll ms ts →
    Token.InOrder ts → (∀ t ∈ ts, t.start.offset < t.stop) →
    (Member.declarationsOf ms).Pairwise fun d e => d.start < e.start
  | [], _, _, _, _ => .nil
  | _ :: _, _, .cons h hs, ho, hlt => by
    obtain ⟨hfirst, hrest, -⟩ := List.pairwise_append.1 ho
    have hlt' := List.forall_mem_append.1 hlt
    refine List.pairwise_append.2 ⟨Member.Spans.starts h hfirst hlt'.1,
      Member.SpanAll.starts hs hrest hlt'.2, fun d hd e he => ?_⟩
    obtain ⟨us, hus, hd⟩ := h.declarations d hd
    obtain ⟨vs, hvs, he⟩ := hs.declarations e he
    have hdlt := hd.covers.lt (hfirst.sublist hus.isInfix.sublist)
      fun t ht => hlt'.1 t (hus.isInfix.subset ht)
    exact hdlt.trans_le (hd.covers.before he.covers
      (ho.sublist (hus.isInfix.sublist.append hvs.isInfix.sublist)))

end

end Starts

section Documents

variable {docs : Nat → Option String}

lemma Member.head_document (m : Member) : (m.document docs).head = m.head.document docs := by
  rcases m with a | o | ⟨head, heritage, members⟩ | ⟨head, interfaces, literals⟩ <;> rfl

lemma Member.start_document (m : Member) : (m.document docs).start = m.start := by
  rw [start, head_document]
  rfl

mutual

/-- Documentation is written to all declarations in a classifier. -/
lemma Classifier.declarations_document : ∀ c : Classifier,
    (c.document docs).declarations = c.declarations.map (·.document docs)
  | .typed head heritage members => by
    rw [Classifier.document, Classifier.declarations, Classifier.declarations, List.map_cons,
      Member.declarationsOf_documentAll members]
    rfl
  | .enumeration .. => rfl

lemma Member.declarations_document : ∀ m : Member,
    (m.document docs).declarations = m.declarations.map (·.document docs)
  | .attr _ => rfl
  | .operation _ => rfl
  | .classifier c => Classifier.declarations_document c

lemma Member.declarationsOf_documentAll : ∀ ms : List Member,
    Member.declarationsOf (Member.documentAll docs ms)
      = (Member.declarationsOf ms).map (·.document docs)
  | [] => rfl
  | m :: ms => by
    rw [Member.documentAll, Member.declarationsOf, Member.declarationsOf, List.map_append,
      Member.declarations_document m, Member.declarationsOf_documentAll ms]

end

mutual

lemma Classifier.starts_eq : ∀ c : Classifier, c.starts = c.declarations.map (·.start)
  | .typed head heritage members => by
    rw [Classifier.starts, Classifier.declarations, List.map_cons, Member.startsOf_eq members]
    rfl
  | .enumeration .. => rfl

lemma Member.starts_eq : ∀ m : Member, m.starts = m.declarations.map (·.start)
  | .attr _ => rfl
  | .operation _ => rfl
  | .classifier c => Classifier.starts_eq c

lemma Member.startsOf_eq : ∀ ms : List Member,
    Member.startsOf ms = (Member.declarationsOf ms).map (·.start)
  | [] => rfl
  | m :: ms => by
    rw [Member.startsOf, Member.declarationsOf, List.map_append, Member.starts_eq m,
      Member.startsOf_eq ms]

end

end Documents

namespace CompilationUnit

variable {u : CompilationUnit}

lemma starts_eq (u : CompilationUnit) : u.starts = u.declarations.map (·.start) := by
  rw [starts, declarations]
  induction u.definitions with
  | nil => rfl
  | cons c cs ih =>
    rw [List.flatMap_cons, List.map_cons, Member.declarationsOf, List.map_append, ih,
      Classifier.starts_eq, Member.declarations]

lemma declarations_attachDocs (u : CompilationUnit) (comments : List DocToken) :
    (u.attachDocs comments).declarations
      = u.declarations.map (·.document (u.docFor? comments)) := by
  rw [declarations, declarations, ← Member.declarationsOf_documentAll,
    Member.documentAll_eq_map, attachDocs, List.map_map, List.map_map]
  rfl

/-- A look-up for a comment finds the declaration that the comment precedes. -/
lemma declarationAfter?_eq_some {c : DocToken} {d : Member} (hd : d ∈ u.declarations) :
    u.declarationAfter? c = some d.start ↔ c.Precedes u d := by
  have hstart : d.start ∈ u.starts := by
    rw [starts_eq]
    exact List.mem_map_of_mem hd
  rw [declarationAfter?, List.min?_eq_some_iff, List.mem_filter, starts_eq]
  simp only [List.mem_filter, List.forall_mem_map, decide_eq_true_eq, DocToken.Precedes, not_lt,
    and_imp]
  rw [← starts_eq]
  simp [hstart]

/-- The first declaration that starts after a comment is the only one that it precedes. -/
lemma existsUnique_precedes (h : u.declarations.Pairwise fun d e => d.start < e.start)
    {c : DocToken} (hc : ∃ d ∈ u.declarations, c.stop ≤ d.start) :
    ∃! d, d ∈ u.declarations ∧ c.Precedes u d := by
  obtain ⟨e, he, hstop⟩ := hc
  have hstart : e.start ∈ u.starts.filter (c.stop ≤ ·) := by
    rw [starts_eq]
    exact List.mem_filter.2 ⟨List.mem_map_of_mem he, decide_eq_true hstop⟩
  obtain ⟨a, ha⟩ := Option.isSome_iff_exists.1 (List.isSome_min?_of_mem hstart)
  have hmem : a ∈ u.declarations.map (·.start) := by
    rw [← starts_eq]
    exact List.mem_of_mem_filter (List.min?_mem ha)
  obtain ⟨d, hd, rfl⟩ := List.mem_map.1 hmem
  have hnodup : (u.declarations.map (·.start)).Nodup :=
    List.pairwise_map.2 (h.imp fun hlt => hlt.ne)
  refine ⟨d, ⟨hd, (declarationAfter?_eq_some hd).1 ha⟩, fun d' ⟨hd', hprecedes⟩ => ?_⟩
  refine List.inj_on_of_nodup_map hnodup hd' hd ?_
  exact Option.some_inj.1 (((declarationAfter?_eq_some hd').2 hprecedes).symm.trans ha)

lemma Spans.starts {ts : List Token} (h : u.Spans ts) (ho : Token.InOrder ts)
    (hlt : ∀ t ∈ ts, t.start.offset < t.stop) :
    u.declarations.Pairwise fun d e => d.start < e.start := by
  obtain ⟨package, imports, definitions, rfl, -, -, hdefinitions⟩ := h
  exact hdefinitions.starts (List.pairwise_append.1 ho).2.1 fun t ht =>
    hlt t (List.mem_append_right _ ht)

lemma precedes_attachDocs {c : DocToken} {comments : List DocToken} {d : Member}
    {docs : Nat → Option String} :
    c.Precedes (u.attachDocs comments) (d.document docs) ↔ c.Precedes u d := by
  simp [DocToken.Precedes, declarations_attachDocs, Member.start_document]

/-- Attaching comments in order to a unit whose declarations start in order documents it. -/
lemma documented_attachDocs {comments : List DocToken}
    (h : u.declarations.Pairwise fun d e => d.start < e.start)
    (hcomments : comments.Pairwise fun c c' => c.stop ≤ c'.start) :
    (u.attachDocs comments).Documented comments := by
  have hstarts : (u.attachDocs comments).declarations.Pairwise fun d e => d.start < e.start := by
    rw [declarations_attachDocs, List.pairwise_map]
    simpa only [Member.start_document] using h
  refine ⟨hcomments, hstarts, fun d hd => ?_, fun c _ hc => existsUnique_precedes hstarts hc⟩
  rw [declarations_attachDocs] at hd
  obtain ⟨e, he, rfl⟩ := List.mem_map.1 hd
  rw [Member.head_document]
  change u.docFor? comments e.start = _
  simp only [docFor?, declarationAfter?_eq_some he, precedes_attachDocs]

end CompilationUnit

lemma Course.noted_initial : ({} : Course).Noted := ⟨.nil, by simp⟩

/-- In what is accepted, every declaration has the last of the documentation comments that precede
it, and every comment with a declaration after it precedes exactly one. -/
theorem parseSource_documented {source : String} {file : Option String} {u : CompilationUnit}
    (h : parseSource source file = .ok u) : ∃ s, Course.run {} source.toList = .ok s
      ∧ u.Documented s.docs.reverse := by
  obtain ⟨ts, s, v, hscans, hfinish, rfl⟩ := scans_of_parseSource h
  have hrun : Course.run {} source.toList = .ok s := by
    have := hscans.run
    rwa [List.append_nil, Course.run] at this
  have haccounts : s.reader.Accounts ts := Reader.accounts_initial.feed hscans.reader
  have hstarts := (haccounts.finish hfinish).starts hscans.inOrder
    fun t ht => (hscans.standsIn t ht).lt
  obtain ⟨hinOrder, hlast, hdoc, hconsidered⟩ := CompilationUnit.documented_attachDocs hstarts
    (List.pairwise_reverse.2 (hscans.noted Course.noted_initial).inOrder)
  exact ⟨s, hrun, hinOrder, hlast, hdoc, hconsidered⟩

/-- A class and a member, with comments that belong to them and one that belongs to nothing. -/
def commentedClass : String := "/**a*/ class C \x7b /**b*/ /**c*/ private /**d*/ int n; /**e*/ \x7d"

theorem parseSource_documented_commentedClass : ∃ u, parseSource commentedClass none = .ok u
    ∧ u.declarations.map (·.head.doc) = [some "/**a*/", some "/**c*/"]
    ∧ ∃ s, Course.run {} commentedClass.toList = .ok s ∧ u.Documented s.docs.reverse := by
  obtain ⟨u, hu, hdocs⟩ := exists_ok_of_map (x := parseSource commentedClass none)
    (f := fun u => u.declarations.map (·.head.doc)) (b := [some "/**a*/", some "/**c*/"])
    (by decide +kernel)
  exact ⟨u, hu, hdocs, parseSource_documented hu⟩

end DeclGraph
