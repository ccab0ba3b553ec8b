import MaterialNet.Proofs.Collecting
import MaterialNet.Proofs.Names

namespace MaterialNet

/-!
# Set before it is read

The statements of a stage stand in the order of dependence.  So every variable of a node has been
set when a line reads it, or it is a uniform, which has been declared before the first line.

* `InScope` — every variable that lines read is known by then
* `Network.Knows` — what is known when some nodes have been computed
* `Written.inScope`, `Written.computes` — the lines of a plan
-/

/-! ### Scopes -/

/-- The variables that lines set. -/
def targets (lines : List Line) : Set String := {x | ∃ l ∈ lines, l.target? = some x}

theorem targets_append (lines lines' : List Line) :
    targets (lines ++ lines') = targets lines ∪ targets lines' := by
  ext x
  simp only [targets, List.mem_append, Set.mem_ofPred_eq, Set.mem_union, or_and_right, exists_or]

theorem targets_cons (l : Line) (rest : List Line) :
    targets (l :: rest) = targets [l] ∪ targets rest :=
  targets_append [l] rest

theorem targets_nil : targets [] = ∅ := by
  simp [targets]

/-- Every variable that a line reads is known from the start or set by a line before. -/
def InScope : Set String → List Line → Prop
  | _, [] => True
  | known, l :: rest => (∀ x ∈ l.reads, x ∈ known) ∧ InScope (known ∪ targets [l]) rest

/-- Of two groups of lines, the later one may read what the earlier one sets. -/
theorem inScope_append {known : Set String} {lines lines' : List Line} :
    InScope known (lines ++ lines')
      ↔ InScope known lines ∧ InScope (known ∪ targets lines) lines' := by
  induction lines generalizing known with
  | nil => simp [InScope, targets_nil]
  | cons l rest ih =>
    rw [List.cons_append, InScope, InScope, ih, and_assoc, targets_cons l rest, Set.union_assoc]

/-- What a line reads is known from the start or set by a line before it. -/
theorem InScope.mem {known : Set String} {lines before after : List Line} {l : Line}
    (h : InScope known lines) (hlines : lines = before ++ l :: after) :
    ∀ x ∈ l.reads, x ∈ known ∨ ∃ l' ∈ before, l'.target? = some x := by
  rw [hlines, inScope_append, InScope] at h
  exact h.2.1

namespace Network

variable {net : Network} {here seen seen' : Set Handle} {known : Set String} {h : Handle} {n : Node}
  {out : List Handle} {lines : List Line}

/-! ### What is known when nodes have been computed -/

/-- In a program for the nodes `here`, of which the nodes `seen` have been computed, the names that
    the programs declare, the uniforms and the variables of the computed nodes are known. -/
structure Knows (net : Network) (here seen : Set Handle) (known : Set String) : Prop where
  program : ∀ x ∈ programNames, x ∈ known
  uniforms : ∀ h ∈ here, ∀ n, net.node? h = some n → n.storage = .uniform → n.id ∈ known
  computed : ∀ h ∈ seen, h ≠ net.sink → ∀ n, net.node? h = some n → n.variableName ∈ known

theorem Knows.mono {known' : Set String} (h : net.Knows here seen known) (hle : known ⊆ known') :
    net.Knows here seen known' where
  program x hx := hle (h.program x hx)
  uniforms x hx n hn hs := hle (h.uniforms x hx n hn hs)
  computed x hx hne n hn := hle (h.computed x hx hne n hn)

/-- A node whose variable is known may count as computed. -/
theorem Knows.record (hk : net.Knows here seen known) (hn : net.node? h = some n)
    (hname : n.variableName ∈ known) : net.Knows here (insert h seen) known where
  program := hk.program
  uniforms := hk.uniforms
  computed x hx hne m hm := by
    rcases hx with rfl | hx
    · obtain rfl := Option.some.inj (hn.symm.trans hm)
      exact hname
    · exact hk.computed x hx hne m hm

/-- Two groups of nodes have the lines of both. -/
theorem Computes.append {out' : List Handle} {lines' : List Line} (h : Computes net out lines)
    (h' : Computes net out' lines') : Computes net (out ++ out') (lines ++ lines') := by
  induction h with
  | nil => exact h'
  | cons hs _ ih =>
    rw [List.cons_append, List.append_assoc]
    exact .cons hs ih

/-- Each of the lines that compute some nodes is the statement of one of them. -/
theorem Computes.exists_of_mem (h : Computes net out lines) :
    ∀ l ∈ lines, ∃ x ∈ out, ∃ events, net.statementOf x = .ok (some l, events) := by
  induction h with
  | nil => exact nofun
  | @cons x line? events rest lines hs _ ih =>
    intro l hl
    rcases List.mem_append.1 hl with hl | hl
    · obtain rfl := Option.mem_toList.1 hl
      exact ⟨x, List.mem_cons_self, events, hs⟩
    · obtain ⟨y, hy, hs⟩ := ih l hl
      exact ⟨y, List.mem_cons_of_mem _ hy, hs⟩

/-- Each of the nodes has a statement or, as a uniform constant, none. -/
theorem Computes.exists_statementOf (h : Computes net out lines) :
    ∀ x ∈ out, ∃ line? events, net.statementOf x = .ok (line?, events) := by
  induction h with
  | nil => exact nofun
  | @cons y line? events rest lines hs _ ih =>
    intro x hx
    rcases List.mem_cons.1 hx with rfl | hx
    · exact ⟨line?, events, hs⟩
    · exact ih x hx

/-- The statement of each of the nodes is one of the lines. -/
theorem Computes.mem_of_statementOf (h : Computes net out lines) {x : Handle} (hx : x ∈ out)
    {l : Line} {events : List Event} (hs : net.statementOf x = .ok (some l, events)) :
    l ∈ lines := by
  induction h with
  | nil => cases hx
  | cons hs' _ ih =>
    rcases List.mem_cons.1 hx with rfl | hx
    · rw [hs] at hs'
      obtain ⟨rfl, -⟩ := Prod.mk.inj (Except.ok.inj hs')
      exact List.mem_append_left _ (List.mem_singleton_self l)
    · exact List.mem_append_right _ (ih hx)

section WellFormed

variable (hw : net.WellFormed) (hhere : ∀ x ∈ here, x ≠ net.sink)
include hw hhere

/-- The statement of a node reads what is known, and makes the node's variable known. -/
theorem Knows.statement {line? : Option Line} {events : List Event}
    (hk : net.Knows here seen known) (hh : h ∈ here)
    (hread : ∀ q, net.Reads h q → q ∈ seen) (hs : net.statementOf h = .ok (line?, events)) :
    InScope known line?.toList ∧ net.Knows here (insert h seen) (known ∪ targets line?.toList) := by
  have hne := hhere h hh
  cases line? with
  | none =>
    -- Only a uniform has no statement, and it is known from the start.
    obtain ⟨n, inputs, hn, hstatement, -⟩ := statementOf_eq_ok hs
    obtain ⟨value, hkind, hstorage⟩ := Node.uniform_of_statement
      (congrArg Prod.fst hstatement).symm (hw.isSink_eq_false hn hne)
    have hname : n.variableName ∈ known := by
      rw [Node.variableName_of_ne_texture (by simp [hkind])]
      exact hk.uniforms h hh n hn hstorage
    exact ⟨trivial, (hk.record hn hname).mono Set.subset_union_left⟩
  | some l =>
    obtain ⟨n, hn, htarget, -, -, hreads⟩ := reads_of_statementOf hw hne hs
    refine ⟨⟨fun x hx => ?_, trivial⟩, (hk.mono Set.subset_union_left).record hn ?_⟩
    · rcases hreads x hx with hx | ⟨hstorage, rfl⟩ | ⟨q, m, hq, hm, rfl⟩
      · exact hk.program x (inputNames_subset x hx).1
      · exact hk.uniforms h hh n hn hstorage
      · exact hk.computed q (hread q hq) (hw.ne_sink_of_reads hq) m hm
    · exact .inr ⟨l, List.mem_singleton_self l, htarget⟩

/-- The statements of some nodes read what is known, if they stand in the order of their
    dependence. -/
theorem Knows.computes (hp : Proceeds net here seen lines seen') (hk : net.Knows here seen known) :
    InScope known lines ∧ net.Knows here seen' (known ∪ targets lines) := by
  induction hp generalizing known with
  | nil =>
    refine ⟨trivial, ?_⟩
    simpa [targets_nil] using hk
  | cons hh _ hread hs _ ih =>
    obtain ⟨hscope, hk'⟩ := hk.statement hw hhere hh hread hs
    obtain ⟨hscope', hk''⟩ := ih hk'
    rw [inScope_append, targets_append, ← Set.union_assoc]
    exact ⟨⟨hscope, hscope'⟩, hk''⟩

end WellFormed

end Network

/-! ### The lines of the sink -/

/-- The line sets the variable of a node, not one that the programs declare for the sink. -/
def Line.setsNode (l : Line) : Bool := l.target?.any fun x => x ∉ Network.outputNames

/-- The line belongs to the sink: it reads what the programs declare, and neither sets the variable
    of a node nor declares one. -/
structure Line.OfSink (l : Line) : Prop where
  reads : ∀ x ∈ l.reads, x ∈ programNames
  setsNode : l.setsNode = false
  declares : l.declares? = none

theorem ofSink_noInput : Line.noInput.OfSink := ⟨nofun, rfl, rfl⟩

theorem ofSink_compositeLine : compositeLine.OfSink where
  reads := by decide +kernel
  setsNode := by decide +kernel
  declares := rfl

theorem ofSink_decoding (slot : Slot) : ∀ l ∈ Network.decoding slot, l.OfSink := by
  intro l hl
  unfold Network.decoding at hl
  split at hl
  · simp only [normalDecode, List.mem_cons, List.not_mem_nil, or_false] at hl
    rcases hl with rfl | rfl
    · exact ⟨by decide +kernel, by decide +kernel, rfl⟩
    · exact ⟨by decide +kernel, by decide +kernel, rfl⟩
  · cases hl

theorem setsNode_assign_target (slot : Slot) (value : Expr) :
    (Line.assign slot.target value).setsNode = false := by
  simp [Line.setsNode, Line.target?, Network.target_mem_outputNames slot]

/-- Of the lines of the sink, none sets the variable of a node. -/
theorem filter_setsNode_of_ofSink {lines : List Line} (h : ∀ l ∈ lines, l.OfSink) :
    lines.filter Line.setsNode = [] :=
  List.filter_eq_nil_iff.2 fun l hl => by simp [(h l hl).setsNode]

/-- The lines of the sink read what is known. -/
theorem inScope_of_ofSink {known : Set String} {lines : List Line} (h : ∀ l ∈ lines, l.OfSink)
    (hknown : ∀ x ∈ programNames, x ∈ known) : InScope known lines := by
  induction lines generalizing known with
  | nil => trivial
  | cons l rest ih =>
    obtain ⟨hl, hrest⟩ := List.forall_mem_cons.1 h
    exact ⟨fun x hx => hknown x (hl.reads x hx), ih hrest fun x hx => .inl (hknown x hx)⟩

namespace Network

variable {net : Network} {here seen : Set Handle} {known : Set String} {out : List Handle}
  {lines : List Line}

theorem ofSink_announcement (slot : Slot) : ∀ l ∈ net.announcement slot, l.OfSink := by
  intro l hl
  unfold announcement at hl
  split at hl
  · obtain rfl := List.mem_singleton.1 hl
    exact ⟨nofun, rfl, rfl⟩
  · cases hl

/-! ### The lines of a plan -/

variable (hw : net.WellFormed)
include hw

/-- The statement of a node sets no variable of the sink. -/
theorem Computes.setsNode (h : Computes net out lines) (hne : ∀ x ∈ out, x ≠ net.sink) :
    lines.filter Line.setsNode = lines := by
  refine List.filter_eq_self.2 fun l hl => ?_
  obtain ⟨x, hx, events, hs⟩ := h.exists_of_mem l hl
  obtain ⟨n, hn, htarget, -⟩ := reads_of_statementOf hw (hne x hx) hs
  have hfree := Node.free_variableName (hw.check x n hn (hne x hx))
  have hno : n.variableName ∉ outputNames := fun hout =>
    hfree.not_mem_programNames (outputNames_subset _ hout)
  simp [Line.setsNode, htarget, hno]

variable {sink : Node} {steps : List Step}

/-- Among the lines of a plan, those that set variables of nodes are the statements of what the
    slots need, in the order of one visit; only they declare a variable. -/
theorem Written.computes (h : Written net sink seen steps lines) (hseen : net.sink ∈ seen) :
    (∃ out, Visits net seen (slotProducers sink (steps.filterMap Step.slot?)) out
      ∧ Computes net out (lines.filter Line.setsNode))
      ∧ ∀ l ∈ lines, l.setsNode = false → l.declares? = none := by
  induction h with
  | nil => exact ⟨⟨[], .nil, .nil⟩, nofun⟩
  | composite _ ih =>
    obtain ⟨hout, hdeclares⟩ := ih hseen
    refine ⟨?_, List.forall_mem_cons.2 ⟨fun _ => rfl, hdeclares⟩⟩
    rwa [List.filter_cons_of_neg (by simp [ofSink_compositeLine.setsNode])]
  | @unfed seen slot rest lines hl _ ih =>
    obtain ⟨⟨out, hvisits, hcomputes⟩, hdeclares⟩ := ih hseen
    refine ⟨⟨out, ?_, ?_⟩, List.forall_mem_append.2 ⟨fun l hl _ =>
      (ofSink_announcement slot l hl).declares, List.forall_mem_cons.2 ⟨fun _ => rfl, hdeclares⟩⟩⟩
    · rw [slots_cons, slotProducers_cons, slotProducers_of_unfed hl]
      exact hvisits
    · rw [List.filter_append, filter_setsNode_of_ofSink (ofSink_announcement slot),
        List.filter_cons_of_neg (by simp [ofSink_noInput.setsNode])]
      exact hcomputes
  | @fed seen slot rest link out body lines value hl hvisits hbody hvalue _ ih =>
    obtain ⟨⟨out', hvisits', hcomputes'⟩, hdeclares⟩ := ih (.inl hseen)
    -- The sink counts as seen, so it is not among what is computed for the slot.
    have hne := hvisits.ne_of_seen hseen
    have hkept := hbody.setsNode hw hne
    refine ⟨⟨out ++ out', ?_, ?_⟩, ?_⟩
    · rw [slots_cons, slotProducers_cons, slotProducers_of_fed hl]
      exact hvisits.append hvisits'
    · rw [List.filter_append, filter_setsNode_of_ofSink (ofSink_announcement slot),
        List.filter_append, hkept, List.filter_cons_of_neg
          (by simp [setsNode_assign_target slot value]),
        List.filter_append, filter_setsNode_of_ofSink (ofSink_decoding slot)]
      exact hbody.append hcomputes'
    · have hbody' : ∀ l ∈ body, l.setsNode = false → l.declares? = none := fun l hl hno =>
        absurd hno (Bool.ne_false_iff.2 (List.filter_eq_self.1 hkept l hl))
      refine List.forall_mem_append.2 ⟨fun l hl _ => (ofSink_announcement slot l hl).declares, ?_⟩
      refine List.forall_mem_append.2 ⟨hbody', List.forall_mem_cons.2 ⟨fun _ => rfl, ?_⟩⟩
      exact List.forall_mem_append.2
        ⟨fun l hl _ => (ofSink_decoding slot l hl).declares, hdeclares⟩

/-- The lines of a plan read what is known or what has been set before. -/
theorem Written.inScope (hsink : net.node? net.sink = some sink) (hacyclic : net.Acyclic)
    (hhere : ∀ x ∈ here, x ≠ net.sink) (h : Written net sink seen steps lines)
    (hk : net.Knows here seen known)
    (hfeeds : ∀ slot ∈ steps.filterMap Step.slot?, ∀ link, sink.link? slot.index = some link →
      ∀ x, net.DependsOn link.producer x → x ∈ here) : InScope known lines := by
  induction h generalizing known with
  | nil => trivial
  | composite _ ih =>
    refine ⟨fun x hx => hk.program x (ofSink_compositeLine.reads x hx), ?_⟩
    exact ih (hk.mono Set.subset_union_left) hfeeds
  | @unfed seen slot rest lines hl _ ih =>
    have hlater slot' (hslot' : slot' ∈ rest.filterMap Step.slot?) :=
      hfeeds slot' (List.mem_cons_of_mem _ hslot')
    refine inScope_append.2 ⟨inScope_of_ofSink (ofSink_announcement slot) hk.program, nofun, ?_⟩
    exact ih ((hk.mono Set.subset_union_left).mono Set.subset_union_left) hlater
  -- A fed slot has the lines of its producers first, then the assignment, then those that decode.
  | @fed seen slot rest link out body lines value hl hvisits hbody hvalue _ ih =>
    have hlater slot' (hslot' : slot' ∈ rest.filterMap Step.slot?) :=
      hfeeds slot' (List.mem_cons_of_mem _ hslot')
    have hreads := reads_of_link? hsink hl
    have hproceeds := hvisits.proceeds hw hacyclic hbody (hfeeds slot List.mem_cons_self link hl)
    obtain ⟨hscope, hk'⟩ := (hk.mono Set.subset_union_left).computes hw hhere hproceeds
    refine inScope_append.2 ⟨inScope_of_ofSink (ofSink_announcement slot) hk.program, ?_⟩
    refine inScope_append.2 ⟨hscope, fun x hx => ?_, inScope_append.2 ⟨?_, ?_⟩⟩
    · -- The producer has been computed for this slot or for one before it.
      obtain ⟨producer, hp, hnames⟩ := names_readLink hvalue
      rw [hnames x hx]
      exact hk'.computed _ (hvisits.covers _ (List.mem_singleton_self _))
        (hw.ne_sink_of_reads hreads) producer hp
    · exact inScope_of_ofSink (ofSink_decoding slot) fun x hx => .inl (hk'.program x hx)
    · exact ih ((hk'.mono Set.subset_union_left).mono Set.subset_union_left) hlater

end Network

end MaterialNet
