import MaterialNet.Proofs.Scoping

namespace MaterialNet

/-!
# What a stage emits

The nodes that a stage needs, the declarations that it collects and the statements that it writes
agree: each node is declared once, its variable is set at most once, and this comes before every
line that reads it.

* `Network.Scoped` — what the nodes, the declarations and the lines of a stage say about each other
* `Network.Arises.scoped` — they agree for every stage that is assembled
* `Network.sample_set_outside` — the name of a sample may be that of a node that no slot needs
-/

namespace Network

variable {net : Network} {here : Set Handle} {out : List Handle} {ds : List Declaration}
  {lines body : List Line} {stage : Stage}

/-! ### Names that occur once -/

/-- The declaration of a node has its storage and its name. -/
theorem Declared.exists_node {h : Handle} {d : Declaration} (hd : net.Declared h d) :
    ∃ n, net.node? h = some n ∧ d.storage = n.storage ∧ d.name = n.id := by
  obtain ⟨n, hn, hdecl⟩ := hd
  obtain ⟨type, -, rfl⟩ := Option.map_eq_some_iff.1 hdecl
  exact ⟨n, hn, rfl, rfl⟩

section Names

variable (hw : net.WellFormed) (hapart : net.NamesApart {x | x ∈ out})
  (hne : ∀ x ∈ out, x ≠ net.sink)
include hw

/-- No node has the name of a variable that the programs declare for the sink. -/
theorem id_not_mem_outputNames {h : Handle} {n : Node} (hn : net.node? h = some n) :
    n.id ∉ outputNames := by
  by_cases hsink : h = net.sink
  · obtain ⟨sink, hs, hface⟩ := hw.sink_live
    obtain rfl := Option.some.inj ((hsink ▸ hn).symm.trans hs)
    rw [hface.1]
    decide +kernel
  · have hfree := (Node.spelled_of_check (hw.check h n hn hsink)).1
    exact fun hout => hfree.not_mem_programNames (outputNames_subset _ hout)

/-- What is declared for nodes other than the sink has names of its own. -/
theorem free_of_declared (hd : List.Forall₂ net.Declared out ds) (hne : ∀ x ∈ out, x ≠ net.sink) :
    ∀ d ∈ ds, Free d.name := by
  intro d hmem
  obtain ⟨h, hh, hdecl⟩ := exists_of_forall₂_right hd hmem
  obtain ⟨n, hn, -, hname⟩ := hdecl.exists_node
  rw [hname]
  exact (Node.spelled_of_check (hw.check h n hn (hne h hh))).1

/-- Nodes that are declared once have one declaration each. -/
theorem nodup_declared (hd : List.Forall₂ net.Declared out ds) (hout : out.Nodup) :
    (ds.map Declaration.name).Nodup := by
  -- Node by node: two nodes with one name would be one node.
  induction hd with
  | nil => exact .nil
  | @cons h d rest ds hd hrest ih =>
    obtain ⟨hh, hout⟩ := List.nodup_cons.1 hout
    refine List.nodup_cons.2 ⟨fun hm => ?_, ih hout⟩
    obtain ⟨d', hd', heq⟩ := List.mem_map.1 hm
    obtain ⟨h', hh', hdecl'⟩ := exists_of_forall₂_right hrest hd'
    obtain ⟨n, hn, -, hid⟩ := hd.exists_node
    obtain ⟨n', hn', -, hid'⟩ := hdecl'.exists_node
    rw [hid, hid'] at heq
    exact hh (hw.handle_unique hn' hn heq ▸ hh')

include hapart hne

/-- Nodes that are computed once have their variables set once. -/
theorem Computes.nodup_targets (hc : Computes net out lines) (hout : out.Nodup) :
    (lines.filterMap Line.target?).Nodup := by
  -- The names are apart among all the nodes, also where only some are left to compute.
  suffices h : ∀ {rest : List Handle} {lines : List Line}, Computes net rest lines → rest.Nodup →
      (∀ x ∈ rest, x ∈ out) → (lines.filterMap Line.target?).Nodup from h hc hout fun _ => id
  intro rest lines hc
  induction hc with
  | nil => exact fun _ _ => .nil
  | @cons y line? events rest lines hs hrest ih =>
    intro hnodup hsub
    obtain ⟨hy, hnodup⟩ := List.nodup_cons.1 hnodup
    have hnodup' := ih hnodup fun x hx => hsub x (List.mem_cons_of_mem _ hx)
    cases line? with
    | none => exact hnodup'
    | some l =>
      have hyout := hsub y List.mem_cons_self
      obtain ⟨n, hn, htarget, -⟩ := reads_of_statementOf hw (hne y hyout) hs
      rw [Option.toList_some, List.singleton_append, List.filterMap_cons_some htarget]
      refine List.nodup_cons.2 ⟨fun hm => ?_, hnodup'⟩
      obtain ⟨l', hl', htarget'⟩ := List.mem_filterMap.1 hm
      obtain ⟨z, hz, events', hs'⟩ := hrest.exists_of_mem l' hl'
      have hzout := hsub z (List.mem_cons_of_mem _ hz)
      obtain ⟨m, hm', htarget'', -⟩ := reads_of_statementOf hw (hne z hzout) hs'
      have hnames : m.variableName = n.variableName :=
        Option.some.inj (htarget''.symm.trans htarget')
      have hzy : z ≠ y := fun he => hy (he ▸ hz)
      exact not_namesApart hw hzout hyout hzy hm' hn (.inr hnames) (.inr rfl) hapart

/-- A variable that a statement declares has no declaration. -/
theorem declares_not_mem_declared (hd : List.Forall₂ net.Declared out ds)
    (hc : Computes net out lines) {l : Line} (hl : l ∈ lines) {x : String}
    (hx : l.declares? = some x) : x ∉ ds.map Declaration.name := by
  intro hm
  obtain ⟨d, hmem, rfl⟩ := List.mem_map.1 hm
  obtain ⟨z, hz, m, hm', hdecl⟩ := exists_of_forall₂_right hd hmem
  obtain ⟨type, -, rfl⟩ := Option.map_eq_some_iff.1 hdecl
  obtain ⟨y, hy, events, hs⟩ := hc.exists_of_mem l hl
  obtain ⟨n, hn, -, -, hdeclares, -⟩ := reads_of_statementOf hw (hne y hy) hs
  -- Only a texture defines a variable, and the name of a sample is apart from all ids.
  rw [hdeclares] at hx
  split at hx
  · rename_i htexture
    exact (hapart.eq_of_id_eq hw hz hy hm' hn (Option.some.inj hx).symm).2 htexture
  · cases hx

end Names

/-! ### Nodes, declarations and lines -/

/-- What is known when a program with the given declarations begins. -/
def knownFrom (ds : List Declaration) : Set String :=
  {x | x ∈ programNames ∨ ∃ d ∈ ds, d.storage = .uniform ∧ d.name = x}

/-- What has been declared is known to the lines, besides what every program has. -/
theorem knows_of_declared (hd : List.Forall₂ net.Declared out ds) :
    net.Knows {x | x ∈ out} {net.sink} (knownFrom ds) where
  program x hx := .inl hx
  uniforms h hh n hn hs := by
    obtain ⟨d, hmem, hdecl⟩ := exists_of_forall₂_left hd hh
    obtain ⟨n', hn', hstorage, hname⟩ := hdecl.exists_node
    obtain rfl := Option.some.inj (hn.symm.trans hn')
    exact .inr ⟨d, hmem, hstorage.trans hs, hname⟩
  computed h hh hne := absurd hh hne

/-- Only a constant that is a uniform has no statement. -/
theorem statementOf_eq_none_iff {h : Handle} {n : Node} (hn : net.node? h = some n)
    (hsink : n.isSink = false) {line? : Option Line} {events : List Event}
    (hs : net.statementOf h = .ok (line?, events)) :
    (∃ events, net.statementOf h = .ok (none, events))
      ↔ n.storage = .uniform ∧ ∃ value, n.kind = .constant value := by
  obtain ⟨n', inputs, hn', hstatement, -⟩ := statementOf_eq_ok hs
  obtain rfl := Option.some.inj (hn.symm.trans hn')
  rw [hs]
  constructor
  · rintro ⟨events', h⟩
    obtain ⟨rfl, rfl⟩ := Prod.mk.inj (Except.ok.inj h)
    obtain ⟨value, hk, hstorage⟩ :=
      Node.uniform_of_statement (congrArg Prod.fst hstatement).symm hsink
    exact ⟨hstorage, value, hk⟩
  · rintro ⟨hstorage, value, hk⟩
    refine ⟨[], ?_⟩
    rw [hstatement]
    simp [Node.statement, hk, hstorage]

section Body

variable (hw : net.WellFormed) (hapart : net.NamesApart {x | x ∈ out})
  (hne : ∀ x ∈ out, x ≠ net.sink) (hd : List.Forall₂ net.Declared out ds)
  (hc : Computes net out (body.filter Line.setsNode))
include hw hne hc

/-- A line that sets a variable either is the statement of a node or sets a variable of the sink. -/
theorem target_cases {l : Line} (hl : l ∈ body) {x : String} (hx : l.target? = some x) :
    (∃ t ∈ out, ∃ n, net.node? t = some n ∧ x = n.variableName) ∨ x ∈ outputNames := by
  by_cases hsets : l.setsNode = true
  · obtain ⟨t, ht, events, hs⟩ := hc.exists_of_mem l (List.mem_filter.2 ⟨hl, hsets⟩)
    obtain ⟨n, hn, htarget, -⟩ := reads_of_statementOf hw (hne t ht) hs
    exact .inl ⟨t, ht, n, hn, Option.some.inj (hx.symm.trans htarget)⟩
  · simp only [Line.setsNode, hx, Option.any_some, decide_not, Bool.not_eq_true',
      decide_eq_false_iff_not, not_not] at hsets
    exact .inr hsets

include hd

/-- The name of a node that the stage does not need is not declared, and it is set only where it is
    that of a sample. -/
theorem outside_of_computes {h : Handle} {n : Node} (hn : net.node? h = some n) (hh : h ∉ out) :
    (∀ d ∈ ds, d.name ≠ n.id)
      ∧ ∀ l ∈ body, l.target? = some n.id → ∃ t ∈ out, ∃ texture, net.node? t = some texture
        ∧ texture.kind = .texture ∧ n.id = texture.id ++ "_sample" := by
  refine ⟨fun d hmem hname => ?_, fun l hl hx => ?_⟩
  · obtain ⟨z, hz, hdecl⟩ := exists_of_forall₂_right hd hmem
    obtain ⟨m, hm, -, hid⟩ := hdecl.exists_node
    exact hh (hw.handle_unique hm hn (hid.symm.trans hname) ▸ hz)
  · -- A line sets the variable of a node that is computed, or what the program gives out.
    rcases target_cases hw hne hc hl hx with ⟨t, ht, m, hm, hid⟩ | hout
    · by_cases htexture : m.kind = .texture
      · rw [Node.variableName_of_texture htexture] at hid
        exact ⟨t, ht, m, hm, htexture, hid⟩
      · rw [Node.variableName_of_ne_texture htexture] at hid
        exact absurd (hw.handle_unique hn hm hid ▸ ht) hh
    · exact absurd hout (id_not_mem_outputNames hw hn)

include hapart

/-- The statement of a node stands before every line that reads its variable: what is read is known
    by then, and nothing else sets the variable. -/
theorem before_reads_of_inScope (hout : out.Nodup) (hscope : InScope (knownFrom ds) body)
    {h : Handle} (hh : h ∈ out) {n : Node} (hn : net.node? h = some n) {l : Line}
    {events : List Event} (hs : net.statementOf h = .ok (some l, events)) :
    ∃ before after, body = before ++ l :: after
      ∧ ∀ l' ∈ before ++ [l], n.variableName ∉ l'.reads := by
  have hl := hc.mem_of_statementOf hh hs
  have hsets := (List.mem_filter.1 hl).2
  obtain ⟨n', hn', htarget, hown, -⟩ := reads_of_statementOf hw (hne h hh) hs
  obtain rfl := Option.some.inj (hn.symm.trans hn')
  obtain ⟨before, after, rfl⟩ := List.append_of_mem (List.mem_filter.1 hl).1
  refine ⟨before, after, rfl, fun l' hl' hread => ?_⟩
  obtain ⟨first, second, hsplit⟩ := List.append_of_mem hl'
  have hlines : before ++ l :: after = first ++ l' :: (second ++ after) := by
    rw [List.append_cons, hsplit, List.append_assoc, List.cons_append]
  rcases hscope.mem hlines _ hread with (hprogram | ⟨d, hmem, hstorage, hname⟩) | ⟨l'', hl'', hx⟩
  · exact (Node.free_variableName (hw.check h n hn (hne h hh))).not_mem_programNames hprogram
  · -- A uniform of that name would be the node itself, and it would have no statement.
    obtain ⟨z, hz, hdecl⟩ := exists_of_forall₂_right hd hmem
    obtain ⟨m, hm, hstorage', hid⟩ := hdecl.exists_node
    obtain ⟨rfl, htexture⟩ := hapart.eq_of_id_eq hw hz hh hm hn (hid.symm.trans hname)
    obtain rfl := Option.some.inj (hn.symm.trans hm)
    rw [← hstorage', hstorage] at hown
    exact htexture (hown.resolve_right nofun)
  · -- Another line before would set the variable a second time.
    have hbefore : l'' ∈ before := by
      have hprefix := congrArg List.dropLast hsplit
      rw [List.dropLast_concat, List.dropLast_append_of_ne_nil (by simp)] at hprefix
      exact hprefix ▸ List.mem_append_left _ hl''
    have hsets'' : l''.setsNode = true := by
      unfold Line.setsNode at hsets ⊢
      rwa [hx, ← htarget]
    have honce := hc.nodup_targets hw hapart hne hout
    rw [List.filter_append, List.filter_cons_of_pos hsets, List.filterMap_append,
      List.filterMap_cons_some htarget] at honce
    refine (List.nodup_append.1 honce).2.2 n.variableName ?_ n.variableName
      List.mem_cons_self rfl
    exact List.mem_filterMap.2 ⟨l'', List.mem_filter.2 ⟨hbefore, hsets''⟩, hx⟩

/-- Every variable that is declared is declared once, in front of the body or in it. -/
theorem nodup_declares (hout : out.Nodup)
    (hdeclares : ∀ l ∈ body, l.setsNode = false → l.declares? = none) :
    (ds.map Declaration.name ++ body.filterMap Line.declares?).Nodup := by
  have hbody : body.filterMap Line.declares?
      = (body.filter Line.setsNode).filterMap Line.declares? := by
    rw [List.filterMap_filter]
    refine List.filterMap_congr fun l hl => ?_
    split
    · rfl
    · exact hdeclares l hl (Bool.eq_false_iff.2 ‹_›)
  -- What a line declares it sets, too.
  have hsub (lines : List Line) : (lines.filterMap Line.declares?).Sublist
      (lines.filterMap Line.target?) := by
    have heq : lines.filterMap Line.declares?
        = (lines.filter fun l => l.declares?.isSome).filterMap Line.target? := by
      rw [List.filterMap_filter]
      refine List.filterMap_congr fun l _ => ?_
      cases l <;> rfl
    rw [heq]
    exact List.filter_sublist.filterMap _
  refine List.nodup_append.2 ⟨nodup_declared hw hd hout, ?_, ?_⟩
  · rw [hbody]
    exact (hc.nodup_targets hw hapart hne hout).sublist (hsub _)
  · rintro x hx _ hx' rfl
    rw [hbody] at hx'
    obtain ⟨l, hl, hdecl⟩ := List.mem_filterMap.1 hx'
    exact declares_not_mem_declared hw hapart hne hd hc hl hdecl hx

end Body

/-- The walks that find the nodes of a stage, declare them and write their statements list the same
    nodes in the same order. -/
theorem walks_agree (hw : net.WellFormed) (hfits : net.Fits) {s s' : Session}
    (htrusts : Session.TrustsAcyclic net s)
    (hwrite : (Session.writeStage net stage).Gives s body s') :
    ∃ sink out, net.node? net.sink = some sink ∧ net.Acyclic ∧ net.reachable stage = .ok out
      ∧ Visits net ∅ (slotProducers sink stage.slots) out
      ∧ List.Forall₂ net.Declared out s'.declarations.toList
      ∧ Computes net out (body.filter Line.setsNode)
      ∧ net.NamesApart {x | x ∈ out}
      ∧ Written net sink {net.sink} (plan stage) body := by
  obtain ⟨hacyclic, sink, out, hsink, hvisits, howned, -, hwritten⟩ :=
    Session.writeStage_gives hw hfits htrusts hwrite
  obtain ⟨sink', declared, hsink', hvisits', hdeclared, -⟩ :=
    Session.writeStage_collects hw hfits hwrite
  -- Declaring and writing visit the same slots, so both list the same nodes in one order.
  obtain rfl := Option.some.inj (hsink.symm.trans hsink')
  obtain rfl := hvisits.unique hvisits'
  obtain ⟨⟨stated, hstated, hstatements⟩, -⟩ := hwritten.computes hw rfl
  obtain rfl := (hw.visits_unique hsink hstated hvisits).symm
  exact ⟨sink, out, hsink, hacyclic, (hw.reachable_eq_ok_iff hsink).2 ⟨hacyclic, hvisits⟩, hvisits,
    hdeclared, hstatements, howned.namesApart, hwritten⟩

/-- What the nodes of a stage, its declarations and its body lines say about each other. -/
structure Scoped (net : Network) (stage : Stage) (out : List Handle) (ds : List Declaration)
    (body : List Line) : Prop where
  /-- The nodes are those that the slots of the stage depend on. -/
  mem_iff : ∀ h, h ∈ out ↔ net.FeedsStage stage h
  nodup : out.Nodup
  /-- Each node comes after all that it reads. -/
  ordered : ∀ before h after, out = before ++ h :: after → ∀ p, net.Reads h p → p ∈ before
  /-- The declarations are those of the nodes, in order. -/
  declared : List.Forall₂ net.Declared out ds
  /-- The lines that set variables of nodes are the statements of the nodes, in order. -/
  statements : net.Computes out (body.filter Line.setsNode)
  /-- Only constants that are uniforms have no statement. -/
  silent : ∀ h ∈ out, ∀ n, net.node? h = some n →
    ((∃ events, net.statementOf h = .ok (none, events))
      ↔ n.storage = .uniform ∧ ∃ value, n.kind = .constant value)
  /-- A statement stands before every line that reads what it sets. -/
  before_reads : ∀ h ∈ out, ∀ n l events, net.node? h = some n →
    net.statementOf h = .ok (some l, events) → ∃ before after, body = before ++ l :: after
      ∧ ∀ l' ∈ before ++ [l], n.variableName ∉ l'.reads
  /-- What a line reads is declared by the programs themselves, a declared uniform, or set by a line
      before. -/
  inScope : ∀ before l after, body = before ++ l :: after → ∀ x ∈ l.reads, x ∈ programNames
    ∨ (∃ d ∈ ds, d.storage = .uniform ∧ d.name = x) ∨ ∃ l' ∈ before, l'.target? = some x
  /-- The programs themselves declare no variable of a node. -/
  free : ∀ h n, net.node? h = some n → h ≠ net.sink →
    n.id ∉ programNames ∧ n.variableName ∉ programNames
  declared_once : (ds.map Declaration.name ++ body.filterMap Line.declares?).Nodup
  set_once : ((body.filter Line.setsNode).filterMap Line.target?).Nodup
  /-- The name of another node is not declared, and it is set only where it is that of a sample. -/
  outside : ∀ h n, net.node? h = some n → h ∉ out → (∀ d ∈ ds, d.name ≠ n.id)
    ∧ ∀ l ∈ body, l.target? = some n.id → ∃ t ∈ out, ∃ texture, net.node? t = some texture
      ∧ texture.kind = .texture ∧ n.id = texture.id ++ "_sample"

/-- The declarations of a stage are those of the nodes that it needs, and its body lines read what
    has been declared or set before. -/
theorem Arises.scoped (h : net.Arises) (requests : List Request) {text : String} {s' : Session}
    (hg : (Session.assemble net stage).Gives (Session.after net requests) text s') :
    ∃ out body, net.reachable stage = .ok out
      ∧ (Session.writeStage net stage).Gives (Session.after net requests) body s'
      ∧ renderStage stage net.settings.version (s'.declarations.toList.map Declaration.text)
        (body.map Line.text) = .ok text
      ∧ net.Scoped stage out s'.declarations.toList body := by
  have hw := h.wellFormed
  obtain ⟨body, hwrite, hrender⟩ := Session.assemble_gives hg
  obtain ⟨sink, out, hsink, hacyclic, hreachable, hvisits, hdeclared, hstatements, hapart,
    hwritten⟩ :=
    walks_agree hw h.fits ((Session.served_after net requests).trustsAcyclic hw) hwrite
  have hdeclares := (hwritten.computes hw rfl).2
  refine ⟨out, body, hreachable, hwrite, hrender, ?_⟩
  have hout := hw.mem_visits hsink hvisits
  have hne := hw.ne_sink_of_mem_visits hsink hvisits
  have hfeeds := hw.mem_visits_of_link? hsink hvisits
  have hscope := hwritten.inScope hw hsink hacyclic hne (knows_of_declared hdeclared) hfeeds
  exact {
    mem_iff := hout
    nodup := hvisits.nodup.1
    ordered := fun before x after heq p hp =>
      (hvisits.ordered hw hacyclic before x after heq p hp).resolve_left (Set.notMem_empty p)
    declared := hdeclared
    statements := hstatements
    silent := fun x hx n hn => by
      obtain ⟨line?, events, hs⟩ := hstatements.exists_statementOf x hx
      refine statementOf_eq_none_iff hn ?_ hs
      rw [Bool.eq_false_iff, ne_eq, hw.isSink_iff hn]
      exact hne x hx
    before_reads := fun x hx n l events hn hs =>
      before_reads_of_inScope hw hapart hne hdeclared hstatements hvisits.nodup.1 hscope hx hn hs
    inScope := fun before l after heq x hx => by
      rcases hscope.mem heq x hx with (hprogram | hdeclared) | hset
      · exact .inl hprogram
      · exact .inr (.inl hdeclared)
      · exact .inr (.inr hset)
    free := fun x n hn hx =>
      ⟨(Node.spelled_of_check (hw.check x n hn hx)).1.not_mem_programNames,
        (Node.free_variableName (hw.check x n hn hx)).not_mem_programNames⟩
    declared_once := nodup_declares hw hapart hne hdeclared hstatements hvisits.nodup.1 hdeclares
    set_once := hstatements.nodup_targets hw hapart hne hvisits.nodup.1
    outside := fun x n hn hx => outside_of_computes hw hne hdeclared hstatements hn hx }

/-! ### A name from outside the stage -/

/-- A texture that feeds a slot, and a constant with the name of its sample that feeds none. -/
def unusedSample : Network :=
  (new {}).run
    [.add ⟨"wood", .uniform, .texture, []⟩,
      .add ⟨"wood_sample", .inMain, .constant (.float .one), []⟩,
      .connectSlot .albedo ⟨2, 1⟩ .rgb]

/-- Only the texture feeds a slot. -/
theorem feedsStage_unusedSample {h : Handle} (hh : unusedSample.FeedsStage stage h) :
    h = ⟨2, 1⟩ := by
  have hlinks : ((unusedSample.node? unusedSample.sink).all fun sink =>
      sink.links.all fun l => l.producer = ⟨2, 1⟩) = true := by decide +kernel
  have hleaf : ((unusedSample.node? ⟨2, 1⟩).all fun n => n.links.isEmpty) = true := by
    decide +kernel
  obtain ⟨slot, -, sink, link, hsink, hl, hd⟩ := hh
  have hproducer := List.all_eq_true.1 ((Option.all_eq_true _ _).1 hlinks sink hsink) link
    (Node.link?_eq_some hl).1
  rw [of_decide_eq_true hproducer] at hd
  rcases hd.cases_head with rfl | ⟨p, ⟨n, hn, l, hl, -⟩, -⟩
  · rfl
  · rw [List.isEmpty_iff.1 ((Option.all_eq_true _ _).1 hleaf n hn)] at hl
    cases hl

/-- The fragment program of a network is assembled although a node that it does not use has the name
    of a sample. -/
theorem assemble_unusedSample : unusedSample.Arises
    ∧ ∃ text s, (Session.assemble unusedSample .fragment).Gives .fresh text s := by
  have h : unusedSample.Arises := (Arises.new {}).run (by decide +kernel)
  have hranked : unusedSample.ranked (fun x => if x.place = 1 then 1 else 0) = true := by
    decide +kernel
  have hlinks : (unusedSample.handlesInOrder.all fun x => (unusedSample.node? x).all fun n =>
      n.links.all (unusedSample.converts n)) = true := by decide +kernel
  have hcompilable : unusedSample.Compilable [.fragment] := by
    refine h.wellFormed.compilable_of_namesApart (acyclic_of_ranked hranked) ?_ ?_
      (by decide +kernel)
    · intro x hx n hn l hl
      have hn' := (Option.all_eq_true _ _).1 (List.all_eq_true.1 hlinks x hx) n hn
      exact List.all_eq_true.1 hn' l hl
    · -- A stage has one node at most.
      intro stage _ x hx y hy hne
      exact absurd ((feedsStage_unusedSample hx).trans (feedsStage_unusedSample hy).symm) hne
  exact ⟨h, hcompilable.exists_assemble h.wellFormed h.fits⟩

/-- Its lines are in order, and the name of the unused node is set by a line of the texture. -/
theorem scoped_unusedSample : unusedSample.Arises
    ∧ ∃ text s, (Session.assemble unusedSample .fragment).Gives
        (Session.after unusedSample []) text s
      ∧ ∃ out body, unusedSample.reachable .fragment = .ok out
        ∧ (Session.writeStage unusedSample .fragment).Gives (Session.after unusedSample []) body s
        ∧ renderStage .fragment unusedSample.settings.version
          (s.declarations.toList.map Declaration.text) (body.map Line.text) = .ok text
        ∧ unusedSample.Scoped .fragment out s.declarations.toList body := by
  obtain ⟨h, text, s, hg⟩ := assemble_unusedSample
  exact ⟨h, text, s, hg, h.scoped [] hg⟩

/-- A line of a stage may set a variable with the name of a node that the stage does not need: the
    sample of a texture takes the name. -/
theorem sample_set_outside : unusedSample.Arises
    ∧ ∃ text s out body, (Session.assemble unusedSample .fragment).Gives .fresh text s
      ∧ unusedSample.reachable .fragment = .ok out
      ∧ (Session.writeStage unusedSample .fragment).Gives .fresh body s
      ∧ ∃ h n, h ∉ out ∧ unusedSample.node? h = some n ∧ ∃ l ∈ body, l.target? = some n.id := by
  obtain ⟨h, text, s, hg⟩ := assemble_unusedSample
  have hw := h.wellFormed
  obtain ⟨body, hwrite, -⟩ := Session.assemble_gives hg
  obtain ⟨sink, out, hsink, -, hreachable, hvisits, -, hstatements, -⟩ :=
    walks_agree hw h.fits (Session.Served.fresh.trustsAcyclic hw) hwrite
  have hout := hw.mem_visits hsink hvisits
  refine ⟨h, text, s, out, body, hg, hreachable, hwrite, ⟨3, 1⟩, ?_⟩
  -- The texture feeds the slot, and the constant does not.
  have hunneeded : (⟨3, 1⟩ : Handle) ∉ out := fun hx =>
    absurd (feedsStage_unusedSample ((hout _).1 hx)) (by decide)
  have hneeded : (⟨2, 1⟩ : Handle) ∈ out := by
    have hslot : ((unusedSample.node? unusedSample.sink).bind fun sink =>
        sink.link? Slot.albedo.index).any (fun l => l.producer = ⟨2, 1⟩) = true := by
      decide +kernel
    obtain ⟨link, hlink, hproducer⟩ := (Option.any_eq_true _ _).1 hslot
    obtain ⟨sink, hsink, hl⟩ := Option.bind_eq_some_iff.1 hlink
    refine (hout _).2 ⟨.albedo, by decide, sink, link, hsink, hl, ?_⟩
    rw [of_decide_eq_true hproducer]
    exact .refl
  have htexture : (unusedSample.node? ⟨2, 1⟩).any (fun n => n.id = "wood" ∧ n.kind = .texture)
      = true := by decide +kernel
  have hconstant : (unusedSample.node? ⟨3, 1⟩).map Node.id = some "wood_sample" := by
    decide +kernel
  obtain ⟨m, hm, hid⟩ := Option.map_eq_some_iff.1 hconstant
  obtain ⟨n, hn, hwood⟩ := (Option.any_eq_true _ _).1 htexture
  obtain ⟨hname, hkind⟩ := of_decide_eq_true hwood
  refine ⟨m, hunneeded, hm, ?_⟩
  -- The texture has a statement, which sets its sample.
  have hsink : n.isSink = false := by simp [Node.isSink, hkind]
  obtain ⟨line?, events, hs⟩ := hstatements.exists_statementOf _ hneeded
  cases line? with
  | none =>
    obtain ⟨-, value, hk⟩ := (statementOf_eq_none_iff hn hsink hs).1 ⟨events, hs⟩
    rw [hkind] at hk
    cases hk
  | some l =>
    have hne : (⟨2, 1⟩ : Handle) ≠ unusedSample.sink := by decide +kernel
    obtain ⟨n', hn', htarget, -⟩ := reads_of_statementOf hw hne hs
    obtain rfl := Option.some.inj (hn.symm.trans hn')
    refine ⟨l, (List.mem_filter.1 (hstatements.mem_of_statementOf hneeded hs)).1, ?_⟩
    rw [htarget, hid, Node.variableName_of_texture hkind, hname]
    rfl

end Network

end MaterialNet
