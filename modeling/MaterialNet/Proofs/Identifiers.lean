import MaterialNet.Proofs.Hygiene

namespace MaterialNet

/-!
# Names of the shader language

A node is added under a name that the shader language accepts.  The variable of a sampled colour
gets its name later, from the node's name, and is not looked at again: it has two underscores in a
row if the node's name ends in one, and it starts like the language's own names if the node is
called `gl`.

* `spoilsSample` — the names of which the name of the sample is malformed
* `checkIdentifier_sample` — whether the name of a sample is accepted
* `Network.Identified`, `Network.Arises.identified` — the names that a program declares
* `Network.malformed_sample_declared` — a program that declares malformed names
-/

/-! ### The name of a sample -/

/-- The name of the sample of a texture with this name is malformed. -/
def spoilsSample (id : String) : Bool := id = "gl" || id.toList.getLast? = some '_'

/-- A name is well formed if it is a word and neither begins nor goes on as the language forbids. -/
theorem isWellFormed_iff {name : String} :
    isWellFormed name = true ↔ isWord name = true
      ∧ languageStart.isPrefixOf name.toList = false ∧ hasDoubleUnderscore name.toList = false := by
  unfold isWellFormed isWord
  cases name.toList with
  | nil => simp
  | cons c cs => simp [and_assoc]

/-- Two underscores in a row stand in one of two texts, or the first text ends in the one and the
    second begins with the other. -/
theorem hasDoubleUnderscore_append (cs rest : List Char) :
    hasDoubleUnderscore (cs ++ '_' :: rest)
      = (hasDoubleUnderscore cs || cs.getLast? = some '_'
        || hasDoubleUnderscore ('_' :: rest)) := by
  -- By the recursion of the search: it has met two underscores, goes on to the next character, or
  -- is at the end.
  fun_induction hasDoubleUnderscore cs with
  | case1 cs => simp [hasDoubleUnderscore]
  | case2 c cs hne ih =>
    cases cs with
    | nil =>
      by_cases hc : c = '_'
      · simp [hc, hasDoubleUnderscore]
      · simp [hc, hasDoubleUnderscore]
    | cons d cs =>
      rw [List.cons_append, hasDoubleUnderscore, ih, List.getLast?_cons_cons]
      rintro rest' rfl hrest
      obtain ⟨rfl, -⟩ := List.cons.inj hrest
      exact hne _ rfl rfl
  | case3 => simp

/-- Of two texts, the first one starts like the language's own names, or it ends within such a
    start. -/
theorem languageStart_append (cs rest : List Char) :
    languageStart.isPrefixOf (cs ++ '_' :: rest)
      = (languageStart.isPrefixOf cs || cs = ['g', 'l']) := by
  match cs with
  | [] => simp [languageStart, List.isPrefixOf]
  | [a] => simp [languageStart, List.isPrefixOf]
  | [a, b] =>
    rw [Bool.eq_iff_iff]
    simp [languageStart, List.isPrefixOf, @eq_comm _ a, @eq_comm _ b]
  | a :: b :: c :: cs => simp [languageStart, List.isPrefixOf]

/-- Of the name of a sample, only the place is unsound where the two parts meet. -/
theorem isWellFormed_sample {id : String} (h : isWellFormed id = true) :
    isWellFormed (id ++ "_sample") = !spoilsSample id := by
  obtain ⟨hword, hstart, hdouble⟩ := isWellFormed_iff.1 h
  -- Both parts are sound, so what is reserved can only come about where they meet.
  have hsample : "_sample".toList = '_' :: "sample".toList := by decide +kernel
  have hrest : hasDoubleUnderscore ('_' :: "sample".toList) = false := by decide +kernel
  have hgl : id.toList = ['g', 'l'] ↔ id = "gl" := by
    rw [← String.toList_inj]
    rfl
  rw [Bool.eq_iff_iff, isWellFormed_iff, String.toList_append, hsample, languageStart_append,
    hasDoubleUnderscore_append, hstart, hdouble, hrest]
  simp [spoilsSample, isWord_sample hword, hgl]

/-- The name of the sample of a texture whose name is accepted is accepted, too, unless it is
    malformed where its two parts meet. -/
theorem checkIdentifier_sample {id : String} (h : checkIdentifier id = .ok ()) :
    checkIdentifier (id ++ "_sample")
      = if spoilsSample id then .error (.malformedName (id ++ "_sample")) else .ok () := by
  have hwell : isWellFormed id = true := by
    unfold checkIdentifier at h
    split at h
    · cases h
    · rename_i hwell
      rwa [Bool.not_eq_true, Bool.not_eq_false'] at hwell
  unfold checkIdentifier
  rw [isWellFormed_sample hwell, isTaken_sample, Bool.not_not]
  cases spoilsSample id <;> rfl

/-- A sound node has passed the check of its name. -/
theorem Node.checkIdentifier_of_check {n : Node} (h : n.check = .ok ()) :
    checkIdentifier n.id = .ok () := by
  obtain ⟨_, hid, -⟩ := bind_ok_iff.1 h
  exact hid

namespace Network

variable {net : Network} {stage : Stage} {out : List Handle} {ds : List Declaration}
  {body : List Line}

/-! ### The names that a program declares -/

section Declared

variable (hw : net.WellFormed) (hne : ∀ x ∈ out, x ≠ net.sink)
  (hd : List.Forall₂ net.Declared out ds) (hc : Computes net out (body.filter Line.setsNode))
  (hdeclares : ∀ l ∈ body, l.setsNode = false → l.declares? = none)
include hw hne hc

/-- The statement of a texture declares the name of its sample. -/
theorem declares_of_texture {h : Handle} (hh : h ∈ out) {n : Node} (hn : net.node? h = some n)
    (hk : n.kind = .texture) : n.variableName ∈ body.filterMap Line.declares? := by
  have hsink : n.isSink = false := by simp [Node.isSink, hk]
  obtain ⟨line?, events, hs⟩ := hc.exists_statementOf h hh
  -- A texture always has a statement, and it defines the variable of the sample.
  cases line? with
  | none =>
    obtain ⟨-, value, hconstant⟩ := (statementOf_eq_none_iff hn hsink hs).1 ⟨events, hs⟩
    rw [hk] at hconstant
    cases hconstant
  | some l =>
    obtain ⟨m, hm, -, -, hdecl, -⟩ := reads_of_statementOf hw (hne h hh) hs
    obtain rfl := Option.some.inj (hn.symm.trans hm)
    refine List.mem_filterMap.2
      ⟨l, (List.mem_filter.1 (hc.mem_of_statementOf hh hs)).1, ?_⟩
    rw [hdecl, if_pos hk]

include hd hdeclares

/-- A program declares, in front of its body and in it, exactly the names that its nodes bring
    in. -/
theorem mem_declared_iff {x : String} :
    x ∈ ds.map Declaration.name ++ body.filterMap Line.declares? ↔ x ∈ net.introduced out := by
  rw [List.mem_append, List.mem_map, mem_introduced]
  constructor
  · rintro (⟨d, hmem, rfl⟩ | hx)
    · obtain ⟨h, hh, hdecl⟩ := exists_of_forall₂_right hd hmem
      obtain ⟨n, hn, -, hname⟩ := hdecl.exists_node
      exact ⟨h, hh, n, hn, .inl hname.symm⟩
    · obtain ⟨l, hl, hdecl⟩ := List.mem_filterMap.1 hx
      have hsets : l.setsNode = true := by
        by_contra hno
        rw [hdeclares l hl (Bool.eq_false_iff.2 hno)] at hdecl
        cases hdecl
      obtain ⟨h, hh, events, hs⟩ := hc.exists_of_mem l (List.mem_filter.2 ⟨hl, hsets⟩)
      obtain ⟨n, hn, -, -, hdecl', -⟩ := reads_of_statementOf hw (hne h hh) hs
      rw [hdecl'] at hdecl
      split at hdecl
      · exact ⟨h, hh, n, hn, .inr (Option.some.inj hdecl)⟩
      · cases hdecl
  · rintro ⟨h, hh, n, hn, hx⟩
    obtain ⟨d, hmem, hdecl⟩ := exists_of_forall₂_left hd hh
    obtain ⟨n', hn', -, hname⟩ := hdecl.exists_node
    obtain rfl := Option.some.inj (hn.symm.trans hn')
    -- A texture takes two names, of which one is declared and the other defined by its line.
    by_cases hk : n.kind = .texture
    · rcases hx with rfl | rfl
      · exact .inl ⟨d, hmem, hname⟩
      · exact .inr (declares_of_texture hw hne hc hh hn hk)
    · have hx : n.id = x := by
        rcases hx with hx | hx
        · exact hx
        · exact (Node.variableName_of_ne_texture hk).symm.trans hx
      exact .inl ⟨d, hmem, hname.trans hx⟩

end Declared

/-- The names that a program declares for its nodes: each is accepted, but for that of the sample of
    a texture whose own name spoils it. -/
structure Identified (net : Network) (out : List Handle) (ds : List Declaration)
    (body : List Line) : Prop where
  mem_iff : ∀ x, x ∈ ds.map Declaration.name ++ body.filterMap Line.declares?
    ↔ x ∈ net.introduced out
  own : ∀ h ∈ out, ∀ n, net.node? h = some n → checkIdentifier n.id = .ok ()
  sample : ∀ h ∈ out, ∀ n, net.node? h = some n → n.kind = .texture →
    checkIdentifier (n.id ++ "_sample")
      = if spoilsSample n.id then .error (.malformedName (n.id ++ "_sample")) else .ok ()

/-- The names that a program declares are known from the nodes that it was written for. -/
theorem identified_of_writeStage (hw : net.WellFormed) (hfits : net.Fits) {s s' : Session}
    (htrusts : Session.TrustsAcyclic net s)
    (hwrite : (Session.writeStage net stage).Gives s body s') :
    ∃ out, net.reachable stage = .ok out ∧ (∀ h, h ∈ out ↔ net.FeedsStage stage h)
      ∧ net.Identified out s'.declarations.toList body := by
  obtain ⟨sink, out, hsink, -, hreachable, hvisits, hdeclared, hstatements, -, hwritten⟩ :=
    walks_agree hw hfits htrusts hwrite
  have hne := hw.ne_sink_of_mem_visits hsink hvisits
  have hown {h : Handle} (hh : h ∈ out) {n : Node} (hn : net.node? h = some n) :
      checkIdentifier n.id = .ok () :=
    Node.checkIdentifier_of_check (hw.check h n hn (hne h hh))
  refine ⟨out, hreachable, hw.mem_visits hsink hvisits, ?_⟩
  exact {
    mem_iff := fun x =>
      mem_declared_iff hw hne hdeclared hstatements (hwritten.computes hw rfl).2
    own := fun h hh n hn => hown hh hn
    sample := fun h hh n hn _ => checkIdentifier_sample (hown hh hn) }

/-- Whatever a stage is assembled from, its program declares the names that its nodes bring in, and
    they are accepted as far as they do not spoil the name of a sample. -/
theorem Arises.identified (h : net.Arises) (requests : List Request) {text : String} {s' : Session}
    (hg : (Session.assemble net stage).Gives (Session.after net requests) text s') :
    ∃ out body, net.reachable stage = .ok out
      ∧ (Session.writeStage net stage).Gives (Session.after net requests) body s'
      ∧ renderStage stage net.settings.version (s'.declarations.toList.map Declaration.text)
        (body.map Line.text) = .ok text
      ∧ net.Identified out s'.declarations.toList body := by
  have hw := h.wellFormed
  obtain ⟨body, hwrite, hrender⟩ := Session.assemble_gives hg
  obtain ⟨out, hreachable, -, hidentified⟩ := identified_of_writeStage hw h.fits
    ((Session.served_after net requests).trustsAcyclic hw) hwrite
  exact ⟨out, body, hreachable, hwrite, hrender, hidentified⟩

/-- Which names pass the check is decided also where the name of a sample is the name of a node. -/
theorem identified_unusedSample : unusedSample.Arises
    ∧ ∃ text s, (Session.assemble unusedSample .fragment).Gives
        (Session.after unusedSample []) text s
      ∧ ∃ out body, unusedSample.reachable .fragment = .ok out
        ∧ (Session.writeStage unusedSample .fragment).Gives (Session.after unusedSample []) body s
        ∧ renderStage .fragment unusedSample.settings.version
          (s.declarations.toList.map Declaration.text) (body.map Line.text) = .ok text
        ∧ unusedSample.Identified out s.declarations.toList body := by
  obtain ⟨h, text, s, hg⟩ := assemble_unusedSample
  exact ⟨h, text, s, hg, h.identified [] hg⟩

/-! ### Malformed names -/

/-- Two textures that feed a slot each, with names that are accepted and spoil those of their
    samples. -/
def spoiledSamples : Network :=
  (new {}).run
    [.add ⟨"wood_", .uniform, .texture, []⟩,
      .add ⟨"gl", .uniform, .texture, []⟩,
      .connectSlot .albedo ⟨2, 1⟩ .rgb,
      .connectSlot .normal ⟨3, 1⟩ .rgb]

/-- A program is assembled for the textures, and it declares two malformed names. -/
theorem malformed_sample_declared : spoiledSamples.Arises
    ∧ ∃ text s body, (Session.assemble spoiledSamples .fragment).Gives .fresh text s
      ∧ (Session.writeStage spoiledSamples .fragment).Gives .fresh body s
      ∧ renderStage .fragment spoiledSamples.settings.version
        (s.declarations.toList.map Declaration.text) (body.map Line.text) = .ok text
      ∧ ∀ x ∈ ["wood__sample", "gl_sample"],
        x ∈ s.declarations.toList.map Declaration.name ++ body.filterMap Line.declares?
          ∧ checkIdentifier x = .error (.malformedName x) := by
  have h : spoiledSamples.Arises := (Arises.new {}).run (by decide +kernel)
  have hw := h.wellFormed
  have hranked : spoiledSamples.ranked (fun x => if x.place = 1 then 1 else 0) = true := by
    decide +kernel
  have hcompilable : spoiledSamples.Compilable [.fragment] :=
    hw.compilable (acyclic_of_ranked hranked) (by decide +kernel) _
  obtain ⟨text, s, hg⟩ := hcompilable.exists_assemble hw h.fits
  obtain ⟨body, hwrite, hrender⟩ := Session.assemble_gives hg
  obtain ⟨out, -, hout, hidentified⟩ :=
    identified_of_writeStage hw h.fits (Session.Served.fresh.trustsAcyclic hw) hwrite
  refine ⟨h, text, s, body, hg, hwrite, hrender, fun x hx => ?_⟩
  have hmalformed : ∀ x ∈ ["wood__sample", "gl_sample"],
      checkIdentifier x = .error (.malformedName x) := by
    decide +kernel
  -- Each texture feeds a slot and brings in the name of its sample.
  have htextures : (["wood__sample", "gl_sample"].all fun x =>
      Stage.fragment.slots.any fun slot =>
        [(⟨2, 1⟩ : Handle), ⟨3, 1⟩].any fun h => spoiledSamples.fills slot h
          && (spoiledSamples.node? h).any fun n => n.introduces.contains x) = true := by
    decide +kernel
  have hx' := List.all_eq_true.1 htextures x hx
  obtain ⟨slot, hslot, hx'⟩ := List.any_eq_true.1 hx'
  obtain ⟨y, -, hx'⟩ := List.any_eq_true.1 hx'
  obtain ⟨hfills, hname⟩ := Bool.and_eq_true_iff.1 hx'
  obtain ⟨n, hn, hname⟩ := (Option.any_eq_true _ _).1 hname
  have hy : y ∈ out := (hout y).2 (feedsStage_of_fills hslot hfills)
  have hintroduced : x ∈ spoiledSamples.introduced out :=
    mem_introduced.2 ⟨y, hy, n, hn, Node.mem_introduces.1 (List.contains_iff_mem.1 hname)⟩
  exact ⟨(hidentified.mem_iff x).2 hintroduced, hmalformed x hx⟩

end Network

end MaterialNet
