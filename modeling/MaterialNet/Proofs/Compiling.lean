import Mathlib.Data.Set.Card
import MaterialNet.Proofs.Acyclic
import MaterialNet.Proofs.Declaring
import MaterialNet.Proofs.Rendering
import MaterialNet.Proofs.Writing
import MaterialNet.Session.Program

namespace MaterialNet

/-!
# When a network compiles

A stage is refused for a cycle, for two variables with one name, for a texture without a unit or
for a link without a promotion, and for nothing else.

* `Session.writeStage_gives`, `writeStage_fails` — the outcomes of writing one stage
* `Network.Compilable` — the conditions for some stages to compile
* `Network.Arises.decided` — compiling succeeds exactly under these conditions
-/

namespace Session

open Network

variable {net : Network} {done : Finset Handle} {stage : Stage} {s s' : Session} {fault : Fault}

/-! ### One stage -/

/-- A search that ends well is remembered, and one that was remembered is not repeated. -/
theorem ensureAcyclic_gives (h : (ensureAcyclic net).Gives s () s') :
    s' = { s with acyclic := true } ∧ (s.acyclic = true ∨ net.checkAcyclic = .ok ()) := by
  unfold ensureAcyclic at h
  replace h := Action.gives_getState_bind.1 h
  -- The session may know already; otherwise the search has ended well.
  split at h
  · rename_i hs
    obtain ⟨-, rfl⟩ := Action.gives_pure.1 h
    exact ⟨by rw [← hs], .inl hs⟩
  · obtain ⟨_, hcheck, hset⟩ := Action.gives_lift_bind.1 h
    exact ⟨(Action.gives_setState.1 hset).symm, .inr hcheck⟩

/-- Only a search can fail, so the session did not know. -/
theorem ensureAcyclic_fails (h : (ensureAcyclic net).Fails s fault s') :
    s.acyclic = false ∧ net.checkAcyclic = .error fault := by
  unfold ensureAcyclic at h
  replace h := Action.fails_getState_bind.1 h
  split at h
  · exact absurd h Action.not_fails_pure
  · rename_i hs
    rcases Action.fails_lift_bind.1 h with ⟨hcheck, -⟩ | ⟨_, -, hset⟩
    · exact ⟨Bool.eq_false_iff.2 hs, hcheck⟩
    · exact absurd hset Action.not_fails_setState

/-- A session that counts a network as free of cycles is right about it. -/
def TrustsAcyclic (net : Network) (s : Session) : Prop := s.acyclic = true → net.Acyclic

/-- A new session counts no network as free of cycles. -/
theorem trustsAcyclic_fresh : TrustsAcyclic net .fresh := by
  intro h
  cases h

/-- A search for cycles lists no uniforms. -/
theorem listed_of_ensureAcyclic (h : (ensureAcyclic net).Gives s () s')
    (hl : net.Listed done s.manifest s.boundTextures) :
    net.Listed done s'.manifest s'.boundTextures := by
  rw [(ensureAcyclic_gives h).1]
  exact hl

section Stage

variable (hw : net.WellFormed)
include hw

/-- Where the session goes on, there is no cycle, whether it has searched or remembered. -/
theorem acyclic_of_ensureAcyclic (hs : TrustsAcyclic net s)
    (h : (ensureAcyclic net).Gives s () s') : net.Acyclic := by
  rcases (ensureAcyclic_gives h).2 with h | h
  · exact hs h
  · exact hw.checkAcyclic_eq_ok_iff.1 h

/-- The first request for the sink writes the plan of the stage, with the sink as the only node that
    counts as computed. -/
theorem evaluate_sink_gives {sink : Node} (hsink : net.node? net.sink = some sink)
    (hs : s.evaluated = .empty) {lines : List Line}
    (h : (evaluate net net.sink).Gives s lines s') :
    Written net sink {net.sink} (plan s.stage) lines
      ∧ ∃ evaluated, s' = { s with acyclic := true, evaluated } := by
  unfold evaluate at h
  obtain ⟨_, t, hensure, h⟩ := Action.gives_bind.1 h
  obtain ⟨rfl, -⟩ := ensureAcyclic_gives hensure
  obtain ⟨node, hget, h⟩ := Action.gives_lift_bind.1 h
  obtain rfl := Option.some.inj (hsink.symm.trans (get_eq_ok.1 hget))
  rw [if_pos ((hw.isSink_iff hsink).2 rfl)] at h
  replace h := Action.gives_getState_bind.1 h
  have hcontains : ¬ (Std.TreeSet.empty : Visited).contains net.sink = true := by simp
  simp only [hs, if_neg hcontains] at h
  replace h := Action.gives_setState_bind.1 h
  obtain ⟨hwritten, evaluated, rfl⟩ := planLines_gives h
  simp only [Visited.members_insert, Visited.members_empty, insert_empty_eq] at hwritten
  exact ⟨hwritten, evaluated, rfl⟩

/-- Writing the plan fails only at a link that cannot be promoted. -/
theorem evaluate_sink_fails {sink : Node} (hsink : net.node? net.sink = some sink)
    (hacyclic : s.acyclic = true) (h : (evaluate net net.sink).Fails s fault s') :
    Unconverted net sink s.stage.slots fault := by
  unfold evaluate at h
  rcases Action.fails_bind.1 h with hensure | ⟨_, t, hensure, h⟩
  · rw [(ensureAcyclic_fails hensure).1] at hacyclic
    cases hacyclic
  obtain ⟨rfl, -⟩ := ensureAcyclic_gives hensure
  rcases Action.fails_lift_bind.1 h with ⟨hget, -⟩ | ⟨node, hget, h⟩
  · rw [(get_eq_error.1 hget).1] at hsink
    cases hsink
  -- Neither the search nor the lookup of the sink can fail here.
  obtain rfl := Option.some.inj (hsink.symm.trans (get_eq_ok.1 hget))
  rw [if_pos ((hw.isSink_iff hsink).2 rfl)] at h
  replace h := Action.fails_getState_bind.1 h
  split at h
  · exact absurd h Action.not_fails_pure
  · exact planLines_fails hw hsink (Action.fails_setState_bind.1 h)

omit hw in
/-- A stage is entered with nothing declared. -/
theorem visits_of_enterStage {roots out : List Handle}
    (h : Visits net (enterStage s stage).declared.members roots out) :
    Visits net ∅ roots out := by
  have hempty : (enterStage s stage).declared = .empty := rfl
  rwa [hempty, Visited.members_empty] at h

variable (hfits : net.Fits)
include hfits

/-- A stage that is written has been declared as a whole, and its lines are those of its plan. -/
theorem writeStage_gives (hs : TrustsAcyclic net s) {body : List Line}
    (h : (writeStage net stage).Gives s body s') :
    net.Acyclic ∧ ∃ sink out, net.node? net.sink = some sink
      ∧ Visits net ∅ (slotProducers sink stage.slots) out
      ∧ net.Owned {x | x ∈ out} s'.owners
      ∧ (∀ done, net.Listed done s.manifest s.boundTextures →
        net.Listed (done ∪ out.toFinset) s'.manifest s'.boundTextures)
      ∧ Written net sink {net.sink} (plan stage) body := by
  unfold writeStage at h
  obtain ⟨_, s₁, hensure, h⟩ := Action.gives_bind.1 h
  have hacyclic := acyclic_of_ensureAcyclic hw hs hensure
  obtain ⟨rfl, -⟩ := ensureAcyclic_gives hensure
  replace h := Action.gives_modifyState_bind.1 h
  obtain ⟨sink, hget, h⟩ := Action.gives_lift_bind.1 h
  obtain ⟨_, s₂, hdeclare, h⟩ := Action.gives_bind.1 h
  obtain ⟨lines, s₃, hevaluate, h⟩ := Action.gives_bind.1 h
  replace h := Action.gives_getState_bind.1 h
  replace h := Action.gives_note_bind.1 h
  obtain ⟨rfl, rfl⟩ := Action.gives_pure.1 h
  have hsink := get_eq_ok.1 hget
  -- On entering the stage, no name is taken and no node declared or computed.
  obtain ⟨out, hd⟩ := declareSlots_gives hw hfits hsink owned_empty hdeclare
  have hr := hd.recorded
  unfold Recorded at hr
  have hempty : s₂.evaluated = .empty := by
    rw [hr]
    rfl
  have hstage : s₂.stage = stage := by
    rw [hr]
    rfl
  obtain ⟨hwritten, evaluated, rfl⟩ := evaluate_sink_gives hw hsink hempty hevaluate
  rw [hstage] at hwritten
  have howned := hd.owned
  rw [Set.empty_union] at howned
  have hvisits := visits_of_enterStage hd.visits
  exact ⟨hacyclic, sink, out, hsink, hvisits, howned, hd.listed, hwritten⟩

/-- The causes for which a stage is refused. -/
theorem writeStage_fails (hs : TrustsAcyclic net s)
    (hl : net.Listed done s.manifest s.boundTextures)
    (h : (writeStage net stage).Fails s fault s') :
    (∃ id, fault = .cyclic id) ∧ ¬ net.Acyclic
      ∨ net.Acyclic ∧ ∃ sink, net.node? net.sink = some sink
        ∧ ((∃ out, Visits net ∅ (slotProducers sink stage.slots) out
            ∧ Refusal net {x | x ∈ out} (done ∪ out.toFinset) fault)
          ∨ Unconverted net sink stage.slots fault) := by
  unfold writeStage at h
  rcases Action.fails_bind.1 h with hensure | ⟨_, s₁, hensure, h⟩
  · obtain ⟨p, node, -, rfl, hp⟩ := checkAcyclic_eq_error hw (ensureAcyclic_fails hensure).2
    exact .inl ⟨⟨_, rfl⟩, fun hacyclic => hacyclic p hp⟩
  have hacyclic := acyclic_of_ensureAcyclic hw hs hensure
  obtain ⟨rfl, -⟩ := ensureAcyclic_gives hensure
  refine .inr ⟨hacyclic, ?_⟩
  replace h := Action.fails_modifyState_bind.1 h
  rcases Action.fails_lift_bind.1 h with ⟨hget, -⟩ | ⟨sink, hget, h⟩
  · obtain ⟨sink, hsink, -⟩ := hw.sink_live
    rw [(get_eq_error.1 hget).1] at hsink
    cases hsink
  have hsink := get_eq_ok.1 hget
  refine ⟨sink, hsink, ?_⟩
  rcases Action.fails_bind.1 h with hdeclare | ⟨_, s₂, hdeclare, h⟩
  · have hledger : Ledger net ∅ done (enterStage { s with acyclic := true } stage) :=
      ⟨owned_empty, hl⟩
    obtain ⟨out, hvisits, hr⟩ := declareSlots_fails hw hfits hsink hledger hdeclare
    rw [Set.empty_union] at hr
    exact .inl ⟨out, visits_of_enterStage hvisits, hr⟩
  -- What is declared does not matter for writing, only that no cycle has to be searched for.
  obtain ⟨out, hd⟩ := declareSlots_gives hw hfits hsink owned_empty hdeclare
  have hr := hd.recorded
  unfold Recorded at hr
  have hstage : s₂.stage = stage := by
    rw [hr]
    rfl
  have htrue : s₂.acyclic = true := by
    rw [hr]
    rfl
  rcases Action.fails_bind.1 h with hevaluate | ⟨lines, s₃, hevaluate, h⟩
  · have hno := evaluate_sink_fails hw hsink htrue hevaluate
    rw [hstage] at hno
    exact .inr hno
  replace h := Action.fails_getState_bind.1 h
  replace h := Action.fails_note_bind.1 h
  exact absurd h Action.not_fails_pure

end Stage

end Session

/-! ### The conditions -/

namespace Network

variable {net : Network} {done : Finset Handle} {past stages : List Stage} {stage : Stage}

/-- The conditions for a stage to be written, apart from cycles and texture units. -/
structure Coherent (net : Network) (stage : Stage) : Prop where
  /-- No node that feeds the stage has the name of the sample of a texture that feeds it, too. -/
  names : net.NamesApart {h | net.FeedsStage stage h}
  /-- The links of the slots are covered by the promotion rules. -/
  slots : ∀ slot ∈ stage.slots, ∀ sink link, net.node? net.sink = some sink →
    sink.link? slot.index = some link → net.Converts sink link
  /-- The links of all nodes that feed the stage are covered. -/
  links : ∀ h, net.FeedsStage stage h → net.LinksConvert h

/-- The conditions for the given stages to compile. -/
structure Compilable (net : Network) (stages : List Stage) : Prop where
  /-- There is no cycle anywhere. -/
  acyclic : net.Acyclic
  coherent : ∀ stage ∈ stages, net.Coherent stage
  /-- There is a unit for each texture that feeds one of the stages. -/
  units : net.settings.textureUnitBase.toNat
    + {h | (∃ stage ∈ stages, net.FeedsStage stage h) ∧ net.isTexture h = true}.ncard ≤ 2 ^ 32

/-- The nodes of a set are those that feed one of the given stages. -/
def Supplies (net : Network) (done : Finset Handle) (stages : List Stage) : Prop :=
  ∀ h, h ∈ done ↔ ∃ stage ∈ stages, net.FeedsStage stage h

/-- The textures that need a unit are counted by the nodes that have been declared. -/
theorem Supplies.ncard (h : net.Supplies done stages) :
    {h | (∃ stage ∈ stages, net.FeedsStage stage h) ∧ net.isTexture h = true}.ncard
      = net.textures done := by
  have hset : {h | (∃ stage ∈ stages, net.FeedsStage stage h) ∧ net.isTexture h = true}
      = ↑(done.filter fun h => net.isTexture h = true) := by
    ext x
    simp only [Set.mem_ofPred_eq, Finset.coe_filter, h x]
  rw [hset, Set.ncard_coe_finset]
  rfl

/-- What feeds a stage is what a visit from its slots lists. -/
theorem WellFormed.mem_visits (hw : net.WellFormed) {sink : Node}
    (hs : net.node? net.sink = some sink) {out : List Handle}
    (h : Visits net ∅ (slotProducers sink stage.slots) out) (x : Handle) :
    x ∈ out ↔ net.FeedsStage stage x := by
  have hiff := h.mem_iff hw (by simp) (x := x)
  simp only [Set.mem_empty_iff_false, false_or] at hiff
  rw [hiff, feedsStage_iff hs]

/-- The same, as sets. -/
theorem WellFormed.setOf_mem_visits (hw : net.WellFormed) {sink : Node}
    (hs : net.node? net.sink = some sink) {out : List Handle}
    (h : Visits net ∅ (slotProducers sink stage.slots) out) :
    {x | x ∈ out} = {x | net.FeedsStage stage x} :=
  Set.ext (hw.mem_visits hs h)

/-- A visit from the slots does not come to the sink. -/
theorem WellFormed.ne_sink_of_mem_visits (hw : net.WellFormed) {sink : Node}
    (hs : net.node? net.sink = some sink) {out : List Handle}
    (h : Visits net ∅ (slotProducers sink stage.slots) out) : ∀ x ∈ out, x ≠ net.sink := by
  intro x hx
  have hfeeds := (hw.mem_visits hs h x).1 hx
  exact ((hw.mem_order x).1 (hw.mem_order_of_feedsStage hfeeds)).1

/-- All that a slot depends on is visited. -/
theorem WellFormed.mem_visits_of_link? (hw : net.WellFormed) {sink : Node}
    (hs : net.node? net.sink = some sink) {out : List Handle}
    (h : Visits net ∅ (slotProducers sink stage.slots) out) :
    ∀ slot ∈ stage.slots, ∀ link, sink.link? slot.index = some link →
      ∀ x, net.DependsOn link.producer x → x ∈ out := by
  intro slot hslot link hl x hd
  exact (hw.mem_visits hs h x).2 ⟨slot, hslot, sink, link, hs, hl, hd⟩

/-- Whether the sink counts as seen makes no difference to a visit, since no slot depends on it. -/
theorem WellFormed.visits_unique (hw : net.WellFormed) {sink : Node}
    (hs : net.node? net.sink = some sink) {slots : List Slot} {out out' : List Handle}
    (h : Visits net {net.sink} (slotProducers sink slots) out)
    (h' : Visits net ∅ (slotProducers sink slots) out') : out = out' := by
  refine (h.congr hw fun p hp x hx => ?_).unique h'
  have hne : x ≠ net.sink := by
    rintro rfl
    exact hw.not_dependsOn_sink (hw.mem_order_of_slotProducers hs p hp) hx
  simp [hne]

/-- What one more stage declares is what feeds it. -/
theorem Supplies.cons (h : net.Supplies done past) {out : List Handle}
    (hout : ∀ x, x ∈ out ↔ net.FeedsStage stage x) :
    net.Supplies (done ∪ out.toFinset) (stage :: past) := by
  intro x
  simp only [Finset.mem_union, List.mem_toFinset, h x, hout x, List.mem_cons, exists_eq_or_imp]
  exact or_comm

/-- Fewer stages compile where more do. -/
theorem Compilable.mono {stages' : List Stage} (h : net.Compilable stages') (hw : net.WellFormed)
    (hsub : ∀ stage ∈ stages, stage ∈ stages') : net.Compilable stages where
  acyclic := h.acyclic
  coherent stage hstage := h.coherent stage (hsub stage hstage)
  -- Fewer stages need fewer textures.
  units := by
    have hfinite : {h | (∃ stage ∈ stages', net.FeedsStage stage h)
        ∧ net.isTexture h = true}.Finite := by
      refine net.order.toList.finite_toSet.subset ?_
      rintro x ⟨⟨stage, -, hx⟩, -⟩
      exact hw.mem_order_of_feedsStage hx
    refine le_trans (Nat.add_le_add_left (Set.ncard_le_ncard ?_ hfinite) _) h.units
    rintro x ⟨⟨stage, hstage, hx⟩, htexture⟩
    exact ⟨⟨stage, hsub stage hstage, hx⟩, htexture⟩

/-! ### Conditions that can be checked -/

/-- Whether a link is covered by the promotion rules. -/
def converts (net : Network) (consumer : Node) (l : Link) : Bool :=
  match net.node? l.producer, consumer.inputType? l.input with
  | some producer, some required =>
    match producer.facetType l.facet with
    | .ok produced => promotable produced required
    | .error _ => false
  | _, _ => false

/-- The check of a link is sound. -/
theorem converts_of_converts {consumer : Node} {l : Link} (h : net.converts consumer l = true) :
    net.Converts consumer l := by
  unfold converts at h
  split at h
  · rename_i producer required hp hrequired
    split at h
    · exact ⟨producer, _, required, hp, ‹_›, hrequired, h⟩
    · cases h
  · cases h

/-- Whether all links of a network are covered, no node has the name of the sample of a texture,
    and there is a unit for every node. -/
def harmless (net : Network) : Bool :=
  net.handlesInOrder.all (fun h =>
    match net.node? h with
    | some n => n.links.all (net.converts n)
      && (n.kind ≠ .texture || (net.find? (n.id ++ "_sample")).isNone)
    | none => true)
  && net.settings.textureUnitBase.toNat + net.size ≤ 2 ^ 32

/-- A network without cycles whose links are all covered compiles, if the nodes of each stage have
    names apart and there is a unit for every node. -/
theorem WellFormed.compilable_of_namesApart (hw : net.WellFormed) (hacyclic : net.Acyclic)
    (hlinks : ∀ x ∈ net.handlesInOrder, ∀ n, net.node? x = some n →
      ∀ l ∈ n.links, net.converts n l = true)
    (hapart : ∀ stage ∈ stages, net.NamesApart {h | net.FeedsStage stage h})
    (hunits : net.settings.textureUnitBase.toNat + net.size ≤ 2 ^ 32) :
    net.Compilable stages := by
  have hfed {stage : Stage} {x : Handle} (hx : net.FeedsStage stage x) : x ∈ net.handlesInOrder :=
    List.mem_append_left _ (hw.mem_order_of_feedsStage hx)
  refine ⟨hacyclic, fun stage hstage => ⟨hapart stage hstage, ?_, ?_⟩, ?_⟩
  · intro slot _ sink link hs hl
    have hsink : net.sink ∈ net.handlesInOrder :=
      List.mem_append_right _ (List.mem_singleton_self _)
    exact converts_of_converts (hlinks _ hsink sink hs link (Node.link?_eq_some hl).1)
  · intro x hx n hn l hl
    exact converts_of_converts (hlinks x (hfed hx) n hn l hl)
  · -- There are no more textures than nodes.
    refine le_trans (Nat.add_le_add_left ?_ _) hunits
    have hsub : {x | (∃ stage ∈ stages, net.FeedsStage stage x) ∧ net.isTexture x = true}
        ⊆ ↑net.order.toList.toFinset := by
      rintro x ⟨⟨stage, -, hx⟩, -⟩
      exact List.mem_toFinset.2 (hw.mem_order_of_feedsStage hx)
    refine (Set.ncard_le_ncard hsub (Finset.finite_toSet _)).trans ?_
    rw [Set.ncard_coe_finset]
    exact List.toFinset_card_le _

/-- A harmless network without cycles compiles. -/
theorem WellFormed.compilable (hw : net.WellFormed) (hacyclic : net.Acyclic)
    (h : net.harmless = true) (stages : List Stage) : net.Compilable stages := by
  simp only [harmless, Bool.and_eq_true, List.all_eq_true, decide_eq_true_eq] at h
  obtain ⟨hnodes, hunits⟩ := h
  have hall {x : Handle} (hx : x ∈ net.handlesInOrder) {n : Node} (hn : net.node? x = some n) :
      (∀ l ∈ n.links, net.converts n l = true)
        ∧ (n.kind = .texture → net.find? (n.id ++ "_sample") = none) := by
    have hx := hnodes x hx
    rw [hn] at hx
    simpa [imp_iff_not_or] using hx
  refine hw.compilable_of_namesApart hacyclic (fun x hx n hn => (hall hx hn).1) ?_ hunits
  -- A node with the name of the sample would be found under this name.
  intro stage _ x hx x' _ _ n n' hn hn' hk hname
  have hnone := (hall (List.mem_append_left _ (hw.mem_order_of_feedsStage hx)) hn).2 hk
  rw [← hname, (hw.find?_iff _ _).2 ⟨n', hn', rfl⟩] at hnone
  cases hnone

end Network

namespace Session

open Network

variable {net : Network} {done : Finset Handle} {past : List Stage} {stage : Stage}
  {s s' : Session} {fault : Fault}

/-! ### One program -/

/-- The causes, apart from cycles, for which a program is refused. -/
inductive Incoherence : Fault → Prop where
  | name (id : String) : Incoherence (.duplicateName id)
  | promotion (consumer : String) (produced required : ValueType) :
      Incoherence (.noPromotion consumer produced required)
  | unit (id : String) : Incoherence (.noTextureUnit id)

/-- A program is its stage's template around what has been written. -/
theorem assemble_gives {text : String} (h : (assemble net stage).Gives s text s') :
    ∃ body, (writeStage net stage).Gives s body s'
      ∧ renderStage stage net.settings.version (s'.declarations.toList.map Declaration.text)
        (body.map Line.text) = .ok text := by
  unfold assemble at h
  obtain ⟨body, t, hbody, h⟩ := Action.gives_bind.1 h
  replace h := Action.gives_getState_bind.1 h
  split at h
  · rename_i text' hrender
    obtain ⟨rfl, rfl⟩ := Action.gives_pure.1 h
    exact ⟨body, hbody, hrender⟩
  · cases (Action.gives_lift.1 h).1

/-- Since rendering does not fail, a program is refused only where its stage is. -/
theorem assemble_fails (h : (assemble net stage).Fails s fault s') :
    (writeStage net stage).Fails s fault s' := by
  unfold assemble at h
  rcases Action.fails_bind.1 h with h | ⟨body, t, -, h⟩
  · exact h
  replace h := Action.fails_getState_bind.1 h
  obtain ⟨text, hr⟩ := exists_renderStage stage net.settings.version
    (t.declarations.toList.map Declaration.text) (body.map Line.text)
  rw [hr] at h
  exact absurd h Action.not_fails_pure

/-! ### Both programs -/

/-- A network is compiled by a search for cycles and by assembling both stages. -/
theorem compile_gives {program : Program} (h : (compile net).Gives s program s') :
    ∃ s₁ s₂, (ensureAcyclic net).Gives s () s₁ ∧ (assemble net .vertex).Gives s₁ program.vertex s₂
      ∧ (assemble net .fragment).Gives s₂ program.fragment s' ∧ program.manifest = s'.manifest := by
  unfold compile at h
  obtain ⟨_, s₁, hensure, h⟩ := Action.gives_bind.1 h
  obtain ⟨vertex, s₂, hvertex, h⟩ := Action.gives_bind.1 h
  obtain ⟨fragment, s₃, hfragment, h⟩ := Action.gives_bind.1 h
  replace h := Action.gives_getState_bind.1 h
  replace h := Action.gives_note_bind.1 h
  obtain ⟨rfl, rfl⟩ := Action.gives_pure.1 h
  exact ⟨s₁, s₂, hensure, hvertex, hfragment, rfl⟩

/-- Compiling fails where one of these steps fails. -/
theorem compile_fails (h : (compile net).Fails s fault s') :
    (ensureAcyclic net).Fails s fault s'
      ∨ ∃ s₁, (ensureAcyclic net).Gives s () s₁ ∧ ((assemble net .vertex).Fails s₁ fault s'
        ∨ ∃ vertex s₂, (assemble net .vertex).Gives s₁ vertex s₂
          ∧ (assemble net .fragment).Fails s₂ fault s') := by
  unfold compile at h
  rcases Action.fails_bind.1 h with hensure | ⟨_, s₁, hensure, h⟩
  · exact .inl hensure
  rcases Action.fails_bind.1 h with hvertex | ⟨vertex, s₂, hvertex, h⟩
  · exact .inr ⟨s₁, hensure, .inl hvertex⟩
  rcases Action.fails_bind.1 h with hfragment | ⟨fragment, s₃, -, h⟩
  · exact .inr ⟨s₁, hensure, .inr ⟨vertex, s₂, hvertex, hfragment⟩⟩
  · replace h := Action.fails_getState_bind.1 h
    exact absurd (Action.fails_note_bind.1 h) Action.not_fails_pure

/-! ### Coherent stages -/

section Stage

variable (hw : net.WellFormed) (hfits : net.Fits)
include hw hfits

/-- Where a stage is written, it is coherent, and there is a unit for each texture so far. -/
theorem coherent_of_writeStage (hs : TrustsAcyclic net s)
    (hl : net.Listed done s.manifest s.boundTextures) (hdone : net.Supplies done past)
    {body : List Line} (h : (writeStage net stage).Gives s body s') :
    net.Acyclic ∧ net.Coherent stage ∧ TrustsAcyclic net s'
      ∧ ∃ done', net.Supplies done' (stage :: past)
        ∧ net.Listed done' s'.manifest s'.boundTextures := by
  obtain ⟨hacyclic, sink, out, hsink, hvisits, howned, hlisted, hwritten⟩ :=
    writeStage_gives hw hfits hs h
  have hout := hw.mem_visits hsink hvisits
  obtain ⟨⟨out', hvisits', hlinks⟩, hslots⟩ := hwritten.converts hw hsink
  obtain rfl := hw.visits_unique hsink hvisits' hvisits
  refine ⟨hacyclic, ⟨?_, fun slot hslot sink' link hsink' hl => ?_, fun x hx => ?_⟩,
    fun _ => hacyclic, _, hdone.cons hout, hlisted done hl⟩
  · rw [← hw.setOf_mem_visits hsink hvisits]
    exact howned.namesApart
  · obtain rfl := Option.some.inj (hsink.symm.trans hsink')
    exact hslots slot hslot link hl
  · exact hlinks x ((hout x).2 hx)

/-- A stage without a cycle that is refused is not coherent, or there are not enough units. -/
theorem incoherent_of_writeStage (hs : TrustsAcyclic net s)
    (hl : net.Listed done s.manifest s.boundTextures) (hdone : net.Supplies done past)
    (h : (writeStage net stage).Fails s fault s') :
    (∃ id, fault = .cyclic id) ∧ ¬ net.Acyclic
      ∨ net.Acyclic ∧ Incoherence fault ∧ ¬ net.Compilable (stage :: past) := by
  rcases writeStage_fails hw hfits hs hl h with h | ⟨hacyclic, sink, hsink, h⟩
  · exact .inl h
  refine .inr ⟨hacyclic, ?_⟩
  -- A name or a unit was missing when nodes were declared, or a link could not be promoted when
  -- they were written.
  rcases h with ⟨out, hvisits, hr⟩ | ⟨⟨consumer, produced, required, rfl⟩, hno⟩
  · rcases hr with ⟨⟨name, rfl⟩, hclash⟩ | ⟨⟨name, rfl⟩, hunits⟩
    · refine ⟨.name name, fun hc => hclash ?_⟩
      rw [hw.setOf_mem_visits hsink hvisits]
      exact (hc.coherent stage List.mem_cons_self).names
    · refine ⟨.unit name, fun hc => ?_⟩
      have hle := hc.units
      rw [(hdone.cons (hw.mem_visits hsink hvisits)).ncard] at hle
      exact absurd hunits (Nat.not_lt.2 hle)
  · refine ⟨.promotion consumer produced required, fun hc => ?_⟩
    have hcoherent := hc.coherent stage List.mem_cons_self
    rcases hno with ⟨slot, hslot, link, hlink, hno⟩ | ⟨p, hp, x, hd, hno⟩
    · exact hno (hcoherent.slots slot hslot sink link hsink hlink)
    · exact hno (hcoherent.links x ((feedsStage_iff hsink).2 ⟨p, hp, hd⟩))

end Stage

end Session

/-! ### Compiling -/

namespace Network

/-- How assembling the given stages ends: in success exactly if they are compilable, otherwise with
    a fault that names a cycle exactly if there is one. -/
structure Decided {α : Type} (net : Network) (stages : List Stage) (r : Except Fault α) : Prop where
  ok_iff : (∃ a, r = .ok a) ↔ net.Compilable stages
  cyclic_iff : (∃ id, r = .error (.cyclic id)) ↔ ¬ net.Acyclic
  fault : ∀ fault, r = .error fault → (∃ id, fault = .cyclic id) ∨ Session.Incoherence fault

variable {net : Network} {stages : List Stage} {stage : Stage}

/-- The two ways to end exclude each other, so it is enough to say what each of them shows. -/
theorem Decided.intro {α : Type} {r : Except Fault α} (hok : ∀ a, r = .ok a → net.Compilable stages)
    (herror : ∀ fault, r = .error fault → (∃ id, fault = .cyclic id) ∧ ¬ net.Acyclic
      ∨ net.Acyclic ∧ Session.Incoherence fault ∧ ¬ net.Compilable stages) :
    net.Decided stages r := by
  -- A cycle makes the network fail with a fault that names one; any other fault shows that there is
  -- none.
  cases r with
  | ok a =>
    have hc := hok a rfl
    refine ⟨⟨fun _ => hc, fun _ => ⟨a, rfl⟩⟩, ?_, ?_⟩
    · simp [hc.acyclic]
    · simp
  | error fault =>
    rcases herror fault rfl with ⟨⟨id, rfl⟩, hcycle⟩ | ⟨hacyclic, hi, hno⟩
    · refine ⟨⟨?_, fun hc => absurd hc.acyclic hcycle⟩, ⟨fun _ => hcycle, fun _ => ⟨id, rfl⟩⟩, ?_⟩
      · rintro ⟨a, ha⟩
        cases ha
      · rintro _ h
        cases h
        exact .inl ⟨id, rfl⟩
    · refine ⟨⟨?_, fun hc => absurd hc hno⟩, ⟨?_, fun hcycle => absurd hacyclic hcycle⟩, ?_⟩
      · rintro ⟨a, ha⟩
        cases ha
      · rintro ⟨id, h⟩
        cases h
        cases hi
      · rintro _ h
        cases h
        exact .inr hi

/-- No stage needs no node. -/
theorem supplies_empty : net.Supplies ∅ [] := by
  intro x
  simp

section Decided

variable (hw : net.WellFormed) (hfits : net.Fits)
include hw hfits

/-- A stage on its own starts with nothing listed. -/
theorem decided_assemble (stage : Stage) : net.Decided [stage] (net.assemble stage).result := by
  refine .intro (fun text h => ?_) fun fault h => ?_
  · have hg : (Session.assemble net stage).Gives .fresh text (net.assemble stage).state := ⟨h, rfl⟩
    obtain ⟨body, hwrite, -⟩ := Session.assemble_gives hg
    obtain ⟨hacyclic, hcoherent, -, done, hdone, hl⟩ :=
      Session.coherent_of_writeStage hw hfits Session.trustsAcyclic_fresh listed_empty
        supplies_empty hwrite
    refine ⟨hacyclic, by simpa using hcoherent, ?_⟩
    rw [hdone.ncard, ← hl.bound_eq]
    exact hl.units
  · have hf : (Session.assemble net stage).Fails .fresh fault (net.assemble stage).state :=
      ⟨h, rfl⟩
    exact Session.incoherent_of_writeStage hw hfits Session.trustsAcyclic_fresh listed_empty
      supplies_empty (Session.assemble_fails hf)

/-- Both stages use one manifest and one row of texture units. -/
theorem decided_compile : net.Decided [.vertex, .fragment] net.compile.result := by
  refine .intro (fun program h => ?_) fun fault h => ?_
  · -- The first stage begins with nothing listed, the second with what the first has listed.
    have hg : (Session.compile net).Gives .fresh program net.compile.state := ⟨h, rfl⟩
    obtain ⟨s₁, s₂, hensure, hvertex, hfragment, -⟩ := Session.compile_gives hg
    have hacyclic := Session.acyclic_of_ensureAcyclic hw Session.trustsAcyclic_fresh hensure
    have hl₁ := Session.listed_of_ensureAcyclic hensure listed_empty
    obtain ⟨body, hwrite, -⟩ := Session.assemble_gives hvertex
    obtain ⟨body', hwrite', -⟩ := Session.assemble_gives hfragment
    obtain ⟨-, hcoherent, hs₂, done, hdone, hl⟩ :=
      Session.coherent_of_writeStage hw hfits (fun _ => hacyclic) hl₁ supplies_empty hwrite
    obtain ⟨-, hcoherent', -, done', hdone', hl'⟩ :=
      Session.coherent_of_writeStage hw hfits hs₂ hl hdone hwrite'
    refine ⟨hacyclic, by simp [hcoherent, hcoherent'], ?_⟩
    have hsupplies : net.Supplies done' [.vertex, .fragment] := by
      intro x
      rw [hdone' x]
      simp [or_comm]
    rw [hsupplies.ncard, ← hl'.bound_eq]
    exact hl'.units
  · have hf : (Session.compile net).Fails .fresh fault net.compile.state := ⟨h, rfl⟩
    rcases Session.compile_fails hf with hensure | ⟨s₁, hensure, hf⟩
    · obtain ⟨p, node, -, rfl, hp⟩ :=
        checkAcyclic_eq_error hw (Session.ensureAcyclic_fails hensure).2
      exact .inl ⟨⟨_, rfl⟩, fun hacyclic => hacyclic p hp⟩
    have hacyclic := Session.acyclic_of_ensureAcyclic hw Session.trustsAcyclic_fresh hensure
    have hl₁ := Session.listed_of_ensureAcyclic hensure listed_empty
    -- Where one stage cannot be written, both together cannot.
    rcases hf with hvertex | ⟨vertex, s₂, hvertex, hfragment⟩
    · rcases Session.incoherent_of_writeStage hw hfits (fun _ => hacyclic) hl₁ supplies_empty
        (Session.assemble_fails hvertex) with h | ⟨-, hi, hno⟩
      · exact .inl h
      · exact .inr ⟨hacyclic, hi, fun hc => hno (hc.mono hw (by simp))⟩
    · obtain ⟨body, hwrite, -⟩ := Session.assemble_gives hvertex
      obtain ⟨-, -, hs₂, done, hdone, hl⟩ :=
        Session.coherent_of_writeStage hw hfits (fun _ => hacyclic) hl₁ supplies_empty hwrite
      rcases Session.incoherent_of_writeStage hw hfits hs₂ hl hdone
        (Session.assemble_fails hfragment) with h | ⟨-, hi, hno⟩
      · exact .inl h
      · exact .inr ⟨hacyclic, hi, fun hc => hno (hc.mono hw (by simp))⟩

/-- A stage for which the conditions hold is assembled. -/
theorem Compilable.exists_assemble (h : net.Compilable [stage]) :
    ∃ text s, (Session.assemble net stage).Gives .fresh text s := by
  obtain ⟨text, htext⟩ := (decided_assemble hw hfits stage).ok_iff.2 h
  exact ⟨text, _, htext, rfl⟩

end Decided

/-- Compiling a network and assembling one of its stages succeed exactly under the stated
    conditions, and are refused for no other cause. -/
theorem Arises.decided (h : net.Arises) :
    net.Decided [.vertex, .fragment] net.compile.result
      ∧ ∀ stage, net.Decided [stage] (net.assemble stage).result :=
  ⟨decided_compile h.wellFormed h.fits, decided_assemble h.wellFormed h.fits⟩

/-- A texture and a constant with the name of its sample, which both feed the fragment stage. -/
def sampleClash : Network :=
  (new {}).run
    [.add ⟨"wood", .uniform, .texture, []⟩,
      .add ⟨"wood_sample", .inMain, .constant (.float .one), []⟩,
      .connectSlot .albedo ⟨2, 1⟩ .rgb,
      .connectSlot .metallic ⟨3, 1⟩ .value]

/-- A name that a stage needs twice refuses both requests for it. -/
theorem decided_sampleClash : sampleClash.Arises
    ∧ sampleClash.Decided [.vertex, .fragment] sampleClash.compile.result
    ∧ ∀ stage, sampleClash.Decided [stage] (sampleClash.assemble stage).result := by
  have h : sampleClash.Arises := (Arises.new {}).run (by decide +kernel)
  exact ⟨h, h.decided⟩

end Network

end MaterialNet
