import MaterialNet.Proofs.Visits

namespace MaterialNet

/-!
# Networks with one live part

The live part of a network is its sink and everything that feeds a slot.  It is described without
handles: by the names of the nodes, what each of them is, and which facet of which named node each
of its inputs reads.

* `Portrait`, `Network.Shows` — what a network says about a name
* `Network.SameLivePart` — two networks that say the same
* `Network.Twins` — the nodes of the two networks with one name
* `Network.visits_twins` — visits of twins list twins
-/

/-- What a node is, and what its inputs read, by name. -/
structure Portrait where
  storage : Storage
  kind : NodeKind
  inputs : Nat → Option (String × Facet)

namespace Network

variable {net net' : Network} {h h' k k' : Handle} {n n' : Node}

/-- The name of the producer that an input reads, and the facet. -/
def inputByName (net : Network) (n : Node) (input : Nat) : Option (String × Facet) :=
  (n.link? input).bind fun l => (net.node? l.producer).map fun p => (p.id, l.facet)

/-- The sink and the nodes that feed one of its slots. -/
def InLivePart (net : Network) (h : Handle) : Prop := h = net.sink ∨ ∃ slot, net.Feeds slot h

/-- The live part has a node of the given name with the given portrait. -/
def Shows (net : Network) (id : String) (p : Portrait) : Prop :=
  ∃ h n, net.InLivePart h ∧ net.node? h = some n ∧ n.id = id
    ∧ p = ⟨n.storage, n.kind, net.inputByName n⟩

/-- The live parts of two networks agree by name. -/
def SameLivePart (net net' : Network) : Prop := ∀ id p, net.Shows id p ↔ net'.Shows id p

/-! ### The live part of one network -/

omit net net' in
/-- Every number of an input of the sink is the number of a slot. -/
theorem exists_slot_index {input : Nat} (h : input < Slot.count) :
    ∃ slot : Slot, slot.index = input := by
  match input, h with
  | 0, _ => exact ⟨.albedo, rfl⟩
  | 1, _ => exact ⟨.normal, rfl⟩
  | 2, _ => exact ⟨.metallic, rfl⟩
  | 3, _ => exact ⟨.roughness, rfl⟩
  | 4, _ => exact ⟨.ambientOcclusion, rfl⟩
  | 5, _ => exact ⟨.emissive, rfl⟩
  | 6, _ => exact ⟨.vertexOffset, rfl⟩
  | _ + 7, h => exact absurd h (Nat.not_lt.2 (Nat.le_add_left _ _))

section Live

variable (hw : net.WellFormed)
include hw

/-- What a node of the live part reads is in the live part. -/
theorem InLivePart.of_reads (hl : net.InLivePart h) (hr : net.Reads h k) : net.InLivePart k := by
  rcases hl with rfl | ⟨slot, sink, link, hs, hlink, hd⟩
  · obtain ⟨sink, hs, l, hl, rfl⟩ := hr
    have hkind : sink.kind = .sink := of_decide_eq_true ((hw.isSink_iff hs).2 rfl)
    have hinput := (hw.linkSound _ sink hs l hl).1
    rw [show sink.inputCount = Slot.count by simp [Node.inputCount, hkind]] at hinput
    obtain ⟨slot, hslot⟩ := exists_slot_index hinput
    refine .inr ⟨slot, sink, l, hs, ?_, .refl⟩
    exact (hw.linksSound _ sink hs).link?_eq_some_iff.2 ⟨hl, hslot.symm⟩
  · exact .inr ⟨slot, sink, link, hs, hlink, hd.tail hr⟩

/-- What is in the live part is live. -/
theorem InLivePart.isSome (hl : net.InLivePart h) : (net.node? h).isSome := by
  rcases hl with rfl | ⟨slot, sink, link, hs, hlink, hd⟩
  · obtain ⟨sink, hs, -⟩ := hw.sink_live
    simp [hs]
  · exact hw.isSome_of_dependsOn (hw.isSome_of_reads (reads_of_link? hs hlink)) hd

/-- An input that is fed shows the name of its producer. -/
theorem inputByName_of_link? (hn : net.node? h = some n) {input : Nat} {l : Link}
    (hl : n.link? input = some l) :
    ∃ p, net.node? l.producer = some p ∧ net.inputByName n input = some (p.id, l.facet) := by
  obtain ⟨-, p, -, hp, -⟩ := hw.linkSound h n hn l (Node.link?_eq_some hl).1
  exact ⟨p, hp, by simp [inputByName, hl, hp]⟩

omit hw in
/-- An input that is not fed shows nothing. -/
theorem inputByName_of_none {input : Nat} (hl : n.link? input = none) :
    net.inputByName n input = none := by
  simp [inputByName, hl]

end Live

/-! ### Twins -/

/-- Nodes of the two live parts with one name. -/
def Twins (net net' : Network) (h h' : Handle) : Prop :=
  net.InLivePart h ∧ net'.InLivePart h'
    ∧ ∃ n n', net.node? h = some n ∧ net'.node? h' = some n' ∧ n.id = n'.id

/-- Two nodes that are the same but for their handles and the order of their links. -/
structure SameNode (net net' : Network) (n n' : Node) : Prop where
  id : n.id = n'.id
  storage : n.storage = n'.storage
  kind : n.kind = n'.kind
  links : ∀ input, n.link? input = none ∧ n'.link? input = none
    ∨ ∃ l l', n.link? input = some l ∧ n'.link? input = some l' ∧ l.facet = l'.facet
      ∧ Twins net net' l.producer l'.producer

section Twins

variable (hw : net.WellFormed) (hw' : net'.WellFormed)
include hw hw'

/-- A node has at most one twin. -/
theorem Twins.eq_iff (h₁ : Twins net net' h h') (h₂ : Twins net net' k k') : h = k ↔ h' = k' := by
  obtain ⟨-, -, n, n', hn, hn', hid⟩ := h₁
  obtain ⟨-, -, m, m', hm, hm', hid'⟩ := h₂
  exact hw.eq_iff_of_id_eq hw' hn hn' hid hm hm' hid'

theorem twins_sink : Twins net net' net.sink net'.sink := by
  obtain ⟨n, hn, hf⟩ := hw.sink_live
  obtain ⟨n', hn', hf'⟩ := hw'.sink_live
  exact ⟨.inl rfl, .inl rfl, n, n', hn, hn', hf.1.trans hf'.1.symm⟩

variable (hsame : SameLivePart net net')
include hsame

/-- Twins are the same node. -/
theorem Twins.sameNode (ht : Twins net net' h h') : ∃ n n', net.node? h = some n
    ∧ net'.node? h' = some n' ∧ SameNode net net' n n' := by
  obtain ⟨hl, hl', n, n', hn, hn', hid⟩ := ht
  refine ⟨n, n', hn, hn', ?_⟩
  -- What shows the portrait of `h` in the other network can only be `h'`.
  obtain ⟨k', m', hlk', hm', hid', hp⟩ := (hsame n.id _).1 ⟨h, n, hl, hn, rfl, rfl⟩
  obtain rfl := hw'.handle_unique hm' hn' (hid'.trans hid)
  obtain rfl := Option.some.inj (hn'.symm.trans hm')
  obtain ⟨hstorage, hkind, hinputs⟩ := Portrait.mk.inj hp
  refine ⟨hid, hstorage, hkind, fun input => ?_⟩
  have hinput := congrFun hinputs input
  cases hln : n.link? input with
  | none =>
    cases hln' : n'.link? input with
    | none => exact .inl ⟨rfl, rfl⟩
    | some l' =>
      obtain ⟨p', -, hshow⟩ := inputByName_of_link? hw' hn' hln'
      rw [inputByName_of_none hln, hshow] at hinput
      cases hinput
  | some l =>
    obtain ⟨p, hprod, hshow⟩ := inputByName_of_link? hw hn hln
    cases hln' : n'.link? input with
    | none =>
      rw [hshow, inputByName_of_none hln'] at hinput
      cases hinput
    | some l' =>
      obtain ⟨p', hprod', hshow'⟩ := inputByName_of_link? hw' hn' hln'
      rw [hshow, hshow'] at hinput
      obtain ⟨hpid, hfacet⟩ := Prod.mk.inj (Option.some.inj hinput)
      exact .inr ⟨l, l', rfl, rfl, hfacet, hl.of_reads hw (reads_of_link? hn hln),
        hl'.of_reads hw' (reads_of_link? hn' hln'), p, p', hprod, hprod', hpid⟩

end Twins

/-! ### Visits of twins -/

/-- Two sets of handles that agree on twins. -/
def TwinSets (net net' : Network) (seen seen' : Set Handle) : Prop :=
  ∀ h h', Twins net net' h h' → (h ∈ seen ↔ h' ∈ seen')

/-- Two lists of twins. -/
abbrev TwinLists (net net' : Network) : List Handle → List Handle → Prop :=
  List.Forall₂ (Twins net net')

/-- The producers that feed the same inputs of two nodes are related where they are related input
    by input. -/
theorem producers_forall₂ {R : Handle → Handle → Prop} {n n' : Node}
    (hlinks : ∀ input, n.link? input = none ∧ n'.link? input = none
      ∨ ∃ l l', n.link? input = some l ∧ n'.link? input = some l' ∧ l.facet = l'.facet
        ∧ R l.producer l'.producer) (inputs : List Nat) :
    List.Forall₂ R (inputs.filterMap fun input => (n.link? input).map Link.producer)
      (inputs.filterMap fun input => (n'.link? input).map Link.producer) := by
  induction inputs with
  | nil => exact .nil
  | cons input rest ih =>
    rcases hlinks input with ⟨hl, hl'⟩ | ⟨l, l', hl, hl', -, hr⟩
    · simpa [List.filterMap_cons, hl, hl'] using ih
    · simpa [List.filterMap_cons, hl, hl'] using ⟨hr, ih⟩

/-- The producers of nodes of one kind are related if those of each input are. -/
theorem producers_of_links {R : Handle → Handle → Prop} {n n' : Node} (hkind : n.kind = n'.kind)
    (hlinks : ∀ input, n.link? input = none ∧ n'.link? input = none
      ∨ ∃ l l', n.link? input = some l ∧ n'.link? input = some l' ∧ l.facet = l'.facet
        ∧ R l.producer l'.producer) :
    List.Forall₂ R n.producers n'.producers := by
  unfold Node.producers
  rw [show n'.inputCount = n.inputCount by simp [Node.inputCount, hkind]]
  exact producers_forall₂ hlinks _

theorem SameNode.producers {n n' : Node} (hs : SameNode net net' n n') :
    TwinLists net net' n.producers n'.producers :=
  producers_of_links hs.kind hs.links

theorem SameNode.slotProducers {n n' : Node} (hs : SameNode net net' n n') (slots : List Slot) :
    TwinLists net net' (slotProducers n slots) (Network.slotProducers n' slots) := by
  have h := producers_forall₂ hs.links (slots.map Slot.index)
  rwa [List.filterMap_map, List.filterMap_map] at h

section Visits

variable (hw : net.WellFormed) (hw' : net'.WellFormed)
include hw hw'

/-- Sets agree on twins still if twins come to them. -/
theorem TwinSets.insert {seen seen' : Set Handle} (hs : TwinSets net net' seen seen')
    (ht : Twins net net' h h') : TwinSets net net' (insert h seen) (insert h' seen') := by
  intro x x' hx
  rw [Set.mem_insert_iff, Set.mem_insert_iff, hx.eq_iff hw hw' ht, hs x x' hx]

/-- The same for lists of twins. -/
theorem TwinSets.union {seen seen' : Set Handle} (hs : TwinSets net net' seen seen')
    {out out' : List Handle} (ht : TwinLists net net' out out') :
    TwinSets net net' (seen ∪ {x | x ∈ out}) (seen' ∪ {x | x ∈ out'}) := by
  intro x x' hx
  have hmem : x ∈ out ↔ x' ∈ out' := by
    induction ht with
    | nil => simp
    | cons hy _ ih => rw [List.mem_cons, List.mem_cons, hx.eq_iff hw hw' hy, ih]
  rw [Set.mem_union, Set.mem_union, hs x x' hx]
  exact or_congr_right hmem

/-- Visits of twins list twins. -/
theorem visits_twins (hsame : SameLivePart net net') {seen seen' : Set Handle}
    {pending pending' out : List Handle} (h : Visits net seen pending out)
    (hseen : TwinSets net net' seen seen') (hpending : TwinLists net net' pending pending') :
    ∃ out', Visits net' seen' pending' out' ∧ TwinLists net net' out out' := by
  induction h generalizing seen' pending' with
  | nil =>
    cases hpending
    exact ⟨[], .nil, .nil⟩
  | skip hp _ ih =>
    cases hpending with
    | cons ht hrest =>
      obtain ⟨out', hv, hout⟩ := ih hseen hrest
      exact ⟨out', .skip ((hseen _ _ ht).1 hp) hv, hout⟩
  | @enter seen p node rest below out hp hn _ _ ihb ihr =>
    cases hpending with
    | @cons _ p' _ rest' ht hrest =>
      obtain ⟨n, n', hn₁, hn', hnode⟩ := ht.sameNode hw hw' hsame
      obtain rfl := Option.some.inj (hn.symm.trans hn₁)
      -- Twins are entered together, so the two sets keep agreeing on twins.
      have hseen₁ := hseen.insert hw hw' ht
      obtain ⟨below', hvb, hbelow⟩ := ihb hseen₁ hnode.producers
      obtain ⟨out', hvr, hout⟩ := ihr (hseen₁.union hw hw' hbelow) hrest
      have hp' := fun hm => hp ((hseen _ _ ht).2 hm)
      exact ⟨below' ++ p' :: out', .enter hp' hn' hvb hvr, List.rel_append hbelow (.cons ht hout)⟩

/-- Walks from twins list twins. -/
theorem postOrder_twins (hsame : SameLivePart net net') {visited visited' : Visited}
    (hvisited : TwinSets net net' visited.members visited'.members)
    (ht : Twins net net' h h') :
    ∃ found found' visited₁ visited₁', net.postOrder h visited = .ok (found, visited₁)
      ∧ net'.postOrder h' visited' = .ok (found', visited₁')
      ∧ TwinLists net net' found.toList found'.toList
      ∧ TwinSets net net' visited₁.members visited₁'.members := by
  obtain ⟨found, visited₁, hp⟩ := exists_postOrder hw (ht.1.isSome hw) visited
  obtain ⟨found', visited₁', hp'⟩ := exists_postOrder hw' (ht.2.1.isSome hw') visited'
  obtain ⟨hv, hm⟩ := visits_of_postOrder hp
  obtain ⟨hv', hm'⟩ := visits_of_postOrder hp'
  obtain ⟨out', hvo, hout⟩ := visits_twins hw hw' hsame hv hvisited (.cons ht .nil)
  -- The visit of the twins is the one that the second walk makes.
  obtain rfl := hvo.unique hv'
  refine ⟨found, found', visited₁, visited₁', hp, hp', hout, ?_⟩
  rw [hm, hm']
  exact hvisited.union hw hw' hout

end Visits

/-! ### Comparing two networks -/

/-- A pairing of the handles of two networks that matches the sinks, and with any two nodes also
    their inputs. -/
structure Pairing (net net' : Network) (R : Handle → Handle → Prop) : Prop where
  sink : R net.sink net'.sink
  nodes : ∀ h h', R h h' → ∃ n n', net.node? h = some n ∧ net'.node? h' = some n'
    ∧ n.id = n'.id ∧ n.storage = n'.storage ∧ n.kind = n'.kind
    ∧ ∀ input, n.link? input = none ∧ n'.link? input = none
      ∨ ∃ l l', n.link? input = some l ∧ n'.link? input = some l' ∧ l.facet = l'.facet
        ∧ R l.producer l'.producer

/-- A pairing can be read from its other side. -/
theorem Pairing.symm {R : Handle → Handle → Prop} (hp : Pairing net net' R) :
    Pairing net' net fun h h' => R h' h where
  sink := hp.sink
  nodes h h' hr := by
    obtain ⟨n, n', hn, hn', hid, hstorage, hkind, hinputs⟩ := hp.nodes h' h hr
    refine ⟨n', n, hn', hn, hid.symm, hstorage.symm, hkind.symm, fun input => ?_⟩
    rcases hinputs input with ⟨hl, hl'⟩ | ⟨l, l', hl, hl', hfacet, hr⟩
    · exact .inl ⟨hl', hl⟩
    · exact .inr ⟨l', l, hl', hl, hfacet.symm, hr⟩

section Pairing

variable (hw : net.WellFormed) (hw' : net'.WellFormed) {R : Handle → Handle → Prop}
include hw hw'

omit hw' in
/-- What a paired node reads is paired with what its partner reads. -/
theorem Pairing.of_reads (hp : Pairing net net' R) (hr : R h h') (hread : net.Reads h k) :
    ∃ k', R k k' ∧ net'.Reads h' k' := by
  obtain ⟨n, n', hn, hn', -, -, -, hinputs⟩ := hp.nodes h h' hr
  obtain ⟨m, hm, l, hl, rfl⟩ := hread
  obtain rfl := Option.some.inj (hn.symm.trans hm)
  have hlink := (hw.linksSound h n hn).link?_eq_some_iff.2 ⟨hl, rfl⟩
  rcases hinputs l.input with ⟨hnone, -⟩ | ⟨l₁, l', hl₁, hl', -, hr'⟩
  · rw [hlink] at hnone
    cases hnone
  · obtain rfl := Option.some.inj (hlink.symm.trans hl₁)
    exact ⟨l'.producer, hr', reads_of_link? hn' hl'⟩

/-- Every node of one live part is paired with one of the other. -/
theorem Pairing.inLivePart (hp : Pairing net net' R) (hl : net.InLivePart h) :
    ∃ h', R h h' ∧ net'.InLivePart h' := by
  rcases hl with rfl | ⟨slot, sink, link, hs, hlink, hd⟩
  · exact ⟨net'.sink, hp.sink, .inl rfl⟩
  · -- Along the path from the slot every node has its partner.
    induction hd with
    | refl =>
      obtain ⟨k', hr, hread⟩ := hp.of_reads hw hp.sink (reads_of_link? hs hlink)
      exact ⟨k', hr, InLivePart.of_reads hw' (.inl rfl) hread⟩
    | tail _ hread ih =>
      obtain ⟨k', hr, hlive⟩ := ih
      obtain ⟨m', hr', hread'⟩ := hp.of_reads hw hr hread
      exact ⟨m', hr', hlive.of_reads hw' hread'⟩

/-- What one network says about a name, a paired one says, too. -/
theorem Pairing.shows (hp : Pairing net net' R) {id : String} {p : Portrait}
    (h : net.Shows id p) : net'.Shows id p := by
  obtain ⟨h, n, hl, hn, rfl, rfl⟩ := h
  obtain ⟨h', hr, hl'⟩ := hp.inLivePart hw hw' hl
  obtain ⟨m, n', hm, hn', hid, hstorage, hkind, hinputs⟩ := hp.nodes h h' hr
  obtain rfl := Option.some.inj (hn.symm.trans hm)
  refine ⟨h', n', hl', hn', hid.symm, ?_⟩
  rw [hstorage, hkind]
  congr 1
  funext input
  -- An input is fed in neither network, or by paired producers, which have one name.
  rcases hinputs input with ⟨hln, hln'⟩ | ⟨l, l', hln, hln', hfacet, hr'⟩
  · rw [inputByName_of_none hln, inputByName_of_none hln']
  · obtain ⟨p, hprod, hshow⟩ := inputByName_of_link? hw hn hln
    obtain ⟨p', hprod', hshow'⟩ := inputByName_of_link? hw' hn' hln'
    obtain ⟨q, q', hq, hq', hqid, -⟩ := hp.nodes _ _ hr'
    obtain rfl := Option.some.inj (hprod.symm.trans hq)
    obtain rfl := Option.some.inj (hprod'.symm.trans hq')
    rw [hshow, hshow', hqid, hfacet]

/-- Networks whose nodes can be paired have one live part. -/
theorem Pairing.sameLivePart (hp : Pairing net net' R) : SameLivePart net net' :=
  fun _ _ => ⟨hp.shows hw hw', hp.symm.shows hw' hw⟩

end Pairing

/-- Whether the inputs of two nodes read the same facets of paired nodes. -/
def pairsInputs (pairs : List (Handle × Handle)) (n n' : Node) : Bool :=
  (List.range n.inputCount).all fun input =>
    match n.link? input, n'.link? input with
    | none, none => true
    | some l, some l' => l.facet = l'.facet && pairs.contains (l.producer, l'.producer)
    | _, _ => false

/-- Whether a list of pairs is a pairing. -/
def pairs (net net' : Network) (pairs : List (Handle × Handle)) : Bool :=
  pairs.contains (net.sink, net'.sink) && pairs.all fun (h, h') =>
    match net.node? h, net'.node? h' with
    | some n, some n' => n.id = n'.id && n.storage = n'.storage && n.kind = n'.kind
      && pairsInputs pairs n n'
    | _, _ => false

/-- The test of a list of pairs tells the truth. -/
theorem pairing_of_pairs (hw : net.WellFormed) (hw' : net'.WellFormed)
    {list : List (Handle × Handle)} (h : pairs net net' list = true) :
    Pairing net net' fun h h' => (h, h') ∈ list := by
  simp only [pairs, Bool.and_eq_true, List.contains_iff_mem, List.all_eq_true] at h
  refine ⟨h.1, fun k k' hk => ?_⟩
  have hpair := h.2 (k, k') hk
  simp only at hpair
  split at hpair
  · rename_i n n' hn hn'
    simp only [Bool.and_eq_true, decide_eq_true_eq] at hpair
    obtain ⟨⟨⟨hid, hstorage⟩, hkind⟩, hinputs⟩ := hpair
    refine ⟨n, n', hn, hn', hid, hstorage, hkind, fun input => ?_⟩
    -- The test looks at the inputs that a node has.
    by_cases hinput : input < n.inputCount
    · have hx := List.all_eq_true.1 hinputs input (List.mem_range.2 hinput)
      split at hx
      · rename_i hl hl'
        exact .inl ⟨hl, hl'⟩
      · rename_i l l' hl hl'
        simp only [Bool.and_eq_true, decide_eq_true_eq, List.contains_iff_mem] at hx
        exact .inr ⟨l, l', hl, hl', hx.1, hx.2⟩
      · cases hx
    · -- Inputs beyond the last are not fed.
      have hcount : n'.inputCount = n.inputCount := by simp [Node.inputCount, hkind]
      refine .inl ⟨Node.link?_eq_none.2 fun l hl hi => ?_, Node.link?_eq_none.2 fun l hl hi => ?_⟩
      · exact hinput (hi ▸ (hw.linkSound k n hn l hl).1)
      · exact hinput (hcount ▸ hi ▸ (hw'.linkSound k' n' hn' l hl).1)
  · cases hpair

end Network

end MaterialNet
