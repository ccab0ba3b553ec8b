import MaterialNet.Proofs.Visits
import MaterialNet.Session.Evaluate

namespace MaterialNet

/-!
# Writing what a stage computes

Once everything that a stage needs has been declared, its lines are written slot by slot.  Writing
fails only at a link whose producer has no promotion to the type that the input needs.

* `Network.Converts` — the promotion rules cover a link
* `Network.Computes` — the lines that compute several nodes in order
* `Network.Proceeds` — such lines where each node reads what has been computed before
* `Network.Written` — the lines of the steps of a plan
* `Session.planLines_gives`, `planLines_fails` — the two outcomes of writing the steps of a plan
-/

/-! ### Facets and inputs of a node -/

namespace Node

/-- A facet that has a type has an expression. -/
theorem exists_facetExpr {n : Node} {facet : Facet} {type : ValueType}
    (h : n.facetType facet = .ok type) : ∃ e, n.facetExpr facet = .ok e := by
  unfold facetType at h
  unfold facetExpr
  cases hk : n.kind <;> cases facet <;> simp_all [Facet.swizzle?, type?]

/-- Every input of a node has a type. -/
theorem isSome_inputType? {n : Node} {input : Nat} (h : input < n.inputCount) :
    (n.inputType? input).isSome := by
  unfold inputType?
  rw [if_pos h]
  unfold inputCount at h
  cases hk : n.kind with
  | constant value =>
    simp only [hk] at h
    exact absurd h (Nat.not_lt_zero _)
  | sink =>
    simp only [hk] at h
    simp [Slot.ofIndex?, Slot.all, Named.all, Slot.count] at h ⊢
    exact h
  | _ => rfl

/-- The input of a slot has the slot's type. -/
theorem inputType?_of_slot {n : Node} (h : n.kind = .sink) (slot : Slot) :
    n.inputType? slot.index = some slot.type := by
  have hi : slot.index < n.inputCount := by
    rw [show n.inputCount = Slot.count by simp [inputCount, h]]
    cases slot <;> decide
  simp [inputType?, hi, h, Slot.ofIndex?_index]

end Node

namespace Network

variable {net : Network} {consumer : Node} {l : Link} {fault : Fault}

/-! ### Reading links -/

/-- The promotion rules read the facet of a link as the type that its input needs. -/
def Converts (net : Network) (consumer : Node) (l : Link) : Prop :=
  ∃ producer produced required, net.node? l.producer = some producer
    ∧ producer.facetType l.facet = .ok produced
    ∧ consumer.inputType? l.input = some required ∧ promotable produced required = true

/-- What a link reads is the facet of its producer, promoted to the type of the input. -/
theorem readLink_eq_ok {name : String} {required : ValueType} {e : Expr} :
    net.readLink name l required = .ok e ↔
      ∃ producer produced e₀, net.node? l.producer = some producer
        ∧ producer.facetType l.facet = .ok produced ∧ producer.facetExpr l.facet = .ok e₀
        ∧ promote? produced required e₀ = some e := by
  unfold readLink
  constructor
  · intro h
    obtain ⟨producer, hp, h⟩ := bind_ok_iff.1 h
    obtain ⟨e₀, he, h⟩ := bind_ok_iff.1 h
    obtain ⟨produced, ht, h⟩ := bind_ok_iff.1 h
    split at h
    · rename_i promoted hpromote
      cases h
      exact ⟨producer, produced, e₀, get_eq_ok.1 hp, ht, he, hpromote⟩
    · cases h
  · rintro ⟨producer, produced, e₀, hp, ht, he, hpromote⟩
    refine bind_ok_iff.2 ⟨producer, get_eq_ok.2 hp, bind_ok_iff.2 ⟨e₀, he, ?_⟩⟩
    refine bind_ok_iff.2 ⟨produced, ht, ?_⟩
    rw [hpromote]

/-- A link that is read is covered by the promotion rules. -/
theorem converts_of_readLink {name : String} {required : ValueType} {e : Expr}
    (hi : consumer.inputType? l.input = some required)
    (h : net.readLink name l required = .ok e) : net.Converts consumer l := by
  obtain ⟨producer, produced, e₀, hp, ht, -, hpromote⟩ := readLink_eq_ok.1 h
  refine ⟨producer, produced, required, hp, ht, hi, ?_⟩
  rw [← isSome_promote? produced required e₀, hpromote]
  rfl

/-- A sound link that is not read is not covered. -/
theorem not_converts_of_readLink {name : String} {required : ValueType}
    (hl : net.LinkSound consumer l) (hi : consumer.inputType? l.input = some required)
    (h : net.readLink name l required = .error fault) :
    (∃ produced, fault = .noPromotion name produced required) ∧ ¬ net.Converts consumer l := by
  obtain ⟨-, producer, produced, hp, ht⟩ := hl
  obtain ⟨e₀, he⟩ := Node.exists_facetExpr ht
  unfold readLink at h
  simp only [get_eq_ok.2 hp, he, ht, bind, Except.bind] at h
  split at h
  · cases h
  · rename_i hnone
    cases h
    refine ⟨⟨produced, rfl⟩, ?_⟩
    -- The link has one producer, one facet and one input, so there is one promotion to look for.
    rintro ⟨producer', produced', required', hp', ht', hi', hpromotable⟩
    obtain rfl := Option.some.inj (hp.symm.trans hp')
    obtain rfl := Except.ok.inj (ht.symm.trans ht')
    obtain rfl := Option.some.inj (hi.symm.trans hi')
    rw [← isSome_promote? produced required e₀, hnone] at hpromotable
    cases hpromotable

/-! ### Statements -/

/-- The expressions that the inputs of a node read. -/
theorem inputExpr_eq_ok {input : Nat} {e? : Option Expr}
    (h : net.inputExpr consumer input = .ok e?) :
    consumer.link? input = none ∧ e? = none
      ∨ ∃ l required e, consumer.link? input = some l ∧ consumer.inputType? input = some required
        ∧ net.readLink consumer.id l required = .ok e ∧ e? = some e := by
  unfold inputExpr at h
  split at h
  · rename_i hl
    cases h
    exact .inl ⟨hl, rfl⟩
  · rename_i l hl
    split at h
    · cases h
    · rename_i required hi
      obtain ⟨e, he, rfl⟩ := map_ok_iff.1 h
      exact .inr ⟨l, required, e, hl, hi, he, rfl⟩

/-- The node's links are all covered by the promotion rules. -/
def LinksConvert (net : Network) (h : Handle) : Prop :=
  ∀ node, net.node? h = some node → ∀ l ∈ node.links, net.Converts node l

/-- A node that has a statement reads its links. -/
theorem statementOf_eq_ok {h : Handle} {r : Option Line × List Event}
    (hs : net.statementOf h = .ok r) :
    ∃ node inputs, net.node? h = some node ∧ r = node.statement inputs
      ∧ ∀ input < node.inputCount, ∃ e?, inputs[input]? = some e?
        ∧ net.inputExpr node input = .ok e? := by
  unfold statementOf at hs
  obtain ⟨node, hn, hs⟩ := bind_ok_iff.1 hs
  obtain ⟨inputs, hi, hs⟩ := bind_ok_iff.1 hs
  cases hs
  refine ⟨node, inputs, get_eq_ok.1 hn, rfl, fun input hinput => ?_⟩
  obtain ⟨hlength, hget⟩ := List.forall₂_iff_get.1 (mapM_eq_ok hi)
  rw [List.length_range] at hlength
  have hinput' : input < inputs.length := hlength ▸ hinput
  refine ⟨inputs[input], List.getElem?_eq_getElem hinput', ?_⟩
  simpa using hget input (by simpa using hinput) hinput'

section WellFormed

variable (hw : net.WellFormed)
include hw

/-- If a node has a statement, then all its links could be converted. -/
theorem linksConvert_of_statementOf {h : Handle} {r : Option Line × List Event}
    (hs : net.statementOf h = .ok r) : net.LinksConvert h := by
  obtain ⟨node, inputs, hn, -, hinputs⟩ := statementOf_eq_ok hs
  intro node' hn' l hl
  obtain rfl := Option.some.inj (hn.symm.trans hn')
  have hi := (hw.linkSound h node hn l hl).1
  obtain ⟨e?, -, he⟩ := hinputs l.input hi
  have hlink := (hw.linksSound h node hn).link?_eq_some_iff.2 ⟨hl, rfl⟩
  rcases inputExpr_eq_ok he with ⟨hnone, -⟩ | ⟨l', required, e, hl', hi', hread, -⟩
  · rw [hlink] at hnone
    cases hnone
  · obtain rfl := Option.some.inj (hlink.symm.trans hl')
    exact converts_of_readLink hi' hread

/-- A node without a statement has a link that is not covered. -/
theorem statementOf_eq_error {h : Handle} (hlive : (net.node? h).isSome)
    (hs : net.statementOf h = .error fault) :
    (∃ name produced required, fault = .noPromotion name produced required)
      ∧ ¬ net.LinksConvert h := by
  unfold statementOf at hs
  rcases bind_error_iff.1 hs with hn | ⟨node, hn, hs⟩
  · rw [(get_eq_error.1 hn).1] at hlive
    cases hlive
  have hn := get_eq_ok.1 hn
  -- Only reading an input can fail, and only at its promotion.
  rcases bind_error_iff.1 hs with hi | ⟨inputs, -, hs⟩
  · obtain ⟨input, hinput, he⟩ := mapM_eq_error hi
    rw [List.mem_range] at hinput
    unfold inputExpr at he
    split at he
    · cases he
    rename_i l hl
    obtain ⟨hmem, rfl⟩ := Node.link?_eq_some hl
    split at he
    · rename_i hnone
      have hsome := Node.isSome_inputType? hinput
      rw [hnone] at hsome
      cases hsome
    · rename_i required htype
      obtain ⟨⟨produced, rfl⟩, hno⟩ := not_converts_of_readLink
        (hw.linkSound h node hn l hmem) htype (map_error_iff.1 he)
      exact ⟨⟨_, _, _, rfl⟩, fun hall => hno (hall node hn l hmem)⟩
  · cases hs

end WellFormed

/-! ### Several nodes, and the steps of a plan -/

/-- The lines that compute the given nodes in order. -/
inductive Computes (net : Network) : List Handle → List Line → Prop where
  | nil : Computes net [] []
  | cons {h : Handle} {line? : Option Line} {events : List Event} {rest : List Handle}
      {lines : List Line} (hs : net.statementOf h = .ok (line?, events))
      (hrest : Computes net rest lines) : Computes net (h :: rest) (line?.toList ++ lines)

/-- The lines that compute nodes of `here` one after the other, each of which reads only what has
    been computed.  That is `seen` before the lines and `seen'` after them. -/
inductive Proceeds (net : Network) (here : Set Handle) :
    Set Handle → List Line → Set Handle → Prop where
  | nil {seen : Set Handle} : Proceeds net here seen [] seen
  | cons {seen seen' : Set Handle} {h : Handle} {line? : Option Line} {events : List Event}
      {lines : List Line} (hh : h ∈ here) (hnew : h ∉ seen)
      (hread : ∀ q, net.Reads h q → q ∈ seen) (hs : net.statementOf h = .ok (line?, events))
      (hrest : Proceeds net here (insert h seen) lines seen') :
      Proceeds net here seen (line?.toList ++ lines) seen'

/-- Lines in the order of dependence read what has been computed before. -/
theorem Computes.proceeds {here seen : Set Handle} {out : List Handle} {lines : List Line}
    (hc : Computes net out lines) (hhere : ∀ x ∈ out, x ∈ here) (hnodup : out.Nodup)
    (hnew : ∀ x ∈ out, x ∉ seen)
    (hordered : ∀ before x after, out = before ++ x :: after →
      ∀ q, net.Reads x q → q ∈ seen ∨ q ∈ before) :
    Proceeds net here seen lines (seen ∪ {x | x ∈ out}) := by
  induction hc generalizing seen with
  | nil =>
    have hempty : seen ∪ {x | x ∈ []} = seen := by simp
    rw [hempty]
    exact .nil
  | @cons y line? events rest lines hs _ ih =>
    obtain ⟨hy, hnodup⟩ := List.nodup_cons.1 hnodup
    obtain ⟨hyhere, hhere⟩ := List.forall_mem_cons.1 hhere
    obtain ⟨hynew, hnew⟩ := List.forall_mem_cons.1 hnew
    -- Nothing stands before the first node, so all that it reads has been computed.
    have hread q (hq : net.Reads y q) : q ∈ seen :=
      (hordered [] y rest rfl q hq).resolve_right List.not_mem_nil
    rw [union_cons]
    refine .cons hyhere hynew hread hs (ih hhere hnodup ?_ fun before x after heq q hq => ?_)
    · rintro x hx (rfl | hseen)
      · exact hy hx
      · exact hnew x hx hseen
    · rcases hordered (y :: before) x after (by rw [heq]; rfl) q hq with hq | hq
      · exact .inl (.inr hq)
      · exact (List.mem_cons.1 hq).imp_left .inl

/-- Where there are no cycles, what a visit lists can be computed in its order. -/
theorem Visits.proceeds (hw : net.WellFormed) (hacyclic : net.Acyclic) {here seen : Set Handle}
    {p : Handle} {out : List Handle} {lines : List Line} (hvisits : Visits net seen [p] out)
    (hc : Computes net out lines) (hhere : ∀ x, net.DependsOn p x → x ∈ here) :
    Proceeds net here seen lines (seen ∪ {x | x ∈ out}) := by
  obtain ⟨hnodup, hnew⟩ := hvisits.nodup
  refine hc.proceeds (fun x hx => ?_) hnodup hnew (hvisits.ordered hw hacyclic)
  obtain ⟨q, hq, hd⟩ := hvisits.sound hw x hx
  obtain rfl := List.mem_singleton.1 hq
  exact hhere x hd

/-- The comment that announces a slot, if the settings ask for one. -/
def announcement (net : Network) (slot : Slot) : List Line :=
  if net.settings.annotateSlots then [.label slot] else []

/-- The comment that announces a slot stands in front of its lines. -/
theorem announced_eq (net : Network) (slot : Slot) (lines : List Line) :
    (if net.settings.annotateSlots then Line.label slot :: lines else lines)
      = net.announcement slot ++ lines := by
  unfold announcement
  split <;> rfl

/-- The lines that follow the assignment of a slot. -/
def decoding (slot : Slot) : List Line := if slot = .normal then normalDecode else []

/-- The lines of the steps of a plan, when the nodes of the set have been computed before. -/
inductive Written (net : Network) (sink : Node) : Set Handle → List Step → List Line → Prop where
  | nil {seen : Set Handle} : Written net sink seen [] []
  | composite {seen : Set Handle} {rest : List Step} {lines : List Line}
      (hrest : Written net sink seen rest lines) :
      Written net sink seen (.composite :: rest) (compositeLine :: lines)
  | unfed {seen : Set Handle} {slot : Slot} {rest : List Step} {lines : List Line}
      (hl : sink.link? slot.index = none) (hrest : Written net sink seen rest lines) :
      Written net sink seen (.slot slot :: rest) (net.announcement slot ++ .noInput :: lines)
  | fed {seen : Set Handle} {slot : Slot} {rest : List Step} {link : Link} {out : List Handle}
      {body lines : List Line} {value : Expr} (hl : sink.link? slot.index = some link)
      (hvisits : Visits net seen [link.producer] out) (hbody : Computes net out body)
      (hvalue : net.readLink (Session.slotConsumer slot) link slot.type = .ok value)
      (hrest : Written net sink (seen ∪ {x | x ∈ out}) rest lines) :
      Written net sink seen (.slot slot :: rest)
        (net.announcement slot
          ++ (body ++ (.assign slot.target value :: (decoding slot ++ lines))))

theorem slots_cons (slot : Slot) (rest : List Step) :
    (Step.slot slot :: rest).filterMap Step.slot? = slot :: rest.filterMap Step.slot? := rfl

/-- If nodes are computed, then their links could be converted. -/
theorem linksConvert_of_computes (hw : net.WellFormed) {hs : List Handle} {lines : List Line}
    (h : Computes net hs lines) : ∀ x ∈ hs, net.LinksConvert x := by
  induction h with
  | nil => simp
  | cons hs _ ih => exact List.forall_mem_cons.2 ⟨linksConvert_of_statementOf hw hs, ih⟩

/-- Where the lines of a plan are written, everything that the plan needs has been visited, and
    all links that it needs are covered by the promotion rules. -/
theorem Written.converts (hw : net.WellFormed) {sink : Node} (hs : net.node? net.sink = some sink)
    {seen : Set Handle} {steps : List Step} {lines : List Line}
    (h : Written net sink seen steps lines) :
    (∃ out, Visits net seen (slotProducers sink (steps.filterMap Step.slot?)) out
      ∧ ∀ x ∈ out, net.LinksConvert x)
    ∧ ∀ slot ∈ steps.filterMap Step.slot?, ∀ link, sink.link? slot.index = some link →
      net.Converts sink link := by
  induction h with
  | nil => exact ⟨⟨[], .nil, by simp⟩, by simp⟩
  | composite _ ih => exact ih
  | @unfed seen slot rest lines hl _ ih =>
    rw [slots_cons, slotProducers_cons, slotProducers_of_unfed hl, List.nil_append]
    refine ⟨ih.1, fun slot' hslot' link hlink => ?_⟩
    rcases List.mem_cons.1 hslot' with rfl | hslot'
    · rw [hl] at hlink
      cases hlink
    · exact ih.2 slot' hslot' link hlink
  | @fed seen slot rest link out body lines value hl hvisits hbody hvalue _ ih =>
    obtain ⟨⟨out₂, hvisits₂, hout₂⟩, hslots⟩ := ih
    rw [slots_cons, slotProducers_cons, slotProducers_of_fed hl]
    refine ⟨⟨out ++ out₂, hvisits.append hvisits₂, fun x hx => ?_⟩,
      fun slot' hslot' link' hl' => ?_⟩
    · -- The nodes of this slot come first, then those of the slots after it.
      rcases List.mem_append.1 hx with hx | hx
      · exact linksConvert_of_computes hw hbody x hx
      · exact hout₂ x hx
    · rcases List.mem_cons.1 hslot' with rfl | hslot'
      · obtain rfl := Option.some.inj (hl.symm.trans hl')
        have hkind : sink.kind = .sink := of_decide_eq_true ((hw.isSink_iff hs).2 rfl)
        have hinput := Node.inputType?_of_slot hkind slot'
        rw [← (Node.link?_eq_some hl).2] at hinput
        exact converts_of_readLink hinput hvalue
      · exact hslots slot' hslot' link' hl'

end Network

namespace Session

open Network

variable {net : Network} {sink : Node} {s s' : Session} {fault : Fault} {lines : List Line}

/-! ### The actions that write -/

/-- Statements that are given compute the nodes and leave the session as it is. -/
theorem statements_gives {hs : List Handle} (h : (statements net hs).Gives s lines s') :
    s' = s ∧ Computes net hs lines := by
  induction hs generalizing s s' lines with
  | nil =>
    obtain ⟨rfl, rfl⟩ := Action.gives_pure.1 h
    exact ⟨rfl, .nil⟩
  | cons x rest ih =>
    unfold statements at h
    obtain ⟨⟨line?, events⟩, hs, h⟩ := Action.gives_lift_bind.1 h
    replace h := Action.gives_note_bind.1 h
    obtain ⟨others, hrest, rfl⟩ := Action.gives_bind_pure.1 h
    obtain ⟨rfl, hc⟩ := ih hrest
    exact ⟨rfl, .cons hs hc⟩

/-- If statements fail, then one of the nodes has none. -/
theorem statements_fails {hs : List Handle} (h : (statements net hs).Fails s fault s') :
    ∃ x ∈ hs, net.statementOf x = .error fault := by
  induction hs generalizing s with
  | nil => exact absurd h Action.not_fails_pure
  | cons x rest ih =>
    unfold statements at h
    rcases Action.fails_lift_bind.1 h with ⟨hx, -⟩ | ⟨⟨line?, events⟩, -, h⟩
    · exact ⟨x, List.mem_cons_self, hx⟩
    replace h := Action.fails_note_bind.1 h
    obtain ⟨y, hy, hf⟩ := ih (Action.fails_bind_pure.1 h)
    exact ⟨y, List.mem_cons_of_mem _ hy, hf⟩

/-- A visit computes what it lists, and marks it. -/
theorem visit_gives {root : Handle} (h : (visit net root).Gives s lines s') :
    ∃ out evaluated, s' = { s with evaluated } ∧ Visits net s.evaluated.members [root] out
      ∧ evaluated.members = s.evaluated.members ∪ {x | x ∈ out} ∧ Computes net out lines := by
  unfold visit at h
  replace h := Action.gives_getState_bind.1 h
  obtain ⟨⟨found, evaluated⟩, hwalk, h⟩ := Action.gives_lift_bind.1 h
  replace h := Action.gives_setState_bind.1 h
  obtain ⟨hvisits, hmembers⟩ := visits_of_postOrder hwalk
  obtain ⟨rfl, hc⟩ := statements_gives h
  exact ⟨_, evaluated, rfl, hvisits, hmembers, hc⟩

/-- If a visit fails, then something that the root depends on has no statement. -/
theorem visit_fails (hw : net.WellFormed) {root : Handle} (hroot : (net.node? root).isSome)
    (h : (visit net root).Fails s fault s') :
    ∃ x, net.DependsOn root x ∧ net.statementOf x = .error fault := by
  unfold visit at h
  replace h := Action.fails_getState_bind.1 h
  rcases Action.fails_lift_bind.1 h with ⟨hwalk, -⟩ | ⟨⟨found, evaluated⟩, hwalk, h⟩
  · obtain ⟨found, evaluated, hp⟩ := exists_postOrder hw hroot s.evaluated
    rw [hp] at hwalk
    cases hwalk
  obtain ⟨x, hx, hf⟩ := statements_fails (Action.fails_setState_bind.1 h)
  obtain ⟨p, hp, hd⟩ := (visits_of_postOrder hwalk).1.sound hw x hx
  rw [List.mem_singleton.1 hp] at hd
  exact ⟨x, hd, hf⟩

/-- Why writing lines for the given slots is refused: a link that they need has no promotion. -/
def Unconverted (net : Network) (sink : Node) (slots : List Slot) (fault : Fault) : Prop :=
  (∃ name produced required, fault = .noPromotion name produced required)
    ∧ ((∃ slot ∈ slots, ∃ link, sink.link? slot.index = some link ∧ ¬ net.Converts sink link)
      ∨ ∃ p ∈ slotProducers sink slots, ∃ h, net.DependsOn p h ∧ ¬ net.LinksConvert h)

theorem Unconverted.mono {slots slots' : List Slot} (h : Unconverted net sink slots fault)
    (hsub : ∀ slot ∈ slots, slot ∈ slots') : Unconverted net sink slots' fault := by
  refine ⟨h.1, ?_⟩
  rcases h.2 with ⟨slot, hslot, hx⟩ | ⟨p, hp, hx⟩
  · exact .inl ⟨slot, hsub slot hslot, hx⟩
  · obtain ⟨slot, hslot, hl⟩ := List.mem_filterMap.1 hp
    exact .inr ⟨p, List.mem_filterMap.2 ⟨slot, hsub slot hslot, hl⟩, hx⟩

section Sink

variable (hw : net.WellFormed) (hs : net.node? net.sink = some sink)
include hw hs

/-- Writing a slot fails at a link that cannot be converted. -/
theorem slotLines_fails {slot : Slot} (h : (slotLines net sink slot).Fails s fault s') :
    Unconverted net sink [slot] fault := by
  unfold slotLines at h
  split at h
  · exact absurd (Action.fails_note_bind.1 h) Action.not_fails_pure
  · rename_i link hl
    have hproducers := slotProducers_of_fed hl
    have hlive := hw.isSome_of_reads (reads_of_link? hs hl)
    obtain ⟨hmem, hinput⟩ := Node.link?_eq_some hl
    -- A producer may have no statement, or the value may not fit the slot.
    rcases Action.fails_bind.1 h with hbody | ⟨body, t, -, h⟩
    · obtain ⟨x, hd, hf⟩ := visit_fails hw hlive hbody
      obtain ⟨hfault, hno⟩ := statementOf_eq_error hw (hw.isSome_of_dependsOn hlive hd) hf
      exact ⟨hfault, .inr ⟨link.producer, by simp [hproducers], x, hd, hno⟩⟩
    rcases Action.fails_lift_bind.1 h with ⟨hvalue, -⟩ | ⟨value, -, h⟩
    · have hkind : sink.kind = .sink := of_decide_eq_true ((hw.isSink_iff hs).2 rfl)
      have htype := Node.inputType?_of_slot hkind slot
      rw [← hinput] at htype
      obtain ⟨⟨produced, hfault⟩, hno⟩ := not_converts_of_readLink (hw.linkSound _ _ hs link hmem)
        htype hvalue
      exact ⟨⟨_, _, _, hfault⟩, .inl ⟨slot, List.mem_singleton_self _, link, hl, hno⟩⟩
    · exact absurd h Action.not_fails_pure

/-- So does writing a plan. -/
theorem planLines_fails {steps : List Step} (h : (planLines net sink steps).Fails s fault s') :
    Unconverted net sink (steps.filterMap Step.slot?) fault := by
  induction steps generalizing s with
  | nil => exact absurd h Action.not_fails_pure
  | cons step rest ih =>
    unfold planLines at h
    rcases Action.fails_bind.1 h with hstep | ⟨lines, t, -, h⟩
    · cases step with
      | composite => exact absurd hstep Action.not_fails_pure
      | slot slot =>
        have hslot := slotLines_fails hw hs (Action.fails_bind_pure.1 hstep)
        exact hslot.mono (by simp [Step.slot?])
    refine (ih (Action.fails_bind_pure.1 h)).mono fun slot hslot => ?_
    rw [List.mem_filterMap] at hslot ⊢
    obtain ⟨step', hstep, hx⟩ := hslot
    exact ⟨step', List.mem_cons_of_mem _ hstep, hx⟩

omit hw hs in
/-- A slot that nothing feeds has a note.  A fed one has the lines of what its producer still needs,
    the assignment of its value, and the decoding. -/
theorem slotLines_gives {slot : Slot} (h : (slotLines net sink slot).Gives s lines s') :
    (sink.link? slot.index = none ∧ s' = s ∧ lines = [.noInput])
      ∨ ∃ link out body value evaluated, sink.link? slot.index = some link
        ∧ s' = { s with evaluated } ∧ Visits net s.evaluated.members [link.producer] out
        ∧ evaluated.members = s.evaluated.members ∪ {x | x ∈ out} ∧ Computes net out body
        ∧ net.readLink (slotConsumer slot) link slot.type = .ok value
        ∧ lines = body ++ .assign slot.target value :: decoding slot := by
  unfold slotLines at h
  split at h
  · rename_i hl
    replace h := Action.gives_note_bind.1 h
    obtain ⟨rfl, rfl⟩ := Action.gives_pure.1 h
    exact .inl ⟨hl, rfl, rfl⟩
  · rename_i link hl
    obtain ⟨body, t, hbody, h⟩ := Action.gives_bind.1 h
    obtain ⟨value, hvalue, h⟩ := Action.gives_lift_bind.1 h
    obtain ⟨rfl, rfl⟩ := Action.gives_pure.1 h
    obtain ⟨out, evaluated, ht, hvisits, hmembers, hcomputes⟩ := visit_gives hbody
    exact .inr ⟨link, out, body, value, evaluated, hl, ht, hvisits, hmembers, hcomputes, hvalue,
      rfl⟩

omit hw hs in
/-- A plan that could be written has been written step by step. -/
theorem planLines_gives {steps : List Step} (h : (planLines net sink steps).Gives s lines s') :
    Written net sink s.evaluated.members steps lines
      ∧ ∃ evaluated, s' = { s with evaluated } := by
  induction steps generalizing s s' lines with
  | nil =>
    obtain ⟨rfl, rfl⟩ := Action.gives_pure.1 h
    exact ⟨.nil, _, rfl⟩
  | cons step rest ih =>
    unfold planLines at h
    obtain ⟨first, t, hstep, h⟩ := Action.gives_bind.1 h
    obtain ⟨others, hrest, rfl⟩ := Action.gives_bind_pure.1 h
    obtain ⟨hwritten, evaluated', ht'⟩ := ih hrest
    cases step with
    | composite =>
      obtain ⟨rfl, rfl⟩ := Action.gives_pure.1 hstep
      exact ⟨.composite hwritten, evaluated', ht'⟩
    | slot slot =>
      unfold stepLines at hstep
      obtain ⟨slotted, hslot, rfl⟩ := Action.gives_bind_pure.1 hstep
      rw [announced_eq, List.append_assoc]
      rcases slotLines_gives hslot with ⟨hl, rfl, rfl⟩
        | ⟨link, out, body, value, evaluated, hl, rfl, hvisits, hmembers, hcomputes, hvalue, rfl⟩
      · exact ⟨.unfed hl hwritten, evaluated', ht'⟩
      · have hmarked : Session.evaluated { s with evaluated } = evaluated := rfl
        rw [hmarked, hmembers] at hwritten
        refine ⟨?_, evaluated', ht'⟩
        simpa using Written.fed hl hvisits hcomputes hvalue hwritten

end Sink

end Session

end MaterialNet
