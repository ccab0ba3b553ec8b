import MaterialNet.Proofs.Evaluation
import MaterialNet.Proofs.Serving

namespace MaterialNet

/-!
# The program of a stage computes what the network means

The lines of a stage are executed from any contents of the variables.  What carries the proof is
`Holds`: the variable of every node that has been computed holds the node's value, and what the
renderer supplies has not been touched.  A statement keeps this, because the producers of its node
stand before it and because no two nodes of a stage share a variable; the lines of a plan keep it,
because the slots have variables of their own.

* `Network.Holds` — the invariant
* `Network.Holds.computes` — the statements of some nodes
* `Network.Written.denotes` — the lines of a plan
-/

universe u

variable {V : Type u} {I : Interpretation V} {store supplied : Store V}

namespace Network

variable {net : Network} {here seen seen' : Set Handle} {h : Handle} {n : Node}

/-! ### What a program sets and what it does not set -/

/-- The variables of the slots, and the one that the scalar channels are packed into. -/
def outputNames : List String := "MaterialOut" :: Slot.all.map Slot.target

/-- The variables of the programs that expressions read. -/
def inputNames : List String := ["TexCoords", "u_Time", "TBN"]

/-- What a program gives out belongs to the names of the program. -/
theorem outputNames_subset : ∀ x ∈ outputNames, x ∈ programNames := by decide +kernel

/-- What a program is given belongs to them, too, and is not given out. -/
theorem inputNames_subset : ∀ x ∈ inputNames, x ∈ programNames ∧ x ∉ outputNames := by
  decide +kernel

/-- What the renderer supplies to the given nodes: the coordinates, the time, the tangent space and
    the uniforms. -/
def Supplied (net : Network) (here : Set Handle) (x : String) : Prop :=
  x ∈ inputNames
    ∨ ∃ h ∈ here, ∃ n, net.node? h = some n ∧ n.storage = .uniform ∧ n.id = x

/-- In the course of a program for the nodes `here`, the nodes `seen` have been computed. -/
structure Holds (net : Network) (I : Interpretation V) (supplied : Store V)
    (here seen : Set Handle) (store : Store V) : Prop where
  within : ∀ h ∈ seen, h ≠ net.sink → h ∈ here
  kept : ∀ x, net.Supplied here x → store x = supplied x
  computed : ∀ h ∈ seen, h ≠ net.sink → ∀ n, net.node? h = some n →
    net.Denotes I supplied h (store n.variableName)

/-- Before any line, a store holds the values of no nodes. -/
theorem holds_sink (store : Store V) : net.Holds I store here {net.sink} store where
  within _ hh hne := absurd hh hne
  kept _ _ := rfl
  computed _ hh hne := absurd hh hne

/-- What the variables of the nodes hold. -/
def held (net : Network) (store : Store V) (h : Handle) : V :=
  match net.node? h with
  | some n => store n.variableName
  | none => store ""

/-- A live node holds its value in its variable. -/
theorem held_eq (hn : net.node? h = some n) : net.held store h = store n.variableName := by
  rw [held, hn]

/-- The expression of a link has the value that is read. -/
theorem convert_readLink (I : Interpretation V) (store : Store V) {name : String} {link : Link}
    {required : ValueType} {e : Expr}
    (he : net.readLink name link required = .ok e) :
    ∃ producer produced, net.node? link.producer = some producer
      ∧ producer.facetType link.facet = .ok produced
      ∧ I.convert? produced required (I.facet link.facet (store producer.variableName))
        = some (e.term.eval I store) := by
  obtain ⟨producer, produced, e₀, hp, ht, hfacet, hpromote⟩ := readLink_eq_ok.1 he
  refine ⟨producer, produced, hp, ht, ?_⟩
  rw [← Node.eval_facetExpr hfacet]
  exact eval_promote hpromote

/-- The expressions of the inputs have the values that are read. -/
theorem inputValue_held {input : Nat} {e? : Option Expr} (he : net.inputExpr n input = .ok e?) :
    net.inputValue I (net.held store) n input
      = some (e?.map fun e => e.term.eval I store) := by
  unfold inputValue
  rcases inputExpr_eq_ok he with ⟨hl, rfl⟩ | ⟨link, required, e, hl, htype, hread, rfl⟩
  · rw [hl]
    rfl
  · obtain ⟨producer, produced, hp, ht, hconvert⟩ := convert_readLink I store hread
    simp only [hl, hp, htype, ht, held_eq hp, hconvert]
    rfl

section Names

variable (hw : net.WellFormed) (hapart : net.NamesApart here) (hhere : ∀ x ∈ here, x ≠ net.sink)
include hw hhere

/-- The names of a node that feeds a stage are its own. -/
theorem free_of_mem (hh : h ∈ here) (hn : net.node? h = some n) :
    Free n.id ∧ Free n.variableName := by
  have hcheck := hw.check h n hn (hhere h hh)
  exact ⟨(Node.spelled_of_check hcheck).1, Node.free_variableName hcheck⟩

/-- The variables that are set for the slots are not those of any node. -/
theorem Holds.congr {store' : Store V} (hholds : net.Holds I supplied here seen store)
    (hstore : ∀ x, x ∉ outputNames → store' x = store x) :
    net.Holds I supplied here seen store' where
  within := hholds.within
  kept x hx := by
    -- What the renderer supplies has the name of a node or one that no line sets.
    have hno : x ∉ outputNames := by
      rcases hx with hx | ⟨k, hk, m, hm, -, rfl⟩
      · exact (inputNames_subset x hx).2
      · intro hout
        exact (free_of_mem hw hhere hk hm).1.not_mem_programNames (outputNames_subset _ hout)
    rw [hstore x hno, hholds.kept x hx]
  computed k hk hne m hm := by
    have hfree := (free_of_mem hw hhere (hholds.within k hk hne) hm).2
    have hno : m.variableName ∉ outputNames := fun hout =>
      hfree.not_mem_programNames (outputNames_subset _ hout)
    rw [hstore _ hno]
    exact hholds.computed k hk hne m hm

include hapart

/-- A node of the stage gets its value: no other node has its variable. -/
theorem Holds.record {v : V} (hholds : net.Holds I supplied here seen store) (hh : h ∈ here)
    (hn : net.node? h = some n) (hd : net.Denotes I supplied h v)
    (hown : n.kind = .texture ∨ n.storage = .inMain) :
    net.Holds I supplied here (insert h seen) (Function.update store n.variableName v) where
  within k hk hne := by
    rcases hk with rfl | hk
    · exact hh
    · exact hholds.within k hk hne
  kept x hx := by
    rw [Function.update_of_ne, hholds.kept x hx]
    rintro rfl
    rcases hx with hx | ⟨k, hk, m, hm, hstorage, hid⟩
    · exact (free_of_mem hw hhere hh hn).2.not_mem_programNames (inputNames_subset _ hx).1
    · -- A uniform of that name would be the node itself.
      obtain ⟨rfl, htexture⟩ := hapart.eq_of_id_eq hw hk hh hm hn hid
      obtain rfl := Option.some.inj (hn.symm.trans hm)
      rw [hown.resolve_left htexture] at hstorage
      cases hstorage
  computed k hk hne m hm := by
    -- Another node has another variable, since names are apart.
    by_cases hkh : k = h
    · subst hkh
      obtain rfl := Option.some.inj (hn.symm.trans hm)
      rw [Function.update_self]
      exact hd
    · have hk := hk.resolve_left hkh
      rw [Function.update_of_ne]
      · exact hholds.computed k hk hne m hm
      · intro hname
        exact not_namesApart hw (hholds.within k hk hne) hh hkh hm hn (.inr hname) (.inr rfl) hapart

/-- The statement of a node gives it its value, if its producers have theirs. -/
theorem Holds.statement {line? : Option Line} {events : List Event}
    (hholds : net.Holds I supplied here seen store) (hh : h ∈ here)
    (hread : ∀ q, net.Reads h q → q ∈ seen) (hs : net.statementOf h = .ok (line?, events)) :
    net.Holds I supplied here (insert h seen) (execute I (meantProgram line?.toList) store)
      ∧ ∀ x ∈ programNames, execute I (meantProgram line?.toList) store x = store x := by
  obtain ⟨n, inputs, hn, hstatement, hinputs⟩ := statementOf_eq_ok hs
  have hne := hhere h hh
  have hcheck := hw.check h n hn hne
  have hline : (n.statement inputs).1 = line? := (congrArg Prod.fst hstatement).symm
  have hvalues : ∀ input link, n.link? input = some link →
      net.Denotes I supplied link.producer (net.held store link.producer) := by
    intro input link hl
    have hreads := reads_of_link? hn hl
    obtain ⟨producer, hp⟩ := Option.isSome_iff_exists.1 (hw.isSome_of_reads hreads)
    rw [held_eq hp]
    exact hholds.computed _ (hread _ hreads) (hw.ne_sink_of_reads hreads) producer hp
  have huniform (hstorage : n.storage = .uniform) : store n.id = supplied n.id :=
    hholds.kept _ (.inr ⟨h, hh, n, hn, hstorage, rfl⟩)
  cases line? with
  | none =>
    -- Only a uniform has no statement, and its variable is set from the start.
    obtain ⟨value, hk, hstorage⟩ :=
      Node.uniform_of_statement hline (hw.isSink_eq_false hn hne)
    have hvalue : nodeValue I supplied n (net.inputValue I (net.held store) n)
        = some (store n.variableName) := by
      rw [Node.variableName_of_ne_texture (by simp [hk]), huniform hstorage]
      simp [nodeValue, hk, hstorage]
    refine ⟨⟨?_, hholds.kept, ?_⟩, fun _ _ => rfl⟩
    · exact fun k hk hne => hk.elim (fun heq => heq ▸ hh) fun hk => hholds.within k hk hne
    · intro k hk hne m hm
      rcases hk with rfl | hk
      · obtain rfl := Option.some.inj (hn.symm.trans hm)
        exact .node hn hvalues hvalue
      · exact hholds.computed k hk hne m hm
  | some l =>
    -- The expressions of the inputs have the values that the inputs read.
    have hinputs' : ∀ i < n.inputCount, net.inputValue I (net.held store) n i
        = some ((inputs[i]?).join.map fun e => e.term.eval I store) := by
      intro i hi
      obtain ⟨e?, hget, he⟩ := hinputs i hi
      rw [hget, inputValue_held he]
      rfl
    obtain ⟨s, v, hs, hv, hexec⟩ := Node.exec_statement hcheck hinputs' huniform
      (hholds.kept _ (.inl (by decide))) (hholds.kept _ (.inl (by decide))) hline
    have hprogram : execute I (meantProgram (some l).toList) store
        = Function.update store n.variableName v := by
      simp [meantProgram, execute, hs, hexec]
    rw [hprogram]
    refine ⟨hholds.record hw hapart hhere hh hn (.node hn hvalues hv)
      (Node.inMain_of_statement hcheck hline), fun x hx => Function.update_of_ne ?_ _ _⟩
    rintro rfl
    exact (free_of_mem hw hhere hh hn).2.not_mem_programNames hx

/-- The statements of some nodes give them their values, if they stand in the order of their
    dependence. -/
theorem Holds.computes {lines : List Line} (hp : Proceeds net here seen lines seen')
    (hholds : net.Holds I supplied here seen store) :
    net.Holds I supplied here seen' (execute I (meantProgram lines) store)
      ∧ ∀ x ∈ programNames, execute I (meantProgram lines) store x = store x := by
  -- Along the statements the set of computed nodes grows, and `Holds` goes over to the rest.
  induction hp generalizing store with
  | nil => exact ⟨hholds, fun _ _ => rfl⟩
  | cons hh _ hread hs _ ih =>
    obtain ⟨hfirst, hnames⟩ := hholds.statement hw hapart hhere hh hread hs
    obtain ⟨hrest, hnames'⟩ := ih hfirst
    rw [meantProgram, List.filterMap_append, execute_append]
    exact ⟨hrest, fun x hx => (hnames' x hx).trans (hnames x hx)⟩

end Names

/-! ### The lines of a plan -/

/-- Slots set what the program gives out. -/
theorem target_mem_outputNames (slot : Slot) : slot.target ∈ outputNames := by
  cases slot <;> decide +kernel

/-- No slot sets the colour that is put together at the end. -/
theorem target_ne_composite (slot : Slot) : slot.target ≠ "MaterialOut" := by
  cases slot <;> decide +kernel

/-- Each slot sets a variable of its own. -/
theorem target_injective : Function.Injective Slot.target := by
  intro slot slot' h
  cases slot <;> cases slot' <;> first | rfl | exact absurd h (by decide +kernel)

/-- Two groups of lines mean one program after the other. -/
theorem meantProgram_append (lines lines' : List Line) :
    meantProgram (lines ++ lines') = meantProgram lines ++ meantProgram lines' :=
  List.filterMap_append

/-- Announcements say nothing. -/
theorem meantProgram_announcement (slot : Slot) : meantProgram (net.announcement slot) = [] := by
  unfold announcement
  split <;> rfl

/-- What follows the assignment of a slot decodes a normal, and sets no other variable. -/
theorem exec_decoding (slot : Slot) (store : Store V) :
    execute I (meantProgram (decoding slot)) store slot.target
        = (if slot = .normal then I.decodeNormal (store "TBN") (store slot.target)
          else store slot.target)
      ∧ ∀ x, x ≠ slot.target → execute I (meantProgram (decoding slot)) store x = store x := by
  unfold decoding
  -- Only the normal is decoded; both of its lines set its own variable.
  split
  · rename_i hslot
    subst hslot
    have htangent : "TBN" ≠ Slot.normal.target := by decide +kernel
    refine ⟨?_, fun x hx => ?_⟩
    · simp [meantProgram, normalDecode, Line.statement?, execute, Statement.exec,
        Expr.eval_binary, Expr.eval_call, Expr.eval_select, Expr.eval_name, Expr.eval_real,
        Interpretation.decodeNormal, Function.update_of_ne htangent, Named.name]
    · refine execute_of_not_target I ?_ store
      simp [meantProgram, normalDecode, Line.statement?, Statement.target, hx.symm]
  · exact ⟨rfl, fun _ _ => rfl⟩

section Plan

variable (hw : net.WellFormed) (hacyclic : net.Acyclic) (hapart : net.NamesApart here)
  (hhere : ∀ x ∈ here, x ≠ net.sink) {sink : Node} (hs : net.node? net.sink = some sink)
include hw hacyclic hapart hhere hs

/-- One slot: after the statements of its producer and its own lines, its variable holds its value,
    and other variables of the program are as before. -/
theorem Holds.slot {slot : Slot} {link : Link} {out : List Handle} {body : List Line} {value : Expr}
    (hholds : net.Holds I supplied here seen store) (hl : sink.link? slot.index = some link)
    (hfeeds : ∀ x, net.DependsOn link.producer x → x ∈ here)
    (hvisits : Visits net seen [link.producer] out) (hbody : Computes net out body)
    (hvalue : net.readLink (Session.slotConsumer slot) link slot.type = .ok value) :
    ∃ store', execute I (meantProgram (body ++ .assign slot.target value :: decoding slot)) store
        = store'
      ∧ net.Holds I supplied here (seen ∪ {x | x ∈ out}) store'
      ∧ net.SlotDenotes I supplied slot (store' slot.target)
      ∧ ∀ x ∈ programNames, x ≠ slot.target → store' x = store x := by
  -- What has to be computed for the slot belongs to the stage.
  obtain ⟨hcomputed, hnames⟩ :=
    hholds.computes hw hapart hhere (hvisits.proceeds hw hacyclic hbody hfeeds)
  have hproducer : net.Denotes I supplied link.producer
      (net.held (execute I (meantProgram body) store) link.producer) := by
    have hreads := reads_of_link? hs hl
    obtain ⟨producer, hp⟩ := Option.isSome_iff_exists.1 (hw.isSome_of_reads hreads)
    rw [held_eq hp]
    exact hcomputed.computed _ (hvisits.covers _ (List.mem_singleton_self _))
      (hw.ne_sink_of_reads hreads) producer hp
  obtain ⟨producer, produced, hp, ht, hconvert⟩ :=
    convert_readLink I (execute I (meantProgram body) store) hvalue
  rw [held_eq hp] at hproducer
  rw [meantProgram_append, execute_append]
  -- From here on, only what holds of the contents after the statements matters.
  generalize execute I (meantProgram body) store = computed at *
  have hassign : execute I (meantProgram (.assign slot.target value :: decoding slot)) computed
      = execute I (meantProgram (decoding slot))
        (Function.update computed slot.target (value.term.eval I computed)) := rfl
  -- The assignment and the decoding set the slot's variable and no other.
  obtain ⟨hdecoded, hothers⟩ := exec_decoding (I := I) slot
    (Function.update computed slot.target (value.term.eval I computed))
  have hkept x (hx : x ≠ slot.target) : execute I (meantProgram (decoding slot))
      (Function.update computed slot.target (value.term.eval I computed)) x = computed x := by
    rw [hothers x hx, Function.update_of_ne hx]
  refine ⟨_, hassign, hcomputed.congr hw hhere fun x hx => hkept x ?_, ?_, fun x hx hne => ?_⟩
  · rintro rfl
    exact hx (target_mem_outputNames slot)
  · refine ⟨sink, link, producer, produced, _, _, hs, hl, hp, ht, hproducer, hconvert, ?_⟩
    have htangent : "TBN" ≠ slot.target := by cases slot <;> decide +kernel
    rw [hdecoded, Function.update_self, Function.update_of_ne htangent,
      hcomputed.kept _ (.inl (by decide))]
  · rw [hkept x hne, hnames x hx]

/-- After the lines of a plan, the variable of every slot that is fed holds the slot's value. -/
theorem Written.denotes {steps : List Step} {lines : List Line}
    (h : Written net sink seen steps lines) (hholds : net.Holds I supplied here seen store)
    (hfeeds : ∀ slot ∈ steps.filterMap Step.slot?, ∀ link, sink.link? slot.index = some link →
      ∀ x, net.DependsOn link.producer x → x ∈ here)
    (hnodup : (steps.filterMap Step.slot?).Nodup) :
    (∀ slot ∈ steps.filterMap Step.slot?, ∀ link, sink.link? slot.index = some link →
      net.SlotDenotes I supplied slot (execute I (meantProgram lines) store slot.target))
    ∧ ∀ x ∈ programNames, x ≠ "MaterialOut" → (∀ slot ∈ steps.filterMap Step.slot?,
      x ≠ slot.target) → execute I (meantProgram lines) store x = store x := by
  induction h generalizing store with
  | nil => exact ⟨nofun, fun _ _ _ _ => rfl⟩
  | @composite seen rest lines hrest ih =>
    -- The line sets a variable that is neither a slot's nor a node's.
    have hset x (hx : x ≠ "MaterialOut") :
        execute I (meantProgram [compositeLine]) store x = store x := by
      refine execute_of_not_target I ?_ store
      simp [meantProgram, compositeLine, Line.statement?, Statement.target, hx.symm]
    have hholds' : net.Holds I supplied here seen
        (execute I (meantProgram [compositeLine]) store) := by
      refine hholds.congr hw hhere fun x hx => hset x ?_
      rintro rfl
      exact hx (by decide +kernel)
    obtain ⟨hslots, hnames⟩ := ih hholds' hfeeds hnodup
    have hlines : meantProgram (compositeLine :: lines)
        = meantProgram [compositeLine] ++ meantProgram lines := meantProgram_append [_] lines
    rw [hlines, execute_append]
    exact ⟨hslots, fun x hx hne hslot => (hnames x hx hne hslot).trans (hset x hne)⟩
  | @unfed seen slot rest lines hl hrest ih =>
    rw [slots_cons] at hfeeds hnodup ⊢
    obtain ⟨hslots, hnames⟩ := ih hholds
      (fun slot' hslot' => hfeeds slot' (List.mem_cons_of_mem _ hslot')) hnodup.of_cons
    rw [meantProgram_append, meantProgram_announcement, List.nil_append]
    refine ⟨fun slot' hslot' link hlink => ?_, fun x hx hne hslot => ?_⟩
    · rcases List.mem_cons.1 hslot' with rfl | hslot'
      · rw [hl] at hlink
        cases hlink
      · exact hslots slot' hslot' link hlink
    · exact hnames x hx hne fun slot' hslot' => hslot slot' (List.mem_cons_of_mem _ hslot')
  | @fed seen slot rest link out body lines value hl hvisits hbody hvalue hrest ih =>
    rw [slots_cons] at hfeeds hnodup ⊢
    rw [meantProgram_append, meantProgram_announcement, List.nil_append, ← List.cons_append,
      ← List.append_assoc, meantProgram_append, execute_append]
    -- The slot's own lines give its variable its value, and the later lines leave it alone.
    obtain ⟨store', hstore', hholds', hvalue', hkept⟩ := hholds.slot hw hacyclic hapart hhere hs hl
      (hfeeds slot List.mem_cons_self link hl) hvisits hbody hvalue
    rw [hstore']
    obtain ⟨hslots, hnames⟩ := ih hholds'
      (fun slot' hslot' => hfeeds slot' (List.mem_cons_of_mem _ hslot')) hnodup.of_cons
    refine ⟨fun slot' hslot' link' hlink => ?_, fun x hx hne hslot => ?_⟩
    · rcases List.mem_cons.1 hslot' with rfl | hslot'
      · -- No later slot has the same variable.
        have hlater : ∀ slot ∈ rest.filterMap Step.slot?, slot'.target ≠ slot.target := by
          intro slot hslot htarget
          rw [target_injective htarget] at hnodup
          exact (List.nodup_cons.1 hnodup).1 hslot
        rw [hnames _ (outputNames_subset _ (target_mem_outputNames slot'))
          (target_ne_composite slot') hlater]
        exact hvalue'
      · exact hslots slot' hslot' link' hlink
    · rw [hnames x hx hne fun slot' hslot' => hslot slot' (List.mem_cons_of_mem _ hslot')]
      exact hkept x hx (hslot slot List.mem_cons_self)

end Plan

/-! ### Programs -/

/-- A link feeds the slot. -/
def Connected (net : Network) (slot : Slot) : Prop :=
  ∃ sink link, net.node? net.sink = some sink ∧ sink.link? slot.index = some link

/-- The plan of a stage names no slot twice. -/
theorem nodup_slots (stage : Stage) : stage.slots.Nodup := by
  cases stage <;> decide

/-- The body lines of an assembled program can be read in one way.  Executed in order, in any
    interpretation and from any contents of the variables, they leave in the variable of each
    connected slot of the stage exactly the value that the network gives the slot. -/
theorem Arises.lowering (h : net.Arises) {s s' : Session} (hs : s.Served net) {stage : Stage}
    {text : String} (hg : (Session.assemble net stage).Gives s text s') :
    ∃ body, (Session.writeStage net stage).Gives s body s'
      ∧ renderStage stage net.settings.version (s'.declarations.toList.map Declaration.text)
        (body.map Line.text) = .ok text
      ∧ (∃ program, MaterialNet.Reads (body.map Line.text) program)
      ∧ ∀ program, MaterialNet.Reads (body.map Line.text) program →
        ∀ {V : Type u} (I : Interpretation V) (contents : Store V) (slot : Slot),
          slot.stage = stage → net.Connected slot → ∀ v,
            net.SlotDenotes I contents slot v ↔ execute I program contents slot.target = v := by
  have hw := h.wellFormed
  obtain ⟨body, hwrite, hrender⟩ := Session.assemble_gives hg
  obtain ⟨hacyclic, sink, out, hsink, hvisits, howned, -, hwritten⟩ :=
    Session.writeStage_gives hw h.fits (hs.trustsAcyclic hw) hwrite
  -- The lines are legible, so they can be read, and only as what they mean.
  have hreads := reads_of_legible (hwritten.legible hw hsink rfl)
  refine ⟨body, hwrite, hrender, ⟨_, hreads⟩, fun program hprogram V I contents => ?_⟩
  obtain rfl := hreads.unique hprogram
  -- The declared nodes are those of the stage: they own their names, and the sink is not one.
  have hhere := hw.ne_sink_of_mem_visits hsink hvisits
  have hfeeds := hw.mem_visits_of_link? hsink hvisits
  obtain ⟨hslots, -⟩ := hwritten.denotes hw hacyclic howned.namesApart hhere hsink
    (holds_sink (I := I) contents) hfeeds (nodup_slots stage)
  rintro slot hslot ⟨sink', link, hsink', hl⟩ v
  obtain rfl := Option.some.inj (hsink.symm.trans hsink')
  have hdenotes := hslots slot ((slot.mem_slots stage).2 hslot) link hl
  constructor
  · exact hdenotes.unique
  · rintro rfl
    exact hdenotes

/-- A texture that feeds a slot and, through a function of one of its channels, another. -/
def sharedTexture : Network :=
  (new {}).run
    [.add ⟨"wood", .uniform, .texture, []⟩,
      .add ⟨"gloss", .inMain, .unary .oneMinus .float, []⟩,
      .connect ⟨3, 1⟩ ⟨⟨2, 1⟩, .r, 0⟩,
      .connectSlot .albedo ⟨2, 1⟩ .rgb,
      .connectSlot .roughness ⟨3, 1⟩ .value]

/-- The order of dependence: the texture, the function, the sink. -/
def sharedRank (h : Handle) : Nat := if h.place = 1 then 3 else h.place - 1

/-- Two slots share a texture: its sample is taken once, and both hold their values. -/
theorem lowering_sharedTexture :
    sharedTexture.Arises ∧ Session.Served sharedTexture .fresh
      ∧ sharedTexture.Connected .albedo ∧ sharedTexture.Connected .roughness
      ∧ ∃ text s, (Session.assemble sharedTexture .fragment).Gives .fresh text s
        ∧ ∃ body, (Session.writeStage sharedTexture .fragment).Gives .fresh body s
          ∧ renderStage .fragment sharedTexture.settings.version
            (s.declarations.toList.map Declaration.text) (body.map Line.text) = .ok text
          ∧ (∃ program, MaterialNet.Reads (body.map Line.text) program)
          ∧ ∀ program, MaterialNet.Reads (body.map Line.text) program →
            ∀ {V : Type} (I : Interpretation V) (contents : Store V) (slot : Slot),
              slot.stage = .fragment → sharedTexture.Connected slot → ∀ v,
                sharedTexture.SlotDenotes I contents slot v
                  ↔ execute I program contents slot.target = v := by
  have h : sharedTexture.Arises := (Arises.new {}).run (by decide +kernel)
  have hranked : sharedTexture.ranked sharedRank = true := by decide +kernel
  have hcompilable : sharedTexture.Compilable [.fragment] :=
    h.wellFormed.compilable (acyclic_of_ranked hranked) (by decide +kernel) _
  have hconnected slot (hslot : ((sharedTexture.node? sharedTexture.sink).bind fun sink =>
      sink.link? slot.index).isSome = true) : sharedTexture.Connected slot := by
    obtain ⟨link, hlink⟩ := Option.isSome_iff_exists.1 hslot
    obtain ⟨sink, hsink, hl⟩ := Option.bind_eq_some_iff.1 hlink
    exact ⟨sink, link, hsink, hl⟩
  obtain ⟨text, s, hg⟩ := hcompilable.exists_assemble h.wellFormed h.fits
  exact ⟨h, .fresh, hconnected _ (by decide +kernel), hconnected _ (by decide +kernel), text, s, hg,
    h.lowering .fresh hg⟩

end Network

end MaterialNet
