import MaterialNet.Proofs.Acyclic
import MaterialNet.Proofs.Alike
import MaterialNet.Proofs.Editing
import MaterialNet.Proofs.Portrait
import MaterialNet.Session.Program

namespace MaterialNet

/-!
# What compiling depends on

Compiling two networks that have one live part and one choice of settings goes through the same
steps, with twins in the place of one another.  So neither handles nor the order in which nodes and
links were made, nor nodes that feed no slot, show in the result.

* `Session.Matching` — two sessions that have come equally far
* `Session.assemble_alike`, `compile_alike` — both sessions go on in the same way
* `Network.Arises.compile_eq` — networks with one live part compile to the same
-/

namespace Network

variable {net net' : Network} {h h' : Handle} {n n' : Node}

/-! ### The same expressions -/

/-- The number of inputs depends on the kind. -/
theorem SameNode.inputCount (hs : SameNode net net' n n') : n.inputCount = n'.inputCount := by
  simp [Node.inputCount, hs.kind]

/-- The type of the value depends on the kind. -/
theorem SameNode.type? (hs : SameNode net net' n n') : n.type? = n'.type? := by
  simp [Node.type?, hs.kind]

/-- The variable of a node depends on its kind and its id. -/
theorem SameNode.variableName (hs : SameNode net net' n n') :
    n.variableName = n'.variableName := by
  simp [Node.variableName, hs.kind, hs.id]

/-- The type that an input is read as depends on the kind. -/
theorem SameNode.inputType? (hs : SameNode net net' n n') (input : Nat) :
    n.inputType? input = n'.inputType? input := by
  simp [Node.inputType?, hs.inputCount, hs.kind]

/-- The type of a part of the value depends on the kind. -/
theorem SameNode.facetType (hs : SameNode net net' n n') (facet : Facet) :
    n.facetType facet = n'.facetType facet := by
  simp [Node.facetType, hs.kind, hs.id, hs.type?]

/-- How a part of the value is read depends on the kind and the id. -/
theorem SameNode.facetExpr (hs : SameNode net net' n n') (facet : Facet) :
    n.facetExpr facet = n'.facetExpr facet := by
  simp [Node.facetExpr, hs.kind, hs.id, hs.variableName]

/-- The statement depends on what has been compared of two nodes, and on the inputs. -/
theorem SameNode.statement (hs : SameNode net net' n n') (inputs : List (Option Expr)) :
    n.statement inputs = n'.statement inputs := by
  simp [Node.statement, Node.operand, hs.kind, hs.id, hs.storage, hs.variableName]

section Twins

variable (hw : net.WellFormed) (hw' : net'.WellFormed) (hsame : SameLivePart net net')
include hw hw' hsame

/-- Links that read one facet of twins read as the same expression. -/
theorem readLink_twins {l l' : Link} (hfacet : l.facet = l'.facet)
    (ht : Twins net net' l.producer l'.producer) (consumer : String) (required : ValueType) :
    net.readLink consumer l required = net'.readLink consumer l' required := by
  obtain ⟨p, p', hp, hp', hs⟩ := ht.sameNode hw hw' hsame
  unfold readLink
  rw [get_eq_ok.2 hp, get_eq_ok.2 hp', hfacet]
  -- The lookups come to nodes that are the same, and the rest looks at these only.
  simp only [bind, Except.bind, hs.facetExpr, hs.facetType]

/-- An input that both nodes leave open, or feed from twins, reads as the same expression. -/
theorem inputExpr_twins (hs : SameNode net net' n n') (input : Nat) :
    net.inputExpr n input = net'.inputExpr n' input := by
  unfold inputExpr
  -- An input has a link in both networks or in neither.
  rcases hs.links input with ⟨hl, hl'⟩ | ⟨l, l', hl, hl', hfacet, ht⟩
  · rw [hl, hl']
  · rw [hl, hl', hs.inputType?, hs.id, hs.inputCount]
    simp only [readLink_twins hw hw' hsame hfacet ht]

/-- Twins have the same statement. -/
theorem statementOf_twins (ht : Twins net net' h h') : net.statementOf h = net'.statementOf h' := by
  obtain ⟨n, n', hn, hn', hs⟩ := ht.sameNode hw hw' hsame
  unfold statementOf
  rw [get_eq_ok.2 hn, get_eq_ok.2 hn']
  simp only [bind, Except.bind, hs.inputCount, hs.statement,
    funext fun input => inputExpr_twins hw hw' hsame hs input]

end Twins

end Network

namespace Session

open Network

variable {net net' : Network} {h h' : Handle} {n n' : Node}

/-- Two sessions that have come equally far with the two networks: the same has been recorded,
    with twins as the owners of names, and twins have been declared and computed. -/
structure Matching (net net' : Network) (s s' : Session) : Prop where
  stage : s.stage = s'.stage
  acyclic : s.acyclic = s'.acyclic
  evaluated : TwinSets net net' s.evaluated.members s'.evaluated.members
  declared : TwinSets net net' s.declared.members s'.declared.members
  owners : ∀ name : String, Option.Rel (Twins net net') s.owners[name]? s'.owners[name]?
  declarations : s.declarations = s'.declarations
  manifest : s.manifest = s'.manifest
  boundTextures : s.boundTextures = s'.boundTextures

/-- Nothing is marked in a new set, on either side. -/
theorem twinSets_empty : TwinSets net net' (Visited.members .empty) (Visited.members .empty) := by
  rw [Visited.members_empty]
  exact fun _ _ _ => Iff.rfl

/-- No name has an owner in a new session. -/
theorem owners_fresh (name : String) :
    Option.Rel (Twins net net') fresh.owners[name]? fresh.owners[name]? := by
  have hnone : fresh.owners[name]? = none := Std.TreeMap.getElem?_emptyc
  rw [hnone]
  exact .none

/-- New sessions have come equally far. -/
theorem matching_fresh : Matching net net' .fresh .fresh where
  stage := rfl
  acyclic := rfl
  evaluated := twinSets_empty
  declared := twinSets_empty
  owners := owners_fresh
  declarations := rfl
  manifest := rfl
  boundTextures := rfl

/-- Actions that go on in the same way from matching sessions. -/
abbrev Alike {α β : Type} (net net' : Network) (S : α → β → Prop) (x : Action Session α)
    (y : Action Session β) : Prop :=
  Action.Alike (Matching net net') S x y

section Twins

variable (hw : net.WellFormed) (hw' : net'.WellFormed)
include hw hw'

/-! ### Declaring -/

/-- A name is taken, already owned or refused in both sessions alike. -/
theorem takeName_alike (name : String) (ht : Twins net net' h h') :
    Alike net net' Eq (takeName name h) (takeName name h') := by
  unfold takeName
  refine Action.Alike.bind .getState fun s s' hm => ?_
  -- The name is free in both sessions, or twins own it.
  have hrel := hm.owners name
  cases ho : s.owners[name]? <;> cases ho' : s'.owners[name]? <;> rw [ho, ho'] at hrel
  · refine .setState { hm with owners := fun x => ?_ }
    simp only [Std.TreeMap.getElem?_insert]
    split
    · exact .some ht
    · exact hm.owners x
  · cases hrel
  · cases hrel
  · rename_i other other'
    cases hrel with
    | some hot =>
      -- The owner is the node itself in both sessions or in none.
      have hiff := hot.eq_iff hw hw' ht
      by_cases hx : other = h
      · simp only [if_pos hx, if_pos (hiff.1 hx)]
        exact .pure rfl
      · simp only [if_neg hx, if_neg (mt hiff.2 hx)]
        exact .lift_error _

/-- The same for the one or two names of a node. -/
theorem takeNames_alike (hs : SameNode net net' n n') (ht : Twins net net' h h') :
    Alike net net' Eq (takeNames n h) (takeNames n' h') := by
  unfold takeNames
  rw [hs.id, hs.variableName]
  refine Action.Alike.bind (takeName_alike hw hw' _ ht) fun _ _ _ => ?_
  split
  · exact .pure rfl
  · exact takeName_alike hw hw' _ ht

end Twins

/-- Twins have the same declaration. -/
theorem collect_alike (hs : SameNode net net' n n') :
    Alike net net' Eq (collect n) (collect n') := by
  unfold collect
  have hd : n.declaration? = n'.declaration? := by
    simp [Node.declaration?, hs.type?, hs.storage, hs.id]
  rw [hd]
  split
  · refine .modifyState fun s s' hm => ?_
    exact { hm with declarations := congrArg (Array.push · _) hm.declarations }
  · exact .pure rfl

/-- Twins are listed under one name, with one texture unit if the settings agree. -/
theorem listUniform_alike (hsettings : net.settings = net'.settings)
    (hs : SameNode net net' n n') :
    Alike net net' Eq (listUniform net n) (listUniform net' n') := by
  unfold listUniform
  refine Action.Alike.bind .getState fun s s' hm => ?_
  have hunit : nextUnit? net s = nextUnit? net' s' := by
    simp [nextUnit?, hsettings, hm.boundTextures]
  rw [hm.manifest, hs.id, hs.kind, hs.type?, hunit]
  -- A name that is in the manifest is passed over; what enters it depends on the kind and the next
  -- unit.
  split
  · exact .pure rfl
  · split
    · exact .pure rfl
    · split
      · exact .lift_error _
      · exact .setState
          { hm with manifest := rfl, boundTextures := congrArg (· + 1) hm.boundTextures }
    · exact .setState { hm with manifest := rfl }
    · exact .setState { hm with manifest := rfl }

section Twins

variable (hw : net.WellFormed) (hw' : net'.WellFormed) (hsame : SameLivePart net net')
include hw hw' hsame

/-- Looking up twins finds nodes that are the same. -/
theorem get_alike (ht : Twins net net' h h') :
    Alike net net' (SameNode net net') (Action.lift (net.get h)) (Action.lift (net'.get h')) := by
  obtain ⟨n, n', hn, hn', hs⟩ := ht.sameNode hw hw' hsame
  exact .lift_ok (get_eq_ok.2 hn) (get_eq_ok.2 hn') hs

/-- Two answers of a walk that list twins, and mark twins as seen. -/
def SameWalk (net net' : Network) (r r' : Array Handle × Visited) : Prop :=
  TwinLists net net' r.1.toList r'.1.toList ∧ TwinSets net net' r.2.members r'.2.members

/-- Walks from twins, around sets of twins, list twins in one order. -/
theorem postOrder_alike (ht : Twins net net' h h') {visited visited' : Visited}
    (hv : TwinSets net net' visited.members visited'.members) :
    Alike net net' (SameWalk net net') (Action.lift (net.postOrder h visited))
      (Action.lift (net'.postOrder h' visited')) := by
  obtain ⟨found, found', visited₁, visited₁', hp, hp', hfound, hvisited⟩ :=
    postOrder_twins hw hw' hsame hv ht
  exact .lift_ok hp hp' ⟨hfound, hvisited⟩

section Declaring

variable (hsettings : net.settings = net'.settings)
include hsettings

/-- Twins are declared alike. -/
theorem declareNode_alike (ht : Twins net net' h h') :
    Alike net net' Eq (declareNode net h) (declareNode net' h') := by
  unfold declareNode
  refine Action.Alike.bind (get_alike hw hw' hsame ht) fun n n' hs => ?_
  refine Action.Alike.bind (takeNames_alike hw hw' hs ht) fun _ _ _ => ?_
  refine Action.Alike.bind (collect_alike hs) fun _ _ _ => ?_
  rw [hs.storage]
  split
  · exact listUniform_alike hsettings hs
  · exact .pure rfl

/-- Lists of twins are declared alike. -/
theorem declareNodes_alike {out out' : List Handle} (ht : TwinLists net net' out out') :
    Alike net net' Eq (declareNodes net out) (declareNodes net' out') := by
  -- Along the pairs of twins.
  induction ht with
  | nil => exact .pure rfl
  | cons hx _ ih =>
    exact Action.Alike.bind (declareNode_alike hw hw' hsame hsettings hx) fun _ _ _ => ih

/-- What stands above twins is declared alike. -/
theorem declare_alike (ht : Twins net net' h h') :
    Alike net net' Eq (declare net h) (declare net' h') := by
  unfold declare
  refine Action.Alike.bind .getState fun s s' hm => ?_
  refine Action.Alike.bind (postOrder_alike hw hw' hsame ht hm.declared) fun r r' hr => ?_
  refine Action.Alike.bind (.setState { hm with declared := hr.2 }) fun _ _ _ => ?_
  exact declareNodes_alike hw hw' hsame hsettings hr.1

/-- The slots of the two sinks are fed by twins or not at all, so they are declared alike. -/
theorem declareSlots_alike (hs : SameNode net net' n n') (slots : List Slot) :
    Alike net net' Eq (declareSlots net n slots) (declareSlots net' n' slots) := by
  induction slots with
  | nil => exact .pure rfl
  | cons slot rest ih =>
    refine Action.Alike.bind (S := Eq) ?_ fun _ _ _ => ih
    unfold declareSlot
    -- A slot without a link declares nothing; with one, what stands above twins.
    rcases hs.links slot.index with ⟨hl, hl'⟩ | ⟨l, l', hl, hl', -, ht⟩
    · rw [hl, hl']
      exact .pure rfl
    · rw [hl, hl']
      exact declare_alike hw hw' hsame hsettings ht

end Declaring

/-! ### Writing -/

/-- Lists of twins have the same statements. -/
theorem statements_alike {out out' : List Handle} (ht : TwinLists net net' out out') :
    Alike net net' Eq (statements net out) (statements net' out') := by
  -- Along the pairs of twins: the statements of a pair are one statement.
  induction ht with
  | nil => exact .pure rfl
  | cons hx _ ih =>
    unfold statements
    rw [statementOf_twins hw hw' hsame hx]
    refine Action.Alike.bind (.lift _) ?_
    rintro ⟨line?, events⟩ _ rfl
    refine Action.Alike.bind (.note _ _) fun _ _ _ => ?_
    refine Action.Alike.bind ih ?_
    rintro lines _ rfl
    exact .pure rfl

/-- What twins still need is computed by the same statements. -/
theorem visit_alike (ht : Twins net net' h h') :
    Alike net net' Eq (visit net h) (visit net' h') := by
  unfold visit
  refine Action.Alike.bind .getState fun s s' hm => ?_
  refine Action.Alike.bind (postOrder_alike hw hw' hsame ht hm.evaluated) fun r r' hr => ?_
  refine Action.Alike.bind (.setState { hm with evaluated := hr.2 }) fun _ _ _ => ?_
  exact statements_alike hw hw' hsame hr.1

/-- A slot is set by the same lines. -/
theorem slotLines_alike (hs : SameNode net net' n n') (slot : Slot) :
    Alike net net' Eq (slotLines net n slot) (slotLines net' n' slot) := by
  unfold slotLines
  -- An open slot is passed over in both; a fed one is computed from twins.
  rcases hs.links slot.index with ⟨hl, hl'⟩ | ⟨l, l', hl, hl', hfacet, ht⟩
  · rw [hl, hl']
    exact Action.Alike.bind (.note _ _) fun _ _ _ => .pure rfl
  · rw [hl, hl']
    refine Action.Alike.bind (visit_alike hw hw' hsame ht) ?_
    rintro body _ rfl
    rw [readLink_twins hw hw' hsame hfacet ht]
    refine Action.Alike.bind (.lift _) ?_
    rintro value _ rfl
    exact .pure rfl

variable (hsettings : net.settings = net'.settings)
include hsettings

/-- A plan is written as the same lines. -/
theorem planLines_alike (hs : SameNode net net' n n') (steps : List Step) :
    Alike net net' Eq (planLines net n steps) (planLines net' n' steps) := by
  induction steps with
  | nil => exact .pure rfl
  | cons step rest ih =>
    refine Action.Alike.bind (S := Eq) ?_ ?_
    · cases step with
      | composite => exact .pure rfl
      | slot slot =>
        refine Action.Alike.bind (slotLines_alike hw hw' hsame hs slot) ?_
        rintro lines _ rfl
        rw [hsettings]
        exact .pure rfl
    · rintro lines _ rfl
      refine Action.Alike.bind ih ?_
      rintro others _ rfl
      exact .pure rfl

/-! ### Whole programs -/

variable (hacyclic : net.Acyclic) (hacyclic' : net'.Acyclic)
include hacyclic hacyclic'

omit hsame hsettings in
/-- Neither network has a cycle, so both searches end well. -/
theorem ensureAcyclic_alike : Alike net net' Eq (ensureAcyclic net) (ensureAcyclic net') := by
  unfold ensureAcyclic
  refine Action.Alike.bind .getState fun s s' hm => ?_
  rw [hm.acyclic]
  split
  · exact .pure rfl
  · refine Action.Alike.bind (.lift_ok (S := Eq) (hw.checkAcyclic_eq_ok_iff.2 hacyclic)
      (hw'.checkAcyclic_eq_ok_iff.2 hacyclic') rfl) fun _ _ _ => ?_
    exact .setState { hm with acyclic := rfl }

/-- The sinks evaluate to the same lines. -/
theorem evaluate_sink_alike :
    Alike net net' Eq (evaluate net net.sink) (evaluate net' net'.sink) := by
  unfold evaluate
  refine Action.Alike.bind (ensureAcyclic_alike hw hw' hacyclic hacyclic') fun _ _ _ => ?_
  refine Action.Alike.bind (get_alike hw hw' hsame (twins_sink hw hw')) fun n n' hs => ?_
  rw [show n.isSink = n'.isSink by simp [Node.isSink, hs.kind]]
  split
  · refine Action.Alike.bind .getState fun s s' hm => ?_
    have hiff := hm.evaluated _ _ (twins_sink hw hw')
    simp only [Visited.mem_members] at hiff
    by_cases hc : s.evaluated.contains net.sink = true
    · rw [if_pos hc, if_pos (hiff.1 hc)]
      exact .pure rfl
    · rw [if_neg hc, if_neg (mt hiff.2 hc), show plan s.stage = plan s'.stage by rw [hm.stage]]
      have hset : TwinSets net net' (Visited.members (s.evaluated.insert net.sink))
          (Visited.members (s'.evaluated.insert net'.sink)) := by
        rw [Visited.members_insert, Visited.members_insert]
        exact hm.evaluated.insert hw hw' (twins_sink hw hw')
      refine Action.Alike.bind (.setState { hm with evaluated := hset }) fun _ _ _ => ?_
      exact planLines_alike hw hw' hsame hsettings hs _
  · exact visit_alike hw hw' hsame (twins_sink hw hw')

/-- The body of a stage is written as the same lines. -/
theorem writeStage_alike (stage : Stage) :
    Alike net net' Eq (writeStage net stage) (writeStage net' stage) := by
  unfold writeStage
  refine Action.Alike.bind (ensureAcyclic_alike hw hw' hacyclic hacyclic') fun _ _ _ => ?_
  refine Action.Alike.bind (.modifyState fun s s' hm => ?_) fun _ _ _ => ?_
  · -- Entering a stage keeps the manifest and the bound textures and empties all else.
    exact
      { hm with
        stage := rfl
        evaluated := twinSets_empty
        declared := twinSets_empty
        owners := owners_fresh
        declarations := rfl }
  refine Action.Alike.bind (get_alike hw hw' hsame (twins_sink hw hw')) fun n n' hs => ?_
  refine Action.Alike.bind (declareSlots_alike hw hw' hsame hsettings hs _) fun _ _ _ => ?_
  refine Action.Alike.bind
    (evaluate_sink_alike hw hw' hsame hsettings hacyclic hacyclic') ?_
  rintro body _ rfl
  refine Action.Alike.bind .getState fun s s' hm => ?_
  refine Action.Alike.bind (.note _ _) fun _ _ _ => ?_
  exact .pure rfl

/-- A stage is assembled to the same text, or refused for the same part that is missing. -/
theorem assemble_alike (stage : Stage) :
    Alike net net' Eq (assemble net stage) (assemble net' stage) := by
  unfold assemble
  refine Action.Alike.bind (writeStage_alike hw hw' hsame hsettings hacyclic hacyclic' stage) ?_
  rintro body _ rfl
  refine Action.Alike.bind .getState fun s s' hm => ?_
  rw [hsettings, hm.declarations]
  split
  · exact .pure rfl
  · exact .lift_error _

/-- Both stages are assembled alike, and the manifests agree at the end. -/
theorem compile_alike : Alike net net' Eq (compile net) (compile net') := by
  unfold compile
  refine Action.Alike.bind (ensureAcyclic_alike hw hw' hacyclic hacyclic') fun _ _ _ => ?_
  have hassemble := assemble_alike hw hw' hsame hsettings hacyclic hacyclic'
  refine Action.Alike.bind (hassemble .vertex) ?_
  rintro vertex _ rfl
  refine Action.Alike.bind (hassemble .fragment) ?_
  rintro fragment _ rfl
  refine Action.Alike.bind .getState fun s s' hm => ?_
  refine Action.Alike.bind (.note _ _) fun _ _ _ => ?_
  rw [hm.manifest]
  exact .pure rfl

end Twins

end Session

namespace Network

/-- Networks without cycles that have one live part and the same settings compile to the same
    texts and manifest, or are refused with the same fault. -/
theorem Arises.compile_eq {net net' : Network} (h : net.Arises) (h' : net'.Arises)
    (hacyclic : net.Acyclic) (hacyclic' : net'.Acyclic) (hsettings : net.settings = net'.settings)
    (hsame : SameLivePart net net') : net.compile.result = net'.compile.result :=
  (Session.compile_alike h.wellFormed h'.wellFormed hsame hsettings hacyclic hacyclic').result_eq
    Session.matching_fresh

/-- A constant that feeds a function, which feeds two slots. -/
def plainHistory : Network :=
  (new {}).run
    [.add ⟨"gain", .inMain, .constant (.float .one), []⟩,
      .add ⟨"bend", .inMain, .binary .multiply .float, []⟩,
      .connect ⟨3, 1⟩ ⟨⟨2, 1⟩, .value, 0⟩,
      .connect ⟨3, 1⟩ ⟨⟨2, 1⟩, .value, 1⟩,
      .connectSlot .metallic ⟨3, 1⟩ .value,
      .connectSlot .albedo ⟨2, 1⟩ .value]

/-- The same material made in another order, on a place that has been used before, with a slot
    that has been rewired and with a sampler that feeds nothing. -/
def windingHistory : Network :=
  (new {}).run
    [.add ⟨"draft", .uniform, .texture, []⟩,
      .add ⟨"bend", .inMain, .binary .multiply .float, []⟩,
      .connectSlot .albedo ⟨2, 1⟩ .rgb,
      .remove ⟨2, 1⟩,
      .add ⟨"gain", .inMain, .constant (.float .one), []⟩,
      .add ⟨"spare", .uniform, .texture, []⟩,
      .connectSlot .albedo ⟨4, 1⟩ .r,
      .connectSlot .albedo ⟨2, 3⟩ .value,
      .connectSlot .metallic ⟨3, 1⟩ .value,
      .connect ⟨3, 1⟩ ⟨⟨2, 3⟩, .value, 1⟩,
      .connect ⟨3, 1⟩ ⟨⟨2, 3⟩, .value, 0⟩]

/-- The order of dependence in both histories: the constant, the function, the sink. -/
def historyRank (h : Handle) : Nat := if h.place = 1 then 3 else if h.place = 3 then 2 else 1

/-- Two ways to one material: a place has been used again, a slot rewired, the links made in another
    order, and a sampler left over. -/
theorem compile_eq_histories :
    plainHistory.Arises ∧ windingHistory.Arises ∧ plainHistory.Acyclic ∧ windingHistory.Acyclic
      ∧ SameLivePart plainHistory windingHistory
      ∧ plainHistory.compile.result = windingHistory.compile.result := by
  have h : plainHistory.Arises := (Arises.new {}).run (by decide +kernel)
  have h' : windingHistory.Arises := (Arises.new {}).run (by decide +kernel)
  -- Every link leads to a lower rank, so there is no cycle.
  have hranked : plainHistory.ranked historyRank = true := by decide +kernel
  have hranked' : windingHistory.ranked historyRank = true := by decide +kernel
  have hacyclic := acyclic_of_ranked hranked
  have hacyclic' := acyclic_of_ranked hranked'
  -- The pairs of handles that stand for one node; the spare sampler is in none.
  have hpairs : pairs plainHistory windingHistory
      [(⟨1, 1⟩, ⟨1, 1⟩), (⟨3, 1⟩, ⟨3, 1⟩), (⟨2, 1⟩, ⟨2, 3⟩)] = true := by decide +kernel
  have hsame : SameLivePart plainHistory windingHistory :=
    (pairing_of_pairs h.wellFormed h'.wellFormed hpairs).sameLivePart h.wellFormed h'.wellFormed
  exact ⟨h, h', hacyclic, hacyclic', hsame,
    h.compile_eq h' hacyclic hacyclic' (by decide +kernel) hsame⟩

end Network

end MaterialNet
