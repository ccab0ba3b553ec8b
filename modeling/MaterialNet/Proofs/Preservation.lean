import MaterialNet.Proofs.Emission
import MaterialNet.Proofs.Typing

namespace MaterialNet

/-!
# Programs are well typed

What a node computes has the type of its variable, whatever is connected to it: a link is read as
the type that its input needs, or the stage is refused.  The scope of a line is what the template
and the declarations say, together with the samples of the lines before.  `Network.Typable` says
what it holds when some nodes have been computed; each statement keeps it.

* `Node.nodeValue_typing` — the type of what a node computes
* `Node.Wired` — no operand of a function of vectors is left without a link
* `Network.Typable` — what the scope of a line holds
* `Network.Written.wellTyped` — the lines of a plan
* `Network.Arises.typed` — the programs of a network
-/

/-! ### What a node computes -/

namespace Node

variable {n : Node} {fills : Bool} {t : ValueType}

/-- The type of the variable that holds what a node computes. -/
def variableType? (n : Node) : Option ValueType :=
  if n.kind = .texture then some .vec4 else n.type?

/-- Only the whole value of a node that is no texture has a type. -/
theorem facetType_eq_ok {facet : Facet} (hk : n.kind ≠ .texture) (h : n.facetType facet = .ok t) :
    facet = .value ∧ n.type? = some t := by
  unfold facetType at h
  split at h
  case h_8 =>
    split at h
    · obtain rfl := Except.ok.inj h
      exact ⟨rfl, ‹_›⟩
    · cases h
  all_goals first
    | exact absurd ‹_› hk
    | cases h

/-- A facet that is read from the variable has the type of the facet. -/
theorem facet_typing {facet : Facet} {produced : ValueType} (h : n.facetType facet = .ok produced)
    (ht : n.variableType? = some t) :
    (typing fills).facet facet (some t.shaderType) = some produced.shaderType := by
  by_cases hk : n.kind = .texture
  · rw [variableType?, if_pos hk] at ht
    obtain rfl := Option.some.inj ht
    unfold facetType at h
    rw [hk] at h
    cases facet <;> cases h <;> rfl
  · rw [variableType?, if_neg hk] at ht
    obtain ⟨rfl, htype⟩ := facetType_eq_ok hk h
    obtain rfl := Option.some.inj (ht.symm.trans htype)
    rfl

/-- The type of the operands of a function. -/
def operandType? (n : Node) : Option ValueType :=
  match n.kind with
  | .unary _ type | .binary _ type => some type
  | _ => none

/-- If the node is a function of vectors, all its operands have links. -/
def Wired (n : Node) : Prop :=
  ∀ t, n.operandType? = some t → t ≠ .float → ∀ i < n.inputCount, n.link? i ≠ none

/-- What a node reads at its inputs: values of the inputs' types, or nothing where the node does
    without or the zero of the type can be written. -/
structure Feeds (n : Node) (fills : Bool) (input : Nat → Option (Option (Option ShaderType))) :
    Prop where
  typed : ∀ i < n.inputCount, ∀ v, input i = some (some v) →
    ∃ required, n.inputType? i = some required ∧ v = some required.shaderType
  wired : fills = true ∨ ∀ t, n.operandType? = some t → t ≠ .float →
    ∀ i < n.inputCount, input i ≠ some none

section Inputs

variable {input : Nat → Option (Option (Option ShaderType))} {i : Nat}
  {v? : Option (Option ShaderType)}

/-- An input has its type, if what is read instead of a missing link has it. -/
theorem Feeds.read (h : n.Feeds fills input) (hi : input i = some v?)
    (ht : n.inputType? i = some t) {instead : Option ShaderType}
    (hinstead : i < n.inputCount → input i = some none → instead = some t.shaderType) :
    v?.getD instead = some t.shaderType := by
  have hcount : i < n.inputCount := by
    unfold inputType? at ht
    split at ht
    · assumption
    · cases ht
  cases v? with
  | none => exact hinstead hcount hi
  | some v =>
    obtain ⟨required, hrequired, rfl⟩ := h.typed i hcount v hi
    rw [Option.some.inj (ht.symm.trans hrequired)]
    rfl

/-- An operand of a function of vectors has its type, whether it is read or filled in. -/
theorem Feeds.operand (h : n.Feeds fills input) (hi : input i = some v?)
    (ht : n.inputType? i = some t) (hoperand : n.operandType? = some t)
    (hvector : t.isFloatVector = true) :
    v?.getD ((typing fills).zero t) = some t.shaderType := by
  refine h.read hi ht fun hcount hnone => ?_
  refine Interpretation.zero_typing hvector (h.wired.imp_right fun hwired => ?_)
  by_contra hne
  exact hwired t hoperand hne i hcount hnone

end Inputs

/-- What a sound node computes has the type of its variable. -/
theorem nodeValue_typing {supplied : Store (Option ShaderType)} {v : Option ShaderType}
    {input : Nat → Option (Option (Option ShaderType))} (hflaw : n.flaw? = none)
    (hplain : ∀ t, n.type? = some t → t.isFloatVector = true ∨ t = .texture)
    (hstored : n.kind = .texture ∨ n.storage = .inMain)
    (hid : n.kind = .texture → supplied n.id = some .sampler)
    (huv : supplied "TexCoords" = some (.vector 2)) (htime : supplied "u_Time" = some (.vector 1))
    (hinputs : n.Feeds fills input)
    (hv : Network.nodeValue (typing fills) supplied n input = some v) :
    ∃ t, n.variableType? = some t ∧ v = some t.shaderType := by
  unfold Network.nodeValue at hv
  unfold flaw? at hflaw
  -- The kinds go one by one; what a kind reads has its type, so what it computes has one, too.
  cases hk : n.kind with
  | constant value =>
    simp only [hk] at hv
    have hstorage : n.storage = .inMain := hstored.resolve_left (by simp [hk])
    rw [hstorage] at hv
    have htype : n.type? = some value.type := by simp [type?, hk]
    refine ⟨value.type, by rw [variableType?, if_neg (by simp [hk]), htype], ?_⟩
    have hvector := (hplain _ htype).resolve_right (by cases value <;> simp [Constant.type])
    rw [← Option.some.inj hv]
    exact Interpretation.constant_typing hvector
  | texture =>
    simp only [hk] at hv
    obtain ⟨uv, hi, rfl⟩ := Option.map_eq_some_iff.1 hv
    have hrequired : n.inputType? 0 = some .vec2 := by simp [inputType?, inputCount, hk]
    have hcoordinates := hinputs.read hi hrequired fun _ _ => huv
    refine ⟨.vec4, by rw [variableType?, if_pos hk], ?_⟩
    rw [hid hk, hcoordinates]
    rfl
  | panner speedX speedY =>
    simp only [hk] at hv
    obtain ⟨uv, hi, rfl⟩ := Option.map_eq_some_iff.1 hv
    have hrequired : n.inputType? 0 = some .vec2 := by simp [inputType?, inputCount, hk]
    have hcoordinates := hinputs.read hi hrequired fun _ _ => huv
    refine ⟨.vec2, by simp [variableType?, type?, hk], ?_⟩
    rw [hcoordinates, htime, Interpretation.constant_typing rfl]
    rfl
  | unary fn type =>
    simp only [hk] at hv hflaw
    have htype := (inMain_of_flaw hflaw).2
    obtain ⟨x, hi, rfl⟩ := Option.map_eq_some_iff.1 hv
    have hrequired : n.inputType? 0 = some type := by simp [inputType?, inputCount, hk]
    have hx := hinputs.operand hi hrequired (by simp [operandType?, hk]) htype
    refine ⟨type, by simp [variableType?, type?, hk], ?_⟩
    rw [hx, Interpretation.unary_typing fn htype]
  | binary fn type =>
    simp only [hk] at hv hflaw
    have htype := (inMain_of_flaw hflaw).2
    obtain ⟨x, hi, hv⟩ := Option.bind_eq_some_iff.1 hv
    obtain ⟨y, hi', rfl⟩ := Option.map_eq_some_iff.1 hv
    have hrequired : n.inputType? 0 = some type := by simp [inputType?, inputCount, hk]
    have hrequired' : n.inputType? 1 = some type := by simp [inputType?, inputCount, hk]
    have hoperand : n.operandType? = some type := by simp [operandType?, hk]
    have hx := hinputs.operand hi hrequired hoperand htype
    have hy := hinputs.operand hi' hrequired' hoperand htype
    refine ⟨type, by simp [variableType?, type?, hk], ?_⟩
    rw [hx, hy, Interpretation.binary_typing fn htype]
  | sink =>
    simp only [hk] at hv
    cases hv

end Node

/-! ### What the template declares -/

/-- What a declaration says of its name. -/
def Declaration.binding (d : Declaration) : Binding :=
  ⟨d.storage = .uniform, d.type.keyword, d.name⟩

/-- The variable of a slot is declared with the type of the slot. -/
theorem Slot.binding_mem (slot : Slot) :
    ⟨false, slot.type.keyword, slot.target⟩ ∈ slot.stage.bindings := by
  cases slot <;> decide +kernel

/-- The coordinates, the time and the tangent space are declared in both programs. -/
theorem Stage.bindings_inputs (stage : Stage) : ⟨false, "vec2", "TexCoords"⟩ ∈ stage.bindings
    ∧ ⟨true, "float", "u_Time"⟩ ∈ stage.bindings ∧ ⟨false, "mat3", "TBN"⟩ ∈ stage.bindings := by
  cases stage <;> decide +kernel

theorem materialOut_mem : ⟨false, "vec4", "MaterialOut"⟩ ∈ Stage.fragment.bindings := by
  decide +kernel

/-- The scope in which the body lines of a program begin. -/
def Stage.scope (stage : Stage) (declarations : List String) : List Binding :=
  stage.bindings ++ declarations.flatMap fun text => MaterialNet.bindings (programTokens text)

/-- The text of a declaration declares what it says. -/
theorem Declaration.bindings_text {d : Declaration} (h : isWord d.name = true) :
    MaterialNet.bindings (programTokens d.text) = [d.binding] := by
  have hword : d.type.keyword ∈ typeWords := by cases d.type <;> decide +kernel
  obtain ⟨hkeyword, k, ks, hk, -⟩ := spells_of_isWord (w := d.type.keyword)
    (by cases d.type <;> decide +kernel)
  obtain ⟨hname, c, cs, hc, -⟩ := spells_of_isWord h
  have hblank : Spells [' '] [] .blank := ⟨_, rfl, rfl⟩
  have hsemicolon : Spells [';'] [.sign ';'] (.sign ';') := spells_sign (by decide)
  have htail := hname.append hsemicolon (endsAt_word (by decide))
  rw [hc] at htail
  have hrest := hkeyword.append (c := ' ') (hblank.append htail rfl) (endsAt_word (by decide))
  -- A uniform has one more word in front.
  cases hstorage : d.storage with
  | inMain =>
    have htext : d.text.toList = d.type.keyword.toList ++ ' ' :: c :: (cs ++ [';']) := by
      simp [text, hstorage, hc]
    have htokens := tokensOf_of_tokens? (tokens?_of_spells htext hrest)
      (htext ▸ hrest.newline_not_mem nofun)
    rw [programTokens, htokens]
    simp [MaterialNet.bindings, bindingsAfter, binding?, binding, hstorage, hword]
  | uniform =>
    rw [hk] at hrest
    obtain ⟨huniform, -⟩ := spells_of_isWord (w := "uniform") (by decide +kernel)
    have hall := huniform.append (c := ' ') (hblank.append hrest rfl) (endsAt_word (by decide))
    have htext : d.text.toList
        = "uniform".toList ++ ' ' :: k :: (ks ++ ' ' :: c :: (cs ++ [';'])) := by
      simp [text, hstorage, hc, hk]
    have htokens := tokensOf_of_tokens? (tokens?_of_spells htext hall)
      (htext ▸ hall.newline_not_mem nofun)
    have hqualifier : "uniform" ∉ typeWords := by decide +kernel
    rw [programTokens, htokens]
    simp [MaterialNet.bindings, bindingsAfter, binding?, binding, hstorage, hqualifier, hword]

namespace Network

variable {net : Network} {stage : Stage} {here seen seen' : Set Handle} {scope : List Binding}
  {h : Handle} {n : Node} {out : List Handle} {lines : List Line} {fills : Bool}

/-! ### The scope of a line -/

/-- The types of the expressions that a node reads at its inputs. -/
def typesOf (fills : Bool) (scope : List Binding) (inputs : List (Option Expr)) (i : Nat) :
    Option (Option (Option ShaderType)) :=
  some ((inputs[i]?).join.map fun e => e.term.eval (typing fills) (typesIn scope))

/-- In a program for the nodes `here`, of which the nodes `seen` have been computed, a scope holds
    what the template declares before the body, the declarations of the nodes, and the samples of
    the textures that have been computed. -/
structure Typable (net : Network) (stage : Stage) (here seen : Set Handle)
    (scope : List Binding) : Prop where
  within : ∀ h ∈ seen, h ≠ net.sink → h ∈ here
  program : ∀ b ∈ stage.bindings, lookup scope b.name = some b
  declared : ∀ h ∈ here, ∀ n d, net.node? h = some n → n.declaration? = some d →
    lookup scope d.name = some d.binding
  sampled : ∀ h ∈ seen, h ≠ net.sink → ∀ n, net.node? h = some n → n.kind = .texture →
    lookup scope n.variableName = some ⟨false, "vec4", n.variableName⟩
  fresh : ∀ h ∈ here, h ∉ seen → ∀ n, net.node? h = some n → n.kind = .texture →
    lookup scope n.variableName = none

namespace Typable

/-- What the template declares has its type in scope. -/
theorem typesIn_program (hs : net.Typable stage here seen scope) {b : Binding}
    (hb : b ∈ stage.bindings) : typesIn scope b.name = ShaderType.ofWord? b.type := by
  rw [typesIn, hs.program b hb]
  rfl

/-- The variable of a node has the type of its value in scope. -/
theorem typesIn_id (hs : net.Typable stage here seen scope) (hh : h ∈ here)
    (hn : net.node? h = some n) {t : ValueType} (ht : n.type? = some t) :
    typesIn scope n.id = some t.shaderType := by
  have hd : n.declaration? = some ⟨n.storage, t, n.id⟩ := by rw [Node.declaration?, ht]; rfl
  have hlookup := hs.declared h hh n _ hn hd
  rw [typesIn, hlookup]
  exact ShaderType.ofWord?_keyword t

variable (hw : net.WellFormed)
include hw

/-- The variable of a node that has been computed has its type. -/
theorem typesIn_variable (hs : net.Typable stage here seen scope) (hh : h ∈ seen)
    (hne : h ≠ net.sink) (hn : net.node? h = some n) :
    ∃ t, n.variableType? = some t ∧ typesIn scope n.variableName = some t.shaderType := by
  by_cases hk : n.kind = .texture
  · refine ⟨.vec4, by rw [Node.variableType?, if_pos hk], ?_⟩
    rw [typesIn, hs.sampled h hh hne n hn hk]
    rfl
  · obtain ⟨t, ht⟩ :=
      Option.isSome_iff_exists.1 (Node.isSome_type? (hw.isSink_eq_false hn hne))
    refine ⟨t, by rw [Node.variableType?, if_neg hk, ht], ?_⟩
    rw [Node.variableName_of_ne_texture hk]
    exact hs.typesIn_id (hs.within h hh hne) hn ht

/-- A link of a computed node is read as the type that is needed. -/
theorem link (hs : net.Typable stage here seen scope) {name : String} {link : Link}
    {required : ValueType} {e : Expr} (he : net.readLink name link required = .ok e)
    (hseen : link.producer ∈ seen) (hne : link.producer ≠ net.sink) :
    e.term.eval (typing fills) (typesIn scope) = some required.shaderType := by
  obtain ⟨producer, produced, hp, hfacet, hconvert⟩ :=
    convert_readLink (typing fills) (typesIn scope) he
  obtain ⟨t, ht, hvariable⟩ := hs.typesIn_variable hw hseen hne hp
  rw [hvariable, Node.facet_typing hfacet ht] at hconvert
  exact Interpretation.convert?_typing hconvert

/-- The inputs of a node are read as their types, if the nodes at their other ends have been
    computed. -/
theorem feeds (hs : net.Typable stage here seen scope) (hn : net.node? h = some n)
    (hread : ∀ q, net.Reads h q → q ∈ seen) (hwired : fills = true ∨ n.Wired)
    {inputs : List (Option Expr)} (hinputs : ∀ input < n.inputCount, ∃ e?, inputs[input]? = some e?
      ∧ net.inputExpr n input = .ok e?) :
    n.Feeds fills (typesOf fills scope inputs) where
  typed i hi v hv := by
    obtain ⟨e?, hget, hexpr⟩ := hinputs i hi
    -- Only a linked input has a value, and a link is converted to the type of its input.
    rcases inputExpr_eq_ok hexpr with ⟨-, rfl⟩ | ⟨link, required, e, hlink, htype, he, rfl⟩
    · simp [typesOf, hget] at hv
    · have hreads := reads_of_link? hn hlink
      have hvalue : e.term.eval (typing fills) (typesIn scope) = some required.shaderType :=
        hs.link hw he (hread _ hreads) (hw.ne_sink_of_reads hreads)
      refine ⟨required, htype, ?_⟩
      rw [← hvalue]
      simpa [typesOf, hget] using hv.symm
  wired := by
    refine hwired.imp_right fun hwired t ht hne i hi hnone => ?_
    obtain ⟨e?, hget, hexpr⟩ := hinputs i hi
    rcases inputExpr_eq_ok hexpr with ⟨hlink, -⟩ | ⟨link, required, e, -, -, -, rfl⟩
    · exact hwired t ht hne i hi hlink
    · simp [typesOf, hget] at hnone

end Typable

/-- Computing a node that is no texture leaves the scope as it is. -/
theorem Typable.record (hs : net.Typable stage here seen scope) (hh : h ∈ here)
    (hn : net.node? h = some n) (hk : n.kind ≠ .texture) :
    net.Typable stage here (insert h seen) scope where
  within x hx hne := hx.elim (fun heq => heq ▸ hh) fun hx => hs.within x hx hne
  program := hs.program
  declared := hs.declared
  sampled x hx hne m hm hk' := by
    rcases hx with rfl | hx
    · obtain rfl := Option.some.inj (hn.symm.trans hm)
      exact absurd hk' hk
    · exact hs.sampled x hx hne m hm hk'
  fresh x hx hnew := hs.fresh x hx fun hx => hnew (.inr hx)

section Steps

variable (hw : net.WellFormed) (hapart : net.NamesApart here) (hhere : ∀ x ∈ here, x ≠ net.sink)
  (hplain : ∀ x ∈ here, ∀ n, net.node? x = some n → ∀ t, n.type? = some t →
    t.isFloatVector = true ∨ t = .texture)
  (hwired : fills = true ∨ ∀ x ∈ here, ∀ n, net.node? x = some n → n.Wired)
include hw hapart hhere

/-- Computing a texture adds its sample to the scope. -/
theorem Typable.define (hs : net.Typable stage here seen scope) (hh : h ∈ here)
    (hn : net.node? h = some n) (hk : n.kind = .texture) :
    net.Typable stage here (insert h seen) (⟨false, "vec4", n.variableName⟩ :: scope) := by
  have hself : lookup (⟨false, "vec4", n.variableName⟩ :: scope) n.variableName
      = some ⟨false, "vec4", n.variableName⟩ := by simp [lookup]
  have hother {x : String} (hx : n.variableName ≠ x) :
      lookup (⟨false, "vec4", n.variableName⟩ :: scope) x = lookup scope x := by
    simp [lookup, hx]
  have hfree := Node.free_variableName (hw.check h n hn (hhere h hh))
  -- Two textures have different samples.
  have hdistinct {x : Handle} (hx : x ∈ here) (hne : h ≠ x) {m : Node}
      (hm : net.node? x = some m) : n.variableName ≠ m.variableName := fun heq =>
    not_namesApart hw hh hx hne hn hm (.inr rfl) (.inr heq.symm) hapart
  exact {
    within := fun x hx hne => hx.elim (fun heq => heq ▸ hh) fun hx => hs.within x hx hne
    program := fun b hb => by
      rw [hother, hs.program b hb]
      intro heq
      have hname : b.name ∈ stage.declaredNames :=
        List.mem_map_of_mem (List.mem_append_left _ hb)
      exact hfree.not_mem_programNames (heq ▸ declaredNames_subset stage _ hname)
    declared := fun x hx m d hm hd => by
      rw [hother, hs.declared x hx m d hm hd]
      intro heq
      obtain ⟨type, -, rfl⟩ := Option.map_eq_some_iff.1 hd
      exact (hapart.eq_of_id_eq hw hx hh hm hn heq.symm).2 hk
    sampled := fun x hx hne m hm hk' => by
      by_cases heq : x = h
      · subst heq
        obtain rfl := Option.some.inj (hn.symm.trans hm)
        exact hself
      · have hx := hx.resolve_left heq
        rw [hother (hdistinct (hs.within x hx hne) (Ne.symm heq) hm)]
        exact hs.sampled x hx hne m hm hk'
    fresh := fun x hx hnew m hm hk' => by
      have hne : h ≠ x := fun heq => hnew (.inl heq.symm)
      rw [hother (hdistinct hx hne hm)]
      exact hs.fresh x hx (fun hx => hnew (.inr hx)) m hm hk' }

include hplain hwired

/-- The statement of a node is well typed, if the nodes that it reads have been computed. -/
theorem Typable.statement (hs : net.Typable stage here seen scope) (hh : h ∈ here)
    (hnew : h ∉ seen) (hread : ∀ q, net.Reads h q → q ∈ seen) {line? : Option Line}
    {events : List Event} (hline : net.statementOf h = .ok (line?, events)) :
    WellTyped fills scope (meantProgram line?.toList)
      ∧ net.Typable stage here (insert h seen)
        (extendAll scope (meantProgram line?.toList)) := by
  obtain ⟨n, inputs, hn, hstatement, hinputs⟩ := statementOf_eq_ok hline
  have hcheck := hw.check h n hn (hhere h hh)
  cases line? with
  | none =>
    obtain ⟨value, hk, -⟩ := Node.uniform_of_statement
      (congrArg Prod.fst hstatement).symm (hw.isSink_eq_false hn (hhere h hh))
    exact ⟨trivial, hs.record hh hn (by simp [hk])⟩
  | some l =>
    have hl : (n.statement inputs).1 = some l := (congrArg Prod.fst hstatement).symm
    obtain ⟨huv, htime, -⟩ := stage.bindings_inputs
    have hstored := Node.inMain_of_statement hcheck hl
    have hfeeds := hs.feeds hw hn hread (hwired.imp_right fun hwired => hwired h hh n hn) hinputs
    have hid (hk : n.kind = .texture) : typesIn scope n.id = some .sampler :=
      hs.typesIn_id (t := .texture) hh hn (by simp [Node.type?, hk])
    -- What the statement assigns is the type of what the node computes.
    obtain ⟨st, v, hst, hv, hexec⟩ : ∃ st v, l.statement? = some st
        ∧ nodeValue (typing fills) (typesIn scope) n (typesOf fills scope inputs) = some v
        ∧ st.exec (typing fills) (typesIn scope)
          = Function.update (typesIn scope) n.variableName v :=
      Node.exec_statement hcheck (fun _ _ => rfl) (fun _ => rfl) rfl rfl hl
    obtain ⟨t, ht, rfl⟩ := Node.nodeValue_typing (Node.spelled_of_check hcheck).2
      (hplain h hh n hn) hstored hid (hs.typesIn_program huv) (hs.typesIn_program htime) hfeeds hv
    have hprogram : meantProgram (some l).toList = [st] := by
      simp [meantProgram, hst]
    have hvalue := congrFun hexec n.variableName
    rw [Function.update_self] at hvalue
    rw [hprogram]
    obtain ⟨e, rfl⟩ := (Node.states_of_statement hcheck hl).eq
    by_cases hk : n.kind = .texture
    · rw [if_pos hk] at hst
      obtain rfl := Option.some.inj hst
      obtain rfl := Option.some.inj ((by rw [Node.variableType?, if_pos hk] :
        n.variableType? = some .vec4).symm.trans ht)
      rw [Statement.exec, Function.update_self] at hvalue
      refine ⟨⟨⟨hs.fresh h hh hnew n hn hk, _, rfl, hvalue⟩, trivial⟩, ?_⟩
      exact hs.define hw hapart hhere hh hn hk
    · rw [if_neg hk] at hst
      obtain rfl := Option.some.inj hst
      rw [Node.variableType?, if_neg hk] at ht
      rw [Node.variableName_of_ne_texture hk, Statement.exec, Function.update_self] at hvalue
      have hd : n.declaration? = some ⟨n.storage, t, n.id⟩ := by rw [Node.declaration?, ht]; rfl
      have hstorage : decide (n.storage = .uniform) = false := by
        simp [hstored.resolve_left hk]
      refine ⟨⟨⟨_, _, hs.declared h hh n _ hn hd, hstorage, ShaderType.ofWord?_keyword t, hvalue⟩,
        trivial⟩, ?_⟩
      exact hs.record hh hn hk

/-- The statements of some nodes are well typed, if they stand in the order of their dependence. -/
theorem Typable.computes (hp : Proceeds net here seen lines seen')
    (hs : net.Typable stage here seen scope) :
    WellTyped fills scope (meantProgram lines)
      ∧ net.Typable stage here seen' (extendAll scope (meantProgram lines)) := by
  induction hp generalizing scope with
  | nil => exact ⟨trivial, hs⟩
  | cons hh hnew hread hline _ ih =>
    obtain ⟨htyped, hs'⟩ := hs.statement hw hapart hhere hplain hwired hh hnew hread hline
    obtain ⟨htyped', hs''⟩ := ih hs'
    rw [meantProgram_append, wellTyped_append, extendAll_append]
    exact ⟨⟨htyped, htyped'⟩, hs''⟩

end Steps

/-! ### The lines of the sink -/

/-- The scalar channels are packed into four components. -/
theorem Typable.composite (hs : net.Typable .fragment here seen scope) :
    WellTyped fills scope (meantProgram [compositeLine]) := by
  have hchannel (slot : Slot) (hslot : slot.stage = .fragment) :
      typesIn scope slot.target = some slot.type.shaderType :=
    (hs.typesIn_program (hslot ▸ slot.binding_mem)).trans (ShaderType.ofWord?_keyword _)
  refine ⟨⟨_, _, hs.program _ materialOut_mem, rfl, rfl, ?_⟩, trivial⟩
  rw [Expr.eval_construct]
  simp only [List.map_cons, List.map_nil, Expr.eval_name, Expr.eval_real,
    Interpretation.real_typing, hchannel .metallic rfl, hchannel .roughness rfl,
    hchannel .ambientOcclusion rfl]
  rfl

/-- What a slot sets has the type that its input is read as. -/
theorem Typable.assign (hs : net.Typable stage here seen scope) {slot : Slot}
    (hslot : slot.stage = stage) {e : Expr}
    (he : e.term.eval (typing fills) (typesIn scope) = some slot.type.shaderType) :
    WellTyped fills scope (meantProgram [.assign slot.target e]) :=
  ⟨⟨_, _, hs.program _ (hslot ▸ slot.binding_mem), rfl, ShaderType.ofWord?_keyword _, he⟩, trivial⟩

/-- A normal is decoded in three of its components. -/
theorem Typable.decoding (hs : net.Typable stage here seen scope) {slot : Slot}
    (hslot : slot.stage = stage) : WellTyped fills scope (meantProgram (decoding slot)) := by
  by_cases hnormal : slot = .normal
  · subst hnormal
    have hbinding := hs.program _ (hslot ▸ Slot.normal.binding_mem)
    have hturned : typesIn scope "TBN" = some (.matrix 3) :=
      hs.typesIn_program stage.bindings_inputs.2.2
    have hcolor : typesIn scope Slot.normal.target = some (.vector 4) :=
      hs.typesIn_program (hslot ▸ Slot.normal.binding_mem)
    -- Both lines set the colour channels of the variable of the normal.
    have htyped {value : Expr}
        (hv : value.term.eval (typing fills) (typesIn scope) = some (.vector 3)) :
        (Statement.assignPart Slot.normal.target "rgb" value.term).Typed fills scope :=
      ⟨_, _, _, hbinding, rfl, rfl, by decide +kernel, rfl, hv⟩
    refine ⟨htyped ?_, htyped ?_, trivial⟩
    · simp only [Expr.eval_binary, Expr.eval_select, Expr.eval_name, Expr.eval_real, hcolor,
        Interpretation.real_typing]
      rfl
    · simp only [Expr.eval_call, Expr.eval_binary, Expr.eval_select, Expr.eval_name, hcolor,
        hturned, List.map_cons, List.map_nil]
      rfl
  · rw [Network.decoding, if_neg hnormal]
    trivial

theorem extendAll_decoding (scope : List Binding) (slot : Slot) :
    extendAll scope (meantProgram (decoding slot)) = scope := by
  unfold decoding
  split <;> rfl

/-! ### The lines of a plan -/

section Plan

variable (hw : net.WellFormed) (hapart : net.NamesApart here) (hhere : ∀ x ∈ here, x ≠ net.sink)
  (hplain : ∀ x ∈ here, ∀ n, net.node? x = some n → ∀ t, n.type? = some t →
    t.isFloatVector = true ∨ t = .texture)
  (hwired : fills = true ∨ ∀ x ∈ here, ∀ n, net.node? x = some n → n.Wired)
include hw hapart hhere hplain hwired

/-- The lines of a plan are well typed. -/
theorem Written.wellTyped {sink : Node} {steps : List Step}
    (hsink : net.node? net.sink = some sink) (hacyclic : net.Acyclic)
    (h : Written net sink seen steps lines) (hseen : net.sink ∈ seen)
    (hs : net.Typable stage here seen scope) (hsteps : ∀ step ∈ steps, step ∈ plan stage)
    (hfeeds : ∀ slot ∈ steps.filterMap Step.slot?, ∀ link, sink.link? slot.index = some link →
      ∀ x, net.DependsOn link.producer x → x ∈ here) :
    WellTyped fills scope (meantProgram lines) := by
  have hslot {slot : Slot} {rest : List Step}
      (hsteps : ∀ step ∈ Step.slot slot :: rest, step ∈ plan stage) : slot.stage = stage :=
    (slot.mem_slots stage).1
      (List.mem_filterMap.2 ⟨_, hsteps _ List.mem_cons_self, rfl⟩)
  induction h generalizing scope with
  | nil => trivial
  | @composite seen rest lines _ ih =>
    have hstage : stage = .fragment := by
      have hcomposite := hsteps _ List.mem_cons_self
      revert hcomposite
      cases stage <;> decide
    subst hstage
    exact ⟨hs.composite.1, ih hseen hs (fun step hstep => hsteps step (.tail _ hstep)) hfeeds⟩
  | @unfed seen slot rest lines hl _ ih =>
    rw [meantProgram_append, meantProgram_announcement, List.nil_append]
    exact ih hseen hs (fun step hstep => hsteps step (.tail _ hstep))
      fun slot' hslot' => hfeeds slot' (List.mem_cons_of_mem _ hslot')
  | @fed seen slot rest link out body lines value hl hvisits hbody hvalue _ ih =>
    have hproceeds := hvisits.proceeds hw hacyclic hbody (hfeeds slot List.mem_cons_self link hl)
    obtain ⟨htyped, hs'⟩ := hs.computes hw hapart hhere hplain hwired hproceeds
    -- The producer has been computed for this slot or for one before it.
    have hread : value.term.eval (typing fills) (typesIn (extendAll scope (meantProgram body)))
        = some slot.type.shaderType :=
      hs'.link hw hvalue (hvisits.covers _ (List.mem_singleton_self _))
        (hw.ne_sink_of_reads (reads_of_link? hsink hl))
    have hassign := hs'.assign (hslot hsteps) hread
    have hrest := ih (.inl hseen) hs' (fun step hstep => hsteps step (.tail _ hstep))
      fun slot' hslot' => hfeeds slot' (List.mem_cons_of_mem _ hslot')
    rw [meantProgram_append, meantProgram_announcement, List.nil_append, meantProgram_append,
      wellTyped_append]
    refine ⟨htyped, hassign.1, ?_⟩
    rw [← meantProgram, meantProgram_append, wellTyped_append]
    refine ⟨hs'.decoding (hslot hsteps), ?_⟩
    rw [extendAll_decoding]
    exact hrest

end Plan

/-! ### What feeds a stage -/

/-- What a link is read as is a float or a vector, or the sample of a texture. -/
theorem plain_of_converts {consumer : Node} {l : Link} (hc : net.Converts consumer l)
    (hn : net.node? l.producer = some n) {t : ValueType} (ht : n.type? = some t) :
    t.isFloatVector = true ∨ t = .texture := by
  obtain ⟨producer, produced, required, hp, hfacet, -, hpromotable⟩ := hc
  obtain rfl := Option.some.inj (hn.symm.trans hp)
  by_cases hk : n.kind = .texture
  · rw [show n.type? = some .texture by simp [Node.type?, hk]] at ht
    exact .inr (Option.some.inj ht).symm
  · obtain ⟨-, htype⟩ := Node.facetType_eq_ok hk hfacet
    obtain rfl := Option.some.inj (ht.symm.trans htype)
    refine .inl ?_
    revert hpromotable
    cases required <;> cases t <;> decide

/-- Whatever feeds a slot of a stage that is written is a texture, or has a float or a vector as its
    value. -/
theorem plain_of_written (hw : net.WellFormed) {sink : Node}
    (hsink : net.node? net.sink = some sink)
    (hvisits : Visits net ∅ (slotProducers sink stage.slots) out)
    (hwritten : Written net sink {net.sink} (plan stage) lines) :
    ∀ x ∈ out, ∀ n, net.node? x = some n → ∀ t, n.type? = some t →
      t.isFloatVector = true ∨ t = .texture := by
  obtain ⟨⟨out', hvisits', hlinks⟩, hslots⟩ := hwritten.converts hw hsink
  obtain rfl := hw.visits_unique hsink hvisits' hvisits
  intro x hx n hn t ht
  obtain ⟨p, hp, hd⟩ := (feedsStage_iff hsink).1 ((hw.mem_visits hsink hvisits x).1 hx)
  -- The node is the producer of a slot's link, or it is read by another node that feeds the stage.
  rcases hd.cases_tail with rfl | ⟨y, hy, m, hm, link, hl, rfl⟩
  · obtain ⟨slot, hslot, hlink⟩ := List.mem_filterMap.1 hp
    obtain ⟨link, hl, rfl⟩ := Option.map_eq_some_iff.1 hlink
    exact plain_of_converts (hslots slot hslot link hl) hn ht
  · have hyout : y ∈ out' :=
      (hw.mem_visits hsink hvisits y).2 ((feedsStage_iff hsink).2 ⟨p, hp, hy⟩)
    exact plain_of_converts (hlinks y hyout m hm link hl) hn ht

/-! ### The scope at the beginning -/

section Scope

variable {ds : List Declaration} (hw : net.WellFormed) (hapart : net.NamesApart {x | x ∈ out})
  (hne : ∀ x ∈ out, x ≠ net.sink) (hd : List.Forall₂ net.Declared out ds)
include hw hne hd

/-- A body begins in the scope of the template and of the declarations of the nodes. -/
theorem scope_eq : stage.scope (ds.map Declaration.text)
    = stage.bindings ++ ds.map Declaration.binding := by
  rw [Stage.scope, List.flatMap_map]
  congr 1
  rw [← List.flatMap_singleton' (ds.map Declaration.binding), List.flatMap_map]
  refine List.flatMap_congr fun d hmem => ?_
  exact Declaration.bindings_text (free_of_declared hw hd hne d hmem).word

/-- No name is declared twice. -/
theorem nodup_scope (hout : out.Nodup) :
    ((stage.bindings ++ ds.map Declaration.binding).map Binding.name).Nodup := by
  have hprogram : (stage.bindings.map Binding.name).Nodup := by cases stage <;> decide +kernel
  have hnames : (ds.map Declaration.binding).map Binding.name = ds.map Declaration.name := by
    rw [List.map_map]
    rfl
  rw [List.map_append, hnames]
  refine List.nodup_append.2 ⟨hprogram, nodup_declared hw hd hout, ?_⟩
  rintro x hx _ hx' rfl
  obtain ⟨d, hmem, rfl⟩ := List.mem_map.1 hx'
  have hdeclares : d.name ∈ stage.declaredNames := by
    rw [Stage.declaredNames, List.map_append]
    exact List.mem_append_left _ hx
  exact (free_of_declared hw hd hne d hmem).not_mem_programNames
    (declaredNames_subset stage _ hdeclares)

include hapart

/-- In front of the body nothing has been computed, and all that it needs has been declared. -/
theorem typable_scope (hout : out.Nodup) : net.Typable stage {x | x ∈ out} {net.sink}
    (stage.bindings ++ ds.map Declaration.binding) where
  within x hx hx' := absurd hx hx'
  program b hb := lookup_of_mem (nodup_scope hw hne hd hout) (List.mem_append_left _ hb)
  declared x hx n d hn hdecl := by
    obtain ⟨d', hmem, n', hn', hdecl'⟩ := exists_of_forall₂_left hd hx
    obtain rfl := Option.some.inj (hn.symm.trans hn')
    obtain rfl := Option.some.inj (hdecl.symm.trans hdecl')
    exact lookup_of_mem (nodup_scope hw hne hd hout)
      (List.mem_append_right _ (List.mem_map_of_mem hmem))
  sampled x hx hx' := absurd hx hx'
  fresh x hx _ n hn hk := by
    rw [lookup_eq_none_iff]
    intro b hb heq
    -- No sample has a name of the template, nor that of a node, since names are apart.
    rcases List.mem_append.1 hb with hb | hb
    · have hdeclares : b.name ∈ stage.declaredNames :=
        List.mem_map_of_mem (List.mem_append_left _ hb)
      have hfree := Node.free_variableName (hw.check x n hn (hne x hx))
      exact hfree.not_mem_programNames (heq ▸ declaredNames_subset stage _ hdeclares)
    · obtain ⟨d, hmem, rfl⟩ := List.mem_map.1 hb
      obtain ⟨y, hy, hdeclared⟩ := exists_of_forall₂_right hd hmem
      obtain ⟨m, hm, -, hname⟩ := hdeclared.exists_node
      exact (hapart.eq_of_id_eq hw hy hx hm hn (hname.symm.trans heq)).2 hk

end Scope

/-! ### The programs of a network -/

/-- The body lines of a stage are well typed after its declarations, where a single float may fill
    a vector, and also where it may not if no function of vectors lacks an operand; they set no
    uniform, and no node that feeds the stage has an integer or a matrix as its value. -/
structure Typed (net : Network) (stage : Stage) (out : List Handle)
    (declarations body : List String) : Prop where
  wellTyped : ∃ program, MaterialNet.Reads body program
    ∧ WellTyped true (stage.scope declarations) program
    ∧ ((∀ h ∈ out, ∀ n, net.node? h = some n → n.Wired) →
      WellTyped false (stage.scope declarations) program)
    ∧ ∀ st ∈ program, ∀ b ∈ stage.scope declarations, b.uniform = true → st.target ≠ b.name
  plain : ∀ h ∈ out, ∀ n, net.node? h = some n →
    n.type? ≠ some .integer ∧ n.type? ≠ some .mat4

/-- Whatever a stage is assembled from, its body lines are well typed. -/
theorem Arises.typed (h : net.Arises) (requests : List Request) {text : String} {s' : Session}
    (hg : (Session.assemble net stage).Gives (Session.after net requests) text s') :
    ∃ out body, net.reachable stage = .ok out
      ∧ (Session.writeStage net stage).Gives (Session.after net requests) body s'
      ∧ renderStage stage net.settings.version (s'.declarations.toList.map Declaration.text)
        (body.map Line.text) = .ok text
      ∧ net.Typed stage out (s'.declarations.toList.map Declaration.text)
        (body.map Line.text) := by
  have hw := h.wellFormed
  obtain ⟨body, hwrite, hrender⟩ := Session.assemble_gives hg
  obtain ⟨sink, out, hsink, hacyclic, hreachable, hvisits, hdeclared, -, hapart, hwritten⟩ :=
    walks_agree hw h.fits ((Session.served_after net requests).trustsAcyclic hw) hwrite
  have hne := hw.ne_sink_of_mem_visits hsink hvisits
  have hplain := plain_of_written hw hsink hvisits hwritten
  have hnodup := hvisits.nodup.1
  -- The lines are typed once for both readings of a single float.
  have htyped {fills : Bool}
      (hwired : fills = true ∨ ∀ x ∈ out, ∀ n, net.node? x = some n → n.Wired) :=
    hwritten.wellTyped hw hapart hne hplain hwired hsink hacyclic rfl
      (typable_scope hw hapart hne hdeclared hnodup) (fun _ => id)
      (hw.mem_visits_of_link? hsink hvisits)
  refine ⟨out, body, hreachable, hwrite, hrender, ?_, fun x hx n hn => ?_⟩
  · rw [scope_eq hw hne hdeclared]
    refine ⟨meantProgram body, reads_of_legible (hwritten.legible hw hsink rfl), htyped (.inl rfl),
      fun hwired => htyped (.inr hwired), ?_⟩
    intro st hst b hb huniform
    have hlookup := lookup_of_mem (nodup_scope hw hne hdeclared hnodup) hb
    exact (htyped (.inl rfl)).target_ne_uniform hlookup huniform st hst
  · constructor
    · intro ht
      rcases hplain x hx n hn _ ht with hno | hno <;> cases hno
    · intro ht
      rcases hplain x hx n hn _ ht with hno | hno <;> cases hno

/-- A network in which a node outside the stage has the name of a sample. -/
theorem typed_unusedSample : unusedSample.Arises
    ∧ ∃ text s, (Session.assemble unusedSample .fragment).Gives
        (Session.after unusedSample []) text s
      ∧ ∃ out body, unusedSample.reachable .fragment = .ok out
        ∧ (Session.writeStage unusedSample .fragment).Gives (Session.after unusedSample []) body s
        ∧ renderStage .fragment unusedSample.settings.version
          (s.declarations.toList.map Declaration.text) (body.map Line.text) = .ok text
        ∧ unusedSample.Typed .fragment out (s.declarations.toList.map Declaration.text)
          (body.map Line.text) := by
  obtain ⟨h, text, s, hg⟩ := assemble_unusedSample
  exact ⟨h, text, s, hg, h.typed [] hg⟩

/-! ### An operand that is not wired -/

/-- A function of vectors whose operand has no link. -/
def unwiredOperand : Network :=
  (new {}).run
    [.add ⟨"magnitude", .inMain, .unary .abs .vec3, []⟩,
      .connectSlot .albedo ⟨2, 1⟩ .value]

theorem assemble_unwiredOperand : unwiredOperand.Arises
    ∧ ∃ text s, (Session.assemble unwiredOperand .fragment).Gives .fresh text s := by
  have h : unwiredOperand.Arises := (Arises.new {}).run (by decide +kernel)
  have hranked : unwiredOperand.ranked (fun x => if x.place = 1 then 1 else 0) = true := by
    decide +kernel
  have hcompilable : unwiredOperand.Compilable [.fragment] :=
    h.wellFormed.compilable (acyclic_of_ranked hranked) (by decide +kernel) _
  exact ⟨h, hcompilable.exists_assemble h.wellFormed h.fits⟩

theorem feedsStage_unwiredOperand : unwiredOperand.FeedsStage .fragment ⟨2, 1⟩ := by
  have hslot : Slot.albedo ∈ Stage.fragment.slots := by decide
  exact feedsStage_of_fills hslot (by decide +kernel)

/-- The zero of the operand's type takes the place of the link. -/
theorem statementOf_unwiredOperand {line? : Option Line} {events : List Event}
    (hs : unwiredOperand.statementOf ⟨2, 1⟩ = .ok (line?, events)) :
    ∃ x, line? = some (.assign x (UnaryFn.abs.apply ValueType.vec3.zero)) := by
  obtain ⟨n, inputs, hn, hstatement, hinputs⟩ := statementOf_eq_ok hs
  have hfunction : (unwiredOperand.node? ⟨2, 1⟩).any
      (fun n => n.kind = .unary .abs .vec3 ∧ n.links = []) = true := by decide +kernel
  obtain ⟨n', hn', hfunction⟩ := (Option.any_eq_true _ _).1 hfunction
  obtain rfl := Option.some.inj (hn.symm.trans hn')
  obtain ⟨hkind, hlinks⟩ := of_decide_eq_true hfunction
  -- Without a link there is nothing to read.
  have hinput : inputs[0]? = some none := by
    obtain ⟨e?, hget, hexpr⟩ := hinputs 0 (by simp [Node.inputCount, hkind])
    rcases inputExpr_eq_ok hexpr with ⟨-, rfl⟩ | ⟨link, -, -, hl, -⟩
    · exact hget
    · have hmem := (Node.link?_eq_some hl).1
      rw [hlinks] at hmem
      cases hmem
  refine ⟨n.id, ?_⟩
  have hfst : line? = (n.statement inputs).1 := congrArg Prod.fst hstatement
  simp [hfst, Node.statement, hkind, hinput, Node.operand]

/-- Where the constructor of a vector takes as many components as the vector has, there is no type
    for the zero that stands for an operand without a link. -/
theorem not_wellTyped_unwiredOperand : unwiredOperand.Arises
    ∧ ∃ text s body program, (Session.assemble unwiredOperand .fragment).Gives .fresh text s
      ∧ (Session.writeStage unwiredOperand .fragment).Gives .fresh body s
      ∧ MaterialNet.Reads (body.map Line.text) program
      ∧ ¬ WellTyped false
        (Stage.fragment.scope (s.declarations.toList.map Declaration.text)) program := by
  obtain ⟨h, text, s, hg⟩ := assemble_unwiredOperand
  have hw := h.wellFormed
  obtain ⟨body, hwrite, -⟩ := Session.assemble_gives hg
  obtain ⟨sink, out, hsink, -, -, hvisits, -, hstatements, -, hwritten⟩ :=
    walks_agree hw h.fits (Session.Served.fresh.trustsAcyclic hw) hwrite
  refine ⟨h, text, s, body, meantProgram body, hg, hwrite,
    reads_of_legible (hwritten.legible hw hsink rfl), fun htyped => ?_⟩
  -- The function feeds the slot, so its statement is one of the lines.
  have hneeded := (hw.mem_visits hsink hvisits _).2 feedsStage_unwiredOperand
  obtain ⟨line?, events, hs⟩ := hstatements.exists_statementOf _ hneeded
  obtain ⟨x, rfl⟩ := statementOf_unwiredOperand hs
  have hmem := (List.mem_filter.1 (hstatements.mem_of_statementOf hneeded hs)).1
  obtain ⟨scope, b, t, -, -, -, hvalue⟩ :=
    htyped.exists_typed (List.mem_filterMap.2 ⟨_, hmem, rfl⟩)
  have hzero : (typing false).zero .vec3 = none := by
    simp only [Interpretation.zero, Interpretation.real_typing]
    rfl
  rw [UnaryFn.eval_apply, ValueType.eval_zero rfl, hzero] at hvalue
  cases hvalue

end Network

end MaterialNet
