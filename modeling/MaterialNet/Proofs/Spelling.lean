import MaterialNet.Proofs.Legible
import MaterialNet.Proofs.Writing

namespace MaterialNet

/-!
# The lines of a stage are legible

The name of a node is a word of the language that is neither a keyword nor the name of a function,
and so is the name of the variable that holds its value.  What is read from other nodes binds
tightest, so that it can stand wherever a statement puts it.

* `Node.spelled_of_check` — the names of a sound node
* `Node.States` — the statement of a sound node, kind by kind
* `Network.legible_of_statementOf` — the statement of a node is legible
* `Network.Written.legible` — the lines of a plan are legible
-/

/-! ### Names -/

/-- The word is a name of its own: neither the language nor the programs use it. -/
structure Free (w : String) : Prop where
  word : isWord w = true
  notTaken : isTaken w = false

/-- A free word is read as a variable. -/
theorem Free.isVariable {w : String} (h : Free w) : isVariable w = true := by
  have htaken := h.notTaken
  simp only [isTaken, Bool.or_eq_false_iff] at htaken
  simp only [MaterialNet.isVariable, htaken.1.2, htaken.2, Bool.not_false, Bool.and_self]

/-- No name of the program around is free. -/
theorem Free.not_mem_programNames {w : String} (h : Free w) : w ∉ programNames := by
  have htaken := h.notTaken
  simp only [isTaken, Bool.or_eq_false_iff] at htaken
  simpa [List.contains_iff_mem] using htaken.1.1

/-- No keyword is free. -/
theorem Free.not_mem_keywords {w : String} (h : Free w) : w ∉ keywords := by
  have htaken := h.notTaken
  simp only [isTaken, Bool.or_eq_false_iff] at htaken
  simpa [List.contains_iff_mem] using htaken.1.2

/-- Components of a free name can be selected. -/
theorem Free.accessible {w : String} (h : Free w) : (Expr.name w).Accessible :=
  Expr.accessible_name h.word h.isVariable

/-- No word that is taken ends like the variable of a sampled colour. -/
theorem isTaken_sample (id : String) : isTaken (id ++ "_sample") = false := by
  -- The taken words are listed, and each is seen to end otherwise.
  have hall : ∀ w ∈ programNames ++ (keywords ++ calledNames),
      ¬ "_sample".toList.isSuffixOf w.toList = true := by decide +kernel
  rw [Bool.eq_false_iff]
  intro htaken
  simp only [isTaken, Bool.or_eq_true, List.contains_iff_mem, or_assoc] at htaken
  refine hall (id ++ "_sample") (by simpa only [List.mem_append] using htaken) ?_
  rw [List.isSuffixOf_iff_suffix, String.toList_append]
  exact List.suffix_append _ _

/-- The variable of a sampled colour is spelled as a word. -/
theorem isWord_sample {id : String} (h : isWord id = true) : isWord (id ++ "_sample") = true := by
  have hsample : "_sample".toList.all isIdentifierChar = true := by decide +kernel
  unfold isWord at h ⊢
  split at h
  · cases h
  · rename_i c cs hid
    rw [String.toList_append, hid, List.cons_append]
    simp only [Bool.and_eq_true, List.all_append] at h ⊢
    exact ⟨h.1, h.2, hsample⟩

/-- The channels that a facet selects are spelled as a word. -/
theorem Facet.isWord_of_swizzle? {facet : Facet} {channels : String}
    (h : facet.swizzle? = some channels) : isWord channels = true := by
  cases facet with
  | value => cases h
  | _ =>
    obtain rfl := Option.some.inj h
    decide +kernel

namespace Node

variable {n : Node} {facet : Facet} {e : Expr}

/-- What a sound node is checked for. -/
theorem spelled_of_check (h : n.check = .ok ()) : Free n.id ∧ n.flaw? = none := by
  obtain ⟨_, hid, hflaw⟩ := bind_ok_iff.1 h
  unfold checkIdentifier at hid
  split at hid
  · cases hid
  · rename_i hwell
    split at hid
    · cases hid
    · rename_i htaken
      simp only [Bool.not_eq_true, Bool.not_eq_false'] at hwell htaken
      refine ⟨⟨isWord_of_isWellFormed hwell, htaken⟩, ?_⟩
      split at hflaw
      · cases hflaw
      · assumption

/-- What is checked of a node that is computed in `main`. -/
theorem inMain_of_flaw {storage : Storage} {sound : Bool} {flaw flaw' : NodeFlaw}
    (h : (if storage ≠ .inMain then some flaw else if sound then none else some flaw') = none) :
    storage = .inMain ∧ sound = true := by
  split at h
  · cases h
  · rename_i hstorage
    split at h
    · exact ⟨not_ne_iff.1 hstorage, ‹_›⟩
    · cases h

/-- The variable of a sound node has a free name: its id, or the name of a sample, which nothing
    takes. -/
theorem free_variableName (h : n.check = .ok ()) : Free n.variableName := by
  have hid := (spelled_of_check h).1
  unfold variableName
  split
  · exact ⟨isWord_sample hid.word, isTaken_sample n.id⟩
  · exact hid

/-- What a link reads of a sound node is its variable or channels of it. -/
theorem accessible_facetExpr (h : n.check = .ok ()) (he : n.facetExpr facet = .ok e) :
    e.Accessible := by
  have hname := (free_variableName h).accessible
  have hid := (spelled_of_check h).1.accessible
  -- Only a texture is read by channels, and it is read through its sample.
  unfold facetExpr at he
  split at he
  · cases he
  · split at he
    · rename_i channels hchannels
      obtain rfl := Except.ok.inj he
      exact Expr.accessible_select hname (Facet.isWord_of_swizzle? hchannels)
    · cases he
  · obtain rfl := Except.ok.inj he
    exact hid
  · cases he

/-- The coordinates that a texture reads are its input, or those of the mesh. -/
theorem legible_coordinates {e? : Option Expr} (h : ∀ e ∈ e?, e.Legible .part) :
    (coordinates e?).Legible .part := by
  cases e? with
  | none => exact (Expr.accessible_name (by decide +kernel) (by decide +kernel)).part
  | some e => exact h e rfl

/-- An operand is the input, or the zero of its type where there is none. -/
theorem legible_operand {type : ValueType} (ht : type.isFloatVector = true) {input : Nat}
    {e? : Option Expr} (h : ∀ e ∈ e?, e.Legible .part) :
    (n.operand type input e?).1.Legible .part := by
  cases e? with
  | none => exact type.legible_zero ht
  | some e => exact h e rfl

/-! ### Statements -/

/-- How a sound node is stated: a texture defines its sample, any other node assigns its variable.
    With each kind stands what has been checked of the node.  Uniform constants are not stated. -/
inductive States (n : Node) (inputs : List (Option Expr)) : Line → Prop where
  | constant {value : Constant} (kind : n.kind = .constant value) (storage : n.storage = .inMain)
    (finite : value.isFinite = true) : States n inputs (.assign n.id (.constant value))
  | texture (kind : n.kind = .texture) (storage : n.storage = .uniform) :
    States n inputs (.define .vec4 n.variableName
      (.call .texture [.name n.id, coordinates (inputs[0]?).join]))
  | panner {speedX speedY : Binary32} (kind : n.kind = .panner speedX speedY)
    (storage : n.storage = .inMain) (finite : (Constant.vec2 speedX speedY).isFinite = true) :
    States n inputs (.assign n.id (.binary .plus (coordinates (inputs[0]?).join)
      (.binary .times (.constant (.vec2 speedX speedY)) (.name timeUniform))))
  | unary {fn : UnaryFn} {type : ValueType} (kind : n.kind = .unary fn type)
    (storage : n.storage = .inMain) (vector : type.isFloatVector = true) :
    States n inputs (.assign n.id (fn.apply (n.operand type 0 (inputs[0]?).join).1))
  | binary {fn : BinaryFn} {type : ValueType} (kind : n.kind = .binary fn type)
    (storage : n.storage = .inMain) (vector : type.isFloatVector = true) :
    States n inputs (.assign n.id (fn.apply (n.operand type 0 (inputs[0]?).join).1
      (n.operand type 1 (inputs[1]?).join).1))

/-- All that a sound node can be stated as. -/
theorem states_of_statement (h : n.check = .ok ()) {inputs : List (Option Expr)} {l : Line}
    (hl : (n.statement inputs).1 = some l) : n.States inputs l := by
  obtain ⟨-, hflaw⟩ := spelled_of_check h
  unfold statement at hl
  unfold flaw? at hflaw
  -- Kind by kind: the statement, and the check that the kind has to pass.
  cases hk : n.kind with
  | constant value =>
    simp only [hk] at hl hflaw
    split at hl
    · obtain rfl := Option.some.inj hl
      split at hflaw
      · exact .constant hk ‹_› ‹_›
      · cases hflaw
    · cases hl
  | texture =>
    simp only [hk] at hl hflaw
    obtain rfl := Option.some.inj hl
    split at hflaw
    · exact .texture hk ‹_›
    · cases hflaw
  | panner speedX speedY =>
    simp only [hk] at hl hflaw
    obtain rfl := Option.some.inj hl
    obtain ⟨hstorage, hfinite⟩ := inMain_of_flaw hflaw
    exact .panner hk hstorage (by simpa [Constant.isFinite, Constant.components] using hfinite)
  | unary fn type =>
    simp only [hk] at hl hflaw
    obtain rfl := Option.some.inj hl
    exact .unary hk (inMain_of_flaw hflaw).1 (inMain_of_flaw hflaw).2
  | binary fn type =>
    simp only [hk] at hl hflaw
    obtain rfl := Option.some.inj hl
    exact .binary hk (inMain_of_flaw hflaw).1 (inMain_of_flaw hflaw).2
  | sink =>
    simp only [hk] at hl
    cases hl

/-- The statement of a sound node is legible, if its inputs are. -/
theorem legible_statement (h : n.check = .ok ()) {inputs : List (Option Expr)}
    (hinputs : ∀ input < n.inputCount, ∀ e ∈ (inputs[input]?).join, Expr.Legible .part e) {l : Line}
    (hl : (n.statement inputs).1 = some l) : l.Legible := by
  have hid := (spelled_of_check h).1
  have hname := free_variableName h
  -- A statement assigns to a free name; what is left is its expression.
  have hassign {e : Expr} (he : e.Legible .sum) : (Line.assign n.id e).Legible :=
    Line.legible_assign hid.word hid.isVariable he
  have huv (h₀ : 0 < n.inputCount) : (coordinates (inputs[0]?).join).Legible .part :=
    legible_coordinates (hinputs 0 h₀)
  cases states_of_statement h hl with
  | constant _ _ hfinite => exact hassign (Expr.legible_constant hfinite).product.sum
  | texture hk =>
    have h₀ : 0 < n.inputCount := by simp [inputCount, hk]
    refine Line.legible_define (by decide +kernel) hname.word hname.isVariable ?_
    refine (Expr.legible_call (List.cons_ne_nil _ _) ?_).of_part
    simp [hid.accessible.part.of_part, (huv h₀).of_part]
  | panner hk _ hspeed =>
    have htime : (Expr.name timeUniform).Accessible :=
      Expr.accessible_name (by decide +kernel) (by decide +kernel)
    -- The product may stand on the right of the sum without parentheses.
    have hshift := Expr.legible_operator .times (Expr.legible_constant hspeed).product
      htime.part.factor
    have h₀ : 0 < n.inputCount := by simp [inputCount, hk]
    exact hassign (Expr.legible_operator .plus (huv h₀).of_part hshift)
  | unary hk _ htype =>
    have h₀ : 0 < n.inputCount := by simp [inputCount, hk]
    exact hassign (UnaryFn.legible_apply _ (legible_operand htype (hinputs 0 h₀)))
  | binary hk _ htype =>
    have h₀ : 0 < n.inputCount := by simp [inputCount, hk]
    have h₁ : 1 < n.inputCount := by simp [inputCount, hk]
    exact hassign (BinaryFn.legible_apply _ (legible_operand htype (hinputs 0 h₀))
      (legible_operand htype (hinputs 1 h₁)))

end Node

/-! ### The lines of a stage -/

namespace Network

variable {net : Network} (hw : net.WellFormed)
include hw

/-- The producer of a link is a sound node. -/
theorem check_producer {h : Handle} {n producer : Node} {input : Nat} {link : Link}
    (hn : net.node? h = some n) (hl : n.link? input = some link)
    (hp : net.node? link.producer = some producer) : producer.check = .ok () :=
  hw.check _ _ hp (hw.ne_sink_of_reads (reads_of_link? hn hl))

/-- What a link reads may be promoted, and needs no parentheses even then. -/
theorem legible_readLink {h : Handle} {n : Node} {input : Nat} {link : Link} {name : String}
    {required : ValueType} {e : Expr} (hn : net.node? h = some n)
    (hl : n.link? input = some link) (he : net.readLink name link required = .ok e) :
    e.Legible .part := by
  obtain ⟨producer, produced, e₀, hp, -, hfacet, hpromote⟩ := readLink_eq_ok.1 he
  exact legible_promote (Node.accessible_facetExpr (check_producer hw hn hl hp) hfacet) hpromote

/-- What an input reads needs no parentheses. -/
theorem legible_inputExpr {h : Handle} {n : Node} {input : Nat} {e? : Option Expr}
    (hn : net.node? h = some n) (he : net.inputExpr n input = .ok e?) :
    ∀ e ∈ e?, e.Legible .part := by
  rcases inputExpr_eq_ok he with ⟨-, rfl⟩ | ⟨link, required, e, hl, -, hread, rfl⟩
  · exact nofun
  · rintro _ ⟨⟩
    exact legible_readLink hw hn hl hread

/-- The statement of a node is legible. -/
theorem legible_of_statementOf {h : Handle} {l : Line} {events : List Event} (hh : h ≠ net.sink)
    (hs : net.statementOf h = .ok (some l, events)) : l.Legible := by
  obtain ⟨n, inputs, hn, hstatement, hinputs⟩ := statementOf_eq_ok hs
  refine Node.legible_statement (hw.check h n hn hh) (fun input hinput e he => ?_)
    (congrArg Prod.fst hstatement).symm
  obtain ⟨e?, hget, hinputExpr⟩ := hinputs input hinput
  rw [hget] at he
  exact legible_inputExpr hw hn hinputExpr e he

/-- Lines that compute nodes are legible, since each is the statement of a sound node. -/
theorem Computes.legible {hs : List Handle} {lines : List Line} (h : Computes net hs lines)
    (hne : ∀ x ∈ hs, x ≠ net.sink) : ∀ l ∈ lines, l.Legible := by
  -- By induction on the computed nodes: a node adds one line or none.
  induction h with
  | nil => exact nofun
  | @cons x line? events rest lines hs _ ih =>
    have hrest := ih fun y hy => hne y (List.mem_cons_of_mem _ hy)
    intro l hl
    rcases List.mem_append.1 hl with hl | hl
    · cases line? with
      | none => cases hl
      | some l' =>
        obtain rfl := List.mem_singleton.1 hl
        exact legible_of_statementOf hw (hne x List.mem_cons_self) hs
    · exact hrest l hl

omit hw in
/-- A slot is announced by a comment or not at all. -/
theorem legible_announcement (slot : Slot) : ∀ l ∈ net.announcement slot, l.Legible := by
  intro l hl
  unfold announcement at hl
  split at hl
  · obtain rfl := List.mem_singleton.1 hl
    exact Line.legible_label slot
  · cases hl

end Network

/-- The variable that a slot sets is spelled as a word, and is read as a variable. -/
theorem Slot.spelled_target (slot : Slot) :
    isWord slot.target = true ∧ isVariable slot.target = true := by
  cases slot <;> decide +kernel

/-- Components of the variable that a slot sets can be selected. -/
theorem Slot.accessible_target (slot : Slot) : (Expr.name slot.target).Accessible :=
  Expr.accessible_name slot.spelled_target.1 slot.spelled_target.2

/-- The line that puts the colour and the opacity together is legible. -/
theorem legible_compositeLine : compositeLine.Legible := by
  have hone := Expr.legible_real_of_nonneg .one (by decide +kernel)
  refine Line.legible_assign (by decide +kernel) (by decide +kernel) ?_
  refine (Expr.legible_construct (t := .vec4) nofun (List.cons_ne_nil _ _) ?_).of_part
  simp [(Slot.accessible_target _).part.of_part, hone.of_part]

/-- The lines that decode a normal are legible: scaling stands in front of the difference, and the
    call encloses the product. -/
theorem legible_normalDecode : ∀ l ∈ normalDecode, l.Legible := by
  have hdirection : (Expr.select (.name Slot.normal.target) "rgb").Accessible :=
    Expr.accessible_select (Slot.accessible_target .normal) (by decide +kernel)
  have htangent : (Expr.name "TBN").Accessible :=
    Expr.accessible_name (by decide +kernel) (by decide +kernel)
  have hone := Expr.legible_real_of_nonneg .one (by decide +kernel)
  have htwo := Expr.legible_real_of_nonneg .two (by decide +kernel)
  have hscaled := Expr.legible_operator .times hdirection.part.factor.product htwo.factor
  have hturned := Expr.legible_operator .times htangent.part.factor.product
    hdirection.part.factor
  have hfirst := Expr.legible_operator .minus hscaled.sum hone.factor.product
  have hsecond := (Expr.legible_call (f := .normalize) (List.cons_ne_nil _ [])
    (by simpa using hturned.sum)).of_part
  have hassign {e : Expr} (he : e.Legible .sum) :
      (Line.assignPart Slot.normal.target "rgb" e).Legible :=
    Line.legible_assignPart (Slot.spelled_target _).1 (Slot.spelled_target _).2 (by decide +kernel)
      he
  intro l hl
  simp only [normalDecode, List.mem_cons, List.not_mem_nil, or_false] at hl
  rcases hl with rfl | rfl
  · exact hassign hfirst
  · exact hassign hsecond

namespace Network

/-- The lines of a plan are legible. -/
theorem Written.legible {net : Network} (hw : net.WellFormed) {sink : Node}
    (hs : net.node? net.sink = some sink) {seen : Set Handle} {steps : List Step}
    {lines : List Line} (h : Written net sink seen steps lines) (hseen : net.sink ∈ seen) :
    ∀ l ∈ lines, l.Legible := by
  induction h with
  | nil => exact nofun
  | composite _ ih => exact List.forall_mem_cons.2 ⟨legible_compositeLine, ih hseen⟩
  | unfed _ _ ih =>
    refine List.forall_mem_append.2 ⟨legible_announcement _, ?_⟩
    exact List.forall_mem_cons.2 ⟨Line.legible_noInput, ih hseen⟩
  | @fed seen slot rest link out body lines value hl hvisits hbody hvalue _ ih =>
    -- The sink counts as seen, so it is not among what is computed for the slot.
    have hne := hvisits.ne_of_seen hseen
    have hassign := Line.legible_assign slot.spelled_target.1 slot.spelled_target.2
      (legible_readLink hw hs hl hvalue).of_part
    have hdecode : ∀ l ∈ decoding slot, l.Legible := by
      unfold decoding
      split
      · exact legible_normalDecode
      · exact nofun
    refine List.forall_mem_append.2 ⟨legible_announcement slot, ?_⟩
    refine List.forall_mem_append.2 ⟨hbody.legible hw hne, ?_⟩
    refine List.forall_mem_cons.2 ⟨hassign, ?_⟩
    exact List.forall_mem_append.2 ⟨hdecode, ih (.inl hseen)⟩

end Network

end MaterialNet
