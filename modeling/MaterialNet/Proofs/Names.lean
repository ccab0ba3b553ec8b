import MaterialNet.Proofs.Lowering

namespace MaterialNet

/-!
# The names that lines read and set

An expression that is written reads the variables of the producers whose links it stands for, and
beyond them only the coordinates, the time and, for a sample, the texture's own name.

* `Expr.names`, `Line.reads`, `Line.target?` — what expressions and lines read, and what lines set
* `Node.reads_statement` — what the statement of a node reads
* `Network.reads_of_statementOf` — the same for a node of a network
-/

namespace Expr

mutual

/-- The variables in an expression. -/
def names : Expr → List String
  | .name id => [id]
  | .constant _ => []
  | .select e _ => e.names
  | .negate e => e.names
  | .binary _ left right => left.names ++ right.names
  | .call _ arguments => namesAll arguments
  | .construct _ arguments => namesAll arguments

/-- The variables in several expressions. -/
def namesAll : List Expr → List String
  | [] => []
  | e :: rest => e.names ++ namesAll rest

end

/-- A number reads no variable. -/
theorem names_real (x : Binary32) : (real x).names = [] := by
  simp [real, names]

end Expr

/-- The variables that a line reads. -/
def Line.reads : Line → List String
  | .assign _ value | .assignPart _ _ value | .define _ _ value => value.names
  | .label _ | .noInput => []

/-- The variable that a line sets. -/
def Line.target? : Line → Option String
  | .assign target _ | .assignPart target _ _ | .define _ target _ => some target
  | .label _ | .noInput => none

/-- The variable that a line declares. -/
def Line.declares? : Line → Option String
  | .define _ target _ => some target
  | .assign _ _ | .assignPart _ _ _ | .label _ | .noInput => none

/-! ### Expressions -/

/-- Nor does the zero of a type. -/
theorem ValueType.names_zero {type : ValueType} (h : type.isFloatVector = true) :
    type.zero.names = [] := by
  cases type with
  | float => exact Expr.names_real _
  | integer | mat4 | texture => cases h
  | _ => simp [ValueType.zero, Expr.names, Expr.namesAll, Expr.names_real]

/-- Promotion brings in no variable. -/
theorem names_promote {produced required : ValueType} {e e' : Expr}
    (h : promote? produced required e = some e') : ∀ x ∈ e'.names, x ∈ e.names := by
  cases required <;> cases produced <;>
    simp only [promote?, Option.some.injEq, reduceCtorEq] at h <;> subst h <;>
    simp [Expr.names, Expr.namesAll, Expr.names_real]

/-- A function of one argument reads what its argument reads. -/
theorem UnaryFn.names_apply (f : UnaryFn) (e : Expr) : (f.apply e).names = e.names := by
  cases f <;> simp [UnaryFn.apply, Expr.names, Expr.namesAll, Expr.names_real]

/-- A function of two arguments reads what they read. -/
theorem BinaryFn.names_apply (f : BinaryFn) (e e' : Expr) :
    (f.apply e e').names = e.names ++ e'.names := by
  cases f <;> simp [BinaryFn.apply, Expr.names, Expr.namesAll]

/-! ### Nodes -/

namespace Node

variable {n : Node}

/-- A facet is read from the variable that holds what the node computes. -/
theorem names_facetExpr {facet : Facet} {e : Expr} (h : n.facetExpr facet = .ok e) :
    e.names = [n.variableName] := by
  -- Whatever part is read, it is read of the variable of the node.
  unfold facetExpr at h
  split at h
  · cases h
  · split at h
    · obtain rfl := Except.ok.inj h
      rfl
    · cases h
  · rename_i htexture
    obtain rfl := Except.ok.inj h
    rw [variableName_of_ne_texture htexture]
    rfl
  · cases h

/-- The coordinates read the input, or those of the mesh. -/
theorem names_coordinates (e? : Option Expr) :
    ∀ x ∈ (coordinates e?).names, x = defaultUv ∨ ∃ e ∈ e?, x ∈ e.names := by
  cases e? with
  | none => simp [coordinates, Expr.names]
  | some e => exact fun x hx => .inr ⟨e, rfl, hx⟩

/-- An operand reads what its input reads, if there is one. -/
theorem names_operand {type : ValueType} (ht : type.isFloatVector = true) (input : Nat)
    (e? : Option Expr) : ∀ x ∈ (n.operand type input e?).1.names, ∃ e ∈ e?, x ∈ e.names := by
  cases e? with
  | none => simp [operand, ValueType.names_zero ht]
  | some e => simp [operand]

/-- The statement of a texture defines its sample, any other one assigns the node's variable. -/
theorem States.eq {inputs : List (Option Expr)} {l : Line} (h : n.States inputs l) : ∃ e, l =
    if n.kind = .texture then .define .vec4 n.variableName e else .assign n.id e := by
  cases h with
  | texture hk => exact ⟨_, (if_pos hk).symm⟩
  | constant hk | panner hk | unary hk | binary hk => exact ⟨_, (if_neg (by simp [hk])).symm⟩

/-- Every statement sets the variable of its node. -/
theorem States.target? {inputs : List (Option Expr)} {l : Line} (h : n.States inputs l) :
    l.target? = some n.variableName := by
  obtain ⟨e, rfl⟩ := h.eq
  split
  · rfl
  · rename_i hk
    rw [variableName_of_ne_texture hk]
    rfl

/-- Only the sample of a texture is declared by its statement. -/
theorem States.declares? {inputs : List (Option Expr)} {l : Line} (h : n.States inputs l) :
    l.declares? = if n.kind = .texture then some n.variableName else none := by
  obtain ⟨e, rfl⟩ := h.eq
  split <;> rfl

/-- The statement of a sound node sets its variable; it reads its inputs, what the renderer supplies
    to every program, and, for a texture, the sampler. -/
theorem reads_statement (hcheck : n.check = .ok ()) {inputs : List (Option Expr)} {l : Line}
    (hl : (n.statement inputs).1 = some l) :
    l.target? = some n.variableName ∧ ∀ x ∈ l.reads, x ∈ Network.inputNames
      ∨ n.storage = .uniform ∧ x = n.id
      ∨ ∃ input < n.inputCount, ∃ e ∈ (inputs[input]?).join, x ∈ e.names := by
  have hcoordinates (h₀ : 0 < n.inputCount) {x : String}
      (hx : x ∈ (coordinates (inputs[0]?).join).names) : x ∈ Network.inputNames
        ∨ n.storage = .uniform ∧ x = n.id
        ∨ ∃ input < n.inputCount, ∃ e ∈ (inputs[input]?).join, x ∈ e.names := by
    rcases names_coordinates _ x hx with rfl | ⟨e, he, hx⟩
    · exact .inl (by decide)
    · exact .inr (.inr ⟨0, h₀, e, he, hx⟩)
  have hstates := states_of_statement hcheck hl
  refine ⟨hstates.target?, fun x hx => ?_⟩
  -- Kind by kind: what is read besides the inputs is an input of the program, or the texture
  -- itself.
  cases hstates with
  | constant => simp [Line.reads, Expr.names] at hx
  | texture hk hstorage =>
    have h₀ : 0 < n.inputCount := by simp [inputCount, hk]
    simp only [Line.reads, Expr.names, Expr.namesAll, List.append_nil, List.mem_append,
      List.mem_singleton] at hx
    rcases hx with hx | hx
    · exact .inr (.inl ⟨hstorage, hx⟩)
    · exact hcoordinates h₀ hx
  | panner hk =>
    have h₀ : 0 < n.inputCount := by simp [inputCount, hk]
    simp only [Line.reads, Expr.names, List.nil_append, List.mem_append, List.mem_singleton] at hx
    rcases hx with hx | rfl
    · exact hcoordinates h₀ hx
    · exact .inl (by decide)
  | unary hk _ htype =>
    have h₀ : 0 < n.inputCount := by simp [inputCount, hk]
    rw [Line.reads, UnaryFn.names_apply] at hx
    obtain ⟨e, he, hx⟩ := names_operand htype _ _ x hx
    exact .inr (.inr ⟨0, h₀, e, he, hx⟩)
  | binary hk _ htype =>
    have h₀ : 0 < n.inputCount := by simp [inputCount, hk]
    have h₁ : 1 < n.inputCount := by simp [inputCount, hk]
    rw [Line.reads, BinaryFn.names_apply] at hx
    rcases List.mem_append.1 hx with hx | hx
    · obtain ⟨e, he, hx⟩ := names_operand htype _ _ x hx
      exact .inr (.inr ⟨0, h₀, e, he, hx⟩)
    · obtain ⟨e, he, hx⟩ := names_operand htype _ _ x hx
      exact .inr (.inr ⟨1, h₁, e, he, hx⟩)

end Node

namespace Network

variable {net : Network} {h : Handle} {l : Line} {events : List Event}

/-- What reads a link reads the variable of its producer. -/
theorem names_readLink {name : String} {link : Link} {required : ValueType} {e : Expr}
    (he : net.readLink name link required = .ok e) :
    ∃ producer, net.node? link.producer = some producer
      ∧ ∀ x ∈ e.names, x = producer.variableName := by
  obtain ⟨producer, produced, e₀, hp, -, hfacet, hpromote⟩ := readLink_eq_ok.1 he
  refine ⟨producer, hp, fun x hx => ?_⟩
  have hx := names_promote hpromote x hx
  rw [Node.names_facetExpr hfacet] at hx
  exact List.mem_singleton.1 hx

/-- The statement of a node sets its variable, and it reads the variables of the node's producers,
    what the renderer supplies, and nothing else. -/
theorem reads_of_statementOf (hw : net.WellFormed) (hne : h ≠ net.sink)
    (hs : net.statementOf h = .ok (some l, events)) :
    ∃ n, net.node? h = some n ∧ l.target? = some n.variableName
      ∧ (n.kind = .texture ∨ n.storage = .inMain)
      ∧ (l.declares? = if n.kind = .texture then some n.variableName else none)
      ∧ ∀ x ∈ l.reads, x ∈ inputNames ∨ n.storage = .uniform ∧ x = n.id
        ∨ ∃ q m, net.Reads h q ∧ net.node? q = some m ∧ x = m.variableName := by
  obtain ⟨n, inputs, hn, hstatement, hinputs⟩ := statementOf_eq_ok hs
  have hline : (n.statement inputs).1 = some l := (congrArg Prod.fst hstatement).symm
  have hcheck := hw.check h n hn hne
  obtain ⟨htarget, hreads⟩ := Node.reads_statement hcheck hline
  refine ⟨n, hn, htarget, Node.inMain_of_statement hcheck hline,
    (Node.states_of_statement hcheck hline).declares?, fun x hx => ?_⟩
  rcases hreads x hx with hx | hx | ⟨input, hi, e, he, hx⟩
  · exact .inl hx
  · exact .inr (.inl hx)
  · -- The expression of an input reads the producer of its link.
    obtain ⟨e?, hget, hexpr⟩ := hinputs input hi
    rw [hget] at he
    rcases inputExpr_eq_ok hexpr with ⟨-, rfl⟩ | ⟨link, required, e', hl, -, hread, rfl⟩
    · cases he
    · obtain rfl := Option.some.inj he
      obtain ⟨m, hm, hnames⟩ := names_readLink hread
      exact .inr (.inr ⟨link.producer, m, reads_of_link? hn hl, hm, hnames x hx⟩)

end Network

end MaterialNet
