import MaterialNet.Proofs.Declaring
import MaterialNet.Proofs.Spelling
import MaterialNet.Proofs.Legible
import MaterialNet.Proofs.Meaning

namespace MaterialNet

/-!
# The values of the expressions that are written

What a node's statement assigns is an expression; what the node means is a value.  The lemmas here
connect the two, one for each way in which expressions are built.

* `Expr.eval_real`, `Expr.eval_call`, … — the values of expressions
* `eval_promote`, `UnaryFn.eval_apply`, `BinaryFn.eval_apply` — promotion and functions
* `Node.exec_statement` — the effect of a node's statement
-/

universe u

variable {V : Type u} {I : Interpretation V} {store supplied : Store V}

/-! ### Literals -/

/-- The sign of a numeral negates the value of the number. -/
theorem Numeral.eval_term (n : Numeral) : n.term.eval I store = I.numeral n := by
  unfold Numeral.term Interpretation.numeral
  split
  · simp [Term.eval, Numeral.magnitude]
  · simp [Term.eval, Numeral.magnitude]

/-- The value of a float is that of its numeral. -/
theorem Binary32.eval_term (x : Binary32) : x.term.eval I store = I.real x :=
  Numeral.eval_term _

/-- Several terms are evaluated one by one. -/
theorem Term.evalAll_eq_map (ts : List Term) :
    evalAll I store ts = ts.map fun t => t.eval I store := by
  induction ts with
  | nil => rfl
  | cons t rest ih => rw [evalAll, ih, List.map_cons]

/-- A literal with several components is a call with the values of the components. -/
theorem Constant.eval_term (c : Constant) : c.term.eval I store = I.constant c := by
  have hcomponents xs : (List.map Binary32.term xs).map (fun t => t.eval I store)
      = xs.map I.real := by
    rw [List.map_map]
    exact List.map_congr_left fun x _ => x.eval_term
  cases c with
  | float x => exact x.eval_term
  | integer n => exact Numeral.eval_term _
  | _ =>
    unfold Constant.term Interpretation.constant
    rw [Term.eval, Term.evalAll_eq_map, hcomponents]

namespace Expr

theorem eval_real (x : Binary32) : (Expr.real x).term.eval I store = I.real x := by
  rw [term_real, x.eval_term]

theorem eval_constant (c : Constant) : (Expr.constant c).term.eval I store = I.constant c := by
  rw [term_constant, c.eval_term]

/-- A call is worth what the function makes of the values of the arguments. -/
theorem eval_call (f : Builtin) (es : List Expr) : (Expr.call f es).term.eval I store
    = I.call (Named.name f) (es.map fun e => e.term.eval I store) := by
  rw [term, Term.eval, Term.evalAll_eq_map, termAll_eq_map, List.map_map]
  rfl

/-- A constructor is called like a function. -/
theorem eval_construct (t : ValueType) (es : List Expr) : (Expr.construct t es).term.eval I store
    = I.call t.keyword (es.map fun e => e.term.eval I store) := by
  rw [term, Term.eval, Term.evalAll_eq_map, termAll_eq_map, List.map_map]
  rfl

/-- Selecting takes components of a value. -/
theorem eval_select (e : Expr) (channels : String) : (Expr.select e channels).term.eval I store
    = I.select channels (e.term.eval I store) := by
  rw [term, Term.eval]

theorem eval_negate (e : Expr) :
    (Expr.negate e).term.eval I store = I.negate (e.term.eval I store) := by
  rw [term, Term.eval]

/-- An operator works on the values of its operands. -/
theorem eval_binary (op : Operator) (left right : Expr) :
    (Expr.binary op left right).term.eval I store
      = I.operate op (left.term.eval I store) (right.term.eval I store) := by
  rw [term, Term.eval]

/-- A variable is worth what the store holds. -/
theorem eval_name (id : String) : (Expr.name id).term.eval I store = store id := by
  rw [term, Term.eval]

end Expr

/-- The expression for the zero of a type has this zero as its value. -/
theorem ValueType.eval_zero {t : ValueType} (h : t.isFloatVector = true) :
    t.zero.term.eval I store = I.zero t := by
  cases t with
  | float => exact Expr.eval_real _
  | integer | mat4 | texture => cases h
  | _ =>
    unfold ValueType.zero Interpretation.zero
    rw [Expr.eval_construct, List.map_singleton, Expr.eval_real]

/-- A promoted expression has the converted value. -/
theorem eval_promote {produced required : ValueType} {e e' : Expr}
    (h : promote? produced required e = some e') :
    I.convert? produced required (e.term.eval I store) = some (e'.term.eval I store) := by
  -- Most pairs of types have no promotion; the others are the rules of `convert?`.
  cases required <;> cases produced <;>
    simp only [promote?, Option.some.injEq, reduceCtorEq] at h <;> subst h <;>
    simp [Interpretation.convert?, Expr.eval_construct, Expr.eval_select, Expr.eval_real,
      ValueType.keyword]

/-- The expression for a function of one argument means the function. -/
theorem UnaryFn.eval_apply (f : UnaryFn) (x : Expr) :
    (f.apply x).term.eval I store = I.unary f (x.term.eval I store) := by
  cases f <;> simp [UnaryFn.apply, Interpretation.unary, Expr.eval_negate, Expr.eval_binary,
    Expr.eval_call, Expr.eval_real, Named.name]

/-- The expression for a function of two arguments means the function. -/
theorem BinaryFn.eval_apply (f : BinaryFn) (x y : Expr) :
    (f.apply x y).term.eval I store
      = I.binary f (x.term.eval I store) (y.term.eval I store) := by
  cases f <;> simp [BinaryFn.apply, Interpretation.binary, Expr.eval_binary, Expr.eval_call,
    Named.name]

/-- Reading a facet takes it from the variable of the node. -/
theorem Node.eval_facetExpr {n : Node} {facet : Facet} {e : Expr}
    (h : n.facetExpr facet = .ok e) :
    e.term.eval I store = I.facet facet (store n.variableName) := by
  -- Channels are read of the sample of a texture, the whole value of any other node.
  unfold facetExpr at h
  split at h
  · cases h
  · split at h
    · rename_i hchannels
      obtain rfl := Except.ok.inj h
      rw [Expr.eval_select, Expr.eval_name, Interpretation.facet, hchannels]
    · cases h
  · rename_i htexture
    obtain rfl := Except.ok.inj h
    rw [Expr.eval_name, variableName_of_ne_texture htexture]
    rfl
  · cases h

/-! ### Statements -/

namespace Node

variable {n : Node}

/-- The coordinates that a node reads, or those of the mesh. -/
theorem eval_coordinates (e? : Option Expr) : (coordinates e?).term.eval I store
    = (e?.map fun e => e.term.eval I store).getD (store "TexCoords") := by
  cases e? with
  | none => exact Expr.eval_name _
  | some e => rfl

/-- An operand has the value of its input, or the zero of its type. -/
theorem eval_operand {type : ValueType} (ht : type.isFloatVector = true) (input : Nat)
    (e? : Option Expr) : (n.operand type input e?).1.term.eval I store
      = (e?.map fun e => e.term.eval I store).getD (I.zero type) := by
  cases e? with
  | none => exact ValueType.eval_zero ht
  | some e => rfl

/-- A node without a statement is a constant that the renderer supplies. -/
theorem uniform_of_statement {inputs : List (Option Expr)} (h : (n.statement inputs).1 = none)
    (hsink : n.isSink = false) : ∃ value, n.kind = .constant value ∧ n.storage = .uniform := by
  unfold statement at h
  -- Every kind but a constant and the sink has a statement.
  cases hk : n.kind with
  | constant value =>
    simp only [hk] at h
    split at h
    · cases h
    · exact ⟨value, rfl, ‹_›⟩
  | sink => simp [isSink, hk] at hsink
  | _ =>
    simp only [hk] at h
    cases h

/-- A node with a statement is computed in `main`, or is a texture, which has two variables. -/
theorem inMain_of_statement (hcheck : n.check = .ok ()) {inputs : List (Option Expr)} {l : Line}
    (hl : (n.statement inputs).1 = some l) : n.kind = .texture ∨ n.storage = .inMain := by
  cases states_of_statement hcheck hl with
  | texture hk => exact .inl hk
  | constant _ hstorage | panner _ hstorage | unary _ hstorage | binary _ hstorage =>
    exact .inr hstorage

/-- What a statement leaves in the node's variable is the node's value. -/
theorem exec_statement (hcheck : n.check = .ok ()) {inputs : List (Option Expr)}
    {input : Nat → Option (Option V)}
    (hinputs : ∀ i < n.inputCount,
      input i = some ((inputs[i]?).join.map fun e => e.term.eval I store))
    (huniform : n.storage = .uniform → store n.id = supplied n.id)
    (huv : store "TexCoords" = supplied "TexCoords") (htime : store "u_Time" = supplied "u_Time")
    {l : Line} (hl : (n.statement inputs).1 = some l) :
    ∃ s v, l.statement? = some s ∧ Network.nodeValue I supplied n input = some v
      ∧ s.exec I store = Function.update store n.variableName v := by
  -- All nodes but textures assign an expression to their own name.
  have hassign {e : Expr} (hk : n.kind ≠ .texture)
      (hv : Network.nodeValue I supplied n input = some (e.term.eval I store)) :
      ∃ s v, (Line.assign n.id e).statement? = some s
        ∧ Network.nodeValue I supplied n input = some v
        ∧ s.exec I store = Function.update store n.variableName v := by
    refine ⟨.assign n.id e.term, _, rfl, hv, ?_⟩
    rw [variableName_of_ne_texture hk]
    rfl
  -- Kind by kind, the expression is built of the inputs as the value is.
  cases states_of_statement hcheck hl with
  | constant hk hstorage =>
    refine hassign (by simp [hk]) ?_
    simp [Network.nodeValue, hk, hstorage, Expr.eval_constant]
  | texture hk hstorage =>
    have h₀ : 0 < n.inputCount := by simp [inputCount, hk]
    refine ⟨_, _, rfl, ?_, rfl⟩
    simp [Network.nodeValue, hk, hinputs 0 h₀, Expr.eval_call, Expr.eval_name, eval_coordinates,
      huniform hstorage, huv, Named.name]
  | panner hk =>
    have h₀ : 0 < n.inputCount := by simp [inputCount, hk]
    refine hassign (by simp [hk]) ?_
    simp [Network.nodeValue, hk, hinputs 0 h₀, Expr.eval_binary, Expr.eval_name, Expr.eval_constant,
      eval_coordinates, huv, htime, timeUniform]
  | unary hk _ htype =>
    have h₀ : 0 < n.inputCount := by simp [inputCount, hk]
    refine hassign (by simp [hk]) ?_
    simp [Network.nodeValue, hk, hinputs 0 h₀, UnaryFn.eval_apply, eval_operand htype]
  | binary hk _ htype =>
    have h₀ : 0 < n.inputCount := by simp [inputCount, hk]
    have h₁ : 1 < n.inputCount := by simp [inputCount, hk]
    refine hassign (by simp [hk]) ?_
    simp [Network.nodeValue, hk, hinputs 0 h₀, hinputs 1 h₁, BinaryFn.eval_apply,
      eval_operand htype]

end Node

end MaterialNet
