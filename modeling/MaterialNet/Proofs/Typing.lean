import Mathlib.Algebra.Ring.Nat
import MaterialNet.Proofs.Evaluation
import MaterialNet.Proofs.Numerals
import MaterialNet.Proofs.Vocabulary

namespace MaterialNet

/-!
# Types

The typing rules of the shader language, as far as programs of a material need them.  They are an
interpretation of the language: the value of an expression is its type, or nothing if no rule
applies, so that what is known of the values of nodes holds of their types, too.

The constructor of a vector takes as many components as the vector has.  The language has one more
rule, by which a single float fills a vector; the rules are stated with and without it.

* `ShaderType`, `typing` — types, and the typing rules
* `Statement.Typed`, `WellTyped` — statements that assign what their variables are declared as
* `Interpretation.real_typing`, … — the types of what nodes are made of
-/

/-- The type of an expression.  A float is a vector with one component. -/
inductive ShaderType where
  | vector (size : Nat)
  | integer
  | matrix (size : Nat)
  | sampler
deriving DecidableEq, Repr

namespace ShaderType

/-- The type that a word stands for. -/
def ofWord? : String → Option ShaderType
  | "float" => some (.vector 1)
  | "vec2" => some (.vector 2)
  | "vec3" => some (.vector 3)
  | "vec4" => some (.vector 4)
  | "int" => some .integer
  | "mat3" => some (.matrix 3)
  | "mat4" => some (.matrix 4)
  | "sampler2D" => some .sampler
  | _ => none

/-! ### The rules -/

/-- The type of a numeral: with a point or a power of ten it is a float. -/
def ofNumber (s : String) : ShaderType :=
  if s.toList.any fun c => c = '.' || c = 'e' || c = 'E' then .vector 1 else .integer

/-- A sign stands before floats and vectors. -/
def signed? : ShaderType → Option ShaderType
  | .vector size => some (.vector size)
  | _ => none

/-- Two values of one size are combined, or a float and a vector; a matrix is multiplied by a vector
    of its size. -/
def operate? (op : Operator) : ShaderType → ShaderType → Option ShaderType
  | .vector m, .vector n =>
    if m = n ∨ n = 1 then some (.vector m) else if m = 1 then some (.vector n) else none
  | .matrix m, .vector n => if op = .times ∧ m = n then some (.vector n) else none
  | _, _ => none

/-- The names of the components of a vector. -/
def channels : List (List Char) := [['x', 'y', 'z', 'w'], ['r', 'g', 'b', 'a']]

/-- Components are selected from vectors that have them, one to four at a time. -/
def select? (field : String) : ShaderType → Option ShaderType
  | .vector size =>
    let selected := field.toList
    if 1 < size ∧ 1 ≤ selected.length ∧ selected.length ≤ 4
        ∧ channels.any fun names => selected.all fun c => (names.take size).contains c then
      some (.vector selected.length)
    else none
  | _ => none

/-- The number of components of a float or a vector. -/
def size? : ShaderType → Option Nat
  | .vector size => some size
  | _ => none

/-- The constructor of a vector takes as many components as the vector has or, where a float may
    fill it, a single one. -/
def construct? (fills : Bool) (size : Nat) (sizes : List Nat) : Option ShaderType :=
  if sizes.sum = size ∨ fills = true ∧ sizes = [1] then some (.vector size) else none

/-- Functions take operands of one size and give a value of this size; the bounds of `clamp` may be
    floats, too, and a sample is taken at two coordinates. -/
def applied? : Builtin → List ShaderType → Option ShaderType
  | .texture, [.sampler, .vector 2] => some (.vector 4)
  | .clamp, [.vector n, .vector least, .vector greatest] =>
    if least = greatest ∧ (least = n ∨ least = 1) then some (.vector n) else none
  | .min, [.vector m, .vector n] | .max, [.vector m, .vector n] | .pow, [.vector m, .vector n]
  | .step, [.vector m, .vector n] => if m = n then some (.vector n) else none
  | .abs, [.vector n] | .sin, [.vector n] | .cos, [.vector n] | .fract, [.vector n]
  | .normalize, [.vector n] | .sqrt, [.vector n] | .floor, [.vector n] => some (.vector n)
  | _, _ => none

/-- What is called is a function or the constructor of a float or a vector. -/
def call? (fills : Bool) (f : String) (arguments : List ShaderType) : Option ShaderType :=
  match (Named.ofName? f : Option Builtin), ofWord? f with
  | some f, _ => applied? f arguments
  | none, some (.vector size) => (arguments.mapM size?).bind (construct? fills size)
  | none, _ => none

end ShaderType

/-- The typing rules: the type of an expression, if it has one. -/
def typing (fills : Bool) : Interpretation (Option ShaderType) where
  number s := some (.ofNumber s)
  negate t := t.bind ShaderType.signed?
  affirm t := t.bind ShaderType.signed?
  operate op t u := t.bind fun t => u.bind fun u => t.operate? op u
  call f ts := (ts.mapM id).bind (ShaderType.call? fills f)
  select field t := t.bind (ShaderType.select? field)
  update field t u := if t.bind (ShaderType.select? field) = u then t else none

/-! ### Statements -/

/-- What a scope says of a name. -/
def lookup (scope : List Binding) (x : String) : Option Binding := scope.find? fun b => b.name = x

/-- The types of the variables in a scope. -/
def typesIn (scope : List Binding) : Store (Option ShaderType) := fun x =>
  (lookup scope x).bind fun b => ShaderType.ofWord? b.type

/-- A statement gives a variable a value of the declared type, or some components of a vector a
    value with as many components; the variable is no uniform.  What it defines is new. -/
def Statement.Typed (fills : Bool) (scope : List Binding) : Statement → Prop
  | .assign target value => ∃ b t, lookup scope target = some b ∧ b.uniform = false
    ∧ ShaderType.ofWord? b.type = some t ∧ value.eval (typing fills) (typesIn scope) = some t
  | .assignPart target field value => ∃ b t u, lookup scope target = some b ∧ b.uniform = false
    ∧ ShaderType.ofWord? b.type = some t ∧ field.toList.Nodup ∧ t.select? field = some u
    ∧ value.eval (typing fills) (typesIn scope) = some u
  | .define type target value => lookup scope target = none ∧ ∃ t, ShaderType.ofWord? type = some t
    ∧ value.eval (typing fills) (typesIn scope) = some t

/-- The scope after a statement. -/
def Statement.extend (scope : List Binding) : Statement → List Binding
  | .define type target _ => ⟨false, type, target⟩ :: scope
  | .assign _ _ | .assignPart _ _ _ => scope

/-- The scope after several statements. -/
def extendAll (scope : List Binding) (program : List Statement) : List Binding :=
  program.foldl Statement.extend scope

/-- Each statement is typed in the scope that the statements before it leave. -/
def WellTyped (fills : Bool) : List Binding → List Statement → Prop
  | _, [] => True
  | scope, st :: rest => st.Typed fills scope ∧ WellTyped fills (st.extend scope) rest

section Statements

variable {fills : Bool} {scope : List Binding} {program program' : List Statement}

/-- What is written later is typed where the earlier statements have left the scope. -/
theorem wellTyped_append : WellTyped fills scope (program ++ program')
    ↔ WellTyped fills scope program ∧ WellTyped fills (extendAll scope program) program' := by
  -- By induction on the first program: each statement hands its scope on.
  induction program generalizing scope with
  | nil => simp [WellTyped, extendAll]
  | cons st rest ih =>
    rw [List.cons_append, WellTyped, WellTyped, ih, and_assoc]
    rfl

/-- The scope grows statement by statement. -/
theorem extendAll_append (scope : List Binding) (program program' : List Statement) :
    extendAll scope (program ++ program') = extendAll (extendAll scope program) program' :=
  List.foldl_append

/-- Each statement of a well-typed program is typed in some scope. -/
theorem WellTyped.exists_typed (h : WellTyped fills scope program) {st : Statement}
    (hst : st ∈ program) : ∃ scope', st.Typed fills scope' := by
  induction program generalizing scope with
  | nil => cases hst
  | cons st' rest ih =>
    rcases List.mem_cons.1 hst with rfl | hst
    · exact ⟨scope, h.1⟩
    · exact ih h.2 hst

/-- A typed statement hides no variable: what it defines was not in scope. -/
theorem lookup_extend {st : Statement} (h : st.Typed fills scope) {x : String} {b : Binding}
    (hx : lookup scope x = some b) : lookup (st.extend scope) x = some b := by
  -- Only a definition changes the scope.
  cases st with
  | define type target value =>
    have hne : target ≠ x := by
      rintro rfl
      rw [h.1] at hx
      cases hx
    rwa [Statement.extend, lookup, List.find?_cons_of_neg (by simpa using hne)]
  | assign | assignPart => exact hx

/-- Well-typed statements set no uniform. -/
theorem WellTyped.target_ne_uniform (h : WellTyped fills scope program) {b : Binding}
    (hb : lookup scope b.name = some b) (huniform : b.uniform = true) :
    ∀ st ∈ program, st.target ≠ b.name := by
  induction program generalizing scope with
  | nil => exact nofun
  | cons st rest ih =>
    refine List.forall_mem_cons.2 ⟨fun heq => ?_, ih h.2 (lookup_extend h.1 hb)⟩
    have hst := h.1
    rw [← heq] at hb
    -- An assignment asks for a variable that may be set, a definition for a new name.
    cases st with
    | assign target value =>
      obtain ⟨b', -, hb', hno, -⟩ := hst
      obtain rfl := Option.some.inj (hb'.symm.trans hb)
      rw [huniform] at hno
      cases hno
    | assignPart target field value =>
      obtain ⟨b', -, -, hb', hno, -⟩ := hst
      obtain rfl := Option.some.inj (hb'.symm.trans hb)
      rw [huniform] at hno
      cases hno
    | define type target value =>
      cases hst.1.symm.trans hb

end Statements

/-! ### Scopes -/

section Scopes

variable {scope : List Binding} {x : String} {b : Binding}

/-- A name is unknown if no binding has it. -/
theorem lookup_eq_none_iff : lookup scope x = none ↔ ∀ b ∈ scope, b.name ≠ x := by
  simp [lookup]

/-- Where no name occurs twice, a scope says of a name what it holds under it. -/
theorem lookup_of_mem (hnodup : (scope.map Binding.name).Nodup) (hb : b ∈ scope) :
    lookup scope b.name = some b := by
  cases h : lookup scope b.name with
  | none => exact absurd rfl (lookup_eq_none_iff.1 h b hb)
  | some b' =>
    have hname : b'.name = b.name := by simpa using List.find?_some h
    rw [List.inj_on_of_nodup_map hnodup (List.mem_of_find?_eq_some h) hb hname]

end Scopes

/-! ### The types of values -/

/-- The type of a value, as a type of expressions. -/
def ValueType.shaderType : ValueType → ShaderType
  | .float => .vector 1
  | .vec2 => .vector 2
  | .vec3 => .vector 3
  | .vec4 => .vector 4
  | .integer => .integer
  | .mat4 => .matrix 4
  | .texture => .sampler

@[simp] theorem ShaderType.ofWord?_keyword (t : ValueType) :
    ofWord? t.keyword = some t.shaderType := by
  cases t <;> rfl

/-- A number with a point or a power of ten is a float. -/
theorem Numeral.ofNumber_text {n : Numeral} (h : n.fraction.isSome ∨ n.exponent.isSome) :
    ShaderType.ofNumber n.text = .vector 1 := by
  have hany : n.chars.any (fun c => c = '.' || c = 'e' || c = 'E') = true := by
    rw [chars, List.any_append, List.any_append]
    rcases h with h | h
    · obtain ⟨ds, hds⟩ := Option.isSome_iff_exists.1 h
      simp [hds]
    · obtain ⟨e, he⟩ := Option.isSome_iff_exists.1 h
      simp [he, Exponent.chars]
  rw [ShaderType.ofNumber, text, String.toList_ofList, if_pos hany]

namespace Interpretation

variable {fills : Bool} {t : ValueType}

/-- A float literal has a point or a power of ten, so it is read as a float. -/
theorem real_typing (x : Binary32) : (typing fills).real x = some (.vector 1) := by
  have hnumber : (typing fills).number (Layout.shader.numeral x).magnitude.text
      = some (.vector 1) :=
    congrArg some (Numeral.ofNumber_text (Layout.shader.isSome_numeralOf _ x.negative x.code))
  unfold real numeral
  dsimp only
  rw [show (({ Layout.shader.numeral x with negative := false } : Numeral))
    = (Layout.shader.numeral x).magnitude from rfl, hnumber]
  split <;> rfl

/-- A literal has the type of its constant. -/
theorem constant_typing {c : Constant} (h : c.type.isFloatVector = true) :
    (typing fills).constant c = some c.type.shaderType := by
  -- The literals of several components are constructors, with a float for each component.
  cases c with
  | float x => exact real_typing x
  | integer | mat4 => cases h
  | _ =>
    simp only [constant, Constant.components, List.map_cons, List.map_nil, real_typing]
    rfl

/-- The zero of a vector type has this type where a float may fill a vector. -/
theorem zero_typing (h : t.isFloatVector = true) (hfills : fills = true ∨ t = .float) :
    (typing fills).zero t = some t.shaderType := by
  by_cases ht : t = .float
  · subst ht
    exact real_typing .zero
  · obtain rfl := hfills.resolve_right ht
    cases t with
    | float | integer | mat4 | texture => contradiction
    | _ =>
      simp only [zero, real_typing]
      rfl

/-- A converted value has the type that it is converted to. -/
theorem convert?_typing {produced required : ValueType} {v : Option ShaderType}
    (h : (typing fills).convert? produced required (some produced.shaderType) = some v) :
    v = some required.shaderType := by
  cases required <;> cases produced <;>
    simp only [convert?, Option.some.injEq, reduceCtorEq, real_typing] at h <;> subst h <;> rfl

/-- A function of one argument keeps the type of its argument. -/
theorem unary_typing (f : UnaryFn) (h : t.isFloatVector = true) :
    (typing fills).unary f (some t.shaderType) = some t.shaderType := by
  cases t with
  | integer | mat4 | texture => cases h
  | _ => cases f <;> simp only [unary, real_typing] <;> rfl

/-- A function of two arguments of one type gives this type. -/
theorem binary_typing (f : BinaryFn) (h : t.isFloatVector = true) :
    (typing fills).binary f (some t.shaderType) (some t.shaderType) = some t.shaderType := by
  cases t with
  | integer | mat4 | texture => cases h
  | _ => cases f <;> rfl

end Interpretation

end MaterialNet
