import Mathlib.Logic.Function.Basic
import Mathlib.Data.List.Forall2
import MaterialNet.Proofs.Grammar

namespace MaterialNet

/-!
# What lines say and what they do

Lines are read as statements and executed in order.  The values, the operators and the functions
are those of an `Interpretation`, of which nothing is assumed; a `Store` holds the contents of all
variables, the uniforms and the inputs of the program among them.

* `Statement`, `LineReads`, `Reads` — the statements that lines say
* `Reads.unique` — lines can be read in one way only
* `Interpretation`, `Term.eval` — the value of an expression
* `execute` — the contents of the variables after some statements
-/

universe u

/-! ### Statements -/

/-- A statement as it is read. -/
inductive Statement where
  | assign (target : String) (value : Term)
  | assignPart (target field : String) (value : Term)
  | define (type target : String) (value : Term)

/-- The variable that a statement sets. -/
def Statement.target : Statement → String
  | .assign target _ | .assignPart target _ _ | .define _ target _ => target

/-- The tokens of a statement. -/
inductive StatementReads : List Token → Statement → Prop where
  | assign {x : String} {ts : List Token} {t : Term} (hx : isVariable x = true)
      (h : Derives .sum ts t) :
      StatementReads (.word x :: .sign '=' :: ts ++ [.sign ';']) (.assign x t)
  | assignPart {x field : String} {ts : List Token} {t : Term} (hx : isVariable x = true)
      (h : Derives .sum ts t) :
      StatementReads (.word x :: .sign '.' :: .word field :: .sign '=' :: ts ++ [.sign ';'])
        (.assignPart x field t)
  | define {type x : String} {ts : List Token} {t : Term} (htype : type ∈ constructorNames)
      (hx : isVariable x = true) (h : Derives .sum ts t) :
      StatementReads (.word type :: .word x :: .sign '=' :: ts ++ [.sign ';']) (.define type x t)

/-- What a line says: one statement, or nothing if there is only a comment. -/
inductive LineReads (text : String) : Option Statement → Prop where
  | comment (h : tokens? text = some []) : LineReads text none
  | statement {ts : List Token} {s : Statement} (h : tokens? text = some ts)
      (hs : StatementReads ts s) : LineReads text (some s)

/-- What several lines say. -/
def Reads (lines : List String) (program : List Statement) : Prop :=
  ∃ parts, List.Forall₂ LineReads lines parts ∧ parts.reduceOption = program

/-- A statement can be read in one way only: what stands between the sign and the semicolon is an
    expression, and expressions have one reading. -/
theorem StatementReads.unique {ts : List Token} {s s' : Statement} (h : StatementReads ts s)
    (h' : StatementReads ts s') : s = s' := by
  -- The second token tells which kind of statement it is.
  -- The first tokens tell the three forms apart.
  cases h with
  | assign hx ht =>
    rename_i x ts t
    generalize hts : Token.word x :: .sign '=' :: ts ++ [.sign ';'] = all at h'
    cases h' with
    | assign hx' ht' =>
      simp only [List.cons_append, List.cons.injEq, Token.word.injEq, true_and,
        List.append_cancel_right_eq] at hts
      obtain ⟨rfl, rfl⟩ := hts
      rw [ht.unique ht']
    | assignPart => simp at hts
    | define => simp at hts
  | assignPart hx ht =>
    rename_i x field ts t
    generalize hts : Token.word x :: .sign '.' :: .word field :: .sign '=' :: ts ++ [.sign ';']
      = all at h'
    cases h' with
    | assign => simp at hts
    | assignPart hx' ht' =>
      simp only [List.cons_append, List.cons.injEq, Token.word.injEq, true_and,
        List.append_cancel_right_eq] at hts
      obtain ⟨rfl, rfl, rfl⟩ := hts
      rw [ht.unique ht']
    | define => simp at hts
  | define htype hx ht =>
    rename_i type x ts t
    generalize hts : Token.word type :: .word x :: .sign '=' :: ts ++ [.sign ';'] = all at h'
    cases h' with
    | assign => simp at hts
    | assignPart => simp at hts
    | define htype' hx' ht' =>
      simp only [List.cons_append, List.cons.injEq, Token.word.injEq, true_and,
        List.append_cancel_right_eq] at hts
      obtain ⟨rfl, rfl, rfl⟩ := hts
      rw [ht.unique ht']

/-- A statement has tokens. -/
theorem StatementReads.ne_nil {ts : List Token} {s : Statement} (h : StatementReads ts s) :
    ts ≠ [] := by
  cases h <;> simp

/-- A line is a comment or says one thing. -/
theorem LineReads.unique {text : String} {part part' : Option Statement} (h : LineReads text part)
    (h' : LineReads text part') : part = part' := by
  -- A comment has no tokens, and a statement has some.
  cases h with
  | comment h =>
    cases h' with
    | comment => rfl
    | statement h' hs' => exact absurd (Option.some.inj (h'.symm.trans h)) hs'.ne_nil
  | statement h hs =>
    cases h' with
    | comment h' => exact absurd (Option.some.inj (h.symm.trans h')) hs.ne_nil
    | statement h' hs' =>
      obtain rfl := Option.some.inj (h.symm.trans h')
      rw [hs.unique hs']

/-- Lines can be read in one way only. -/
theorem Reads.unique {lines : List String} {program program' : List Statement}
    (h : Reads lines program) (h' : Reads lines program') : program = program' := by
  obtain ⟨parts, hparts, rfl⟩ := h
  obtain ⟨parts', hparts', rfl⟩ := h'
  congr 1
  -- Line by line.
  induction hparts generalizing parts' with
  | nil =>
    cases hparts'
    rfl
  | cons hline _ ih =>
    cases hparts' with
    | cons hline' hrest' => rw [hline.unique hline', ih _ hrest']

/-! ### Values -/

/-- A set of values, with whatever the operators, functions and components may do to them. -/
structure Interpretation (V : Type u) where
  /-- The value of a numeral. -/
  number : String → V
  negate : V → V
  affirm : V → V
  operate : Operator → V → V → V
  /-- The value of a function, or of the constructor of a type. -/
  call : String → List V → V
  /-- Some components of a value. -/
  select : String → V → V
  /-- A value with some components replaced. -/
  update : String → V → V → V

/-- The contents of the variables. -/
abbrev Store (V : Type u) := String → V

variable {V : Type u} (I : Interpretation V)

namespace Term

mutual

/-- The value of an expression. -/
def eval (store : Store V) : Term → V
  | .name w => store w
  | .number s => I.number s
  | .select t field => I.select field (t.eval store)
  | .negate t => I.negate (t.eval store)
  | .affirm t => I.affirm (t.eval store)
  | .binary op left right => I.operate op (left.eval store) (right.eval store)
  | .call f arguments => I.call f (evalAll store arguments)

/-- The values of several expressions. -/
def evalAll (store : Store V) : List Term → List V
  | [] => []
  | t :: rest => t.eval store :: evalAll store rest

end

end Term

/-! ### Execution -/

/-- The contents of the variables after a statement. -/
def Statement.exec (store : Store V) : Statement → Store V
  | .assign target value | .define _ target value =>
    Function.update store target (value.eval I store)
  | .assignPart target field value =>
    Function.update store target (I.update field (store target) (value.eval I store))

/-- The contents of the variables after several statements. -/
def execute (program : List Statement) (store : Store V) : Store V :=
  program.foldl (Statement.exec I) store

/-- What is written later is done later. -/
theorem execute_append (program program' : List Statement) (store : Store V) :
    execute I (program ++ program') store = execute I program' (execute I program store) :=
  List.foldl_append

/-- A variable that no statement sets is left alone. -/
theorem execute_of_not_target {program : List Statement} {x : String}
    (h : ∀ s ∈ program, s.target ≠ x) (store : Store V) : execute I program store x = store x := by
  induction program generalizing store with
  | nil => rfl
  | cons s rest ih =>
    show execute I rest (s.exec I store) x = store x
    rw [ih (fun s' hs' => h s' (List.mem_cons_of_mem _ hs'))]
    have hx : x ≠ s.target := (h s List.mem_cons_self).symm
    cases s <;> exact Function.update_of_ne hx _ _

end MaterialNet
