import MaterialNet.Proofs.Tokens

namespace MaterialNet

/-!
# The grammar of expressions

The part of the shader language's grammar that expressions of a material use.  A rule of the grammar
is a constructor of `Derives`; the precedence of the operators is that of the symbols.  The grammar
is not ambiguous: `parse`, which reads the tokens from left to right and keeps a stack of what waits
for an operand, finds the term of every derivation.

* `Term` — what an expression says
* `Derives` — the grammar
* `parse`, `Derives.parse_eq` — the reading of an expression
* `Derives.unique` — an expression has one reading
-/

/-- An expression as it is read. -/
inductive Term where
  | name (w : String)
  | number (s : String)
  | select (t : Term) (field : String)
  | negate (t : Term)
  | affirm (t : Term)
  | binary (op : Operator) (left right : Term)
  | call (f : String) (arguments : List Term)

/-! ### Words -/

/-- The types that values are built of by a call. -/
def constructorNames : List String :=
  ([.float, .vec2, .vec3, .vec4, .integer, .mat4] : List ValueType).map ValueType.keyword

/-- The word calls a function or builds a value. -/
def isCallable (w : String) : Bool := calledNames.contains w || constructorNames.contains w

/-- The word is a variable.  A variable with the name of a function would hide the function, and is
    not counted as one. -/
def isVariable (w : String) : Bool := !keywords.contains w && !calledNames.contains w

/-- A word that calls something is no variable. -/
theorem isVariable_of_isCallable {w : String} (h : isCallable w = true) : isVariable w = false := by
  simp only [isCallable, Bool.or_eq_true, List.contains_iff_mem] at h
  simp only [isVariable, Bool.and_eq_false_iff, Bool.not_eq_false', List.contains_iff_mem]
  rcases h with h | h
  · exact .inr h
  · refine .inl ?_
    have hsub : ∀ w ∈ constructorNames, w ∈ keywords := by decide +kernel
    exact hsub w h

/-! ### Operators -/

namespace Operator

/-- The sign of an operator, as a character. -/
def char : Operator → Char
  | .plus => '+'
  | .minus => '-'
  | .times => '*'
  | .over => '/'

/-- The operator that a sign stands for. -/
def ofChar? (c : Char) : Option Operator :=
  if c = '+' then some .plus
  else if c = '-' then some .minus
  else if c = '*' then some .times
  else if c = '/' then some .over
  else none

/-- The sign of an operator stands for it. -/
theorem ofChar?_char (op : Operator) : ofChar? op.char = some op := by
  cases op <;> rfl

/-- How loosely an operator binds. -/
def level : Operator → Nat
  | .times | .over => 2
  | .plus | .minus => 3

end Operator

/-! ### The grammar -/

/-- The symbols of the grammar: a call up to its last argument, and the expressions, from those
    that bind tightest to those that bind loosest. -/
inductive Phrase where
  | opening
  | part
  | factor
  | product
  | sum
deriving DecidableEq, Repr

/-- How loosely a phrase binds. -/
def Phrase.level : Phrase → Nat
  | .opening | .part => 0
  | .factor => 1
  | .product => 2
  | .sum => 3

/-- The tokens of a phrase and what it says. -/
inductive Derives : Phrase → List Token → Term → Prop where
  | name {w : String} (h : isVariable w = true) : Derives .part [.word w] (.name w)
  | number {n : Numeral} (h : n.Plain) : Derives .part [.number n.text] (.number n.text)
  | parentheses {ts : List Token} {t : Term} (h : Derives .sum ts t) :
      Derives .part (.sign '(' :: ts ++ [.sign ')']) t
  | opening {f : String} {ts : List Token} {t : Term} (hf : isCallable f = true)
      (h : Derives .sum ts t) : Derives .opening (.word f :: .sign '(' :: ts) (.call f [t])
  | argument {f : String} {arguments : List Term} {ts ts' : List Token} {t : Term}
      (h : Derives .opening ts (.call f arguments)) (h' : Derives .sum ts' t) :
      Derives .opening (ts ++ .sign ',' :: ts') (.call f (arguments ++ [t]))
  | call {ts : List Token} {t : Term} (h : Derives .opening ts t) :
      Derives .part (ts ++ [.sign ')']) t
  | select {ts : List Token} {t : Term} {field : String} (h : Derives .part ts t) :
      Derives .part (ts ++ [.sign '.', .word field]) (.select t field)
  | factor {ts : List Token} {t : Term} (h : Derives .part ts t) : Derives .factor ts t
  | negate {ts : List Token} {t : Term} (h : Derives .factor ts t) :
      Derives .factor (.sign '-' :: ts) (.negate t)
  | affirm {ts : List Token} {t : Term} (h : Derives .factor ts t) :
      Derives .factor (.sign '+' :: ts) (.affirm t)
  | product {ts : List Token} {t : Term} (h : Derives .factor ts t) : Derives .product ts t
  | multiply {op : Operator} {ts ts' : List Token} {left right : Term} (hop : op.level = 2)
      (h : Derives .product ts left) (h' : Derives .factor ts' right) :
      Derives .product (ts ++ .sign op.char :: ts') (.binary op left right)
  | sum {ts : List Token} {t : Term} (h : Derives .product ts t) : Derives .sum ts t
  | add {op : Operator} {ts ts' : List Token} {left right : Term} (hop : op.level = 3)
      (h : Derives .sum ts left) (h' : Derives .product ts' right) :
      Derives .sum (ts ++ .sign op.char :: ts') (.binary op left right)

/-! ### Reading from left to right -/

/-- What waits for its last operand. -/
inductive Pending where
  | negate
  | affirm
  | binary (op : Operator) (left : Term)
  | parentheses
  | call (f : String) (arguments : List Term)

namespace Pending

/-- How loosely an operator in front binds its operand; parentheses and calls are ended by a sign
    of their own. -/
def level : Pending → Nat
  | .negate | .affirm => 1
  | .binary op _ => op.level
  | .parentheses | .call _ _ => 4

/-- An operator, parentheses or a call with the operand that was missing. -/
def fill (t : Term) : Pending → Term
  | .negate => .negate t
  | .affirm => .affirm t
  | .binary op left => .binary op left t
  | .parentheses => t
  | .call f arguments => .call f (arguments ++ [t])

end Pending

/-- What stands before the next token: an operator or nothing, the name of a function, an operand,
    or an operand and a point. -/
inductive Focus where
  | start
  | function (f : String)
  | operand (t : Term)
  | point (t : Term)

/-- Gives an operand to whatever waits for it and binds at least as tightly as an operator to
    come. -/
def settle (level : Nat) : List Pending → Term → List Pending × Term
  | [], t => ([], t)
  | top :: stack, t =>
    if top.level ≤ level then settle level stack (top.fill t) else (top :: stack, t)

/-- Reads a sign that follows an operand. -/
def afterOperand (stack : List Pending) (t : Term) (c : Char) : Option (List Pending × Focus) :=
  match Operator.ofChar? c with
  | some op =>
    let (stack', left) := settle op.level stack t
    some (.binary op left :: stack', .start)
  | none =>
    if c = '.' then some (stack, .point t)
    else if c = ')' then
      match settle 3 stack t with
      | (.parentheses :: stack', t') => some (stack', .operand t')
      | (.call f arguments :: stack', t') =>
        some (stack', .operand (.call f (arguments ++ [t'])))
      | _ => none
    else if c = ',' then
      match settle 3 stack t with
      | (.call f arguments :: stack', t') => some (.call f (arguments ++ [t']) :: stack', .start)
      | _ => none
    else none

/-- Reads a token. -/
def readToken : List Pending × Focus → Token → Option (List Pending × Focus)
  | (stack, .start), .word w =>
    if isVariable w then some (stack, .operand (.name w))
    else if isCallable w then some (stack, .function w)
    else none
  | (stack, .start), .number s => some (stack, .operand (.number s))
  | (stack, .start), .sign c =>
    if c = '-' then some (.negate :: stack, .start)
    else if c = '+' then some (.affirm :: stack, .start)
    else if c = '(' then some (.parentheses :: stack, .start)
    else none
  | (stack, .function f), .sign c => if c = '(' then some (.call f [] :: stack, .start) else none
  | (stack, .operand t), .sign c => afterOperand stack t c
  | (stack, .point t), .word w => some (stack, .operand (.select t w))
  | _, _ => none

/-- Reads several tokens. -/
def readTokens (state : List Pending × Focus) (ts : List Token) : Option (List Pending × Focus) :=
  ts.foldlM readToken state

/-- The reading of an expression. -/
def parse (ts : List Token) : Option Term :=
  match readTokens ([], .start) ts with
  | some (stack, .operand t) =>
    match settle 3 stack t with
    | ([], t') => some t'
    | _ => none
  | _ => none

/-! ### Every derivation is found -/

variable {stack stack' : List Pending} {t t' : Term} {ts ts' : List Token} {level : Nat}

/-- What binds at least as tightly as the operator to come takes its operand. -/
theorem settle_of_le {top : Pending} (h : top.level ≤ level) :
    settle level (top :: stack) t = settle level stack (top.fill t) := by
  rw [settle, if_pos h]

/-- What binds more loosely goes on waiting. -/
theorem settle_of_lt (h : ∀ top ∈ stack.head?, level < top.level) :
    settle level stack t = (stack, t) := by
  cases stack with
  | nil => rfl
  | cons top stack => rw [settle, if_neg (Nat.not_le.2 (h top rfl))]

/-- Nothing that waits binds as tightly as a component. -/
theorem settle_zero : settle 0 stack t = (stack, t) := by
  refine settle_of_lt fun top _ => ?_
  cases top with
  | binary op left => cases op <;> exact Nat.succ_pos _
  | _ => exact Nat.succ_pos _

@[simp] theorem readTokens_nil (state : List Pending × Focus) :
    readTokens state [] = some state := rfl

@[simp] theorem readTokens_cons (state : List Pending × Focus) (token : Token) (ts : List Token) :
    readTokens state (token :: ts) = (readToken state token).bind (readTokens · ts) := rfl

/-- Tokens may be read in two groups. -/
theorem readTokens_append (state : List Pending × Focus) (ts ts' : List Token) :
    readTokens state (ts ++ ts') = (readTokens state ts).bind (readTokens · ts') :=
  List.foldlM_append

/-- What waits on top of the stack binds more loosely than a phrase.  A factor is read before
    the operators in front of it are settled, so any stack will do for it. -/
def Phrase.Admits (phrase : Phrase) (stack : List Pending) : Prop :=
  2 ≤ phrase.level → ∀ top ∈ stack.head?, phrase.level < top.level

/-- Reading a phrase comes to its term, as soon as the operators that were met on the way are
    settled. -/
def Phrase.Finds (phrase : Phrase) (ts : List Token) (t : Term) : Prop :=
  match phrase with
  | .opening => ∀ stack, ∃ f arguments last stack' t', t = .call f (arguments ++ [last])
      ∧ readTokens (stack, .start) ts = some (stack', .operand t')
      ∧ settle 3 stack' t' = (.call f arguments :: stack, last)
  | phrase => ∀ stack, phrase.Admits stack → ∃ stack' t',
      readTokens (stack, .start) ts = some (stack', .operand t')
        ∧ ∀ level, phrase.level ≤ level → settle level stack' t' = settle level stack t

/-- A sum that is enclosed, between parentheses or as the argument of a call: when the sign that
    ends it is met, all operators of the sum are settled and nothing further down is. -/
theorem Phrase.Finds.enclosed (h : Phrase.sum.Finds ts t) (top : Pending) (stack : List Pending)
    (htop : top.level = 4) : ∃ stack' t',
      readTokens (top :: stack, .start) ts = some (stack', .operand t')
        ∧ settle 3 stack' t' = (top :: stack, t) := by
  have hhead : ∀ top' ∈ (top :: stack).head?, 3 < top'.level := by
    rintro _ ⟨⟩
    omega
  obtain ⟨stack', t', hread, hsettle⟩ := h (top :: stack) fun _ => hhead
  exact ⟨stack', t', hread, (hsettle 3 (Nat.le_refl _)).trans (settle_of_lt hhead)⟩

/-- A factor with an operator in front, which waits on the stack until the factor is settled. -/
theorem Phrase.Finds.prefixed (h : Phrase.factor.Finds ts t) {token : Token} (top : Pending)
    (htop : top.level = 1)
    (htoken : ∀ stack, readToken (stack, .start) token = some (top :: stack, .start)) :
    Phrase.factor.Finds (token :: ts) (top.fill t) := by
  intro stack _
  obtain ⟨stack', t', hread, hsettle⟩ := h (top :: stack) fun hlevel => absurd hlevel (by decide)
  refine ⟨stack', t', by simp [htoken, hread], fun level hlevel => ?_⟩
  rw [hsettle level hlevel]
  exact settle_of_le (Nat.le_trans (Nat.le_of_eq htop) hlevel)

/-- An operator between two operands: the left one is complete when the operator is met, and the
    operator waits on the stack until the right one is settled. -/
theorem finds_operator {op : Operator} (hop : op.level = level) {left right : Term}
    {stack₁ stack₂ : List Pending} {t₁ t₂ : Term}
    (hread : readTokens (stack, .start) ts = some (stack₁, .operand t₁))
    (hleft : settle level stack₁ t₁ = (stack, left))
    (hread' : readTokens (.binary op left :: stack, .start) ts' = some (stack₂, .operand t₂))
    (hright : ∀ level', level ≤ level' →
      settle level' stack₂ t₂ = settle level' (.binary op left :: stack) right) :
    ∃ stack' t', readTokens (stack, .start) (ts ++ .sign op.char :: ts')
        = some (stack', .operand t')
      ∧ ∀ level', level ≤ level' →
        settle level' stack' t' = settle level' stack (.binary op left right) := by
  subst hop
  refine ⟨stack₂, t₂, ?_, fun level' h => (hright level' h).trans (settle_of_le h)⟩
  -- The operator meets a complete left operand, and waits with it for the right one.
  rw [readTokens_append, hread]
  simp [readToken, afterOperand, Operator.ofChar?_char, hleft, hread']

/-- Every phrase is found, by induction on its derivation: what a constructor puts together is read
    one after the other. -/
theorem Derives.finds {phrase : Phrase} (h : Derives phrase ts t) : phrase.Finds ts t := by
  induction h with
  | name h => exact fun stack _ => ⟨stack, _, by simp [readToken, h], fun _ _ => rfl⟩
  | number h => exact fun stack _ => ⟨stack, _, by simp [readToken], fun _ _ => rfl⟩
  | parentheses h ih =>
    rename_i ts t
    intro stack _
    obtain ⟨stack', t', hread, hsum⟩ := ih.enclosed .parentheses stack rfl
    refine ⟨stack, t, ?_, fun _ _ => rfl⟩
    have hopen : readToken (stack, .start) (.sign '(') = some (.parentheses :: stack, .start) := rfl
    rw [List.cons_append, readTokens_cons, hopen, Option.bind_some, readTokens_append, hread]
    simp [readToken, afterOperand, Operator.ofChar?, hsum]
  | opening hf h ih =>
    rename_i f ts t
    intro stack
    obtain ⟨stack', t', hread, hsum⟩ := ih.enclosed (.call f []) stack rfl
    refine ⟨f, [], t, stack', t', rfl, ?_, hsum⟩
    simp [readToken, isVariable_of_isCallable hf, hf, hread]
  | argument h h' ih ih' =>
    rename_i f arguments ts ts' t
    intro stack
    obtain ⟨f', arguments', last, stack₁, t₁, heq, hread, hsettle⟩ := ih stack
    obtain ⟨rfl, rfl⟩ := Term.call.inj heq
    -- The comma completes the argument before it and leaves the call waiting for the next one.
    obtain ⟨stack₂, t₂, hread', hsum⟩ :=
      ih'.enclosed (.call f (arguments' ++ [last])) stack rfl
    refine ⟨f, arguments' ++ [last], t, stack₂, t₂, rfl, ?_, hsum⟩
    rw [readTokens_append, hread]
    simp [readToken, afterOperand, Operator.ofChar?, hsettle, hread']
  | call h ih =>
    intro stack _
    obtain ⟨f, arguments, last, stack₁, t₁, rfl, hread, hsettle⟩ := ih stack
    refine ⟨stack, _, ?_, fun _ _ => rfl⟩
    rw [readTokens_append, hread]
    simp [readToken, afterOperand, Operator.ofChar?, hsettle]
  | select h ih =>
    rename_i ts t field
    intro stack _
    obtain ⟨stack', t', hread, hsettle⟩ := ih stack fun hlevel => absurd hlevel (by decide)
    -- A point follows a part, and after a part nothing is left to settle.
    have hzero := hsettle 0 (Nat.le_refl _)
    rw [settle_zero, settle_zero] at hzero
    obtain ⟨rfl, rfl⟩ := Prod.mk.inj hzero
    refine ⟨stack', .select t' field, ?_, fun _ _ => rfl⟩
    rw [readTokens_append, hread]
    simp [readToken, afterOperand, Operator.ofChar?]
  | factor h ih =>
    intro stack _
    obtain ⟨stack', t', hread, hsettle⟩ := ih stack fun hlevel => absurd hlevel (by decide)
    exact ⟨stack', t', hread, fun level _ => hsettle level (Nat.zero_le _)⟩
  | negate h ih => exact ih.prefixed .negate rfl fun _ => rfl
  | affirm h ih => exact ih.prefixed .affirm rfl fun _ => rfl
  | product h ih =>
    intro stack _
    obtain ⟨stack', t', hread, hsettle⟩ := ih stack fun hlevel => absurd hlevel (by decide)
    exact ⟨stack', t', hread, fun level hlevel => hsettle level (Nat.le_of_succ_le hlevel)⟩
  | multiply hop h h' ih ih' =>
    rename_i op ts ts' left right
    intro stack hstack
    obtain ⟨stack₁, t₁, hread, hsettle⟩ := ih stack hstack
    obtain ⟨stack₂, t₂, hread', hsettle'⟩ := ih' (.binary op left :: stack)
      fun hlevel => absurd hlevel (by decide)
    have hleft : settle 2 stack₁ t₁ = (stack, left) :=
      (hsettle 2 (Nat.le_refl _)).trans (settle_of_lt (hstack (Nat.le_refl _)))
    exact finds_operator hop hread hleft hread' fun level hlevel =>
      hsettle' level (Nat.le_of_succ_le hlevel)
  | sum h ih =>
    intro stack hstack
    obtain ⟨stack', t', hread, hsettle⟩ := ih stack fun _ top htop =>
      Nat.lt_of_succ_lt (hstack (by decide) top htop)
    exact ⟨stack', t', hread, fun level hlevel => hsettle level (Nat.le_of_succ_le hlevel)⟩
  | add hop h h' ih ih' =>
    rename_i op ts ts' left right
    intro stack hstack
    -- The right operand is a product, so it may stand above the operator.
    have htop : ∀ top ∈ (Pending.binary op left :: stack).head?, 2 < top.level := by
      rintro _ ⟨⟩
      exact Nat.lt_of_succ_le (Nat.le_of_eq hop.symm)
    obtain ⟨stack₁, t₁, hread, hsettle⟩ := ih stack hstack
    obtain ⟨stack₂, t₂, hread', hsettle'⟩ := ih' (.binary op left :: stack) fun _ => htop
    have hleft : settle 3 stack₁ t₁ = (stack, left) :=
      (hsettle 3 (Nat.le_refl _)).trans (settle_of_lt (hstack (by decide)))
    exact finds_operator hop hread hleft hread' fun level hlevel =>
      hsettle' level (Nat.le_of_succ_le hlevel)

/-- A derivation is what reading its tokens finds. -/
theorem Derives.parse_eq (h : Derives .sum ts t) : parse ts = some t := by
  obtain ⟨stack, t', hread, hsettle⟩ := h.finds [] fun _ _ h => nomatch h
  have hsum : settle 3 stack t' = ([], t) := hsettle 3 (Nat.le_refl _)
  simp [parse, hread, hsum]

/-- Products bind tighter than sums, and the operators of a sum are read from the left. -/
example : parse [.word "a", .sign '-', .word "b", .sign '*', .sign '-', .word "c", .sign '-',
      .word "d"]
    = some (.binary .minus
      (.binary .minus (.name "a") (.binary .times (.name "b") (.negate (.name "c"))))
      (.name "d")) := rfl

/-- The grammar is not ambiguous. -/
theorem Derives.unique (h : Derives .sum ts t) (h' : Derives .sum ts t') : t = t' :=
  Option.some.inj (h.parse_eq.symm.trans h'.parse_eq)

end MaterialNet
