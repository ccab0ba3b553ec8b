import MaterialNet.Line
import MaterialNet.Proofs.Execution
import MaterialNet.Shader.Function

namespace MaterialNet

/-!
# Expressions that read as they are meant

An expression is kept as a tree and written without parentheses.  `Expr.term` is what the tree
means, and an expression is *legible* if its text is read as this term: its characters make up the
tokens, and the operators in it take their operands with the precedence of the language.  There is
one lemma for each way in which texts are put together.

* `Expr.term`, `Line.statement?` — what expressions and lines mean
* `Legible`, `Expr.Legible` — a text that reads as a term, an expression that reads as it is meant
* `Line.legible_assign`, … — lines of legible expressions are legible
-/

/-! ### What is meant -/

/-- A number without its sign. -/
def Numeral.magnitude (n : Numeral) : Numeral := { n with negative := false }

/-- What a numeral means: the sign is an operator of its own. -/
def Numeral.term (n : Numeral) : Term :=
  if n.negative then .negate (.number n.magnitude.text) else .number n.magnitude.text

/-- What a float literal means. -/
def Binary32.term (x : Binary32) : Term := (Layout.shader.numeral x).term

/-- What a literal means. -/
def Constant.term (c : Constant) : Term :=
  match c with
  | .float x => x.term
  | .integer n => (Numeral.ofInt n.toInt).term
  | c => .call c.type.keyword (c.components.map Binary32.term)

namespace Expr

mutual

/-- What an expression means. -/
def term : Expr → Term
  | .name id => .name id
  | .constant c => c.term
  | .select e swizzle => .select e.term swizzle
  | .negate e => .negate e.term
  | .binary op left right => .binary op left.term right.term
  | .call f arguments => .call (Named.name f) (termAll arguments)
  | .construct t arguments => .call t.keyword (termAll arguments)

/-- What several expressions mean. -/
def termAll : List Expr → List Term
  | [] => []
  | e :: rest => e.term :: termAll rest

end

/-- Several expressions mean what each of them means. -/
theorem termAll_eq_map (es : List Expr) : termAll es = es.map term := by
  induction es with
  | nil => rfl
  | cons e rest ih => rw [termAll, ih, List.map_cons]

end Expr

/-- What a line says. -/
def Line.statement? : Line → Option Statement
  | .assign target value => some (.assign target value.term)
  | .assignPart target swizzle value => some (.assignPart target swizzle value.term)
  | .define type target value => some (.define type.keyword target value.term)
  | .label _ | .noInput => none

/-! ### Words -/

/-- A word of letters, digits and underscores that does not begin with a digit. -/
def isWord (w : String) : Bool :=
  match w.toList with
  | [] => false
  | c :: cs => isIdentifierStart c && cs.all isIdentifierChar

/-- A well-formed name is a word. -/
theorem isWord_of_isWellFormed {w : String} (h : isWellFormed w = true) : isWord w = true := by
  unfold isWellFormed at h
  split at h
  · cases h
  · rename_i c rest hw
    simp only [Bool.and_eq_true] at h
    simp only [isWord, hw, Bool.and_eq_true]
    exact h.1.1

/-- A word is read as one token, and begins as words do. -/
theorem spells_of_isWord {w : String} (h : isWord w = true) :
    Spells w.toList [.word w] (.word w.toList)
      ∧ ∃ c cs, w.toList = c :: cs ∧ isIdentifierStart c = true := by
  -- A word has a first character, which may begin a word.
  unfold isWord at h
  split at h
  · cases h
  · rename_i c cs hw
    rw [Bool.and_eq_true, List.all_eq_true] at h
    have hspells := spells_word h.1 h.2
    have hofList : String.ofList (c :: cs) = w := by rw [← hw, String.ofList_toList]
    rw [hofList] at hspells
    rw [hw]
    exact ⟨hspells, c, cs, rfl, h.1⟩

/-! ### The phrases of an operator -/

/-- The phrase that an operator makes, which is also what it takes on its left. -/
def Operator.phrase : Operator → Phrase
  | .times | .over => .product
  | .plus | .minus => .sum

/-- The phrase that an operator takes on its right: operators are read from the left, so it binds
    tighter than what the operator makes. -/
def Operator.operand : Operator → Phrase
  | .times | .over => .factor
  | .plus | .minus => .product

/-- The two rules of the grammar for operators, as one. -/
theorem Derives.operator {ts ts' : List Token} {left right : Term} (op : Operator)
    (h : Derives op.phrase ts left) (h' : Derives op.operand ts' right) :
    Derives op.phrase (ts ++ .sign op.char :: ts') (.binary op left right) := by
  cases op with
  | plus | minus => exact .add rfl h h'
  | _ => exact .multiply rfl h h'

/-! ### Legible texts -/

/-- The characters that may follow an expression. -/
def closers : List Char := [' ', ',', ')', ';']

/-- A text that is read as a term, by the rules of a phrase of the grammar.  Its last token ends
    before whatever follows an expression, and a phrase that binds tightest begins with a letter, an
    underscore or a digit. -/
def Legible (phrase : Phrase) (cs : List Char) (t : Term) : Prop :=
  ∃ ts last, Spells cs ts last ∧ Derives phrase ts t ∧ (∀ c ∈ closers, last.endsAt c = true)
    ∧ ∃ c rest, cs = c :: rest ∧ (phrase.level = 0 → isIdentifierChar c = true)

/-- A text whose components can be selected: it ends in a word. -/
def Accessible (cs : List Char) (t : Term) : Prop :=
  ∃ ts w, Spells cs ts (.word w) ∧ Derives .part ts t
    ∧ ∃ c rest, cs = c :: rest ∧ isIdentifierChar c = true

variable {phrase : Phrase} {cs cs' : List Char} {t t' : Term} {w f : String} {op : Operator}

/-- A word ends before whatever is not part of it. -/
theorem endsAt_word {w : List Char} {c : Char} (h : isIdentifierChar c = false) :
    (Lexeme.word w).endsAt c = true := by
  simp [Lexeme.endsAt, h]

/-- A point ends before a letter. -/
theorem endsAt_point {c : Char} (h : isIdentifierStart c = true) :
    (Lexeme.sign '.').endsAt c = true := by
  have hequals : c ≠ '=' := by
    rintro rfl
    cases h
  simp [Lexeme.endsAt, Lexeme.joins, not_isDigit_of_start h, hequals]

/-- What follows an expression is no part of a word. -/
theorem not_isIdentifierChar_of_closers {c : Char} (h : c ∈ closers) :
    isIdentifierChar c = false := by
  simp only [closers, List.mem_cons, List.not_mem_nil, or_false] at h
  rcases h with rfl | rfl | rfl | rfl <;> decide

namespace Accessible

/-- What ends in a word binds tightest, and ends before whatever follows an expression. -/
theorem legible (h : Accessible cs t) : Legible .part cs t := by
  obtain ⟨ts, w, hspells, hderives, c, rest, hcs, hc⟩ := h
  exact ⟨ts, .word w, hspells, hderives,
    fun d hd => endsAt_word (not_isIdentifierChar_of_closers hd), c, rest, hcs, fun _ => hc⟩

/-- A variable is read as its name. -/
theorem name (hword : isWord w = true) (hw : isVariable w = true) :
    Accessible w.toList (.name w) := by
  obtain ⟨hspells, c, cs, hcs, hc⟩ := spells_of_isWord hword
  exact ⟨_, _, hspells, .name hw, c, cs, hcs, isIdentifierChar_of_start hc⟩

/-- A point and a field after a part make a part, which ends in the field. -/
theorem select (h : Accessible cs t) (hword : isWord w = true) :
    Accessible (cs ++ '.' :: w.toList) (.select t w) := by
  obtain ⟨ts, last, hspells, hderives, c, rest, rfl, hc⟩ := h
  obtain ⟨hfield, d, ds, hw, hd⟩ := spells_of_isWord hword
  have hpoint : Spells ['.'] [.sign '.'] (.sign '.') := spells_sign (by decide)
  rw [hw] at hfield ⊢
  have htail := hpoint.append hfield (endsAt_point hd)
  exact ⟨_, _, hspells.append (c := '.') htail (endsAt_word (by decide)), .select hderives, c, _,
    rfl, hc⟩

end Accessible

namespace Legible

/-! ### Putting texts together -/

/-- What binds tightest is a factor. -/
theorem factor (h : Legible .part cs t) : Legible .factor cs t := by
  obtain ⟨ts, last, hspells, hderives, hends, c, rest, hcs, hc⟩ := h
  exact ⟨ts, last, hspells, .factor hderives, hends, c, rest, hcs, nofun⟩

/-- A factor is a product. -/
theorem product (h : Legible .factor cs t) : Legible .product cs t := by
  obtain ⟨ts, last, hspells, hderives, hends, c, rest, hcs, hc⟩ := h
  exact ⟨ts, last, hspells, .product hderives, hends, c, rest, hcs, nofun⟩

/-- A product is a sum. -/
theorem sum (h : Legible .product cs t) : Legible .sum cs t := by
  obtain ⟨ts, last, hspells, hderives, hends, c, rest, hcs, hc⟩ := h
  exact ⟨ts, last, hspells, .sum hderives, hends, c, rest, hcs, nofun⟩

/-- A number binds tightest, and no character that follows an expression goes on with it. -/
theorem number {n : Numeral} (h : n.Plain) : Legible .part n.chars (.number n.text) := by
  obtain ⟨d, rest, hchars, -⟩ := h.chars_eq
  refine ⟨_, _, h.spells, .number h, fun c hc => ?_, d.char, rest, hchars,
    fun _ => isIdentifierChar_digit d⟩
  simp only [closers, List.mem_cons, List.not_mem_nil, or_false] at hc
  rcases hc with rfl | rfl | rfl | rfl <;> simp [Lexeme.endsAt, isIdentifierChar]

/-- No second minus follows a minus, since what is negated binds tightest. -/
theorem negate (h : Legible .part cs t) : Legible .factor ('-' :: cs) (.negate t) := by
  obtain ⟨ts, last, hspells, hderives, hends, c, rest, rfl, hc⟩ := h
  have hminus : Spells ['-'] [.sign '-'] (.sign '-') := spells_sign (by decide)
  -- What is negated begins with a letter or a digit, so the minus is a token of its own.
  have hend : (Lexeme.sign '-').endsAt c = true := by
    have hequals : c ≠ '=' := by
      rintro rfl
      cases hc rfl
    have hsecond : c ≠ '-' := by
      rintro rfl
      cases hc rfl
    simp [Lexeme.endsAt, Lexeme.joins, hequals, hsecond]
  exact ⟨_, last, hminus.append hspells hend, .negate (.factor hderives), hends, '-', _, rfl,
    fun hlevel => absurd hlevel (by decide)⟩

/-- The text of an operator between two others. -/
theorem spells_operator {xs ys : List Char} {ts ts' : List Token} {l l' : Lexeme} {c : Char}
    (op : Operator) (h : Spells xs ts l) (hend : l.endsAt ' ' = true)
    (h' : Spells (c :: ys) ts' l') :
    Spells (xs ++ ' ' :: op.char :: ' ' :: c :: ys) (ts ++ .sign op.char :: ts') l' := by
  have hsign : Spells [' ', op.char, ' '] [.sign op.char] .blank := by
    cases op <;> exact ⟨_, rfl, rfl⟩
  have htail := hsign.append h' rfl
  exact h.append (c := ' ') htail hend

/-- Two texts with an operator between them, each of a phrase that the operator takes on its
    side. -/
theorem operator (op : Operator) (h : Legible op.phrase cs t) (h' : Legible op.operand cs' t') :
    Legible op.phrase (cs ++ ' ' :: op.char :: ' ' :: cs') (.binary op t t') := by
  obtain ⟨ts, last, hspells, hderives, hends, c, rest, rfl, -⟩ := h
  obtain ⟨ts', last', hspells', hderives', hends', c', rest', rfl, -⟩ := h'
  -- No operator makes a phrase that binds tightest, so nothing is asked of the first character.
  have hloose : op.phrase.level ≠ 0 := by cases op <;> decide
  exact ⟨_, last', spells_operator op hspells (hends ' ' (by decide)) hspells',
    .operator op hderives hderives', hends', c, _, rfl, fun hlevel => absurd hlevel hloose⟩

/-- What can be called is spelled as a word. -/
theorem isWord_of_isCallable (h : isCallable f = true) : isWord f = true := by
  have hall : ∀ w ∈ calledNames ++ constructorNames, isWord w = true := by decide +kernel
  refine hall f ?_
  simpa [isCallable, List.contains_iff_mem] using h

/-- A call opens with the name of the function, a bracket and the first argument. -/
theorem opening (hf : isCallable f = true) (h : Legible .sum cs t) :
    Legible .opening (f.toList ++ '(' :: cs) (.call f [t]) := by
  obtain ⟨ts, last, hspells, hderives, hends, c, rest, rfl, -⟩ := h
  obtain ⟨hname, d, ds, hd, hstart⟩ := spells_of_isWord (isWord_of_isCallable hf)
  have hsign : Spells ['('] [.sign '('] (.sign '(') := spells_sign (by decide)
  have hend : (Lexeme.sign '(').endsAt c = true := by
    simp [Lexeme.endsAt, Lexeme.joins]
  have hword : (Lexeme.word f.toList).endsAt '(' = true := endsAt_word (by decide)
  refine ⟨_, last, hname.append (hsign.append hspells hend) hword, .opening hf hderives, hends, d,
    ds ++ '(' :: c :: rest, by rw [hd]; rfl, fun _ => isIdentifierChar_of_start hstart⟩

/-- After a comma an opened call takes another argument. -/
theorem argument {arguments : List Term} (h : Legible .opening cs (.call f arguments))
    (h' : Legible .sum cs' t) :
    Legible .opening (cs ++ ',' :: ' ' :: cs') (.call f (arguments ++ [t])) := by
  obtain ⟨ts, last, hspells, hderives, hends, c, rest, rfl, hc⟩ := h
  obtain ⟨ts', last', hspells', hderives', hends', c', rest', rfl, -⟩ := h'
  have hcomma : Spells [',', ' '] [.sign ','] .blank := ⟨_, rfl, rfl⟩
  have htail := hcomma.append hspells' rfl
  exact ⟨_, last', hspells.append (c := ',') htail (hends ',' (by decide)),
    .argument hderives hderives', hends', c, _, rfl, hc⟩

/-- A bracket closes a call, which binds tightest. -/
theorem call (h : Legible .opening cs t) : Legible .part (cs ++ [')']) t := by
  obtain ⟨ts, last, hspells, hderives, hends, c, rest, rfl, hc⟩ := h
  have hsign : Spells [')'] [.sign ')'] (.sign ')') := spells_sign (by decide)
  have hclose := hspells.append hsign (hends ')' (by decide))
  have hends' : ∀ d ∈ closers, (Lexeme.sign ')').endsAt d = true := by
    intro d hd
    simp [Lexeme.endsAt, Lexeme.joins]
  exact ⟨_, _, hclose, .call hderives, hends', c, _, rfl, fun _ => hc rfl⟩

end Legible

/-! ### Legible expressions -/

/-- The text of an expression is read as it is meant. -/
structure Expr.Legible (phrase : Phrase) (e : Expr) : Prop where
  reads : MaterialNet.Legible phrase e.text.toList e.term

/-- Components of the expression can be selected. -/
structure Expr.Accessible (e : Expr) : Prop where
  reads : MaterialNet.Accessible e.text.toList e.term

namespace Expr

variable {e left right : Expr}

theorem Accessible.part (h : e.Accessible) : e.Legible .part := ⟨h.reads.legible⟩

theorem Legible.factor (h : e.Legible .part) : e.Legible .factor := ⟨h.reads.factor⟩

theorem Legible.product (h : e.Legible .factor) : e.Legible .product := ⟨h.reads.product⟩

theorem Legible.sum (h : e.Legible .product) : e.Legible .sum := ⟨h.reads.sum⟩

/-- What binds tightest may stand anywhere. -/
theorem Legible.of_part (h : e.Legible .part) : e.Legible .sum := h.factor.product.sum

/-- Components of a variable can be selected. -/
theorem accessible_name {id : String} (hword : isWord id = true) (hid : isVariable id = true) :
    (Expr.name id).Accessible := by
  refine ⟨?_⟩
  rw [text, term]
  exact .name hword hid

/-- Components of components can be selected. -/
theorem accessible_select {swizzle : String} (h : e.Accessible) (hword : isWord swizzle = true) :
    (Expr.select e swizzle).Accessible := by
  refine ⟨?_⟩
  have hselect := h.reads.select hword
  simpa [text, term] using hselect

/-- A minus stands before what binds tightest, and makes a factor of it. -/
theorem legible_negate (h : e.Legible .part) : (Expr.negate e).Legible .factor := by
  refine ⟨?_⟩
  have hnegate := h.reads.negate
  simpa [text, term] using hnegate

/-- An operator stands between its operands, with a blank on each side. -/
theorem text_binary (op : Operator) :
    (Expr.binary op left right).text.toList
      = left.text.toList ++ ' ' :: op.char :: ' ' :: right.text.toList := by
  cases op <;> simp [text, Operator.sign, Operator.char]

/-- An operator between two expressions needs no parentheses if each operand is of a phrase that
    the operator takes on its side. -/
theorem legible_operator (op : Operator) (h : left.Legible op.phrase)
    (h' : right.Legible op.operand) : (Expr.binary op left right).Legible op.phrase := by
  refine ⟨?_⟩
  rw [text_binary, term]
  exact .operator op h.reads h'.reads

/-! ### Calls -/

/-- The arguments after the first one each follow a comma and a blank. -/
theorem text_textList_cons (e : Expr) (es : List Expr) :
    (textList (e :: es)).toList
      = e.text.toList ++ es.flatMap fun e => ',' :: ' ' :: e.text.toList := by
  induction es generalizing e with
  | nil => simp [textList]
  | cons e' es ih => simp [textList, ih]

/-- The arguments of a call are read one after the other. -/
theorem legible_opening {f : String} {cs : List Char} {arguments : List Term} {es : List Expr}
    (h : MaterialNet.Legible .opening cs (.call f arguments)) (hes : ∀ e ∈ es, e.Legible .sum) :
    MaterialNet.Legible .opening (cs ++ es.flatMap fun e => ',' :: ' ' :: e.text.toList)
      (.call f (arguments ++ es.map term)) := by
  -- Argument by argument: what has been read so far is an opened call.
  induction es generalizing cs arguments with
  | nil => simpa using h
  | cons e es ih =>
    have hfirst := h.argument (hes e List.mem_cons_self).reads
    have hrest := ih hfirst fun e' he' => hes e' (List.mem_cons_of_mem _ he')
    simpa using hrest

/-- A call with arguments is read as a call, from its name to its last bracket. -/
theorem legible_textList {f : String} {es : List Expr} (hf : isCallable f = true) (hne : es ≠ [])
    (hes : ∀ e ∈ es, e.Legible .sum) :
    MaterialNet.Legible .part (f ++ "(" ++ textList es ++ ")").toList (.call f (termAll es)) := by
  obtain ⟨e, rest, rfl⟩ := List.exists_cons_of_ne_nil hne
  have hfirst := MaterialNet.Legible.opening hf (hes e List.mem_cons_self).reads
  have hopening := legible_opening hfirst fun e' he' => hes e' (List.mem_cons_of_mem _ he')
  have hcall := hopening.call
  rw [termAll_eq_map]
  simpa [text_textList_cons] using hcall

/-- The functions that expressions call can be called. -/
theorem isCallable_name (f : Builtin) : isCallable (Named.name f) = true := by
  cases f <;> decide +kernel

/-- A call needs no parentheses around it, and none around its arguments. -/
theorem legible_call {f : Builtin} {es : List Expr} (hne : es ≠ [])
    (hes : ∀ e ∈ es, e.Legible .sum) : (Expr.call f es).Legible .part := by
  refine ⟨?_⟩
  rw [text, term]
  exact legible_textList (isCallable_name f) hne hes

/-- A constructor is read like a call. -/
theorem legible_construct {t : ValueType} {es : List Expr} (ht : t ≠ .texture) (hne : es ≠ [])
    (hes : ∀ e ∈ es, e.Legible .sum) : (Expr.construct t es).Legible .part := by
  have hkeyword : isCallable t.keyword = true := by
    cases t with
    | texture => exact absurd rfl ht
    | _ => decide +kernel
  refine ⟨?_⟩
  rw [text, term]
  exact legible_textList hkeyword hne hes

end Expr

/-! ### Literals -/

/-- A number in plain layout has digits before its point. -/
theorem Layout.whole_plain_ne_nil {negative : Bool} {digits : List Digit} (h : digits ≠ [])
    (power : Int) : (Layout.plain negative digits power).whole ≠ [] := by
  unfold Layout.plain
  dsimp only
  split
  · simp [h]
  · split
    · rename_i hlt
      rw [ne_eq, List.take_eq_nil_iff, not_or]
      exact ⟨by omega, h⟩
    · simp

/-- A float is written with digits in front, and with digits in its power of ten. -/
theorem Layout.plain_numeralOf (L : Layout) (F : Format) (negative : Bool) (code : Nat) :
    (L.numeralOf F negative code).magnitude.Plain
      ∧ (L.numeralOf F negative code).negative = negative := by
  have hdigits n : digitsOf n ≠ [] := digitsOf_ne_nil n
  unfold Layout.numeralOf
  -- A zero, a number in plain layout, and one with a power of ten.
  split
  · exact ⟨⟨rfl, whole_plain_ne_nil (by simp) 0, nofun⟩, rfl⟩
  · dsimp only
    split
    · exact ⟨⟨rfl, whole_plain_ne_nil (hdigits _) _, nofun⟩, rfl⟩
    · refine ⟨⟨rfl, ?_, ?_⟩, rfl⟩
      · simp [Numeral.magnitude, Layout.scientific, hdigits]
      · simp [Numeral.magnitude, Layout.scientific, hdigits]

/-- An integer is written with digits, and without a point or a power of ten. -/
theorem Numeral.plain_ofInt (n : Int) : (Numeral.ofInt n).magnitude.Plain :=
  ⟨rfl, digitsOf_ne_nil _, by simp [Numeral.magnitude, Numeral.ofInt]⟩

/-- A numeral is its sign, if it has one, before its magnitude. -/
theorem Numeral.chars_eq (n : Numeral) :
    n.chars = if n.negative then '-' :: n.magnitude.chars else n.magnitude.chars := by
  unfold Numeral.chars Numeral.magnitude
  cases n.negative <;> rfl

/-- A numeral with its sign is a factor. -/
theorem Numeral.legible {n : Numeral} (h : n.magnitude.Plain) :
    Legible .factor n.text.toList n.term := by
  have hnumber := Legible.number h
  rw [Numeral.text, String.toList_ofList, n.chars_eq, Numeral.term]
  split
  · exact hnumber.negate
  · exact hnumber.factor

/-- A numeral without a sign binds tightest. -/
theorem Numeral.legible_of_nonneg {n : Numeral} (h : n.magnitude.Plain) (hn : n.negative = false) :
    Legible .part n.text.toList n.term := by
  have hnumber := Legible.number h
  rw [Numeral.text, String.toList_ofList, n.chars_eq, Numeral.term, hn]
  exact hnumber

/-- A finite float is written as its numeral. -/
theorem Binary32.shaderText_of_isFinite {x : Binary32} (h : x.isFinite = true) :
    x.shaderText = (Layout.shader.numeral x).text := by
  have hnan : x.isNaN = false := by
    simp only [isFinite, decide_eq_true_eq] at h
    simp only [isNaN, decide_eq_false_iff_not]
    exact Nat.not_lt.2 (Nat.le_of_lt h)
  simp [shaderText, hnan, h]

namespace Expr

variable {x : Binary32}

theorem text_real (x : Binary32) : (Expr.real x).text = x.shaderText := by
  rw [Expr.real, text, Constant.text]

theorem term_real (x : Binary32) : (Expr.real x).term = x.term := by
  rw [Expr.real, term, Constant.term]

/-- A finite float is read as its numeral, with the sign as an operator. -/
theorem legible_real (h : x.isFinite = true) : (Expr.real x).Legible .factor := by
  have hplain := Layout.shader.plain_numeralOf Format.binary32 x.negative x.code
  have hnumeral := Numeral.legible hplain.1
  refine ⟨?_⟩
  rw [text_real, term_real, Binary32.shaderText_of_isFinite h]
  exact hnumeral

/-- A float without a sign binds tightest. -/
theorem legible_real_of_nonneg (x : Binary32) (h : x.isFinite = true ∧ x.negative = false) :
    (Expr.real x).Legible .part := by
  have hplain := Layout.shader.plain_numeralOf Format.binary32 x.negative x.code
  have hnumeral := Numeral.legible_of_nonneg hplain.1 (hplain.2.trans h.2)
  refine ⟨?_⟩
  rw [text_real, term_real, Binary32.shaderText_of_isFinite h.1]
  exact hnumeral

/-- The floats of a literal are written as arguments. -/
theorem intercalate_eq_textList (xs : List Binary32) :
    ", ".intercalate (xs.map Binary32.shaderText) = textList (xs.map Expr.real) := by
  induction xs with
  | nil => simp [textList]
  | cons x xs ih =>
    cases xs with
    | nil => simp [textList, Expr.real, text, Constant.text]
    | cons y ys =>
      simp only [List.map_cons, String.intercalate_cons_cons] at ih ⊢
      rw [ih]
      simp [textList, Expr.real, text, Constant.text]

/-- A literal with several components is built from the literals of its components. -/
theorem legible_components {t : ValueType} {xs : List Binary32} (ht : t ≠ .texture) (hne : xs ≠ [])
    (hxs : ∀ x ∈ xs, x.isFinite = true) :
    MaterialNet.Legible .part (Constant.constructorText t xs).toList
      (.call t.keyword (xs.map Binary32.term)) := by
  have hreals : ∀ e ∈ xs.map Expr.real, e.Legible .sum := by
    intro e he
    obtain ⟨x, hx, rfl⟩ := List.mem_map.1 he
    exact (legible_real (hxs x hx)).product.sum
  have h := (legible_construct ht (by simpa using hne) hreals).reads
  rw [text, term, termAll_eq_map, List.map_map] at h
  rw [Constant.constructorText, intercalate_eq_textList]
  exact h

theorem text_constant (c : Constant) : (Expr.constant c).text = c.text := by rw [text]

theorem term_constant (c : Constant) : (Expr.constant c).term = c.term := by rw [term]

/-- The literal of a finite constant is read as the constant. -/
theorem legible_constant {c : Constant} (h : c.isFinite = true) :
    (Expr.constant c).Legible .factor := by
  have hall : ∀ x ∈ c.components, x.isFinite = true := List.all_eq_true.1 h
  refine ⟨?_⟩
  rw [text_constant, term_constant]
  -- Every literal but a float and an integer is built by a constructor.
  cases c with
  | float x =>
    have hx := (legible_real (hall x (List.mem_singleton_self x))).reads
    rwa [text_real, term_real] at hx
  | integer n => exact Numeral.legible (Numeral.plain_ofInt _)
  | vec2 x y => exact (legible_components (t := .vec2) nofun (List.cons_ne_nil _ _) hall).factor
  | vec3 x y z => exact (legible_components (t := .vec3) nofun (List.cons_ne_nil _ _) hall).factor
  | vec4 x y z w => exact (legible_components (t := .vec4) nofun (List.cons_ne_nil _ _) hall).factor
  | mat4 columns =>
    have hne : columns.toList ≠ [] := by
      rw [ne_eq, ← List.length_eq_zero_iff]
      simp
    exact (legible_components (t := .mat4) nofun hne hall).factor

end Expr

/-! ### The expressions of a program -/

/-- The zero of a type that functions work on. -/
theorem ValueType.legible_zero {t : ValueType} (h : t.isFloatVector = true) :
    t.zero.Legible .part := by
  have hzero := Expr.legible_real_of_nonneg .zero (by decide +kernel)
  have hall : ∀ e ∈ [Expr.real .zero], e.Legible .sum := by simpa using hzero.of_part
  cases t with
  | float => exact hzero
  | integer | mat4 | texture => cases h
  | _ => exact Expr.legible_construct nofun (by simp) hall

/-- What the promotion rules make of an expression whose components can be selected. -/
theorem legible_promote {produced required : ValueType} {e e' : Expr} (h : e.Accessible)
    (hp : promote? produced required e = some e') : e'.Legible .part := by
  have hone := (Expr.legible_real_of_nonneg .one (by decide +kernel)).of_part
  have he := h.part.of_part
  unfold promote? at hp
  split at hp
  case h_11 => cases hp
  all_goals obtain rfl := Option.some.inj hp
  all_goals first
    | exact h.part
    | exact (Expr.accessible_select h (by decide)).part
    | exact Expr.legible_construct nofun (List.cons_ne_nil _ _) (by simp [he, hone])

/-- A function of one argument may be written without parentheses. -/
theorem UnaryFn.legible_apply (f : UnaryFn) {x : Expr} (h : x.Legible .part) :
    (f.apply x).Legible .sum := by
  have hzero := Expr.legible_real_of_nonneg .zero (by decide +kernel)
  have hone := Expr.legible_real_of_nonneg .one (by decide +kernel)
  have hall : ∀ e ∈ [x], e.Legible .sum := by simpa using h.of_part
  -- Only a minus, a difference from one and a clamp are no plain calls.
  cases f with
  | negate => exact (Expr.legible_negate h).product.sum
  | oneMinus => exact Expr.legible_operator .minus hone.of_part h.factor.product
  | saturate =>
    refine (Expr.legible_call (by simp) ?_).of_part
    simp [h.of_part, hzero.of_part, hone.of_part]
  | _ => exact (Expr.legible_call (by simp) hall).of_part

/-- A function of two arguments may be written without parentheses. -/
theorem BinaryFn.legible_apply (f : BinaryFn) {x y : Expr} (hx : x.Legible .part)
    (hy : y.Legible .part) : (f.apply x y).Legible .sum := by
  have hall : ∀ e ∈ [x, y], e.Legible .sum := by simp [hx.of_part, hy.of_part]
  cases f with
  | add => exact Expr.legible_operator .plus hx.of_part hy.factor.product
  | subtract => exact Expr.legible_operator .minus hx.of_part hy.factor.product
  | multiply => exact (Expr.legible_operator .times hx.factor.product hy.factor).sum
  | divide => exact (Expr.legible_operator .over hx.factor.product hy.factor).sum
  | _ => exact (Expr.legible_call (by simp) hall).of_part

/-! ### The lines of a program -/

/-- The text of a line is read as it is meant, and there is no control character in it. -/
structure Line.Legible (l : Line) : Prop where
  reads : LineReads l.text l.statement?
  printable : ∀ c ∈ l.text.toList, ' ' ≤ c

/-- A legible line ends nowhere within. -/
theorem Line.Legible.oneLine {l : Line} (h : l.Legible) : '\n' ∉ l.text.toList :=
  fun hm => absurd (h.printable _ hm) (by decide)

/-- The program that some lines mean. -/
def meantProgram (lines : List Line) : List Statement := lines.filterMap Line.statement?

/-- Legible lines are read as the program that they mean. -/
theorem reads_of_legible {lines : List Line} (h : ∀ l ∈ lines, l.Legible) :
    Reads (lines.map Line.text) (meantProgram lines) := by
  refine ⟨lines.map Line.statement?, ?_, ?_⟩
  · rw [List.forall₂_map_left_iff, List.forall₂_map_right_iff]
    exact List.forall₂_same.2 fun l hl => (h l hl).reads
  · show (lines.map Line.statement?).filterMap id = lines.filterMap Line.statement?
    rw [List.filterMap_map]
    rfl

namespace Line

variable {type : ValueType} {target swizzle : String} {value : Expr}

/-- The sign and the value of an assignment, with the semicolon that ends it. -/
theorem spells_assignment (h : value.Legible .sum) : ∃ ts, Derives .sum ts value.term
    ∧ Spells (' ' :: '=' :: ' ' :: (value.text.toList ++ [';'])) (.sign '=' :: ts ++ [.sign ';'])
      (.sign ';') := by
  obtain ⟨ts, last, hspells, hderives, hends, c, rest, hcs, -⟩ := h.reads
  have hequals : Spells [' ', '=', ' '] [.sign '='] .blank := ⟨_, rfl, rfl⟩
  have hsemicolon : Spells [';'] [.sign ';'] (.sign ';') := spells_sign (by decide)
  have hvalue := hspells.append hsemicolon (hends ';' (by decide))
  rw [hcs] at hvalue ⊢
  exact ⟨ts, hderives, hequals.append hvalue rfl⟩

/-- An assignment of a legible expression to a variable is legible. -/
theorem legible_assign (hword : isWord target = true) (htarget : isVariable target = true)
    (h : value.Legible .sum) : (Line.assign target value).Legible := by
  obtain ⟨ts, hderives, hspells⟩ := spells_assignment h
  obtain ⟨hname, -⟩ := spells_of_isWord hword
  have htext : (Line.assign target value).text.toList
      = target.toList ++ ' ' :: '=' :: ' ' :: (value.text.toList ++ [';']) := by
    simp [text]
  have hall := hname.append hspells (endsAt_word (by decide))
  exact ⟨.statement (tokens?_of_spells htext hall) (.assign htarget hderives),
    htext ▸ hall.printable nofun⟩

/-- So is an assignment to components of a variable. -/
theorem legible_assignPart (hword : isWord target = true) (htarget : isVariable target = true)
    (hswizzle : isWord swizzle = true) (h : value.Legible .sum) :
    (Line.assignPart target swizzle value).Legible := by
  obtain ⟨ts, hderives, hspells⟩ := spells_assignment h
  obtain ⟨hname, -⟩ := spells_of_isWord hword
  obtain ⟨hfield, d, ds, hd, hstart⟩ := spells_of_isWord hswizzle
  have hpoint : Spells ['.'] [.sign '.'] (.sign '.') := spells_sign (by decide)
  have htext : (Line.assignPart target swizzle value).text.toList
      = target.toList ++ '.' :: d :: (ds ++ ' ' :: '=' :: ' ' :: (value.text.toList ++ [';'])) := by
    simp [text, hd]
  have htail := hfield.append hspells (endsAt_word (by decide))
  rw [hd] at htail
  have hpart := hpoint.append htail (endsAt_point hstart)
  have hall := hname.append (c := '.') hpart (endsAt_word (by decide))
  exact ⟨.statement (tokens?_of_spells htext hall) (.assignPart htarget hderives),
    htext ▸ hall.printable nofun⟩

/-- So is the definition of a variable with its type. -/
theorem legible_define (htype : type.keyword ∈ constructorNames) (hword : isWord target = true)
    (htarget : isVariable target = true) (h : value.Legible .sum) :
    (Line.define type target value).Legible := by
  obtain ⟨ts, hderives, hspells⟩ := spells_assignment h
  obtain ⟨hname, d, ds, hd, hstart⟩ := spells_of_isWord hword
  have hcallable : isCallable type.keyword = true := by
    rw [isCallable, List.contains_iff_mem.2 htype, Bool.or_true]
  obtain ⟨hkeyword, -⟩ := spells_of_isWord (MaterialNet.Legible.isWord_of_isCallable hcallable)
  have hblank : Spells [' '] [] .blank := ⟨_, rfl, rfl⟩
  have htext : (Line.define type target value).text.toList
      = type.keyword.toList
        ++ ' ' :: d :: (ds ++ ' ' :: '=' :: ' ' :: (value.text.toList ++ [';'])) := by
    simp [text, hd]
  have htail := hname.append hspells (endsAt_word (by decide))
  rw [hd] at htail
  have hrest := hblank.append htail rfl
  -- The keyword of the type is a word of its own because a blank follows it.
  have hall := hkeyword.append (c := ' ') hrest (endsAt_word (by decide))
  exact ⟨.statement (tokens?_of_spells htext hall) (.define htype htarget hderives),
    htext ▸ hall.printable (by simp)⟩

/-- A label is a comment, and so is what stands where a slot has no input. -/
theorem legible_label (s : Slot) : (Line.label s).Legible := by
  refine ⟨.comment ?_, printable_of_all ?_⟩ <;> cases s <;> decide +kernel

/-- The comment for an open slot is legible. -/
theorem legible_noInput : Line.noInput.Legible :=
  ⟨.comment (by decide +kernel), printable_of_all (by decide +kernel)⟩

end Line

end MaterialNet
