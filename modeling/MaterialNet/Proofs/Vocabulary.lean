import MaterialNet.Proofs.Execution
import MaterialNet.Proofs.Framing

namespace MaterialNet

/-!
# The words of a program

A whole program is read token by token, too.  What begins no token of an expression, such as a
bracket, is a sign of its own there, and a line ends with its newline.

* `programTokens` — the tokens of a program
* `callees` — the words that are called
* `bindings`, `Stage.bindings` — the variables that are declared
-/

/-! ### Tokens of several lines -/

namespace Lexeme

/-- Reads one character of a program: the tokens that it completes, and the lexeme that it belongs
    to. -/
def step (l : Lexeme) (c : Char) : List Token × Lexeme :=
  if c = '\n' then (l.token, .blank) else (l.next c).getD (l.token ++ [.sign c], .blank)

/-- Reads some characters of a program. -/
def run (l : Lexeme) : List Char → List Token × Lexeme
  | [] => ([], l)
  | c :: cs => ((l.step c).1 ++ (run (l.step c).2 cs).1, (run (l.step c).2 cs).2)

variable {l last : Lexeme} {c : Char} {cs xs ys : List Char} {ts : List Token}

theorem run_append (l : Lexeme) (xs ys : List Char) :
    run l (xs ++ ys) = ((run l xs).1 ++ (run (run l xs).2 ys).1, (run (run l xs).2 ys).2) := by
  induction xs generalizing l with
  | nil => rfl
  | cons c cs ih => rw [List.cons_append, run, ih, run, List.append_assoc]

/-- On one line nothing is read otherwise than in a statement. -/
theorem run_of_scan (h : scan l cs = some (ts, last)) (hline : '\n' ∉ cs) :
    run l cs = (ts, last) := by
  induction cs generalizing l ts with
  | nil =>
    obtain ⟨rfl, rfl⟩ := Prod.mk.inj (Option.some.inj h)
    rfl
  | cons c cs ih =>
    obtain ⟨hc, hline⟩ := List.ne_and_not_mem_of_not_mem_cons hline
    simp only [scan, Option.bind_eq_some_iff, Option.map_eq_some_iff] at h
    obtain ⟨⟨first, l₁⟩, hnext, ⟨others, last'⟩, hrest, heq⟩ := h
    obtain ⟨rfl, rfl⟩ := Prod.mk.inj heq
    have hstep : l.step c = (first, l₁) := by
      rw [step, if_neg hc.symm, hnext, Option.getD_some]
    rw [run, hstep, ih hrest hline]

end Lexeme

/-- The tokens of some characters of a program. -/
def tokensOf (cs : List Char) : List Token :=
  (Lexeme.run .blank cs).1 ++ (Lexeme.run .blank cs).2.token

/-- The tokens of a program. -/
def programTokens (text : String) : List Token := tokensOf text.toList

section Tokens

variable {cs : List Char} {ts : List Token}

/-- A line that has tokens has the same ones in a program. -/
theorem tokensOf_of_tokens? {text : String} (h : tokens? text = some ts)
    (hline : '\n' ∉ text.toList) : tokensOf text.toList = ts := by
  obtain ⟨⟨early, last⟩, hscan, rfl⟩ := Option.map_eq_some_iff.1 h
  rw [tokensOf, Lexeme.run_of_scan hscan hline]

/-- A newline ends the last token before it. -/
theorem tokensOf_append_newline (cs cs' : List Char) :
    tokensOf (cs ++ '\n' :: cs') = tokensOf cs ++ tokensOf cs' := by
  simp [tokensOf, Lexeme.run_append, Lexeme.run, Lexeme.step, List.append_assoc]

theorem tokensOf_endAll (chars : List (List Char)) :
    tokensOf (endAll chars) = chars.flatMap tokensOf := by
  induction chars with
  | nil => rfl
  | cons cs chars ih =>
    rw [endAll, List.flatMap_cons, ← endAll, List.append_assoc, List.singleton_append,
      tokensOf_append_newline, ih, List.flatMap_cons]

/-- The tokens of a program are those of its lines. -/
theorem programTokens_unlines (lines : List String) :
    programTokens (unlines lines) = lines.flatMap programTokens := by
  rw [programTokens, toList_unlines, tokensOf_endAll, List.flatMap_map]
  rfl

/-- An indented line has the tokens that it has anyway. -/
theorem tokensOf_indent (text : String) : programTokens ("    " ++ text) = programTokens text := by
  rw [programTokens, String.toList_append]
  rfl

end Tokens

/-! ### Signs -/

namespace Lexeme

variable {l l' : Lexeme} {c s : Char} {cs : List Char} {ts : List Token}

/-- A token is a sign only if it is spelled as one. -/
theorem sign_not_mem_token (hl : l ≠ .sign s) : .sign s ∉ l.token := by
  cases l <;> simp only [token, List.not_mem_nil, List.mem_singleton, not_false_eq_true] <;>
    rintro heq <;> cases heq
  exact hl rfl

/-- A sign is read where it stands in the text only. -/
theorem sign_of_next (hl : l ≠ .sign s) (hc : c ≠ s) (h : l.next c = some (ts, l')) :
    .sign s ∉ ts ∧ l' ≠ .sign s := by
  unfold next at h
  -- The character begins a token after the last one, or it goes on with this.
  split at h
  · obtain ⟨l₁, hbegin, heq⟩ := Option.map_eq_some_iff.1 h
    obtain ⟨rfl, rfl⟩ := Prod.mk.inj heq
    refine ⟨sign_not_mem_token hl, ?_⟩
    unfold begin? at hbegin
    split_ifs at hbegin <;> obtain rfl := Option.some.inj hbegin <;> simp [hc]
  · obtain ⟨l₁, hpush, heq⟩ := Option.map_eq_some_iff.1 h
    obtain ⟨rfl, rfl⟩ := Prod.mk.inj heq
    refine ⟨List.not_mem_nil, ?_⟩
    unfold push? at hpush
    split at hpush
    case h_5 =>
      split_ifs at hpush
      obtain rfl := Option.some.inj hpush
      nofun
    case h_1 => cases hpush
    all_goals
      obtain rfl := Option.some.inj hpush
      nofun

/-- A character brings in no sign but itself. -/
theorem sign_of_step (hl : l ≠ .sign s) (hc : c ≠ s) :
    .sign s ∉ (l.step c).1 ∧ (l.step c).2 ≠ .sign s := by
  unfold step
  split
  · exact ⟨sign_not_mem_token hl, nofun⟩
  · cases hnext : l.next c with
    | none =>
      refine ⟨?_, nofun⟩
      simpa [sign_not_mem_token hl] using hc.symm
    | some r => exact sign_of_next hl hc hnext

/-- A text brings in no sign that is not one of its characters. -/
theorem sign_of_run (hl : l ≠ .sign s) (hcs : s ∉ cs) :
    .sign s ∉ (l.run cs).1 ∧ (l.run cs).2 ≠ .sign s := by
  induction cs generalizing l with
  | nil => exact ⟨List.not_mem_nil, hl⟩
  | cons c cs ih =>
    obtain ⟨hc, hcs⟩ := List.ne_and_not_mem_of_not_mem_cons hcs
    obtain ⟨hfirst, hl'⟩ := sign_of_step hl hc.symm
    obtain ⟨hrest, hlast⟩ := ih hl' hcs
    exact ⟨fun h => (List.mem_append.1 h).elim hfirst hrest, hlast⟩

end Lexeme

/-- No sign is among the tokens that is not among the characters. -/
theorem sign_not_mem_tokensOf {s : Char} {cs : List Char} (h : s ∉ cs) :
    .sign s ∉ tokensOf cs := by
  obtain ⟨hrun, hlast⟩ := Lexeme.sign_of_run (l := .blank) nofun h
  exact fun hmem => (List.mem_append.1 hmem).elim hrun (Lexeme.sign_not_mem_token hlast)

/-! ### What is called -/

/-- The word that a token is. -/
def Token.word? : Token → Option String
  | .word w => some w
  | _ => none

/-- The words that are called: a bracket follows. -/
def callees : List Token → List String
  | [] => []
  | token :: rest =>
    (if rest.head? = some (.sign '(') then token.word?.toList else []) ++ callees rest

section Callees

variable {ts ts' : List Token} {w : String}

/-- Nothing is called from one text into the next one, unless this begins with a bracket. -/
theorem callees_append (h : ts'.head? ≠ some (.sign '(')) :
    callees (ts ++ ts') = callees ts ++ callees ts' := by
  induction ts with
  | nil => rfl
  | cons token ts ih =>
    have hhead : (ts ++ ts').head? = some (.sign '(') ↔ ts.head? = some (.sign '(') := by
      cases ts with
      | nil => simpa using h
      | cons => rfl
    simp only [List.cons_append, callees, ih, hhead, List.append_assoc]

/-- Where there is no bracket, nothing is called. -/
theorem mem_of_mem_callees (h : w ∈ callees ts) : .sign '(' ∈ ts := by
  induction ts with
  | nil => cases h
  | cons token ts ih =>
    rcases List.mem_append.1 h with h | h
    · split_ifs at h with hhead
      · exact List.mem_cons_of_mem _ (List.mem_of_head? hhead)
      · cases h
    · exact List.mem_cons_of_mem _ (ih h)

@[simp] theorem callees_sign (c : Char) : callees (.sign c :: ts) = callees ts := by
  simp [callees, Token.word?]

theorem callees_word (h : ts.head? ≠ some (.sign '(')) : callees (.word w :: ts) = callees ts := by
  simp [callees, h]

theorem callees_append_sign {c : Char} (hc : c ≠ '(') :
    callees (ts ++ .sign c :: ts') = callees ts ++ callees ts' := by
  rw [callees_append (by simpa using hc), callees_sign]

/-- An expression calls functions and constructors only. -/
theorem isCallable_of_derives {phrase : Phrase} {t : Term} (h : Derives phrase ts t) :
    ∀ w ∈ callees ts, isCallable w = true := by
  have hchar (op : Operator) : op.char ≠ '(' := by cases op <;> decide
  -- Only a call has a word in front of a bracket, and this one can be called.
  induction h with
  | name | number => simp [callees]
  | parentheses _ ih =>
    rw [List.cons_append, callees_sign, callees_append_sign (by decide)]
    simpa [callees] using ih
  | opening hf _ ih => simpa [callees, Token.word?, hf] using ih
  | argument _ _ ih ih' =>
    rw [callees_append_sign (by decide)]
    exact List.forall_mem_append.2 ⟨ih, ih'⟩
  | call _ ih =>
    rw [callees_append_sign (by decide)]
    simpa [callees] using ih
  | select _ ih =>
    rw [callees_append_sign (by decide)]
    simpa [callees] using ih
  | factor _ ih | product _ ih | sum _ ih => exact ih
  | negate _ ih | affirm _ ih => rwa [callees_sign]
  | multiply _ _ _ ih ih' | add _ _ _ ih ih' =>
    rw [callees_append_sign (hchar _)]
    exact List.forall_mem_append.2 ⟨ih, ih'⟩

/-- A statement calls functions and constructors only. -/
theorem isCallable_of_statementReads {st : Statement} (h : StatementReads ts st) :
    ∀ w ∈ callees ts, isCallable w = true := by
  have hvalue {value : List Token} {t : Term} (ht : Derives .sum value t) :
      ∀ w ∈ callees (value ++ [.sign ';']), isCallable w = true := by
    rw [callees_append_sign (by decide)]
    simpa [callees] using isCallable_of_derives ht
  -- The words in front of the value have no bracket after them.
  cases h with
  | assign _ ht =>
    rw [List.cons_append, List.cons_append, callees_word (by simp), callees_sign]
    exact hvalue ht
  | assignPart _ ht =>
    simp only [List.cons_append]
    rw [callees_word (by simp), callees_sign, callees_word (by simp), callees_sign]
    exact hvalue ht
  | define _ _ ht =>
    simp only [List.cons_append]
    rw [callees_word (by simp), callees_word (by simp), callees_sign]
    exact hvalue ht

end Callees

/-! ### What is declared -/

/-- The words of types in the programs. -/
def typeWords : List String :=
  "void" :: "mat3" :: (Named.all : List ValueType).map ValueType.keyword

/-- A declared name, with its type and whether it is a uniform. -/
structure Binding where
  uniform : Bool
  type : String
  name : String
deriving DecidableEq, Repr

/-- What a token declares together with the next one: the word of a type declares the word after
    it. -/
def binding? (before : Option Token) : List Token → Option Binding
  | .word type :: .word name :: _ =>
    if typeWords.contains type then some ⟨before = some (.word "uniform"), type, name⟩ else none
  | _ => none

/-- What is declared after a token. -/
def bindingsAfter (before : Option Token) : List Token → List Binding
  | [] => []
  | token :: rest =>
    (binding? before (token :: rest)).toList ++ bindingsAfter (some token) rest

/-- What is declared. -/
def bindings (ts : List Token) : List Binding := bindingsAfter none ts

namespace Stage

/-- What a stage's template declares before the body lines. -/
def bindings (stage : Stage) : List Binding :=
  MaterialNet.bindings ((stage.opening ++ stage.middle).flatMap tokensOf)

/-- What a stage's template declares after the body lines. -/
def laterBindings (stage : Stage) : List Binding :=
  MaterialNet.bindings (stage.closing.flatMap tokensOf)

/-- The names that a stage's template declares. -/
def declaredNames (stage : Stage) : List String :=
  (stage.bindings ++ stage.laterBindings).map Binding.name

end Stage

theorem declaredNames_subset (stage : Stage) : ∀ x ∈ stage.declaredNames, x ∈ programNames := by
  cases stage <;> decide +kernel

example : Stage.vertex.declaredNames
    = ["a_Position", "a_Normal", "a_TexCoords", "a_Tangent", "a_Bitangent", "FragPos", "TexCoords",
      "TBN", "u_Model", "u_View", "u_Projection", "u_Time", "main", "VertexOffset", "T", "B", "N",
      "worldPos"] := by decide +kernel

end MaterialNet
