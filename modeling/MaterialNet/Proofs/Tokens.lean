import MaterialNet.Number.Numeral
import MaterialNet.Shader.Identifier

namespace MaterialNet

/-!
# Tokens of the shader language

A line of a program is read character by character.  The characters of one token are collected in a
`Lexeme`, which goes on for as long as the next character can belong to it; two signs that would
make one longer operator are refused.

* `Token`, `Lexeme` — tokens, and the token that is being read
* `Lexeme.scan`, `tokens?` — the tokens of a text
* `Spells` — a text and its tokens, with the lexeme that the text ends in
* `Spells.append` — the tokens of a text that is put together from two others
-/

/-- A token of a program. -/
inductive Token where
  | word (s : String)
  | number (s : String)
  | sign (c : Char)
deriving DecidableEq, Repr

/-- What stands right before the next character: the token that has been begun, if there is one. -/
inductive Lexeme where
  | blank
  | comment
  | word (cs : List Char)
  | number (cs : List Char)
  | sign (c : Char)
deriving DecidableEq, Repr

namespace Lexeme

/-! ### One character -/

/-- The token that a lexeme comes to. -/
def token : Lexeme → List Token
  | .blank | .comment => []
  | .word cs => [.word (String.ofList cs)]
  | .number cs => [.number (String.ofList cs)]
  | .sign c => [.sign c]

/-- The signs of expressions and assignments. -/
def signs : List Char := ['(', ')', ',', '.', ';', '=', '+', '-', '*', '/']

/-- The lexeme that a character begins.  Any other character is refused. -/
def begin? (c : Char) : Option Lexeme :=
  if isIdentifierStart c then some (.word [c])
  else if c.isDigit then some (.number [c])
  else if c ∈ signs then some (.sign c)
  else if c = ' ' then some .blank
  else none

/-- Two characters that are not two tokens: the operators of two signs, the start of a comment, and
    a number without a digit before its point. -/
def joins (s c : Char) : Bool :=
  c = '=' && ['=', '+', '-', '*', '/'].contains s
    || [('+', '+'), ('-', '-'), ('/', '/'), ('/', '*')].contains (s, c)
    || s = '.' && c.isDigit

/-- The character does not belong to the lexeme.  A number goes on with letters, digits and points,
    and with a sign after the mark of its power of ten. -/
def endsAt (l : Lexeme) (c : Char) : Bool :=
  match l with
  | .blank => true
  | .comment => false
  | .word _ => !isIdentifierChar c
  | .number cs =>
    !(isIdentifierChar c || c = '.'
      || (c = '+' || c = '-') && (cs.getLast? = some 'e' || cs.getLast? = some 'E'))
  | .sign s => !joins s c

/-- The lexeme with one more character, for one that does not end before it. -/
def push? (l : Lexeme) (c : Char) : Option Lexeme :=
  match l with
  | .blank => none
  | .comment => some .comment
  | .word cs => some (.word (cs ++ [c]))
  | .number cs => some (.number (cs ++ [c]))
  | .sign s => if s = '/' ∧ c = '/' then some .comment else none

/-- Reads one character: the token that it completes, and the lexeme that it belongs to. -/
def next (l : Lexeme) (c : Char) : Option (List Token × Lexeme) :=
  if l.endsAt c then (begin? c).map fun l' => (l.token, l')
  else (l.push? c).map fun l' => ([], l')

/-- Reads some characters: the tokens that they complete, and the lexeme at their end. -/
def scan (l : Lexeme) : List Char → Option (List Token × Lexeme)
  | [] => some ([], l)
  | c :: cs =>
    (l.next c).bind fun (first, l') =>
      (scan l' cs).map fun (others, last) => (first ++ others, last)

end Lexeme

/-- The tokens of a text. -/
def tokens? (text : String) : Option (List Token) :=
  (Lexeme.scan .blank text.toList).map fun (ts, last) => ts ++ last.token

/-- There is no control character among characters that have been looked through. -/
theorem printable_of_all {cs : List Char} (h : (cs.all fun c => ' ' ≤ c) = true) :
    ∀ c ∈ cs, ' ' ≤ c :=
  fun c hc => of_decide_eq_true (List.all_eq_true.1 h c hc)

namespace Lexeme

variable {l l' last : Lexeme} {c : Char} {cs xs ys : List Char} {ts ts' : List Token}

/-! ### Several characters -/

/-- A text may be read in two pieces, the second from where the first has come to. -/
theorem scan_append (h : scan l xs = some (ts, l')) :
    scan l (xs ++ ys) = (scan l' ys).map fun (others, last) => (ts ++ others, last) := by
  -- By induction on the first piece, from the lexeme that is open.
  induction xs generalizing l ts with
  | nil =>
    obtain ⟨rfl, rfl⟩ := Prod.mk.inj (Option.some.inj h)
    simp
  | cons c cs ih =>
    simp only [scan, Option.bind_eq_some_iff, Option.map_eq_some_iff] at h
    obtain ⟨⟨first, l₁⟩, hnext, ⟨others, last⟩, hrest, heq⟩ := h
    obtain ⟨rfl, rfl⟩ := Prod.mk.inj heq
    simp only [List.cons_append, scan, hnext, Option.bind_some, ih hrest, Option.map_map]
    congr 1
    funext p
    simp [List.append_assoc]

/-- A character that ends a lexeme is read as after a blank. -/
theorem scan_of_endsAt (h : l.endsAt c = true) :
    scan l (c :: cs) = (scan .blank (c :: cs)).map fun (ts, last) => (l.token ++ ts, last) := by
  simp only [scan, next, h, show endsAt .blank c = true from rfl, if_true]
  cases begin? c with
  | none => rfl
  | some l' =>
    simp only [Option.map_some, Option.bind_some, Option.map_map]
    congr 1

/-- A comment goes on to the end of the text. -/
theorem scan_comment (cs : List Char) : scan .comment cs = some ([], .comment) := by
  induction cs with
  | nil => rfl
  | cons c cs ih =>
    have hnext : next .comment c = some ([], .comment) := rfl
    simp [scan, hnext, ih]

/-- No control character belongs to a word. -/
theorem isIdentifierChar_control (hc : c < ' ') : isIdentifierChar c = false := by
  have hval : c.val < 32 := hc
  have hword : c ≠ '_' := by
    rintro rfl
    exact absurd hc (by decide)
  -- The letters and the digits have greater codes.
  have hrange {a b : UInt32} (ha : 32 ≤ a) : ¬ (a ≤ c.val ∧ c.val ≤ b) := fun h =>
    absurd (UInt32.lt_of_lt_of_le hval (UInt32.le_trans ha h.1)) (UInt32.lt_irrefl _)
  have hcode {a b : UInt32} (ha : 32 ≤ a) : (decide (a ≤ c.val) && decide (c.val ≤ b)) = false :=
    (Bool.decide_and _ _).symm.trans (decide_eq_false (hrange ha))
  have hupper : c.isUpper = false := decide_eq_false (hrange (by decide))
  have hlower : c.isLower = false := hcode (by decide)
  have hdigit : c.isDigit = false := hcode (by decide)
  have halpha : c.isAlpha = false := Bool.or_eq_false_iff.2 ⟨hupper, hlower⟩
  simp only [isIdentifierChar, Char.isAlphanum, halpha, hdigit, hword, decide_false, Bool.or_false]

/-- No token begins with a control character. -/
theorem begin?_control (hc : c < ' ') : begin? c = none := by
  have hword := isIdentifierChar_control hc
  have hsigns : ∀ s ∈ ' ' :: signs, ' ' ≤ s := printable_of_all (by decide)
  have hsign : ∀ s ∈ ' ' :: signs, c ≠ s := fun s hs heq =>
    Char.not_lt.2 (hsigns s hs) (heq ▸ hc)
  simp only [isIdentifierChar, Char.isAlphanum, Bool.or_eq_false_iff] at hword
  have hspace : c ≠ ' ' := hsign ' ' (List.mem_cons_self ..)
  have hmem : c ∉ signs := fun hm => hsign c (List.mem_cons_of_mem _ hm) rfl
  simp [begin?, isIdentifierStart, hword.1.1, hword.1.2, hword.2, hmem, hspace]

/-- Only a comment takes a control character. -/
theorem next_control (hc : c < ' ') (h : l.next c = some (ts, l')) : l' = .comment := by
  have hword := isIdentifierChar_control hc
  have hne {s : Char} (hs : ¬ s < ' ') : c ≠ s := fun heq => hs (heq ▸ hc)
  have hpoint : c ≠ '.' := hne (by decide)
  have hplus : c ≠ '+' := hne (by decide)
  have hminus : c ≠ '-' := hne (by decide)
  have hslash : c ≠ '/' := hne (by decide)
  unfold next at h
  rw [begin?_control hc] at h
  -- A comment takes every character; no other lexeme takes a control character or begins after it.
  cases l with
  | comment =>
    have hpush : push? .comment c = some .comment := rfl
    simp only [endsAt, Bool.false_eq_true, if_false, hpush, Option.map_some, Option.some.injEq,
      Prod.mk.injEq] at h
    exact h.2.symm
  | _ => simp [endsAt, push?, hword, hpoint, hplus, hminus, hslash] at h

/-- A text that does not end in a comment has no control characters. -/
theorem printable_of_scan (h : scan l cs = some (ts, last)) (hlast : last ≠ .comment) :
    ∀ c ∈ cs, ' ' ≤ c := by
  -- At a control character the text would be a comment from there on to its end.
  induction cs generalizing l ts with
  | nil => exact nofun
  | cons c cs ih =>
    simp only [scan, Option.bind_eq_some_iff, Option.map_eq_some_iff] at h
    obtain ⟨⟨first, l₁⟩, hnext, ⟨others, last'⟩, hrest, heq⟩ := h
    obtain ⟨rfl, rfl⟩ := Prod.mk.inj heq
    refine List.forall_mem_cons.2 ⟨Char.not_lt.1 fun hc => ?_, ih hrest⟩
    obtain rfl := next_control hc hnext
    rw [scan_comment] at hrest
    exact hlast (Prod.mk.inj (Option.some.inj hrest)).2.symm

/-- A lexeme that takes all characters completes no token. -/
theorem scan_of_push {f : List Char → Lexeme}
    (hpush : ∀ cs c, (f cs).push? c = some (f (cs ++ [c])))
    (h : ∀ zs c ws, ys = zs ++ c :: ws → (f (xs ++ zs)).endsAt c = false) :
    scan (f xs) ys = some ([], f (xs ++ ys)) := by
  -- Each character is taken, so the lexeme stays open and grows.
  induction ys generalizing xs with
  | nil => simp [scan]
  | cons c cs ih =>
    have hc : (f xs).endsAt c = false := by simpa using h [] c cs rfl
    have hrest : scan (f (xs ++ [c])) cs = some ([], f (xs ++ [c] ++ cs)) := by
      refine ih fun zs d ws hzs => ?_
      have hd := h (c :: zs) d ws (by rw [hzs]; rfl)
      rwa [List.append_cons] at hd
    have hnext : (f xs).next c = some ([], f (xs ++ [c])) := by
      simp [next, hc, hpush]
    rw [List.append_assoc, List.singleton_append] at hrest
    simp [scan, hnext, hrest]

end Lexeme

open Lexeme

/-! ### Texts and their tokens -/

/-- The tokens of a text, the last of which is still open. -/
def Spells (cs : List Char) (ts : List Token) (last : Lexeme) : Prop :=
  ∃ early, scan .blank cs = some (early, last) ∧ early ++ last.token = ts

variable {xs ys : List Char} {ts ts' : List Token} {l l' : Lexeme} {c : Char} {cs : List Char}

/-- At the end of the text the open token is complete. -/
theorem tokens?_of_spells {text : String} (htext : text.toList = cs) (h : Spells cs ts l) :
    tokens? text = some ts := by
  obtain ⟨early, hscan, rfl⟩ := h
  simp [tokens?, htext, hscan]

/-- Two texts next to each other have the tokens of both, if the second one begins where the last
    token of the first one ends. -/
theorem Spells.append (h : Spells xs ts l) (h' : Spells (c :: ys) ts' l')
    (hend : l.endsAt c = true) : Spells (xs ++ c :: ys) (ts ++ ts') l' := by
  obtain ⟨early, hscan, rfl⟩ := h
  obtain ⟨early', hscan', rfl⟩ := h'
  refine ⟨early ++ (l.token ++ early'), ?_, by simp [List.append_assoc]⟩
  rw [scan_append hscan, scan_of_endsAt hend, hscan']
  rfl

/-- Outside comments there are no control characters. -/
theorem Spells.printable (h : Spells cs ts l) (hl : l ≠ .comment) : ∀ c ∈ cs, ' ' ≤ c := by
  obtain ⟨early, hscan, -⟩ := h
  exact printable_of_scan hscan hl

/-- Outside comments no line ends. -/
theorem Spells.newline_not_mem (h : Spells cs ts l) (hl : l ≠ .comment) : '\n' ∉ cs :=
  fun hm => absurd (h.printable hl _ hm) (by decide)

/-- What may begin a word may stand in it. -/
theorem isIdentifierChar_of_start (h : isIdentifierStart c = true) : isIdentifierChar c = true := by
  simp only [isIdentifierStart, isIdentifierChar, Char.isAlphanum, Bool.or_eq_true] at h ⊢
  rcases h with h | h
  · exact .inl (.inl h)
  · exact .inr h

/-- No word begins with a digit. -/
theorem not_isDigit_of_start (h : isIdentifierStart c = true) : c.isDigit = false := by
  unfold isIdentifierStart Char.isAlpha Char.isUpper Char.isLower at h
  simp only [Bool.or_eq_true, Bool.and_eq_true, decide_eq_true_eq] at h
  rw [Bool.eq_false_iff]
  simp only [Char.isDigit, ne_eq, Bool.and_eq_true, decide_eq_true_eq, not_and]
  -- A letter has a greater code than any digit.
  rcases h with (h | h) | rfl
  · intro _ hle
    exact absurd (UInt32.le_trans h.1 hle) (by decide)
  · intro _ hle
    exact absurd (UInt32.le_trans h.1 hle) (by decide)
  · decide

/-- A word is read as one token. -/
theorem spells_word (hc : isIdentifierStart c = true) (hcs : ∀ x ∈ cs, isIdentifierChar x = true) :
    Spells (c :: cs) [.word (String.ofList (c :: cs))] (.word (c :: cs)) := by
  refine ⟨[], ?_, rfl⟩
  have hrest : scan (.word [c]) cs = some ([], .word ([c] ++ cs)) := by
    refine scan_of_push (fun _ _ => rfl) fun zs d ws hzs => ?_
    have hd := hcs d (by simp [hzs])
    simp [endsAt, hd]
  have hnext : next .blank c = some ([], .word [c]) := by
    simp [next, endsAt, begin?, hc, token]
  simp [scan, hnext, hrest]

/-- A sign is read as a token. -/
theorem spells_sign (hc : c ∈ signs) : Spells [c] [.sign c] (.sign c) := by
  refine ⟨[], ?_, rfl⟩
  simp only [signs, List.mem_cons, List.not_mem_nil, or_false] at hc
  rcases hc with rfl | rfl | rfl | rfl | rfl | rfl | rfl | rfl | rfl | rfl <;> rfl

/-! ### Numerals -/

/-- The character of a digit is a digit. -/
theorem isDigit_char (d : Digit) : d.char.isDigit = true := by
  revert d
  decide

/-- A digit may stand in a word. -/
theorem isIdentifierChar_digit (d : Digit) : isIdentifierChar d.char = true := by
  simp [isIdentifierChar, Char.isAlphanum, isDigit_char]

/-- A numeral as it stands in a program: without a sign, with digits in front, and with digits after
    the mark of the power of ten, if there is one. -/
structure Numeral.Plain (n : Numeral) : Prop where
  nonneg : n.negative = false
  whole : n.whole ≠ []
  power : ∀ e ∈ n.exponent, e.digits ≠ []

/-- A number goes on with the given characters. -/
def GoesOn (cs ys : List Char) : Prop :=
  scan (.number cs) ys = some ([], .number (cs ++ ys))

/-- A number goes on piece by piece. -/
theorem GoesOn.append (h : GoesOn cs xs) (h' : GoesOn (cs ++ xs) ys) : GoesOn cs (xs ++ ys) := by
  unfold GoesOn at *
  rw [scan_append h, h', List.append_assoc]
  rfl

theorem goesOn_nil : GoesOn cs [] := by simp [GoesOn, scan]

/-- A character at which the number does not end belongs to it. -/
theorem goesOn_singleton (h : (Lexeme.number cs).endsAt c = false) : GoesOn cs [c] := by
  simp [GoesOn, scan, next, h, push?]

/-- Digits belong to the number before them. -/
theorem goesOn_digits (ds : List Digit) : GoesOn cs (ds.map Digit.char) := by
  induction ds generalizing cs with
  | nil => exact goesOn_nil
  | cons d ds ih =>
    have hd : GoesOn cs [d.char] := goesOn_singleton (by simp [endsAt, isIdentifierChar_digit])
    exact hd.append ih

/-- The power of ten belongs to the number, together with its sign. -/
theorem goesOn_exponent (e : Exponent) : GoesOn cs e.chars := by
  -- The sign belongs to the number because the mark stands right before it.
  have hmark : GoesOn cs ['e'] := goesOn_singleton (by simp [endsAt, isIdentifierChar])
  have hsign : GoesOn (cs ++ ['e']) e.sign.chars := by
    cases e.sign with
    | unsigned => exact goesOn_nil
    | plus => exact goesOn_singleton (by simp [endsAt])
    | minus => exact goesOn_singleton (by simp [endsAt])
  have h := hmark.append (hsign.append (goesOn_digits e.digits))
  rwa [List.singleton_append, ← List.cons_append] at h

/-- A digit does not begin a word. -/
theorem isIdentifierStart_digit (d : Digit) : isIdentifierStart d.char = false := by
  revert d
  decide

/-- A numeral begins with a digit, and the rest of it goes on with the number. -/
theorem Numeral.Plain.chars_eq {n : Numeral} (h : n.Plain) :
    ∃ d rest, n.chars = Digit.char d :: rest ∧ GoesOn [d.char] rest := by
  obtain ⟨d, ds, hwhole⟩ := List.exists_cons_of_ne_nil h.whole
  unfold Numeral.chars
  rw [h.nonneg, hwhole]
  refine ⟨d, _, rfl, ((goesOn_digits ds).append ?_).append ?_⟩
  · split
    · exact goesOn_nil
    · have hpoint cs : GoesOn cs ['.'] := goesOn_singleton (by simp [endsAt])
      exact (hpoint _).append (goesOn_digits _)
  · cases n.exponent with
    | none => exact goesOn_nil
    | some e => exact goesOn_exponent e

/-- A numeral is read as one token. -/
theorem Numeral.Plain.spells {n : Numeral} (h : n.Plain) :
    Spells n.chars [.number n.text] (.number n.chars) := by
  obtain ⟨d, rest, hchars, hrest⟩ := h.chars_eq
  refine ⟨[], ?_, rfl⟩
  have hfirst : next .blank d.char = some ([], .number [d.char]) := by
    simp [next, endsAt, begin?, isIdentifierStart_digit, isDigit_char, token]
  unfold GoesOn at hrest
  rw [hchars]
  simp [scan, hfirst, hrest]

/-- The minus in the power of ten belongs to the number, the other one is an operator. -/
example : tokens? "gain = 1.5e-3 - wood_sample.rgb;"
    = some [.word "gain", .sign '=', .number "1.5e-3", .sign '-', .word "wood_sample", .sign '.',
      .word "rgb", .sign ';'] := by decide +kernel

end MaterialNet
