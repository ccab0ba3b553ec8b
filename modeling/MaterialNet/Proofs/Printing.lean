import MaterialNet.Json.Printer
import MaterialNet.Proofs.Numerals

namespace MaterialNet

/-!
# JSON texts that are read back

A value that is printed over several lines is read back as it is, whatever its strings contain and
however deep it is, if its strings stand for texts and its numbers are well written.  A number has
no end of its own, so it is read back where the text goes on with something else.

* `Json.readNumber?_chars`, `Json.readLiteral?_literalChars` — single tokens
* `Json.Written` — the values that are read back
* `Json.Written.spell` — the tokens of a printed value
* `Json.reads` — the value of its tokens
* `Json.Written.parse?_pretty` — the value of a printed text
-/

theorem Digit.char_ne (d : Digit) : d.char ≠ '-' ∧ d.char ≠ '+' ∧ d.char ≠ '.' := by
  revert d
  decide

namespace Json

/-! ### Numbers -/

/-- A text does not go on with more of a number. -/
def EndsNumber (cs : List Char) : Prop :=
  ∀ c ∈ cs.head?, Digit.ofChar? c = none ∧ c ≠ '.' ∧ c ≠ 'e' ∧ c ≠ 'E'

/-- Digits are read up to what is no digit. -/
theorem readDigits_digits (ds : List Digit) {rest : List Char}
    (h : ∀ c ∈ rest.head?, Digit.ofChar? c = none) :
    readDigits (ds.map Digit.char ++ rest) = (ds, rest) := by
  induction ds with
  | nil =>
    cases rest with
    | nil => rfl
    | cons c rest => simp [readDigits, h c rfl]
  | cons d ds ih => simp [readDigits, Digit.ofChar?_char, ih]

/-- The characters of the digits after the point. -/
def fractionChars : Option (List Digit) → List Char
  | none => []
  | some ds => '.' :: ds.map Digit.char

/-- The characters of a power of ten. -/
def exponentChars : Option Exponent → List Char
  | none => []
  | some e => e.chars

/-- The characters of a numeral are those of its parts, one after the other. -/
theorem chars_eq (n : Numeral) : n.chars
    = (if n.negative then ['-'] else [])
      ++ (n.whole.map Digit.char ++ (fractionChars n.fraction ++ exponentChars n.exponent)) := by
  simp only [Numeral.chars, List.append_assoc]
  rfl

section Number

variable {rest : List Char}

/-- A minus is read if there is one, since digits do not begin with it. -/
theorem readMinus_digits (negative : Bool) {ds : List Digit} (hds : ds ≠ []) :
    readMinus ((if negative then ['-'] else []) ++ (ds.map Digit.char ++ rest))
      = (negative, ds.map Digit.char ++ rest) := by
  obtain ⟨d, ds, rfl⟩ := List.exists_cons_of_ne_nil hds
  cases negative with
  | true => rfl
  | false =>
    simp only [Bool.false_eq_true, if_false, List.nil_append, List.map_cons, List.cons_append]
    unfold readMinus
    split
    · rename_i h
      exact absurd (List.cons.inj h).1 d.char_ne.1
    · rfl

/-- Digits with no leading zero are read as a whole number. -/
theorem readWhole?_digits {ds : List Digit} (hne : ds ≠ [])
    (hlead : ∀ ds', ds = Digit.zero :: ds' → ds' = [])
    (h : ∀ c ∈ rest.head?, Digit.ofChar? c = none) :
    readWhole? (ds.map Digit.char ++ rest) = some (ds, rest) := by
  obtain ⟨d, ds, rfl⟩ := List.exists_cons_of_ne_nil hne
  unfold readWhole?
  rw [readDigits_digits _ h]
  refine if_neg ?_
  rintro ⟨rfl, hds⟩
  exact hds (hlead ds rfl)

/-- The digits after the point are read, or there is no point. -/
theorem readFraction?_chars {fraction : Option (List Digit)} (hne : ∀ ds ∈ fraction, ds ≠ [])
    (h : ∀ c ∈ rest.head?, Digit.ofChar? c = none ∧ c ≠ '.') :
    readFraction? (fractionChars fraction ++ rest) = some (fraction, rest) := by
  cases fraction with
  | none =>
    unfold readFraction?
    split
    · rename_i hrest
      rw [fractionChars, List.nil_append] at hrest
      exact absurd rfl (h '.' (by simp [hrest])).2
    · rfl
  | some ds =>
    obtain ⟨d, ds, rfl⟩ := List.exists_cons_of_ne_nil (hne ds rfl)
    rw [fractionChars, List.cons_append, readFraction?,
      readDigits_digits _ fun c hc => (h c hc).1]

/-- The sign of an exponent is read, or there is none. -/
theorem readExponentSign_chars (sign : ExponentSign) {ds : List Digit} (hds : ds ≠ []) :
    readExponentSign (sign.chars ++ (ds.map Digit.char ++ rest))
      = (sign, ds.map Digit.char ++ rest) := by
  obtain ⟨d, ds, rfl⟩ := List.exists_cons_of_ne_nil hds
  cases sign with
  | plus => rfl
  | minus => rfl
  | unsigned =>
    simp only [ExponentSign.chars, List.nil_append, List.map_cons, List.cons_append]
    unfold readExponentSign
    split
    · rename_i h
      exact absurd (List.cons.inj h).1 d.char_ne.2.1
    · rename_i h
      exact absurd (List.cons.inj h).1 d.char_ne.1
    · rfl

/-- The power of ten is read after its mark. -/
theorem readPower?_chars {e : Exponent} (hne : e.digits ≠ []) (h : EndsNumber rest) :
    readPower? (e.sign.chars ++ (e.digits.map Digit.char ++ rest)) = some (some e, rest) := by
  rw [readPower?, readExponentSign_chars _ hne]
  dsimp only
  rw [readDigits_digits _ fun c hc => (h c hc).1]
  obtain ⟨sign, digits⟩ := e
  obtain ⟨d, ds, rfl⟩ := List.exists_cons_of_ne_nil hne
  rfl

/-- Where a number ends there is no power of ten. -/
theorem readExponent?_none (h : EndsNumber rest) : readExponent? rest = some (none, rest) := by
  unfold readExponent?
  split
  · exact absurd rfl (h 'e' rfl).2.2.1
  · exact absurd rfl (h 'E' rfl).2.2.2
  · rfl

/-- The power of ten is read with its mark, or there is none. -/
theorem readExponent?_chars {exponent : Option Exponent} (hne : ∀ e ∈ exponent, e.digits ≠ [])
    (h : EndsNumber rest) :
    readExponent? (exponentChars exponent ++ rest) = some (exponent, rest) := by
  cases exponent with
  | none => exact readExponent?_none h
  | some e =>
    rw [exponentChars, Exponent.chars, List.cons_append, List.cons_append, List.append_assoc]
    exact readPower?_chars (hne e rfl) h

/-- A number is read part by part; its power of ten may be written in any way that is read. -/
theorem readNumber?_parts {n : Numeral} (hn : n.WellWritten) {es : List Char}
    (hhead : ∀ c ∈ (es ++ rest).head?, Digit.ofChar? c = none ∧ c ≠ '.')
    (h : readExponent? (es ++ rest) = some (n.exponent, rest)) :
    readNumber? ((if n.negative then ['-'] else [])
      ++ (n.whole.map Digit.char ++ (fractionChars n.fraction ++ (es ++ rest))))
        = some (n, rest) := by
  -- The digits before the point end at the point, or at what follows the number.
  have hfraction : ∀ c ∈ (fractionChars n.fraction ++ (es ++ rest)).head?,
      Digit.ofChar? c = none := by
    cases n.fraction with
    | none => exact fun c hc => (hhead c hc).1
    | some ds =>
      rintro c ⟨⟩
      decide
  rw [readNumber?, readMinus_digits _ hn.whole]
  simp only [readWhole?_digits hn.whole hn.lead hfraction,
    readFraction?_chars hn.fraction hhead, h, bind, Option.bind_some]

/-- A number is read back where nothing belongs to it that comes after it. -/
theorem readNumber?_chars {n : Numeral} (hn : n.WellWritten) (h : EndsNumber rest) :
    readNumber? (n.chars ++ rest) = some (n, rest) := by
  have hhead : ∀ c ∈ (exponentChars n.exponent ++ rest).head?,
      Digit.ofChar? c = none ∧ c ≠ '.' := by
    cases n.exponent with
    | none => exact fun c hc => ⟨(h c hc).1, (h c hc).2.1⟩
    | some e =>
      rintro c ⟨⟩
      decide
  rw [chars_eq, List.append_assoc, List.append_assoc, List.append_assoc]
  exact readNumber?_parts hn hhead (readExponent?_chars hn.power h)

end Number

/-! ### String literals -/

/-- A control character is read back from its number. -/
theorem hexUnit?_hexDigit {n : Nat} (h : n < 32) :
    hexUnit? '0' '0' (hexDigit (n / 16)) (hexDigit (n % 16)) = some n := by
  revert n
  decide

/-- An escaped character is read back. -/
theorem readLiteral?_escaped (seen : List Char) (c : Char) (rest : List Char) :
    readLiteral? seen true none (escaped c ++ rest) = readLiteral? (c :: seen) true none rest := by
  unfold escaped
  split
  case h_8 _ hquote hslash _ _ _ _ _ =>
    split
    · -- A control character without a letter is written by its number, which is no surrogate.
      rename_i hcontrol
      have hlt : c.toNat < 32 := of_decide_eq_true hcontrol
      have hhigh : isHighSurrogate c.toNat = false := by simp [isHighSurrogate]; omega
      have hlow : isLowSurrogate c.toNat = false := by simp [isLowSurrogate]; omega
      simp only [List.cons_append, List.nil_append]
      rw [readLiteral?, hexUnit?_hexDigit hlt]
      simp [hhigh, hlow, Char.ofNat_toNat]
    · rename_i hcontrol
      rw [List.singleton_append, readLiteral?]
      · simp [hcontrol, show c ≠ '\\' from hslash]
      · exact hquote
      · exact fun _ _ _ _ _ h => absurd h hslash
      · exact fun _ _ h => absurd h hslash
  all_goals
    simp only [List.cons_append, List.nil_append]
    rw [readLiteral?]
    · simp [escapeLetter?]
    · exact fun _ _ _ _ _ h => absurd h (by decide)

/-- A text in quotes is read back. -/
theorem readLiteral?_escapedAll (seen cs rest : List Char) :
    readLiteral? seen true none (cs.flatMap escaped ++ '"' :: rest)
      = some (some (String.ofList (seen.reverse ++ cs)), rest) := by
  induction cs generalizing seen with
  | nil => simp [readLiteral?]
  | cons c cs ih =>
    rw [List.flatMap_cons, List.append_assoc, readLiteral?_escaped, ih]
    simp

/-! ### Tokens -/

/-- A number of a token is well written, and a string of a token stands for a text. -/
def Token.WellWritten : Token → Prop
  | .number n => n.WellWritten
  | .string s => s.isSome
  | _ => True

/-- The first character of a number. -/
theorem head_numeral {n : Numeral} (h : n.WellWritten) :
    ∃ c cs, n.chars = c :: cs ∧ (c = '-' ∨ (Digit.ofChar? c).isSome) := by
  obtain ⟨d, ds, hds⟩ := List.exists_cons_of_ne_nil h.whole
  rw [chars_eq, hds]
  cases n.negative with
  | true => exact ⟨'-', _, rfl, .inl rfl⟩
  | false => exact ⟨d.char, _, rfl, .inr (by rw [Digit.ofChar?_char]; rfl)⟩

/-- A number does not begin with white space. -/
theorem isSpace_numeral {c : Char} (hc : c = '-' ∨ (Digit.ofChar? c).isSome) :
    isSpace c = false := by
  rcases hc with rfl | hdigit
  · rfl
  · rw [Bool.eq_false_iff]
    intro hspace
    simp only [isSpace, Bool.or_eq_true, decide_eq_true_eq, or_assoc] at hspace
    rcases hspace with rfl | rfl | rfl | rfl <;> exact absurd hdigit (by decide)

/-- A token does not begin with white space. -/
theorem head_token {t : Token} (h : t.WellWritten) :
    ∃ c cs, t.chars = c :: cs ∧ isSpace c = false := by
  cases t with
  | number n =>
    obtain ⟨c, cs, hcs, hc⟩ := head_numeral h
    exact ⟨c, cs, hcs, isSpace_numeral hc⟩
  | bool b => cases b <;> exact ⟨_, _, rfl, rfl⟩
  | _ => exact ⟨_, _, rfl, rfl⟩

/-- A minus and a digit begin no other token than a number. -/
theorem readToken?_number {c : Char} (hc : c = '-' ∨ (Digit.ofChar? c).isSome) (cs : List Char) :
    readToken? (c :: cs)
      = (readNumber? (c :: cs)).map fun (n, rest) => (Token.number n, rest) := by
  unfold readToken?
  split
  case h_11 => rfl
  all_goals
    rename_i heq
    obtain ⟨rfl, -⟩ := List.cons.inj heq
    exact absurd hc (by decide)

/-- A token is read back, a number where nothing belongs to it that comes after it. -/
theorem readToken?_chars {t : Token} (ht : t.WellWritten) {rest : List Char}
    (h : EndsNumber rest) : readToken? (t.chars ++ rest) = some (t, rest) := by
  -- Numbers and strings are told by how they begin; the other tokens are fixed texts.
  cases t with
  | number n =>
    obtain ⟨c, cs, hcs, hc⟩ := head_numeral ht
    have hread := readNumber?_chars ht h
    rw [Token.chars, hcs, List.cons_append] at *
    rw [readToken?_number hc, hread]
    rfl
  | string s =>
    obtain ⟨s, rfl⟩ := Option.isSome_iff_exists.1 ht
    rw [Token.chars, Option.getD_some, literalChars, List.cons_append, List.cons_append,
      List.append_assoc, List.singleton_append, readToken?, readLiteral?_escapedAll]
    simp
  | bool b => cases b <;> rfl
  | _ => rfl

/-- A token is passed over once it is read; the reader looks for white space first. -/
theorem tokensFrom?_cons (seen : List Token) {c : Char} {cs rest : List Char} {t : Token}
    (hc : isSpace c = false) (h : readToken? (c :: cs) = some (t, rest)) :
    tokensFrom? seen (c :: cs) = tokensFrom? (t :: seen) rest := by
  rw [tokensFrom?, if_neg (by simp [hc])]
  split
  · rename_i hnone
    rw [h] at hnone
    cases hnone
  · rename_i hsome
    rw [h] at hsome
    obtain ⟨rfl, rfl⟩ := Prod.mk.inj (Option.some.inj hsome)
    rfl

/-- A token that is read back is passed over. -/
theorem tokensFrom?_token (seen : List Token) {t : Token} (ht : t.WellWritten) {rest : List Char}
    (h : EndsNumber rest) :
    tokensFrom? seen (t.chars ++ rest) = tokensFrom? (t :: seen) rest := by
  obtain ⟨c, cs, hcs, hc⟩ := head_token ht
  have hread := readToken?_chars ht h
  rw [hcs, List.cons_append] at hread ⊢
  exact tokensFrom?_cons seen hc hread

/-- Spaces make no tokens. -/
theorem tokensFrom?_spaces (seen : List Token) {cs : List Char} (h : ∀ c ∈ cs, isSpace c = true)
    (rest : List Char) : tokensFrom? seen (cs ++ rest) = tokensFrom? seen rest := by
  induction cs with
  | nil => rfl
  | cons c cs ih =>
    obtain ⟨hc, hcs⟩ := List.forall_mem_cons.1 h
    rw [List.cons_append, tokensFrom?, if_pos hc, ih hcs]

/-! ### Printed values -/

/-- Every number of a value is well written, and every string stands for a text. -/
inductive Written : Json → Prop where
  | null : Written .null
  | bool (b : Bool) : Written (.bool b)
  | number {n : Numeral} (h : n.WellWritten) : Written (.number n)
  | string (s : String) : Written (.string (some s))
  | array {items : List Json} (h : ∀ item ∈ items, Written item) : Written (.array items)
  | object {members : List (Literal × Json)} (hkeys : ∀ m ∈ members, m.1.isSome)
    (h : ∀ m ∈ members, Written m.2) : Written (.object members)

/-- The characters of chunks. -/
def chunkChars (cs : List Chunk) : List Char := cs.flatMap fun c => c.text.toList

theorem chunkChars_cons (c : Chunk) (cs : List Chunk) :
    chunkChars (c :: cs) = c.text.toList ++ chunkChars cs := rfl

theorem chunkChars_append (cs cs' : List Chunk) :
    chunkChars (cs ++ cs') = chunkChars cs ++ chunkChars cs' := List.flatMap_append

/-- A printed text is made of the characters of its chunks. -/
theorem toList_join_chunks (cs : List Chunk) :
    (String.join (cs.map Chunk.text)).toList = chunkChars cs := by
  induction cs with
  | nil => rfl
  | cons c cs ih => rw [List.map_cons, String.join_cons, String.toList_append, ih, chunkChars_cons]

/-- A chunk that ends a number that stands before it. -/
def Chunk.isSeparator : Chunk → Bool
  | .newline _ | .blank => true
  | .token .comma | .token .colon | .token .closeArray | .token .closeObject => true
  | .token _ => false

section Chunks

variable {seen : List Token} (cs : List Chunk) {rest : List Char}

/-- No number goes on into a separator. -/
theorem endsNumber_of_isSeparator {c : Chunk} (h : c.isSeparator = true) :
    EndsNumber (chunkChars (c :: cs) ++ rest) := by
  have hhead : ∃ x xs, c.text.toList = x :: xs ∧ x ∈ ['\n', ' ', ',', ':', ']', '\x7d'] := by
    cases c with
    | newline indent => exact ⟨_, _, String.toList_ofList, by decide⟩
    | blank => exact ⟨' ', [], rfl, by decide⟩
    | token t =>
      cases t with
      | comma | colon | closeArray | closeObject => exact ⟨_, [], rfl, by decide⟩
      | _ => cases h
  obtain ⟨x, xs, hxs, hx⟩ := hhead
  simp only [List.mem_cons, List.not_mem_nil, or_false] at hx
  rw [chunkChars_cons, hxs]
  rintro _ ⟨⟩
  rcases hx with rfl | rfl | rfl | rfl | rfl | rfl <;> decide

theorem tokensFrom?_newline (indent : Nat) :
    tokensFrom? seen (chunkChars (.newline indent :: cs) ++ rest)
      = tokensFrom? seen (chunkChars cs ++ rest) := by
  rw [chunkChars_cons, List.append_assoc]
  refine tokensFrom?_spaces seen (fun c hc => ?_) _
  rw [Chunk.text, String.toList_ofList] at hc
  rcases List.mem_cons.1 hc with rfl | hc
  · rfl
  · rw [List.eq_of_mem_replicate hc]
    rfl

theorem tokensFrom?_blank : tokensFrom? seen (chunkChars (.blank :: cs) ++ rest)
    = tokensFrom? seen (chunkChars cs ++ rest) := by
  rw [chunkChars_cons, List.append_assoc]
  exact tokensFrom?_spaces seen (List.forall_mem_singleton.2 rfl) _

/-- A token is read as itself if no number goes on after it. -/
theorem tokensFrom?_chunk {t : Token} (ht : t.WellWritten)
    (h : EndsNumber (chunkChars cs ++ rest)) :
    tokensFrom? seen (chunkChars (.token t :: cs) ++ rest)
      = tokensFrom? (t :: seen) (chunkChars cs ++ rest) := by
  rw [chunkChars_cons, List.append_assoc, Chunk.text, Token.text, String.toList_ofList]
  exact tokensFrom?_token seen ht h

end Chunks

/-! ### Lists of items and members -/

section Listed

variable {α : Type}

/-- The chunks of a list of items or members, each on lines of its own, and of its end. -/
def listedChunks (f : α → List Chunk) (close : Token) (indent : Nat) : List α → List Chunk
  | [] => [.newline indent, .token close]
  | [a] => .newline (indent + 1) :: f a ++ [.newline indent, .token close]
  | a :: b :: rest =>
    .newline (indent + 1) :: f a ++ .token .comma :: listedChunks f close indent (b :: rest)

/-- The tokens of a list of items or members and of its end. -/
def listedTokens (f : α → List Token) (close : Token) : List α → List Token
  | [] => [close]
  | [a] => f a ++ [close]
  | a :: b :: rest => f a ++ .comma :: listedTokens f close (b :: rest)

theorem itemChunks_eq (indent : Nat) (items : List Json) :
    itemChunks indent items = listedChunks (chunks (indent + 1)) .closeArray indent items := by
  induction items using listedTokens.induct with
  | case1 => rfl
  | case2 => rfl
  | case3 item next rest ih => rw [itemChunks, ih, listedChunks]

theorem memberChunks_eq (indent : Nat) (members : List (Literal × Json)) :
    memberChunks indent members
      = listedChunks (pairChunks (indent + 1)) .closeObject indent members := by
  induction members using listedTokens.induct with
  | case1 => rfl
  | case2 => rfl
  | case3 member next rest ih => rw [memberChunks, ih, listedChunks]

theorem itemTokens_eq (items : List Json) :
    itemTokens items = listedTokens tokens .closeArray items := by
  induction items using listedTokens.induct with
  | case1 => rfl
  | case2 => rfl
  | case3 item next rest ih => rw [itemTokens, ih, listedTokens]

theorem memberTokens_eq (members : List (Literal × Json)) :
    memberTokens members = listedTokens pairTokens .closeObject members := by
  induction members using listedTokens.induct with
  | case1 => rfl
  | case2 => rfl
  | case3 member next rest ih => rw [memberTokens, ih, listedTokens]

end Listed

/-- Chunks that are read as the given tokens, wherever they stand. -/
def Spell (cs : List Chunk) (ts : List Token) : Prop :=
  ∀ seen rest, EndsNumber rest →
    tokensFrom? seen (chunkChars cs ++ rest) = tokensFrom? (ts.reverse ++ seen) rest

/-- A token that is well written spells itself. -/
theorem spell_token {t : Token} (ht : t.WellWritten) : Spell [.token t] [t] :=
  fun _ _ hrest => tokensFrom?_chunk [] ht hrest

theorem Spell.newline {cs : List Chunk} {ts : List Token} (h : Spell cs ts) (indent : Nat) :
    Spell (.newline indent :: cs) ts :=
  fun seen rest hrest => (tokensFrom?_newline cs indent).trans (h seen rest hrest)

theorem Spell.blank {cs : List Chunk} {ts : List Token} (h : Spell cs ts) :
    Spell (.blank :: cs) ts :=
  fun seen rest hrest => (tokensFrom?_blank cs).trans (h seen rest hrest)

/-- Chunks follow each other if a number does not run into what comes after it. -/
theorem Spell.append {cs cs' : List Chunk} {ts ts' : List Token} {c : Chunk} (h : Spell cs ts)
    (h' : Spell (c :: cs') ts') (hc : c.isSeparator = true) :
    Spell (cs ++ c :: cs') (ts ++ ts') := by
  intro seen rest hrest
  rw [chunkChars_append, List.append_assoc, h _ _ (endsNumber_of_isSeparator cs' hc),
    h' _ _ hrest, List.reverse_append, List.append_assoc]

/-- A token in front of what does not run into it. -/
theorem Spell.cons {cs : List Chunk} {ts : List Token} {c : Chunk} {t : Token} (ht : t.WellWritten)
    (h : Spell (c :: cs) ts) (hc : c.isSeparator = true) :
    Spell (.token t :: c :: cs) (t :: ts) :=
  (spell_token ht).append h hc

section Listed

variable {α : Type} {f : α → List Chunk} {g : α → List Token} {close : Token}

/-- A list begins on a new line. -/
theorem listedChunks_eq_newline (indent : Nat) (l : List α) :
    ∃ level cs, listedChunks f close indent l = .newline level :: cs :=
  match l with
  | [] => ⟨_, _, rfl⟩
  | [_] => ⟨_, _, rfl⟩
  | _ :: _ :: _ => ⟨_, _, rfl⟩

/-- A token in front of a list. -/
theorem Spell.listed {indent : Nat} {l : List α} {ts : List Token} {t : Token} (ht : t.WellWritten)
    (h : Spell (listedChunks f close indent l) ts) :
    Spell (.token t :: listedChunks f close indent l) (t :: ts) := by
  obtain ⟨level, cs, hcs⟩ := listedChunks_eq_newline (f := f) indent l
  rw [hcs] at h ⊢
  exact .cons ht h rfl

/-- A list is read as its tokens if each of its parts is. -/
theorem spell_listed (hclose : close.WellWritten) (indent : Nat) {l : List α}
    (h : ∀ a ∈ l, Spell (f a) (g a)) :
    Spell (listedChunks f close indent l) (listedTokens g close l) := by
  have hend : Spell [.newline indent, .token close] [close] := (spell_token hclose).newline indent
  induction l using listedTokens.induct with
  | case1 => exact hend
  | case2 a => exact ((h a List.mem_cons_self).append hend rfl).newline _
  | case3 a b rest ih =>
    have hrest := ih fun x hx => h x (List.mem_cons_of_mem _ hx)
    have hcomma := Spell.listed (t := .comma) trivial hrest
    exact ((h a List.mem_cons_self).append hcomma rfl).newline _

end Listed

/-- A member is read as its tokens if its value is. -/
theorem spell_pair {m : Literal × Json} (hkey : m.1.isSome) {indent : Nat}
    (h : Spell (chunks indent m.2) m.2.tokens) : Spell (pairChunks indent m) (pairTokens m) := by
  obtain ⟨key, value⟩ := m
  have hcolon : Spell (.token .colon :: .blank :: chunks indent value) (.colon :: value.tokens) :=
    .cons trivial h.blank rfl
  rw [pairChunks, pairTokens]
  exact .cons hkey hcolon rfl

/-- A value that is printed at any level is read as its tokens. -/
theorem Written.spell {j : Json} (h : Written j) (indent : Nat) :
    Spell (chunks indent j) j.tokens := by
  induction h generalizing indent with
  | null => exact spell_token (t := .null) trivial
  | bool b => exact spell_token (t := .bool b) trivial
  | @number n hn => exact spell_token (t := .number n) hn
  | string s => exact spell_token (t := .string (some s)) rfl
  | @array items _ ih =>
    have hitems : Spell (itemChunks indent items) (itemTokens items) := by
      have hclose : Token.WellWritten .closeArray := trivial
      rw [itemChunks_eq, itemTokens_eq]
      exact spell_listed hclose indent fun x hx => ih x hx (indent + 1)
    -- An empty array is printed on one line, so it is no case of a list.
    cases items with
    | nil => exact .cons (t := .openArray) trivial (spell_token (t := .closeArray) trivial) rfl
    | cons item rest =>
      rw [itemChunks_eq] at hitems
      rw [chunks, tokens, itemChunks_eq]
      · exact .listed trivial hitems
      · exact nofun
  | @object members hkeys _ ih =>
    have hmembers : Spell (memberChunks indent members) (memberTokens members) := by
      have hclose : Token.WellWritten .closeObject := trivial
      rw [memberChunks_eq, memberTokens_eq]
      exact spell_listed hclose indent fun x hx => spell_pair (hkeys x hx) (ih x hx (indent + 1))
    cases members with
    | nil => exact .cons (t := .openObject) trivial (spell_token (t := .closeObject) trivial) rfl
    | cons member rest =>
      rw [memberChunks_eq] at hmembers
      rw [chunks, tokens, memberChunks_eq]
      · exact .listed trivial hmembers
      · exact nofun

/-- The tokens of a printed value. -/
theorem Written.tokens?_pretty {j : Json} (h : Written j) : tokens? j.pretty = some j.tokens := by
  have hspell := h.spell 0 [] [] nofun
  rw [List.append_nil, List.append_nil] at hspell
  rw [tokens?, pretty, toList_join_chunks, hspell, tokensFrom?, List.reverse_reverse]

/-! ### The value of the tokens -/

/-- Where a value starts, its tokens are read as the value. -/
def Reads (j : Json) : Prop :=
  ∀ stack ts, (Reader.value stack).steps (j.tokens ++ ts) = (Reader.after j stack).steps ts

/-- After the start of an array its first item is read like the others, as no value begins with the
    end of an array. -/
theorem firstItem_tokens (item : Json) (rest : List Json) (stack : List Frame) (ts : List Token) :
    (Reader.firstItem stack).steps (itemTokens (item :: rest) ++ ts)
      = (Reader.value (.array [] :: stack)).steps (itemTokens (item :: rest) ++ ts) := by
  have hvalue (us : List Token) : (Reader.firstItem stack).steps (item.tokens ++ us)
      = (Reader.value (.array [] :: stack)).steps (item.tokens ++ us) := by
    cases item <;> rfl
  cases rest with
  | nil => rw [itemTokens, List.append_assoc, hvalue]
  | cons => rw [itemTokens, List.append_assoc, hvalue]

/-- After the start of an object its first key is read like the others. -/
theorem firstKey_tokens (m : Literal × Json) (rest : List (Literal × Json)) (stack : List Frame)
    (ts : List Token) :
    (Reader.firstKey stack).steps (memberTokens (m :: rest) ++ ts)
      = (Reader.key [] stack).steps (memberTokens (m :: rest) ++ ts) := by
  obtain ⟨key, value⟩ := m
  cases rest <;> rfl

/-- Items are read one after the other, and the array is done with the last. -/
theorem steps_items {items : List Json} (h : ∀ item ∈ items, Reads item) (hne : items ≠ [])
    (seen : List Json) (stack : List Frame) (ts : List Token) :
    (Reader.value (.array seen :: stack)).steps (itemTokens items ++ ts)
      = (Reader.after (.array (seen.reverse ++ items)) stack).steps ts := by
  rw [itemTokens_eq]
  -- The induction follows the list, whose last item has no comma after it.
  induction items using listedTokens.induct generalizing seen with
  | case1 => exact absurd rfl hne
  | case2 item =>
    rw [listedTokens, List.append_assoc, h item List.mem_cons_self]
    simp [Reader.steps, Reader.step]
  | case3 item next rest ih =>
    rw [listedTokens, List.append_assoc, h item List.mem_cons_self]
    have hrest := ih (fun x hx => h x (List.mem_cons_of_mem _ hx)) (List.cons_ne_nil _ _)
      (item :: seen)
    simp only [List.cons_append, Reader.steps, Reader.step, hrest]
    simp

theorem steps_members {members : List (Literal × Json)} (h : ∀ m ∈ members, Reads m.2)
    (hne : members ≠ []) (seen : List (Literal × Json)) (stack : List Frame) (ts : List Token) :
    (Reader.key seen stack).steps (memberTokens members ++ ts)
      = (Reader.after (.object (seen.reverse ++ members)) stack).steps ts := by
  have hpair (m : Literal × Json) (hm : m ∈ members) (seen : List (Literal × Json)) (ts) :
      (Reader.key seen stack).steps (pairTokens m ++ ts)
        = (Reader.after m.2 (.object seen m.1 :: stack)).steps ts := by
    obtain ⟨key, value⟩ := m
    exact h _ hm (.object seen key :: stack) ts
  rw [memberTokens_eq]
  induction members using listedTokens.induct generalizing seen with
  | case1 => exact absurd rfl hne
  | case2 m =>
    rw [listedTokens, List.append_assoc, hpair m List.mem_cons_self]
    simp [Reader.steps, Reader.step]
  | case3 m next rest ih =>
    rw [listedTokens, List.append_assoc, hpair m List.mem_cons_self]
    have hrest := ih (fun x hx => h x (List.mem_cons_of_mem _ hx)) (List.cons_ne_nil _ _)
      (m :: seen) fun x hx => hpair x (List.mem_cons_of_mem _ hx)
    simp only [List.cons_append, Reader.steps, Reader.step, hrest]
    simp

/-- The tokens of a value are read as the value. -/
theorem reads (j : Json) : Reads j := by
  intro stack ts
  cases j with
  -- What is inside is smaller, so it is read as it should be.
  | array items =>
    have hitems : ∀ item ∈ items, Reads item := fun item _ => reads item
    cases items with
    | nil => rfl
    | cons item rest =>
      exact (firstItem_tokens item rest stack ts).trans
        (steps_items hitems (List.cons_ne_nil _ _) [] stack ts)
  | object members =>
    have hmembers : ∀ m ∈ members, Reads m.2 := fun m _ => reads m.2
    cases members with
    | nil => rfl
    | cons m rest =>
      exact (firstKey_tokens m rest stack ts).trans
        (steps_members hmembers (List.cons_ne_nil _ _) [] stack ts)
  | _ => rfl
termination_by sizeOf j
decreasing_by
  · have := List.sizeOf_lt_of_mem ‹item ∈ items›
    simp only [Json.array.sizeOf_spec]
    omega
  · have := List.sizeOf_lt_of_mem ‹m ∈ members›
    obtain ⟨key, value⟩ := m
    simp only [Json.object.sizeOf_spec, Prod.mk.sizeOf_spec] at *
    omega

/-- A value is the value of its tokens. -/
theorem ofTokens?_tokens (j : Json) : ofTokens? j.tokens = some j := by
  have hreads := reads j [] []
  rw [List.append_nil] at hreads
  rw [ofTokens?, hreads]
  rfl

/-- A written value is read back from its printed text. -/
theorem Written.parse?_pretty {j : Json} (h : Written j) : parse? j.pretty = some j := by
  rw [parse?, h.tokens?_pretty, Option.bind_some, ofTokens?_tokens]

end Json

end MaterialNet
