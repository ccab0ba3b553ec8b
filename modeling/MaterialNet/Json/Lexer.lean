import MaterialNet.Json.Token

namespace MaterialNet

/-!
# The tokens of a JSON text

* `Json.readDigits`, `readNumber?`, `readLiteral?` — the readers of single tokens
* `Json.tokens?` — all tokens of a text, if it is made of nothing but tokens and white space
-/

namespace Json

/-- White space between tokens. -/
def isSpace (c : Char) : Bool := c = ' ' || c = '\t' || c = '\n' || c = '\r'

/-! ### Numbers -/

/-- The digits at the start of a text, and the rest of it. -/
def readDigits : List Char → List Digit × List Char
  | [] => ([], [])
  | c :: rest =>
    match Digit.ofChar? c with
    | some d =>
      let (ds, rest) := readDigits rest
      (d :: ds, rest)
    | none => ([], c :: rest)

/-- The sign of a number. -/
def readMinus : List Char → Bool × List Char
  | '-' :: rest => (true, rest)
  | cs => (false, cs)

/-- The digits before the point: at least one, and no zero in front of others. -/
def readWhole? (cs : List Char) : Option (List Digit × List Char) :=
  match readDigits cs with
  | ([], _) => none
  | (d :: ds, rest) => if d = Digit.zero ∧ ds ≠ [] then none else some (d :: ds, rest)

/-- The point and the digits after it, if there is a point; it needs at least one digit. -/
def readFraction? : List Char → Option (Option (List Digit) × List Char)
  | '.' :: rest =>
    match readDigits rest with
    | ([], _) => none
    | (ds, rest) => some (some ds, rest)
  | cs => some (none, cs)

/-- The sign of a power of ten. -/
def readExponentSign : List Char → ExponentSign × List Char
  | '+' :: rest => (.plus, rest)
  | '-' :: rest => (.minus, rest)
  | cs => (.unsigned, cs)

/-- The power of ten after its letter; it needs at least one digit. -/
def readPower? (cs : List Char) : Option (Option Exponent × List Char) :=
  let (sign, cs) := readExponentSign cs
  match readDigits cs with
  | ([], _) => none
  | (ds, rest) => some (some ⟨sign, ds⟩, rest)

/-- The power of ten, if there is one. -/
def readExponent? : List Char → Option (Option Exponent × List Char)
  | 'e' :: rest => readPower? rest
  | 'E' :: rest => readPower? rest
  | cs => some (none, cs)

/-- The number at the start of a text, and the rest of it. -/
def readNumber? (cs : List Char) : Option (Numeral × List Char) := do
  let (negative, cs) := readMinus cs
  let (whole, cs) ← readWhole? cs
  let (fraction, cs) ← readFraction? cs
  let (exponent, cs) ← readExponent? cs
  some (⟨negative, whole, fraction, exponent⟩, cs)

/-! ### String literals -/

/-- The value of a hexadecimal digit of either case. -/
def hexValue? (c : Char) : Option Nat :=
  let n := c.toNat
  if 48 ≤ n ∧ n ≤ 57 then some (n - 48)
  else if 97 ≤ n ∧ n ≤ 102 then some (n - 87)
  else if 65 ≤ n ∧ n ≤ 70 then some (n - 55)
  else none

/-- The number of four hexadecimal digits. -/
def hexUnit? (a b c d : Char) : Option Nat := do
  let a ← hexValue? a
  let b ← hexValue? b
  let c ← hexValue? c
  let d ← hexValue? d
  some (((a * 16 + b) * 16 + c) * 16 + d)

/-- The first half of a surrogate pair. -/
def isHighSurrogate (n : Nat) : Bool := 0xd800 ≤ n && n ≤ 0xdbff

/-- The second half of a surrogate pair. -/
def isLowSurrogate (n : Nat) : Bool := 0xdc00 ≤ n && n ≤ 0xdfff

/-- The character of a surrogate pair. -/
def pairChar (high low : Nat) : Char :=
  Char.ofNat (0x10000 + (high - 0xd800) * 0x400 + (low - 0xdc00))

/-- The character of an escape by letter. -/
def escapeLetter? : Char → Option Char
  | '"' => some '"'
  | '\\' => some '\\'
  | '/' => some '/'
  | 'b' => some '\x08'
  | 'f' => some '\x0c'
  | 'n' => some '\n'
  | 'r' => some '\r'
  | 't' => some '\t'
  | _ => none

/-- The rest of a string literal after its opening quote.  `seen` holds its characters so far,
    last one first, `sound` says that no half of a surrogate pair has stood alone, and `high` is
    the first half of a pair if that was the last thing read. -/
def readLiteral? (seen : List Char) (sound : Bool) (high : Option Nat) :
    List Char → Option (Literal × List Char)
  | [] => none
  | '"' :: rest =>
    some (if sound && high.isNone then some (String.ofList seen.reverse) else none, rest)
  | '\\' :: 'u' :: a :: b :: c :: d :: rest =>
    match hexUnit? a b c d with
    | none => none
    | some n =>
      -- A first half waits for its second half; whatever else comes next leaves it alone.
      if isHighSurrogate n then readLiteral? seen (sound && high.isNone) (some n) rest
      else if isLowSurrogate n then
        match high with
        | some h => readLiteral? (pairChar h n :: seen) sound none rest
        | none => readLiteral? seen false none rest
      else readLiteral? (Char.ofNat n :: seen) (sound && high.isNone) none rest
  | '\\' :: letter :: rest =>
    match escapeLetter? letter with
    | none => none
    | some c => readLiteral? (c :: seen) (sound && high.isNone) none rest
  | c :: rest =>
    if isControl c || c = '\\' then none
    else readLiteral? (c :: seen) (sound && high.isNone) none rest

/-! ### Tokens -/

/-- The token at the start of a text that does not start with white space. -/
def readToken? : List Char → Option (Token × List Char)
  | '\x7b' :: rest => some (.openObject, rest)
  | '\x7d' :: rest => some (.closeObject, rest)
  | '[' :: rest => some (.openArray, rest)
  | ']' :: rest => some (.closeArray, rest)
  | ':' :: rest => some (.colon, rest)
  | ',' :: rest => some (.comma, rest)
  | 'n' :: 'u' :: 'l' :: 'l' :: rest => some (.null, rest)
  | 't' :: 'r' :: 'u' :: 'e' :: rest => some (.bool true, rest)
  | 'f' :: 'a' :: 'l' :: 's' :: 'e' :: rest => some (.bool false, rest)
  | '"' :: rest => (readLiteral? [] true none rest).map fun (s, rest) => (.string s, rest)
  | cs => (readNumber? cs).map fun (n, rest) => (.number n, rest)

/-! ### Every reader takes something off the text -/

/-- Reading digits splits a text in two. -/
theorem readDigits_length (cs : List Char) :
    (readDigits cs).1.length + (readDigits cs).2.length = cs.length := by
  induction cs with
  | nil => rfl
  | cons c rest ih =>
    simp only [readDigits]
    split
    · simp only [List.length_cons]; omega
    · simp

theorem readMinus_length (cs : List Char) : (readMinus cs).2.length ≤ cs.length := by
  unfold readMinus
  split <;> simp

/-- Reading a whole number shortens it, as there is a digit. -/
theorem readWhole?_length {cs rest : List Char} {ds : List Digit}
    (h : readWhole? cs = some (ds, rest)) : rest.length < cs.length := by
  have := readDigits_length cs
  unfold readWhole? at h
  split at h
  · cases h
  · rename_i d ds' rest' he
    split at h
    · cases h
    · obtain ⟨-, rfl⟩ := Prod.mk.inj (Option.some.inj h)
      rw [he] at this
      simp only [List.length_cons] at this
      omega

theorem readFraction?_length {cs rest : List Char} {f : Option (List Digit)}
    (h : readFraction? cs = some (f, rest)) : rest.length ≤ cs.length := by
  unfold readFraction? at h
  split at h
  · rename_i r
    have := readDigits_length r
    split at h
    · cases h
    · rename_i ds rest' _ he
      obtain ⟨-, rfl⟩ := Prod.mk.inj (Option.some.inj h)
      rw [he] at this
      simp only [List.length_cons] at this ⊢
      omega
  · obtain ⟨-, rfl⟩ := Prod.mk.inj (Option.some.inj h)
    exact Nat.le_refl _

theorem readExponentSign_length (cs : List Char) :
    (readExponentSign cs).2.length ≤ cs.length := by
  unfold readExponentSign
  split <;> simp

theorem readPower?_length {cs rest : List Char} {e : Option Exponent}
    (h : readPower? cs = some (e, rest)) : rest.length ≤ cs.length := by
  have h1 := readExponentSign_length cs
  have h2 := readDigits_length (readExponentSign cs).2
  unfold readPower? at h
  simp only at h
  split at h
  · cases h
  · rename_i ds rest' _ he
    obtain ⟨-, rfl⟩ := Prod.mk.inj (Option.some.inj h)
    rw [he] at h2
    simp only at h2
    omega

theorem readExponent?_length {cs rest : List Char} {e : Option Exponent}
    (h : readExponent? cs = some (e, rest)) : rest.length ≤ cs.length := by
  unfold readExponent? at h
  split at h
  · have := readPower?_length h
    simp only [List.length_cons]; omega
  · have := readPower?_length h
    simp only [List.length_cons]; omega
  · obtain ⟨-, rfl⟩ := Prod.mk.inj (Option.some.inj h)
    exact Nat.le_refl _

/-- A number has a digit, so reading it shortens the text. -/
theorem readNumber?_length {cs rest : List Char} {n : Numeral}
    (h : readNumber? cs = some (n, rest)) : rest.length < cs.length := by
  unfold readNumber? at h
  have h0 := readMinus_length cs
  simp only [bind, Option.bind_eq_some_iff, Prod.exists] at h
  obtain ⟨_, cs1, h1, _, cs2, h2, _, cs3, h3, h4⟩ := h
  obtain ⟨-, rfl⟩ := Prod.mk.inj (Option.some.inj h4)
  have := readWhole?_length h1
  have := readFraction?_length h2
  have := readExponent?_length h3
  omega

/-- A string has its quotation mark at the end. -/
theorem readLiteral?_length (seen : List Char) (sound : Bool) (high : Option Nat)
    (cs : List Char) {s : Literal} {rest : List Char}
    (h : readLiteral? seen sound high cs = some (s, rest)) : rest.length < cs.length := by
  fun_induction readLiteral? seen sound high cs <;> simp_all <;> omega

/-- Every token takes a character at least, so a text has finitely many. -/
theorem readToken?_length {cs rest : List Char} {t : Token}
    (h : readToken? cs = some (t, rest)) : rest.length < cs.length := by
  unfold readToken? at h
  split at h
  case h_10 =>
    simp only [Option.map_eq_some_iff, Prod.exists] at h
    obtain ⟨s, rest', h1, h2⟩ := h
    obtain ⟨-, rfl⟩ := Prod.mk.inj h2
    have := readLiteral?_length _ _ _ _ h1
    simp only [List.length_cons]; omega
  case h_11 =>
    simp only [Option.map_eq_some_iff, Prod.exists] at h
    obtain ⟨n, rest', h1, h2⟩ := h
    obtain ⟨-, rfl⟩ := Prod.mk.inj h2
    exact readNumber?_length h1
  all_goals
    obtain ⟨-, rfl⟩ := Prod.mk.inj (Option.some.inj h)
    simp only [List.length_cons]; omega

/-! ### The whole text -/

/-- The tokens of the rest of a text, behind the tokens seen so far, last one first. -/
def tokensFrom? (seen : List Token) (cs : List Char) : Option (List Token) :=
  match cs with
  | [] => some seen.reverse
  | c :: rest =>
    if isSpace c then tokensFrom? seen rest
    else
      match _h : readToken? (c :: rest) with
      | none => none
      | some (t, rest) => tokensFrom? (t :: seen) rest
termination_by cs.length
decreasing_by
  · simp
  · exact readToken?_length _h

/-- The tokens of a text; `none` if something in it is no token. -/
def tokens? (s : String) : Option (List Token) := tokensFrom? [] s.toList

end Json

end MaterialNet
