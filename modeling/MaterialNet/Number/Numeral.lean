namespace MaterialNet

/-!
# Decimal numerals — the written form of a number

A `Numeral` is a number as it stands in a text: a sign, digits before the point, digits after
it, and a power of ten.  The shader text and the JSON text write their floats as numerals, and
the JSON lexer reads numerals; what number a numeral stands for is decided elsewhere.

* `Digit.char`, `Digit.ofChar?` — a digit and its character
* `digitsOf`, `digitsValue` — the decimal digits of a natural number, and back
* `Numeral.text` — the characters of a numeral
-/

/-- One decimal digit. -/
abbrev Digit := Fin 10

/-! ### Single digits -/

/-- The digit zero. -/
def Digit.zero : Digit := ⟨0, by decide⟩

/-- The character that writes a digit. -/
def Digit.char (d : Digit) : Char := Char.ofNat (48 + d.val)

/-- The digit that a character writes; only the ten ASCII digits write one. -/
def Digit.ofChar? (c : Char) : Option Digit :=
  if h : 48 ≤ c.toNat ∧ c.toNat ≤ 57 then some ⟨c.toNat - 48, by omega⟩ else none

theorem Digit.ofChar?_char (d : Digit) : Digit.ofChar? d.char = some d := by
  revert d; decide

theorem Digit.char_eq_of_ofChar? {c : Char} {d : Digit} (h : Digit.ofChar? c = some d) :
    d.char = c := by
  unfold Digit.ofChar? at h
  split at h
  · rename_i hc
    obtain rfl := Option.some.inj h
    have : 48 + (c.toNat - 48) = c.toNat := by omega
    simp [Digit.char, this, Char.ofNat_toNat]
  · cases h

/-! ### Digit strings -/

/-- The natural number that a string of digits writes, most significant digit first. -/
def digitsValue (ds : List Digit) : Nat :=
  ds.foldl (fun n d => 10 * n + d.val) 0

/-- The decimal digits of a natural number without leading zeros; zero is the digit `0`. -/
def digitsOf (n : Nat) : List Digit :=
  if h : n < 10 then [⟨n, h⟩] else digitsOf (n / 10) ++ [⟨n % 10, Nat.mod_lt n (by decide)⟩]
termination_by n
decreasing_by omega

/-- One more digit makes ten times as much and itself. -/
theorem digitsValue_append_singleton (ds : List Digit) (d : Digit) :
    digitsValue (ds ++ [d]) = 10 * digitsValue ds + d.val := by
  simp [digitsValue, List.foldl_append]

/-- The digits of `n` write `n`. -/
theorem digitsValue_digitsOf (n : Nat) : digitsValue (digitsOf n) = n := by
  induction n using digitsOf.induct with
  | case1 n h => rw [digitsOf]; simp [h, digitsValue]
  | case2 n h ih =>
    rw [digitsOf]
    simp only [h, dite_false, digitsValue_append_singleton, ih]
    omega

theorem digitsOf_ne_nil (n : Nat) : digitsOf n ≠ [] := by
  rw [digitsOf]; split <;> simp

/-! ### Numerals -/

/-- How the sign of a power of ten is written: left out, as a plus, or as a minus. -/
inductive ExponentSign where
  | unsigned
  | plus
  | minus
deriving DecidableEq, Repr

/-- The power of ten at the end of a numeral. -/
structure Exponent where
  sign : ExponentSign
  digits : List Digit
deriving DecidableEq, Repr

/-- A decimal number as written. `fraction` holds the digits after the point, if there is a
    point, and `exponent` the power of ten, if there is one. -/
structure Numeral where
  negative : Bool
  whole : List Digit
  fraction : Option (List Digit)
  exponent : Option Exponent
deriving DecidableEq, Repr

/-- The characters of an exponent's sign. -/
def ExponentSign.chars : ExponentSign → List Char
  | .unsigned => []
  | .plus => ['+']
  | .minus => ['-']

/-- The characters of an exponent, from the letter `e` on. -/
def Exponent.chars (e : Exponent) : List Char :=
  'e' :: e.sign.chars ++ e.digits.map Digit.char

/-- The characters of a numeral. -/
def Numeral.chars (n : Numeral) : List Char :=
  (if n.negative then ['-'] else [])
    ++ n.whole.map Digit.char
    ++ (match n.fraction with
        | none => []
        | some ds => '.' :: ds.map Digit.char)
    ++ (match n.exponent with
        | none => []
        | some e => e.chars)

/-- The text of a numeral. -/
def Numeral.text (n : Numeral) : String := String.ofList n.chars

/-- The numeral of an integer. -/
def Numeral.ofInt (n : Int) : Numeral where
  negative := n < 0
  whole := digitsOf n.natAbs
  fraction := none
  exponent := none

end MaterialNet
