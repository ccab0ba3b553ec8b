import MaterialNet.Number.Format

namespace MaterialNet

/-!
# Single-precision numbers

`Binary32` is a float of the shader language, kept as its 32 bits: equality is equality of bits,
so the two zeros differ and a not-a-number equals itself.

* `negative`, `code`, `isFinite` — sign, magnitude code and class
* `ofCode`, `ofRatio` — the float of a sign and a magnitude
-/

/-- A single-precision float, by its bits. -/
structure Binary32 where
  bits : UInt32
deriving DecidableEq, Repr

namespace Binary32

/-! ### Taking a float apart -/

/-- The sign bit. -/
def negative (x : Binary32) : Bool := 0x80000000 ≤ x.bits.toNat

/-- The magnitude, as a code of the format `Format.binary32`; codes above
    `Format.infinity` belong to the not-a-numbers. -/
def code (x : Binary32) : Nat := x.bits.toNat % 0x80000000

/-- Neither infinite nor a not-a-number. -/
def isFinite (x : Binary32) : Bool := x.code < Format.binary32.infinity

/-- Not a number. -/
def isNaN (x : Binary32) : Bool := Format.binary32.infinity < x.code

/-! ### Putting a float together -/

/-- The float of a sign and a magnitude code. -/
def ofCode (negative : Bool) (code : Nat) : Binary32 :=
  ⟨UInt32.ofNat ((if negative then 0x80000000 else 0) + code)⟩

/-- The float nearest to `± num / den`. -/
def ofRatio (negative : Bool) (num den : Nat) : Binary32 :=
  ofCode negative (Format.binary32.ofRatio num den)

/-- The float nearest to an integer. -/
def ofInt (n : Int) : Binary32 := ofRatio (n < 0) n.natAbs 1

/-- The float `0.0`. -/
def zero : Binary32 := ⟨0⟩

/-- The float `1.0`. -/
def one : Binary32 := ⟨0x3f800000⟩

/-- The float `2.0`. -/
def two : Binary32 := ⟨0x40000000⟩

/-! ### The parts determine the float -/

/-- A code leaves room for the sign. -/
theorem code_lt (x : Binary32) : x.code < 0x80000000 := Nat.mod_lt _ (by decide)

/-- The sign is the highest bit, above the code. -/
theorem toNat_bits_ofCode (b : Bool) {c : Nat} (h : c < 0x80000000) :
    (ofCode b c).bits.toNat = (if b then 0x80000000 else 0) + c := by
  have hlt : (if b then 0x80000000 else 0) + c < UInt32.size := by
    cases b <;> simp [UInt32.size] <;> omega
  exact UInt32.toNat_ofNat_of_lt' hlt

theorem negative_ofCode (b : Bool) {c : Nat} (h : c < 0x80000000) :
    (ofCode b c).negative = b := by
  rw [negative, toNat_bits_ofCode b h]
  cases b
  · simp
    omega
  · simp

theorem code_ofCode (b : Bool) {c : Nat} (h : c < 0x80000000) : (ofCode b c).code = c := by
  rw [code, toNat_bits_ofCode b h]
  cases b <;> simp <;> omega

/-- Sign and code make up a float. -/
theorem ofCode_negative_code (x : Binary32) : ofCode x.negative x.code = x := by
  have hx : x.bits.toNat < 0x100000000 := x.bits.toNat_lt
  have h : (if x.negative then 0x80000000 else 0) + x.code = x.bits.toNat := by
    simp only [negative, code, decide_eq_true_eq]
    split <;> omega
  rw [ofCode, h, UInt32.ofNat_toNat]

end Binary32

end MaterialNet
