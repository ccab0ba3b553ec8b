namespace MaterialNet

/-!
# The XXH3 digest

A digest of 128 bits over a string of bytes, with the algorithm's usual secret and no seed.  Short
inputs are mixed in one go, by length class; long ones are gathered in eight lanes, 64 bytes at a
time.

* `XXH3.digest` — the digest as two words, the high one first
* `XXH3.hex` — the digest in hexadecimal
-/

namespace XXH3

/-! ### Constants -/

/-- The secret: 192 fixed bytes that inputs are mixed with. -/
def secret : ByteArray := ⟨#[
  0xb8, 0xfe, 0x6c, 0x39, 0x23, 0xa4, 0x4b, 0xbe, 0x7c, 0x01, 0x81, 0x2c, 0xf7, 0x21, 0xad, 0x1c,
  0xde, 0xd4, 0x6d, 0xe9, 0x83, 0x90, 0x97, 0xdb, 0x72, 0x40, 0xa4, 0xa4, 0xb7, 0xb3, 0x67, 0x1f,
  0xcb, 0x79, 0xe6, 0x4e, 0xcc, 0xc0, 0xe5, 0x78, 0x82, 0x5a, 0xd0, 0x7d, 0xcc, 0xff, 0x72, 0x21,
  0xb8, 0x08, 0x46, 0x74, 0xf7, 0x43, 0x24, 0x8e, 0xe0, 0x35, 0x90, 0xe6, 0x81, 0x3a, 0x26, 0x4c,
  0x3c, 0x28, 0x52, 0xbb, 0x91, 0xc3, 0x00, 0xcb, 0x88, 0xd0, 0x65, 0x8b, 0x1b, 0x53, 0x2e, 0xa3,
  0x71, 0x64, 0x48, 0x97, 0xa2, 0x0d, 0xf9, 0x4e, 0x38, 0x19, 0xef, 0x46, 0xa9, 0xde, 0xac, 0xd8,
  0xa8, 0xfa, 0x76, 0x3f, 0xe3, 0x9c, 0x34, 0x3f, 0xf9, 0xdc, 0xbb, 0xc7, 0xc7, 0x0b, 0x4f, 0x1d,
  0x8a, 0x51, 0xe0, 0x4b, 0xcd, 0xb4, 0x59, 0x31, 0xc8, 0x9f, 0x7e, 0xc9, 0xd9, 0x78, 0x73, 0x64,
  0xea, 0xc5, 0xac, 0x83, 0x34, 0xd3, 0xeb, 0xc3, 0xc5, 0x81, 0xa0, 0xff, 0xfa, 0x13, 0x63, 0xeb,
  0x17, 0x0d, 0xdd, 0x51, 0xb7, 0xf0, 0xda, 0x49, 0xd3, 0x16, 0x55, 0x26, 0x29, 0xd4, 0x68, 0x9e,
  0x2b, 0x16, 0xbe, 0x58, 0x7d, 0x47, 0xa1, 0xfc, 0x8f, 0xf8, 0xb8, 0xd1, 0x7a, 0xd0, 0x31, 0xce,
  0x45, 0xcb, 0x3a, 0x8f, 0x95, 0x16, 0x04, 0x28, 0xaf, 0xd7, 0xfb, 0xca, 0xbb, 0x4b, 0x40, 0x7e]⟩

-- The multipliers of the algorithm: primes of 32 and 64 bits, and two odd numbers for mixing.

def prime32A : UInt64 := 0x9e3779b1
def prime32B : UInt64 := 0x85ebca77
def prime32C : UInt64 := 0xc2b2ae3d
def prime64A : UInt64 := 0x9e3779b185ebca87
def prime64B : UInt64 := 0xc2b2ae3d27d4eb4f
def prime64C : UInt64 := 0x165667b19e3779f9
def prime64D : UInt64 := 0x85ebca77c2b2ae63
def prime64E : UInt64 := 0x27d4eb2f165667c5
def primeMixA : UInt64 := 0x165667919e3779f9
def primeMixB : UInt64 := 0x9fb21c651e98df25

/-! ### Reading words -/

/-- The byte at a position, zero behind the end. -/
def byteAt (b : ByteArray) (i : Nat) : UInt64 := if h : i < b.size then b[i].toUInt64 else 0

/-- Four bytes as a number, least significant first. -/
def word32 (b : ByteArray) (i : Nat) : UInt64 :=
  byteAt b i ||| byteAt b (i + 1) <<< 8 ||| byteAt b (i + 2) <<< 16 ||| byteAt b (i + 3) <<< 24

/-- Eight bytes as a number, least significant first. -/
def word64 (b : ByteArray) (i : Nat) : UInt64 := word32 b i ||| word32 b (i + 4) <<< 32

/-- The four low bytes of a number in the other order. -/
def swap32 (x : UInt64) : UInt64 :=
  (x &&& 0xff) <<< 24 ||| (x >>> 8 &&& 0xff) <<< 16 ||| (x >>> 16 &&& 0xff) <<< 8
    ||| (x >>> 24 &&& 0xff)

/-- The eight bytes of a number in the other order. -/
def swap64 (x : UInt64) : UInt64 := swap32 x <<< 32 ||| swap32 (x >>> 32)

/-! ### Mixing -/

/-- The low and the high word of a product. -/
def multiply (a b : UInt64) : UInt64 × UInt64 :=
  let p := a.toNat * b.toNat
  (UInt64.ofNat p, UInt64.ofNat (p >>> 64))

/-- The low 32 bits of a word. -/
def lowHalf (x : UInt64) : UInt64 := x &&& 0xffffffff

/-- The two words of a product, combined. -/
def fold (a b : UInt64) : UInt64 :=
  let (low, high) := multiply a b
  low ^^^ high

/-- The strong finishing step. -/
def finishStrong (h : UInt64) : UInt64 :=
  let h := (h ^^^ h >>> 33) * prime64B
  let h := (h ^^^ h >>> 29) * prime64C
  h ^^^ h >>> 32

/-- The light finishing step. -/
def finish (h : UInt64) : UInt64 :=
  let h := (h ^^^ h >>> 37) * primeMixA
  h ^^^ h >>> 32

/-- Sixteen bytes of the input with sixteen bytes of the secret. -/
def mix16 (b : ByteArray) (i s : Nat) : UInt64 :=
  fold (word64 b i ^^^ word64 secret s) (word64 b (i + 8) ^^^ word64 secret (s + 8))

/-- Two low-high lanes after mixing in sixteen bytes at each of two positions. -/
def mix32 (lanes : UInt64 × UInt64) (b : ByteArray) (i j s : Nat) : UInt64 × UInt64 :=
  let (low, high) := lanes
  ((low + mix16 b i s) ^^^ (word64 b j + word64 b (j + 8)),
    (high + mix16 b j (s + 16)) ^^^ (word64 b i + word64 b (i + 8)))

/-! ### Up to sixteen bytes -/

/-- The words of the secret at two positions, combined. -/
def secretPair (s t : Nat) : UInt64 := word64 secret s ^^^ word64 secret t

/-- The digest of no bytes. -/
def digestEmpty : UInt64 × UInt64 :=
  (finishStrong (secretPair 80 88), finishStrong (secretPair 64 72))

/-- The digest of one to three bytes. -/
def digestTiny (b : ByteArray) : UInt64 × UInt64 :=
  let n := b.size
  let low := byteAt b 0 <<< 16 ||| byteAt b (n / 2) <<< 24 ||| byteAt b (n - 1)
    ||| UInt64.ofNat n <<< 8
  let swapped := swap32 low
  let high := lowHalf (swapped <<< 13 ||| swapped >>> 19)
  (finishStrong (high ^^^ (word32 secret 8 ^^^ word32 secret 12)),
    finishStrong (low ^^^ (word32 secret 0 ^^^ word32 secret 4)))

/-- The digest of four to eight bytes. -/
def digestShort (b : ByteArray) : UInt64 × UInt64 :=
  let n := b.size
  let keyed := (word32 b 0 + word32 b (n - 4) <<< 32) ^^^ secretPair 16 24
  let (low, high) := multiply keyed (prime64A + UInt64.ofNat n <<< 2)
  let high := high + low <<< 1
  let low := low ^^^ high >>> 3
  let low := (low ^^^ low >>> 35) * primeMixB
  (finish high, low ^^^ low >>> 28)

/-- The digest of nine to sixteen bytes. -/
def digestMedium (b : ByteArray) : UInt64 × UInt64 :=
  let n := b.size
  let first := word64 b 0
  let last := word64 b (n - 8)
  let (low, high) := multiply (first ^^^ last ^^^ secretPair 32 40) prime64A
  let low := low + UInt64.ofNat (n - 1) <<< 54
  let last := last ^^^ secretPair 48 56
  let high := high + last + lowHalf last * (prime32B - 1)
  let low := low ^^^ swap64 high
  let (low, carried) := multiply low prime64B
  (finish (carried + high * prime64B), finish low)

/-! ### Up to 240 bytes -/

/-- The digest of the two lanes of an input of `n` bytes. -/
def finishLanes (lanes : UInt64 × UInt64) (n : Nat) : UInt64 × UInt64 :=
  let (low, high) := lanes
  (0 - finish (low * prime64A + high * prime64D + UInt64.ofNat n * prime64B), finish (low + high))

/-- The digest of 17 to 128 bytes: pairs of positions from both ends towards the middle. -/
def digestLong (b : ByteArray) : UInt64 × UInt64 :=
  let n := b.size
  let pairs := (n - 1) / 32 + 1
  let lanes := (List.range pairs).reverse.foldl
    (fun lanes i => mix32 lanes b (16 * i) (n - 16 * (i + 1)) (32 * i))
    (UInt64.ofNat n * prime64A, 0)
  finishLanes lanes n

/-- The digest of 129 to 240 bytes. -/
def digestLonger (b : ByteArray) : UInt64 × UInt64 :=
  let n := b.size
  let lanes := (List.range 4).foldl
    (fun lanes i => mix32 lanes b (32 * i) (32 * i + 16) (32 * i))
    (UInt64.ofNat n * prime64A, 0)
  let lanes := (finish lanes.1, finish lanes.2)
  let lanes := (List.range (n / 32 - 4)).foldl
    (fun lanes i => mix32 lanes b (32 * (i + 4)) (32 * (i + 4) + 16) (3 + 32 * i))
    lanes
  finishLanes (mix32 lanes b (n - 16) (n - 32) 103) n

/-! ### More than 240 bytes -/

/-- The eight lanes before any input. -/
def initialLanes : Array UInt64 :=
  #[prime32C, prime64A, prime64B, prime64C, prime64D, prime32B, prime64E, prime32A]

/-- The lanes after mixing in the 64 bytes at `i`. -/
def accumulate (b : ByteArray) (lanes : Array UInt64) (i s : Nat) : Array UInt64 :=
  (List.range 8).foldl
    (fun lanes k =>
      -- The word itself goes into the lane beside, so it is not lost where the product is zero.
      let data := word64 b (i + 8 * k)
      let key := data ^^^ word64 secret (s + 8 * k)
      let product := lowHalf key * (key >>> 32)
      (lanes.modify (k ^^^ 1) fun lane => lane + data).modify k fun lane => lane + product)
    lanes

/-- The lanes at the end of a block. -/
def scramble (lanes : Array UInt64) : Array UInt64 :=
  lanes.mapIdx fun k (lane : UInt64) =>
    (lane ^^^ lane >>> 47 ^^^ word64 secret (128 + 8 * k)) * prime32A

/-- The lanes after `count` strips of 64 bytes from `i` on. -/
def accumulateStrips (b : ByteArray) (lanes : Array UInt64) (i count : Nat) : Array UInt64 :=
  (List.range count).foldl (fun lanes k => accumulate b lanes (i + 64 * k) (8 * k)) lanes

/-- One word of the digest from the lanes. -/
def merge (lanes : Array UInt64) (s : Nat) (start : UInt64) : UInt64 :=
  finish <| (List.range 4).foldl
    (fun h k =>
      h + fold (lanes.getD (2 * k) 0 ^^^ word64 secret (s + 16 * k))
        (lanes.getD (2 * k + 1) 0 ^^^ word64 secret (s + 16 * k + 8)))
    start

/-- The digest of more than 240 bytes: blocks of sixteen strips, then the strips that remain, and
    the last 64 bytes once more. -/
def digestHuge (b : ByteArray) : UInt64 × UInt64 :=
  let n := b.size
  let blocks := (n - 1) / 1024
  let lanes := (List.range blocks).foldl
    (fun lanes k => scramble (accumulateStrips b lanes (1024 * k) 16)) initialLanes
  let lanes := accumulateStrips b lanes (1024 * blocks) ((n - 1 - 1024 * blocks) / 64)
  let lanes := accumulate b lanes (n - 64) 121
  (merge lanes 117 (~~~(UInt64.ofNat n * prime64B)), merge lanes 11 (UInt64.ofNat n * prime64A))

/-! ### All lengths -/

/-- The digest of a string of bytes: the high word and the low word. -/
def digest (b : ByteArray) : UInt64 × UInt64 :=
  if b.size = 0 then digestEmpty
  else if b.size ≤ 3 then digestTiny b
  else if b.size ≤ 8 then digestShort b
  else if b.size ≤ 16 then digestMedium b
  else if b.size ≤ 128 then digestLong b
  else if b.size ≤ 240 then digestLonger b
  else digestHuge b

/-- A word as sixteen lower-case hexadecimal digits. -/
def hexWord (w : UInt64) : List Char :=
  let digits := Nat.toDigits 16 w.toNat
  List.replicate (16 - digits.length) '0' ++ digits

/-- The digest of a list of bytes as 32 hexadecimal digits. -/
def hex (bytes : List UInt8) : String :=
  let (high, low) := digest ⟨bytes.toArray⟩
  String.ofList (hexWord high ++ hexWord low)

end XXH3

end MaterialNet
