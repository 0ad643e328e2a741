/-
# The XXH3 digest of 128 bits

`xxh3` is the digest of a sequence of bytes for seed zero and the standard secret.  Short inputs
(up to 16 bytes), medium ones (up to 128 and up to 240) and long ones each have a scheme of their
own; all of them mix words of the input with words of the secret by wide multiplications.
-/

namespace TextPatch.Digest

/-! ## 1. Words -/

/-- The byte at an index, zero beyond the end. -/
def byteAt (b : ByteArray) (i : Nat) : UInt8 := if h : i < b.size then b[i] else 0

/-- The 32-bit word that starts at an index, its lowest byte first. -/
def word32 (b : ByteArray) (i : Nat) : UInt32 :=
  (byteAt b i).toUInt32 ||| ((byteAt b (i + 1)).toUInt32 <<< 8) |||
    ((byteAt b (i + 2)).toUInt32 <<< 16) ||| ((byteAt b (i + 3)).toUInt32 <<< 24)

/-- The 64-bit word that starts at an index, its lowest byte first. -/
def word64 (b : ByteArray) (i : Nat) : UInt64 :=
  (word32 b i).toUInt64 ||| ((word32 b (i + 4)).toUInt64 <<< 32)

/-- A 32-bit word with its bytes reversed. -/
def reverse32 (x : UInt32) : UInt32 :=
  (x >>> 24) ||| ((x >>> 8) &&& (0xFF00 : UInt32)) ||| ((x <<< 8) &&& (0xFF0000 : UInt32)) |||
    (x <<< 24)

/-- A 64-bit word with its bytes reversed. -/
def reverse64 (x : UInt64) : UInt64 :=
  ((reverse32 x.toUInt32).toUInt64 <<< 32) ||| (reverse32 (x >>> 32).toUInt32).toUInt64

/-- A word with its bits turned round to the left. -/
def rotateLeft32 (x : UInt32) (n : UInt32) : UInt32 := (x <<< n) ||| (x >>> (32 - n))

/-- Two halves of 128 bits. -/
structure Wide where
  low : UInt64
  high : UInt64
  deriving Inhabited

/-- The product of two words in full. -/
def wideMul (a b : UInt64) : Wide :=
  let n := a.toNat * b.toNat
  ⟨n.toUInt64, (n / UInt64.size).toUInt64⟩

/-- The two halves of the product of two words, laid over each other. -/
def foldMul (a b : UInt64) : UInt64 :=
  let w := wideMul a b
  w.low ^^^ w.high

/-! ## 2. Constants -/

def prime32a : UInt64 := 0x9E3779B1
def prime32b : UInt64 := 0x85EBCA77
def prime32c : UInt64 := 0xC2B2AE3D
def prime64a : UInt64 := 0x9E3779B185EBCA87
def prime64b : UInt64 := 0xC2B2AE3D27D4EB4F
def prime64c : UInt64 := 0x165667B19E3779F9
def prime64d : UInt64 := 0x85EBCA77C2B2AE63
def prime64e : UInt64 := 0x27D4EB2F165667C5

/-- The standard secret of 192 bytes. -/
def secret : ByteArray := ⟨#[
  0xb8, 0xfe, 0x6c, 0x39, 0x23, 0xa4, 0x4b, 0xbe, 0x7c, 0x01, 0x81, 0x2c, 0xf7, 0x21, 0xad, 0x1c,
  0xde, 0xd4, 0x6d, 0xe9, 0x83, 0x90, 0x97, 0xdb, 0x72, 0x40, 0xa4, 0xa4, 0xb7, 0xb3, 0x67, 0x1f,
  0xcb, 0x79, 0xe6, 0x4e, 0xcc, 0xc0, 0xe5, 0x78, 0x82, 0x5a, 0xd0, 0x7d, 0xcc, 0xff, 0x72, 0x21,
  0xb8, 0x08, 0x46, 0x74, 0xf7, 0x43, 0x24, 0x8e, 0xe0, 0x35, 0x90, 0xe6, 0x81, 0x3a, 0x26, 0x4c,
  0x3c, 0x28, 0x52, 0xbb, 0x91, 0xc3, 0x00, 0xcb, 0x88, 0xd0, 0x65, 0x8b, 0x1b, 0x53, 0x2e, 0xa3,
  0x71, 0x64, 0x48, 0x97, 0xa2, 0x0d, 0xf9, 0x4e, 0x38, 0x19, 0xef, 0x46, 0xa9, 0xde, 0xac, 0xd8,
  0xa8, 0xfa, 0x76, 0x3f, 0xe3, 0x9c, 0x34, 0x3f, 0xf9, 0xdc, 0xbb, 0xc7, 0xc7, 0x0b, 0x4f, 0x1d,
  0x8a, 0x51, 0xe0, 0x4b, 0xcd, 0xb4, 0x59, 0x31, 0xc8, 0x9f, 0x7e, 0xc9, 0xd9, 0x78, 0x73, 0x64,
  0xea, 0xc5, 0xac, 0x83, 0x34, 0xd3, 0xeb, 0xc3, 0xc5, 0x81, 0xa0, 0xff, 0xfa, 0x13, 0x63, 0xeb,
  0x17, 0x0d, 0xdd, 0x51, 0xb7, 0xf0, 0xda, 0x49, 0xd3, 0x16, 0x55, 0x26, 0x29, 0xd4, 0x68, 0x9e,
  0x2b, 0x16, 0xbe, 0x58, 0x7d, 0x47, 0xa1, 0xfc, 0x8f, 0xf8, 0xb8, 0xd1, 0x7a, 0xd0, 0x31, 0xce,
  0x45, 0xcb, 0x3a, 0x8f, 0x95, 0x16, 0x04, 0x28, 0xaf, 0xd7, 0xfb, 0xca, 0xbb, 0x4b, 0x40, 0x7e]⟩

/-- The final mixing of words that come from wide products. -/
def settle (h : UInt64) : UInt64 :=
  let h := (h ^^^ (h >>> 37)) * 0x165667919E3779F9
  h ^^^ (h >>> 32)

/-- The final mixing of words that have not been multiplied yet. -/
def settleShort (h : UInt64) : UInt64 :=
  let h := (h ^^^ (h >>> 33)) * prime64b
  let h := (h ^^^ (h >>> 29)) * prime64c
  h ^^^ (h >>> 32)

/-! ## 3. Short inputs -/

/-- No bytes. -/
def ofNothing : Wide :=
  ⟨settleShort (word64 secret 64 ^^^ word64 secret 72),
    settleShort (word64 secret 80 ^^^ word64 secret 88)⟩

/-- One to three bytes. -/
def ofFew (b : ByteArray) : Wide :=
  let n := b.size
  let low : UInt32 := ((byteAt b 0).toUInt32 <<< 16) ||| ((byteAt b (n / 2)).toUInt32 <<< 24) |||
    (byteAt b (n - 1)).toUInt32 ||| (n.toUInt32 <<< 8)
  let high := rotateLeft32 (reverse32 low) 13
  ⟨settleShort (low.toUInt64 ^^^ (word32 secret 0 ^^^ word32 secret 4).toUInt64),
    settleShort (high.toUInt64 ^^^ (word32 secret 8 ^^^ word32 secret 12).toUInt64)⟩

/-- Four to eight bytes. -/
def ofEight (b : ByteArray) : Wide :=
  let n := b.size
  let both := (word32 b 0).toUInt64 + ((word32 b (n - 4)).toUInt64 <<< 32)
  let keyed := both ^^^ (word64 secret 16 ^^^ word64 secret 24)
  let w := wideMul keyed (prime64a + (n.toUInt64 <<< 2))
  let high := w.high + (w.low <<< 1)
  let low := w.low ^^^ (high >>> 3)
  let low := (low ^^^ (low >>> 35)) * 0x9FB21C651E98DF25
  ⟨low ^^^ (low >>> 28), settle high⟩

/-- Nine to sixteen bytes. -/
def ofSixteen (b : ByteArray) : Wide :=
  let n := b.size
  let first := word64 b 0
  let last := word64 b (n - 8)
  let w := wideMul (first ^^^ last ^^^ (word64 secret 32 ^^^ word64 secret 40)) prime64a
  let low := w.low + ((n - 1).toUInt64 <<< 54)
  let last := last ^^^ (word64 secret 48 ^^^ word64 secret 56)
  let high := w.high + last + last.toUInt32.toUInt64 * (prime32b - 1)
  let low := low ^^^ reverse64 high
  let v := wideMul low prime64b
  ⟨settle v.low, settle (v.high + high * prime64b)⟩

/-! ## 4. Medium inputs -/

/-- Sixteen bytes of the input mixed with sixteen of the secret. -/
def mix16 (b : ByteArray) (i s : Nat) : UInt64 :=
  foldMul (word64 b i ^^^ word64 secret s) (word64 b (i + 8) ^^^ word64 secret (s + 8))

/-- Two pieces of sixteen bytes, at `i` and `j`, mixed with the secret at `s`. -/
def mix32 (b : ByteArray) (acc : Wide) (i j s : Nat) : Wide :=
  ⟨(acc.low + mix16 b i s) ^^^ (word64 b j + word64 b (j + 8)),
    (acc.high + mix16 b j (s + 16)) ^^^ (word64 b i + word64 b (i + 8))⟩

/-- What the two halves of a medium input come to. -/
def finish (n : Nat) (acc : Wide) : Wide :=
  ⟨settle (acc.low + acc.high),
    0 - settle (acc.low * prime64a + acc.high * prime64d + n.toUInt64 * prime64b)⟩

/-- 17 to 128 bytes: pieces from both ends towards the middle, the inner ones first. -/
def ofMedium (b : ByteArray) : Wide :=
  let n := b.size
  let rounds := [3, 2, 1].filter fun k => 32 * k < n
  let acc := rounds.foldl (fun acc k => mix32 b acc (16 * k) (n - 16 * (k + 1)) (32 * k))
    ⟨n.toUInt64 * prime64a, 0⟩
  finish n (mix32 b acc 0 (n - 16) 0)

/-- 129 to 240 bytes: pieces in order, settled after the fourth, and the end once more. -/
def ofLarger (b : ByteArray) : Wide :=
  let n := b.size
  let acc := (List.range 4).foldl (fun acc k => mix32 b acc (32 * k) (32 * k + 16) (32 * k))
    ⟨n.toUInt64 * prime64a, 0⟩
  let acc : Wide := ⟨settle acc.low, settle acc.high⟩
  let acc := (List.range (n / 32 - 4)).foldl
    (fun acc k => mix32 b acc (32 * (k + 4)) (32 * (k + 4) + 16) (3 + 32 * k)) acc
  finish n (mix32 b acc (n - 16) (n - 32) 103)

/-! ## 5. Long inputs -/

/-- The eight lanes of a long input. -/
abbrev Lanes := List UInt64

/-- The lanes at the start. -/
def freshLanes : Lanes :=
  [prime32c, prime64a, prime64b, prime64c, prime64d, prime32b, prime64e, prime32a]

/-- Adds 64 bytes of the input, at `i`, to the lanes; each word also goes to the neighbour of its
lane. -/
def absorb (b : ByteArray) (lanes : Lanes) (i s : Nat) : Lanes :=
  lanes.mapIdx fun (k : Nat) (lane : UInt64) =>
    let key := word64 b (i + 8 * k) ^^^ word64 secret (s + 8 * k)
    let partner := if k % 2 = 0 then k + 1 else k - 1
    lane + word64 b (i + 8 * partner) + key.toUInt32.toUInt64 * (key >>> 32)

/-- Stirs the lanes at the end of a block. -/
def stir (lanes : Lanes) : Lanes :=
  lanes.mapIdx fun (k : Nat) (lane : UInt64) =>
    ((lane ^^^ (lane >>> 47)) ^^^ word64 secret (128 + 8 * k)) * prime32a

/-- The stripe with some number: sixteen of them make a block. -/
def stripe (b : ByteArray) (lanes : Lanes) (n : Nat) : Lanes :=
  let lanes := absorb b lanes (64 * n) (8 * (n % 16))
  if n % 16 = 15 then stir lanes else lanes

/-- The lanes folded into one word, with the secret from `s` on. -/
def gather (s : Nat) (seed : UInt64) (lanes : Lanes) : UInt64 :=
  let rec go : Nat → UInt64 → Lanes → UInt64
    | k, acc, x :: y :: rest =>
      go (k + 1) (acc + foldMul (x ^^^ word64 secret (s + 16 * k))
        (y ^^^ word64 secret (s + 16 * k + 8))) rest
    | _, acc, _ => acc
  settle (go 0 seed lanes)

/-- More than 240 bytes: stripes of 64 bytes, and the last 64 bytes once more. -/
def ofLong (b : ByteArray) : Wide :=
  let n := b.size
  let lanes := (List.range ((n - 1) / 64)).foldl (stripe b) freshLanes
  let lanes := absorb b lanes (n - 64) 121
  ⟨gather 11 (n.toUInt64 * prime64a) lanes, gather 117 (~~~(n.toUInt64 * prime64b)) lanes⟩

/-! ## 6. The digest -/

/-- The digest of a sequence of bytes. -/
def wide (b : ByteArray) : Wide :=
  if b.size = 0 then ofNothing
  else if b.size ≤ 3 then ofFew b
  else if b.size ≤ 8 then ofEight b
  else if b.size ≤ 16 then ofSixteen b
  else if b.size ≤ 128 then ofMedium b
  else if b.size ≤ 240 then ofLarger b
  else ofLong b

/-- The digest as a number below `2 ^ 128`. -/
def xxh3 (b : ByteArray) : Nat :=
  let w := wide b
  w.high.toNat * UInt64.size + w.low.toNat

/-- A digest in 32 hexadecimal digits. -/
def hex (n : Nat) : String :=
  let ds := Nat.toDigits 16 n
  String.ofList (List.replicate (32 - ds.length) '0' ++ ds)

end TextPatch.Digest
