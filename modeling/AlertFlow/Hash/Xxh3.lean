import AlertFlow.Number.Word

/-!
The XXH3 hash of a byte string: 64 bits wide, seed zero, the standard 192-byte secret. Inputs are
treated in six length classes, each mixing the input with its own part of the secret; above 240
bytes the input runs through eight lanes in stripes of 64 bytes, scrambled once a block of 1024.
Every read is total: a byte past the end of its string is zero, and no length class reads one.
-/
namespace AlertFlow.Xxh3

/-- The secret that the input is mixed with. -/
def secret : ByteArray := ⟨#[
  0xb8, 0xfe, 0x6c, 0x39, 0x23, 0xa4, 0x4b, 0xbe, 0x7c, 0x01, 0x81, 0x2c, 0xf7, 0x21, 0xad, 0x1c,
  0xde, 0xd4, 0x6d, 0xe9, 0x83, 0x90, 0x97, 0xdb, 0x72, 0x40, 0xa4, 0xa4, 0xb7, 0xb3, 0x67, 0x1f,
  0xcb, 0x79, 0xe6, 0x4e, 0xcc, 0xc0, 0xe5, 0x78, 0x82, 0x5a, 0xd0, 0x7d, 0xcc, 0xff, 0x72, 0x21,
  0xb8, 0x08, 0x46, 0x74, 0xf7, 0x43, 0x24, 0x8e, 0xe0, 0x35, 0x90, 0xe6, 0x81, 0x3a, 0x26, 0x4c,
  0x3c, 0x28, 0x52, 0xbb, 0x91, 0xc3, 0x00, 0xcb, 0x88, 0xd0, 0x65, 0x8b, 0x1b, 0x53, 0x2e, 0xa3,
  0x71, 0x64, 0x48, 0x97, 0xa2, 0x0d, 0xf9, 0x4e, 0x38, 0x19, 0xef, 0x46, 0xa9, 0xde, 0xac, 0xd8,
  0xa8, 0xfa, 0x76, 0x3f, 0xe3, 0x9c, 0x34, 0x3f, 0xf9, 0xdc, 0xbb, 0xc7, 0xc7, 0x0b, 0x4f, 0x1d,
  0x8a, 0x51, 0xe0, 0x4b, 0xcd, 0xb4, 0x59, 0x31, 0xc8, 0x9f, 0x7e, 0xc9, 0xd9, 0x78, 0x73, 0x64,
  0xea, 0xc5, 0xac, 0x83, 0x34, 0xd3, 0xeb, 0xc3, 0xc5, 0x81, 0xa0, 0xff, 0xfa, 0x13, 0x63, 0xeb,
  0x17, 0x0d, 0xdd, 0x51, 0xb7, 0xf0, 0xda, 0x49, 0xd3, 0x16, 0x55, 0x26, 0x29, 0xd4, 0x68, 0x9e,
  0x2b, 0x16, 0xbe, 0x58, 0x7d, 0x47, 0xa1, 0xfc, 0x8f, 0xf8, 0xb8, 0xd1, 0x7a, 0xd0, 0x31, 0xce,
  0x45, 0xcb, 0x3a, 0x8f, 0x95, 0x16, 0x04, 0x28, 0xaf, 0xd7, 0xfb, 0xca, 0xbb, 0x4b, 0x40, 0x7e]⟩

def prime32a : UInt64 := 0x9E3779B1
def prime32b : UInt64 := 0x85EBCA77
def prime32c : UInt64 := 0xC2B2AE3D
def prime64a : UInt64 := 0x9E3779B185EBCA87
def prime64b : UInt64 := 0xC2B2AE3D27D4EB4F
def prime64c : UInt64 := 0x165667B19E3779F9
def prime64d : UInt64 := 0x85EBCA77C2B2AE63
def prime64e : UInt64 := 0x27D4EB2F165667C5

/-- The byte at a position; zero past the end. -/
def byteAt (bytes : ByteArray) (i : Nat) : UInt8 :=
  if h : i < bytes.size then bytes[i] else 0

/-- The little-endian number that `width` bytes from position `i` on spell. -/
def wordAt (width : Nat) (bytes : ByteArray) (i : Nat) : UInt64 :=
  (List.range width).foldr (fun k high => high <<< 8 ||| (byteAt bytes (i + k)).toUInt64) 0

def word32 (bytes : ByteArray) (i : Nat) : UInt64 := wordAt 4 bytes i

def word64 (bytes : ByteArray) (i : Nat) : UInt64 := wordAt 8 bytes i

def swapBytes (w : UInt64) : UInt64 :=
  (List.range 8).foldl (fun acc k => acc <<< 8 ||| (w >>> (8 * k).toUInt64 &&& 0xff)) 0

def rotateLeft (w : UInt64) (k : UInt64) : UInt64 := w <<< k ||| w >>> (64 - k)

/-- The two halves of the 128-bit product, combined by exclusive or. -/
def foldProduct (a b : UInt64) : UInt64 :=
  let product := a.toNat * b.toNat
  UInt64.ofNat product ^^^ UInt64.ofNat (product / wordLimit)

/-- The final mixing of inputs of at most three bytes. -/
def finishTiny (h : UInt64) : UInt64 :=
  let h := (h ^^^ h >>> 33) * prime64b
  let h := (h ^^^ h >>> 29) * prime64c
  h ^^^ h >>> 32

/-- The final mixing of inputs of nine bytes and more. -/
def finish (h : UInt64) : UInt64 :=
  let h := (h ^^^ h >>> 37) * 0x165667919E3779F9
  h ^^^ h >>> 32

/-- The final mixing of inputs of four to eight bytes. -/
def finishShort (h length : UInt64) : UInt64 :=
  let h := (h ^^^ rotateLeft h 49 ^^^ rotateLeft h 24) * 0x9FB21C651E98DF25
  let h := (h ^^^ (h >>> 35) + length) * 0x9FB21C651E98DF25
  h ^^^ h >>> 28

/-- Sixteen bytes of the input against sixteen of the secret. -/
def mix16 (input : ByteArray) (i s : Nat) : UInt64 :=
  foldProduct (word64 input i ^^^ word64 secret s) (word64 input (i + 8) ^^^ word64 secret (s + 8))

def digest1To3 (input : ByteArray) : UInt64 :=
  let n := input.size
  let first := (byteAt input 0).toUInt64
  let middle := (byteAt input (n / 2)).toUInt64
  let last := (byteAt input (n - 1)).toUInt64
  let word := first <<< 16 ||| middle <<< 24 ||| last ||| n.toUInt64 <<< 8
  finishTiny (word ^^^ (word32 secret 0 ^^^ word32 secret 4))

def digest4To8 (input : ByteArray) : UInt64 :=
  let n := input.size
  let word := word32 input (n - 4) + word32 input 0 <<< 32
  finishShort (word ^^^ (word64 secret 8 ^^^ word64 secret 16)) n.toUInt64

def digest9To16 (input : ByteArray) : UInt64 :=
  let n := input.size
  let low := word64 input 0 ^^^ (word64 secret 24 ^^^ word64 secret 32)
  let high := word64 input (n - 8) ^^^ (word64 secret 40 ^^^ word64 secret 48)
  finish (n.toUInt64 + swapBytes low + high + foldProduct low high)

/-- Pairs of sixteen bytes from both ends towards the middle. -/
def digest17To128 (input : ByteArray) : UInt64 :=
  let n := input.size
  finish <| (List.range ((n - 1) / 32 + 1)).foldl
    (fun acc i => acc + mix16 input (16 * i) (32 * i)
      + mix16 input (n - 16 * (i + 1)) (32 * i + 16))
    (n.toUInt64 * prime64a)

def digest129To240 (input : ByteArray) : UInt64 :=
  let n := input.size
  let opening := finish <| (List.range 8).foldl
    (fun acc i => acc + mix16 input (16 * i) (16 * i)) (n.toUInt64 * prime64a)
  let rest := (List.range (n / 16 - 8)).foldl
    (fun acc i => acc + mix16 input (16 * (i + 8)) (16 * i + 3)) opening
  finish (rest + mix16 input (n - 16) 119)

abbrev Lanes := Vector UInt64 8

def initialLanes : Lanes := #v[
  prime32c, prime64a, prime64b, prime64c, prime64d, prime32b, prime64e, prime32a]

/-- Takes in 64 bytes from position `i` against the secret from position `s`. -/
def absorb (input : ByteArray) (i s : Nat) (lanes : Lanes) : Lanes :=
  Vector.ofFn fun k =>
    let keyed := word64 input (i + 8 * k.val) ^^^ word64 secret (s + 8 * k.val)
    let partner := if k.val % 2 = 0 then k.val + 1 else k.val - 1
    let product := (keyed &&& (0xffffffff : UInt64)) * (keyed >>> 32)
    lanes[k.val] + word64 input (i + 8 * partner) + product

/-- Stirs the lanes at the end of a block. -/
def scramble (lanes : Lanes) : Lanes :=
  Vector.ofFn fun k =>
    let lane := lanes[k.val]
    (lane ^^^ lane >>> 47 ^^^ word64 secret (128 + 8 * k.val)) * prime32a

/-- Takes in `count` stripes from position `i` on. -/
def absorbStripes (input : ByteArray) (i count : Nat) (lanes : Lanes) : Lanes :=
  (List.range count).foldl (fun lanes j => absorb input (i + 64 * j) (8 * j) lanes) lanes

/-- Folds the lanes into one word. -/
def merge (lanes : Lanes) (start : UInt64) : UInt64 :=
  finish <| (List.range 4).foldl
    (fun acc i => acc + foldProduct (lanes.getD (2 * i) 0 ^^^ word64 secret (11 + 16 * i))
      (lanes.getD (2 * i + 1) 0 ^^^ word64 secret (11 + 16 * i + 8)))
    start

def digestLong (input : ByteArray) : UInt64 :=
  let n := input.size
  let blocks := (n - 1) / 1024
  let lanes := (List.range blocks).foldl
    (fun lanes b => scramble (absorbStripes input (1024 * b) 16 lanes)) initialLanes
  let lanes := absorbStripes input (1024 * blocks) ((n - 1 - 1024 * blocks) / 64) lanes
  merge (absorb input (n - 64) 121 lanes) (n.toUInt64 * prime64a)

def digest (input : ByteArray) : UInt64 :=
  let n := input.size
  if n = 0 then finishTiny (word64 secret 56 ^^^ word64 secret 64)
  else if n ≤ 3 then digest1To3 input
  else if n ≤ 8 then digest4To8 input
  else if n ≤ 16 then digest9To16 input
  else if n ≤ 128 then digest17To128 input
  else if n ≤ 240 then digest129To240 input
  else digestLong input

def hash (bytes : List UInt8) : UInt64 := digest ⟨bytes.toArray⟩

end AlertFlow.Xxh3
