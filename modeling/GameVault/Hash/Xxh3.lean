
namespace GameVault

namespace Xxh3

/-- The default secret: 192 bytes. -/
def secret : Array UInt8 := #[
  0xb8, 0xfe, 0x6c, 0x39, 0x23, 0xa4, 0x4b, 0xbe, 0x7c, 0x01, 0x81, 0x2c, 0xf7, 0x21, 0xad, 0x1c,
  0xde, 0xd4, 0x6d, 0xe9, 0x83, 0x90, 0x97, 0xdb, 0x72, 0x40, 0xa4, 0xa4, 0xb7, 0xb3, 0x67, 0x1f,
  0xcb, 0x79, 0xe6, 0x4e, 0xcc, 0xc0, 0xe5, 0x78, 0x82, 0x5a, 0xd0, 0x7d, 0xcc, 0xff, 0x72, 0x21,
  0xb8, 0x08, 0x46, 0x74, 0xf7, 0x43, 0x24, 0x8e, 0xe0, 0x35, 0x90, 0xe6, 0x81, 0x3a, 0x26, 0x4c,
  0x3c, 0x28, 0x52, 0xbb, 0x91, 0xc3, 0x00, 0xcb, 0x88, 0xd0, 0x65, 0x8b, 0x1b, 0x53, 0x2e, 0xa3,
  0x71, 0x64, 0x48, 0x97, 0xa2, 0x0d, 0xf9, 0x4e, 0x38, 0x19, 0xef, 0x46, 0xa9, 0xde, 0xac, 0xd8,
  0xa8, 0xfa, 0x76, 0x3f, 0xe3, 0x9c, 0x34, 0x3f, 0xf9, 0xdc, 0xbb, 0xc7, 0xc7, 0x0b, 0x4f, 0x1d,
  0x8a, 0x51, 0xe0, 0x4b, 0xcd, 0xb4, 0x59, 0x31, 0xc8, 0x9f, 0x7e, 0xc9, 0xd9, 0x78, 0x73, 0x64,
  0xea, 0xc5, 0xac, 0x83, 0x34, 0xd3, 0xeb, 0xc3, 0xc5, 0x81, 0xa0, 0xff, 0xfa, 0x13, 0x63, 0xeb,
  0x17, 0x0d, 0xdd, 0x51, 0xb7, 0xf0, 0xda, 0x49, 0xd3, 0x16, 0x55, 0x26, 0x29, 0xd4, 0x68, 0x9e,
  0x2b, 0x16, 0xbe, 0x58, 0x7d, 0x47, 0xa1, 0xfc, 0x8f, 0xf8, 0xb8, 0xd1, 0x7a, 0xd0, 0x31, 0xce,
  0x45, 0xcb, 0x3a, 0x8f, 0x95, 0x16, 0x04, 0x28, 0xaf, 0xd7, 0xfb, 0xca, 0xbb, 0x4b, 0x40, 0x7e]

def prime32a : UInt64 := 0x9E3779B1
def prime32b : UInt64 := 0x85EBCA77
def prime32c : UInt64 := 0xC2B2AE3D
def prime64a : UInt64 := 0x9E3779B185EBCA87
def prime64b : UInt64 := 0xC2B2AE3D27D4EB4F
def prime64c : UInt64 := 0x165667B19E3779F9
def prime64d : UInt64 := 0x85EBCA77C2B2AE63
def prime64e : UInt64 := 0x27D4EB2F165667C5
def primeMx1 : UInt64 := 0x165667919E3779F9
def primeMx2 : UInt64 := 0x9FB21C651E98DF25

def readLE (bs : Array UInt8) (i n : Nat) : UInt64 :=
  (List.range n).foldr (fun k acc => (acc <<< 8) ||| (bs.getD (i + k) 0).toUInt64) 0

def read64 (bs : Array UInt8) (i : Nat) : UInt64 := readLE bs i 8

def read32 (bs : Array UInt8) (i : Nat) : UInt64 := readLE bs i 4

def low32 (x : UInt64) : UInt64 := x &&& (0xFFFFFFFF : UInt64)

/-- The whole 128-bit product of two words, as (low, high). -/
def mul128 (a b : UInt64) : UInt64 × UInt64 :=
  let p := a.toNat * b.toNat
  (p.toUInt64, (p >>> 64).toUInt64)

/-- The 128-bit product folded to 64 bits: low half xor high half. -/
def mulFold (a b : UInt64) : UInt64 :=
  let (lo, hi) := mul128 a b
  lo ^^^ hi

def byteSwap (x : UInt64) : UInt64 :=
  (List.range 8).foldl (fun acc k => (acc <<< 8) ||| ((x >>> (8 * k).toUInt64) &&& 0xFF)) 0

def xorshift (h : UInt64) (s : UInt64) : UInt64 := h ^^^ (h >>> s)

def rotl64 (x : UInt64) (r : UInt64) : UInt64 := (x <<< r) ||| (x >>> (64 - r))

/-- Final mix of the 64-bit hash. -/
def avalanche64 (h : UInt64) : UInt64 :=
  let h := xorshift h 33 * prime64b
  let h := xorshift h 29 * prime64c
  xorshift h 32

def avalanche (h : UInt64) : UInt64 := xorshift (xorshift h 37 * primeMx1) 32

/-- Sixteen bytes of input mixed with sixteen of secret. -/
def mix16 (input : Array UInt8) (i : Nat) (s : Nat) : UInt64 :=
  mulFold (read64 input i ^^^ read64 secret s) (read64 input (i + 8) ^^^ read64 secret (s + 8))

/-- Two sixteen-byte pieces into the pair of accumulators. -/
def mix32 (acc : UInt64 × UInt64) (input : Array UInt8) (i1 i2 s : Nat) : UInt64 × UInt64 :=
  let lo := (acc.1 + mix16 input i1 s) ^^^ (read64 input i2 + read64 input (i2 + 8))
  let hi := (acc.2 + mix16 input i2 (s + 16)) ^^^ (read64 input i1 + read64 input (i1 + 8))
  (lo, hi)

/-- The 128-bit result as one number, high half first. -/
def join (lo hi : UInt64) : Nat := hi.toNat * Nat.pow 2 64 + lo.toNat

/-- Inputs of 1 to 3 bytes. -/
def hash1to3 (input : Array UInt8) (len : Nat) : Nat :=
  let c1 := (input.getD 0 0).toUInt32
  let c2 := (input.getD (len / 2) 0).toUInt32
  let c3 := (input.getD (len - 1) 0).toUInt32
  let combinedl : UInt32 := (c1 <<< 16) ||| (c2 <<< 24) ||| c3 ||| (len.toUInt32 <<< 8)
  let byteMask : UInt32 := 0xFF
  let swapped : UInt32 := ((combinedl &&& byteMask) <<< 24) |||
    ((combinedl &&& (byteMask <<< 8)) <<< 8) ||| ((combinedl >>> 8) &&& (byteMask <<< 8)) |||
    (combinedl >>> 24)
  let combinedh : UInt32 := (swapped <<< 13) ||| (swapped >>> 19)
  let bitflipl := read32 secret 0 ^^^ read32 secret 4
  let bitfliph := read32 secret 8 ^^^ read32 secret 12
  join (avalanche64 (combinedl.toUInt64 ^^^ bitflipl)) (avalanche64 (combinedh.toUInt64 ^^^ bitfliph))

/-- Inputs of 4 to 8 bytes. -/
def hash4to8 (input : Array UInt8) (len : Nat) : Nat :=
  let inputLo := read32 input 0
  let inputHi := read32 input (len - 4)
  let input64 := inputLo + (inputHi <<< 32)
  let bitflip := read64 secret 16 ^^^ read64 secret 24
  let keyed := input64 ^^^ bitflip
  let (lo, hi) := mul128 keyed (prime64a + (len.toUInt64 <<< 2))
  let hi := hi + (lo <<< 1)
  let lo := lo ^^^ (hi >>> 3)
  let lo := xorshift lo 35 * primeMx2
  let lo := xorshift lo 28
  join lo (avalanche hi)

/-- Inputs of 9 to 16 bytes. -/
def hash9to16 (input : Array UInt8) (len : Nat) : Nat :=
  let bitflipl := read64 secret 32 ^^^ read64 secret 40
  let bitfliph := read64 secret 48 ^^^ read64 secret 56
  let inputLo := read64 input 0
  let inputHi := read64 input (len - 8)
  let (mlo, mhi) := mul128 (inputLo ^^^ inputHi ^^^ bitflipl) prime64a
  let mlo := mlo + ((len - 1).toUInt64 <<< 54)
  let inputHi := inputHi ^^^ bitfliph
  let mhi := mhi + inputHi + low32 inputHi * (prime32b - 1)
  let mlo := mlo ^^^ byteSwap mhi
  let (hlo, hhi) := mul128 mlo prime64b
  let hhi := hhi + mhi * prime64b
  join (avalanche hlo) (avalanche hhi)

/-- The common ending of the mid-size paths. -/
def finishMid (acc : UInt64 × UInt64) (len : Nat) : Nat :=
  let lo := acc.1 + acc.2
  let hi := acc.1 * prime64a + acc.2 * prime64d + len.toUInt64 * prime64b
  join (avalanche lo) (0 - avalanche hi)

/-- Inputs of 17 to 128 bytes. -/
def hash17to128 (input : Array UInt8) (len : Nat) : Nat :=
  let acc : UInt64 × UInt64 := (len.toUInt64 * prime64a, 0)
  let acc := if len > 96 then mix32 acc input 48 (len - 64) 96 else acc
  let acc := if len > 64 then mix32 acc input 32 (len - 48) 64 else acc
  let acc := if len > 32 then mix32 acc input 16 (len - 32) 32 else acc
  let acc := mix32 acc input 0 (len - 16) 0
  finishMid acc len

/-- Inputs of 129 to 240 bytes. -/
def hash129to240 (input : Array UInt8) (len : Nat) : Nat :=
  let acc0 : UInt64 × UInt64 := (len.toUInt64 * prime64a, 0)
  let acc := (List.range 4).foldl (fun acc i => mix32 acc input (32 * i) (32 * i + 16) (32 * i)) acc0
  let acc := (avalanche acc.1, avalanche acc.2)
  let rounds := len / 32
  let acc := ((List.range rounds).drop 4).foldl
    (fun acc i => mix32 acc input (32 * i) (32 * i + 16) (3 + 32 * (i - 4))) acc
  let acc := mix32 acc input (len - 16) (len - 32) (136 - 17 - 16)
  finishMid acc len

/-- One 64-byte stripe into the accumulators, with the secret at `s`. -/
def accumulateStripe (acc : Array UInt64) (input : Array UInt8) (i s : Nat) : Array UInt64 :=
  (List.range 8).foldl (fun acc k =>
    let dataVal := read64 input (i + 8 * k)
    let dataKey := dataVal ^^^ read64 secret (s + 8 * k)
    let acc := acc.modify (k ^^^ 1) (· + dataVal)
    acc.modify k (· + low32 dataKey * (dataKey >>> 32))) acc

/-- Stripes `0` to `n - 1` from `i`, the secret advancing eight bytes a stripe. -/
def accumulate (acc : Array UInt64) (input : Array UInt8) (i n : Nat) : Array UInt64 :=
  (List.range n).foldl (fun acc k => accumulateStripe acc input (i + 64 * k) (8 * k)) acc

/-- Scrambles the accumulators with the last 64 bytes of the secret. -/
def scramble (acc : Array UInt64) : Array UInt64 :=
  (List.range 8).foldl (fun acc k =>
    acc.modify k fun a => (xorshift a 47 ^^^ read64 secret (128 + 8 * k)) * prime32a) acc

/-- Folds the accumulators into one word, with the secret at `s`. -/
def mergeAccs (acc : Array UInt64) (s : Nat) (start : UInt64) : UInt64 :=
  avalanche ((List.range 4).foldl (fun r k =>
    r + mulFold (acc.getD (2 * k) 0 ^^^ read64 secret (s + 16 * k))
      (acc.getD (2 * k + 1) 0 ^^^ read64 secret (s + 16 * k + 8))) start)

/-- Inputs of more than 240 bytes. -/
def hashLong (input : Array UInt8) (len : Nat) : Nat :=
  let acc0 : Array UInt64 := #[prime32c, prime64a, prime64b, prime64c, prime64d, prime32b, prime64e,
    prime32a]
  let blockLen := 1024
  let blocks := (len - 1) / blockLen
  let acc := (List.range blocks).foldl (fun acc n =>
    scramble (accumulate acc input (n * blockLen) 16)) acc0
  let stripes := ((len - 1) - blockLen * blocks) / 64
  let acc := accumulate acc input (blocks * blockLen) stripes
  let acc := accumulateStripe acc input (len - 64) (192 - 64 - 7)
  let lo := mergeAccs acc 11 (len.toUInt64 * prime64a)
  let hi := mergeAccs acc (192 - 64 - 11) (~~~(len.toUInt64 * prime64b))
  join lo hi

/-- The 128-bit XXH3 hash of bytes, with seed zero and the default secret. -/
def hash128 (bytes : List UInt8) : Nat :=
  let input := bytes.toArray
  let len := bytes.length
  if len = 0 then
    join (avalanche64 (read64 secret 64 ^^^ read64 secret 72))
      (avalanche64 (read64 secret 80 ^^^ read64 secret 88))
  else if len ≤ 3 then hash1to3 input len
  else if len ≤ 8 then hash4to8 input len
  else if len ≤ 16 then hash9to16 input len
  else if len ≤ 128 then hash17to128 input len
  else if len ≤ 240 then hash129to240 input len
  else hashLong input len

end Xxh3

end GameVault
