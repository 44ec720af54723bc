import Abixio.Lib.Buffer

/-!
# xxHash64

The hash function XXH64 with seed 0, on byte lists. Input is taken in stripes of four 64-bit lanes, then
in words of 8 and 4 bytes, then byte by byte.
-/

namespace Abixio.Lib

namespace XxHash

def prime1 : UInt64 := 0x9E3779B185EBCA87
def prime2 : UInt64 := 0xC2B2AE3D27D4EB4F
def prime3 : UInt64 := 0x165667B19E3779F9
def prime4 : UInt64 := 0x85EBCA77C2B2AE63
def prime5 : UInt64 := 0x27D4EB2F165667C5

def rotl (x : UInt64) (r : UInt64) : UInt64 := (x <<< r) ||| (x >>> (64 - r))

/-- The little-endian word at an offset. -/
def word (bs : List UInt8) (off w : Nat) : UInt64 := UInt64.ofNat (leField bs off w)

/-- One lane of a stripe. -/
def round (acc lane : UInt64) : UInt64 := rotl (acc + lane * prime2) 31 * prime1

def mergeRound (h acc : UInt64) : UInt64 := (h ^^^ round 0 acc) * prime1 + prime4

/-- The four accumulators after `n` stripes. -/
def stripes : Nat → List UInt8 → UInt64 × UInt64 × UInt64 × UInt64 → UInt64 × UInt64 × UInt64 × UInt64
  | 0, _, acc => acc
  | n + 1, bs, (a, b, c, d) =>
    stripes n (bs.drop 32)
      (round a (word bs 0 8), round b (word bs 8 8), round c (word bs 16 8), round d (word bs 24 8))

/-- The last bytes, fewer than four. -/
def finishBytes (h : UInt64) (bs : List UInt8) : UInt64 :=
  bs.foldl (fun h b => rotl (h ^^^ UInt64.ofNat b.toNat * prime5) 11 * prime1) h

/-- The last words, fewer than four of 8 bytes and at most one of 4. -/
def finishWords : Nat → UInt64 → List UInt8 → UInt64
  | 0, h, bs =>
    if 4 ≤ bs.length then
      finishBytes (rotl (h ^^^ word bs 0 4 * prime1) 23 * prime2 + prime3) (bs.drop 4)
    else finishBytes h bs
  | n + 1, h, bs => finishWords n (rotl (h ^^^ round 0 (word bs 0 8)) 27 * prime1 + prime4) (bs.drop 8)

def avalanche (h : UInt64) : UInt64 :=
  let h := (h ^^^ (h >>> 33)) * prime2
  let h := (h ^^^ (h >>> 29)) * prime3
  h ^^^ (h >>> 32)

/-- What the stripes contribute. -/
def start (bs : List UInt8) : UInt64 :=
  if bs.length < 32 then prime5
  else
    let (a, b, c, d) := stripes (bs.length / 32) bs (prime1 + prime2, prime2, 0, 0 - prime1)
    mergeRound (mergeRound (mergeRound (mergeRound
      (rotl a 1 + rotl b 7 + rotl c 12 + rotl d 18) a) b) c) d

end XxHash

open XxHash in
/-- XXH64 with seed 0. -/
def xxh64 (bs : List UInt8) : UInt64 :=
  let rest := bs.drop (bs.length / 32 * 32)
  avalanche (finishWords (rest.length / 8) (start bs + UInt64.ofNat bs.length) rest)

-- a text of one stripe and a tail
example : xxh64 "Nobody inspects the spammish repetition".toUTF8.data.toList = 0xFBCEA83C8A378BF1 := by
  decide +kernel

end Abixio.Lib
