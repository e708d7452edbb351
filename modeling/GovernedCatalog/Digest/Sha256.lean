/-!
# SHA-256

The digest function of FIPS 180-4 over lists of bytes.
-/

namespace GovernedCatalog.Sha256

/-- The first 32 bits of the fractional parts of the cube roots of the first
64 primes. -/
def roundConstants : List UInt32 :=
  [0x428a2f98, 0x71374491, 0xb5c0fbcf, 0xe9b5dba5, 0x3956c25b, 0x59f111f1,
   0x923f82a4, 0xab1c5ed5, 0xd807aa98, 0x12835b01, 0x243185be, 0x550c7dc3,
   0x72be5d74, 0x80deb1fe, 0x9bdc06a7, 0xc19bf174, 0xe49b69c1, 0xefbe4786,
   0x0fc19dc6, 0x240ca1cc, 0x2de92c6f, 0x4a7484aa, 0x5cb0a9dc, 0x76f988da,
   0x983e5152, 0xa831c66d, 0xb00327c8, 0xbf597fc7, 0xc6e00bf3, 0xd5a79147,
   0x06ca6351, 0x14292967, 0x27b70a85, 0x2e1b2138, 0x4d2c6dfc, 0x53380d13,
   0x650a7354, 0x766a0abb, 0x81c2c92e, 0x92722c85, 0xa2bfe8a1, 0xa81a664b,
   0xc24b8b70, 0xc76c51a3, 0xd192e819, 0xd6990624, 0xf40e3585, 0x106aa070,
   0x19a4c116, 0x1e376c08, 0x2748774c, 0x34b0bcb5, 0x391c0cb3, 0x4ed8aa4a,
   0x5b9cca4f, 0x682e6ff3, 0x748f82ee, 0x78a5636f, 0x84c87814, 0x8cc70208,
   0x90befffa, 0xa4506ceb, 0xbef9a3f7, 0xc67178f2]

/-- The eight working words. -/
structure Words where
  a : UInt32
  b : UInt32
  c : UInt32
  d : UInt32
  e : UInt32
  f : UInt32
  g : UInt32
  h : UInt32

/-- The first 32 bits of the fractional parts of the square roots of the first
eight primes. -/
def initial : Words :=
  ⟨0x6a09e667, 0xbb67ae85, 0x3c6ef372, 0xa54ff53a,
   0x510e527f, 0x9b05688c, 0x1f83d9ab, 0x5be0cd19⟩

def rotateRight (x : UInt32) (n : UInt32) : UInt32 :=
  (x >>> n) ||| (x <<< (32 - n))

def round (w : Words) (constant word : UInt32) : Words :=
  let sum1 := rotateRight w.e 6 ^^^ rotateRight w.e 11 ^^^ rotateRight w.e 25
  let choice := (w.e &&& w.f) ^^^ ((~~~ w.e) &&& w.g)
  let t1 := w.h + sum1 + choice + constant + word
  let sum0 := rotateRight w.a 2 ^^^ rotateRight w.a 13 ^^^ rotateRight w.a 22
  let majority := (w.a &&& w.b) ^^^ (w.a &&& w.c) ^^^ (w.b &&& w.c)
  ⟨t1 + (sum0 + majority), w.a, w.b, w.c, w.d + t1, w.e, w.f, w.g⟩

/-- The next word of the message schedule from the sixteen latest ones. -/
def nextWord (latest : Array UInt32) : UInt32 :=
  let small0 (x : UInt32) := rotateRight x 7 ^^^ rotateRight x 18 ^^^ (x >>> 3)
  let small1 (x : UInt32) :=
    rotateRight x 17 ^^^ rotateRight x 19 ^^^ (x >>> 10)
  let n := latest.size
  let back (k : Nat) := latest.getD (n - k) 0
  small1 (back 2) + back 7 + small0 (back 15) + back 16

/-- The 64 words of the message schedule of a block of sixteen words. -/
def schedule (block : List UInt32) : List UInt32 :=
  ((List.range 48).foldl (fun ws _ => ws.push (nextWord ws))
    block.toArray).toList

def compress (w : Words) (block : List UInt32) : Words :=
  let v := (roundConstants.zip (schedule block)).foldl
    (fun w' step => round w' step.1 step.2) w
  ⟨w.a + v.a, w.b + v.b, w.c + v.c, w.d + v.d,
   w.e + v.e, w.f + v.f, w.g + v.g, w.h + v.h⟩

/-- The `count` bytes of a number, most significant first. -/
def bigEndian (count : Nat) (n : Nat) : List UInt8 :=
  (List.range count).reverse.map fun i => UInt8.ofNat (n / Nat.pow 256 i)

/-- The message followed by a one bit, zero bits, and its length in bits, up
to a multiple of 64 bytes. -/
def pad (message : List UInt8) : List UInt8 :=
  let zeros := (119 - message.length % 64) % 64
  message ++ 0x80 :: List.replicate zeros 0 ++ bigEndian 8 (8 * message.length)

/-- Groups bytes into words of four. -/
def toWords : List UInt8 → List UInt32
  | a :: b :: c :: d :: rest =>
      (a.toUInt32 <<< 24 ||| b.toUInt32 <<< 16 ||| c.toUInt32 <<< 8 |||
        d.toUInt32) :: toWords rest
  | _ => []

/-- Runs over the blocks of a padded message. -/
def absorb (w : Words) : Nat → List UInt32 → Words
  | 0, _ => w
  | blocks + 1, ws => absorb (compress w (ws.take 16)) blocks (ws.drop 16)

def digest (message : List UInt8) : List UInt8 :=
  let words := toWords (pad message)
  let w := absorb initial (words.length / 16) words
  [w.a, w.b, w.c, w.d, w.e, w.f, w.g, w.h].flatMap fun x =>
    bigEndian 4 x.toNat

/-- Two lower-case digits in base sixteen. -/
def hexByte (b : UInt8) : List Char :=
  [Nat.digitChar (b.toNat / 16), Nat.digitChar (b.toNat % 16)]

/-- The digest in base sixteen, 64 characters. -/
def hexDigest (message : List UInt8) : List Char :=
  (digest message).flatMap hexByte

end GovernedCatalog.Sha256
