/-!
# SHA-1

* `Sha1.padded`: a message padded to whole blocks of 64 bytes.
* `Sha1.compress`: the state after one block.
* `Sha1.digest`: the 20 bytes of a message's digest.
-/

namespace NilFlow

namespace Sha1

/-- The last `n` bytes of a number, most significant first. -/
def bigEndian (n : Nat) (x : Nat) : List UInt8 :=
  (List.range n).map fun i => (x >>> (8 * (n - 1 - i))).toUInt8

/-- A message padded to whole blocks: a one bit, zeros, and its length in bits. -/
def padded (message : List UInt8) : List UInt8 :=
  let zeros := (119 - message.length % 64) % 64
  message ++ 0x80 :: List.replicate zeros 0 ++ bigEndian 8 (8 * message.length)

def rotate (x : UInt32) (n : UInt32) : UInt32 := x <<< n ||| x >>> (32 - n)

/-- The word of four bytes, most significant first. -/
def word (bytes : List UInt8) : UInt32 := bytes.foldl (fun w b => w <<< 8 ||| b.toUInt32) 0

/-- The 80 words that a block is expanded to. -/
def schedule (block : List UInt8) : Array UInt32 :=
  let start := ((List.range 16).map fun i => word ((block.drop (4 * i)).take 4)).toArray
  (List.range 64).foldl
    (fun w i => w.push (rotate (w.getD (i + 13) 0 ^^^ w.getD (i + 8) 0 ^^^ w.getD (i + 2) 0 ^^^ w.getD i 0) 1)) start

/-- The five words of the running state. -/
structure State where
  a : UInt32
  b : UInt32
  c : UInt32
  d : UInt32
  e : UInt32

def State.initial : State := ⟨0x67452301, 0xefcdab89, 0x98badcfe, 0x10325476, 0xc3d2e1f0⟩

/-- Round `t` with one word of the schedule. -/
def round (s : State) (t : Nat) (w : UInt32) : State :=
  let (f, k) : UInt32 × UInt32 :=
    if t < 20 then ((s.b &&& s.c) ||| (~~~s.b &&& s.d), 0x5a827999)
    else if t < 40 then (s.b ^^^ s.c ^^^ s.d, 0x6ed9eba1)
    else if t < 60 then ((s.b &&& s.c) ||| (s.b &&& s.d) ||| (s.c &&& s.d), 0x8f1bbcdc)
    else (s.b ^^^ s.c ^^^ s.d, 0xca62c1d6)
  ⟨rotate s.a 5 + f + s.e + k + w, s.a, rotate s.b 30, s.c, s.d⟩

/-- The state after one block. -/
def compress (s : State) (block : List UInt8) : State :=
  let t := (schedule block).toList.zipIdx.foldl (fun s (w, i) => round s i w) s
  ⟨s.a + t.a, s.b + t.b, s.c + t.c, s.d + t.d, s.e + t.e⟩

def digest (message : List UInt8) : List UInt8 :=
  let bytes := padded message
  let s := (List.range (bytes.length / 64)).foldl (fun s i => compress s ((bytes.drop (64 * i)).take 64)) State.initial
  [s.a, s.b, s.c, s.d, s.e].flatMap fun w => bigEndian 4 w.toNat

end Sha1

end NilFlow
