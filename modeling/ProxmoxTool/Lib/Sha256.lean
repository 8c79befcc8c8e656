import ProxmoxTool.Lib.Utf8

/-!
# SHA-256

The digest of FIPS 180-4 over bytes, and its hexadecimal text, as `hashlib.sha256(...).hexdigest()` gives it.
-/

namespace ProxmoxTool.Sha256

abbrev Word := BitVec 32

def roundConstants : List Word := [
  0x428a2f98#32, 0x71374491#32, 0xb5c0fbcf#32, 0xe9b5dba5#32, 0x3956c25b#32, 0x59f111f1#32, 0x923f82a4#32, 0xab1c5ed5#32,
  0xd807aa98#32, 0x12835b01#32, 0x243185be#32, 0x550c7dc3#32, 0x72be5d74#32, 0x80deb1fe#32, 0x9bdc06a7#32, 0xc19bf174#32,
  0xe49b69c1#32, 0xefbe4786#32, 0x0fc19dc6#32, 0x240ca1cc#32, 0x2de92c6f#32, 0x4a7484aa#32, 0x5cb0a9dc#32, 0x76f988da#32,
  0x983e5152#32, 0xa831c66d#32, 0xb00327c8#32, 0xbf597fc7#32, 0xc6e00bf3#32, 0xd5a79147#32, 0x06ca6351#32, 0x14292967#32,
  0x27b70a85#32, 0x2e1b2138#32, 0x4d2c6dfc#32, 0x53380d13#32, 0x650a7354#32, 0x766a0abb#32, 0x81c2c92e#32, 0x92722c85#32,
  0xa2bfe8a1#32, 0xa81a664b#32, 0xc24b8b70#32, 0xc76c51a3#32, 0xd192e819#32, 0xd6990624#32, 0xf40e3585#32, 0x106aa070#32,
  0x19a4c116#32, 0x1e376c08#32, 0x2748774c#32, 0x34b0bcb5#32, 0x391c0cb3#32, 0x4ed8aa4a#32, 0x5b9cca4f#32, 0x682e6ff3#32,
  0x748f82ee#32, 0x78a5636f#32, 0x84c87814#32, 0x8cc70208#32, 0x90befffa#32, 0xa4506ceb#32, 0xbef9a3f7#32, 0xc67178f2#32]

/-- The eight working variables. -/
structure Chain where
  a : Word
  b : Word
  c : Word
  d : Word
  e : Word
  f : Word
  g : Word
  h : Word

def initial : Chain :=
  ⟨0x6a09e667#32, 0xbb67ae85#32, 0x3c6ef372#32, 0xa54ff53a#32,
    0x510e527f#32, 0x9b05688c#32, 0x1f83d9ab#32, 0x5be0cd19#32⟩

def Chain.words (s : Chain) : List Word := [s.a, s.b, s.c, s.d, s.e, s.f, s.g, s.h]

/-- The word of the message schedule that follows the words `ws`, newest first. -/
def nextWord (ws : List Word) : Word :=
  let x := ws.getD 14 0
  let y := ws.getD 1 0
  let s0 := x.rotateRight 7 ^^^ x.rotateRight 18 ^^^ x >>> 3
  let s1 := y.rotateRight 17 ^^^ y.rotateRight 19 ^^^ y >>> 10
  ws.getD 15 0 + s0 + ws.getD 6 0 + s1

/-- `n` more words of the message schedule. -/
def extend : Nat → List Word → List Word
  | 0, ws => ws
  | n + 1, ws => extend n (nextWord ws :: ws)

def round (s : Chain) (k w : Word) : Chain :=
  let s1 := s.e.rotateRight 6 ^^^ s.e.rotateRight 11 ^^^ s.e.rotateRight 25
  let ch := (s.e &&& s.f) ^^^ (~~~s.e &&& s.g)
  let t1 := s.h + s1 + ch + k + w
  let s0 := s.a.rotateRight 2 ^^^ s.a.rotateRight 13 ^^^ s.a.rotateRight 22
  let maj := (s.a &&& s.b) ^^^ (s.a &&& s.c) ^^^ (s.b &&& s.c)
  ⟨t1 + (s0 + maj), s.a, s.b, s.c, s.d + t1, s.e, s.f, s.g⟩

def compress (s : Chain) (block : List Word) : Chain :=
  let r := (roundConstants.zip (extend 48 block.reverse).reverse).foldl (fun r kw => round r kw.1 kw.2) s
  ⟨s.a + r.a, s.b + r.b, s.c + r.c, s.d + r.d, s.e + r.e, s.f + r.f, s.g + r.g, s.h + r.h⟩

/-- The length in bits in eight bytes, after a one bit and as many zero bits as fill a block. -/
def padding (length : Nat) : Utf8.Bytes :=
  (0x80 : UInt8) :: List.replicate ((119 - length % 64) % 64) (0 : UInt8) ++
    (List.range 8).map fun i => UInt8.ofNat ((8 * length) >>> (56 - 8 * i))

def toWords : Utf8.Bytes → List Word
  | a :: b :: c :: d :: rest =>
    BitVec.ofNat 32 (((a.toNat * 256 + b.toNat) * 256 + c.toNat) * 256 + d.toNat) :: toWords rest
  | _ => []

/-- One more word: the block is compressed when it has sixteen. -/
def absorb (s : Chain × List Word) (w : Word) : Chain × List Word :=
  if s.2.length = 15 then (compress s.1 (s.2 ++ [w]), []) else (s.1, s.2 ++ [w])

def digest (bytes : Utf8.Bytes) : Chain :=
  ((toWords (bytes ++ padding bytes.length)).foldl absorb (initial, [])).1

def hexWord (w : Word) : Text := (List.range 8).map fun i => Nat.digitChar (w.toNat >>> (28 - 4 * i) % 16)

def hexdigest (bytes : Utf8.Bytes) : Text := (digest bytes).words.flatMap hexWord

theorem length_hexdigest (bytes : Utf8.Bytes) : (hexdigest bytes).length = 64 := by
  simp [hexdigest, Chain.words, hexWord]

example : hexdigest (Utf8.encode "abc".toList) =
    "ba7816bf8f01cfea414140de5dae2223b00361a396177a9cb410ff61f20015ad".toList := by
  decide +kernel

end ProxmoxTool.Sha256
