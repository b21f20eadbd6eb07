import ResourceTemplate.Codec.Basic

/-!
Identifiers derived from texts, by the digests SHA-256 and SHA-1 of byte sequences. Both digests pad the message to
blocks of sixteen words, expand each block to a schedule and fold the schedule into a chaining state. The URL namespace
seeds both kinds of identifier: a name-based GUID of version 5 comes from SHA-1, the GUID and the short string of a list
of texts come from SHA-256.
-/

namespace ResourceTemplate.Digest

def rotateLeft (x : UInt32) (n : UInt32) : UInt32 := (x <<< n) ||| (x >>> (32 - n))

def rotateRight (x : UInt32) (n : UInt32) : UInt32 := (x >>> n) ||| (x <<< (32 - n))

def bigEndian : (width n : Nat) → List UInt8
  | 0, _ => []
  | width + 1, n => bigEndian width (n / 256) ++ [UInt8.ofNat n]

/-- The message, a one bit, zeros up to a block less eight bytes, and the length in bits. -/
def pad (message : List UInt8) : List UInt8 :=
  let zeros := (119 - message.length % 64) % 64
  message ++ 0x80 :: List.replicate zeros 0 ++ bigEndian 8 (message.length * 8)

def words : List UInt8 → List UInt32
  | a :: b :: c :: d :: rest =>
    ((a.toUInt32 <<< 24) ||| (b.toUInt32 <<< 16) ||| (c.toUInt32 <<< 8) ||| d.toUInt32) ::
      words rest
  | _ => []

/-- Pieces of sixteen words; `fuel` bounds their number. -/
def blocks : (fuel : Nat) → List UInt32 → List (List UInt32)
  | 0, _ => []
  | fuel + 1, ws => if ws.isEmpty then [] else ws.take 16 :: blocks fuel (ws.drop 16)

def blocksOf (message : List UInt8) : List (List UInt32) :=
  let ws := words (pad message)
  blocks ws.length ws

def bytesOf (ws : List UInt32) : List UInt8 := ws.flatMap fun w => bigEndian 4 w.toNat

/-- Lengthen a schedule, held newest word first, by `count` words. -/
def extend (next : List UInt32 → UInt32) : (count : Nat) → List UInt32 → List UInt32
  | 0, ws => ws
  | count + 1, ws => extend next count (next ws :: ws)

namespace Sha256

def initial : List UInt32 :=
  [0x6a09e667, 0xbb67ae85, 0x3c6ef372, 0xa54ff53a, 0x510e527f, 0x9b05688c, 0x1f83d9ab, 0x5be0cd19]

def constants : List UInt32 :=
  [0x428a2f98, 0x71374491, 0xb5c0fbcf, 0xe9b5dba5, 0x3956c25b, 0x59f111f1, 0x923f82a4, 0xab1c5ed5,
   0xd807aa98, 0x12835b01, 0x243185be, 0x550c7dc3, 0x72be5d74, 0x80deb1fe, 0x9bdc06a7, 0xc19bf174,
   0xe49b69c1, 0xefbe4786, 0x0fc19dc6, 0x240ca1cc, 0x2de92c6f, 0x4a7484aa, 0x5cb0a9dc, 0x76f988da,
   0x983e5152, 0xa831c66d, 0xb00327c8, 0xbf597fc7, 0xc6e00bf3, 0xd5a79147, 0x06ca6351, 0x14292967,
   0x27b70a85, 0x2e1b2138, 0x4d2c6dfc, 0x53380d13, 0x650a7354, 0x766a0abb, 0x81c2c92e, 0x92722c85,
   0xa2bfe8a1, 0xa81a664b, 0xc24b8b70, 0xc76c51a3, 0xd192e819, 0xd6990624, 0xf40e3585, 0x106aa070,
   0x19a4c116, 0x1e376c08, 0x2748774c, 0x34b0bcb5, 0x391c0cb3, 0x4ed8aa4a, 0x5b9cca4f, 0x682e6ff3,
   0x748f82ee, 0x78a5636f, 0x84c87814, 0x8cc70208, 0x90befffa, 0xa4506ceb, 0xbef9a3f7, 0xc67178f2]

/-- The word of the schedule after those of `ws`, newest first. -/
def next (ws : List UInt32) : UInt32 :=
  let w2 := ws.getD 1 0
  let w15 := ws.getD 14 0
  let s1 := rotateRight w2 17 ^^^ rotateRight w2 19 ^^^ (w2 >>> 10)
  let s0 := rotateRight w15 7 ^^^ rotateRight w15 18 ^^^ (w15 >>> 3)
  ws.getD 15 0 + s0 + ws.getD 6 0 + s1

def schedule (block : List UInt32) : List UInt32 := (extend next 48 block.reverse).reverse

def round (state : List UInt32) (kw : UInt32 × UInt32) : List UInt32 :=
  match state with
  | [a, b, c, d, e, f, g, h] =>
    let s1 := rotateRight e 6 ^^^ rotateRight e 11 ^^^ rotateRight e 25
    let choice := (e &&& f) ^^^ ((~~~ e) &&& g)
    let t1 := h + s1 + choice + kw.1 + kw.2
    let s0 := rotateRight a 2 ^^^ rotateRight a 13 ^^^ rotateRight a 22
    let majority := (a &&& b) ^^^ (a &&& c) ^^^ (b &&& c)
    [t1 + (s0 + majority), a, b, c, d + t1, e, f, g]
  | other => other

def compress (state block : List UInt32) : List UInt32 :=
  List.zipWith (· + ·) state ((constants.zip (schedule block)).foldl round state)

def hash (message : List UInt8) : List UInt8 := bytesOf ((blocksOf message).foldl compress initial)

end Sha256

namespace Sha1

def initial : List UInt32 := [0x67452301, 0xefcdab89, 0x98badcfe, 0x10325476, 0xc3d2e1f0]

/-- The word of the schedule after those of `ws`, newest first. -/
def next (ws : List UInt32) : UInt32 :=
  rotateLeft (ws.getD 2 0 ^^^ ws.getD 7 0 ^^^ ws.getD 13 0 ^^^ ws.getD 15 0) 1

def schedule (block : List UInt32) : List UInt32 := (extend next 64 block.reverse).reverse

def round (state : List UInt32) (iw : Nat × UInt32) : List UInt32 :=
  match state with
  | [a, b, c, d, e] =>
    let (f, k) :=
      if iw.1 < 20 then ((b &&& c) ||| ((~~~ b) &&& d), (0x5a827999 : UInt32))
      else if iw.1 < 40 then (b ^^^ c ^^^ d, 0x6ed9eba1)
      else if iw.1 < 60 then ((b &&& c) ||| (b &&& d) ||| (c &&& d), 0x8f1bbcdc)
      else (b ^^^ c ^^^ d, 0xca62c1d6)
    [rotateLeft a 5 + f + e + k + iw.2, a, rotateLeft b 30, c, d]
  | other => other

def compress (state block : List UInt32) : List UInt32 :=
  List.zipWith (· + ·) state (((List.range 80).zip (schedule block)).foldl round state)

def hash (message : List UInt8) : List UInt8 := bytesOf ((blocksOf message).foldl compress initial)

end Sha1
end ResourceTemplate.Digest

namespace ResourceTemplate.Guid

def urlNamespace : List UInt8 :=
  [0x6b, 0xa7, 0xb8, 0x11, 0x9d, 0xad, 0x11, 0xd1, 0x80, 0xb4, 0x00, 0xc0, 0x4f, 0xd4, 0x30, 0xc8]

def swapFields : List UInt8 → List UInt8
  | a :: b :: c :: d :: e :: f :: g :: h :: rest => d :: c :: b :: a :: f :: e :: h :: g :: rest
  | short => short

/-- Sixteen bytes as hexadecimal digits in groups of 8, 4, 4, 4 and 12. -/
def text (bytes : List UInt8) : String :=
  let part (start count : Nat) := Utf8.hex ((bytes.drop start).take count)
  String.ofList (List.intercalate ['-'] [part 0 4, part 4 2, part 6 2, part 8 2, part 10 6])

/-- Put the version into the high half of byte 6 and the variant into the top of byte 8. -/
def stamp (version : UInt8) (bytes : List UInt8) : List UInt8 :=
  bytes.mapIdx fun i (b : UInt8) =>
    if i == 6 then (b &&& (15 : UInt8)) ||| (version <<< (4 : UInt8))
    else if i == 8 then (b &&& (63 : UInt8)) ||| (128 : UInt8)
    else b

def ofName (name : String) : String :=
  text (stamp 5 ((Digest.Sha1.hash (urlNamespace ++ Utf8.encode name)).take 16))

/-- What is hashed for a list of texts: the namespace and the bytes of each text in turn. -/
def seed (parts : List String) : List UInt8 := swapFields urlNamespace ++ parts.flatMap Utf8.encode

def ofTexts (parts : List String) : String :=
  text (swapFields ((Digest.Sha256.hash (seed parts)).take 16))

def shortHash (parts : List String) : String :=
  String.ofList ((Utf8.hex ((Digest.Sha256.hash (seed parts)).take 7)).take 13)

end ResourceTemplate.Guid
