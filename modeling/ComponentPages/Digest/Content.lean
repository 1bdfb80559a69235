/-!
# Content digests

The SHA-256 digest of a sequence of bytes. The bytes are padded to whole blocks of sixty-four;
each block is expanded to sixty-four words and mixed into the eight words of the state. The
digest tells contents apart in a cache and gives a component its scope class.
-/
namespace ComponentPages.Digest

/-- The constants of the rounds: the first fractional bits of the cube roots of the first
sixty-four primes. -/
def roundConstants : List UInt32 := [
  0x428a2f98, 0x71374491, 0xb5c0fbcf, 0xe9b5dba5, 0x3956c25b, 0x59f111f1, 0x923f82a4, 0xab1c5ed5,
  0xd807aa98, 0x12835b01, 0x243185be, 0x550c7dc3, 0x72be5d74, 0x80deb1fe, 0x9bdc06a7, 0xc19bf174,
  0xe49b69c1, 0xefbe4786, 0x0fc19dc6, 0x240ca1cc, 0x2de92c6f, 0x4a7484aa, 0x5cb0a9dc, 0x76f988da,
  0x983e5152, 0xa831c66d, 0xb00327c8, 0xbf597fc7, 0xc6e00bf3, 0xd5a79147, 0x06ca6351, 0x14292967,
  0x27b70a85, 0x2e1b2138, 0x4d2c6dfc, 0x53380d13, 0x650a7354, 0x766a0abb, 0x81c2c92e, 0x92722c85,
  0xa2bfe8a1, 0xa81a664b, 0xc24b8b70, 0xc76c51a3, 0xd192e819, 0xd6990624, 0xf40e3585, 0x106aa070,
  0x19a4c116, 0x1e376c08, 0x2748774c, 0x34b0bcb5, 0x391c0cb3, 0x4ed8aa4a, 0x5b9cca4f, 0x682e6ff3,
  0x748f82ee, 0x78a5636f, 0x84c87814, 0x8cc70208, 0x90befffa, 0xa4506ceb, 0xbef9a3f7, 0xc67178f2]

/-- The state that blocks are mixed into. -/
structure State where
  a : UInt32
  b : UInt32
  c : UInt32
  d : UInt32
  e : UInt32
  f : UInt32
  g : UInt32
  h : UInt32

/-- The state before the first block: the first fractional bits of the square roots of the
first eight primes. -/
def State.start : State :=
  ⟨0x6a09e667, 0xbb67ae85, 0x3c6ef372, 0xa54ff53a,
    0x510e527f, 0x9b05688c, 0x1f83d9ab, 0x5be0cd19⟩

/-- A word rotated to the right. -/
def rotate (word : UInt32) (count : UInt32) : UInt32 :=
  (word >>> count) ||| (word <<< (32 - count))

/-- One round: a word of the expanded block with its constant. -/
def State.round (state : State) (word constant : UInt32) : State :=
  let mixed := rotate state.e 6 ^^^ rotate state.e 11 ^^^ rotate state.e 25
  let chosen := (state.e &&& state.f) ^^^ (~~~state.e &&& state.g)
  let first := state.h + mixed + chosen + constant + word
  let spread := rotate state.a 2 ^^^ rotate state.a 13 ^^^ rotate state.a 22
  let majority := (state.a &&& state.b) ^^^ (state.a &&& state.c) ^^^ (state.b &&& state.c)
  ⟨first + (spread + majority), state.a, state.b, state.c, state.d + first, state.e, state.f,
    state.g⟩

/-- The next word of an expanded block, whose words so far are given from the last one. -/
def nextWord (words : List UInt32) : UInt32 :=
  let early := words.getD 14 0
  let late := words.getD 1 0
  words.getD 15 0 + (rotate early 7 ^^^ rotate early 18 ^^^ (early >>> 3)) + words.getD 6 0 +
    (rotate late 17 ^^^ rotate late 19 ^^^ (late >>> 10))

/-- The words of a block given from the last one, with more words in front. -/
def expand : Nat → List UInt32 → List UInt32
  | 0, words => words
  | count + 1, words => expand count (nextWord words :: words)

/-- The words of a sequence of bytes, four bytes to a word. -/
def wordsOf : List UInt8 → List UInt32
  | first :: second :: third :: fourth :: rest =>
    ((first.toUInt32 <<< 24) ||| (second.toUInt32 <<< 16) ||| (third.toUInt32 <<< 8) |||
      fourth.toUInt32) :: wordsOf rest
  | _ => []

/-- The state after a block of sixty-four bytes. -/
def State.mix (state : State) (block : List UInt8) : State :=
  let words := (expand 48 (wordsOf block).reverse).reverse
  let mixed := (words.zip roundConstants).foldl (fun state pair => state.round pair.1 pair.2) state
  ⟨state.a + mixed.a, state.b + mixed.b, state.c + mixed.c, state.d + mixed.d,
    state.e + mixed.e, state.f + mixed.f, state.g + mixed.g, state.h + mixed.h⟩

/-- The bytes of a natural from the highest one, as many as asked for. -/
def bytesOf : Nat → Nat → List UInt8
  | 0, _ => []
  | count + 1, value => UInt8.ofNat (value / 256 ^ count) :: bytesOf count value

/-- Bytes padded to whole blocks: a mark, zeros and the length in bits. -/
def padded (bytes : List UInt8) : List UInt8 :=
  bytes ++ 0x80 :: List.replicate ((119 - bytes.length % 64) % 64) 0 ++
    bytesOf 8 (8 * bytes.length)

/-- The state after a number of blocks. -/
def State.mixAll : Nat → State → List UInt8 → State
  | 0, state, _ => state
  | count + 1, state, bytes => mixAll count (state.mix (bytes.take 64)) (bytes.drop 64)

/-- The digest of bytes, as eight words. -/
def digest (bytes : List UInt8) : List UInt32 :=
  let state := State.mixAll ((padded bytes).length / 64) State.start (padded bytes)
  [state.a, state.b, state.c, state.d, state.e, state.f, state.g, state.h]

/-- A word in hexadecimal, in eight digits. -/
def hexadecimal (word : UInt32) : List Char :=
  (bytesOf 4 word.toNat).flatMap fun byte =>
    [Nat.digitChar (byte.toNat / 16), Nat.digitChar (byte.toNat % 16)]

/-- The digest of a text, in hexadecimal. -/
def ofText (text : String) : String :=
  String.ofList ((digest text.toUTF8.toList).flatMap hexadecimal)

end ComponentPages.Digest
