import RegistryConsent.Bytes.Endian

/-!
# SHA-512

A message is closed by the byte 128, filled up with zeros and its length in bits, and compressed in
blocks of 128 bytes. A compression runs eighty rounds over eight working words and a window of
sixteen words of the block that moves on by one word a round.
-/

namespace RegistryConsent.Sha512

/-- The chaining value and the working words of a compression. -/
abbrev Chain := Vector UInt64 8

/-- Sixteen words of the expanded block. -/
abbrev Window := Vector UInt64 16

/-- The initial chaining value: fractions of the square roots of the first eight primes. -/
def initial : Chain :=
  #v[0x6a09e667f3bcc908, 0xbb67ae8584caa73b, 0x3c6ef372fe94f82b, 0xa54ff53a5f1d36f1,
    0x510e527fade682d1, 0x9b05688c2b3e6c1f, 0x1f83d9abfb41bd6b, 0x5be0cd19137e2179]

/-- The constants of the rounds: fractions of the cube roots of the first eighty primes. -/
def constants : List UInt64 :=
  [0x428a2f98d728ae22, 0x7137449123ef65cd, 0xb5c0fbcfec4d3b2f, 0xe9b5dba58189dbbc,
   0x3956c25bf348b538, 0x59f111f1b605d019, 0x923f82a4af194f9b, 0xab1c5ed5da6d8118,
   0xd807aa98a3030242, 0x12835b0145706fbe, 0x243185be4ee4b28c, 0x550c7dc3d5ffb4e2,
   0x72be5d74f27b896f, 0x80deb1fe3b1696b1, 0x9bdc06a725c71235, 0xc19bf174cf692694,
   0xe49b69c19ef14ad2, 0xefbe4786384f25e3, 0x0fc19dc68b8cd5b5, 0x240ca1cc77ac9c65,
   0x2de92c6f592b0275, 0x4a7484aa6ea6e483, 0x5cb0a9dcbd41fbd4, 0x76f988da831153b5,
   0x983e5152ee66dfab, 0xa831c66d2db43210, 0xb00327c898fb213f, 0xbf597fc7beef0ee4,
   0xc6e00bf33da88fc2, 0xd5a79147930aa725, 0x06ca6351e003826f, 0x142929670a0e6e70,
   0x27b70a8546d22ffc, 0x2e1b21385c26c926, 0x4d2c6dfc5ac42aed, 0x53380d139d95b3df,
   0x650a73548baf63de, 0x766a0abb3c77b2a8, 0x81c2c92e47edaee6, 0x92722c851482353b,
   0xa2bfe8a14cf10364, 0xa81a664bbc423001, 0xc24b8b70d0f89791, 0xc76c51a30654be30,
   0xd192e819d6ef5218, 0xd69906245565a910, 0xf40e35855771202a, 0x106aa07032bbd1b8,
   0x19a4c116b8d2d0c8, 0x1e376c085141ab53, 0x2748774cdf8eeb99, 0x34b0bcb5e19b48a8,
   0x391c0cb3c5c95a63, 0x4ed8aa4ae3418acb, 0x5b9cca4f7763e373, 0x682e6ff3d6b2b8a3,
   0x748f82ee5defb2fc, 0x78a5636f43172f60, 0x84c87814a1f0ab72, 0x8cc702081a6439ec,
   0x90befffa23631e28, 0xa4506cebde82bde9, 0xbef9a3f7b2c67915, 0xc67178f2e372532b,
   0xca273eceea26619c, 0xd186b8c721c0c207, 0xeada7dd6cde0eb1e, 0xf57d4f7fee6ed178,
   0x06f067aa72176fba, 0x0a637dc5a2c898a6, 0x113f9804bef90dae, 0x1b710b35131c471b,
   0x28db77f523047d84, 0x32caab7b40c72493, 0x3c9ebe0a15c9bebc, 0x431d67c49c100d4c,
   0x4cc5d4becb3e42b6, 0x597f299cfc657e2a, 0x5fcb6fab3ad6faec, 0x6c44198c4a475817]

/-- Rotation of a word to the right. -/
def rotateRight (w n : UInt64) : UInt64 := (w >>> n) ||| (w <<< (64 - n))

/-- The word that follows a window in the expanded block. -/
def nextWord (w : Window) : UInt64 :=
  let s0 := rotateRight w[1]! 1 ^^^ rotateRight w[1]! 8 ^^^ (w[1]! >>> 7)
  let s1 := rotateRight w[14]! 19 ^^^ rotateRight w[14]! 61 ^^^ (w[14]! >>> 6)
  w[0]! + s0 + w[9]! + s1

/-- The window one word further on. -/
def advance (w : Window) : Window :=
  let next := nextWord w
  .ofFn fun i => if h : i.val + 1 < 16 then w[i.val + 1] else next

/-- One round under the constant `k` and the word `w` of the expanded block. -/
def round (k w : UInt64) (chain : Chain) : Chain :=
  let s := chain.get
  let s1 := rotateRight (s 4) 14 ^^^ rotateRight (s 4) 18 ^^^ rotateRight (s 4) 41
  let choice := (s 4 &&& s 5) ^^^ (~~~(s 4) &&& s 6)
  let t1 := s 7 + s1 + choice + k + w
  let s0 := rotateRight (s 0) 28 ^^^ rotateRight (s 0) 34 ^^^ rotateRight (s 0) 39
  let majority := (s 0 &&& s 1) ^^^ (s 0 &&& s 2) ^^^ (s 1 &&& s 2)
  #v[t1 + s0 + majority, s 0, s 1, s 2, s 3 + t1, s 4, s 5, s 6]

/-- The rounds of the given constants. -/
def rounds : List UInt64 → Window → Chain → Chain
  | [], _, s => s
  | k :: ks, w, s => rounds ks (advance w) (round k w[0] s)

/-- The words of a block of 128 bytes. -/
def blockWords (block : List UInt8) : Window :=
  .ofFn fun i => .ofNat (Bytes.ofBigEndian ((block.drop (8 * i)).take 8))

/-- Compresses a block into a chaining value. -/
def compress (chain : Chain) (block : List UInt8) : Chain :=
  let s := rounds constants (blockWords block) chain
  .ofFn fun i => chain[i] + s[i]

/-- A message with its closing byte, zeros and length in bits: a multiple of 128 bytes. -/
def pad (message : List UInt8) : List UInt8 :=
  message ++ 0x80 :: List.replicate ((239 - message.length % 128) % 128) 0 ++
    Bytes.bigEndian 16 (8 * message.length)

/-- The digest of a message. -/
def digest (message : List UInt8) : Vector UInt8 64 :=
  let words := (Bytes.groupsOf 127 (pad message)).foldl compress initial
  .ofFn fun i => .ofNat (words[i.val / 8].toNat >>> (8 * (7 - i.val % 8)))

end RegistryConsent.Sha512
