import RegistryConsent.Bytes.Endian

/-!
# BLAKE3

The unkeyed BLAKE3 digest of 32 bytes. A message is cut into chunks of 1024 bytes and each chunk
into blocks of 64 bytes that are compressed in a row. The chunks are the leaves of a binary tree
whose inner nodes compress the chaining values of their children; the root is compressed under a
flag of its own.
-/

namespace RegistryConsent.Blake3

/-- Eight words that link one compression to the next. -/
abbrev Chain := Vector UInt32 8

/-- Sixteen words: a block of input or the state of a compression. -/
abbrev Block := Vector UInt32 16

/-- The initial chaining value. -/
def initial : Chain :=
  #v[0x6a09e667, 0xbb67ae85, 0x3c6ef372, 0xa54ff53a, 0x510e527f, 0x9b05688c, 0x1f83d9ab, 0x5be0cd19]

/-- Marks the first block of a chunk. -/
def chunkStart : UInt32 := 1

/-- Marks the last block of a chunk. -/
def chunkEnd : UInt32 := 2

/-- Marks an inner node. -/
def parent : UInt32 := 4

/-- Marks the last compression of all. -/
def root : UInt32 := 8

/-- Rotation of a word to the right. -/
def rotateRight (w n : UInt32) : UInt32 := (w >>> n) ||| (w <<< (32 - n))

/-- Mixes two words of input into four words of the state. -/
def mix (s : Block) (a b c d : Fin 16) (x y : UInt32) : Block :=
  let va := s[a] + s[b] + x
  let vd := rotateRight (s[d] ^^^ va) 16
  let vc := s[c] + vd
  let vb := rotateRight (s[b] ^^^ vc) 12
  let va := va + vb + y
  let vd := rotateRight (vd ^^^ va) 8
  let vc := vc + vd
  let vb := rotateRight (vb ^^^ vc) 7
  (((s.set a va).set b vb).set c vc).set d vd

/-- Mixes the columns and then the diagonals of the state. -/
def round (m s : Block) : Block :=
  let s := mix s 0 4 8 12 m[0] m[1]
  let s := mix s 1 5 9 13 m[2] m[3]
  let s := mix s 2 6 10 14 m[4] m[5]
  let s := mix s 3 7 11 15 m[6] m[7]
  let s := mix s 0 5 10 15 m[8] m[9]
  let s := mix s 1 6 11 12 m[10] m[11]
  let s := mix s 2 7 8 13 m[12] m[13]
  mix s 3 4 9 14 m[14] m[15]

/-- The order in which a round takes the words that the round before took in sequence. -/
def schedule : Vector (Fin 16) 16 := #v[2, 6, 3, 10, 7, 0, 4, 13, 1, 11, 12, 5, 9, 14, 15, 8]

/-- The input words in the order of the next round. -/
def permute (m : Block) : Block := .ofFn fun i => m[schedule[i]]

/-- A number of rounds, the input being permuted after each. -/
def rounds : Nat → Block → Block → Block
  | 0, _, s => s
  | n + 1, m, s => rounds n (permute m) (round m s)

/-- A compression that has not been carried out yet. -/
structure Node where
  chain : Chain
  block : Block
  counter : Nat
  length : Nat
  flags : UInt32

/-- Carries out a compression under additional flags. -/
def Node.compress (n : Node) (flags : UInt32) : Chain :=
  let start : Block := n.chain ++
    (#v[initial[0], initial[1], initial[2], initial[3], .ofNat n.counter,
      .ofNat (n.counter >>> 32), .ofNat n.length, n.flags ||| flags] : Vector UInt32 8)
  let s := rounds 7 n.block start
  .ofFn fun i => s[i.val] ^^^ s[i.val + 8]

/-- The words of up to 64 bytes, filled up with zeros. -/
def blockOfBytes (bytes : List UInt8) : Block :=
  .ofFn fun i => .ofNat (Bytes.ofLittleEndian ((bytes.drop (4 * i)).take 4))

/-- The node of a chunk, given by its blocks from a point on. -/
def chunkNode (counter : Nat) : (chain : Chain) → (flags : UInt32) → List (List UInt8) → Node
  | chain, flags, [] => ⟨chain, blockOfBytes [], counter, 0, flags ||| chunkEnd⟩
  | chain, flags, [last] => ⟨chain, blockOfBytes last, counter, last.length, flags ||| chunkEnd⟩
  | chain, flags, block :: rest =>
    let node : Node := ⟨chain, blockOfBytes block, counter, block.length, flags⟩
    chunkNode counter (node.compress 0) 0 rest

/-- The node above two others. -/
def parentNode (l r : Node) : Node :=
  ⟨initial, (l.compress 0 ++ r.compress 0 : Vector UInt32 (8 + 8)), 0, 64, parent⟩

/-- Puts a node above each pair of neighbours; an odd last node stays. -/
def pairUp : List Node → List Node
  | l :: r :: rest => parentNode l r :: pairUp rest
  | nodes => nodes

/-- Pairing leaves half of the nodes, rounded up. -/
theorem length_pairUp (nodes : List Node) : (pairUp nodes).length = (nodes.length + 1) / 2 := by
  fun_induction pairUp nodes with
  | case1 l r rest ih => simp [ih]; omega
  | case2 nodes h =>
    match nodes, h with
    | [], _ => rfl
    | [_], _ => simp
    | a :: b :: r, h => exact absurd rfl (h a b r)

/-- The node on top of a row of nodes, the first of which is given apart. -/
def top (first : Node) : List Node → Node
  | [] => first
  | second :: rest => top (parentNode first second) (pairUp rest)
termination_by rest => rest.length
decreasing_by simp [length_pairUp]; omega

/-- The leaves of a message. -/
def leaves (counter : Nat) : List (List UInt8) → List Node
  | [] => []
  | chunk :: rest =>
    chunkNode counter initial chunkStart (Bytes.groupsOf 63 chunk) :: leaves (counter + 1) rest

/-- The digest of a message. -/
def digest (message : List UInt8) : Vector UInt8 32 :=
  let node := match leaves 0 (Bytes.groupsOf 1023 message) with
    | [] => chunkNode 0 initial chunkStart []
    | first :: rest => top first rest
  let words := node.compress root
  .ofFn fun i => .ofNat (words[i.val / 4].toNat >>> (8 * (i.val % 4)))

end RegistryConsent.Blake3
