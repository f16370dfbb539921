/-
The BLAKE3 hash function.

The input is cut into chunks of 1024 bytes, each chunk into blocks of 64.  The blocks of a chunk are
compressed one into the next; the chunks are the leaves of a binary tree whose left subtrees are as
large as a power of two allows, and each inner node compresses the chaining values of its children.
The last compression of all is marked as the root, and its first 32 bytes are the digest.

* `Blake3.compress` — the compression function on sixteen words;
* `Blake3.chunkNode`, `Blake3.parentNode`, `Blake3.tree` — the nodes of the tree;
* `Blake3.digest` — the digest of some bytes.
-/

set_option relaxedAutoImplicit false
set_option autoImplicit false

namespace OData.Blake3

/-- Sixteen words: a message block or the state of a compression. -/
abbrev Block : Type := Vector UInt32 16

/-- Eight words that stand for everything hashed so far. -/
abbrev Chaining : Type := Vector UInt32 8

/-- The initial chaining value. -/
def initial : Chaining :=
  #v[0x6A09E667, 0xBB67AE85, 0x3C6EF372, 0xA54FF53A, 0x510E527F, 0x9B05688C, 0x1F83D9AB, 0x5BE0CD19]

/-- The order in which a round takes the words of the round before. -/
def permutation : Vector (Fin 16) 16 := #v[2, 6, 3, 10, 7, 0, 4, 13, 1, 11, 12, 5, 9, 14, 15, 8]

/-- Marks the first block of a chunk. -/
def chunkStart : UInt32 := 1

/-- Marks the last block of a chunk. -/
def chunkEnd : UInt32 := 2

/-- Marks an inner node. -/
def parent : UInt32 := 4

/-- Marks the last compression. -/
def root : UInt32 := 8

/-! ### Compression -/

/-- A word rotated to the right. -/
def rotate (word count : UInt32) : UInt32 := (word >>> count) ||| (word <<< (32 - count))

/-- Mixes two message words into four words of the state. -/
def mix (state : Block) (a b c d : Fin 16) (x y : UInt32) : Block :=
  let wa := state[a] + state[b] + x
  let wd := rotate (state[d] ^^^ wa) 16
  let wc := state[c] + wd
  let wb := rotate (state[b] ^^^ wc) 12
  let wa := wa + wb + y
  let wd := rotate (wd ^^^ wa) 8
  let wc := wc + wd
  let wb := rotate (wb ^^^ wc) 7
  (((state.set a wa).set b wb).set c wc).set d wd

/-- One round: the columns, then the diagonals. -/
def round (state message : Block) : Block :=
  let s := mix state 0 4 8 12 message[0] message[1]
  let s := mix s 1 5 9 13 message[2] message[3]
  let s := mix s 2 6 10 14 message[4] message[5]
  let s := mix s 3 7 11 15 message[6] message[7]
  let s := mix s 0 5 10 15 message[8] message[9]
  let s := mix s 1 6 11 12 message[10] message[11]
  let s := mix s 2 7 8 13 message[12] message[13]
  mix s 3 4 9 14 message[14] message[15]

/-- A message as the next round takes it. -/
def permute (message : Block) : Block := permutation.map fun i => message[i]

/-- Some rounds, the message permuted between them. -/
def rounds : Nat → Block → Block → Block
  | 0, state, _ => state
  | n + 1, state, message => rounds n (round state message) (permute message)

/-- A compression: what goes into it. -/
structure Node where
  chaining : Chaining
  message : Block
  /-- The number of the chunk, zero for inner nodes. -/
  counter : UInt64
  /-- The number of bytes in the block. -/
  length : UInt32
  flags : UInt32

/-- The first eight words of a compression. -/
def compress (node : Node) : Chaining :=
  let cv := node.chaining
  let start : Block :=
    #v[cv[0], cv[1], cv[2], cv[3], cv[4], cv[5], cv[6], cv[7],
      initial[0], initial[1], initial[2], initial[3],
      node.counter.toUInt32, (node.counter >>> 32).toUInt32, node.length, node.flags]
  let s := rounds 7 start node.message
  #v[s[0] ^^^ s[8], s[1] ^^^ s[9], s[2] ^^^ s[10], s[3] ^^^ s[11],
    s[4] ^^^ s[12], s[5] ^^^ s[13], s[6] ^^^ s[14], s[7] ^^^ s[15]]

/-! ### Chunks -/

/-- The word of four bytes, the lowest first. -/
def wordOf (bytes : List UInt8) : UInt32 :=
  bytes.foldr (fun byte word => byte.toUInt32 ||| (word <<< 8)) 0

/-- The sixteen words of up to 64 bytes, zeros standing for missing ones. -/
def blockOf (bytes : List UInt8) : Block :=
  Vector.ofFn fun i : Fin 16 => wordOf ((bytes.drop (4 * i.val)).take 4)

/-- A list in parts of a positive length, the last one possibly shorter.  The empty list has one
empty part. -/
def parts (size : Nat) (bytes : List UInt8) : List (List UInt8) :=
  if _h : bytes.length ≤ size ∨ size = 0 then [bytes]
  else bytes.take size :: parts size (bytes.drop size)
termination_by bytes.length
decreasing_by
  simp only [List.length_drop]
  omega

/-- Compresses the blocks of a chunk one into the next, up to the last, which is left as a node. -/
def chunkNodeFrom (counter : UInt64) (chaining : Chaining) (flags : UInt32) :
    List (List UInt8) → Node
  | [] => ⟨chaining, blockOf [], counter, 0, flags ||| chunkEnd⟩
  | [last] => ⟨chaining, blockOf last, counter, last.length.toUInt32, flags ||| chunkEnd⟩
  | block :: rest =>
    chunkNodeFrom counter (compress ⟨chaining, blockOf block, counter, 64, flags⟩) 0 rest

/-- The node of a chunk. -/
def chunkNode (counter : Nat) (bytes : List UInt8) : Node :=
  chunkNodeFrom counter.toUInt64 initial chunkStart (parts 64 bytes)

/-! ### The tree -/

/-- The inner node over two chaining values. -/
def parentNode (left right : Chaining) : Node :=
  ⟨initial, left ++ right, 0, 64, parent⟩

/-- The node over some chunks, the first of which has the given number.  The left subtree takes the
greatest power of two that leaves something for the right one. -/
def tree (counter : Nat) (chunks : List (List UInt8)) : Node :=
  match chunks with
  | [] => chunkNode counter []
  | [chunk] => chunkNode counter chunk
  | first :: second :: rest =>
    let size := Nat.pow 2 (Nat.log2 (rest.length + 1))
    let all := first :: second :: rest
    parentNode (compress (tree counter (all.take size)))
      (compress (tree (counter + size) (all.drop size)))
termination_by chunks.length
decreasing_by
  all_goals
    have hle : Nat.pow 2 (Nat.log2 (rest.length + 1)) ≤ rest.length + 1 := Nat.log2_self_le (by omega)
    have hpos : 0 < Nat.pow 2 (Nat.log2 (rest.length + 1)) := Nat.two_pow_pos _
    simp only [List.length_take, List.length_drop, List.length_cons]
    omega

/-- The four bytes of a word, the lowest first. -/
def bytesOf (word : UInt32) : List UInt8 :=
  [word.toUInt8, (word >>> 8).toUInt8, (word >>> 16).toUInt8, (word >>> 24).toUInt8]

/-- The 32 bytes of the digest. -/
def digest (bytes : List UInt8) : List UInt8 :=
  let node := tree 0 (parts 1024 bytes)
  (compress { node with flags := node.flags ||| root }).toList.flatMap bytesOf

end OData.Blake3
