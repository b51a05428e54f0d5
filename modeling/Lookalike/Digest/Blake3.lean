/-!
# BLAKE3

The hash function BLAKE3 with a digest of 32 bytes and no key. A message is cut into chunks of 1024
bytes and each chunk into blocks of 64 bytes. The chunks are the leaves of a binary tree whose left
subtrees are complete; the stack of finished subtrees is kept as a binary counter, lowest level
first, so that adding a chunk is the carry of an increment.
-/

namespace Lookalike.Blake3

/-- Eight words that chain one compression to the next. -/
abbrev Chain := Vector UInt32 8

abbrev Block := Vector UInt32 16

def initial : Chain :=
  #v[0x6A09E667, 0xBB67AE85, 0x3C6EF372, 0xA54FF53A, 0x510E527F, 0x9B05688C, 0x1F83D9AB,
    0x5BE0CD19]

def chunkStart : UInt32 := 1
def chunkEnd : UInt32 := 2
def parentFlag : UInt32 := 4
def rootFlag : UInt32 := 8

def rotateRight (w : UInt32) (n : UInt32) : UInt32 := (w >>> n) ||| (w <<< (32 - n))

/-- Mixes two message words into one column or diagonal of the state. -/
def quarter (s : Block) (a b c d : Fin 16) (x y : UInt32) : Block :=
  let a₁ := s[a] + s[b] + x
  let d₁ := rotateRight (s[d] ^^^ a₁) 16
  let c₁ := s[c] + d₁
  let b₁ := rotateRight (s[b] ^^^ c₁) 12
  let a₂ := a₁ + b₁ + y
  let d₂ := rotateRight (d₁ ^^^ a₂) 8
  let c₂ := c₁ + d₂
  let b₂ := rotateRight (b₁ ^^^ c₂) 7
  (((s.set a a₂).set b b₂).set c c₂).set d d₂

def mix (s m : Block) : Block :=
  let s := quarter s 0 4 8 12 m[0] m[1]
  let s := quarter s 1 5 9 13 m[2] m[3]
  let s := quarter s 2 6 10 14 m[4] m[5]
  let s := quarter s 3 7 11 15 m[6] m[7]
  let s := quarter s 0 5 10 15 m[8] m[9]
  let s := quarter s 1 6 11 12 m[10] m[11]
  let s := quarter s 2 7 8 13 m[12] m[13]
  quarter s 3 4 9 14 m[14] m[15]

def permute (m : Block) : Block :=
  #v[m[2], m[6], m[3], m[10], m[7], m[0], m[4], m[13], m[1], m[11], m[12], m[5], m[9], m[14],
    m[15], m[8]]

def rounds : Nat → Block → Block → Block
  | 0, s, _ => s
  | n + 1, s, m => rounds n (mix s m) (permute m)

/-- The input of one compression, kept apart from it because the root is compressed with a flag
that is known only at the end. -/
structure Node where
  chain : Chain
  block : Block
  counter : UInt64
  length : UInt32
  flags : UInt32

def Node.compress (n : Node) (extra : UInt32) : Chain :=
  let v := n.chain
  let state : Block :=
    #v[v[0], v[1], v[2], v[3], v[4], v[5], v[6], v[7],
      0x6A09E667, 0xBB67AE85, 0x3C6EF372, 0xA54FF53A,
      n.counter.toUInt32, (n.counter >>> 32).toUInt32, n.length, n.flags ||| extra]
  let s := rounds 7 state n.block
  #v[s[0] ^^^ s[8], s[1] ^^^ s[9], s[2] ^^^ s[10], s[3] ^^^ s[11], s[4] ^^^ s[12],
    s[5] ^^^ s[13], s[6] ^^^ s[14], s[7] ^^^ s[15]]

/-- Four bytes as a word, the lowest byte first; missing bytes are zero. -/
def wordAt (bytes : List UInt8) : UInt32 :=
  match bytes with
  | b₀ :: b₁ :: b₂ :: b₃ :: _ =>
    b₀.toUInt32 ||| (b₁.toUInt32 <<< 8) ||| (b₂.toUInt32 <<< 16) ||| (b₃.toUInt32 <<< 24)
  | [b₀, b₁, b₂] => b₀.toUInt32 ||| (b₁.toUInt32 <<< 8) ||| (b₂.toUInt32 <<< 16)
  | [b₀, b₁] => b₀.toUInt32 ||| (b₁.toUInt32 <<< 8)
  | [b₀] => b₀.toUInt32
  | [] => 0

def wordsOf : Nat → List UInt8 → List UInt32
  | 0, _ => []
  | n + 1, bytes => wordAt bytes :: wordsOf n (bytes.drop 4)

theorem length_wordsOf (n : Nat) (bytes : List UInt8) : (wordsOf n bytes).length = n := by
  induction n generalizing bytes with
  | zero => rfl
  | succ n ih => simp [wordsOf, ih]

def blockOf (bytes : List UInt8) : Block :=
  ⟨(wordsOf 16 bytes).toArray, by simp [length_wordsOf]⟩

/-- Cuts into pieces of `size` bytes; the last may be shorter, and the empty message is one empty
piece. The first argument bounds the number of further pieces. -/
def pieces (size : Nat) : Nat → List UInt8 → List (List UInt8)
  | 0, bytes => [bytes]
  | n + 1, bytes =>
    let rest := bytes.drop size
    if rest.isEmpty then [bytes] else bytes.take size :: pieces size n rest

/-- Runs through the blocks of a chunk; the last block is left uncompressed. -/
def chunkBlocks (counter : UInt64) (chain : Chain) (flags : UInt32) : List (List UInt8) → Node
  | [] => ⟨chain, blockOf [], counter, 0, flags ||| chunkEnd⟩
  | [last] => ⟨chain, blockOf last, counter, last.length.toUInt32, flags ||| chunkEnd⟩
  | block :: next :: rest =>
    let node : Node := ⟨chain, blockOf block, counter, 64, flags⟩
    chunkBlocks counter (node.compress 0) 0 (next :: rest)

def chunkNode (counter : UInt64) (chunk : List UInt8) : Node :=
  chunkBlocks counter initial chunkStart (pieces 64 16 chunk)

def parentNode (left right : Chain) : Node :=
  { chain := initial
    block := left ++ right
    counter := 0
    length := 64
    flags := parentFlag }

/-- Adds a finished chunk to the subtrees of sizes 1, 2, 4, …; two of one size make the next. -/
def push (chain : Chain) : List (Option Chain) → List (Option Chain)
  | [] => [some chain]
  | none :: rest => some chain :: rest
  | some left :: rest => none :: push ((parentNode left chain).compress 0) rest

/-- Closes the tree over the last chunk: the smaller subtrees are nearer to it. -/
def close (last : Node) : List (Option Chain) → Node
  | [] => last
  | none :: rest => close last rest
  | some left :: rest => close (parentNode left (last.compress 0)) rest

def treeNode (counter : UInt64) (stack : List (Option Chain)) : List (List UInt8) → Node
  | [] => close (chunkNode counter []) stack
  | [last] => close (chunkNode counter last) stack
  | chunk :: next :: rest =>
    treeNode (counter + 1) (push ((chunkNode counter chunk).compress 0) stack) (next :: rest)

def wordBytes (w : UInt32) : List UInt8 :=
  [w.toUInt8, (w >>> 8).toUInt8, (w >>> 16).toUInt8, (w >>> 24).toUInt8]

/-- The 32 bytes of the digest. -/
def digest (message : List UInt8) : List UInt8 :=
  let root := treeNode 0 [] (pieces 1024 message.length message)
  (root.compress rootFlag).toList.flatMap wordBytes

/-- Two lower case hexadecimal digits for each byte. -/
def hexOf (bytes : List UInt8) : List Char :=
  bytes.flatMap fun b => [Nat.digitChar (b.toNat / 16), Nat.digitChar (b.toNat % 16)]

/-- The digest of some bytes as 64 hexadecimal digits. -/
def hex (message : List UInt8) : String := String.ofList (hexOf (digest message))

/-- The digest of a text is that of its UTF-8 form. -/
def hexOfText (text : String) : String := hex text.toUTF8.toList

end Lookalike.Blake3
