import SourceOutline.Text.Utf8

/-!
# BLAKE3

The BLAKE3 hash of a byte text. The text is cut into chunks of 1024 bytes and chunks into
blocks of 64 bytes. The blocks of a chunk are compressed one after the other; chunks are
joined as the leaves of a binary tree whose left subtrees are complete. `Blake3.hash` is
the default output of 32 bytes, `Blake3.hexHash` its text.
-/

namespace SourceOutline.Blake3

/-- Four words that are mixed side by side. -/
structure Row where
  x : UInt32
  y : UInt32
  z : UInt32
  w : UInt32
  deriving DecidableEq, Repr, Inhabited

namespace Row

/-- Applies a function to the words of two rows. -/
def zip (f : UInt32 → UInt32 → UInt32) (a b : Row) : Row :=
  ⟨f a.x b.x, f a.y b.y, f a.z b.z, f a.w b.w⟩

/-- The row with its words moved one place to the left. -/
def shift (a : Row) : Row :=
  ⟨a.y, a.z, a.w, a.x⟩

/-- The words in order. -/
def toList (a : Row) : List UInt32 :=
  [a.x, a.y, a.z, a.w]

/-- The row of four words. -/
def ofList : List UInt32 → Row
  | x :: y :: z :: w :: _ => ⟨x, y, z, w⟩
  | _ => ⟨0, 0, 0, 0⟩

end Row

/-- The state of a compression. -/
structure State where
  a : Row
  b : Row
  c : Row
  d : Row
  deriving DecidableEq, Repr, Inhabited

/-- A word turned right by `n` bits. -/
def turnRight (n v : UInt32) : UInt32 :=
  (v >>> n) ||| (v <<< (32 - n))

/-- `xor`, then a turn to the right. -/
def xorTurn (n : UInt32) (a b : Row) : Row :=
  Row.zip (fun u v => turnRight n (u ^^^ v)) a b

/-- The sum of two rows. -/
def add (a b : Row) : Row :=
  Row.zip (· + ·) a b

/-- Mixes the columns of a state with two rows of message words. -/
def mix (s : State) (first second : Row) : State :=
  let a := add (add s.a s.b) first
  let d := xorTurn 16 s.d a
  let c := add s.c d
  let b := xorTurn 12 s.b c
  let a := add (add a b) second
  let d := xorTurn 8 d a
  let c := add c d
  let b := xorTurn 7 b c
  ⟨a, b, c, d⟩

/-- Turns diagonals into columns. -/
def diagonalize (s : State) : State :=
  ⟨s.a, s.b.shift, s.c.shift.shift, s.d.shift.shift.shift⟩

/-- Turns columns back into diagonals. -/
def undiagonalize (s : State) : State :=
  ⟨s.a, s.b.shift.shift.shift, s.c.shift.shift, s.d.shift⟩

/-- The elements of a list at even places, and those at odd places. -/
def unzipPairs : List UInt32 → List UInt32 × List UInt32
  | a :: b :: rest => let (as, bs) := unzipPairs rest; (a :: as, b :: bs)
  | rest => (rest, [])

/-- One round with sixteen message words. -/
def round (s : State) (message : List UInt32) : State :=
  let (first, second) := unzipPairs (message.take 8)
  let (third, fourth) := unzipPairs (message.drop 8)
  let s := mix s (.ofList first) (.ofList second)
  undiagonalize (mix (diagonalize s) (.ofList third) (.ofList fourth))

/-- The order of the message words for the next round. -/
def permutation : List Nat :=
  [2, 6, 3, 10, 7, 0, 4, 13, 1, 11, 12, 5, 9, 14, 15, 8]

/-- The message words for the next round. -/
def permute (message : List UInt32) : List UInt32 :=
  permutation.map fun i => message.getD i 0

/-- A number of rounds, each with the message permuted once more. -/
def rounds : Nat → State → List UInt32 → State
  | 0, s, _ => s
  | n + 1, s, message => rounds n (round s message) (permute message)

/-- The first four words of the initial chaining value. -/
def initialLow : Row :=
  ⟨0x6A09E667, 0xBB67AE85, 0x3C6EF372, 0xA54FF53A⟩

/-- The last four words of the initial chaining value. -/
def initialHigh : Row :=
  ⟨0x510E527F, 0x9B05688C, 0x1F83D9AB, 0x5BE0CD19⟩

/-- A chaining value. -/
structure Chaining where
  low : Row
  high : Row
  deriving DecidableEq, Repr, Inhabited

/-- The chaining value at the start. -/
def initial : Chaining :=
  ⟨initialLow, initialHigh⟩

/-- Everything that goes into one compression. -/
structure Input where
  chaining : Chaining
  message : List UInt32
  counter : Nat
  length : Nat
  flags : UInt32
  deriving Repr, Inhabited

/-- The chaining value that a compression gives. -/
def compress (input : Input) : Chaining :=
  let tail : Row :=
    ⟨UInt32.ofNat input.counter, UInt32.ofNat (input.counter / 0x100000000),
      UInt32.ofNat input.length, input.flags⟩
  let s := rounds 7 ⟨input.chaining.low, input.chaining.high, initialLow, tail⟩ input.message
  ⟨Row.zip (· ^^^ ·) s.a s.c, Row.zip (· ^^^ ·) s.b s.d⟩

/-- The flag of the first block of a chunk. -/
def chunkStart : UInt32 := 1

/-- The flag of the last block of a chunk. -/
def chunkEnd : UInt32 := 2

/-- The flag of an inner node. -/
def parentNode : UInt32 := 4

/-- The flag of the root. -/
def rootNode : UInt32 := 8

/-- A list cut into pieces of `size` elements; the last one may be shorter, and there is
at least one. -/
def pieces (size : Nat) : Nat → Bytes → List Bytes
  | 0, bytes => [bytes]
  | fuel + 1, bytes =>
    if bytes.length ≤ size then [bytes]
    else bytes.take size :: pieces size fuel (bytes.drop size)

/-- The words of a block, with the first byte lowest and zeros at the end. -/
def wordsOf (block : Bytes) : List UInt32 :=
  (List.range 16).map fun i =>
    let byte (k : Nat) : UInt32 := (block.getD (4 * i + k) 0).toUInt32
    byte 0 ||| (byte 1 <<< 8) ||| (byte 2 <<< 16) ||| (byte 3 <<< 24)

/-- The compression of the last block of a chunk, after the others; `flags` are those of
the next block. -/
def lastBlock (counter : Nat) : Chaining → UInt32 → List Bytes → Input
  | chaining, flags, [] => ⟨chaining, wordsOf [], counter, 0, flags ||| chunkEnd⟩
  | chaining, flags, [block] =>
    ⟨chaining, wordsOf block, counter, block.length, flags ||| chunkEnd⟩
  | chaining, flags, block :: blocks =>
    lastBlock counter (compress ⟨chaining, wordsOf block, counter, block.length, flags⟩)
      0 blocks

/-- The last compression of a chunk. -/
def chunk (counter : Nat) (bytes : Bytes) : Input :=
  lastBlock counter initial chunkStart (pieces 64 16 bytes)

/-- The compression of an inner node. -/
def parent (left right : Chaining) : Input where
  chaining := initial
  message := left.low.toList ++ left.high.toList ++ right.low.toList ++ right.high.toList
  counter := 0
  length := 64
  flags := parentNode

/-- The largest power of two below `n`, for `n` at least two. -/
def leftCount (n : Nat) : Nat :=
  Nat.pow 2 (Nat.log2 (n - 1))

/-- The last compression of a tree over chunks that are numbered from `counter` on. -/
def tree : Nat → Nat → List Bytes → Input
  | 0, counter, chunks => chunk counter (chunks.headD [])
  | fuel + 1, counter, chunks =>
    if chunks.length ≤ 1 then chunk counter (chunks.headD [])
    else
      let count := leftCount chunks.length
      let left := tree fuel counter (chunks.take count)
      let right := tree fuel (counter + count) (chunks.drop count)
      parent (compress left) (compress right)

/-- The bytes of a word, the lowest first. -/
def bytesOf (v : UInt32) : Bytes :=
  [v.toUInt8, (v >>> 8).toUInt8, (v >>> 16).toUInt8, (v >>> 24).toUInt8]

/-- The hash of a byte text. -/
def hash (bytes : Bytes) : Bytes :=
  let chunks := pieces 1024 bytes.length bytes
  let root := tree chunks.length 0 chunks
  let out := compress { root with flags := root.flags ||| rootNode }
  (out.low.toList ++ out.high.toList).flatMap bytesOf

/-- A byte as two hexadecimal digits. -/
def hexByte (b : UInt8) : List Char :=
  [Nat.digitChar (b.toNat / 16), Nat.digitChar (b.toNat % 16)]

/-- The hash of a byte text in hexadecimal. -/
def hexHash (bytes : Bytes) : String :=
  String.ofList ((hash bytes).flatMap hexByte)

end SourceOutline.Blake3
