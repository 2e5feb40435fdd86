import RecordPrivacy.Digest.Blake2b

/-!
The Argon2id password digest, version 19: a memory of one-kibibyte blocks is filled along several
lanes, each block from its predecessor and one chosen before it, and the last blocks of the lanes
make the tag. In the first half of the first pass the choice does not depend on the password.
-/
namespace RecordPrivacy.Argon2

structure Parameters where
  /-- Passes over the memory. -/
  time : Nat
  /-- Kibibytes of memory. -/
  memory : Nat
  /-- Lanes. -/
  threads : Nat
  tagSize : Nat

abbrev Block := Array UInt64

def emptyBlock : Block := Array.replicate 128 0

/-! ### Digests of any length -/

def chain (first : Bytes) : (count : Nat) → List Bytes
  | 0 => []
  | count + 1 => first :: chain (Blake2b.digest 64 first) count

/-- Up to 64 bytes directly; more from a chain of digests, half of each but the last. -/
def longDigest (size : Nat) (message : Bytes) : Bytes :=
  let seed := Bytes.ofNatLE 4 size ++ message
  if size ≤ 64 then Blake2b.digest size seed
  else
    let halves := (size + 31) / 32 - 2
    let links := chain (Blake2b.digest 64 seed) halves
    let last := links.getLastD seed
    links.flatMap (·.take 32) ++ Blake2b.digest (size - 32 * halves) last

/-! ### Mixing two blocks -/

/-- Addition with twice the product of the lower halves. -/
def blend (x y : UInt64) : UInt64 :=
  x + y + 2 * ((x &&& 0xFFFFFFFF) * (y &&& 0xFFFFFFFF))

def mix (v : Block) (i j k l : Nat) : Block :=
  let a := blend (v.getD i 0) (v.getD j 0)
  let d := Blake2b.rotateRight (v.getD l 0 ^^^ a) 32
  let c := blend (v.getD k 0) d
  let b := Blake2b.rotateRight (v.getD j 0 ^^^ c) 24
  let a := blend a b
  let d := Blake2b.rotateRight (d ^^^ a) 16
  let c := blend c d
  let b := Blake2b.rotateRight (b ^^^ c) 63
  (((v.setIfInBounds i a).setIfInBounds j b).setIfInBounds k c).setIfInBounds l d

/-- The mixing steps on the sixteen words whose places are given. -/
def permute (v : Block) (places : Array Nat) : Block :=
  Blake2b.steps.foldl
    (fun v (i, j, k, l) =>
      mix v (places.getD i 0) (places.getD j 0) (places.getD k 0) (places.getD l 0)) v

/-- The eight rows of a block, then its eight columns of pairs. -/
def lines : List (Array Nat) :=
  (List.range 8).map (fun row => (Array.range 16).map (16 * row + ·)) ++
    (List.range 8).map fun column => (Array.range 16).map fun i => 16 * (i / 2) + 2 * column + i % 2

def xorBlocks (x y : Block) : Block :=
  Array.zipWith (· ^^^ ·) x y

def combine (x y : Block) : Block :=
  let sum := xorBlocks x y
  xorBlocks sum (lines.foldl permute sum)

/-! ### Filling the memory -/

/-- The memory in numbers: lanes, columns of a lane, columns of one of its four segments. -/
structure Layout where
  lanes : Nat
  columns : Nat
  segment : Nat

def Parameters.layout (p : Parameters) : Layout :=
  let segment := p.memory / (4 * p.threads)
  ⟨p.threads, 4 * segment, segment⟩

/-- The place of a block that is about to be written. -/
structure Cursor where
  pass : Nat
  slice : Nat
  lane : Nat
  index : Nat

/-- The pseudo-random words for the independent choices, 128 of them in the group `counter`. -/
def addresses (p : Parameters) (at_ : Cursor) (counter : Nat) : Block :=
  let layout := p.layout
  let header := [at_.pass, at_.lane, at_.slice, layout.lanes * layout.columns, p.time, 2, counter]
  let input := (header.map UInt64.ofNat).toArray ++ Array.replicate 121 0
  combine emptyBlock (combine emptyBlock input)

/-- Lane and column of the block to combine with, chosen by a pseudo-random word. -/
def reference (layout : Layout) (at_ : Cursor) (word : UInt64) : Nat × Nat :=
  let low := word.toNat % Nat.pow 2 32
  let high := word.toNat / Nat.pow 2 32
  let lane := if at_.pass = 0 ∧ at_.slice = 0 then at_.lane else high % layout.lanes
  let before := if at_.pass = 0 then at_.slice * layout.segment else 3 * layout.segment
  let area :=
    if lane = at_.lane then before + at_.index - 1
    else if at_.index = 0 then before - 1 else before
  let back := area * (low * low / Nat.pow 2 32) / Nat.pow 2 32
  let start := if at_.pass = 0 ∨ at_.slice = 3 then 0 else (at_.slice + 1) * layout.segment
  (lane, (start + (area - 1 - back)) % layout.columns)

def independent (at_ : Cursor) : Bool :=
  at_.pass == 0 && at_.slice < 2

/-- Writes one block. -/
def fillBlock (layout : Layout) (words : Block) (memory : Array Block) (at_ : Cursor) :
    Array Block :=
  let column := at_.slice * layout.segment + at_.index
  let previousColumn := if column = 0 then layout.columns - 1 else column - 1
  let previous := memory.getD (at_.lane * layout.columns + previousColumn) emptyBlock
  let word := if independent at_ then words.getD (at_.index % 128) 0 else previous.getD 0 0
  let (lane, chosen) := reference layout at_ word
  let mixed := combine previous (memory.getD (lane * layout.columns + chosen) emptyBlock)
  let place := at_.lane * layout.columns + column
  let block := if at_.pass = 0 then mixed else xorBlocks mixed (memory.getD place emptyBlock)
  memory.setIfInBounds place block

/-- Writes the blocks of a segment from `index` on; `words` are the choices of the current group. -/
def fillSegment (p : Parameters) (start : Cursor) :
    (count index : Nat) → Block → Array Block → Array Block
  | 0, _, _, memory => memory
  | count + 1, index, words, memory =>
    let at_ := { start with index := index }
    let words :=
      if independent at_ ∧ (index % 128 = 0 ∨ words.isEmpty) then
        addresses p at_ (index / 128 + 1)
      else words
    fillSegment p start count (index + 1) words (fillBlock p.layout words memory at_)

def fillLane (p : Parameters) (memory : Array Block) (start : Cursor) : Array Block :=
  let first := if start.pass = 0 ∧ start.slice = 0 then 2 else 0
  fillSegment p start (p.layout.segment - first) first #[] memory

/-- Every segment of every pass, slice after slice, lane after lane. -/
def segments (p : Parameters) : List Cursor :=
  (List.range p.time).flatMap fun pass =>
    (List.range 4).flatMap fun slice =>
      (List.range p.threads).map fun lane => ⟨pass, slice, lane, 0⟩

/-! ### The digest -/

def sized (bytes : Bytes) : Bytes :=
  Bytes.ofNatLE 4 bytes.length ++ bytes

/-- The digest of all inputs, with neither a secret nor associated data. -/
def initialDigest (p : Parameters) (password salt : Bytes) : Bytes :=
  let numbers := [p.threads, p.tagSize, p.memory, p.time, 19, 2]
  Blake2b.digest 64 (numbers.flatMap (Bytes.ofNatLE 4) ++ sized password ++ sized salt ++
    sized [] ++ sized [])

def initialBlock (seed : Bytes) (column lane : Nat) : Block :=
  Blake2b.words (longDigest 1024 (seed ++ Bytes.ofNatLE 4 column ++ Bytes.ofNatLE 4 lane))

def initialMemory (p : Parameters) (seed : Bytes) : Array Block :=
  let layout := p.layout
  (List.range layout.lanes).foldl
    (fun memory lane =>
      (memory.setIfInBounds (lane * layout.columns) (initialBlock seed 0 lane)).setIfInBounds
        (lane * layout.columns + 1) (initialBlock seed 1 lane))
    (Array.replicate (layout.lanes * layout.columns) emptyBlock)

def derive (p : Parameters) (password salt : Bytes) : Bytes :=
  let layout := p.layout
  let memory := (segments p).foldl (fillLane p) (initialMemory p (initialDigest p password salt))
  let last := (List.range layout.lanes).foldl
    (fun block lane =>
      xorBlocks block (memory.getD (lane * layout.columns + layout.columns - 1) emptyBlock))
    emptyBlock
  longDigest p.tagSize (last.toList.flatMap fun word => Bytes.ofNatLE 8 word.toNat)

end RecordPrivacy.Argon2
