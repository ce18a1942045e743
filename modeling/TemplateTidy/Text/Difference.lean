/-! # Differences

How two sequences differ.  The longest block that both share is found first, then the longest ones
before and after it, and so on; what is left over was removed or added.  `ratio` measures how much two
sequences share, and `unified` writes a difference of two lists of lines with three lines of context. -/

namespace TemplateTidy.Text.Difference

/-- A block that two sequences share. -/
structure Block where
  left : Nat
  right : Nat
  size : Nat
deriving DecidableEq, Repr

/-- A part of a difference: a range of the left sequence in place of which a range of the right one
stands.  The two are the same if `same`. -/
structure Edit where
  same : Bool
  leftStart : Nat
  leftStop : Nat
  rightStart : Nat
  rightStop : Nat
deriving DecidableEq, Repr

/-- Whether an element is too frequent in a long sequence to begin a shared block. -/
def isPopular {α : Type} [BEq α] (b : Array α) (x : α) : Bool :=
  200 ≤ b.size && b.size / 100 + 1 < b.toList.countP (· == x)

/-- For each element of `a`, the places in `b` where it stands. -/
def places {α : Type} [BEq α] (a b : Array α) : Array (List Nat) :=
  a.map fun x =>
    if isPopular b x then [] else (List.range b.size).filter fun j => b[j]?.any (· == x)

/-- The lengths of the shared blocks that end with one element of `a`, by their places in `b`, and the
best block so far. -/
structure Sweep where
  lengths : List (Nat × Nat)
  best : Block

/-- Goes on with the element `i` of `a`, which stands in `b` at `found`. -/
def Sweep.step (sweep : Sweep) (i : Nat) (found : List Nat) : Sweep :=
  found.foldl (fun now j =>
    let before := if j = 0 then 0 else (sweep.lengths.lookup (j - 1)).getD 0
    let k := before + 1
    { lengths := (j, k) :: now.lengths
      best := if now.best.size < k then ⟨i + 1 - k, j + 1 - k, k⟩ else now.best })
    { sweep with lengths := [] }

/-- Extends a block to the left, down to the ends of the ranges. -/
def extendLeft {α : Type} [BEq α] (a b : Array α) (low low' : Nat) : (fuel : Nat) → Block → Block
  | 0, m => m
  | fuel + 1, m =>
    if low < m.left && low' < m.right && a[m.left - 1]? == b[m.right - 1]? then
      extendLeft a b low low' fuel ⟨m.left - 1, m.right - 1, m.size + 1⟩
    else m

/-- Extends a block to the right, up to the ends of the ranges. -/
def extendRight {α : Type} [BEq α] (a b : Array α) (high high' : Nat) : (fuel : Nat) → Block → Block
  | 0, m => m
  | fuel + 1, m =>
    if m.left + m.size < high && m.right + m.size < high' &&
        a[m.left + m.size]? == b[m.right + m.size]? then
      extendRight a b high high' fuel { m with size := m.size + 1 }
    else m

/-- The longest block that two ranges share; of several, the leftmost. -/
def longest {α : Type} [BEq α] (a b : Array α) (spots : Array (List Nat))
    (low high low' high' : Nat) : Block :=
  let sweep := (List.range (high - low)).foldl (fun (s : Sweep) d =>
    let found := ((spots[low + d]?).getD []).filter fun j => low' ≤ j && j < high'
    s.step (low + d) found) { lengths := [], best := ⟨low, low', 0⟩ }
  extendRight a b high high' a.size (extendLeft a b low low' a.size sweep.best)

/-- The blocks that two ranges share, from left to right. -/
def blocksIn {α : Type} [BEq α] (a b : Array α) (spots : Array (List Nat)) :
    (fuel low high low' high' : Nat) → List Block
  | 0, _, _, _, _ => []
  | fuel + 1, low, high, low', high' =>
    let m := longest a b spots low high low' high'
    if m.size = 0 then []
    else
      let before :=
        if low < m.left && low' < m.right then blocksIn a b spots fuel low m.left low' m.right else []
      let after :=
        if m.left + m.size < high && m.right + m.size < high' then
          blocksIn a b spots fuel (m.left + m.size) high (m.right + m.size) high'
        else []
      before ++ m :: after

/-- Joins blocks that stand next to each other in both sequences. -/
def joinBlocks : List Block → List Block
  | m :: n :: rest =>
    if m.left + m.size = n.left && m.right + m.size = n.right then
      joinBlocks ({ m with size := m.size + n.size } :: rest)
    else m :: joinBlocks (n :: rest)
  | ms => ms
termination_by ms => ms.length

/-- The blocks that two sequences share, from left to right. -/
def blocks {α : Type} [BEq α] (a b : Array α) : List Block :=
  joinBlocks (blocksIn a b (places a b) (a.size + 1) 0 a.size 0 b.size)

/-- How many elements two sequences share. -/
def shared {α : Type} [BEq α] (a b : Array α) : Nat :=
  ((blocks a b).map Block.size).foldl (· + ·) 0

/-- The edits between shared blocks, from the places `i` and `j` on. -/
def editsFrom (i j leftSize rightSize : Nat) : List Block → List Edit
  | [] => if i < leftSize || j < rightSize then [⟨false, i, leftSize, j, rightSize⟩] else []
  | m :: rest =>
    let change := if i < m.left || j < m.right then [⟨false, i, m.left, j, m.right⟩] else []
    let i' := m.left + m.size
    let j' := m.right + m.size
    change ++ ⟨true, m.left, i', m.right, j'⟩ :: editsFrom i' j' leftSize rightSize rest

def edits {α : Type} [BEq α] (a b : Array α) : List Edit :=
  editsFrom 0 0 a.size b.size (blocks a b)

/-- The last `n` elements of an unchanged part. -/
def Edit.lastOf (n : Nat) (e : Edit) : Edit :=
  { e with leftStart := max e.leftStart (e.leftStop - n),
           rightStart := max e.rightStart (e.rightStop - n) }

/-- The first `n` elements of an unchanged part. -/
def Edit.firstOf (n : Nat) (e : Edit) : Edit :=
  { e with leftStop := min e.leftStop (e.leftStart + n),
           rightStop := min e.rightStop (e.rightStart + n) }

/-- Cuts the unchanged parts at both ends down to `n` elements. -/
def trimContext (n : Nat) (es : List Edit) : List Edit :=
  let es := match es with
    | e :: rest => (if e.same then e.lastOf n else e) :: rest
    | [] => []
  match es.getLast? with
  | some e => es.dropLast ++ [if e.same then e.firstOf n else e]
  | none => []

/-- Edits in groups: a new one begins where more than `2 * n` elements are unchanged.  `group` is the
current group, reversed. -/
def groupsFrom (n : Nat) (group : List Edit) : List Edit → List (List Edit)
  | [] => if group.any (!·.same) then [group.reverse] else []
  | e :: rest =>
    if e.same && 2 * n < e.leftStop - e.leftStart then
      (e.firstOf n :: group).reverse :: groupsFrom n [e.lastOf n] rest
    else groupsFrom n (e :: group) rest

/-- The range of a group in the heading: its first line and its number of lines. -/
def rangeText (start stop : Nat) : String :=
  if stop - start = 1 then toString (start + 1)
  else toString (if start < stop then start + 1 else start) ++ "," ++ toString (stop - start)

def editLines (a b : Array (List Char)) (e : Edit) : List (List Char) :=
  let left := (a.extract e.leftStart e.leftStop).toList
  let right := (b.extract e.rightStart e.rightStop).toList
  if e.same then left.map (' ' :: ·) else left.map ('-' :: ·) ++ right.map ('+' :: ·)

def groupLines (a b : Array (List Char)) (group : List Edit) : List (List Char) :=
  match group.head?, group.getLast? with
  | some first, some last =>
    ("@@ -" ++ rangeText first.leftStart last.leftStop ++ " +" ++
      rangeText first.rightStart last.rightStop ++ " @@\n").toList :: group.flatMap (editLines a b)
  | _, _ => []

/-- The difference of two lists of lines; empty if there is none. -/
def unified (left right : List (List Char)) : List (List Char) :=
  let a := left.toArray
  let b := right.toArray
  match groupsFrom 3 [] (trimContext 3 (edits a b)) with
  | [] => []
  | groups => "--- \n".toList :: "+++ \n".toList :: groups.flatMap (groupLines a b)

/-- Whether two words share at least six tenths of their letters. -/
def isClose (a b : List Char) : Bool :=
  6 * (a.length + b.length) ≤ 20 * shared a.toArray b.toArray

/-- Whether the first word comes before the second when the closest ones to `word` are sought: by what
they share, and then by the later word. -/
def isCloser (word x y : List Char) : Bool :=
  let share (z : List Char) : Nat × Nat :=
    (2 * shared z.toArray word.toArray, z.length + word.length)
  let (m, s) := share x
  let (n, t) := share y
  if m * t = n * s then !decide (x < y) else n * s < m * t

/-- The words that are close to a word, at most three. -/
def closeWords (word : List Char) (words : List (List Char)) : List (List Char) :=
  ((words.filter fun x => isClose x word).mergeSort (isCloser word)).take 3

end TemplateTidy.Text.Difference
