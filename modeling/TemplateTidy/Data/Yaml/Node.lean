import TemplateTidy.Data.Yaml.Scalar
import TemplateTidy.Data.Yaml.Token

/-! # Nodes

A document as a tree: scalars by kind, sequences and mappings.  An alias stands for the node with its
anchor, which must come before it. -/

namespace TemplateTidy.Data.Yaml

inductive Node where
  | scalar (kind : Kind) (text : List Char)
  | sequence (items : List Node)
  | mapping (entries : List (Node × Node))
  /-- A mapping of which only the keys count. -/
  | set (entries : List (Node × Node))
deriving Inhabited

/-- The empty scalar, where a node is left out. -/
def Node.empty : Node :=
  .scalar .null []

/-! ### Values -/

/-- Whether a value may be a key. -/
def isKey : Value → Bool
  | .list _ | .dict _ | .set _ => false
  | _ => true

/-- The entries that a merged value brings; those of the first of several mappings win. -/
def mergedEntries? : Value → Option (List (Value × Value))
  | .dict es => some es
  | .list vs => do
    let all ← vs.mapM fun
      | .dict es => some es
      | _ => none
    return all.reverse.flatten
  | _ => none

/-- A dictionary from merged entries and own ones; later entries win at the place of the first. -/
def dictOf? (entries : List (Option Value × Value)) : Option Value := do
  let merged ← (entries.filter (·.1.isNone)).mapM fun e => mergedEntries? e.2
  let own := entries.filterMap fun e => e.1.map fun k => (k, e.2)
  if !own.all fun e => isKey e.1 then none
  return .dict ((merged.flatten ++ own).foldl (fun es e => Value.put es e.1 e.2) [])

mutual

def Node.value? : Node → Option Value
  | .scalar kind text => kind.read? text
  | .sequence items => do return .list (← Node.values? items)
  | .mapping entries => do dictOf? (← Node.pairs? entries)
  | .set entries => do
    match ← dictOf? (← Node.pairs? entries) with
    | .dict es => some (.set (es.map (·.1)))
    | _ => none

def Node.values? : List Node → Option (List Value)
  | [] => some []
  | n :: rest => do return (← n.value?) :: (← Node.values? rest)

/-- The values of entries; a merge has no key. -/
def Node.pairs? : List (Node × Node) → Option (List (Option Value × Value))
  | [] => some []
  | (k, v) :: rest => do
    let key ← match k with
      | .scalar .merge _ => some none
      | .scalar .default text => some (some (Value.text (String.ofList text)))
      | k => k.value?.map some
    return (key, ← v.value?) :: (← Node.pairs? rest)

end

/-! ### Reading tokens -/

/-- What is still to be read, and what has been named. -/
structure Reading where
  tokens : List Token
  anchors : List (String × Node) := []
  /-- The texts that tag handles stand for. -/
  handles : List (String × String) := [("!", "!"), ("!!", "tag:yaml.org,2002:")]

namespace Reading

/-- Whether the next token passes a test. -/
def nextIs (r : Reading) (p : Token → Bool) : Bool :=
  r.tokens.head?.any p

/-- What is left after the next token. -/
def skip (r : Reading) : Reading :=
  { r with tokens := r.tokens.drop 1 }

/-- Reads the anchor and the tag before a node, in either order. -/
def properties (r : Reading) : Option String × Option (Option String × String) × Reading :=
  match r.tokens with
  | .anchor a :: .tag h t :: rest => (some a, some (h, t), { r with tokens := rest })
  | .anchor a :: rest => (some a, none, { r with tokens := rest })
  | .tag h t :: .anchor a :: rest => (some a, some (h, t), { r with tokens := rest })
  | .tag h t :: rest => (none, some (h, t), { r with tokens := rest })
  | _ => (none, none, r)

def fullTag? (r : Reading) : Option String × String → Option String
  | (none, suffix) => some suffix
  | (some handle, suffix) => (r.handles.lookup handle).map (· ++ suffix)

end Reading

/-- The kind of a scalar: by its tag, by its spelling, or text if it is quoted. -/
def scalarKind? (tag : Option String) (text : List Char) (plain : Bool) : Option Kind :=
  match tag with
  | none => some (if plain then Kind.ofPlain text else .text)
  | some "!" => some (Kind.ofPlain text)
  | some "tag:yaml.org,2002:null" => some .null
  | some "tag:yaml.org,2002:bool" => some .bool
  | some "tag:yaml.org,2002:int" => some .int
  | some "tag:yaml.org,2002:float" => some .float
  | some "tag:yaml.org,2002:timestamp" => some .moment
  | some "tag:yaml.org,2002:str" => some .text
  | some _ => none

def sequenceOf? (tag : Option String) (items : List Node) : Option Node :=
  match tag with
  | none | some "!" | some "tag:yaml.org,2002:seq" => some (.sequence items)
  | some _ => none

def mappingOf? (tag : Option String) (entries : List (Node × Node)) : Option Node :=
  match tag with
  | none | some "!" | some "tag:yaml.org,2002:map" => some (.mapping entries)
  | some "tag:yaml.org,2002:set" => some (.set entries)
  | some _ => none

/-- The tokens that end an entry of a block sequence. -/
def endsItem (indentless : Bool) : Token → Bool
  | .entry | .blockEnd => true
  | .key | .value => indentless
  | _ => false

/-- The tokens that end a key or a value of a block mapping. -/
def endsPart : Token → Bool
  | .key | .value | .blockEnd => true
  | _ => false

mutual

/-- Reads a node.  Blocks may begin only outside brackets, and a sequence without indentation only as
a part of a mapping. -/
def node? (inBlock indentless : Bool) : (fuel : Nat) → Reading → Option (Node × Reading)
  | 0, _ => none
  | fuel + 1, r =>
    match r.tokens with
    | .alias name :: rest => do return (← r.anchors.lookup name, { r with tokens := rest })
    | _ => do
      let (anchor, tag, r) := r.properties
      let tag ← match tag with
        | some t => (r.fullTag? t).map some
        | none => some none
      if anchor.any fun a => (r.anchors.lookup a).isSome then none
      let (node, r) ← content? inBlock indentless fuel tag anchor.isSome r
      match anchor with
      | some a => return (node, { r with anchors := (a, node) :: r.anchors })
      | none => return (node, r)

/-- Reads a node after its anchor and its tag. -/
def content? (inBlock indentless : Bool) : (fuel : Nat) → (tag : Option String) → (anchored : Bool) →
    Reading → Option (Node × Reading)
  | 0, _, _, _ => none
  | fuel + 1, tag, anchored, r =>
    match r.tokens with
    | .scalar text plain :: rest => do
      return (.scalar (← scalarKind? tag text plain) text, { r with tokens := rest })
    | .openSequence :: rest => do
      let (items, r) ← flowItems? fuel true { r with tokens := rest }
      return (← sequenceOf? tag items, r)
    | .openMapping :: rest => do
      let (entries, r) ← flowPairs? fuel true { r with tokens := rest }
      return (← mappingOf? tag entries, r)
    | t :: rest =>
      if indentless && t = .entry then do
        let (items, r) ← items? true fuel r
        return (← sequenceOf? tag items, r)
      else if inBlock && t = .blockSequence then do
        let (items, r) ← items? false fuel { r with tokens := rest }
        return (← sequenceOf? tag items, r)
      else if inBlock && t = .blockMapping then do
        let (entries, r) ← pairs? fuel { r with tokens := rest }
        return (← mappingOf? tag entries, r)
      else if anchored || tag.isSome then do
        return (.scalar (← scalarKind? tag [] true) [], r)
      else none
    | [] =>
      if anchored || tag.isSome then do return (.scalar (← scalarKind? tag [] true) [], r) else none

/-- Reads the entries of a block sequence. -/
def items? (indentless : Bool) : (fuel : Nat) → Reading → Option (List Node × Reading)
  | 0, _ => none
  | fuel + 1, r =>
    match r.tokens with
    | .entry :: rest => do
      let r := { r with tokens := rest }
      let (item, r) ←
        if r.nextIs (endsItem indentless) then some (Node.empty, r) else node? true false fuel r
      let (more, r) ← items? indentless fuel r
      return (item :: more, r)
    | .blockEnd :: rest => some ([], if indentless then r else { r with tokens := rest })
    | _ => if indentless then some ([], r) else none

/-- Reads the entries of a block mapping. -/
def pairs? : (fuel : Nat) → Reading → Option (List (Node × Node) × Reading)
  | 0, _ => none
  | fuel + 1, r =>
    match r.tokens with
    | .key :: rest => do
      let r := { r with tokens := rest }
      let (key, r) ← if r.nextIs endsPart then some (Node.empty, r) else node? true true fuel r
      let (value, r) ←
        if r.nextIs (· = .value) then
          let r := r.skip
          if r.nextIs endsPart then some (Node.empty, r) else node? true true fuel r
        else some (Node.empty, r)
      let (more, r) ← pairs? fuel r
      return ((key, value) :: more, r)
    | .blockEnd :: rest => some ([], { r with tokens := rest })
    | _ => none

/-- Reads the entries between brackets. -/
def flowItems? : (fuel : Nat) → (first : Bool) → Reading → Option (List Node × Reading)
  | 0, _, _ => none
  | fuel + 1, first, r =>
    if r.nextIs (· = .closeSequence) then some ([], r.skip)
    else if !first && !r.nextIs (· = .comma) then none
    else
      let r := if first then r else r.skip
      if r.nextIs (· = .closeSequence) then some ([], r.skip)
      else do
        let (item, r) ←
          if r.nextIs (· = .key) then do
            let (pair, r) ← flowPair? fuel (· = .closeSequence) r.skip
            some (Node.mapping [pair], r)
          else node? false false fuel r
        let (more, r) ← flowItems? fuel false r
        return (item :: more, r)

/-- Reads the entries between braces; a key may stand alone. -/
def flowPairs? : (fuel : Nat) → (first : Bool) → Reading → Option (List (Node × Node) × Reading)
  | 0, _, _ => none
  | fuel + 1, first, r =>
    if r.nextIs (· = .closeMapping) then some ([], r.skip)
    else if !first && !r.nextIs (· = .comma) then none
    else
      let r := if first then r else r.skip
      if r.nextIs (· = .closeMapping) then some ([], r.skip)
      else do
        let (pair, r) ←
          if r.nextIs (· = .key) then flowPair? fuel (· = .closeMapping) r.skip
          else do
            let (key, r) ← node? false false fuel r
            some ((key, Node.empty), r)
        let (more, r) ← flowPairs? fuel false r
        return (pair :: more, r)

/-- Reads a key and its value, each of which may be left out. -/
def flowPair? : (fuel : Nat) → (closes : Token → Bool) → Reading → Option ((Node × Node) × Reading)
  | 0, _, _ => none
  | fuel + 1, closes, r => do
    let ends (t : Token) : Bool := t = .comma || closes t
    let (key, r) ←
      if r.nextIs fun t => t = .value || ends t then some (Node.empty, r)
      else node? false false fuel r
    let (value, r) ←
      if r.nextIs (· = .value) then
        let r := r.skip
        if r.nextIs ends then some (Node.empty, r) else node? false false fuel r
      else some (Node.empty, r)
    return ((key, value), r)

end

/-! ### Documents -/

/-- Reads the directives before a document. -/
def directives? (versioned : Bool) (handles : List (String × String)) :
    List Token → Option (List (String × String) × List Token)
  | .directive "YAML" arguments :: rest =>
    if versioned || arguments != ["1"] then none else directives? true handles rest
  | .directive "TAG" [handle, text] :: rest =>
    if (handles.lookup handle).isSome then none else directives? versioned ((handle, text) :: handles) rest
  | .directive _ _ :: rest => directives? versioned handles rest
  | tokens => some (handles, tokens)

def endsDocument : Token → Bool
  | .directive .. | .documentStart | .documentEnd => true
  | _ => false

/-- The single document of some tokens; nothing but marks of its end may follow. -/
def document? (tokens : List Token) : Option Node := do
  if tokens.isEmpty then return Node.empty
  let fuel := 4 * tokens.length + 4
  let start : Reading := { tokens }
  let (node, r) ←
    if start.nextIs fun t => t = .documentStart || t matches .directive .. then do
      let (handles, rest) ← directives? false [] tokens
      match rest with
      | .documentStart :: rest =>
        let r : Reading := { tokens := rest, handles := handles ++ start.handles }
        if r.tokens.isEmpty || r.nextIs endsDocument then some (Node.empty, r)
        else node? true false fuel r
      | _ => none
    else node? true false fuel start
  if r.tokens.all (· = .documentEnd) then some node else none

def read? (text : List Char) : Option Value := do
  (← document? (← tokens? text)).value?

end TemplateTidy.Data.Yaml
