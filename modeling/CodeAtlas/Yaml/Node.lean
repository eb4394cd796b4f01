import CodeAtlas.Yaml.Scan

/-! The nodes of a YAML document, from its tokens. Aliases are replaced by what they stand for. A
node can be inside itself; it is told there once more, and empty from there on. -/

namespace CodeAtlas.Yaml

inductive Tag where
  /-- The tag `!`: read the text as if it were plain. -/
  | nonSpecific
  /-- A tag of the common schema, by its short name. -/
  | common (name : String)
  /-- Any other tag; nothing can be made of it. -/
  | foreign
  deriving DecidableEq, Repr

def commonStart : String := "tag:yaml.org,2002:"

def commonTags : List String :=
  ["null", "bool", "int", "float", "binary", "timestamp", "omap", "pairs", "set", "str", "seq",
    "map"]

def Tag.named (name : String) : Tag :=
  if name = "!" then .nonSpecific
  else match commonTags.find? fun kind => name = commonStart ++ kind with
    | some kind => .common kind
    | none => .foreign

/-- A node with the tag that was written before it. -/
inductive Node where
  | scalar (text : String) (plain : Bool) (tag : Option Tag)
  | sequence (items : List Node) (tag : Option Tag)
  | mapping (pairs : List (Node × Node)) (tag : Option Tag)
  /-- The node with this anchor, which is around this place. -/
  | around (name : String)
  deriving Inhabited

namespace Node

def empty (tag : Option Tag := none) : Node := .scalar "" tag.isNone tag

def isSign (sign : String) : Node → Bool
  | .scalar text plain tag => text == sign && ((plain && tag.isNone) || tag == some .nonSpecific)
  | _ => false

def emptied : Node → Node
  | .sequence _ tag => .sequence [] tag
  | .mapping _ tag => .mapping [] tag
  | node => node

mutual

/-- A node in which what is around it is told. -/
def unfolded (told : String → Node) : Node → Node
  | .scalar text plain tag => .scalar text plain tag
  | .sequence items tag => .sequence (unfoldedItems told items) tag
  | .mapping pairs tag => .mapping (unfoldedPairs told pairs) tag
  | .around name => told name

def unfoldedItems (told : String → Node) : List Node → List Node
  | [] => []
  | item :: rest => unfolded told item :: unfoldedItems told rest

def unfoldedPairs (told : String → Node) : List (Node × Node) → List (Node × Node)
  | [] => []
  | (key, value) :: rest => (unfolded told key, unfolded told value) :: unfoldedPairs told rest

end

end Node

/-- What is left to read, what the handles of tags stand for, and the nodes by their anchors. The
anchor of a node that is not read to its end yet stands for what is around. -/
structure Reading where
  tokens : List Token
  handles : List (String × String) := []
  anchors : List (String × Node) := []

abbrev NodeReader := StateT Reading (Except Fault)

def malformed {α : Type} : NodeReader α := throw .malformed

def peekToken : NodeReader (Option Token) := return (← get).tokens.head?

def dropToken : NodeReader Unit := modify fun r => { r with tokens := r.tokens.tail }

def skipToken (token : Token) : NodeReader Bool := do
  if (← peekToken) == some token then
    dropToken
    return true
  return false

def nextIs (tokens : List Token) : NodeReader Bool :=
  return match ← peekToken with
    | some token => tokens.contains token
    | none => false

def expectToken (token : Token) : NodeReader Unit := do
  unless ← skipToken token do malformed

def commonHandles : List (String × String) := [("!", "!"), ("!!", commonStart)]

def tagOf (handle : Option String) (rest : String) : NodeReader Tag := do
  match handle with
  | none => return .named rest
  | some handle =>
    match ((← get).handles ++ commonHandles).lookup handle with
    | some start => return .named (start ++ rest)
    | none => malformed

def properties : NodeReader (Option String × Option Tag) := do
  match ← peekToken with
  | some (.anchor name) =>
    dropToken
    match ← peekToken with
    | some (.tag handle rest) =>
      dropToken
      return (some name, some (← tagOf handle rest))
    | _ => return (some name, none)
  | some (.tag handle rest) =>
    dropToken
    match ← peekToken with
    | some (.anchor name) =>
      dropToken
      return (some name, some (← tagOf handle rest))
    | _ => return (none, some (← tagOf handle rest))
  | _ => return (none, none)

def bindAnchor (anchor : Option String) (node : String → Node) : NodeReader Unit :=
  match anchor with
  | some name => modify fun r => { r with anchors := (name, node name) :: r.anchors }
  | none => pure ()

/-- What kinds of nodes may stand at a place: blocks, and sequences at the column of their
parent. -/
structure Allowed where
  block : Bool
  indentless : Bool := false

mutual

def readNode : Nat → Allowed → NodeReader Node
  | 0, _ => malformed
  | fuel + 1, allowed => do
    match ← peekToken with
    | some (.alias name) =>
      dropToken
      match (← get).anchors.lookup name with
      | some node => return node
      | none => malformed
    | _ =>
      let (anchor, tag) ← properties
      if let some name := anchor then
        if ((← get).anchors.lookup name).isSome then malformed
      bindAnchor anchor .around
      let node ← readContent fuel allowed (anchor.isSome || tag.isSome) tag
      bindAnchor anchor fun _ => node
      return node

/-- Reads a node after its anchor and tag; with one of these it may be empty. -/
def readContent : Nat → Allowed → Bool → Option Tag → NodeReader Node
  | 0, _, _, _ => malformed
  | fuel + 1, allowed, mayBeEmpty, tag => do
    match ← peekToken with
    | some (.scalar text plain) =>
      dropToken
      return .scalar text plain tag
    | some .flowSequenceStart =>
      dropToken
      return .sequence (← readFlowItems fuel true) tag
    | some .flowMappingStart =>
      dropToken
      return .mapping (← readFlowPairs fuel true) tag
    | some .blockEntry =>
      if allowed.indentless then return .sequence (← readIndentless fuel) tag
      else if mayBeEmpty then return .empty tag
      else malformed
    | some .blockSequenceStart =>
      if allowed.block then
        dropToken
        return .sequence (← readBlockItems fuel) tag
      else if mayBeEmpty then return .empty tag
      else malformed
    | some .blockMappingStart =>
      if allowed.block then
        dropToken
        return .mapping (← readBlockPairs fuel) tag
      else if mayBeEmpty then return .empty tag
      else malformed
    | _ => if mayBeEmpty then return .empty tag else malformed

def readUnless : Nat → List Token → Allowed → NodeReader Node
  | 0, _, _ => malformed
  | fuel + 1, enders, allowed => do
    if (← nextIs enders) then return .empty else readNode fuel allowed

def readBlockItems : Nat → NodeReader (List Node)
  | 0 => malformed
  | fuel + 1 => do
    if ← skipToken .blockEntry then
      let item ← readUnless fuel [.blockEntry, .blockEnd] ⟨true, false⟩
      return item :: (← readBlockItems fuel)
    else
      expectToken .blockEnd
      return []

def readIndentless : Nat → NodeReader (List Node)
  | 0 => malformed
  | fuel + 1 => do
    if ← skipToken .blockEntry then
      let item ← readUnless fuel [.blockEntry, .key, .value, .blockEnd] ⟨true, false⟩
      return item :: (← readIndentless fuel)
    else return []

def readBlockPairs : Nat → NodeReader (List (Node × Node))
  | 0 => malformed
  | fuel + 1 => do
    if ← skipToken .key then
      let key ← readUnless fuel [.key, .value, .blockEnd] ⟨true, true⟩
      let value ←
        if ← skipToken .value then
          readUnless fuel [.key, .value, .blockEnd] ⟨true, true⟩
        else pure .empty
      return (key, value) :: (← readBlockPairs fuel)
    else
      expectToken .blockEnd
      return []

def readFlowItems : Nat → Bool → NodeReader (List Node)
  | 0, _ => malformed
  | fuel + 1, first => do
    if ← skipToken .flowSequenceEnd then return []
    unless first do expectToken .flowEntry
    if ← skipToken .key then
      let key ← readUnless fuel [.value, .flowEntry, .flowSequenceEnd] ⟨false, false⟩
      let value ←
        if ← skipToken .value then
          readUnless fuel [.flowEntry, .flowSequenceEnd] ⟨false, false⟩
        else pure .empty
      return .mapping [(key, value)] none :: (← readFlowItems fuel false)
    else if ← skipToken .flowSequenceEnd then return []
    else
      let item ← readNode fuel ⟨false, false⟩
      return item :: (← readFlowItems fuel false)

def readFlowPairs : Nat → Bool → NodeReader (List (Node × Node))
  | 0, _ => malformed
  | fuel + 1, first => do
    if ← skipToken .flowMappingEnd then return []
    unless first do expectToken .flowEntry
    if ← skipToken .key then
      let key ← readUnless fuel [.value, .flowEntry, .flowMappingEnd] ⟨false, false⟩
      let value ←
        if ← skipToken .value then
          readUnless fuel [.flowEntry, .flowMappingEnd] ⟨false, false⟩
        else pure .empty
      return (key, value) :: (← readFlowPairs fuel false)
    else if ← skipToken .flowMappingEnd then return []
    else
      let key ← readNode fuel ⟨false, false⟩
      return (key, .empty) :: (← readFlowPairs fuel false)

end

def skipAll (token : Token) : Nat → NodeReader Unit
  | 0 => pure ()
  | fuel + 1 => do if ← skipToken token then skipAll token fuel

/-- Reads the directives before a document. The version is told at most once, and so is what a
handle stands for. -/
def readDirectives : Nat → Bool → NodeReader Unit
  | 0, _ => malformed
  | fuel + 1, versioned => do
    match ← peekToken with
    | some (.directive .version) =>
      if versioned then malformed
      dropToken
      readDirectives fuel true
    | some (.directive (.tag handle start)) =>
      if ((← get).handles.lookup handle).isSome then malformed
      modify fun r => { r with handles := (handle, start) :: r.handles }
      dropToken
      readDirectives fuel versioned
    | some (.directive .other) =>
      dropToken
      readDirectives fuel versioned
    | _ => pure ()

def nextIsDirective : NodeReader Bool :=
  return match ← peekToken with
    | some (.directive _) => true
    | _ => false

/-- A node in which what is around it is told once more. -/
def toldAgain (anchors : List (String × Node)) (node : Node) : Node :=
  let known (name : String) : Node := (anchors.lookup name).getD .empty
  node.unfolded fun name => (known name).unfolded fun name => (known name).emptied

def readDocument (fuel : Nat) : NodeReader (Option Node) := do
  if (← peekToken).isNone then return none
  let explicit := (← nextIsDirective) || (← nextIs [.documentStart])
  if explicit then
    readDirectives fuel false
    expectToken .documentStart
  let ends := (← peekToken).isNone || (← nextIsDirective)
    || (← nextIs [.documentStart, .documentEnd])
  let node ← if explicit && ends then pure .empty else readNode fuel ⟨true, false⟩
  skipAll .documentEnd fuel
  if (← peekToken).isSome then malformed
  return some (toldAgain (← get).anchors node)

def Node.ofTokens (tokens : List Token) : Except Fault (Option Node) :=
  return (← (readDocument (4 * tokens.length + 8)).run { tokens := tokens }).1

end CodeAtlas.Yaml
