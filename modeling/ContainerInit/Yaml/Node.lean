import ContainerInit.Yaml.Token

/-! # Nodes

The tree of a YAML document, read from its tokens. Scalars keep their text; what they stand for is
decided where they are used. Anchors are numbers, and an alias holds the number of its anchor. -/

namespace ContainerInit.Yaml

inductive Node where
  | scalar (anchor : Option Nat) (tag : Option String) (style : Style) (text : String)
  | sequence (anchor : Option Nat) (tag : Option String) (items : List Node)
  | mapping (anchor : Option Nat) (tag : Option String) (entries : List (Node × Node))
  | alias (target : Nat)
deriving Repr

namespace Node

/-- What stands where a node is left out. -/
def empty : Node := .scalar none none .plain ""

/-- The node stands for an absent one. -/
def IsEmpty (node : Node) : Prop :=
  match node with
  | .scalar _ _ style text => style = .plain ∧ text = ""
  | _ => False

instance : DecidablePred IsEmpty
  | .scalar _ _ style text => inferInstanceAs (Decidable (style = .plain ∧ text = ""))
  | .sequence .. | .mapping .. | .alias _ => inferInstanceAs (Decidable False)

end Node

/-! ### Reading -/

structure Reading where
  tokens : List Token
  /-- Tag handles and what they stand for. -/
  tags : List (String × String) := []
  /-- The anchors read so far, the latest first. -/
  anchors : List (String × Nat) := []

abbrev Reader := StateT Reading Option

namespace Reader

def peek : Reader (Option Token) := return (← get).tokens.head?

def skip : Reader Unit := modify fun s => { s with tokens := s.tokens.tail }

/-- Passes over a token if it is the next one. -/
def accept (t : Token) : Reader Bool := do
  if (← peek) = some t then
    skip
    return true
  else return false

def expect (t : Token) : Reader Unit := do if !(← accept t) then failure

/-- The number of a new anchor: how many names there are so far. -/
def anchorNumber (name : String) : Reader Nat :=
  modifyGet fun s =>
    let n := (s.anchors.map Prod.fst).eraseDups.length
    (n, { s with anchors := (name, n) :: s.anchors })

def aliasNumber (name : String) : Reader Nat := do (← get).anchors.lookup name

def expandTag (t : TagName) : Reader String := do
  if t.handle = "" then return t.suffix
  match (← get).tags.lookup t.handle with
  | some lead => return lead ++ t.suffix
  | none => failure

def acceptTag : Reader (Option String) := do
  match ← peek with
  | some (.tag t) =>
    skip
    return some (← expandTag t)
  | _ => return none

def acceptAnchor : Reader (Option Nat) := do
  match ← peek with
  | some (.anchor name) =>
    skip
    return some (← anchorNumber name)
  | _ => return none

/-- The anchor and the tag in front of a node, in either order. -/
def properties : Reader (Option Nat × Option String) := do
  match ← acceptAnchor with
  | some a => return (some a, ← acceptTag)
  | none =>
    let tag ← acceptTag
    return (← acceptAnchor, tag)

/-- Without content a node is made of its properties alone. -/
def bare (anchor : Option Nat) (tag : Option String) : Reader Node :=
  if anchor.isSome || tag.isSome then return .scalar anchor tag .plain "" else failure

mutual

/-- Reads a node. Block collections are read if `block` is set, and a sequence that is not indented if
`indentless` is set. -/
def node (block indentless : Bool) : Nat → Reader Node
  | 0 => failure
  | n + 1 => do
    match ← peek with
    | some (.alias name) =>
      skip
      return .alias (← aliasNumber name)
    | _ =>
      let (anchor, tag) ← properties
      match ← peek with
      | some (.scalar style text) =>
        skip
        return .scalar anchor (tag.filter (· ≠ "!")) style text
      | some .flowSequenceStart =>
        skip
        return .sequence anchor tag (← flowItems true n)
      | some .flowMappingStart =>
        skip
        return .mapping anchor tag (← flowEntries true n)
      | some .blockSequenceStart =>
        if block then
          skip
          return .sequence anchor tag (← blockItems n)
        else bare anchor tag
      | some .blockMappingStart =>
        if block then
          skip
          return .mapping anchor tag (← blockEntries n)
        else bare anchor tag
      | some .blockEntry =>
        if indentless then return .sequence anchor tag (← indentlessItems n) else bare anchor tag
      | _ => bare anchor tag

/-- Reads a node that may be left out in front of the given tokens. -/
def optionalNode (stops : List Token) (block indentless : Bool) : Nat → Reader Node
  | 0 => failure
  | n + 1 => do
    match ← peek with
    | some t => if t ∈ stops then return .empty else node block indentless n
    | none => failure

def blockItems : Nat → Reader (List Node)
  | 0 => failure
  | n + 1 => do
    if ← accept .blockEntry then
      let item ← optionalNode [.blockEntry, .blockEnd] true false n
      return item :: (← blockItems n)
    else
      expect .blockEnd
      return []

def indentlessItems : Nat → Reader (List Node)
  | 0 => failure
  | n + 1 => do
    if ← accept .blockEntry then
      let item ← optionalNode [.blockEntry, .key, .value, .blockEnd] true false n
      return item :: (← indentlessItems n)
    else return []

def blockEntries : Nat → Reader (List (Node × Node))
  | 0 => failure
  | n + 1 => do
    if ← accept .key then
      let key ← optionalNode [.key, .value, .blockEnd] true true n
      let value ←
        if ← accept .value then optionalNode [.key, .value, .blockEnd] true true n else pure .empty
      return (key, value) :: (← blockEntries n)
    else
      expect .blockEnd
      return []

/-- A key with its value among the items of a flow sequence. Where the key is left out the token after
it is passed over, whichever it is. -/
def flowPair : Nat → Reader (Node × Node)
  | 0 => failure
  | n + 1 => do
    let key ←
      if (← peek) ∈ [some Token.value, some .flowEntry, some .flowSequenceEnd] then do
        skip
        pure .empty
      else node false false n
    let value ←
      if ← accept .value then optionalNode [.flowEntry, .flowSequenceEnd] false false n else pure .empty
    return (key, value)

def flowItems (first : Bool) : Nat → Reader (List Node)
  | 0 => failure
  | n + 1 => do
    if ← accept .flowSequenceEnd then return []
    if !first then expect .flowEntry
    if ← accept .key then
      let pair ← flowPair n
      return .mapping none none [pair] :: (← flowItems false n)
    else if ← accept .flowSequenceEnd then return []
    else
      let item ← node false false n
      return item :: (← flowItems false n)

def flowEntries (first : Bool) : Nat → Reader (List (Node × Node))
  | 0 => failure
  | n + 1 => do
    if ← accept .flowMappingEnd then return []
    if !first then expect .flowEntry
    if ← accept .key then
      let key ← optionalNode [.value, .flowEntry, .flowMappingEnd] false false n
      let value ←
        if ← accept .value then optionalNode [.flowEntry, .flowMappingEnd] false false n else pure .empty
      return (key, value) :: (← flowEntries false n)
    else if ← accept .flowMappingEnd then return []
    else
      let key ← node false false n
      return (key, .empty) :: (← flowEntries false n)

end

end Reader

/-- The directives in front of a document, of which one may give the version and each handle is given
once: the tags, and the tokens behind them. -/
def directives (versioned : Bool) (tags : List (String × String)) :
    List Token → Option (List (String × String) × List Token)
  | .version major minor :: ts =>
    if versioned || major ≠ 1 || (minor ≠ 1 && minor ≠ 2) then none else directives true tags ts
  | .tagDirective handle lead :: ts =>
    if (tags.lookup handle).isSome then none else directives versioned ((handle, lead) :: tags) ts
  | ts => some (tags, ts)

/-- The handles that need no directive. -/
def defaultTags : List (String × String) := [("!", "!"), ("!!", "tag:yaml.org,2002:")]

structure Document where
  /-- None if the text holds nothing but blanks and comments. -/
  root : Option Node

/-- Reads the only document of a text. -/
def Document.ofTokens? (tokens : List Token) : Option Document :=
  if tokens = [] then some ⟨none⟩
  else do
    let (tags, rest) ← directives false [] tokens
    let explicit := rest.head? = some .documentStart
    if !explicit && rest.length < tokens.length then none
    let content := if explicit then rest.tail else rest
    let absent := explicit && content.head?.all (· ∈ [.documentStart, .documentEnd])
    let (root, s) ←
      (if absent then pure .empty else Reader.node true false (3 * tokens.length + 4)).run
        { tokens := content, tags := tags ++ defaultTags }
    if s.tokens.all (· = .documentEnd) then return ⟨some root⟩ else none

end ContainerInit.Yaml
