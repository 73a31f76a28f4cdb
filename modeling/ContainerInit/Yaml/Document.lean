import ContainerInit.Yaml.Node
import ContainerInit.Yaml.Value

/-! # Documents

Reading a document from its root: aliases are followed where they are met, and there is a limit to how
often that happens. A node is read as what its reader asks for, or as a value. -/

namespace ContainerInit.Yaml

namespace Node

def anchor? : Node → Option Nat
  | .scalar anchor .. | .sequence anchor .. | .mapping anchor .. => anchor
  | .alias _ => none

/-- The node and all nodes below it, in the order of the text. -/
def nodes : Node → List Node
  | .sequence a t items => .sequence a t items :: items.flatMap nodes
  | .mapping a t entries => .mapping a t entries :: entries.flatMap fun e => nodes e.1 ++ nodes e.2
  | node => [node]
termination_by node => sizeOf node
decreasing_by
  · have := List.sizeOf_lt_of_mem ‹_ ∈ items›
    simp only [sequence.sizeOf_spec]
    omega
  all_goals
    have := List.sizeOf_lt_of_mem ‹e ∈ entries›
    obtain ⟨key, value⟩ := e
    simp only [mapping.sizeOf_spec, Prod.mk.sizeOf_spec] at *
    omega

/-- The length of a node in events, of which a collection has one at each end. -/
def events (node : Node) : Nat :=
  node.nodes.foldl (fun
    | n, .scalar .. | n, .alias _ => n + 1
    | n, .sequence .. | n, .mapping .. => n + 2) 0

end Node

/-- Reads from a document, counting the aliases that are followed. -/
abbrev Visit := ReaderT Document (StateT Nat Option)

namespace Visit

variable {α : Type}

/-- The last node with an anchor of the given number. -/
def target? (d : Document) (n : Nat) : Option Node :=
  (d.root.elim [] Node.nodes).reverse.find? fun node => node.anchor? = some n

/-- Aliases may be followed this many times for each event of the document. -/
def repetitionLimit : Nat := 100

/-- The node itself, or the one that it is an alias of. -/
def follow : Node → Visit Node
  | .alias n => do
    let d ← read
    modify (· + 1)
    if (← get) > repetitionLimit * d.root.elim 0 Node.events then failure
    target? d n
  | node => pure node

/-- The text of a scalar, whatever it stands for. -/
def text (node : Node) : Visit String := do
  match ← follow node with
  | .scalar _ _ _ s => return s
  | _ => failure

/-- A number below `2 ^ 64`, which is not quoted. -/
def number (node : Node) : Visit Nat := do
  match ← follow node with
  | .scalar _ tag style s =>
    if style = .plain || (style = .literal && tag = some "tag:yaml.org,2002:int") then
      unsigned? (Nat.pow 2 64) s.toList
    else failure
  | _ => failure

/-- The entries of a mapping, of which there are none in an empty node. -/
def entries (node : Node) : Visit (List (Node × Node)) := do
  match ← follow node with
  | .mapping _ _ es => return es
  | node => if node.IsEmpty then return [] else failure

/-- The node stands for nothing. -/
def isNull : Node → Visit Bool
  | .scalar _ tag .plain s =>
    if tag = some "tag:yaml.org,2002:null" then
      if isNullWord s then return true else failure
    else return tag = none && (s = "" || isNullWord s)
  | _ => return false

/-- What a reader finds in a node, unless the node stands for nothing. -/
def optional (read : Node → Visit α) (node : Node) : Visit (Option α) := do
  let node ← follow node
  if ← isNull node then return none else return some (← read node)

/-- Collections may contain each other this many times. -/
def nestingLimit : Nat := 128

/-- The value of a scalar. -/
def scalarValue (tag : Option String) (style : Style) (s : String) : Visit Value :=
  (Value.ofScalar? tag style s : Option Value)

/-- The value of a node in which collections are nested at most `n` times. -/
def valueWithin : Nat → Node → Visit Value
  | 0, node => do
    match ← follow node with
    | .scalar _ tag style s => scalarValue tag style s
    | _ => failure
  | n + 1, node => do
    match ← follow node with
    | .scalar _ tag style s => scalarValue tag style s
    | .sequence _ tag items =>
      if tag.any Value.isLocalTag then failure
      return .list (← items.mapM (valueWithin n))
    | .mapping _ tag es =>
      if tag.any Value.isLocalTag then failure
      return .map (← es.mapM fun (k, v) => return (← valueWithin n k, ← valueWithin n v))
    | .alias _ => failure

def value (node : Node) : Visit Value := valueWithin nestingLimit node

end Visit

/-- Reads a document from its root. -/
def Document.read {α : Type} (d : Document) (visit : Visit α) : Option α :=
  ((visit.run d).run 0).map (·.1)

/-- The document of a text; none if the text is malformed or holds a second document. -/
def Document.ofText? (text : String) : Option Document := do Document.ofTokens? (← Token.ofText? text)

end ContainerInit.Yaml
