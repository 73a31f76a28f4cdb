import ContainerInit.Yaml.Lexeme

/-! # Tokens

A YAML text as a list of tokens. Indentation becomes tokens of its own: `blockSequenceStart` and
`blockMappingStart` where a block collection begins, `blockEnd` where it ends. A mapping key is only
known by the colon after it, so `key` tokens are put in front of their keys when all tokens are read. -/

namespace ContainerInit.Yaml

inductive Token where
  | version (major minor : Nat)
  | tagDirective (handle lead : String)
  | documentStart
  | documentEnd
  | blockSequenceStart
  | blockMappingStart
  | blockEnd
  | flowSequenceStart
  | flowSequenceEnd
  | flowMappingStart
  | flowMappingEnd
  | blockEntry
  | flowEntry
  | key
  | value
  | alias (name : String)
  | anchor (name : String)
  | tag (name : TagName)
  | scalar (style : Style) (text : String)
deriving DecidableEq, Repr

/-- A place where a mapping key may have begun. -/
structure KeyPlace where
  /-- Only a key can stand there. -/
  required : Bool
  /-- The number of tokens in front of it. -/
  position : Nat
  line : Nat
  index : Nat
  column : Nat

/-- A key has its colon on the same line and not much further on. -/
def KeyPlace.isPassed (k : KeyPlace) (c : Cursor) : Bool := k.line < c.line || k.index + 1024 < c.index

structure Scan where
  cursor : Cursor
  /-- The tokens read so far, the latest first. -/
  tokens : List Token := []
  /-- Where keys are, and whether a block mapping starts there. -/
  keys : List (Nat × Bool) := []
  /-- Where a key may have begun in the innermost collection. -/
  place : Option KeyPlace := none
  /-- The same for each collection around the flow collections that are open. -/
  outerPlaces : List (Option KeyPlace) := []
  /-- The columns of the open block collections, the innermost first. -/
  columns : List Nat := []
  keyAllowed : Bool := true

namespace Scan

variable (s : Scan)

def inFlow : Bool := !s.outerPlaces.isEmpty

/-- The column of the innermost block collection, and -1 outside of all. -/
def indent : Int := s.columns.head?.elim (-1) Int.ofNat

def add (t : Token) : Scan := { s with tokens := t :: s.tokens }

/-- Adds a token that takes `n` characters. -/
def take (n : Nat) (t : Token) : Scan := { s.add t with cursor := s.cursor.skip n }

def allowKey (allowed : Bool) : Scan := { s with keyAllowed := allowed }

/-- Nothing that has been read becomes a key any more. -/
def forgetPlace : Option Scan :=
  if s.place.any (·.required) then none else some { s with place := none }

/-- A key may begin here. -/
def markPlace : Option Scan :=
  if s.keyAllowed then do
    let c := s.cursor
    let required := !s.inFlow && s.columns.head? = some c.column
    let place : KeyPlace := ⟨required, s.tokens.length, c.line, c.index, c.column⟩
    return { ← s.forgetPlace with place }
  else some s

/-- Gives up the places that no colon can turn into keys any more. -/
def forgetPassed : Option Scan :=
  let passed (k : KeyPlace) : Bool := k.isPassed s.cursor
  if (s.place :: s.outerPlaces).any (·.any fun k => k.required && passed k) then none
  else some { s with
    place := s.place.filter (!passed ·), outerPlaces := s.outerPlaces.map (·.filter (!passed ·)) }

/-- Ends the block collections whose column does not pass the test. -/
def closeBlocks (stays : Nat → Bool) : Scan :=
  if s.inFlow then s
  else
    let columns := s.columns.dropWhile (!stays ·)
    let closed := s.columns.length - columns.length
    { s with columns, tokens := List.replicate closed .blockEnd ++ s.tokens }

/-- A block collection begins at a column unless one is open there. -/
def opensBlock (column : Nat) : Bool := !s.inFlow && s.columns.head?.all (· < column)

/-- Begins a block collection here unless one is open at this column. -/
def openBlock (t : Token) : Scan :=
  if s.opensBlock s.cursor.column then { s.add t with columns := s.cursor.column :: s.columns } else s

/-- Passes over blanks, comments and breaks. In front of what may be a key of a block collection a
tab is no blank. -/
def toToken : Nat → Scan → Scan
  | 0, s => s
  | n + 1, s =>
    let c := if s.cursor.column = 0 && s.cursor.peek = some '\ufeff' then s.cursor.skip 1 else s.cursor
    let c := c.skipWhile fun x => x = ' ' || (x = '\t' && (s.inFlow || !s.keyAllowed))
    let c := if c.peek = some '#' then c.skipWhile fun x => !isBreak x else c
    if c.peek.any isBreak then
      toToken n { s with cursor := c.nextLine, keyAllowed := s.keyAllowed || !s.inFlow }
    else { s with cursor := c }

/-- Leaves all block collections, as at the ends of a document. -/
def leaveBlocks : Option Scan := (s.closeBlocks fun _ => false).forgetPlace

def readDirective : Option Scan := do
  let s ← s.leaveBlocks
  let (d, cursor) ← directive s.cursor
  let s := match d with
    | .version major minor => s.add (.version major minor)
    | .tag handle lead => s.add (.tagDirective handle lead)
  return { s with cursor, keyAllowed := false }

def readMarker (t : Token) : Option Scan := do
  return ((← s.leaveBlocks).take 3 t).allowKey false

def openFlow (t : Token) : Option Scan := do
  let s ← s.markPlace
  return { s.take 1 t with place := none, outerPlaces := s.place :: s.outerPlaces, keyAllowed := true }

def closeFlow (t : Token) : Option Scan := do
  let s ← s.forgetPlace
  let s := (s.take 1 t).allowKey false
  return { s with place := s.outerPlaces.head?.join, outerPlaces := s.outerPlaces.tail }

def readFlowEntry : Option Scan := do return ((← s.forgetPlace).take 1 .flowEntry).allowKey true

def readBlockEntry : Option Scan := do
  if !s.inFlow && !s.keyAllowed then none
  let s ← (s.openBlock .blockSequenceStart).forgetPlace
  return (s.take 1 .blockEntry).allowKey true

def readKey : Option Scan := do
  if !s.inFlow && !s.keyAllowed then none
  let s ← (s.openBlock .blockMappingStart).forgetPlace
  return (s.take 1 .key).allowKey (!s.inFlow)

def readValue : Option Scan :=
  match s.place with
  | some k =>
    let opens := s.opensBlock k.column
    let columns := if opens then k.column :: s.columns else s.columns
    some { s.take 1 .value with place := none, keys := (k.position, opens) :: s.keys, columns, keyAllowed := false }
  | none => do
    if !s.inFlow && !s.keyAllowed then none
    return ((s.openBlock .blockMappingStart).take 1 .value).allowKey (!s.inFlow)

def readBlockScalar (folded : Bool) : Option Scan := do
  let s ← s.forgetPlace
  let (text, cursor) ← blockScalar folded s.indent s.cursor
  return { s.add (.scalar (if folded then .folded else .literal) text) with cursor, keyAllowed := true }

/-- Reads a lexeme that may begin a key. -/
def readLexeme {α : Type} (read : Cursor → Option (α × Cursor)) (token : α → Token) : Option Scan := do
  let s ← s.markPlace
  let (a, cursor) ← read s.cursor
  return { s.add (token a) with cursor, keyAllowed := false }

def readPlain : Option Scan := do
  let s ← s.markPlace
  let (text, cursor, broken) ← plainScalar s.inFlow s.indent s.cursor
  return { s.add (.scalar .plain text) with cursor, keyAllowed := broken }

/-- A plain scalar can begin with the character. -/
def startsPlain (x : Char) : Bool :=
  !(isSpace x || isBreak x || "-?:,[]\x7b\x7d#&*!|>'\"%@\x60".contains x) ||
    (x = '-' && !(s.cursor.peekAt 1).any isSpace) ||
    (!s.inFlow && (x = '?' || x = ':') && !s.cursor.endsWordAt 1)

/-- Reads the token that begins with the character `x` under the cursor. -/
def readToken (x : Char) : Option Scan :=
  let c := s.cursor
  if c.column = 0 && x = '%' then s.readDirective
  else if c.startsMarker '-' then s.readMarker .documentStart
  else if c.startsMarker '.' then s.readMarker .documentEnd
  else if x = '[' then s.openFlow .flowSequenceStart
  else if x = '\x7b' then s.openFlow .flowMappingStart
  else if x = ']' then s.closeFlow .flowSequenceEnd
  else if x = '\x7d' then s.closeFlow .flowMappingEnd
  else if x = ',' then s.readFlowEntry
  else if x = '-' && c.endsWordAt 1 then s.readBlockEntry
  else if x = '?' && (s.inFlow || c.endsWordAt 1) then s.readKey
  else if x = ':' && (s.inFlow || c.endsWordAt 1) then s.readValue
  else if x = '*' then s.readLexeme anchorName .alias
  else if x = '&' then s.readLexeme anchorName .anchor
  else if x = '!' then s.readLexeme (tag s.inFlow) .tag
  else if x = '|' && !s.inFlow then s.readBlockScalar false
  else if x = '>' && !s.inFlow then s.readBlockScalar true
  else if x = '\'' then s.readLexeme (quotedScalar true) (.scalar .singleQuoted)
  else if x = '"' then s.readLexeme (quotedScalar false) (.scalar .doubleQuoted)
  else if s.startsPlain x then s.readPlain
  else none

/-- Reads at most `n` tokens and the end of the text. -/
def run : Nat → Scan → Option Scan
  | 0, _ => none
  | n + 1, s => do
    let s ← (toToken (s.cursor.rest.length + 1) s).forgetPassed
    match s.cursor.peek with
    | none => s.leaveBlocks
    | some x => run n (← (s.closeBlocks (· ≤ s.cursor.column)).readToken x)

/-- Puts the `key` tokens in front of their keys; `n` is the position of the first token. -/
def insertKeys (keys : List (Nat × Bool)) : Nat → List Token → List Token
  | _, [] => []
  | n, t :: ts =>
    let here := match keys.lookup n with
      | some true => [.blockMappingStart, .key]
      | some false => [.key]
      | none => []
    here ++ t :: insertKeys keys (n + 1) ts

end Scan

/-- The tokens of a text; none if it is malformed. -/
def Token.ofText? (text : String) : Option (List Token) := do
  let cs := text.toList
  if !cs.all isAllowed then none
  let cs := if cs.head? = some '\ufeff' then cs.tail else cs
  let s ← Scan.run (cs.length + 1) { cursor := { rest := unifyBreaks cs } }
  return Scan.insertKeys s.keys 0 s.tokens.reverse

end ContainerInit.Yaml
