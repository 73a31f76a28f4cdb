import ContainerInit.Yaml.Cursor

/-! # Lexemes

The parts of a YAML text that stand for themselves: scalars in their five styles, anchors, tags and
directives. Each reader answers what it has read and the cursor behind it, or nothing if the text is
malformed. -/

namespace ContainerInit.Yaml

inductive Style where
  | plain | singleQuoted | doubleQuoted | literal | folded
deriving DecidableEq, Repr

/-! ### Plain scalars -/

def isFlowIndicator (c : Char) : Bool := c = ',' || c = '[' || c = ']' || c = '\x7b' || c = '\x7d'

/-- The next part of a plain scalar without blanks. Within a flow collection its indicators end the
part, and a colon before one of them or before a question mark is an error. -/
def plainRun (flow : Bool) : List Char → Option (List Char)
  | [] => some []
  | c :: cs =>
    if isSpace c || isBreak c then some []
    else if flow && c = ':' && (cs.head?.any fun d => isFlowIndicator d || d = '?') then none
    else if c = ':' && (cs.head?.all fun d => isSpace d || isBreak d) then some []
    else if flow && isFlowIndicator c then some []
    else (plainRun flow cs).map (c :: ·)

/-- Reads a plain scalar part by part, while at most `n` characters are left. `text` is what has been
read, latest first, and `gap` what lies between it and the cursor. The answer tells whether the scalar
was followed by a line break. -/
def plainFrom (flow : Bool) (margin : Int) : Nat → Cursor → List Char → Gap → Option (List Char × Cursor × Bool)
  | 0, _, _, _ => none
  | n + 1, c, text, gap => do
    if c.atMarker || c.peek = some '#' then return (text.reverse, c, gap.broken)
    let run ← plainRun flow c.rest
    let (text, gap) := if run = [] then (text, gap) else (run.reverse ++ gap.text.reverse ++ text, {})
    let c := c.skip run.length
    if (c.peek.any fun x => isSpace x || isBreak x) = false then return (text.reverse, c, gap.broken)
    let (c, gap) ← c.gather margin n gap
    if !flow && c.column < margin then return (text.reverse, c, gap.broken)
    plainFrom flow margin n c text gap

def plainScalar (flow : Bool) (indent : Int) (c : Cursor) : Option (String × Cursor × Bool) := do
  let (text, c, broken) ← plainFrom flow (indent + 1) (c.rest.length + 1) c [] {}
  return (String.ofList text, c, broken)

/-! ### Quoted scalars -/

/-- The value of hexadecimal digits. -/
def hexValue? (ds : List Char) : Option Nat :=
  ds.foldlM (fun n d =>
    if d.isDigit then some (16 * n + (d.toNat - '0'.toNat))
    else if 'a' ≤ d && d ≤ 'f' then some (16 * n + (d.toNat - 'a'.toNat + 10))
    else if 'A' ≤ d && d ≤ 'F' then some (16 * n + (d.toNat - 'A'.toNat + 10))
    else none) 0

/-- The characters that a backslash and one more character stand for. -/
def escapes : List (Char × Char) :=
  [('0', '\x00'), ('a', '\x07'), ('b', '\x08'), ('t', '\t'), ('\t', '\t'), ('n', '\n'), ('v', '\x0b'),
    ('f', '\x0c'), ('r', '\r'), ('e', '\x1b'), (' ', ' '), ('"', '"'), ('/', '/'), ('\\', '\\'),
    ('N', '\u0085'), ('_', '\u00a0'), ('L', '\u2028'), ('P', '\u2029')]

/-- The number of digits after an escape that names a code point. -/
def codeLength? : Char → Option Nat
  | 'x' => some 2
  | 'u' => some 4
  | 'U' => some 8
  | _ => none

/-- Reads an escape behind its backslash: the character, and the length of the escape. -/
def escape? : List Char → Option (Char × Nat)
  | [] => none
  | e :: cs => match codeLength? e with
    | some k => do
      let ds := cs.take k
      if ds.length < k then none
      let n ← hexValue? ds
      if (0xd800 ≤ n && n ≤ 0xdfff) || 0x10ffff < n then none
      return (Char.ofNat n, k + 1)
    | none => (escapes.lookup e).map (·, 1)

/-- Reads a part of a quoted scalar without blanks, behind what has been read of it, latest first. The
flag tells that it ended with an escaped line break. -/
def quotedRun (single : Bool) : Nat → Cursor → List Char → Option (List Char × Cursor × Bool)
  | 0, c, run => some (run.reverse, c, false)
  | n + 1, c, run => match c.rest with
    | [] => some (run.reverse, c, false)
    | x :: cs =>
      if isSpace x || isBreak x then some (run.reverse, c, false)
      else if single && x = '\'' && cs.head? = some '\'' then quotedRun single n (c.skip 2) ('\'' :: run)
      else if x = (if single then '\'' else '"') then some (run.reverse, c, false)
      else if !single && x = '\\' then
        if cs.head?.any isBreak then some (run.reverse, (c.skip 1).nextLine, true)
        else match escape? cs with
          | none => none
          | some (e, k) => quotedRun single n (c.skip (k + 1)) (e :: run)
      else quotedRun single n (c.skip 1) (x :: run)

/-- Reads a quoted scalar part by part, behind its opening quote and the text read so far. -/
def quotedFrom (single : Bool) : Nat → Cursor → List Char → Option (List Char × Cursor)
  | 0, _, _ => none
  | n + 1, c, text => do
    if c.atMarker || c.peek = none then none
    let (run, c, escaped) ← quotedRun single c.rest.length c []
    let text := text ++ run
    if c.peek = some (if single then '\'' else '"') then return (text, c.skip 1)
    let (c, gap) ← c.gather 0 c.rest.length { broken := escaped }
    quotedFrom single n c (text ++ gap.text)

def quotedScalar (single : Bool) (c : Cursor) : Option (String × Cursor) := do
  let (text, c) ← quotedFrom single (c.rest.length + 1) (c.skip 1) []
  return (String.ofList text, c)

/-! ### Block scalars -/

/-- Passes over empty lines and the indentation of the line after them. The indentation is taken from
the text where `indent` is none; a tab in place of it is an error. Answers the breaks passed over and
the greatest column that was reached. -/
def blockBreaks (indent : Option Nat) : Nat → Cursor → List Char → Nat → Option (List Char × Cursor × Nat)
  | 0, c, breaks, widest => some (breaks, c, widest)
  | n + 1, c, breaks, widest =>
    let inside (column : Nat) := indent.all fun i => column < i
    let blanks := (c.rest.takeWhile (· = ' ')).length
    let c := c.skip (indent.elim blanks fun i => min blanks (i - c.column))
    let widest := max widest c.column
    match c.peek with
    | none => some (breaks, c, widest)
    | some x =>
      if inside c.column && x = '\t' then none
      else if isBreak x then blockBreaks indent n c.nextLine (breaks ++ [x]) widest
      else some (breaks, c, widest)

/-- What happens to the line breaks at the end of a block scalar. -/
inductive Chomping where
  | strip | clip | keep
deriving DecidableEq, Repr

structure BlockState where
  text : List Char := []
  /-- The break after the last line. -/
  lastBreak : List Char := []
  /-- The breaks of the empty lines after that. -/
  moreBreaks : List Char := []
  /-- The last line began with a blank. -/
  blankLine : Bool := false

/-- Reads the lines of a block scalar. -/
def blockLines (folded : Bool) (indent : Nat) : Nat → Cursor → BlockState → Option (BlockState × Cursor)
  | 0, c, s => some (s, c)
  | n + 1, c, s =>
    if c.column ≠ indent || c.peek = none then some (s, c)
    else do
      let blank := c.peek.any isSpace
      let joint :=
        if folded && s.lastBreak = ['\n'] && !s.blankLine && !blank then
          if s.moreBreaks = [] then [' '] else []
        else s.lastBreak
      let (line, c) := c.takeWhile fun x => !isBreak x
      let lastBreak := c.peek.toList
      let c := if c.peek.isSome then c.nextLine else c
      let (moreBreaks, c, _) ← blockBreaks (some indent) (c.rest.length + 1) c [] 0
      blockLines folded indent n c
        { text := s.text ++ joint ++ s.moreBreaks ++ line, lastBreak, moreBreaks, blankLine := blank }

/-- Reads the indicators behind the first one: chomping, and a number for the indentation. -/
def blockHeader (c : Cursor) : Option (Chomping × Option Nat × Cursor) :=
  let chomping? (c : Cursor) : Option Chomping := match c.peek with
    | some '+' => some .keep
    | some '-' => some .strip
    | _ => none
  let number? (c : Cursor) : Option Nat := c.peek.bind fun x =>
    if x.isDigit then some (x.toNat - '0'.toNat) else none
  match chomping? c with
  | some h =>
    let c := c.skip 1
    match number? c with
    | some 0 => none
    | some k => some (h, some k, c.skip 1)
    | none => some (h, none, c)
  | none => match number? c with
    | some 0 => none
    | some k =>
      let c := c.skip 1
      match chomping? c with
      | some h => some (h, some k, c.skip 1)
      | none => some (.clip, some k, c)
    | none => some (.clip, none, c)

/-- Reads a block scalar inside a collection of the given indentation. -/
def blockScalar (folded : Bool) (parent : Int) (c : Cursor) : Option (String × Cursor) := do
  let (chomping, increment, c) ← blockHeader (c.skip 1)
  let c := c.skipComment
  if !c.endsLineAt 0 then none
  let c := if c.peek.isSome then c.nextLine else c
  let given : Option Nat := increment.map fun k => (max parent 0).toNat + k
  let (breaks, c, widest) ← blockBreaks given (c.rest.length + 1) c [] 0
  let indent := given.getD (max (max widest (parent + 1).toNat) 1)
  let (s, c) ← blockLines folded indent (c.rest.length + 1) c { moreBreaks := breaks }
  let tail := match chomping with
    | .strip => []
    | .clip => s.lastBreak
    | .keep => s.lastBreak ++ s.moreBreaks
  return (String.ofList (s.text ++ tail), c)

/-! ### Anchors, tags and directives -/

/-- Reads the name of an anchor or an alias behind its indicator. -/
def anchorName (c : Cursor) : Option (String × Cursor) :=
  let (name, c) := (c.skip 1).takeWhile isWordChar
  if name ≠ [] && (c.peek.all fun x => isSpace x || isBreak x || "?:,]\x7d%@\x60".contains x) then
    some (String.ofList name, c)
  else none

/-- The length of a character by the first byte of its encoding. -/
def encodedLength? (n : Nat) : Option Nat :=
  if n < 0x80 then some 1
  else if 0xc0 ≤ n && n < 0xe0 then some 2
  else if 0xe0 ≤ n && n < 0xf0 then some 3
  else if 0xf0 ≤ n && n < 0xf8 then some 4
  else none

/-- Reads a byte written as a percent sign and two digits. -/
def percentByte? (cs : List Char) : Option Nat :=
  match cs with
  | '%' :: a :: b :: _ => hexValue? [a, b]
  | _ => none

/-- Reads a character whose bytes are written with percent signs: the character, and how many bytes
it takes. -/
def percentChar? (cs : List Char) : Option (Char × Nat) := do
  let first ← percentByte? cs
  let length ← encodedLength? first
  let lead := if length = 1 then first else first % Nat.pow 2 (7 - length)
  let others ← ((List.range (length - 1)).mapM fun i => percentByte? (cs.drop (3 * (i + 1))))
  if others.all fun b => 0x80 ≤ b && b < 0xc0 then
    return (Char.ofNat (others.foldl (fun n b => 64 * n + b % 64) lead), length)
  else none

/-- The characters of a tag; the last ones only where the tag is written out in full. -/
def isTagChar (full : Bool) (c : Char) : Bool :=
  isWordChar c || ";/?:@&=+$.!~*'()%".contains c || (full && ",[]".contains c)

/-- Reads the characters of a tag. -/
def tagText (full : Bool) : Nat → Cursor → List Char → Option (List Char × Cursor)
  | 0, c, text => some (text, c)
  | n + 1, c, text => match c.peek with
    | none => some (text, c)
    | some x =>
      if x = '%' then do
        let (e, k) ← percentChar? c.rest
        tagText full n (c.skip (3 * k)) (text ++ [e])
      else if isTagChar full x then tagText full n (c.skip 1) (text ++ [x])
      else some (text, c)

/-- Reads a tag handle: an exclamation mark, or two with a word between them. Without the second mark
what has been read is not a handle, but may be the start of a tag. -/
def tagHandle (c : Cursor) : Option (List Char × Cursor) := do
  if c.peek ≠ some '!' then none
  let (name, c) := (c.skip 1).takeWhile isWordChar
  if c.peek = some '!' then return ('!' :: name ++ ['!'], c.skip 1) else return ('!' :: name, c)

/-- A tag as it is written: a handle, which may be empty, and a suffix. -/
structure TagName where
  handle : String
  suffix : String
deriving DecidableEq, Repr

/-- Reads a tag without what has to follow it. -/
def tagName (c : Cursor) : Option (TagName × Cursor) := do
  if c.peekAt 1 = some '<' then
    let (text, c) ← tagText true c.rest.length (c.skip 2) []
    if text = [] || c.peek ≠ some '>' then none
    return (⟨"", String.ofList text⟩, c.skip 1)
  else
    let (handle, c) ← tagHandle c
    if 2 ≤ handle.length && handle.getLast? = some '!' then
      let (text, c) ← tagText false c.rest.length c []
      if text = [] then none
      return (⟨String.ofList handle, String.ofList text⟩, c)
    else
      let (text, c) ← tagText false c.rest.length c (handle.drop 1)
      if text = [] then return (⟨"", "!"⟩, c) else return (⟨"!", String.ofList text⟩, c)

/-- Reads a tag, which ends with a blank, a break or, in a flow collection, a comma. -/
def tag (flow : Bool) (c : Cursor) : Option (TagName × Cursor) := do
  let (t, c) ← tagName c
  if c.endsWordAt 0 || (flow && c.peek = some ',') then return (t, c) else none

inductive Directive where
  | version (major minor : Nat)
  | tag (handle lead : String)
deriving DecidableEq, Repr

/-- Reads a number of at most nine digits. -/
def versionNumber (c : Cursor) : Option (Nat × Cursor) :=
  let (ds, c) := c.takeWhile Char.isDigit
  if ds = [] || 9 < ds.length then none
  else some (ds.foldl (fun n d => 10 * n + (d.toNat - '0'.toNat)) 0, c)

/-- Reads a directive with the end of its line. -/
def directive (c : Cursor) : Option (Directive × Cursor) := do
  let (name, c) := (c.skip 1).takeWhile isWordChar
  if name = [] || !c.endsWordAt 0 then none
  let c := c.skipWhile isSpace
  let (d, c) ← match String.ofList name with
    | "YAML" => do
      let (major, c) ← versionNumber c
      if c.peek ≠ some '.' then none
      let (minor, c) ← versionNumber (c.skip 1)
      pure (Directive.version major minor, c)
    | "TAG" => do
      let (handle, c) ← tagHandle c
      if handle ≠ ['!'] && handle.getLast? ≠ some '!' then none
      if !(c.peek.any isSpace) then none
      let (lead, c) ← tagText true c.rest.length (c.skipWhile isSpace) []
      if lead = [] || !c.endsWordAt 0 then none
      pure (Directive.tag (String.ofList handle) (String.ofList lead), c)
    | _ => none
  let c := c.skipComment
  if !c.endsLineAt 0 then none
  return (d, if c.peek.isSome then c.nextLine else c)

end ContainerInit.Yaml
