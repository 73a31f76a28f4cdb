/-! # Reading positions

A cursor stands at a place of a YAML text. Line breaks come in one form: every break but the line and
paragraph separators is a line feed. -/

namespace ContainerInit.Yaml

/-- The characters that a YAML text may hold. -/
def isAllowed (c : Char) : Bool :=
  let n := c.toNat
  n = 0x9 || n = 0xa || n = 0xd || (0x20 ≤ n && n ≤ 0x7e) || n = 0x85 || (0xa0 ≤ n && n ≤ 0xd7ff) ||
    (0xe000 ≤ n && n ≤ 0xfffd) || 0x10000 ≤ n

/-- Brings line breaks to one form. -/
def unifyBreaks : List Char → List Char
  | [] => []
  | '\r' :: '\n' :: cs => '\n' :: unifyBreaks cs
  | c :: cs => (if c = '\r' || c = '\u0085' then '\n' else c) :: unifyBreaks cs

def isBreak (c : Char) : Bool := c = '\n' || c = '\u2028' || c = '\u2029'

def isSpace (c : Char) : Bool := c = ' ' || c = '\t'

/-- The characters of anchors, tag handles and directive names. -/
def isWordChar (c : Char) : Bool := c.isAlphanum || c = '_' || c = '-'

structure Cursor where
  rest : List Char
  index : Nat := 0
  line : Nat := 0
  column : Nat := 0

namespace Cursor

/-- The character at a distance; none at the end of the text. -/
def peekAt (c : Cursor) (n : Nat) : Option Char := c.rest[n]?

def peek (c : Cursor) : Option Char := c.rest.head?

/-- The text is over, or a blank or a break follows after `n` characters. -/
def endsWordAt (c : Cursor) (n : Nat) : Bool := (c.peekAt n).all fun x => isSpace x || isBreak x

/-- The line is over after `n` characters. -/
def endsLineAt (c : Cursor) (n : Nat) : Bool := (c.peekAt n).all isBreak

/-- Moves on by `n` characters of the line. -/
def skip (c : Cursor) (n : Nat) : Cursor :=
  { c with rest := c.rest.drop n, index := c.index + n, column := c.column + n }

/-- Moves on behind a line break. -/
def nextLine (c : Cursor) : Cursor :=
  { rest := c.rest.drop 1, index := c.index + 1, line := c.line + 1, column := 0 }

/-- The characters of the line up to the first that fails the test, and the cursor behind them. -/
def takeWhile (c : Cursor) (p : Char → Bool) : List Char × Cursor :=
  let taken := c.rest.takeWhile p
  (taken, c.skip taken.length)

def skipWhile (c : Cursor) (p : Char → Bool) : Cursor := (c.takeWhile p).2

/-- Passes over blanks and a comment. -/
def skipComment (c : Cursor) : Cursor :=
  let c := c.skipWhile isSpace
  if c.peek = some '#' then c.skipWhile fun x => !isBreak x else c

/-- The text goes on with three times the character and a blank, a break or its end, at the start of
a line. -/
def startsMarker (c : Cursor) (x : Char) : Bool :=
  c.column = 0 && c.rest.take 3 = [x, x, x] && c.endsWordAt 3

/-- A document starts or ends here. -/
def atMarker (c : Cursor) : Bool := c.startsMarker '-' || c.startsMarker '.'

end Cursor

/-- The blanks and breaks between two parts of a scalar. -/
structure Gap where
  /-- There was a line break. -/
  broken : Bool := false
  spaces : List Char := []
  firstBreak : Option Char := none
  moreBreaks : List Char := []

/-- What the gap becomes inside the scalar: a single line feed is folded to a blank. -/
def Gap.text (g : Gap) : List Char :=
  if g.broken then
    match g.firstBreak with
    | some '\n' => if g.moreBreaks = [] then [' '] else g.moreBreaks
    | some b => b :: g.moreBreaks
    | none => g.moreBreaks
  else g.spaces

/-- Passes over at most `n` blanks and breaks. A tab in front of the column `margin` of a new line is
an error. -/
def Cursor.gather (margin : Int) : Nat → Cursor → Gap → Option (Cursor × Gap)
  | 0, c, g => some (c, g)
  | n + 1, c, g =>
    match c.peek with
    | none => some (c, g)
    | some x =>
      if isSpace x then
        if g.broken then
          if x = '\t' && c.column < margin then none else gather margin n (c.skip 1) g
        else gather margin n (c.skip 1) { g with spaces := g.spaces ++ [x] }
      else if isBreak x then
        if g.broken then gather margin n c.nextLine { g with moreBreaks := g.moreBreaks ++ [x] }
        else gather margin n c.nextLine { broken := true, firstBreak := some x }
      else some (c, g)

end ContainerInit.Yaml
