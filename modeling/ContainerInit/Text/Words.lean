/-! # Command lines as words

A command line is split into words the way a shell does it, without any expansion: by blanks, with
quotes, escapes and comments. -/

namespace ContainerInit.Text

/-- Where the reading of a command line stands. -/
inductive WordMode where
  | between
  /-- After a backslash with which a word may begin. -/
  | escapedStart
  | inWord
  | escaped
  | singleQuoted
  | doubleQuoted
  | doubleQuotedEscape
  | comment
deriving DecidableEq, Repr

/-- The characters that end a word. -/
def isSeparator (c : Char) : Bool := c = ' ' || c = '\t' || c = '\n'

/-- The characters that a backslash escapes inside double quotes. -/
def isQuotedEscape (c : Char) : Bool := c = '$' || c = '\x60' || c = '"' || c = '\\'

/-- Reads on from a mode, with the characters of the word so far, last first. There are no words if a
quote is left open. -/
def splitWords (mode : WordMode) (word : List Char) : List Char → Option (List (List Char))
  | [] => match mode with
    | .between | .comment => some []
    | .inWord => some [word.reverse]
    | .escapedStart | .escaped => some [('\\' :: word).reverse]
    | .singleQuoted | .doubleQuoted | .doubleQuotedEscape => none
  | c :: cs => match mode with
    | .between =>
      if c = '\'' then splitWords .singleQuoted word cs
      else if c = '"' then splitWords .doubleQuoted word cs
      else if c = '\\' then splitWords .escapedStart word cs
      else if isSeparator c then splitWords .between word cs
      else if c = '#' then splitWords .comment word cs
      else splitWords .inWord (c :: word) cs
    | .escapedStart =>
      if c = '\n' then splitWords .between word cs else splitWords .inWord (c :: word) cs
    | .inWord =>
      if c = '\'' then splitWords .singleQuoted word cs
      else if c = '"' then splitWords .doubleQuoted word cs
      else if c = '\\' then splitWords .escaped word cs
      else if isSeparator c then (splitWords .between [] cs).map (word.reverse :: ·)
      else splitWords .inWord (c :: word) cs
    | .escaped =>
      if c = '\n' then splitWords .inWord word cs else splitWords .inWord (c :: word) cs
    | .singleQuoted =>
      if c = '\'' then splitWords .inWord word cs else splitWords .singleQuoted (c :: word) cs
    | .doubleQuoted =>
      if c = '"' then splitWords .inWord word cs
      else if c = '\\' then splitWords .doubleQuotedEscape word cs
      else splitWords .doubleQuoted (c :: word) cs
    | .doubleQuotedEscape =>
      if c = '\n' then splitWords .doubleQuoted word cs
      else if isQuotedEscape c then splitWords .doubleQuoted (c :: word) cs
      else splitWords .doubleQuoted (c :: '\\' :: word) cs
    | .comment =>
      if c = '\n' then splitWords .between word cs else splitWords .comment word cs

/-- The words of a command line; none if a quote is left open. -/
def commandWords? (s : String) : Option (List String) :=
  (splitWords .between [] s.toList).map (·.map String.ofList)

end ContainerInit.Text
