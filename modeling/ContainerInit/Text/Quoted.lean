import ContainerInit.Text.Printable

/-! # Quoted text

Texts as they appear inside messages: in double quotes, with escapes for what has no visible form.
Names and paths are quoted as characters; the command line of a program is quoted as bytes, where
ASCII control characters are written as two hexadecimal digits. -/

namespace ContainerInit.Text

def hexDigit (n : Nat) : Char := Nat.digitChar n

/-- The lower case hexadecimal digits of a number. -/
def hex (n : Nat) : String := String.ofList (Nat.toDigits 16 n)

/-- The escape of a character by its code point. -/
def codePointEscape (c : Char) : String := "\\u\x7b" ++ hex c.toNat ++ "\x7d"

/-- A character inside quotes that needs no escape of its own, or one by its code point. -/
def quoteWide (c : Char) : String :=
  if ' ' ≤ c && c ≤ '~' then c.toString
  else if isExtending c || isInvisible c then codePointEscape c
  else c.toString

def quoteChar : Char → String
  | '\x00' => "\\0"
  | '\t' => "\\t"
  | '\n' => "\\n"
  | '\r' => "\\r"
  | '"' => "\\\""
  | '\\' => "\\\\"
  | c => quoteWide c

/-- A text in quotes. -/
def quote (s : String) : String := "\"" ++ String.join (s.toList.map quoteChar) ++ "\""

def quoteByteChar : Char → String
  | '\x00' => "\\0"
  | '\t' => "\\t"
  | '\n' => "\\n"
  | '\r' => "\\r"
  | '"' => "\\\""
  | '\'' => "\\'"
  | '\\' => "\\\\"
  | c =>
    if c.toNat < 0x20 || c.toNat = 0x7f then
      "\\x" ++ String.ofList [hexDigit (c.toNat / 16), hexDigit (c.toNat % 16)]
    else if c.toNat < 0x80 then c.toString
    else quoteWide c

/-- A text in quotes, as the bytes that a system call takes. -/
def quoteBytes (s : String) : String := "\"" ++ String.join (s.toList.map quoteByteChar) ++ "\""

/-- A list of texts, each in quotes. -/
def quoteList (ss : List String) : String := "[" ++ ", ".intercalate (ss.map quote) ++ "]"

end ContainerInit.Text
