import ContainerInit.Text.Decimal
import ContainerInit.Yaml.Lexeme

/-! # Values

What the nodes of a document stand for. A plain scalar without a tag stands for whatever it can be read
as; all other scalars are texts unless their tags say something else. -/

namespace ContainerInit.Yaml

inductive Value where
  | null
  | bool (b : Bool)
  | unsigned (n : Nat)
  /-- A number written with a minus sign, by its magnitude. -/
  | negative (n : Nat)
  /-- A number that is not written as an integer. -/
  | float
  | text (s : String)
  | list (items : List Value)
  | map (entries : List (Value × Value))
deriving Repr

/-! ### Numbers -/

/-- The base of a number by its leading characters, and its digits. -/
def baseOf : List Char → Nat × List Char
  | '0' :: 'x' :: ds => (16, ds)
  | '0' :: 'o' :: ds => (8, ds)
  | '0' :: 'b' :: ds => (2, ds)
  | ds => (10, ds)

def digit? (base : Nat) (c : Char) : Option Nat := (hexValue? [c]).filter (· < base)

/-- The value of digits in a base; there is at least one of them. -/
def natIn? (base : Nat) (ds : List Char) : Option Nat :=
  if ds = [] then none else ds.foldlM (fun n d => return base * n + (← digit? base d)) 0

/-- A decimal number does not begin with a superfluous zero. -/
def isPadded : List Char → Bool
  | '0' :: d :: ds => (d :: ds).all Char.isDigit
  | _ => false

/-- Reads a number without a sign below a bound. -/
def magnitude? (bound : Nat) (ds : List Char) : Option Nat :=
  let (base, body) := baseOf ds
  if isPadded ds then none else (natIn? base body).filter (· < bound)

/-- Reads a number below a bound that may have a plus sign. -/
def unsigned? (bound : Nat) : List Char → Option Nat
  | '+' :: ds => magnitude? bound ds
  | ds => magnitude? bound ds

/-- Reads the magnitude of a number with a minus sign, up to a bound. -/
def negative? (bound : Nat) : List Char → Option Nat
  | '-' :: ds => magnitude? (bound + 1) ds
  | _ => none

/-- A number in decimal notation: its digits, and the power of ten that they are multiplied by. -/
structure Scientific where
  digits : List Char
  power : Int

def exponent? : List Char → Option Int
  | [] => some 0
  | e :: cs =>
    if e = 'e' || e = 'E' then
      let (sign, ds) : Int × List Char := match cs with
        | '-' :: ds => (-1, ds)
        | '+' :: ds => (1, ds)
        | ds => (1, ds)
      if ds ≠ [] && ds.all Char.isDigit then some (sign * Text.digitsValue ds) else none
    else none

def Scientific.ofChars? (cs : List Char) : Option Scientific := do
  let whole := cs.takeWhile Char.isDigit
  let (fraction, cs) := match cs.dropWhile Char.isDigit with
    | '.' :: cs => (cs.takeWhile Char.isDigit, cs.dropWhile Char.isDigit)
    | cs => ([], cs)
  if whole = [] && fraction = [] then none
  return ⟨whole ++ fraction, (← exponent? cs) - fraction.length⟩

/-- The number is less than all that are rounded to infinity by a float of 64 bits. -/
def Scientific.isFinite (x : Scientific) : Bool :=
  let ds := x.digits.dropWhile (· = '0')
  let n := Text.digitsValue ds
  let point := ds.length + x.power
  let bound := Nat.pow 2 1024 - Nat.pow 2 970
  if n = 0 || point < 309 then true
  else if 309 < point then false
  else n * Nat.pow 10 x.power.toNat < bound * Nat.pow 10 (-x.power).toNat

/-- The text is a number with a point or an exponent, an infinity or no number at all. -/
def isFloat (cs : List Char) : Bool :=
  let (sign, body) : Option Char × List Char := match cs with
    | '+' :: body => (some '+', body)
    | '-' :: body => (some '-', body)
    | body => (none, body)
  let word := String.ofList body
  if ([".inf", ".Inf", ".INF"].contains word) then true
  else if ([".nan", ".NaN", ".NAN"].contains word) then sign.isNone
  else (Scientific.ofChars? body).any (·.isFinite)

/-! ### Scalars -/

def isNullWord (s : String) : Bool := ["~", "null", "Null", "NULL"].contains s

def bool? (s : String) : Option Bool :=
  if ["true", "True", "TRUE"].contains s then some true
  else if ["false", "False", "FALSE"].contains s then some false
  else none

namespace Value

/-- Reads an integer of 64 bits. An integer of up to 128 bits is an error, told apart from a text that
is no such number at all. -/
def integer? (cs : List Char) : Option (Option Value) :=
  match unsigned? (Nat.pow 2 64) cs with
  | some n => some (some (.unsigned n))
  | none => match negative? (Nat.pow 2 63) cs with
    | some n => some (some (.negative n))
    | none =>
      if (unsigned? (Nat.pow 2 128) cs).isSome || (negative? (Nat.pow 2 127) cs).isSome then some none
      else none

/-- A decimal numeral whose first digit is a superfluous zero, with or without a sign. -/
def isPaddedNumeral : List Char → Bool
  | '+' :: ds | '-' :: ds => isPadded ds
  | ds => isPadded ds

/-- What a plain scalar without a tag stands for; an integer that is too wide stands for nothing. -/
def ofPlain? (s : String) : Option Value :=
  let cs := s.toList
  if cs = [] || isNullWord s then some .null
  else match bool? s with
    | some b => some (.bool b)
    | none => match integer? cs with
      | some v => v
      | none => some (if !isPaddedNumeral cs && isFloat cs then .float else .text s)

/-- A tag that is local to a document, not one of the core tags or another global one. -/
def isLocalTag (tag : String) : Bool := tag.toList.head? = some '!'

/-- What a scalar stands for; nothing if its tag is local or does not fit its text. -/
def ofScalar? (tag : Option String) (style : Style) (s : String) : Option Value :=
  match tag with
  | none => if style = .plain then ofPlain? s else some (.text s)
  | some "tag:yaml.org,2002:bool" => (bool? s).map .bool
  | some "tag:yaml.org,2002:int" => (integer? s.toList).join
  | some "tag:yaml.org,2002:float" => if isFloat s.toList then some .float else none
  | some "tag:yaml.org,2002:null" => if isNullWord s then some .null else none
  | some tag => if isLocalTag tag then none else some (.text s)

end Value

example : Value.ofPlain? "0x1F" = some (.unsigned 31) := by rfl
example : Value.ofPlain? "017" = some (.text "017") := by rfl

end ContainerInit.Yaml
