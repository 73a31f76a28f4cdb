import ContainerInit.Error
import ContainerInit.Text.Blank
import ContainerInit.Text.Decimal

/-! # Settings

What a configuration says about the program as a whole. A setting comes from the environment if it is
there, else from the configuration file, else it has a default. -/

namespace ContainerInit

structure Settings where
  workdir : Option String := none
  /-- Seconds for the whole of the shutdown. -/
  shutdownTimeout : Nat := 5
deriving DecidableEq, Repr

namespace Settings

/-- The settings of one source. -/
structure Layer where
  workdir : Option String := none
  shutdownTimeout : Option Nat := none
deriving DecidableEq, Repr

/-- Both sources together; the first one goes first. -/
def Layer.over (l m : Layer) : Layer :=
  ⟨l.workdir.or m.workdir, l.shutdownTimeout.or m.shutdownTimeout⟩

/-- The settings in the environment, as texts. -/
structure Environment where
  workdir : Option String := none
  shutdownTimeout : Option String := none
deriving DecidableEq, Repr

/-- Reads digits from left to right behind a number. -/
def readDigits : Nat → List Char → Except NumberFault Nat
  | n, [] => .ok n
  | n, c :: cs =>
    if !c.isDigit then .error .invalidDigit
    else
      let n := 10 * n + (c.toNat - '0'.toNat)
      if n < Nat.pow 2 64 then readDigits n cs else .error .tooLarge

/-- Reads an unsigned number of 64 bits, which may have a plus sign. -/
def readNumber : List Char → Except NumberFault Nat
  | [] => .error .empty
  | ['+'] => .error .invalidDigit
  | '+' :: ds => readDigits 0 ds
  | ds => readDigits 0 ds

/-- The settings of the environment. White space around the timeout is no part of it. -/
def Environment.layer (e : Environment) : Except Error Layer :=
  match e.shutdownTimeout with
  | none => .ok ⟨e.workdir, none⟩
  | some text =>
    let digits := Text.trim text.toList
    match readNumber digits with
    | .ok n => .ok ⟨e.workdir, some n⟩
    | .error f => .error (.invalidTimeout (String.ofList digits) f)

def ofLayer (l : Layer) : Settings := { workdir := l.workdir, shutdownTimeout := l.shutdownTimeout.getD 5 }

/-- The settings of the environment and a file. -/
def layered (e : Environment) (file : Layer) : Except Error Settings := do
  return ofLayer ((← e.layer).over file)

end Settings

end ContainerInit
