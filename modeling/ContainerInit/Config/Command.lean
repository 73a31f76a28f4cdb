import ContainerInit.Error
import ContainerInit.Text.Words

/-! # Command lines in configurations -/

namespace ContainerInit.Config

/-- Splits a command line into its words, of which there must be one. -/
def splitCommand (command : String) : Except Error (List String) :=
  match Text.commandWords? command with
  | none => .error (.invalidCommand (.unclosedQuote command))
  | some [] => .error (.invalidCommand .empty)
  | some argv => .ok argv

end ContainerInit.Config
