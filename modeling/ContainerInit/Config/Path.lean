import ContainerInit.Text.Split

/-! # Paths

Paths as texts. Nothing is looked up and nothing is simplified, but the parent of a path leaves out
components that say nothing. -/

namespace ContainerInit.Path

def isAbsolute (path : String) : Bool := path.toList.head? = some '/'

/-- A path from a directory on; an absolute path stays as it is. -/
def join (directory path : String) : String :=
  if isAbsolute path || directory = "" then path
  else if directory.toList.getLast? = some '/' then directory ++ path
  else directory ++ "/" ++ path

/-- The component in front of all others that makes a path absolute or tells that it is relative. -/
def lead (path : List Char) : List Char :=
  match path with
  | '/' :: _ => ['/']
  | ['.'] => ['.']
  | '.' :: '/' :: _ => ['.']
  | _ => []

/-- Components that lead nowhere else. -/
def isIdle (component : List Char) : Bool := component = [] || component = ['.']

/-- The components without the idle ones at the end. -/
def dropIdle (components : List (List Char)) : List (List Char) :=
  (components.reverse.dropWhile isIdle).reverse

/-- The directory of what the path leads to; empty where the path does not tell. -/
def parent (path : String) : String :=
  let start := lead path.toList
  match dropIdle (Text.pieces '/' (path.toList.drop start.length)) with
  | [] => ""
  | components => String.ofList (start ++ ['/'].intercalate (dropIdle components.dropLast))

example : parent "/etc/init.yaml" = "/etc" := by decide
example : parent "init.yaml" = "" := by decide
example : parent "a//./b/" = "a" := by decide

end ContainerInit.Path
