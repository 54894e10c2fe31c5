import ForwardChaining.RuleBase.Reader

namespace ForwardChaining.CommandLine

/-- What stands at a place in a file tree. -/
inductive Node where
  | file (bytes : List UInt8)
  | directory

/-- Files and directories by the names on the way to them from the root, and the directory that
    relative paths begin at. A directory need not be listed if something in it is. -/
structure FileTree where
  nodes : List (List String × Node)
  workingDirectory : List String

/-- Why a path cannot be read as a file. -/
inductive PathError where
  | missing
  | notADirectory
  | isADirectory
  | nameTooLong
deriving DecidableEq

/-- The wording of an error, with the number the system gives it. -/
def PathError.message : PathError → String
  | .missing => "No such file or directory (os error 2)"
  | .notADirectory => "Not a directory (os error 20)"
  | .isADirectory => "Is a directory (os error 21)"
  | .nameTooLong => "File name too long (os error 36)"

namespace FileTree

/-- What stands at a place. -/
def node? (tree : FileTree) (place : List String) : Option Node :=
  (tree.nodes.lookup place).or <|
    if (tree.workingDirectory :: tree.nodes.map Prod.fst).any place.isPrefixOf then
      some .directory
    else
      none

/-- The place that names lead to from another. Every name but the last has to be a directory's;
    one dot stays and two dots go up. -/
def walk (tree : FileTree) (place : List String) : List String → Except PathError (List String)
  | [] => .ok place
  | name :: names =>
    match tree.node? place with
    | none => .error .missing
    | some (.file _) => .error .notADirectory
    | some .directory =>
      if name = "" || name = "." then tree.walk place names
      else if name = ".." then tree.walk place.dropLast names
      else if 255 < name.utf8ByteSize then .error .nameTooLong
      else tree.walk (place ++ [name]) names

/-- The bytes of the file at a path. -/
def file (tree : FileTree) (path : String) : Except PathError (List UInt8) := do
  if 4095 < path.utf8ByteSize then
    throw .nameTooLong
  let start := if path.startsWith "/" then [] else tree.workingDirectory
  match tree.node? (← tree.walk start (path.splitOn "/")) with
  | none => throw .missing
  | some .directory => throw .isADirectory
  | some (.file bytes) => return bytes

/-- What reading a path gives. -/
def source (tree : FileTree) (path : String) : RuleBase.Source :=
  match tree.file path with
  | .ok bytes => ⟨bytes, none⟩
  | .error error => ⟨[], some error.message⟩

end FileTree

end ForwardChaining.CommandLine
