/-!
# Paths

A path is text with parts between slashes. Empty parts and single dots do not count. A path has no zero
character and less than 4096 bytes, the name of a file at most 255.
-/

namespace ToolChanger.Path

def parts (path : String) : List String :=
  ((path.toList.splitOn '/').filter fun part => part ≠ [] && part ≠ ['.']).map String.ofList

def isAbsolute (path : String) : Bool := path.toList.head? == some '/'

/-- Whether a path can only be that of a directory, by how it ends. -/
def namesDirectory (path : String) : Bool :=
  match (path.toList.splitOn '/').getLast? with
  | none | some [] | some ['.'] => true
  | some _ => false

/-- Whether a path ends in a single dot, slashes after it aside. -/
def endsInDot (path : String) : Bool :=
  ((path.toList.splitOn '/').filter (· ≠ [])).getLast? == some ['.']

def parent (path : String) : String :=
  (if isAbsolute path then "/" else "") ++ "/".intercalate (parts path).dropLast

def isPath (text : String) : Bool := !text.toList.contains '\x00' && text.utf8ByteSize < 4096

def isName (part : String) : Bool := part.utf8ByteSize ≤ 255

/-- The last part, unless it leads back to the parent. -/
def fileName? (path : String) : Option String := (parts path).getLast?.filter (· ≠ "..")

/-- What follows the last point of the file's name. A point in front makes no extension. -/
def extension? (path : String) : Option String := do
  let name ← fileName? path
  let reversed := name.toList.reverse
  let tail := reversed.takeWhile (· ≠ '.')
  let stem := (reversed.dropWhile (· ≠ '.')).drop 1
  if stem.isEmpty then none else some (String.ofList tail.reverse)

def join (directory file : String) : String :=
  if directory.isEmpty then file
  else if directory.toList.getLast? = some '/' then directory ++ file
  else directory ++ "/" ++ file

end ToolChanger.Path
