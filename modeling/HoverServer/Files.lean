import HoverServer.Bytes

/-! Plain files by their names, and the directories that a path leads through to one of them. -/
namespace HoverServer

abbrev Files := List (String × Bytes)

inductive CreateFault where
  | notFound
  | notADirectory
  | isDirectory
  | nameTooLong
  | other (message : String)
  deriving DecidableEq

def CreateFault.message : CreateFault → String
  | .notFound => "No such file or directory (os error 2)"
  | .notADirectory => "Not a directory (os error 20)"
  | .isDirectory => "Is a directory (os error 21)"
  | .nameTooLong => "File name too long (os error 36)"
  | .other message => message

namespace Files

def contents? (fs : Files) (name : String) : Option Bytes := List.lookup name fs

def put (fs : Files) (name : String) (contents : Bytes) : Files :=
  (name, contents) :: fs.filter fun file => file.1 ≠ name

end Files

/-- Directories, each by the names that lead to it from the root. A path that does not start at
the root starts at `here`. -/
structure Directories where
  all : List (List String)
  here : List String

namespace Directories

/-- The name of a file, which is its path from the root. -/
def fileName (parts : List String) : String := String.join (parts.map ("/" ++ ·))

/-- Follows the parts of a path from one directory to the next. Only the last part can lead to a
file, and nothing but slashes behind it calls for a directory. -/
def follow (d : Directories) (fs : Files) (place : List String) :
    List String → Except CreateFault String
  | [] => .error .isDirectory
  | part :: more =>
    if part = "" ∨ part = "." then follow d fs place more
    else if part = ".." then follow d fs place.dropLast more
    else if more ≠ [] ∧ ∀ p ∈ more, p = "" then .error .isDirectory
    else if 255 < part.utf8ByteSize then .error .nameTooLong
    else
      let there := place ++ [part]
      if there ∈ d.all then follow d fs there more
      else if more = [] then .ok (fileName there)
      else if (fs.contents? (fileName there)).isSome then .error .notADirectory
      else .error .notFound

/-- The file that is made at a path, where everything may be written. -/
def locate (d : Directories) (fs : Files) (path : String) : Except CreateFault String :=
  if path = "" then .error .notFound
  else if 4095 < path.utf8ByteSize then .error .nameTooLong
  else
    let parts := (path.toList.splitOn '/').map String.ofList
    d.follow fs (if parts.head? = some "" then [] else d.here) parts

end Directories
end HoverServer
