import HexConsole.Machine
import HexConsole.Text.Quoted

/-!
# Stored cartridges

A small tree of folders and files in which a cartridge is looked up by its path.
A path is first written in its normal form, without empty and `.` parts, and the
normal form is the one that a complaint shows.
-/
namespace HexConsole

/-- A slash-separated path: how many slashes it starts with (none, one or two)
and the names between the others. -/
structure RomPath where
  root : String
  names : List String
  deriving DecidableEq, Repr

namespace RomPath

/-- Two leading slashes are kept, any other number of them counts as one. -/
def rootOf (s : List Char) : String :=
  match (s.takeWhile (· = '/')).length with
  | 0 => ""
  | 2 => "//"
  | _ => "/"

/-- The pieces of a text between slashes. -/
def pieces : List Char → List (List Char)
  | [] => [[]]
  | c :: rest =>
    match pieces rest with
    | [] => [[c]]
    | piece :: more => if c = '/' then [] :: piece :: more else (c :: piece) :: more

def ofString (s : String) : RomPath where
  root := rootOf s.toList
  names := ((pieces s.toList).map String.ofList).filter fun name => name != "" && name != "."

def text (p : RomPath) : String :=
  if p.root = "" ∧ p.names = [] then "." else p.root ++ "/".intercalate p.names

end RomPath

inductive ReadFailure where
  | missing
  | notDirectory
  | isDirectory
  | nameTooLong
  /-- Any other reason, with its number. -/
  | other (number : Nat) (reason : String)
  deriving DecidableEq, Repr

namespace ReadFailure

def reason : ReadFailure → String
  | missing => "[Errno 2] No such file or directory"
  | notDirectory => "[Errno 20] Not a directory"
  | isDirectory => "[Errno 21] Is a directory"
  | nameTooLong => "[Errno 36] File name too long"
  | other number reason => "[Errno " ++ toString number ++ "] " ++ reason

def message (e : ReadFailure) (path : RomPath) : String := e.reason ++ ": " ++ quoted path.text

end ReadFailure

inductive Entry where
  | file (content : List Byte)
  | folder (entries : List (String × Entry))

/-- What can be read. The folder around the working folder lies at the top and
counts as empty. -/
structure Storage where
  /-- The working folder, where a path without a leading slash starts. -/
  work : List (String × Entry)
  /-- The topmost folder, where any other path starts. -/
  top : List (String × Entry)

namespace Storage

def longestName : Nat := 255

def longestPath : Nat := 4095

/-- Follows names from a place, given with the folders above it, innermost first.
A folder with nothing above it is above itself. -/
def follow : Entry → List Entry → List String → Except ReadFailure Entry
  | here, _, [] => .ok here
  | .file _, _, _ :: _ => .error .notDirectory
  | .folder entries, above, name :: rest =>
    if name = ".." then
      match above with
      | [] => follow (.folder entries) [] rest
      | up :: further => follow up further rest
    else if longestName < name.utf8ByteSize then .error .nameTooLong
    else match entries.lookup name with
      | none => .error .missing
      | some entry => follow entry (.folder entries :: above) rest

def read (s : Storage) (path : RomPath) : Except ReadFailure (List Byte) := do
  if longestPath < path.text.utf8ByteSize then throw .nameTooLong
  let found :=
    if path.root = "" then follow (.folder s.work) [.folder [], .folder s.top] path.names
    else follow (.folder s.top) [] path.names
  match ← found with
  | .file content => return content
  | .folder _ => throw .isDirectory

end Storage

end HexConsole
