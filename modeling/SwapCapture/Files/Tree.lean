/-
A tree of files and directories, and the paths that lead into it.

Directories have numbers, and an entry says what a name in one of them stands for.  A path is read
from the left, starting at the home directory of the tree: a point stays where it is, two points
go up, and any other name goes down, which takes a directory of that name.  A path that ends in a
slash or in points can only stand for a directory.  Names and paths have a greatest length, and no
path has a NUL in it.

* `FileTree.walk` — the way that a list of names leads;
* `FileTree.makeDirectories` — a directory and whatever is missing on the way to it;
* `FileTree.makeParents` — the directories that a path lies in;
* `FileTree.target` — the place of the file that a path stands for;
* `FileTree.read?` — the content of the file that a path stands for.
-/
import SwapCapture.Device.Basic
import SwapCapture.Text.Fields

namespace SwapCapture

abbrev Name := List Char

def Name.size (name : Name) : Nat := name.foldr (fun c n => c.utf8Size + n) 0

/-- A name in a directory, whether it stands for anything or not. -/
structure Place where
  directory : Nat
  name : Name
deriving DecidableEq, Repr

inductive Entry where
  | file (bytes : Bytes)
  /-- A directory, by its number. -/
  | directory (id : Nat)
deriving DecidableEq, Repr

/-- Files and directories.  An entry hides those behind it in `entries` that are at the same place.
-/
structure FileTree where
  entries : List (Place × Entry)
deriving DecidableEq, Repr

/-- The way from the root down to a directory: the numbers of the directories on it without the
root, the last one first. -/
abbrev Way := List Nat

/-- The number of the directory that a way leads to, which is `0` for the root. -/
def Way.last (way : Way) : Nat := way.headD 0

namespace FileTree

/-- A tree without files, and without directories besides the root and `home`. -/
def empty : FileTree := ⟨[]⟩

/-- The way to the home directory, where all paths start.  It has no name in the root, so only `..`
leads out of it and nothing leads back. -/
def home : Way := [1]

def lookup? (tree : FileTree) (place : Place) : Option Entry := tree.entries.lookup place

def set (tree : FileTree) (place : Place) (entry : Entry) : FileTree :=
  ⟨(place, entry) :: tree.entries⟩

/-- The number of the next directory to be made.  Every one of `entries` takes a number, so no two
directories have the same. -/
def nextDirectory (tree : FileTree) : Nat := tree.entries.length + 2

def here : Name := ['.']

def above : Name := ['.', '.']

def maxName : Nat := 255

/-- What `name` stands for in the directory at the end of `way`. -/
def find? (tree : FileTree) (way : Way) (name : Name) : Except DeviceFault (Option Entry) :=
  if maxName < name.size then .error .nameTooLong else .ok (tree.lookup? ⟨way.last, name⟩)

/-- One step from a directory to another; `here` and `above` need no entry. -/
def enter (tree : FileTree) (way : Way) (name : Name) : Except DeviceFault Way :=
  if name = here then .ok way
  else if name = above then .ok way.tail
  else
    match tree.find? way name with
    | .error fault => .error fault
    | .ok none => .error .notFound
    | .ok (some (.file _)) => .error .notADirectory
    | .ok (some (.directory id)) => .ok (id :: way)

/-- The way to the directory that `names` lead to from the end of `way`. -/
def walk (tree : FileTree) (way : Way) : List Name → Except DeviceFault Way
  | [] => .ok way
  | name :: names =>
    match tree.enter way name with
    | .error fault => .error fault
    | .ok way => walk tree way names

/-- Goes along `names`, which lead to directories, and makes those that are missing.  A file in the
place of one of them is in the way of making it. -/
def makeMissing (tree : FileTree) (way : Way) : List Name → Answer FileTree Unit
  | [] => (.ok (), tree)
  | name :: names =>
    match tree.enter way name with
    | .ok way => makeMissing tree way names
    | .error .notFound =>
      let id := tree.nextDirectory
      makeMissing (tree.set ⟨way.last, name⟩ (.directory id)) (id :: way) names
    | .error .notADirectory => (.error .alreadyExists, tree)
    | .error fault => (.error fault, tree)

/-- Makes the directory that `names` lead to, and before it those that are missing on the way.
As long as nothing is missing nothing is made but the last directory, so a file in the place of
another one is no directory to go through. -/
def makeDirectories (tree : FileTree) (way : Way) : List Name → Answer FileTree Unit
  | [] => (.ok (), tree)
  | name :: names =>
    match tree.enter way name with
    | .ok way => makeDirectories tree way names
    | .error .notFound => tree.makeMissing way (name :: names)
    | .error .notADirectory =>
      (.error (if names.isEmpty then .alreadyExists else .notADirectory), tree)
    | .error fault => (.error fault, tree)

/-- The pieces of a path between its slashes, some of which may be empty. -/
def pieces (path : String) : List Name := Text.fields '/' path.toList

/-- Whether a piece of a path leads nowhere: an empty one does, and `here`. -/
def isIdle (piece : Name) : Bool := piece.isEmpty || piece == here

/-- The number of bytes that a path may have, with the NUL that is put at its end. -/
def maxPath : Nat := 4096

/-- What is wrong with a path, given by its `pieces`, whatever the tree has in it.  Behind each
piece there is one more byte, a slash or the NUL at the end. -/
def spellingFault? (pieces : List Name) : Option DeviceFault :=
  if pieces.any fun piece => piece.contains '\x00' then some .nulInPath
  else if maxPath < pieces.foldr (fun piece n => piece.size + 1 + n) 0 then some .nameTooLong
  else none

/-- The pieces of the directory that a path lies in: those in front of the last one that is not
`isIdle`. -/
def parentPieces (path : String) : List Name :=
  (((pieces path).reverse.dropWhile isIdle).tail.dropWhile isIdle).reverse

/-- Makes the directories that `parentPieces` names. -/
def makeParents (tree : FileTree) (path : String) : Answer FileTree Unit :=
  match spellingFault? (parentPieces path) with
  | some fault => (.error fault, tree)
  | none => tree.makeDirectories home ((parentPieces path).filter fun piece => !isIdle piece)

/-- The names of a path, `here` and `above` among them. -/
def names (path : String) : List Name := (pieces path).filter fun piece => !piece.isEmpty

/-- The last name of a path, unless the path ends in a slash, in `.` or in `..`. -/
def fileName? (path : String) : Option Name :=
  match (pieces path).getLast? with
  | none => none
  | some last => if isIdle last || last == above then none else some last

/-- The place of the file that `path` stands for, whether there is one or not. -/
def target (tree : FileTree) (path : String) : Except DeviceFault Place :=
  if path.isEmpty then .error .notFound
  else
    match spellingFault? (pieces path) with
    | some fault => .error fault
    | none =>
      match tree.walk home (names path).dropLast, fileName? path with
      | .error fault, _ => .error fault
      | .ok _, none => .error .isADirectory
      | .ok way, some name =>
        match tree.find? way name with
        | .error fault => .error fault
        | .ok (some (.directory _)) => .error .isADirectory
        | .ok _ => .ok ⟨way.last, name⟩

/-- The content of the file that `path` stands for. -/
def read? (tree : FileTree) (path : String) : Option Bytes :=
  match tree.target path with
  | .error _ => none
  | .ok place =>
    match tree.lookup? place with
    | some (.file bytes) => some bytes
    | _ => none

end FileTree

end SwapCapture
