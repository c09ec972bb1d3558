/-
Files that are open for writing.

A file is opened with a cursor at its front.  What is written goes over the bytes from the cursor on,
and closing the file puts the result into the tree, so bytes that a file held before and that no
write reaches stay behind what was written.  They are gone only if the file is truncated when it is
opened, as `FileTree.create` does.

* `FileTree.openAt` — the file at a place, which is made, kept or truncated;
* `OpenFile.bytes` — what is in an open file;
* `OpenFile.close` — the tree with these bytes in the file;
* `FileTree.create` — the file of a path, made or truncated, with the directories it lies in;
* `FileTree.ofFiles` — a tree of given files.
-/
import SwapCapture.Bytes.Log
import SwapCapture.Files.Tree

namespace SwapCapture

/-- A file open for writing: `tree` has the file at `place` as it was opened, and `log` is
everything written since. -/
structure OpenFile where
  tree : FileTree
  place : Place
  log : ByteLog

/-- The bytes of the file at `place`.  There are none where no file is. -/
def FileTree.held (tree : FileTree) (place : Place) : Bytes :=
  match tree.lookup? place with
  | some (.file bytes) => bytes
  | _ => []

namespace OpenFile

def contents (file : OpenFile) : Bytes := file.log.toList

instance : Device OpenFile where
  contents := contents
  write file bytes := (.ok bytes.length, { file with log := file.log.append bytes })
  flush file := (.ok (), file)
  contents_write file bytes := by simp [contents, Device.taken]
  taken_le _ _ := Nat.le_refl _
  contents_flush _ := rfl

/-- Where the next write goes: behind everything in `log`. -/
def cursor (file : OpenFile) : Nat := file.log.size

/-- What is in the file: everything written, and behind the `cursor` what it held when it was
opened. -/
def bytes (file : OpenFile) : Bytes :=
  file.contents ++ (file.tree.held file.place).drop file.cursor

/-- The tree with `bytes` at the place of the file. -/
def close (file : OpenFile) : FileTree := file.tree.set file.place (.file file.bytes)

theorem cursor_eq (file : OpenFile) : file.cursor = file.contents.length := file.log.size_eq

/-- A write goes over the bytes from the `cursor` on, and leaves those behind it alone. -/
theorem bytes_write (file : OpenFile) (piece : Bytes) :
    (Device.write file piece).2.bytes
      = file.bytes.take file.cursor ++ piece ++ file.bytes.drop (file.cursor + piece.length) := by
  have contents_eq : (Device.write file piece).2.contents = file.contents ++ piece :=
    ByteLog.toList_append file.log piece
  have cursor_eq' : (Device.write file piece).2.cursor = file.cursor + piece.length := by
    rw [cursor_eq, contents_eq, List.length_append, cursor_eq]
  have front : file.bytes.take file.cursor = file.contents := by
    rw [bytes, cursor_eq, List.take_left]
  have back : file.bytes.drop (file.cursor + piece.length)
      = (file.tree.held file.place).drop (file.cursor + piece.length) := by
    rw [bytes, cursor_eq, ← List.drop_drop, List.drop_left, List.drop_drop]
  rw [front, back, bytes, contents_eq, cursor_eq']
  rfl

end OpenFile

namespace FileTree

/-- The file at `place`, open at its front.  It is made if there is none, and if there is one it
keeps its bytes unless it is to `truncate` them. -/
def openAt (tree : FileTree) (place : Place) (truncate : Bool) : OpenFile where
  tree :=
    if truncate || (tree.lookup? place).isNone then tree.set place (.file []) else tree
  place
  log := .empty

/-- Opens the file of `path`, truncated, after making the directories it lies in. -/
def create (tree : FileTree) (path : String) : Answer FileTree OpenFile :=
  match tree.makeParents path with
  | (.error fault, tree) => (.error fault, tree)
  | (.ok (), tree) =>
    match tree.target path with
    | .error fault => (.error fault, tree)
    | .ok place =>
      let file := tree.openAt place true
      (.ok file, file.tree)

/-- The tree with `bytes` in the file of a path.  A path that cannot be opened changes no file. -/
def write (tree : FileTree) (path : String) (bytes : Bytes) : FileTree :=
  match tree.create path with
  | (.error _, tree) => tree
  | (.ok file, _) => (Device.writeAll file bytes).2.close

/-- The tree of some files, each put there by `write`. -/
def ofFiles (files : List (String × Bytes)) : FileTree :=
  files.foldl (fun tree (path, bytes) => tree.write path bytes) empty

end FileTree

end SwapCapture
