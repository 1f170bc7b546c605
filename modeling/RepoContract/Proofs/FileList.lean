/-
# RepoContract.Proofs.FileList: files are told apart by their components

A file list keeps the text of a path as it was first written, and everything that is asked of it
goes by components: whether two paths are one file, whether a file is listed, and what a path looks
like from the root. So the laws speak of components and hold for every spelling, with slashes
repeated or at the end and dots in between, where a reading of the text alone goes wrong.

Files are dropped from the front on, with all that repeat the first one (`FileList.distinct`). That
keeps the same files as asking of each whether its components are new
(`FileList.distinct_eq_firsts`), as one more file at the end shows (`FileList.distinct_concat`).
-/
import RepoContract.Proofs.Firsts
import RepoContract.Proofs.Path.Relative

namespace RepoContract.FileList

set_option autoImplicit false

/-- One more file is kept exactly when none of the same components is listed. -/
theorem distinct_concat (paths : List Path) (path : Path) :
    distinct (paths ++ [path]) =
      distinct paths ++ if path.components ∈ paths.map Path.components then [] else [path] := by
  induction paths with
  | nil => rfl
  | cons first rest ih =>
      rw [List.cons_append, distinct, distinct, ih, List.filter_append, List.cons_append,
        List.map_cons]
      congr 2
      by_cases same : path.components = first.components
      · -- the first file drops it
        have dropped : [path].filter (fun other => !samePlace first other) = [] := by
          simp [samePlace, same]
        rw [if_pos (List.mem_cons.2 (.inl same))]
        split
        · rfl
        · exact dropped
      · have kept : [path].filter (fun other => !samePlace first other) = [path] := by
          simp [samePlace, Ne.symm same]
        simp only [List.mem_cons, same, false_or]
        split
        · rfl
        · exact kept

theorem distinct_eq_firsts (paths : List Path) : distinct paths = firsts Path.components paths := by
  induction paths using List.reverseRecOn with
  | nil => rfl
  | append_singleton paths path ih =>
      rw [distinct_concat, firsts_concat, ih]
      -- the same test, decided by two instances
      congr

theorem contains_ofPaths_iff {root path : Path} {paths : List Path} :
    (ofPaths root paths).contains path = true ↔
      ∃ other ∈ paths, other.components = path.components := by
  rw [← List.mem_map, ← mem_map_firsts_iff, ← distinct_eq_firsts, contains, List.any_eq_true,
    List.mem_map]
  exact exists_congr fun other => and_congr_right fun _ => by rw [samePlace, beq_iff_eq, eq_comm]

/-- **A file list goes by components.** It keeps the paths whose components no path in front of them
has, so a subsequence of them all in which no components come twice, and for each the spelling that
came first. It contains a path if one with its components was given, and has as many files as there
are different components. A path whose components start with those of the root is shown by what
leads from the root to its place, and any other as it is; so two places below the root never look
the same. -/
theorem ofPaths_byComponents (root : Path) (paths : List Path) :
    let list := ofPaths root paths
    list.files = firsts Path.components paths ∧
      list.files.Sublist paths ∧
      (list.files.map Path.components).Nodup ∧
      (∀ place, list.files.find? (·.components = place) = paths.find? (·.components = place)) ∧
      (∀ path, list.contains path = true ↔
        ∃ other ∈ paths, other.components = path.components) ∧
      list.size = (paths.map Path.components).toFinset.card ∧
      (∀ path, root.components <+: path.components →
        (root.join (list.relative path)).components = path.components) ∧
      (∀ path, ¬ root.components <+: path.components → list.relative path = path) ∧
      ∀ path other, root.components <+: path.components → root.components <+: other.components →
        (list.relative path).components = (list.relative other).components →
          path.components = other.components := by
  intro list
  have isFirsts : list.files = firsts Path.components paths := distinct_eq_firsts paths
  refine ⟨isFirsts, ?_, ?_, fun place => ?_, fun path => contains_ofPaths_iff, ?_,
    fun path => Path.components_join_relativeTo, fun path => Path.relativeTo_of_not_isBelow,
    fun path other => Path.relativeTo_injective⟩
  · rw [isFirsts]
    exact sublist_firsts _ _
  · rw [isFirsts]
    exact nodup_map_firsts _ _
  · rw [isFirsts]
    exact find?_firsts _ _ place
  · rw [size, isFirsts]
    exact length_firsts _ _

/-- Paths in odd spellings: the first two are one file, and so are the last two, which do not lie
below the root as they do not start with its dot. -/
def oddPaths : List Path :=
  [Path.ofString "./proj/src/a.js", Path.ofString ".//proj/./src//a.js/",
    Path.ofString "./proj/../proj/src/a.js", Path.ofString "proj/src/a.js",
    Path.ofString "proj/src/./a.js"]

/-- Three files are kept in their first spellings. The second path is listed, and it looks from the
root like the first one, if not in its text; the last path is not below the root. -/
theorem ofPaths_byComponents_oddPaths :
    let root := Path.ofString ".//proj/."
    let list := ofPaths root oddPaths
    let path := Path.ofString ".//proj/./src//a.js/"
    let first := Path.ofString "./proj/src/a.js"
    let outside := Path.ofString "proj/src/./a.js"
    list.files = [first, Path.ofString "./proj/../proj/src/a.js", Path.ofString "proj/src/a.js"] ∧
      list.size = 3 ∧
      list.contains path = true ∧
      root.components <+: path.components ∧
      list.relative path = Path.ofString "src//a.js" ∧
      (root.join (list.relative path)).components = path.components ∧
      ¬ root.components <+: outside.components ∧
      list.relative outside = outside ∧
      root.components <+: first.components ∧
      (list.relative path).components = (list.relative first).components ∧
      path.components = first.components := by
  intro root list path first outside
  obtain ⟨isFirsts, -, -, -, contains, size, below, notBelow, apart⟩ :=
    ofPaths_byComponents root oddPaths
  have isBelow : root.components <+: path.components := by decide +kernel
  have firstIsBelow : root.components <+: first.components := by decide +kernel
  have isOutside : ¬ root.components <+: outside.components := by decide +kernel
  have looksSame : (list.relative path).components = (list.relative first).components := by
    decide +kernel
  refine ⟨?_, ?_, ?_, isBelow, by decide +kernel, below path isBelow, isOutside,
    notBelow outside isOutside, firstIsBelow, looksSame,
    apart path first isBelow firstIsBelow looksSame⟩
  · rw [isFirsts]
    decide +kernel
  · rw [size]
    decide +kernel
  · exact (contains path).2 ⟨first, by decide +kernel, by decide +kernel⟩

end RepoContract.FileList
