/-
# RepoContract.Proofs.Selection.Minified: what a scan takes for minified

A name is marked as minified where `.min.` stands in it. The one fixed glob for files looks for the
mark in all of a path, as a run takes slashes too (`Eligibility.hits_minified_iff`). No slash is in
the mark, so it lies within one name of the path (`Path.infix_bytes_iff`), but this may be any of
them. So a file is included just when it has one of the extensions and none of the names that lead
to it is marked, its own or that of a directory (`Eligibility.filter_minified`). Below directories
that are not marked the last name alone decides; that it does so below any directory is refuted by
a file in a directory `app.min.d` (`Eligibility.filter_minified_dir`).
-/
import Mathlib.Data.List.Infix
import RepoContract.Proofs.Glob.Spans
import RepoContract.Proofs.Path.Parent
import RepoContract.Proofs.Selection

namespace RepoContract

set_option autoImplicit false

/-! ## A mark in a path -/

section Infix

variable {α : Type*} {mark front rest : List α} {separator : α}

theorem prefix_append_cons_iff (absent : separator ∉ mark) :
    mark <+: front ++ separator :: rest ↔ mark <+: front := by
  induction front generalizing mark with
  | nil =>
      cases mark with
      | nil => simp
      | cons first mark =>
          obtain ⟨differs, -⟩ := not_or.1 (List.mem_cons.not.1 absent)
          simp [List.cons_prefix_cons, Ne.symm differs]
  | cons item front ih =>
      cases mark with
      | nil => simp
      | cons first mark =>
          rw [List.cons_append, List.cons_prefix_cons, List.cons_prefix_cons,
            ih fun inside => absent (List.mem_cons_of_mem _ inside)]

/-- What has no separator in it does not lie across one. -/
theorem infix_append_cons_iff (absent : separator ∉ mark) :
    mark <:+: front ++ separator :: rest ↔ mark <:+: front ∨ mark <:+: rest := by
  induction front with
  | nil =>
      rw [List.nil_append, List.infix_cons_iff, List.infix_nil]
      have atFront : mark <+: [] ++ separator :: rest ↔ mark <+: [] :=
        prefix_append_cons_iff absent
      exact or_congr_left (atFront.trans List.prefix_nil)
  | cons item front ih =>
      -- the mark starts here, and then it ends before the separator, or it starts further behind
      rw [List.cons_append, List.infix_cons_iff, List.infix_cons_iff, ih, ← List.cons_append,
        prefix_append_cons_iff absent, or_assoc]

end Infix

namespace Path

variable {path : Path} {mark name : Name}

theorem infix_glue_iff {names : List Name} (absent : slash ∉ mark) (filled : names ≠ []) :
    mark <:+: glue names ↔ ∃ name ∈ names, mark <:+: name := by
  induction names with
  | nil => exact absurd rfl filled
  | cons name rest ih =>
      cases rest with
      | nil => simp [glue, List.intercalate]
      | cons next more =>
          rw [glue_cons_cons, infix_append_cons_iff absent, ih (List.cons_ne_nil _ _)]
          exact (List.exists_mem_cons_iff ..).symm

theorem name_mem_components_iff :
    .name name ∈ path.components ↔
      name ∈ parts path.bytes ∧ isIdle name = false ∧ name ≠ [dot, dot] := by
  have noAnchor : .name name ∉ path.anchor := by
    rw [anchor]
    split
    · simp
    · split <;> simp
  have isStep (part : Name) : stepOf part = .name name ↔ part = name ∧ name ≠ [dot, dot] := by
    unfold stepOf
    split
    · next up => simp [up, eq_comm]
    · next down =>
      rw [Component.name.injEq]
      exact ⟨fun same => ⟨same, same ▸ down⟩, And.left⟩
  rw [components, List.mem_append, or_iff_right noAnchor, steps, List.mem_map]
  simp only [isStep, List.mem_filter, Bool.not_eq_true']
  constructor
  · rintro ⟨_, ⟨isPart, filled⟩, rfl, down⟩
    exact ⟨isPart, filled, down⟩
  · rintro ⟨isPart, filled, down⟩
    exact ⟨name, ⟨isPart, filled⟩, rfl, down⟩

/-- **A mark that no step has and no slash breaks lies within one of the names of a path.** -/
theorem infix_bytes_iff (absent : slash ∉ mark) (long : 2 < mark.length) :
    mark <:+: path.bytes ↔ ∃ name, .name name ∈ path.components ∧ mark <:+: name := by
  conv_lhs => rw [← glue_parts path.bytes]
  rw [infix_glue_iff absent (parts_ne_nil _)]
  simp only [name_mem_components_iff, and_assoc]
  refine exists_congr fun name => and_congr_right fun _ => ?_
  refine ⟨fun inside => ?_, fun ⟨_, _, inside⟩ => inside⟩
  have isLong : 2 < name.length := long.trans_le inside.length_le
  refine ⟨?_, ?_, inside⟩
  · rw [isIdle, Bool.or_eq_false_iff, decide_eq_false_iff_not, decide_eq_false_iff_not]
    constructor <;> rintro rfl <;> simp at isLong
  · rintro rfl
    simp at isLong

/-- What marks a name as that of a minified file. -/
def minifiedMark : Name :=
  Text.Utf8.encode ".min.".toList

/-- A component is a name that is marked as minified. -/
def Component.IsMinified : Component → Prop
  | .name name => minifiedMark <:+: name
  | .root | .here | .up => False

instance : DecidablePred Component.IsMinified
  | .name name => inferInstanceAs (Decidable (minifiedMark <:+: name))
  | .root | .here | .up => inferInstanceAs (Decidable False)

/-- No directory on the way to the last component of a path is marked as minified. -/
def InPlainDirs (path : Path) : Prop :=
  ∀ dir ∈ path.components.dropLast, ¬ dir.IsMinified

instance (path : Path) : Decidable (InPlainDirs path) :=
  inferInstanceAs (Decidable (∀ dir ∈ path.components.dropLast, ¬ dir.IsMinified))

/-- The mark stands in a path just when a component is marked. -/
theorem exists_isMinified_iff :
    (∃ component ∈ path.components, component.IsMinified) ↔ minifiedMark <:+: path.bytes := by
  rw [infix_bytes_iff (by decide +kernel) (by decide +kernel)]
  constructor
  · rintro ⟨component, isPart, marked⟩
    cases component with
    | name name => exact ⟨name, isPart, marked⟩
    | root | here | up => exact marked.elim
  · rintro ⟨name, isPart, marked⟩
    exact ⟨.name name, isPart, marked⟩

/-- Paths that end alike in directories without a mark are both marked, or neither is. -/
theorem exists_isMinified_congr {first second : Path}
    (sameLast : first.components.getLast? = second.components.getLast?)
    (firstPlain : first.InPlainDirs) (secondPlain : second.InPlainDirs) :
    (∃ component ∈ first.components, component.IsMinified) ↔
      ∃ component ∈ second.components, component.IsMinified := by
  have onLast {path : Path} (plain : path.InPlainDirs) :
      (∃ component ∈ path.components, component.IsMinified) ↔
        ∃ component ∈ path.components.getLast?, component.IsMinified := by
    rw [InPlainDirs] at plain
    rcases List.eq_nil_or_concat' path.components with none | ⟨dirs, last, isPath⟩
    · simp [none]
    · rw [isPath, List.dropLast_concat] at plain
      rw [isPath, List.getLast?_concat]
      constructor
      · rintro ⟨component, isPart, marked⟩
        rcases List.mem_append.1 isPart with isDir | isLast
        · exact absurd marked (plain component isDir)
        · exact ⟨component, by rw [List.mem_singleton.1 isLast]; rfl, marked⟩
      · rintro ⟨component, isLast, marked⟩
        obtain rfl := Option.some.inj isLast
        exact ⟨last, List.mem_append_right _ (List.mem_singleton_self last), marked⟩
  rw [onLast firstPlain, onLast secondPlain, sameLast]

/-- The last component of a path says which extension it has. -/
theorem extensionText?_congr {first second : Path}
    (sameLast : first.components.getLast? = second.components.getLast?) :
    first.extensionText? = second.extensionText? := by
  rw [extensionText?, extensionText?, extension?, extension?, fileName?, fileName?, sameLast]

end Path

/-! ## The files of a filter -/

namespace Eligibility

/-- The glob for minified files looks for the mark in all of a path. -/
theorem hits_minified_iff (path : Path) :
    minifiedGlobs.any (Glob.hits · path) = true ↔ Path.minifiedMark <:+: path.bytes := by
  have isGlob : Glob.parse "**/*.min.*" =
      .ok (.leadingDirs :: .anyRun :: (".min.".toList.map .char ++ [.anyRun])) := by
    rfl
  have unnamed : (Glob.Manner.ofTokens
      (.leadingDirs :: .anyRun :: (".min.".toList.map .char ++ [.anyRun]))).needsName = false := by
    decide +kernel
  rw [minifiedGlobs, List.any_cons, List.any_nil, Bool.or_false, Glob.hits, isGlob]
  simp only [Glob.isMatch, unnamed, Bool.not_false, Bool.true_or, Bool.true_and]
  rw [Glob.isWhole_iff (by simp), Glob.rowTakes_within]
  rfl

/-- Where the user excludes nothing, a file needs an extension and a path without a mark. -/
theorem includes_unmarked_iff {extensions : List String} {found : Filter}
    (isFilter : filter extensions [] = .ok found) (path : Path) :
    found.includes path = true ↔
      (∃ extension ∈ extensions, path.extensionText? = some extension) ∧
        ∀ component ∈ path.components, ¬ component.IsMinified := by
  rw [(filter_spec isFilter path).1, List.append_nil, Bool.and_eq_true, hasExtension_iff,
    Bool.not_eq_true', ← Bool.not_eq_true, hits_minified_iff, ← Path.exists_isMinified_iff]
  simp only [not_exists, not_and]

/-- **A file is included just when it has one of the extensions and no component of its path is
marked as minified.** Below directories that are not marked its last component alone decides. -/
theorem filter_minified (extensions : List String) :
    ∃ found, filter extensions [] = .ok found ∧
      (∀ path, found.includes path = true ↔
        (∃ extension ∈ extensions, path.extensionText? = some extension) ∧
          ∀ component ∈ path.components, ¬ component.IsMinified) ∧
      ∀ first second : Path, first.components.getLast? = second.components.getLast? →
        first.InPlainDirs → second.InPlainDirs →
        found.includes first = found.includes second := by
  obtain ⟨found, isFilter⟩ := exists_filter extensions
  have includes_iff := includes_unmarked_iff isFilter
  refine ⟨found, isFilter, includes_iff, fun first second sameLast firstPlain secondPlain => ?_⟩
  have sameMark := Path.exists_isMinified_congr sameLast firstPlain secondPlain
  rw [← not_iff_not] at sameMark
  push Not at sameMark
  rw [Bool.eq_iff_iff, includes_iff, includes_iff, Path.extensionText?_congr sameLast, sameMark]

/-- In plain directories a file is included whatever their names, and a minified one in none. -/
theorem filter_minified_plain :
    ∃ found, filter ["js"] [] = .ok found ∧
      found.includes (.ofString "src/a.js") = true ∧
      found.includes (.ofString "src/a.min.js") = false ∧
      found.includes (.ofString "a.js") = found.includes (.ofString "src/a.js") := by
  obtain ⟨found, isFilter, includes_iff, same⟩ := filter_minified ["js"]
  refine ⟨found, isFilter, (includes_iff _).2 (by decide +kernel), ?_,
    same _ _ (by decide +kernel) (by decide +kernel) (by decide +kernel)⟩
  rw [← Bool.not_eq_true, includes_iff]
  decide +kernel

/-- A marked directory takes a file with it whose own name is not marked. -/
theorem filter_minified_dir :
    (Path.ofString "app.min.d/a.js").fileName? = (Path.ofString "src/a.js").fileName? ∧
    ∃ found, filter ["js"] [] = .ok found ∧
      found.includes (.ofString "src/a.js") = true ∧
      found.includes (.ofString "app.min.d/a.js") = false := by
  obtain ⟨found, isFilter⟩ := exists_filter ["js"]
  refine ⟨by decide +kernel, found, isFilter, ?_, ?_⟩
  · rw [includes_unmarked_iff isFilter]
    decide +kernel
  · rw [← Bool.not_eq_true, includes_unmarked_iff isFilter]
    decide +kernel

end Eligibility

end RepoContract
