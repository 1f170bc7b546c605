/-
# RepoContract.Proofs.Path.Parent: a path and the path above it

The parts of a path that are steps say where it goes, and the moves that go anywhere are theirs
(`Path.moves_going`). The path above another has its steps but the last (`Path.stepParts_parent`),
however the path is spelled: idle parts may stand between the two, and slashes at the end of a path
add nothing but idle moves (`Path.moves_withoutEndSlashes`).
-/
import Mathlib.Data.List.TakeWhile
import RepoContract.Proofs.Path.Descend
import RepoContract.Tree.Edit

namespace RepoContract

set_option autoImplicit false

/-- Whether a move stays where it is. -/
def Move.isStill : Move → Bool
  | .idle | .stay => true
  | .up | .down _ => false

namespace Path

variable {path parent : Path} {part : Name} {all kept : List Name}

/-! ## Parts and moves -/

theorem isStill_ofPart (part : Name) : (Move.ofPart part).isStill = isIdle part := by
  unfold Move.ofPart isIdle
  split_ifs <;> simp_all [Move.isStill]

/-- **The moves that go anywhere are those of the steps.** -/
theorem moves_going (path : Path) :
    path.moves.filter (!·.isStill) = (stepParts (parts path.bytes)).map Move.ofPart := by
  have going (all : List Name) :
      (all.map Move.ofPart).filter (!·.isStill) = (stepParts all).map Move.ofPart := by
    rw [List.filter_map]
    exact congrArg _ (List.filter_congr fun part _ => congrArg _ (isStill_ofPart part))
  by_cases absolute : path.isAbsolute = true
  · obtain ⟨rest, isBytes⟩ := List.head?_eq_some_iff.1 (by simpa [isAbsolute] using absolute)
    rw [moves, if_pos absolute, going, isBytes, parts_slash_cons]
    rfl
  · rw [moves, if_neg absolute, going]

theorem slash_not_mem_of_mem_parts {bytes : List UInt8} (isPart : part ∈ parts bytes) :
    slash ∉ part := by
  induction bytes generalizing part with
  | nil => simp_all [parts]
  | cons b rest ih =>
      rw [parts] at isPart
      split at isPart
      · rcases List.mem_cons.1 isPart with rfl | isPart
        · exact List.not_mem_nil
        · exact ih isPart
      · next noSlash =>
          obtain ⟨first, more, isParts⟩ := List.exists_cons_of_ne_nil (parts_ne_nil rest)
          rw [isParts] at isPart ih
          rcases List.mem_cons.1 isPart with rfl | isPart
          · exact List.not_mem_cons_of_ne_of_not_mem (Ne.symm noSlash) (ih List.mem_cons_self)
          · exact ih (List.mem_cons_of_mem _ isPart)

theorem stepParts_glue (whole : ∀ part ∈ all, slash ∉ part) :
    stepParts (parts (glue all)) = stepParts all := by
  by_cases none : all = []
  · rw [none]
    rfl
  · rw [parts_glue none whole]

/-! ## The path above -/

theorem dropIdleEnd_concat (front : List Name) (part : Name) :
    dropIdleEnd (front ++ [part]) =
      if isIdle part then dropIdleEnd front else front ++ [part] := by
  cases idle : isIdle part <;> simp [dropIdleEnd, idle]

theorem stepParts_dropIdleEnd (all : List Name) : stepParts (dropIdleEnd all) = stepParts all := by
  induction all using List.reverseRecOn with
  | nil => rfl
  | append_singleton front part ih =>
      rw [dropIdleEnd_concat]
      split
      · next idle => rw [ih, stepParts, stepParts, List.filter_append]; simp [idle]
      · rfl

theorem isPrefix_dropIdleEnd (all : List Name) : dropIdleEnd all <+: all := by
  induction all using List.reverseRecOn with
  | nil => exact List.prefix_refl _
  | append_singleton front part ih =>
      rw [dropIdleEnd_concat]
      split
      · exact ih.trans (List.prefix_append _ _)
      · exact List.prefix_refl _

/-- Parts that hold a step end in one when the idle ones behind it are dropped. -/
theorem exists_dropIdleEnd (steps : stepParts all ≠ []) :
    ∃ front last, dropIdleEnd all = front ++ [last] ∧ isIdle last = false := by
  induction all using List.reverseRecOn with
  | nil => exact absurd rfl steps
  | append_singleton front part ih =>
      rw [dropIdleEnd_concat]
      split
      · next idle =>
          refine ih ?_
          rwa [← stepParts_dropIdleEnd, dropIdleEnd_concat, if_pos idle, stepParts_dropIdleEnd]
            at steps
      · next goes => exact ⟨front, part, rfl, by simpa using goes⟩

theorem slash_not_mem_of_mem_body (isPart : part ∈ path.body) : slash ∉ part := by
  rw [body] at isPart
  split at isPart <;> exact slash_not_mem_of_mem_parts isPart

/-- The first part behind a dot is empty, so a slash stands there, or nothing. -/
theorem stepParts_dot_glue (whole : ∀ part ∈ all, slash ∉ part) :
    stepParts (parts ([dot] ++ glue ([] :: all))) = stepParts ([] :: all) := by
  cases all with
  | nil => rfl
  | cons next rest =>
      rw [glue_cons_cons, List.nil_append, parts_append_slash, parts_of_no_slash (by decide),
        parts_glue (List.cons_ne_nil _ _) whole]
      rfl

/-- A path that starts with an empty part is absolute, if it is not empty. -/
theorem bytes_eq_nil_of_relative (relative : path.isAbsolute = false)
    (startsEmpty : [] :: all <+: parts path.bytes) : path.bytes = [] := by
  cases isBytes : path.bytes with
  | nil => rfl
  | cons b rest =>
      have noSlash : b ≠ slash := by simpa [isAbsolute, isBytes] using relative
      obtain ⟨first, more, isParts⟩ := List.exists_cons_of_ne_nil (parts_ne_nil rest)
      rw [isBytes, parts, if_neg noSlash, isParts] at startsEmpty
      simp at startsEmpty

/-- Parts that do not start with an empty one make a path that does not start with a slash. -/
theorem isAbsolute_glue (whole : ∀ part ∈ all, slash ∉ part) (starts : ∀ part ∈ all.head?, part ≠ []) :
    isAbsolute ⟨glue all⟩ = false := by
  cases all with
  | nil => rfl
  | cons part rest =>
      cases part with
      | nil => exact absurd rfl (starts [] rfl)
      | cons b more =>
          have noSlash := (not_or.1 (List.mem_cons.not.1 (whole _ List.mem_cons_self))).1
          cases rest <;>
            simp [isAbsolute, glue, List.intercalate, List.intersperse, Ne.symm noSlash]

/-- The anchor of a path with some of the parts behind it is a path that starts alike and has the
steps of these parts. -/
theorem stepParts_kept (isFront : kept <+: path.body)
    (filled : path.anchorBytes ++ glue kept ≠ []) :
    (Path.mk (path.anchorBytes ++ glue kept)).isAbsolute = path.isAbsolute ∧
      stepParts (parts (path.anchorBytes ++ glue kept)) = stepParts kept := by
  have whole (part : Name) (isPart : part ∈ kept) : slash ∉ part :=
    slash_not_mem_of_mem_body (isFront.subset isPart)
  rcases path.anchored with ⟨rest, isBytes, isAnchor, -⟩ |
    ⟨rest, more, isBytes, isParts, isAnchor, isBody⟩ | ⟨relative, isAnchor, isBody⟩
  · refine ⟨by simp [isAbsolute, isAnchor, isBytes], ?_⟩
    rw [isAnchor, List.singleton_append, parts_slash_cons]
    exact stepParts_glue whole
  · refine ⟨by simp [isAbsolute, isAnchor, isBytes], ?_⟩
    rw [isAnchor]
    rw [isBody, isParts] at isFront
    cases kept with
    | nil => rfl
    | cons part kept =>
        obtain ⟨rfl, -⟩ := List.cons_prefix_cons.1 isFront
        exact stepParts_dot_glue fun part isPart => whole part (List.mem_cons_of_mem _ isPart)
  · rw [isAnchor, List.nil_append] at filled ⊢
    refine ⟨?_, stepParts_glue whole⟩
    rw [relative]
    rw [isBody] at isFront
    cases kept with
    | nil => exact absurd rfl filled
    | cons part kept =>
        cases part with
        | nil =>
            -- then nothing else is there, and nothing is left
            rw [bytes_eq_nil_of_relative relative isFront, parts, List.cons_prefix_cons,
              List.prefix_nil] at isFront
            rw [isFront.2] at filled
            exact absurd rfl filled
        | cons b rest => exact isAbsolute_glue whole (by simp)

/-- **The path above another has its steps but the last**, and starts alike. -/
theorem stepParts_parent (isParent : path.parent? = some parent) (filled : parent.bytes ≠ []) :
    parent.isAbsolute = path.isAbsolute ∧ ∃ last, isIdle last = false ∧
      stepParts (parts path.bytes) = stepParts (parts parent.bytes) ++ [last] := by
  rw [parent?] at isParent
  split at isParent
  · split at isParent
    · cases isParent
      exact absurd rfl filled
    · cases isParent
  · next someStep =>
      have steps : stepParts path.body ≠ [] := by
        intro none
        rw [steps_eq, none] at someStep
        exact someStep rfl
      obtain ⟨front, last, isFront, goes⟩ := exists_dropIdleEnd steps
      cases isParent
      rw [isFront, List.dropLast_concat] at filled ⊢
      have inBody : dropIdleEnd front <+: path.body := by
        refine (isPrefix_dropIdleEnd front).trans ((List.prefix_append front [last]).trans ?_)
        rw [← isFront]
        exact isPrefix_dropIdleEnd _
      obtain ⟨alike, sameSteps⟩ := stepParts_kept inBody filled
      refine ⟨alike, last, goes, ?_⟩
      rw [sameSteps, stepParts_dropIdleEnd, ← stepParts_body, ← stepParts_dropIdleEnd, isFront,
        stepParts, stepParts, List.filter_append]
      simp [goes]

/-! ## Slashes at the end -/

theorem parts_slashes (count : Nat) :
    parts (List.replicate count slash) = List.replicate (count + 1) [] := by
  induction count with
  | zero => rfl
  | succ count ih => rw [List.replicate_succ, parts_slash_cons, ih]; rfl

/-- Slashes behind a text add empty parts. -/
theorem parts_append_slashes (front : List UInt8) (count : Nat) :
    parts (front ++ List.replicate count slash) = parts front ++ List.replicate count [] := by
  cases count with
  | zero => simp
  | succ count => rw [List.replicate_succ, parts_append_slash, parts_slashes]

theorem bytes_withoutEndSlashes (path : Path) (filled : path.bytes ≠ []) :
    path.withoutEndSlashes.bytes ≠ [] ∧
      ∃ count, path.bytes = path.withoutEndSlashes.bytes ++ List.replicate count slash := by
  rw [withoutEndSlashes]
  split
  · exact ⟨filled, 0, (List.append_nil _).symm⟩
  · next someByte =>
      have slashes : path.bytes.reverse.takeWhile (· == slash) =
          List.replicate (path.bytes.reverse.takeWhile (· == slash)).length slash := by
        rw [List.eq_replicate_iff]
        exact ⟨rfl, fun b isSlash => by simpa using List.mem_takeWhile_imp isSlash⟩
      refine ⟨someByte, (path.bytes.reverse.takeWhile (· == slash)).length, ?_⟩
      calc path.bytes
          = (path.bytes.reverse.takeWhile (· == slash) ++
              path.bytes.reverse.dropWhile (· == slash)).reverse := by
            rw [List.takeWhile_append_dropWhile, List.reverse_reverse]
        _ = _ := by
            rw [List.reverse_append]
            exact congrArg _ (by rw [slashes, List.reverse_replicate, List.length_replicate])

/-- Slashes at the end of a path are idle moves, and do not change where it starts. -/
theorem moves_withoutEndSlashes (path : Path) (filled : path.bytes ≠ []) :
    path.withoutEndSlashes.isAbsolute = path.isAbsolute ∧
      ∃ count, path.moves = path.withoutEndSlashes.moves ++ List.replicate count .idle := by
  obtain ⟨someByte, count, isBytes⟩ := path.bytes_withoutEndSlashes filled
  have alike : path.withoutEndSlashes.isAbsolute = path.isAbsolute := by
    rw [isAbsolute, isAbsolute, isBytes, List.head?_append_of_ne_nil _ someByte]
  have idle : (List.replicate count ([] : Name)).map Move.ofPart = List.replicate count .idle :=
    List.map_replicate
  refine ⟨alike, count, ?_⟩
  rw [moves, moves, alike]
  split
  · rw [isBytes, List.drop_append_of_le_length (List.length_pos_of_ne_nil someByte),
      parts_append_slashes, List.map_append, idle]
  · rw [isBytes, parts_append_slashes, List.map_append, idle]

end Path

end RepoContract
