/-
# RepoContract.Proofs.Path.Relative: a path as it looks from a root

The components of a path below a root start with those of the root. What is shown of it is text: the
parts behind as many steps as the root has, without idle ones at either end. That text is no
absolute path (`Path.isAbsolute_relativeTo`) and has the steps that are left
(`Path.steps_relativeTo`), however the two are spelled, so joined to the root it leads to the same
place (`Path.components_join_relativeTo`), and different places look different
(`Path.relativeTo_injective`).

The empty root is a case of its own. It has no components, every path lies below it, and what is
shown keeps the anchor and loses idle parts at its end only (`Path.components_trimmed`).
-/
import RepoContract.Proofs.Path.Parent

namespace RepoContract

set_option autoImplicit false

/-- Whether a component tells where a path starts and is no step. -/
def Path.Component.isAnchor : Path.Component → Bool
  | .root | .here => true
  | .up | .name _ => false

namespace Path

variable {path root other : Path}

/-! ## Anchor and steps -/

theorem not_isAnchor_of_mem_steps {component : Component} (isStep : component ∈ path.steps) :
    component.isAnchor = false := by
  obtain ⟨part, -, rfl⟩ := List.mem_map.1 isStep
  unfold stepOf
  split <;> rfl

theorem anchor_cases (path : Path) :
    path.anchor = [] ∨ ∃ component, path.anchor = [component] ∧ component.isAnchor = true := by
  unfold anchor
  split
  · exact .inr ⟨_, rfl, rfl⟩
  · split
    · exact .inr ⟨_, rfl, rfl⟩
    · exact .inl rfl

/-- The steps of a path are told by its components. -/
theorem steps_eq_filter (path : Path) :
    path.steps = path.components.filter (!·.isAnchor) := by
  have steps : path.steps.filter (!·.isAnchor) = path.steps :=
    List.filter_eq_self.2 fun component isStep => by rw [not_isAnchor_of_mem_steps isStep]; rfl
  rw [components, List.filter_append, steps]
  rcases path.anchor_cases with none | ⟨component, isAnchor, anchors⟩
  · rw [none]
    rfl
  · rw [isAnchor, List.filter_cons_of_neg (by simp [anchors])]
    rfl

/-- So is its anchor, by the first of them. -/
theorem anchor_eq_filter (path : Path) :
    path.anchor = (path.components.take 1).filter (·.isAnchor) := by
  rcases path.anchor_cases with none | ⟨component, isAnchor, anchors⟩
  · rw [components, none, List.nil_append, eq_comm, List.filter_eq_nil_iff]
    intro component isFirst
    simp [not_isAnchor_of_mem_steps (List.mem_of_mem_take isFirst)]
  · rw [components, isAnchor]
    simp [anchors]

/-- **A path below a root has its components and then the steps that are left.** -/
theorem components_of_isBelow (filled : root.bytes ≠ [])
    (isBelow : root.components <+: path.components) :
    path.components = root.components ++ path.steps.drop root.steps.length := by
  have sameAnchor : root.anchor = path.anchor := by
    obtain ⟨more, isMore⟩ := isBelow
    obtain ⟨first, rest, isRoot⟩ := List.exists_cons_of_ne_nil (components_ne_nil filled)
    rw [anchor_eq_filter, anchor_eq_filter, ← isMore, isRoot]
    rfl
  rw [components, components, sameAnchor, List.prefix_append_right_inj] at isBelow
  obtain ⟨more, isMore⟩ := isBelow
  rw [components, components, sameAnchor, ← isMore, List.drop_left, List.append_assoc]

/-! ## What is left of a path -/

theorem afterSteps_suffix (count : Nat) (all : List Name) : afterSteps count all <:+ all := by
  fun_induction afterSteps count all with
  | case1 all => exact List.suffix_refl all
  | case2 count => exact List.suffix_refl _
  | case3 count part rest idle ih => exact ih.trans (List.suffix_cons ..)
  | case4 count part rest goes ih => exact ih.trans (List.suffix_cons ..)

theorem stepParts_afterSteps (count : Nat) (all : List Name) :
    stepParts (afterSteps count all) = (stepParts all).drop count := by
  fun_induction afterSteps count all with
  | case1 all => rfl
  | case2 count => rfl
  | case3 count part rest idle ih =>
      rw [ih, stepParts, stepParts, List.filter_cons_of_neg (by simp [idle])]
  | case4 count part rest goes ih =>
      rw [ih, stepParts, stepParts, List.filter_cons_of_pos (by simpa using goes)]
      rfl

theorem stepParts_dropWhile (all : List Name) :
    stepParts (all.dropWhile isIdle) = stepParts all := by
  induction all with
  | nil => rfl
  | cons part rest ih =>
      rw [List.dropWhile_cons]
      split
      · next idle => rw [ih, stepParts, stepParts, List.filter_cons_of_neg (by simp [idle])]
      · rfl

/-- The parts that are shown of a path below a root: those behind the steps of the root, from the
first step to the last. -/
def partsBelow (root path : Path) : List Name :=
  dropIdleEnd ((afterSteps root.steps.length path.body).dropWhile isIdle)

theorem relativeTo_of_isBelow (filled : root.bytes ≠ [])
    (isBelow : root.components <+: path.components) :
    path.relativeTo root = ⟨glue (partsBelow root path)⟩ := by
  rw [relativeTo, below?, if_pos (List.isPrefixOf_iff_prefix.2 isBelow),
    if_neg (components_ne_nil filled)]
  rfl

theorem slash_not_mem_of_mem_partsBelow {part : Name} (isPart : part ∈ partsBelow root path) :
    slash ∉ part := by
  have inside := (isPrefix_dropIdleEnd _).subset isPart
  exact slash_not_mem_of_mem_body
    ((afterSteps_suffix _ _).subset ((List.dropWhile_suffix _).subset inside))

theorem stepParts_partsBelow (root path : Path) :
    stepParts (partsBelow root path) = (stepParts path.body).drop root.steps.length := by
  rw [partsBelow, stepParts_dropIdleEnd, stepParts_dropWhile, stepParts_afterSteps]

/-- What is shown of a path below a root is relative. -/
theorem isAbsolute_relativeTo (filled : root.bytes ≠ [])
    (isBelow : root.components <+: path.components) :
    (path.relativeTo root).isAbsolute = false := by
  rw [relativeTo_of_isBelow filled isBelow]
  refine isAbsolute_glue (fun part isPart => slash_not_mem_of_mem_partsBelow isPart) ?_
  intro part isFirst isEmpty
  -- the first part is the first one behind those that are idle
  have isHead : part ∈ ((afterSteps root.steps.length path.body).dropWhile isIdle).head? := by
    obtain ⟨more, isMore⟩ := isPrefix_dropIdleEnd
      ((afterSteps root.steps.length path.body).dropWhile isIdle)
    rw [← isMore, List.head?_append, ← partsBelow, Option.mem_def.1 isFirst]
    rfl
  have goes := List.head?_dropWhile_not isIdle (afterSteps root.steps.length path.body)
  rw [Option.mem_def.1 isHead, isEmpty] at goes
  exact Bool.noConfusion goes

/-- **It has the steps that are left.** -/
theorem steps_relativeTo (filled : root.bytes ≠ [])
    (isBelow : root.components <+: path.components) :
    (path.relativeTo root).steps = path.steps.drop root.steps.length := by
  rw [relativeTo_of_isBelow filled isBelow, steps_eq path, ← List.map_drop, ← stepParts_partsBelow,
    ← stepParts_glue fun part isPart => slash_not_mem_of_mem_partsBelow isPart]
  rfl

/-! ## The empty root -/

/-- Parts put together are no empty text when the last of them is a step. -/
theorem glue_concat_ne_nil {front : List Name} {last : Name}
    (noSlash : ∀ part ∈ front ++ [last], slash ∉ part) (goes : isIdle last = false) :
    glue (front ++ [last]) ≠ [] := by
  intro isEmpty
  have isParts : parts (glue (front ++ [last])) = front ++ [last] := parts_glue (by simp) noSlash
  -- the only part of nothing is an empty one, which is idle
  rw [isEmpty, parts, eq_comm, ← List.nil_append [[]]] at isParts
  have isLast := (List.append_inj' isParts rfl).2
  rw [(List.cons.inj isLast).1] at goes
  exact Bool.noConfusion goes

/-- The text that is shown below the empty root is empty only for the empty path. -/
theorem bytes_trimmed_ne_nil (filled : path.bytes ≠ []) : path.trimmed.bytes ≠ [] := by
  rcases path.anchored with ⟨rest, -, isAnchor, -⟩ | ⟨rest, more, -, -, isAnchor, -⟩ |
    ⟨-, noText, isBody⟩
  · rw [trimmed, isAnchor]
    exact List.cons_ne_nil _ _
  · rw [trimmed, isAnchor]
    exact List.cons_ne_nil _ _
  · have noAnchor : path.anchor = [] := by
      rw [anchorBytes] at noText
      split at noText
      · next none => exact none
      · cases isBytes : path.bytes <;> simp_all
    have steps : stepParts path.body ≠ [] := by
      intro none
      have noComponent := components_ne_nil filled
      rw [components, noAnchor, steps_eq, none] at noComponent
      exact noComponent rfl
    obtain ⟨front, last, isFront, goes⟩ := exists_dropIdleEnd steps
    rw [trimmed, noText, List.nil_append, isFront]
    refine glue_concat_ne_nil (fun part isPart => ?_) goes
    rw [← isFront] at isPart
    exact slash_not_mem_of_mem_body ((isPrefix_dropIdleEnd _).subset isPart)

theorem head?_parts_dot_glue (all : List Name) :
    (parts (dot :: glue ([] :: all))).head? = some [dot] := by
  cases all with
  | nil => rfl
  | cons next rest =>
      rw [glue_cons_cons]
      exact congrArg List.head? (parts_append_slash [dot] (glue (next :: rest)))

/-- A relative path keeps its first part. -/
theorem head?_parts_trimmed (relative : path.isAbsolute = false)
    (filled : path.trimmed.bytes ≠ []) :
    (parts path.trimmed.bytes).head? = (parts path.bytes).head? := by
  rcases path.anchored with ⟨rest, isBytes, -, -⟩ |
    ⟨rest, more, isBytes, isParts, isAnchor, isBody⟩ | ⟨-, noText, isBody⟩
  · simp [isAbsolute, isBytes] at relative
  · have first : (parts path.bytes).head? = some [dot] := by
      rw [isBytes, parts, if_neg (by decide), isParts]
      rfl
    have kept := isPrefix_dropIdleEnd path.body
    rw [first, trimmed, isAnchor]
    cases isKept : dropIdleEnd path.body with
    | nil => rfl
    | cons part rest =>
        rw [isKept, isBody, isParts] at kept
        rw [(List.cons_prefix_cons.1 kept).1]
        exact head?_parts_dot_glue rest
  · rw [trimmed, noText, List.nil_append] at filled ⊢
    have someParts : dropIdleEnd path.body ≠ [] := by
      intro none
      rw [none] at filled
      exact filled rfl
    rw [parts_glue someParts fun part isPart =>
      slash_not_mem_of_mem_body ((isPrefix_dropIdleEnd _).subset isPart), ← isBody]
    obtain ⟨more, isMore⟩ := isPrefix_dropIdleEnd path.body
    conv_rhs => rw [← isMore, List.head?_append_of_ne_nil _ someParts]

/-- **Idle parts at the end of a path are none of its components.** -/
theorem components_trimmed (path : Path) : path.trimmed.components = path.components := by
  by_cases empty : path.bytes = []
  · have isEmpty : path = ⟨[]⟩ := congrArg Path.mk empty
    rw [isEmpty]
    rfl
  · have filled := bytes_trimmed_ne_nil empty
    obtain ⟨alike, sameSteps⟩ := stepParts_kept (isPrefix_dropIdleEnd path.body) filled
    have steps : path.trimmed.steps = path.steps := by
      rw [steps_eq path, ← stepParts_dropIdleEnd, ← sameSteps]
      rfl
    have anchors : path.trimmed.anchor = path.anchor := by
      rw [anchor, anchor, show path.trimmed.isAbsolute = path.isAbsolute from alike]
      split
      · rfl
      · next relative => rw [head?_parts_trimmed (by simpa using relative) filled]
    rw [components, components, anchors, steps]

/-! ## There and back -/

theorem relativeTo_empty (path : Path) : path.relativeTo ⟨[]⟩ = path.trimmed := by
  have isBelow : (Path.mk []).components.isPrefixOf path.components = true :=
    List.isPrefixOf_iff_prefix.2 (List.nil_prefix)
  rw [relativeTo, below?, if_pos isBelow, if_pos (by decide)]
  rfl

/-- **What is shown of a path below a root leads back to its place.** -/
theorem components_join_relativeTo (isBelow : root.components <+: path.components) :
    (root.join (path.relativeTo root)).components = path.components := by
  by_cases empty : root.bytes = []
  · have isEmpty : root = ⟨[]⟩ := congrArg Path.mk empty
    rw [isEmpty, join_empty, relativeTo_empty, components_trimmed]
  · calc (root.join (path.relativeTo root)).components
        = root.components ++ (path.relativeTo root).steps :=
          components_join empty (isAbsolute_relativeTo empty isBelow)
      _ = root.components ++ path.steps.drop root.steps.length := by
          rw [steps_relativeTo empty isBelow]
      _ = path.components := (components_of_isBelow empty isBelow).symm

/-- A path that does not lie below a root is shown as it is. -/
theorem relativeTo_of_not_isBelow (isOutside : ¬ root.components <+: path.components) :
    path.relativeTo root = path := by
  rw [relativeTo, below?, if_neg (List.isPrefixOf_iff_prefix.not.2 isOutside)]
  rfl

/-- **Different places below a root look different.** -/
theorem relativeTo_injective (isBelow : root.components <+: path.components)
    (otherIsBelow : root.components <+: other.components)
    (same : (path.relativeTo root).components = (other.relativeTo root).components) :
    path.components = other.components := by
  by_cases empty : root.bytes = []
  · have isEmpty : root = ⟨[]⟩ := congrArg Path.mk empty
    rwa [isEmpty, relativeTo_empty, relativeTo_empty, components_trimmed,
      components_trimmed] at same
  · have sameSteps : (path.relativeTo root).steps = (other.relativeTo root).steps := by
      rw [steps_eq_filter, steps_eq_filter, same]
    rw [steps_relativeTo empty isBelow, steps_relativeTo empty otherIsBelow] at sameSteps
    rw [components_of_isBelow empty isBelow, components_of_isBelow empty otherIsBelow, sameSteps]

end Path

end RepoContract
