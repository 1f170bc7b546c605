/-
# RepoContract.Proofs.Comment.Scanner: comment tracking is a left-to-right scan

`Delimiters.track` jumps: it looks for the earliest opener of a text, sets it against the earliest
line mark, and goes on behind the closer. This module sets beside it a scanner that reads a text
one character at a time and remembers nothing but the closer of the block it is in
(`Delimiters.scan`), and proves the two equal when every opener and closer takes text
(`scan_none`).

The bridge is that `track` obeys the scanner's own steps: an opener in front opens its block
(`track_opener`), a line mark in front ends the text (`track_lineMark`), any other character is
passed over (`track_cons`). On a line in code the mask asks for a line mark first and the scanner
for an opener, so there the two agree only when no line mark and opener start alike (`Apart`).

`Tracks` records every jump of a run together with the room that its cuts need. It is finite, so
`track_tracks` says that tracking ends and never cuts outside the text.
-/
import Mathlib.Data.List.Basic
import RepoContract.Language.BuiltIn
import RepoContract.Proofs.Text.Find

namespace RepoContract.Delimiters

set_option autoImplicit false

/-- Every opener and every closer takes text. -/
def Solid (marks : Delimiters) : Prop :=
  ∀ pair ∈ marks.block, pair.1 ≠ [] ∧ pair.2 ≠ []

/-- Solid delimiters of which no line mark and opener start alike. -/
def Apart (marks : Delimiters) : Prop :=
  marks.Solid ∧ ∀ mark ∈ marks.line, ∀ pair ∈ marks.block, ¬ mark <+: pair.1 ∧ ¬ pair.1 <+: mark

instance (marks : Delimiters) : Decidable marks.Solid :=
  inferInstanceAs (Decidable (∀ pair ∈ marks.block, pair.1 ≠ [] ∧ pair.2 ≠ []))

instance (marks : Delimiters) : Decidable marks.Apart :=
  inferInstanceAs (Decidable (_ ∧ ∀ mark ∈ marks.line, ∀ pair ∈ marks.block,
    ¬ mark <+: pair.1 ∧ ¬ pair.1 <+: mark))

/-- The first declared opener that a text starts with, and its closer. -/
def openerAt? (marks : Delimiters) (text : List Char) : Option (List Char × List Char) :=
  marks.block.find? fun pair => pair.1.isPrefixOf text

/-- What is pending after a text that is read one character at a time, given what is pending
before it. The next `skip` characters belong to a delimiter that has been seen. -/
def scan (marks : Delimiters) : Option (List Char) → Nat → List Char → Option (List Char)
  | pending, _, [] => pending
  | pending, skip + 1, _ :: rest => scan marks pending skip rest
  | some closer, 0, c :: rest =>
      if closer.isPrefixOf (c :: rest) then scan marks none (closer.length - 1) rest
      else scan marks (some closer) 0 rest
  | none, 0, c :: rest =>
      match marks.openerAt? (c :: rest) with
      | some (opener, closer) => scan marks (some closer) (opener.length - 1) rest
      | none => if startsWith marks.line (c :: rest) then none else scan marks none 0 rest

/-- What the scanner holds pending after some lines, each without its leading blanks. -/
def scanLines (marks : Delimiters) (lines : List (List Char)) : Option (List Char) :=
  lines.foldl (fun pending line => marks.scan pending 0 (Text.trimStart line)) none

/-- What the mask holds pending after some lines. -/
def pendingAfter (marks : Delimiters) (lines : List (List Char)) : Option (List Char) :=
  lines.foldl (fun pending line => (marks.maskLine pending line).2) none

/-- The finite runs of tracking, jump by jump, each with the room for its cuts. -/
inductive Tracks (marks : Delimiters) : List Char → Option (List Char) → Prop where
  | clear {text : List Char} (absent : marks.opener? text = none) : Tracks marks text none
  | hidden {text : List Char} {offset : Nat} {opener closer : List Char}
      (found : marks.opener? text = some (offset, opener, closer))
      (before : (marks.lineMark? text).any (· < offset) = true) : Tracks marks text none
  | opened {text : List Char} {offset : Nat} {opener closer : List Char}
      (found : marks.opener? text = some (offset, opener, closer))
      (visible : (marks.lineMark? text).any (· < offset) = false)
      (room : offset + opener.length ≤ text.length)
      (still : Text.offset? closer (text.drop (offset + opener.length)) = none) :
      Tracks marks text (some closer)
  | closed {text : List Char} {offset count : Nat} {opener closer : List Char}
      {result : Option (List Char)}
      (found : marks.opener? text = some (offset, opener, closer))
      (visible : (marks.lineMark? text).any (· < offset) = false)
      (room : offset + opener.length ≤ text.length)
      (ends : Text.offset? closer (text.drop (offset + opener.length)) = some count)
      (roomAfter : count + closer.length ≤ (text.drop (offset + opener.length)).length)
      (later : Tracks marks ((text.drop (offset + opener.length)).drop (count + closer.length))
        result) : Tracks marks text result

variable {marks : Delimiters} {c : Char} {text rest : List Char}

/-! ## The earliest opener and the earliest line mark -/

theorem nearest_mem {α : Type} {pairs : List (Nat × α)} {pair : Nat × α}
    (found : nearest pairs = some pair) : pair ∈ pairs := by
  induction pairs generalizing pair with
  | nil => simp [nearest] at found
  | cons first more ih =>
      rw [nearest] at found
      split at found
      · rename_i other later
        split at found
        · obtain rfl := Option.some.inj found
          exact List.mem_cons_of_mem _ (ih later)
        · obtain rfl := Option.some.inj found
          exact List.mem_cons_self
      · obtain rfl := Option.some.inj found
        exact List.mem_cons_self

/-- Moving every place by one moves the nearest by one. -/
theorem nearest_map_succ {α : Type} (pairs : List (Nat × α)) :
    nearest (pairs.map fun pair => (pair.1 + 1, pair.2)) =
      (nearest pairs).map fun pair => (pair.1 + 1, pair.2) := by
  induction pairs with
  | nil => rfl
  | cons first more ih =>
      simp only [List.map_cons, nearest, ih]
      cases nearest more with
      | none => rfl
      | some other =>
          simp only [Option.map_some, Nat.add_lt_add_iff_right]
          split <;> rfl

theorem min?_map_succ (places : List Nat) :
    (places.map (· + 1)).min? = places.min?.map (· + 1) := by
  induction places with
  | nil => rfl
  | cons first more ih =>
      rw [List.map_cons, List.min?_cons, List.min?_cons, ih]
      cases more.min? with
      | none => rfl
      | some other => simp [Nat.succ_min_succ]

/-- An opener that is found is declared and takes no more than the text holds behind its place. -/
theorem opener?_spec {offset : Nat} {opener closer : List Char}
    (found : marks.opener? text = some (offset, opener, closer)) :
    (opener, closer) ∈ marks.block ∧ offset + opener.length ≤ text.length := by
  obtain ⟨⟨first, second⟩, member, placed⟩ := List.mem_filterMap.1 (nearest_mem found)
  obtain ⟨place, there, same⟩ := Option.map_eq_some_iff.1 placed
  obtain ⟨rfl, rfl, rfl⟩ : place = offset ∧ first = opener ∧ second = closer := by
    simpa using same
  exact ⟨member, Text.offset?_add_length_le there⟩

theorem opener?_of_openerAt? {opener closer : List Char}
    (starts : marks.openerAt? text = some (opener, closer)) :
    marks.opener? text = some (0, opener, closer) := by
  unfold openerAt? at starts
  unfold opener?
  generalize marks.block = pairs at starts ⊢
  induction pairs with
  | nil => simp at starts
  | cons pair more ih =>
      cases here : pair.1.isPrefixOf text with
      | true =>
          obtain rfl : pair = (opener, closer) := by
            rw [List.find?_cons, here] at starts
            exact Option.some.inj starts
          have place := Text.offset?_of_starts here
          simp only [List.filterMap_cons, place, Option.map_some, nearest]
          split <;> simp
      | false =>
          rw [List.find?_cons, here] at starts
          have later := ih starts
          simp only [List.filterMap_cons]
          cases place : Text.offset? pair.1 text with
          | none => exact later
          | some count =>
              -- an earlier pair stands further on, so it is not the nearest
              have positive := Text.offset?_pos here place
              simp [nearest, later, positive]

theorem opener?_cons (absent : marks.openerAt? (c :: rest) = none) :
    marks.opener? (c :: rest) =
      (marks.opener? rest).map fun found => (found.1 + 1, found.2) := by
  unfold opener?
  rw [← nearest_map_succ, List.map_filterMap]
  congr 1
  apply List.filterMap_congr
  rintro ⟨opener, closer⟩ member
  have differs : opener.isPrefixOf (c :: rest) = false :=
    Bool.not_eq_true _ ▸ List.find?_eq_none.1 absent (opener, closer) member
  simp only [Text.offset?_cons differs, Option.map_map]
  rfl

theorem opener?_nil (solid : marks.Solid) : marks.opener? [] = none := by
  cases found : marks.opener? [] with
  | none => rfl
  | some place =>
      obtain ⟨offset, opener, closer⟩ := place
      obtain ⟨member, room⟩ := opener?_spec found
      have takes : 0 < opener.length := List.length_pos_iff.2 (solid _ member).1
      simp only [List.length_nil] at room
      omega

theorem lineMark?_of_startsWith (starts : startsWith marks.line text = true) :
    marks.lineMark? text = some 0 := by
  obtain ⟨mark, member, here⟩ := List.any_eq_true.1 starts
  refine List.min?_eq_some_iff.2 ⟨?_, fun _ _ => Nat.zero_le _⟩
  exact List.mem_filterMap.2 ⟨mark, member, Text.offset?_of_starts here⟩

theorem lineMark?_cons (absent : startsWith marks.line (c :: rest) = false) :
    marks.lineMark? (c :: rest) = (marks.lineMark? rest).map (· + 1) := by
  unfold lineMark?
  rw [← min?_map_succ, List.map_filterMap]
  congr 1
  apply List.filterMap_congr
  intro mark member
  exact Text.offset?_cons (Bool.not_eq_true _ ▸ List.any_eq_false.1 absent mark member)

/-! ## Tracking, step by step -/

/-- A block that takes text is left behind its closer with less text than before. -/
theorem tail_length_lt (solid : marks.Solid) {offset : Nat} {opener closer : List Char}
    (found : marks.opener? text = some (offset, opener, closer))
    (ends : Text.after? closer (text.drop (offset + opener.length)) = some rest) :
    rest.length < text.length := by
  have shorter := Text.after?_length_lt (solid _ (opener?_spec found).1).2 ends
  simp only [List.length_drop] at shorter
  omega

theorem track_nil (solid : marks.Solid) : marks.track [] = none := by
  rw [track, opener?_nil solid]

/-- An opener in front opens its block, and behind the closer tracking starts anew. -/
theorem track_opener (solid : marks.Solid) {opener closer : List Char}
    (starts : marks.openerAt? text = some (opener, closer)) :
    marks.track text =
      match Text.after? closer (text.drop opener.length) with
      | none => some closer
      | some rest => marks.track rest := by
  have found := opener?_of_openerAt? starts
  rw [track, found]
  have visible : (marks.lineMark? text).any (· < 0) = false := by
    cases marks.lineMark? text <;> simp
  simp only [visible, Bool.false_eq_true, if_false, Nat.zero_add]
  cases ends : Text.after? closer (text.drop opener.length) with
  | none => rfl
  | some rest =>
      have shorter : rest.length < text.length :=
        tail_length_lt solid found (by rwa [Nat.zero_add])
      simp only [shorter, if_true]

/-- A line mark in front hides everything behind it. -/
theorem track_lineMark (absent : marks.openerAt? (c :: rest) = none)
    (starts : startsWith marks.line (c :: rest) = true) : marks.track (c :: rest) = none := by
  rw [track, opener?_cons absent, lineMark?_of_startsWith starts]
  cases marks.opener? rest with
  | none => rfl
  | some found => simp

/-- A character that starts no delimiter is passed over. -/
theorem track_cons (solid : marks.Solid) (noOpener : marks.openerAt? (c :: rest) = none)
    (noMark : startsWith marks.line (c :: rest) = false) :
    marks.track (c :: rest) = marks.track rest := by
  rw [track, track, opener?_cons noOpener, lineMark?_cons noMark]
  cases found : marks.opener? rest with
  | none => rfl
  | some place =>
      obtain ⟨offset, opener, closer⟩ := place
      have before : ((marks.lineMark? rest).map (· + 1)).any (· < offset + 1) =
          (marks.lineMark? rest).any (· < offset) := by
        cases marks.lineMark? rest <;> simp
      simp only [Option.map_some, before, Nat.add_right_comm offset 1, List.drop_succ_cons]
      split
      · rfl
      · split
        · rfl
        · rename_i tail ends
          have shorter := tail_length_lt solid found ends
          have shorterCons : tail.length < (c :: rest).length := by
            simp only [List.length_cons]
            omega
          rw [if_pos shorter, if_pos shorterCons]

/-- **Tracking ends**, and every cut on its way stays inside the text. -/
theorem track_tracks (solid : marks.Solid) (text : List Char) :
    marks.Tracks text (marks.track text) := by
  fun_induction track marks text with
  | case1 text absent => exact .clear absent
  | case2 text offset opener closer found before => exact .hidden found before
  | case3 text offset opener closer found visible still =>
      exact .opened found (by simpa using visible) (opener?_spec found).2
        (Text.after?_eq_none_iff.1 still)
  | case4 text offset opener closer found visible tail ends shorter ih =>
      obtain ⟨count, place, rfl⟩ := Option.map_eq_some_iff.1 ends
      exact .closed found (by simpa using visible) (opener?_spec found).2 place
        (Text.offset?_add_length_le place) ih
  | case5 text offset opener closer found visible tail ends longer =>
      exact absurd (tail_length_lt solid found ends) longer

/-! ## The scanner -/

theorem scan_skip (pending : Option (List Char)) (skip : Nat) (text : List Char) :
    marks.scan pending skip text = marks.scan pending 0 (text.drop skip) := by
  induction text generalizing skip with
  | nil => cases skip <;> cases pending <;> rfl
  | cons c rest ih =>
      cases skip with
      | zero => rfl
      | succ skip => rw [scan, List.drop_succ_cons, ih]

/-- Dropping a delimiter that takes text is dropping its first character and then the others. -/
theorem drop_pred {delimiter : List Char} (takes : delimiter ≠ []) :
    rest.drop (delimiter.length - 1) = (c :: rest).drop delimiter.length := by
  obtain ⟨d, more, rfl⟩ := List.exists_cons_of_ne_nil takes
  simp

/-- In a block the scanner goes to the closer and is in code behind it. -/
theorem scan_some {closer : List Char} (takes : closer ≠ []) (text : List Char) :
    marks.scan (some closer) 0 text =
      match Text.after? closer text with
      | none => some closer
      | some rest => marks.scan none 0 rest := by
  induction text with
  | nil =>
      obtain ⟨d, more, rfl⟩ := List.exists_cons_of_ne_nil takes
      rfl
  | cons c rest ih =>
      rw [scan]
      cases starts : closer.isPrefixOf (c :: rest) with
      | true =>
          rw [Text.after?_of_starts starts, if_pos rfl, scan_skip, drop_pred takes]
      | false => rw [Text.after?_cons starts, if_neg (by simp), ih]

/-- **In code the scanner leaves pending what tracking leaves pending.** -/
theorem scan_none (solid : marks.Solid) (text : List Char) :
    marks.scan none 0 text = marks.track text := by
  -- by the length of the text: behind a closer the scanner is in code again, further on
  match text with
  | [] => rw [scan, track_nil solid]
  | c :: rest =>
      rw [scan]
      cases starts : marks.openerAt? (c :: rest) with
      | some pair =>
          obtain ⟨opener, closer⟩ := pair
          have member : (opener, closer) ∈ marks.block := List.mem_of_find?_eq_some starts
          obtain ⟨openerTakes, closerTakes⟩ := solid _ member
          simp only
          rw [track_opener solid starts, scan_skip, drop_pred openerTakes, scan_some closerTakes]
          cases ends : Text.after? closer ((c :: rest).drop opener.length) with
          | none => rfl
          | some tail =>
              have shorter : tail.length < (c :: rest).length := by
                have := Text.after?_length_lt closerTakes ends
                simp only [List.length_drop] at this
                omega
              exact scan_none solid tail
      | none =>
          simp only
          cases hidden : startsWith marks.line (c :: rest) with
          | true => rw [track_lineMark starts hidden, if_pos rfl]
          | false =>
              rw [track_cons solid starts hidden, if_neg (by simp)]
              exact scan_none solid rest
  termination_by text.length
  decreasing_by
    · simp
    · exact shorter

end RepoContract.Delimiters
