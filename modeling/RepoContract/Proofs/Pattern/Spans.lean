/-
# RepoContract.Proofs.Pattern.Spans: the part of a text that a pattern matches

`Expr.ends` finds matches by the places where they end. `Expr.Spans` reads a pattern by what it
stands for instead: the character before a part of a text, the part, and the text behind it. The
context on both sides belongs to the relation, since edges and the ends of the text read it.

The two readings agree (`Expr.mem_ends_iff`). A repetition is the only step with an argument of its
own: its budget is the number of characters left, and as every round has to move on, whatever rounds
can reach is within it. A pattern matches a text just if the text splits around a span of it
(`Expr.isMatch_iff`), so every place counts, and one that is rejected hides none behind it.

Behind that stands an equation for each way to build patterns, so that an entry of the catalog is
read by rewriting.
-/
import Mathlib.Data.List.Basic
import Mathlib.Tactic.SplitIfs
import RepoContract.Pattern.Catalog

namespace RepoContract.Pattern

set_option autoImplicit false

variable {before : Option Char} {span behind text : List Char} {place target : Place}

/-! ## Places behind a part of a text -/

/-- The character before what follows a part of a text. -/
def lastOf (before : Option Char) (span : List Char) : Option Char :=
  span.getLast?.or before

@[simp] theorem lastOf_nil (before : Option Char) : lastOf before [] = before := rfl

@[simp] theorem lastOf_none (span : List Char) : lastOf none span = span.getLast? :=
  Option.or_none

theorem lastOf_append (before : Option Char) (left right : List Char) :
    lastOf before (left ++ right) = lastOf (lastOf before left) right :=
  calc (left ++ right).getLast?.or before
      = (right.getLast?.or left.getLast?).or before := by rw [List.getLast?_append]
    _ = right.getLast?.or (left.getLast?.or before) := Option.or_assoc

theorem lastOf_cons (before : Option Char) (c : Char) (more : List Char) :
    lastOf before (c :: more) = lastOf (some c) more :=
  lastOf_append before [c] more

/-- From one place to another lies this part of the text. -/
def Place.Passes (place : Place) (span : List Char) (target : Place) : Prop :=
  place.rest = span ++ target.rest ∧ target.before = lastOf place.before span

namespace Place.Passes

theorem nil_iff : place.Passes [] target ↔ target = place := by
  rw [Passes, List.nil_append, lastOf_nil, Place.mk.injEq, and_comm, eq_comm (a := place.rest)]

theorem refl (place : Place) : place.Passes [] place := nil_iff.2 rfl

theorem append {middle : Place} {left right : List Char} (first : place.Passes left middle)
    (second : middle.Passes right target) : place.Passes (left ++ right) target := by
  refine ⟨?_, ?_⟩
  · rw [first.1, second.1, List.append_assoc]
  · rw [second.2, first.2, lastOf_append]

/-- A part of the text in two has a place between them. -/
theorem split {left right : List Char} (passes : place.Passes (left ++ right) target) :
    place.Passes left ⟨lastOf place.before left, right ++ target.rest⟩ ∧
      Passes ⟨lastOf place.before left, right ++ target.rest⟩ right target :=
  ⟨⟨by rw [passes.1, List.append_assoc], rfl⟩, ⟨rfl, by rw [passes.2, lastOf_append]⟩⟩

/-- From one place to another lies one character of some kind. -/
theorem one_iff {has : Char → Prop} :
    (∃ span, place.Passes span target ∧ ∃ c, span = [c] ∧ has c) ↔
      ∃ c, has c ∧ place.rest = c :: target.rest ∧ target.before = some c := by
  constructor
  · rintro ⟨_, passes, c, rfl, hasIt⟩
    exact ⟨c, hasIt, passes⟩
  · rintro ⟨c, hasIt, passes⟩
    exact ⟨[c], passes, c, rfl, hasIt⟩

theorem cons_iff {c : Char} {rest : List Char} :
    Passes ⟨before, c :: rest⟩ span target ↔
      (span = [] ∧ target = ⟨before, c :: rest⟩) ∨
        ∃ more, span = c :: more ∧ Passes ⟨some c, rest⟩ more target := by
  cases span with
  | nil => simp [nil_iff]
  | cons d more =>
    simp only [Passes, List.cons_append, List.cons.injEq, lastOf_cons, reduceCtorEq, false_and,
      false_or]
    constructor
    · rintro ⟨⟨rfl, same⟩, last⟩
      exact ⟨more, ⟨rfl, rfl⟩, same, last⟩
    · rintro ⟨_, ⟨rfl, rfl⟩, same, last⟩
      exact ⟨⟨rfl, same⟩, last⟩

end Place.Passes

/-! ## What a pattern spans -/

/-- A part of a text in pieces, each of them spanned where it stands and none of them empty. -/
inductive Chain (spans : Option Char → List Char → List Char → Prop) :
    Option Char → List Char → List Char → Prop
  | nil {before : Option Char} {behind : List Char} : Chain spans before [] behind
  | cons {before : Option Char} {piece more behind : List Char} (moves : piece ≠ [])
      (first : spans before piece (more ++ behind))
      (others : Chain spans (lastOf before piece) more behind) :
      Chain spans before (piece ++ more) behind

/-- A pattern spans a part of a text, between the character before it and the text behind it. -/
def Expr.Spans : Expr → Option Char → List Char → List Char → Prop
  | .empty => fun _ span _ => span = []
  | .one cls => fun _ span _ => ∃ c, span = [c] ∧ cls.has c = true
  | .seq first second => fun before span behind => ∃ left right, span = left ++ right ∧
      first.Spans before left (right ++ behind) ∧
      second.Spans (lastOf before left) right behind
  | .choice first second => fun before span behind =>
      first.Spans before span behind ∨ second.Spans before span behind
  | .run cls => fun _ span _ => ∀ c ∈ span, cls.has c = true
  | .many body => Chain body.Spans
  | .start => fun before span _ => span = [] ∧ before = none
  | .stop => fun _ span behind => span = [] ∧ behind = []
  | .edge negated => fun before span behind =>
      span = [] ∧ Place.isEdge ⟨before, behind⟩ = !negated

namespace Expr

/-! Its equations, to rewrite with. -/

theorem spans_empty : empty.Spans before span behind ↔ span = [] := Iff.rfl

theorem spans_one (cls : Class) :
    (one cls).Spans before span behind ↔ ∃ c, span = [c] ∧ cls.has c = true := Iff.rfl

theorem spans_seq (first second : Expr) :
    (seq first second).Spans before span behind ↔
      ∃ left right, span = left ++ right ∧ first.Spans before left (right ++ behind) ∧
        second.Spans (lastOf before left) right behind :=
  Iff.rfl

theorem spans_choice (first second : Expr) :
    (choice first second).Spans before span behind ↔
      first.Spans before span behind ∨ second.Spans before span behind := Iff.rfl

theorem spans_run (cls : Class) :
    (run cls).Spans before span behind ↔ ∀ c ∈ span, cls.has c = true := Iff.rfl

theorem spans_start : start.Spans before span behind ↔ span = [] ∧ before = none := Iff.rfl

theorem spans_edge (negated : Bool) :
    (edge negated).Spans before span behind ↔
      span = [] ∧ Place.isEdge ⟨before, behind⟩ = !negated := Iff.rfl

end Expr

/-! ## The places where a match may end -/

/-- The places behind some characters of a class. -/
theorem Class.mem_runEnds_iff (cls : Class) :
    target ∈ cls.runEnds before text ↔
      ∃ span, Place.Passes ⟨before, text⟩ span target ∧ ∀ c ∈ span, cls.has c = true := by
  induction text generalizing before with
  | nil =>
    simp only [runEnds, List.mem_singleton]
    constructor
    · rintro rfl
      exact ⟨[], .refl _, by simp⟩
    · rintro ⟨span, passes, -⟩
      obtain rfl : span = [] := (List.append_eq_nil_iff.1 passes.1.symm).1
      exact Place.Passes.nil_iff.1 passes
  | cons c rest ih =>
    simp only [runEnds, List.mem_cons, Place.Passes.cons_iff]
    constructor
    · rintro (rfl | inside)
      · exact ⟨[], .inl ⟨rfl, rfl⟩, by simp⟩
      · split_ifs at inside with has
        · obtain ⟨more, passes, all⟩ := ih.1 inside
          exact ⟨c :: more, .inr ⟨more, rfl, passes⟩, List.forall_mem_cons.2 ⟨has, all⟩⟩
        · simp at inside
    · rintro ⟨_, ⟨-, rfl⟩ | ⟨more, rfl, passes⟩, all⟩
      · exact .inl rfl
      · obtain ⟨has, all⟩ := List.forall_mem_cons.1 all
        rw [if_pos has]
        exact .inr (ih.2 ⟨more, passes, all⟩)

/-- Every place from one on is one behind any characters. -/
theorem Place.following_eq_runEnds (before : Option Char) (text : List Char) :
    following before text = Class.runEnds ⟨[], true⟩ before text := by
  induction text generalizing before with
  | nil => rfl
  | cons c rest ih =>
    rw [following, Class.runEnds, ih, if_pos (by rfl)]

/-- If a step is told by what it spans, so are the places that steps reach, provided that there are
as many of them as characters left. -/
theorem mem_closure_iff {step : Place → List Place}
    {spans : Option Char → List Char → List Char → Prop}
    (told : ∀ {place target : Place}, target ∈ step place ↔
      ∃ span, place.Passes span target ∧ spans place.before span target.rest)
    {count : Nat} (budget : place.rest.length ≤ count) :
    target ∈ closure step count place ↔
      ∃ span, place.Passes span target ∧ Chain spans place.before span target.rest := by
  induction count generalizing place with
  | zero =>
    rw [closure, List.mem_singleton]
    constructor
    · rintro rfl
      exact ⟨[], .refl _, .nil⟩
    · rintro ⟨span, passes, -⟩
      have none : place.rest = [] := List.length_eq_zero_iff.1 (Nat.le_zero.1 budget)
      obtain rfl : span = [] := (List.append_eq_nil_iff.1 (passes.1.symm.trans none)).1
      exact Place.Passes.nil_iff.1 passes
  | succ count ih =>
    simp only [closure, List.mem_cons, List.mem_flatMap, List.mem_filter, decide_eq_true_eq]
    constructor
    · rintro (rfl | ⟨next, ⟨isNext, shorter⟩, inside⟩)
      · exact ⟨[], .refl _, .nil⟩
      · obtain ⟨piece, passes, first⟩ := told.1 isNext
        obtain ⟨more, goesOn, others⟩ := (ih (by omega)).1 inside
        refine ⟨piece ++ more, passes.append goesOn, .cons ?_ ?_ ?_⟩
        · rintro rfl
          rw [Place.Passes.nil_iff.1 passes] at shorter
          exact Nat.lt_irrefl _ shorter
        · rw [← goesOn.1]
          exact first
        · rw [← passes.2]
          exact others
    · rintro ⟨span, passes, chain⟩
      cases chain with
      | nil => exact .inl (Place.Passes.nil_iff.1 passes)
      | @cons _ piece more _ moves first others =>
        obtain ⟨toNext, goesOn⟩ := passes.split
        -- the piece is not empty, so the place behind it is further on
        have shorter : (more ++ target.rest).length < place.rest.length := by
          have whole : place.rest = piece ++ (more ++ target.rest) := toNext.1
          have some := List.length_pos_iff.2 moves
          simp only [whole, List.length_append]
          omega
        exact .inr ⟨_, ⟨told.2 ⟨piece, toNext, first⟩, shorter⟩,
          (ih (Nat.le_of_lt_succ (Nat.lt_of_lt_of_le shorter budget))).2 ⟨more, goesOn, others⟩⟩

namespace Expr

/-- Where nothing is spanned, a match ends where it starts. -/
theorem mem_stay_iff {holds : Prop} [Decidable holds] (spans : List Char → Prop)
    (told : spans place.rest ↔ holds) :
    target ∈ (if holds then [place] else []) ↔
      ∃ span, place.Passes span target ∧ span = [] ∧ spans target.rest := by
  constructor
  · intro inside
    split_ifs at inside with h
    · obtain rfl := List.mem_singleton.1 inside
      exact ⟨[], .refl _, rfl, told.2 h⟩
    · simp at inside
  · rintro ⟨_, passes, rfl, holdsThere⟩
    obtain rfl := Place.Passes.nil_iff.1 passes
    rw [if_pos (told.1 holdsThere)]
    exact List.mem_singleton_self _

/-- A match may end at a place just if the pattern spans the text up to it. -/
theorem mem_ends_iff (expr : Expr) {place target : Place} :
    target ∈ expr.ends place ↔
      ∃ span, place.Passes span target ∧ expr.Spans place.before span target.rest := by
  induction expr generalizing place target with
  | empty =>
    simp only [ends, Spans, List.mem_singleton, exists_eq_right, Place.Passes.nil_iff]
  | one cls =>
    simp only [ends, Spans, Place.Passes.one_iff]
    cases place.rest with
    | nil => simp
    | cons c rest =>
      show target ∈ (if cls.has c then [Place.mk (some c) rest] else []) ↔ _
      split_ifs with has
      · rw [List.mem_singleton]
        constructor
        · rintro rfl
          exact ⟨c, has, rfl, rfl⟩
        · rintro ⟨d, -, same, last⟩
          obtain ⟨rfl, rfl⟩ := List.cons.inj same
          exact congrArg (Place.mk · target.rest) last
      · simp only [List.not_mem_nil, false_iff]
        rintro ⟨d, hasIt, same, -⟩
        obtain ⟨rfl, rfl⟩ := List.cons.inj same
        exact has hasIt
  | seq first second ihFirst ihSecond =>
    simp only [ends, Spans, List.mem_flatMap, ihFirst, ihSecond]
    constructor
    · rintro ⟨middle, ⟨left, toMiddle, isFirst⟩, right, goesOn, isSecond⟩
      refine ⟨left ++ right, toMiddle.append goesOn, left, right, rfl, ?_, ?_⟩
      · rw [← goesOn.1]
        exact isFirst
      · rw [← toMiddle.2]
        exact isSecond
    · rintro ⟨_, passes, left, right, rfl, isFirst, isSecond⟩
      exact ⟨_, ⟨left, passes.split.1, isFirst⟩, right, passes.split.2, isSecond⟩
  | choice first second ihFirst ihSecond =>
    simp only [ends, Spans, List.mem_append, ihFirst, ihSecond, and_or_left, exists_or]
  | run cls => exact cls.mem_runEnds_iff
  | many body ih => exact mem_closure_iff ih (Nat.le_refl _)
  | start => exact mem_stay_iff (fun _ => place.before = none) Option.isNone_iff_eq_none.symm
  | stop => exact mem_stay_iff (· = []) List.isEmpty_iff.symm
  | edge negated =>
    refine mem_stay_iff (fun behind => Place.isEdge ⟨place.before, behind⟩ = !negated) ?_
    cases place.isEdge <;> cases negated <;> simp

/-- A pattern matches a text just if the text splits around a part that the pattern spans. -/
theorem isMatch_iff (expr : Expr) (text : List Char) :
    expr.isMatch text = true ↔
      ∃ front span behind, text = front ++ (span ++ behind) ∧
        expr.Spans front.getLast? span behind := by
  simp only [isMatch, List.any_eq_true, Place.following_eq_runEnds, Class.mem_runEnds_iff,
    Bool.not_eq_true', List.isEmpty_eq_false_iff_exists_mem, mem_ends_iff]
  constructor
  · rintro ⟨place, ⟨front, toPlace, -⟩, target, span, passes, spans⟩
    refine ⟨front, span, target.rest, ?_, ?_⟩
    · rw [← passes.1, ← toPlace.1]
    · rw [← lastOf_none, ← toPlace.2]
      exact spans
  · rintro ⟨front, span, behind, rfl, spans⟩
    refine ⟨⟨front.getLast?, span ++ behind⟩, ⟨front, ⟨rfl, (lastOf_none front).symm⟩, ?_⟩,
      ⟨lastOf front.getLast? span, behind⟩, span, ⟨rfl, rfl⟩, spans⟩
    exact fun _ _ => rfl

theorem isMatch_choice (first second : Expr) (text : List Char) :
    (choice first second).isMatch text = true ↔
      first.isMatch text = true ∨ second.isMatch text = true := by
  simp only [isMatch_iff, spans_choice, and_or_left, exists_or]

/-- A choice in a row may be made beforehand. -/
theorem isMatch_seq_choice (first left right rest : Expr) (text : List Char) :
    (seq first (seq (choice left right) rest)).isMatch text = true ↔
      (seq first (seq left rest)).isMatch text = true ∨
        (seq first (seq right rest)).isMatch text = true := by
  simp only [isMatch_iff, spans_seq, spans_choice, or_and_right, and_or_left, exists_or]

/-- Rows are put together in any way. -/
theorem isMatch_seq_assoc (first second third : Expr) (text : List Char) :
    (seq (seq first second) third).isMatch text = true ↔
      (seq first (seq second third)).isMatch text = true := by
  have spans {before : Option Char} {span behind : List Char} :
      (seq (seq first second) third).Spans before span behind ↔
        (seq first (seq second third)).Spans before span behind := by
    simp only [spans_seq]
    constructor
    · rintro ⟨_, right, rfl, ⟨left, middle, rfl, isFirst, isSecond⟩, isThird⟩
      refine ⟨left, middle ++ right, by simp, ?_, middle, right, rfl, isSecond, ?_⟩
      · rwa [List.append_assoc]
      · rwa [← lastOf_append]
    · rintro ⟨left, _, rfl, isFirst, middle, right, rfl, isSecond, isThird⟩
      refine ⟨left ++ middle, right, by simp, ⟨left, middle, rfl, ?_, isSecond⟩, ?_⟩
      · rwa [List.append_assoc] at isFirst
      · rwa [lastOf_append]
  simp only [isMatch_iff, spans]

/-! ## Ways to build patterns -/

theorem has_ofKinds (kinds : List Kind) (negated : Bool) (c : Char) :
    Class.has ⟨kinds.map (⟨·, false⟩), negated⟩ c = (negated != kinds.any (·.has c)) := by
  have has (kind : Kind) : Member.has ⟨kind, false⟩ c = kind.has c := Bool.false_bne _
  show (negated != (kinds.map _).any _) = _
  rw [List.any_map]
  exact congrArg _ (congrArg kinds.any (funext has))

theorem spans_among (kinds : List Kind) :
    (among kinds).Spans before span behind ↔
      ∃ c, span = [c] ∧ ∃ kind ∈ kinds, kind.has c = true := by
  refine (spans_one _).trans (exists_congr fun c => and_congr_right fun _ => ?_)
  rw [has_ofKinds, Bool.false_bne, List.any_eq_true]

theorem spans_outside (kinds : List Kind) :
    (outside kinds).Spans before span behind ↔
      ∃ c, span = [c] ∧ ∀ kind ∈ kinds, kind.has c = false := by
  refine (spans_one _).trans (exists_congr fun c => and_congr_right fun _ => ?_)
  rw [has_ofKinds, Bool.true_bne, Bool.not_eq_true', List.any_eq_false]
  simp only [Bool.not_eq_true]

/-- Any number of characters of some kinds. -/
theorem spans_repeated_among (kinds : List Kind) :
    (repeated (among kinds)).Spans before span behind ↔
      ∀ c ∈ span, ∃ kind ∈ kinds, kind.has c = true := by
  refine (spans_run _).trans (forall₂_congr fun c _ => ?_)
  rw [has_ofKinds, Bool.false_bne, List.any_eq_true]

theorem spans_char (c : Char) : (char c).Spans before span behind ↔ span = [c] := by
  refine (spans_among [.char c]).trans ?_
  simp [Kind.has]

/-- A row is its first pattern with the others behind it. -/
theorem spans_row_cons (expr : Expr) (more : List Expr) :
    (row (expr :: more)).Spans before span behind ↔
      (seq expr (row more)).Spans before span behind := by
  cases more with
  | nil => simp [row, spans_seq, spans_empty]
  | cons _ _ => exact Iff.rfl

theorem spans_chars (word : List Char) :
    (chars word).Spans before span behind ↔ span = word := by
  show (row (word.map char)).Spans before span behind ↔ span = word
  induction word generalizing before span with
  | nil => exact Iff.rfl
  | cons c more ih =>
    rw [List.map_cons, spans_row_cons, spans_seq]
    simp [spans_char, ih]

/-- A word with a pattern behind it. -/
theorem spans_seq_chars (word : List Char) (rest : Expr) :
    (seq (chars word) rest).Spans before span behind ↔
      ∃ more, span = word ++ more ∧ rest.Spans (lastOf before word) more behind := by
  simp [spans_seq, spans_chars]

theorem spans_blanks :
    blanks.Spans before span behind ↔ ∀ c ∈ span, Text.isBlank c = true := by
  refine (spans_repeated_among [.blank]).trans ?_
  simp [Kind.has]

/-- Characters of some kinds, one at least. -/
theorem spans_oneOrMore_among (kinds : List Kind) :
    (oneOrMore (among kinds)).Spans before span behind ↔
      span ≠ [] ∧ ∀ c ∈ span, ∃ kind ∈ kinds, kind.has c = true := by
  simp only [oneOrMore, spans_seq, spans_among, spans_repeated_among]
  constructor
  · rintro ⟨_, more, rfl, ⟨c, rfl, has⟩, all⟩
    exact ⟨by simp, List.forall_mem_cons.2 ⟨has, all⟩⟩
  · rintro ⟨filled, all⟩
    obtain ⟨c, more, rfl⟩ := List.exists_cons_of_ne_nil filled
    obtain ⟨has, all⟩ := List.forall_mem_cons.1 all
    exact ⟨[c], more, rfl, ⟨c, rfl, has⟩, all⟩

theorem spans_someBlanks :
    someBlanks.Spans before span behind ↔ span ≠ [] ∧ ∀ c ∈ span, Text.isBlank c = true := by
  refine (spans_oneOrMore_among [.blank]).trans ?_
  simp [Kind.has]

end Expr

end RepoContract.Pattern
