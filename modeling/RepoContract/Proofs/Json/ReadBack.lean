/-
# RepoContract.Proofs.Json.ReadBack: written documents are read back

`Output.render` writes a document over several lines, `parse` reads one; `parse_render` says that
reading what was written gives `Output.toValue`, whatever blanks stand behind it. A document can
be read back when it does not nest deeper than the reader goes and its counts are below 2^64
(`Output.Readable`).

The proof follows the document. One lemma for each step of the reader says what it does on a
written piece (`readItems_next`, `readMembers_next`, and so on); the induction only has to hand
the fuel on, and the length of the written text is fuel enough.
-/
import RepoContract.Proofs.Json.Counts
import RepoContract.Proofs.Json.Quoted

namespace RepoContract.Json

set_option autoImplicit false

theorem bind_ok {ε α β : Type} {result : Except ε α} {value : α} {next : α → Except ε β}
    (isOk : result = .ok value) : (result >>= next) = next value := by
  rw [isOk]
  rfl

/-! ## Blanks and beginnings -/

/-- A text that begins with something that can begin a value. -/
def StartsValue (text : List Char) : Prop :=
  ∃ c more, text = c :: more ∧ isSpace c = false ∧ c ≠ ']' ∧ c ≠ '}'

theorem skipSpace_append {blanks : List Char} (text : List Char)
    (blank : ∀ c ∈ blanks, isSpace c = true) : skipSpace (blanks ++ text) = skipSpace text :=
  List.dropWhile_append_of_pos blank

theorem isSpace_of_mem_newLine {level : Nat} : ∀ c ∈ newLine level, isSpace c = true := by
  intro c member
  rcases List.mem_cons.1 member with rfl | blank
  · decide
  · rw [List.eq_of_mem_replicate blank]
    decide

theorem skipSpace_newLine (level : Nat) (text : List Char) :
    skipSpace (newLine level ++ text) = skipSpace text :=
  skipSpace_append text isSpace_of_mem_newLine

theorem skipSpace_cons {c : Char} {text : List Char} (visible : isSpace c = false) :
    skipSpace (c :: text) = c :: text := by
  simp [skipSpace, visible]

theorem endsNumber_newLine (level : Nat) (text : List Char) :
    EndsNumber (newLine level ++ text) :=
  endsNumber_cons (by decide)

/-! ## One step of the reader -/

variable {fuel depth level : Nat} {text after rest : List Char}

theorem readItems_end (blanks : List Char) (blank : ∀ c ∈ blanks, isSpace c = true)
    (first : Bool) : readItems (fuel + 1) depth first (blanks ++ ']' :: rest) = .ok ([], rest) := by
  rw [readItems, skipSpace_append _ blank, skipSpace_cons (by decide)]
  rfl

theorem readItems_first {item : Value} {items : List Value} (starts : StartsValue text)
    (value : readValue fuel depth text = .ok (item, after))
    (more : readItems fuel depth false after = .ok (items, rest)) :
    readItems (fuel + 1) depth true (newLine level ++ text) = .ok (item :: items, rest) := by
  obtain ⟨c, tail, rfl, visible, notEnd, -⟩ := starts
  rw [readItems, skipSpace_newLine, skipSpace_cons visible]
  simp only [if_true, pure_bind]
  rw [value]
  simp only [bind, Except.bind]
  rw [more]
  rfl

theorem readItems_next {item : Value} {items : List Value} (starts : StartsValue text)
    (value : readValue fuel depth text = .ok (item, after))
    (more : readItems fuel depth false after = .ok (items, rest)) :
    readItems (fuel + 1) depth false (',' :: (newLine level ++ text)) =
      .ok (item :: items, rest) := by
  obtain ⟨c, tail, rfl, visible, notEnd, -⟩ := starts
  have visibleNext : skipSpace (newLine level ++ c :: tail) = c :: tail := by
    rw [skipSpace_newLine, skipSpace_cons visible]
  rw [readItems, skipSpace_cons (by decide)]
  split
  · contradiction
  · rename_i same
    exact absurd (List.cons.inj same).1 (by decide)
  · rename_i same
    obtain ⟨rfl, rfl⟩ := List.cons.inj same
    rw [if_neg Bool.false_ne_true, if_pos rfl, visibleNext]
    split
    · contradiction
    · rename_i same
      exact absurd (List.cons.inj same).1 notEnd
    · simp only [pure_bind, value]
      simp only [bind, Except.bind]
      rw [more]
      rfl

theorem readMembers_end (blanks : List Char) (blank : ∀ c ∈ blanks, isSpace c = true)
    (first : Bool) :
    readMembers (fuel + 1) depth first (blanks ++ '}' :: rest) = .ok ([], rest) := by
  rw [readMembers, skipSpace_append _ blank, skipSpace_cons (by decide)]
  rfl

/-- The blank between a colon and a value is passed over. -/
theorem readValue_blank {value : Value} (read : readValue fuel depth text = .ok (value, rest)) :
    readValue fuel depth (' ' :: text) = .ok (value, rest) := by
  cases fuel with
  | zero => simp [readValue] at read
  | succ fuel =>
      have skips : skipSpace (' ' :: text) = skipSpace text := by
        simp [skipSpace, isSpace]
      rw [readValue, skips]
      rw [readValue] at read
      exact read

/-- The text of a member, as it is read from behind the opening quote of its key. -/
theorem readText_key (key : String) (text : List Char) :
    readText (key.toList.flatMap escape ++ '"' :: ':' :: ' ' :: text) =
      .ok (key, ':' :: ' ' :: text) :=
  readText_quoted key _

/-- A member is read from behind the opening quote of its key, and then the members behind it. -/
theorem readMember {key : String} {value : Value} {members : List (String × Value)}
    (read : readValue fuel depth text = .ok (value, after))
    (more : readMembers fuel depth false after = .ok (members, rest)) :
    (do
      let (key, rest) ← readText (key.toList.flatMap escape ++ '"' :: ':' :: ' ' :: text)
      let rest ←
        match skipSpace rest with
        | [] => throw (.before .endInObject [])
        | ':' :: rest => pure rest
        | rest => throw (.at .noColon rest)
      let (value, rest) ← readValue fuel depth rest
      let (members, rest) ← readMembers fuel depth false rest
      return ((key, value) :: members, rest) : Except Stop (List (String × Value) × List Char)) =
      .ok ((key, value) :: members, rest) := by
  have colon : skipSpace (':' :: ' ' :: text) = ':' :: ' ' :: text := skipSpace_cons (by decide)
  rw [bind_ok (readText_key key text)]
  simp only [colon]
  show (readValue fuel depth (' ' :: text) >>= _) = _
  rw [bind_ok (readValue_blank read)]
  show (readMembers fuel depth false after >>= _) = _
  rw [bind_ok more]
  rfl

theorem readMembers_first {key : String} {value : Value} {members : List (String × Value)}
    (read : readValue fuel depth text = .ok (value, after))
    (more : readMembers fuel depth false after = .ok (members, rest)) :
    readMembers (fuel + 1) depth true
        (newLine level ++ '"' :: (key.toList.flatMap escape ++ '"' :: ':' :: ' ' :: text)) =
      .ok ((key, value) :: members, rest) := by
  rw [readMembers, skipSpace_newLine, skipSpace_cons (by decide)]
  split
  · contradiction
  · rename_i same
    exact absurd (List.cons.inj same).1 (by decide)
  · rename_i same
    obtain ⟨rfl, rfl⟩ := List.cons.inj same
    rw [if_pos rfl, if_pos rfl, pure_bind]
    exact readMember read more

theorem readMembers_next {key : String} {value : Value} {members : List (String × Value)}
    (read : readValue fuel depth text = .ok (value, after))
    (more : readMembers fuel depth false after = .ok (members, rest)) :
    readMembers (fuel + 1) depth false
        (',' :: (newLine level ++
          '"' :: (key.toList.flatMap escape ++ '"' :: ':' :: ' ' :: text))) =
      .ok ((key, value) :: members, rest) := by
  have quote : skipSpace (newLine level ++
      '"' :: (key.toList.flatMap escape ++ '"' :: ':' :: ' ' :: text)) =
      '"' :: (key.toList.flatMap escape ++ '"' :: ':' :: ' ' :: text) := by
    rw [skipSpace_newLine, skipSpace_cons (by decide)]
  rw [readMembers, skipSpace_cons (by decide)]
  split
  · contradiction
  · rename_i same
    exact absurd (List.cons.inj same).1 (by decide)
  · rename_i same
    obtain ⟨rfl, rfl⟩ := List.cons.inj same
    rw [if_neg Bool.false_ne_true, if_pos rfl, quote]
    exact readMember read more

theorem readValue_text (value : String) (rest : List Char) :
    readValue (fuel + 1) depth (quoted value ++ rest) = .ok (.text value, rest) := by
  have written : quoted value ++ rest = '"' :: (value.toList.flatMap escape ++ '"' :: rest) := by
    simp [quoted]
  rw [written, readValue, skipSpace_cons (by decide)]
  show (readText _ >>= _) = _
  rw [bind_ok (readText_quoted value rest)]
  rfl

theorem readValue_digit {c : Char} (isDigit : c.isDigit = true) :
    readValue (fuel + 1) depth (c :: text) =
      (readDigits false (c :: text)).map fun (number, rest) => (.number number, rest) := by
  have visible : isSpace c = false := by
    cases blank : isSpace c with
    | false => rfl
    | true =>
        simp only [isSpace, Bool.or_eq_true, decide_eq_true_eq] at blank
        rcases blank with ((rfl | rfl) | rfl) | rfl <;> exact absurd isDigit (by decide)
  rw [readValue, skipSpace_cons visible]
  split
  case h_9 =>
    rename_i same
    obtain ⟨rfl, rfl⟩ := List.cons.inj same
    rw [if_pos isDigit]
    cases readDigits false (c :: text) <;> rfl
  case h_1 => contradiction
  all_goals
    rename_i same
    rw [(List.cons.inj same).1] at isDigit
    exact absurd isDigit (by decide)

theorem readValue_list {body : List Char} {items : List Value}
    (read : readItems fuel (depth + 1) true body = .ok (items, rest)) :
    readValue (fuel + 1) (depth + 2) ('[' :: body) = .ok (.array items, rest) := by
  rw [readValue, skipSpace_cons (by decide)]
  show (if depth + 2 ≤ 1 then _ else readItems fuel (depth + 1) true body >>= _) = _
  rw [if_neg (by omega), bind_ok read]
  rfl

theorem readValue_record {body : List Char} {members : List (String × Value)}
    (read : readMembers fuel (depth + 1) true body = .ok (members, rest)) :
    readValue (fuel + 1) (depth + 2) ('{' :: body) = .ok (.ofMembers members, rest) := by
  rw [readValue, skipSpace_cons (by decide)]
  show (if depth + 2 ≤ 1 then _ else readMembers fuel (depth + 1) true body >>= _) = _
  rw [if_neg (by omega), bind_ok read]
  rfl

/-! ## Reading a whole document -/

namespace Output

mutual

/-- Whether a document opens at most `depth` brackets at once and counts below 2^64. -/
def Readable : Nat → Output → Prop
  | _, .text _ => True
  | _, .count value => value < UInt64.size
  | 0, .list _ => False
  | 0, .record _ => False
  | depth + 1, .list items => ReadableItems depth items
  | depth + 1, .record members => ReadableMembers depth members

def ReadableItems : Nat → List Output → Prop
  | _, [] => True
  | depth, item :: items => Readable depth item ∧ ReadableItems depth items

def ReadableMembers : Nat → List (String × Output) → Prop
  | _, [] => True
  | depth, (_, value) :: members => Readable depth value ∧ ReadableMembers depth members

end

theorem readableItems_iff {depth : Nat} {items : List Output} :
    ReadableItems depth items ↔ ∀ item ∈ items, item.Readable depth := by
  induction items with
  | nil => simp [ReadableItems]
  | cons item items ih => rw [ReadableItems, ih, List.forall_mem_cons]

theorem readableMembers_iff {depth : Nat} {members : List (String × Output)} :
    ReadableMembers depth members ↔ ∀ member ∈ members, member.2.Readable depth := by
  induction members with
  | nil => simp [ReadableMembers]
  | cons member members ih => rw [ReadableMembers, ih, List.forall_mem_cons]

theorem readableMembers_append {depth : Nat} {first second : List (String × Output)} :
    ReadableMembers depth (first ++ second) ↔
      ReadableMembers depth first ∧ ReadableMembers depth second := by
  simp only [readableMembers_iff, List.forall_mem_append]

theorem startsValue_renderAt (level : Nat) (output : Output) (rest : List Char) :
    StartsValue (renderAt level output ++ rest) := by
  match output with
  | .text value => exact ⟨'"', _, by rw [renderAt, quoted]; rfl, by decide⟩
  | .count value =>
      obtain ⟨k, more, bound, isCons, -⟩ := Text.decimal_eq_cons value
      refine ⟨Text.digitChar k, more ++ rest, by rw [renderAt, isCons]; rfl, ?_⟩
      have all : ∀ k < 10, isSpace (Text.digitChar k) = false ∧ Text.digitChar k ≠ ']' ∧
          Text.digitChar k ≠ '}' := by
        decide
      exact all k bound
  | .list [] => exact ⟨'[', _, rfl, by decide⟩
  | .list (item :: items) => exact ⟨'[', _, by rw [renderAt]; rfl, by decide⟩
  | .record [] => exact ⟨'{', _, rfl, by decide⟩
  | .record ((key, value) :: members) => exact ⟨'{', _, by rw [renderAt]; rfl, by decide⟩

/-- What stands behind an item ends a number. -/
theorem endsNumber_items (level last : Nat) (items : List Output) (rest : List Char) :
    EndsNumber (renderItems level items ++ (newLine last ++ rest)) := by
  match items with
  | [] => exact endsNumber_newLine last rest
  | item :: items => exact endsNumber_cons (by decide)

theorem endsNumber_members (level last : Nat) (members : List (String × Output))
    (rest : List Char) :
    EndsNumber (renderMembers level members ++ (newLine last ++ rest)) := by
  match members with
  | [] => exact endsNumber_newLine last rest
  | (key, value) :: members => exact endsNumber_cons (by decide)

theorem length_newLine (level : Nat) : (newLine level).length = 2 * level + 1 := by
  simp [newLine]

theorem length_renderAt_pos (level : Nat) (output : Output) :
    0 < (renderAt level output).length := by
  obtain ⟨c, more, isCons, -⟩ := startsValue_renderAt level output []
  rw [List.append_nil] at isCons
  rw [isCons]
  exact Nat.zero_lt_succ _

/-! The list and the record as they stand in front of the rest of a text. -/

theorem renderAt_list_append (level : Nat) (item : Output) (items : List Output)
    (rest : List Char) :
    renderAt level (.list (item :: items)) ++ rest =
      '[' :: (newLine (level + 1) ++ (renderAt (level + 1) item ++
        (renderItems (level + 1) items ++ (newLine level ++ ']' :: rest)))) := by
  simp [renderAt, List.append_assoc]

theorem renderItems_cons_append (level : Nat) (item : Output) (items : List Output)
    (rest : List Char) :
    renderItems level (item :: items) ++ rest =
      ',' :: (newLine level ++ (renderAt level item ++ (renderItems level items ++ rest))) := by
  simp [renderItems, List.append_assoc]

theorem renderAt_record_append (level : Nat) (key : String) (value : Output)
    (members : List (String × Output)) (rest : List Char) :
    renderAt level (.record ((key, value) :: members)) ++ rest =
      '{' :: (newLine (level + 1) ++ '"' :: (key.toList.flatMap escape ++
        '"' :: ':' :: ' ' :: (renderAt (level + 1) value ++
          (renderMembers (level + 1) members ++ (newLine level ++ '}' :: rest))))) := by
  simp [renderAt, quoted, List.append_assoc]

theorem renderMembers_cons_append (level : Nat) (key : String) (value : Output)
    (members : List (String × Output)) (rest : List Char) :
    renderMembers level ((key, value) :: members) ++ rest =
      ',' :: (newLine level ++ '"' :: (key.toList.flatMap escape ++
        '"' :: ':' :: ' ' :: (renderAt level value ++ (renderMembers level members ++ rest)))) := by
  simp [renderMembers, quoted, List.append_assoc]

mutual

/-- **A written document is read back**, with as many characters of fuel as it has. -/
theorem readValue_renderAt {depth fuel : Nat} (level : Nat) (output : Output)
    (readable : output.Readable depth) (enough : (renderAt level output).length ≤ fuel)
    {rest : List Char} (ends : EndsNumber rest) :
    readValue fuel (depth + 1) (renderAt level output ++ rest) = .ok (output.toValue, rest) := by
  match output, depth, fuel with
  | .text value, depth, 0 => simp [renderAt, quoted] at enough
  | .text value, depth, fuel + 1 => exact readValue_text value rest
  | .count value, depth, fuel =>
      obtain ⟨k, more, bound, isCons, -⟩ := Text.decimal_eq_cons value
      obtain ⟨fuel, rfl⟩ : ∃ less, fuel = less + 1 := by
        have := length_renderAt_pos level (.count value)
        exact ⟨fuel - 1, by omega⟩
      have read := readDigits_decimal readable ends
      rw [renderAt]
      rw [isCons, List.cons_append] at read ⊢
      rw [readValue_digit (Text.isDigit_digitChar k bound), read]
      rfl
  | .list [], depth + 1, fuel =>
      obtain ⟨fuel, rfl⟩ : ∃ less, fuel = less + 2 := by
        simp [renderAt] at enough
        exact ⟨fuel - 2, by omega⟩
      exact readValue_list (readItems_end [] nofun true)
  | .list (item :: items), depth + 1, fuel =>
      -- two steps of fuel open the list and read its first item; the brackets pay for them
      have length : (renderAt (level + 1) item).length + (renderItems (level + 1) items).length + 4
          ≤ fuel := by
        have := congrArg List.length (renderAt_list_append level item items [])
        simp only [List.length_append, List.length_cons, List.length_nil, length_newLine] at this
        omega
      have written := length_renderAt_pos (level + 1) item
      obtain ⟨fuel, rfl⟩ : ∃ less, fuel = less + 2 := ⟨fuel - 2, by omega⟩
      rw [renderAt_list_append]
      exact readValue_list (readItems_first (startsValue_renderAt _ _ _)
        (readValue_renderAt (level + 1) item readable.1 (by omega) (endsNumber_items _ _ _ _))
        (readItems_renderItems (level + 1) level items readable.2 (by omega) rest))
  | .record [], depth + 1, fuel =>
      obtain ⟨fuel, rfl⟩ : ∃ less, fuel = less + 2 := by
        simp [renderAt] at enough
        exact ⟨fuel - 2, by omega⟩
      exact readValue_record (readMembers_end [] nofun true)
  | .record ((key, value) :: members), depth + 1, fuel =>
      have length :
          (renderAt (level + 1) value).length + (renderMembers (level + 1) members).length + 4
            ≤ fuel := by
        have := congrArg List.length (renderAt_record_append level key value members [])
        simp only [List.length_append, List.length_cons, List.length_nil, length_newLine] at this
        omega
      have written := length_renderAt_pos (level + 1) value
      obtain ⟨fuel, rfl⟩ : ∃ less, fuel = less + 2 := ⟨fuel - 2, by omega⟩
      rw [renderAt_record_append]
      exact readValue_record (readMembers_first
        (readValue_renderAt (level + 1) value readable.1 (by omega) (endsNumber_members _ _ _ _))
        (readMembers_renderMembers (level + 1) level members readable.2 (by omega) rest))

/-- The items after the first are read back up to the end of their list. -/
theorem readItems_renderItems {depth fuel : Nat} (level last : Nat) (items : List Output)
    (readable : ReadableItems depth items) (enough : (renderItems level items).length < fuel)
    (rest : List Char) :
    readItems fuel (depth + 1) false
        (renderItems level items ++ (newLine last ++ ']' :: rest)) =
      .ok (toValues items, rest) := by
  match items, fuel with
  | [], fuel + 1 => exact readItems_end _ isSpace_of_mem_newLine false
  | item :: items, fuel + 1 =>
      have length : (renderAt level item).length + (renderItems level items).length + 2 ≤ fuel := by
        have := congrArg List.length (renderItems_cons_append level item items [])
        simp only [List.length_append, List.length_cons, List.length_nil, length_newLine] at this
        omega
      rw [renderItems_cons_append]
      exact readItems_next (startsValue_renderAt _ _ _)
        (readValue_renderAt level item readable.1 (by omega) (endsNumber_items _ _ _ _))
        (readItems_renderItems level last items readable.2 (by omega) rest)

/-- The members after the first are read back up to the end of their record. -/
theorem readMembers_renderMembers {depth fuel : Nat} (level last : Nat)
    (members : List (String × Output)) (readable : ReadableMembers depth members)
    (enough : (renderMembers level members).length < fuel) (rest : List Char) :
    readMembers fuel (depth + 1) false
        (renderMembers level members ++ (newLine last ++ '}' :: rest)) =
      .ok (toMembers members, rest) := by
  match members, fuel with
  | [], fuel + 1 => exact readMembers_end _ isSpace_of_mem_newLine false
  | (key, value) :: members, fuel + 1 =>
      have length :
          (renderAt level value).length + (renderMembers level members).length + 2 ≤ fuel := by
        have := congrArg List.length (renderMembers_cons_append level key value members [])
        simp only [List.length_append, List.length_cons, List.length_nil, length_newLine] at this
        omega
      rw [renderMembers_cons_append]
      exact readMembers_next
        (readValue_renderAt level value readable.1 (by omega) (endsNumber_members _ _ _ _))
        (readMembers_renderMembers level last members readable.2 (by omega) rest)

end

/-- **Parsing what was rendered gives the document's value**, with blanks behind it or none. -/
theorem parse_render {output : Output} (readable : output.Readable (depthLimit - 1))
    (blanks : List Char) (blank : ∀ c ∈ blanks, isSpace c = true) :
    parse (output.render.toList ++ blanks) = .ok output.toValue := by
  have ends : EndsNumber blanks := by
    cases blanks with
    | nil => nofun
    | cons c more =>
        have isBlank := blank c List.mem_cons_self
        simp only [isSpace, Bool.or_eq_true, decide_eq_true_eq] at isBlank
        rcases isBlank with ((rfl | rfl) | rfl) | rfl <;> exact endsNumber_cons (by decide)
  have enough : (renderAt 0 output).length ≤ 2 * (renderAt 0 output ++ blanks).length + 2 := by
    rw [List.length_append]
    omega
  have nothing : skipSpace blanks = [] := by
    rw [← List.append_nil blanks, skipSpace_append [] blank]
    rfl
  have read : readValue (2 * (renderAt 0 output ++ blanks).length + 2) depthLimit
      (renderAt 0 output ++ blanks) = .ok (output.toValue, blanks) :=
    readValue_renderAt 0 output readable enough ends
  rw [parse, readDocument, render, String.toList_ofList, bind_ok read]
  simp only [nothing]
  rfl

end Output

end RepoContract.Json
