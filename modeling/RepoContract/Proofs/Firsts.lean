/-
# RepoContract.Proofs.Firsts: the items whose key is new

Names and paths are kept once for each key: a name counts by its form in lower case, a path by its
components. What is kept is told by places here. An item stays when none in front of it has its key
(`firsts`), so the first spelling stays, and the order does.

Everything else follows from what one more item at the end does (`firsts_concat`): the keys are
those of all items (`mem_map_firsts_iff`), each once (`nodup_map_firsts`), and the item that is
found for a key is the one that was found before (`find?_firsts`).
-/
import Mathlib.Data.Finset.Card
import Mathlib.Data.List.Induction

namespace RepoContract

set_option autoImplicit false

variable {α β : Type} [DecidableEq β] {key : α → β}

/-- The items whose key none in front of them has. -/
def firsts (key : α → β) (items : List α) : List α :=
  (items.zipIdx.filter fun entry => key entry.1 ∉ (items.take entry.2).map key).map (·.1)

/-- **One more item stays exactly when its key is new**, and changes nothing in front of it. -/
theorem firsts_concat (key : α → β) (items : List α) (item : α) :
    firsts key (items ++ [item]) =
      firsts key items ++ if key item ∈ items.map key then [] else [item] := by
  have inFront : ∀ entry ∈ items.zipIdx,
      (items ++ [item]).take entry.2 = items.take entry.2 := by
    intro entry isEntry
    have inside : entry.2 < items.length := List.snd_lt_of_mem_zipIdx isEntry
    exact List.take_append_of_le_length inside.le
  have last : [item].zipIdx items.length = [(item, items.length)] := rfl
  rw [firsts, List.zipIdx_append, List.filter_append, List.map_append, firsts, Nat.zero_add, last]
  congr 1
  · refine congrArg _ (List.filter_congr fun entry isEntry => ?_)
    rw [inFront entry isEntry]
  · by_cases isOld : key item ∈ items.map key
    · rw [if_pos isOld, List.filter_cons_of_neg (by simpa using isOld)]
      rfl
    · rw [if_neg isOld, List.filter_cons_of_pos (by simpa using isOld)]
      rfl

theorem sublist_firsts (key : α → β) (items : List α) : (firsts key items).Sublist items := by
  have kept := (List.filter_sublist (l := items.zipIdx)
    (p := fun entry => key entry.1 ∉ (items.take entry.2).map key)).map Prod.fst
  rwa [List.zipIdx_map_fst] at kept

/-- What stays has all the keys that there are. -/
theorem mem_map_firsts_iff {items : List α} {k : β} :
    k ∈ (firsts key items).map key ↔ k ∈ items.map key := by
  induction items using List.reverseRecOn with
  | nil => rfl
  | append_singleton items item ih =>
      rw [firsts_concat, List.map_append, List.map_append, List.mem_append, List.mem_append, ih]
      split
      · next isOld =>
          simp only [List.map_nil, List.not_mem_nil, or_false, List.map_singleton,
            List.mem_singleton]
          refine (or_iff_left_of_imp ?_).symm
          rintro rfl
          exact isOld
      · rfl

/-- No key stays twice. -/
theorem nodup_map_firsts (key : α → β) (items : List α) : ((firsts key items).map key).Nodup := by
  induction items using List.reverseRecOn with
  | nil => exact List.nodup_nil
  | append_singleton items item ih =>
      rw [firsts_concat]
      split
      · rwa [List.append_nil]
      · next isNew =>
          rw [List.map_append, List.nodup_append']
          refine ⟨ih, List.nodup_singleton _, ?_⟩
          rw [List.map_singleton, List.disjoint_singleton, mem_map_firsts_iff]
          exact isNew

/-- As many items stay as there are keys. -/
theorem length_firsts (key : α → β) (items : List α) :
    (firsts key items).length = (items.map key).toFinset.card := by
  have sameKeys : (items.map key).toFinset = ((firsts key items).map key).toFinset := by
    ext k
    rw [List.mem_toFinset, List.mem_toFinset, mem_map_firsts_iff]
  rw [sameKeys, List.toFinset_card_of_nodup (nodup_map_firsts key items), List.length_map]

/-- **The first item of a key stays.** -/
theorem find?_firsts (key : α → β) (items : List α) (k : β) :
    (firsts key items).find? (key · = k) = items.find? (key · = k) := by
  induction items using List.reverseRecOn with
  | nil => rfl
  | append_singleton items item ih =>
      rw [firsts_concat, List.find?_append, List.find?_append, ih]
      split
      · next isOld =>
          by_cases isKey : key item = k
          · -- an item in front has the key, and is found on both sides
            obtain ⟨first, isFirst, sameKey⟩ := List.mem_map.1 isOld
            have found : (items.find? (key · = k)).isSome = true :=
              List.find?_isSome.2 ⟨first, isFirst, by simpa [sameKey] using isKey⟩
            obtain ⟨item, isItem⟩ := Option.isSome_iff_exists.1 found
            rw [isItem]
            rfl
          · simp [isKey]
      · rfl

/-- An item whose key has come up may be dropped. -/
theorem firsts_drop {front : List α} {item : α} (isOld : key item ∈ front.map key)
    (back : List α) : firsts key (front ++ item :: back) = firsts key (front ++ back) := by
  induction back using List.reverseRecOn with
  | nil => rw [firsts_concat, if_pos isOld, List.append_nil, List.append_nil]
  | append_singleton back last ih =>
      have sameKeys : key last ∈ (front ++ item :: back).map key ↔
          key last ∈ (front ++ back).map key := by
        simp only [List.map_append, List.map_cons, List.mem_append, List.mem_cons]
        constructor
        · rintro (inFront | same | inBack)
          · exact .inl inFront
          · exact .inl (same ▸ isOld)
          · exact .inr inBack
        · exact Or.imp_right .inr
      rw [← List.cons_append, ← List.append_assoc, ← List.append_assoc, firsts_concat,
        firsts_concat, ih]
      simp only [sameKeys]

/-- Items may be dropped by their key before or after. -/
theorem firsts_filter (wanted : β → Bool) (items : List α) :
    firsts key (items.filter fun item => wanted (key item)) =
      (firsts key items).filter fun item => wanted (key item) := by
  induction items using List.reverseRecOn with
  | nil => rfl
  | append_singleton items item ih =>
      rw [firsts_concat, List.filter_append, List.filter_append, ← ih]
      cases isWanted : wanted (key item) with
      | false =>
          have goes : [item].filter (fun item => wanted (key item)) = [] := by simp [isWanted]
          rw [goes, List.append_nil]
          split
          · rw [List.filter_nil, List.append_nil]
          · rw [goes, List.append_nil]
      | true =>
          have stays : [item].filter (fun item => wanted (key item)) = [item] := by
            simp [isWanted]
          have sameKeys : key item ∈ (items.filter fun item => wanted (key item)).map key ↔
              key item ∈ items.map key := by
            simp only [List.mem_map, List.mem_filter]
            constructor
            · rintro ⟨other, ⟨isIn, -⟩, same⟩
              exact ⟨other, isIn, same⟩
            · rintro ⟨other, isIn, same⟩
              exact ⟨other, ⟨isIn, by rw [same, isWanted]⟩, same⟩
          rw [stays, firsts_concat]
          simp only [sameKeys]
          split
          · rw [List.filter_nil]
          · rw [stays]

end RepoContract
