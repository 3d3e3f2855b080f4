/-!
# Lookups

Lists of entries as maps. For one key the first entry counts, so an entry that is put in front hides
the others for its key.
-/
namespace ClassAtlas

variable {α β : Type} [BEq α] [LawfulBEq α] {entries : List (α × β)} {key : α} {b : β}

/-- Entries with one more in front. -/
theorem lookup_entry [DecidableEq α] (a key : α) (b : β) (entries : List (α × β)) :
    ((a, b) :: entries).lookup key = if key = a then some b else entries.lookup key := by
  by_cases same : key = a
  · simp [same]
  · simp [List.lookup_cons, beq_false_of_ne same, same]

theorem mem_of_lookup_eq_some (found : entries.lookup key = some b) : (key, b) ∈ entries := by
  obtain ⟨before, after, rfl, -⟩ := List.lookup_eq_some_iff.mp found
  simp

/-- Where no key has two entries, the entries are what is found. -/
theorem mem_iff_lookup_eq_some (once : (entries.map Prod.fst).Nodup) :
    (key, b) ∈ entries ↔ entries.lookup key = some b := by
  constructor
  · intro member
    obtain ⟨before, after, rfl⟩ := List.append_of_mem member
    have hidden : ∀ entry ∈ before, (key != entry.1) = true := by
      intro entry earlier
      refine bne_iff_ne.mpr fun same => ?_
      rw [List.map_append, List.nodup_append] at once
      exact once.2.2 _ (List.mem_map_of_mem earlier) _ List.mem_cons_self same.symm
    exact List.lookup_eq_some_iff.mpr ⟨before, after, rfl, hidden⟩
  · exact mem_of_lookup_eq_some

end ClassAtlas
