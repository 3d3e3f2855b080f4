import ClassAtlas.Proofs.References.Reachable

/-!
# Searches compared

Two searches may come to the same type on different ways and record it at different times. What the
one records in the end, the other records too, if it starts from no less and passes over no less.
-/
namespace ClassAtlas

variable {table : SymbolTable} {follow follow' : Bool}

theorem TypeRef.Hands.mono (keeps : follow = true → follow' = true) {t : TypeRef} {id : TypeId}
    (hands : t.Hands table follow id) : t.Hands table follow' id := by
  induction hands with
  | whole found => exact .whole found
  | part followed inside _ ih => exact .part (keeps followed) inside ih

theorem Visit.Hands.mono (keeps : follow = true → follow' = true) {v : Visit} {id : TypeId}
    (hands : v.Hands table follow id) : v.Hands table follow' id := by
  cases v with
  | type _ => exact hands
  | reference _ => exact TypeRef.Hands.mono keeps hands

namespace Model

variable {m : Model} {visits more : List Visit}

theorem LeadsTo.mono (keeps : follow = true → follow' = true) {id found : TypeId}
    (leads : m.LeadsTo follow id found) : m.LeadsTo follow' id found := by
  obtain ⟨s, there, container, t, listed, hands⟩ := leads
  exact ⟨s, there, container, t, listed, hands.mono keeps⟩

/-- Starting from more, and passing over more, reaches more. -/
theorem Reachable.mono (keeps : follow = true → follow' = true) (within : visits ⊆ more)
    {id : TypeId} (reachable : m.Reachable follow visits id) : m.Reachable follow' more id := by
  induction reachable with
  | visited member hands known => exact .visited (within member) (hands.mono keeps) known
  | next _ leads known ih => exact .next ih (leads.mono keeps) known

/-- In a file with plain names, the definitions are those of the reachable types. -/
theorem mem_collectAll_iff {tree : Tree} (plain : PlainlyNamed (ofTree tree).table.types)
    {options : LayoutOptions} {definition : String × String} :
    definition ∈ (ofTree tree).collectAll options follow visits [] ↔
      ∃ id, (ofTree tree).Reachable follow visits id ∧
        (ofTree tree).entry options id = definition := by
  -- Nothing is recorded at first, and in the end everything reachable is, under its own name.
  have merges := SymbolTable.merges_ofRoot (.root tree)
  have nothing : Records (ofTree tree) options [] [] := ⟨rfl, List.nodup_nil, nofun⟩
  have start : Complete (ofTree tree) follow [] [] := ⟨nofun, nofun, nofun⟩
  obtain ⟨ids, records, complete⟩ := collectAll_complete
    (SymbolTable.displayName_injective plain merges.placed merges.different) start nothing visits
  rw [records.entries, List.mem_map]
  exact exists_congr fun id => and_congr_left fun _ => complete.mem_iff

/-- What a search records in the end, one that starts from more and passes over more records with
the same text. -/
theorem collectAll_subset {tree : Tree} (plain : PlainlyNamed (ofTree tree).table.types)
    (options : LayoutOptions) (keeps : follow = true → follow' = true) (within : visits ⊆ more) :
    (ofTree tree).collectAll options follow visits [] ⊆
      (ofTree tree).collectAll options follow' more [] := by
  intro definition listed
  obtain ⟨id, reachable, same⟩ := (mem_collectAll_iff plain).mp listed
  exact (mem_collectAll_iff plain).mpr ⟨id, reachable.mono keeps within, same⟩

end Model

end ClassAtlas
