import ClassAtlas.Proofs.Syntax.Descent
import ClassAtlas.Syntax.Listing

/-!
# Trees that have been read

What stands at the nodes of a tree that is read from a listing are its lines.
-/
namespace ClassAtlas.Tree

/-- Every node of a tree that has been read is that of a line of the listing. -/
theorem infos_of_listing {source : String} {lines : List Listed} {tree : Tree}
    (read : ofListing? source lines = some tree) :
    ∀ info ∈ tree.infos, ∃ line ∈ lines,
      info = infoOfListed source.toList (Text.lineFeeds 0 source.toList) line := by
  have all {lines : List Listed} {trees : List Tree}
      (read : lines.foldr (fun line later => later.bind (addListed source.toList
        (Text.lineFeeds 0 source.toList) line)) (some []) = some trees) :
      ∀ info ∈ trees.flatMap infos, ∃ line ∈ lines,
        info = infoOfListed source.toList (Text.lineFeeds 0 source.toList) line := by
    -- The listing is read from its back, and every line puts its node in front of what is there.
    induction lines generalizing trees with
    | nil =>
      cases read
      exact fun _ member => absurd member List.not_mem_nil
    | cons line rest ih =>
      rw [List.foldr_cons, Option.bind_eq_some_iff] at read
      obtain ⟨later, before, added⟩ := read
      unfold addListed at added
      split at added
      · next enough =>
        cases added
        intro info member
        rw [List.flatMap_cons, infos, infosOf_eq_flatMap, List.cons_append, List.mem_cons,
          ← List.flatMap_append, List.take_append_drop] at member
        obtain rfl | inner := member
        · exact ⟨line, List.mem_cons_self, rfl⟩
        · obtain ⟨other, listed, same⟩ := ih before info inner
          exact ⟨other, List.mem_cons_of_mem _ listed, same⟩
      · cases added
  unfold ofListing? at read
  dsimp only at read
  split at read
  · next single =>
    cases read
    intro info member
    exact all single info (by simpa using member)
  · cases read

end ClassAtlas.Tree
