import ClassAtlas.Proofs.Layout.Neighbours

/-!
# Runs of layout

The state in which a token is placed is the one that the tokens before it have left. What is known
of every step so becomes known of every place in the normalized text.
-/
namespace ClassAtlas

namespace LayoutState

/-- The state after some tokens that are written before others. -/
def after (s : LayoutState) (later : List Token) : List Token → LayoutState
  | [] => s
  | t :: rest => after (s.place .kept t (rest ++ later).head?).2 later rest

theorem after_append (s : LayoutState) (left right later : List Token) :
    s.after later (left ++ right) = (s.after (right ++ later) left).after later right := by
  induction left generalizing s with
  | nil => rfl
  | cons t rest ih => rw [List.cons_append, after, after, List.append_assoc, ih]

/-- After the last of some tokens is the state that placing it has left. -/
theorem after_concat (s : LayoutState) (left later : List Token) (t : Token) :
    s.after later (left ++ [t]) = ((s.after (t :: later) left).place .kept t later.head?).2 := by
  rw [after_append]
  rfl

theorem previous?_after_concat (s : LayoutState) (left later : List Token) (t : Token) :
    (s.after later (left ++ [t])).previous? = some t := by
  rw [after_concat, previous?_place_kept]

/-- Only before the first token nothing has been written. -/
theorem due_after_ne_atStart (s : LayoutState) {before : List Token} (later : List Token)
    (some_before : before ≠ []) : (s.after later before).due ≠ .atStart := by
  rw [← List.dropLast_append_getLast some_before, after_concat]
  exact due_place_kept_ne_atStart _ _ _

theorem map_token_placeAll (s : LayoutState) (ts : List Token) :
    (placeAll .kept s ts).1.map Placed.token = ts := by
  induction ts generalizing s with
  | nil => rfl
  | cons t rest ih =>
    obtain ⟨gap, placed, -⟩ := s.place_kept_gap t rest.head?
    rw [placeAll_cons placed, List.map_cons, ih]

/-- What is placed of some tokens does not depend on what is placed after them, but for the token
that comes next. -/
theorem exists_placeAll_append (s : LayoutState) (left right : List Token) :
    ∃ placed, placed.map Placed.token = left ∧
      (placeAll .kept s (left ++ right)).1 =
        placed ++ (placeAll .kept (s.after right left) right).1 := by
  induction left generalizing s with
  | nil => exact ⟨[], rfl, rfl⟩
  | cons t rest ih =>
    obtain ⟨gap, written, -⟩ := s.place_kept_gap t (rest ++ right).head?
    obtain ⟨placed, tokens, others⟩ := ih (s.place .kept t (rest ++ right).head?).2
    refine ⟨⟨gap, t⟩ :: placed, by rw [List.map_cons, tokens], ?_⟩
    rw [List.cons_append, placeAll_cons written, others, after]
    rfl

/-- A token of a run is placed in the state that the tokens before it have left. -/
theorem placed_of_split {s : LayoutState} {ts : List Token} {before later : List Placed}
    {p : Placed} (split : (placeAll .kept s ts).1 = before ++ p :: later) :
    ((s.after (p.token :: later.map Placed.token) (before.map Placed.token)).place .kept p.token
      (later.map Placed.token).head?).1 = some p.gap := by
  have tokens : ts = before.map Placed.token ++ p.token :: later.map Placed.token := by
    rw [← s.map_token_placeAll ts, split, List.map_append, List.map_cons]
  obtain ⟨placed, same, others⟩ := s.exists_placeAll_append (before.map Placed.token)
    (p.token :: later.map Placed.token)
  rw [← tokens, split] at others
  have lengths : before.length = placed.length := by simpa using (congrArg List.length same).symm
  obtain ⟨-, here⟩ := List.append_inj others lengths
  obtain ⟨gap, written, -⟩ := place_kept_gap
    (s.after (p.token :: later.map Placed.token) (before.map Placed.token)) p.token
    (later.map Placed.token).head?
  rw [placeAll_cons written] at here
  rw [written, (List.cons.inj here).1]

end LayoutState

namespace Node

theorem map_token_placed (n : Node) : n.placed.map Placed.token = n.tokens :=
  LayoutState.initial.map_token_placeAll n.tokens

theorem tokens_of_split {n : Node} {before later : List Placed} {p : Placed}
    (split : n.placed = before ++ p :: later) :
    n.tokens = before.map Placed.token ++ p.token :: later.map Placed.token := by
  rw [← n.map_token_placed, split, List.map_append, List.map_cons]

/-- The normalized text is made of the placed tokens. -/
theorem normalized_eq_placedText (n : Node) {options : LayoutOptions}
    (blank_newline : Text.allBlank options.newline = true) :
    n.normalized options = placedText options n.placed :=
  layoutLines_eq_placedText blank_newline n.tokens n.tokens_endsVisible

end Node

end ClassAtlas
