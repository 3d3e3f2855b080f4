import ClassAtlas.Json.Read
import ClassAtlas.Json.Write

/-!
# JSON strings read back

A text that is written in quotes is read back as it was. Each of its characters becomes one piece: a
control character without a letter for its escape is read as a number, every other character as
itself. None of these numbers is half of a surrogate pair.
-/
namespace ClassAtlas.JsonValue

/-- The control characters whose escape is a letter. -/
def letteredControls : List Char := ['\x08', '\x0c', '\n', '\r', '\t']

/-- What a written character is read as. -/
def pieceOf (c : Char) : Piece :=
  if c.toNat < 0x20 ∧ c ∉ letteredControls then .unit c.toNat else .char c

/-- The escape of a control character by its number. -/
def numbered (value : Nat) : List Char :=
  ['\\', 'u', '0', '0', hexDigit (value / 16), hexDigit (value % 16)]

/-! ### How a character is written -/

/-- A character is written in one of three ways: as a backslash and a letter, as its number if it is
a control character, or as it is. -/
theorem escape_cases (c : Char) :
    (∃ letter, escape c = ['\\', letter] ∧ unescape? letter = some c ∧ pieceOf c = .char c) ∨
      (c.toNat < 0x20 ∧ escape c = numbered c.toNat ∧ pieceOf c = .unit c.toNat) ∨
      (c ≠ '"' ∧ c ≠ '\\' ∧ ¬c.toNat < 0x20 ∧ escape c = [c] ∧ pieceOf c = .char c) := by
  by_cases lettered : c ∈ '"' :: '\\' :: letteredControls
  · left
    simp only [letteredControls, List.mem_cons, List.not_mem_nil, or_false] at lettered
    rcases lettered with rfl | rfl | rfl | rfl | rfl | rfl | rfl
    · exact ⟨'"', by decide⟩
    · exact ⟨'\\', by decide⟩
    · exact ⟨'b', by decide⟩
    · exact ⟨'f', by decide⟩
    · exact ⟨'n', by decide⟩
    · exact ⟨'r', by decide⟩
    · exact ⟨'t', by decide⟩
  · right
    simp only [List.mem_cons, not_or] at lettered
    obtain ⟨quote, backslash, other⟩ := lettered
    have cases := other
    simp only [letteredControls, List.mem_cons, List.not_mem_nil, or_false, not_or] at cases
    by_cases control : c.toNat < 0x20
    · left
      exact ⟨control, by simp [escape, quote, backslash, cases, control, numbered],
        by simp [pieceOf, control, other]⟩
    · right
      exact ⟨quote, backslash, control, by simp [escape, quote, backslash, cases, control],
        by simp [pieceOf, control]⟩

theorem hexNumber?_numbered {value : Nat} (small : value < 0x20) :
    Text.hexNumber? ['0', '0', hexDigit (value / 16), hexDigit (value % 16)] = some value := by
  revert value
  decide

theorem lineFeed_not_mem_escape (c : Char) : '\n' ∉ escape c := by
  rcases escape_cases c with ⟨letter, written, read, -⟩ | ⟨control, written, -⟩ |
    ⟨-, -, visible, written, -⟩
  · have other : letter ≠ '\n' := by
      rintro rfl
      simp [unescape?] at read
    simp [written, other.symm]
  · have digits : ∀ value < 0x20, '\n' ∉ numbered value := by decide
    exact written ▸ digits _ control
  · have other : c ≠ '\n' := by
      rintro rfl
      exact visible (by decide)
    simp [written, other.symm]

/-! ### Reading the pieces -/

theorem pieces_lettered {letter c : Char} (short : unescape? letter = some c) (rest : List Char) :
    pieces ('\\' :: letter :: rest) =
      (pieces rest).map fun (inside, rest) => (.char c :: inside, rest) := by
  have other : letter ≠ 'u' := by
    rintro rfl
    simp [unescape?] at short
  rw [pieces, short]
  · cases pieces rest <;> rfl
  · exact fun _ _ _ _ _ equal _ => other equal

theorem pieces_escape (c : Char) (rest : List Char) :
    pieces (escape c ++ rest) =
      (pieces rest).map fun (inside, rest) => (pieceOf c :: inside, rest) := by
  rcases escape_cases c with ⟨letter, written, read, piece⟩ | ⟨control, written, piece⟩ |
    ⟨quote, backslash, visible, written, piece⟩
  · rw [written, piece]
    exact pieces_lettered read rest
  · rw [written, piece]
    simp only [numbered, List.cons_append, List.nil_append, pieces, hexNumber?_numbered control]
    cases pieces rest <;> rfl
  · rw [written, piece, List.singleton_append, pieces, if_neg visible]
    · exact quote
    · exact fun _ _ _ _ _ equal _ => backslash equal
    · exact fun _ _ equal _ => backslash equal

theorem pieces_escaped (text rest : List Char) :
    pieces (text.flatMap escape ++ '"' :: rest) = some (text.map pieceOf, rest) := by
  induction text with
  | nil => simp [pieces]
  | cons c text ih =>
    rw [List.flatMap_cons, List.append_assoc, pieces_escape, ih]
    rfl

/-! ### Putting the pieces together -/

theorem assemble_unit_cons {value : Nat} (small : value < 0x20) (rest : List Piece) :
    assemble (.unit value :: rest) = (assemble rest).map (Char.ofNat value :: ·) := by
  have high : isHighSurrogate value = false := by simp [isHighSurrogate]; omega
  have low : isLowSurrogate value = false := by simp [isLowSurrogate]; omega
  match rest with
  | [] | .char _ :: _ | .unit _ :: _ => simp [assemble, high, low]

theorem assemble_pieceOf (text : List Char) : assemble (text.map pieceOf) = some text := by
  induction text with
  | nil => rfl
  | cons c text ih =>
    rw [List.map_cons]
    rcases escape_cases c with ⟨_, -, -, piece⟩ | ⟨control, -, piece⟩ | ⟨-, -, -, -, piece⟩
    · simp [piece, assemble, ih]
    · simp [piece, assemble_unit_cons control, ih]
    · simp [piece, assemble, ih]

/-- A string is read back from what is written after its opening quote. -/
theorem readString_written (text : String) (rest : List Char) :
    readString (text.toList.flatMap escape ++ '"' :: rest) = some (some text, rest) := by
  simp [readString, pieces_escaped, assemble_pieceOf]

end ClassAtlas.JsonValue
