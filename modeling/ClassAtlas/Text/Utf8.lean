/-!
# UTF-8

Bytes as characters. The first byte of a character says how many bytes follow it and in which range
the first of those lies, which rules out overlong forms, surrogates and code points that are too
large. A byte that does not fit ends the attempt: what has been taken so far counts as one fault,
and decoding goes on with that byte. The bytes of a text have no fault and give the text back.
-/
namespace ClassAtlas.Text.Utf8

/-- What the first byte of a character says: how many bytes follow, the least and the greatest value
of the first of them, and the highest bits of the code point. -/
structure Lead where
  following : Nat
  least : UInt8
  greatest : UInt8
  bits : Nat
  deriving DecidableEq, Repr

/-- The first bytes of characters. -/
def lead? (b : UInt8) : Option Lead :=
  if b < 0x80 then some ⟨0, 0x80, 0xBF, b.toNat⟩
  else if b < 0xC2 then none
  else if b < 0xE0 then some ⟨1, 0x80, 0xBF, b.toNat - 0xC0⟩
  else if b = 0xE0 then some ⟨2, 0xA0, 0xBF, 0⟩
  else if b = 0xED then some ⟨2, 0x80, 0x9F, 0xD⟩
  else if b < 0xF0 then some ⟨2, 0x80, 0xBF, b.toNat - 0xE0⟩
  else if b = 0xF0 then some ⟨3, 0x90, 0xBF, 0⟩
  else if b < 0xF4 then some ⟨3, 0x80, 0xBF, b.toNat - 0xF0⟩
  else if b = 0xF4 then some ⟨3, 0x80, 0x8F, 4⟩
  else none

/-- Takes the bytes that follow a first one: the code point, when all of them are there, and the
bytes that are left. -/
def takeFollowing : Nat → UInt8 → UInt8 → Nat → List UInt8 → Option Nat × List UInt8
  | 0, _, _, bits, rest => (some bits, rest)
  | _ + 1, _, _, _, [] => (none, [])
  | owed + 1, least, greatest, bits, b :: rest =>
    if least ≤ b ∧ b ≤ greatest then
      takeFollowing owed 0x80 0xBF (bits * 64 + b.toNat % 64) rest
    else (none, b :: rest)

/-- Takes one character after its first byte, or the fault that it is. -/
def takeChar (b : UInt8) (rest : List UInt8) : Option Char × List UInt8 :=
  match lead? b with
  | none => (none, rest)
  | some lead =>
    let (point?, rest) := takeFollowing lead.following lead.least lead.greatest lead.bits rest
    (point?.map Char.ofNat, rest)

theorem takeFollowing_length_le (owed : Nat) (least greatest : UInt8) (bits : Nat)
    (bytes : List UInt8) :
    (takeFollowing owed least greatest bits bytes).2.length ≤ bytes.length := by
  induction owed generalizing least greatest bits bytes with
  | zero => simp [takeFollowing]
  | succ owed ih =>
    cases bytes with
    | nil => simp [takeFollowing]
    | cons b rest =>
      simp only [takeFollowing]
      split
      · exact Nat.le_succ_of_le (ih _ _ _ rest)
      · exact Nat.le_refl _

theorem takeChar_length_le (b : UInt8) (rest : List UInt8) :
    (takeChar b rest).2.length ≤ rest.length := by
  simp only [takeChar]
  split
  · exact Nat.le_refl _
  · exact takeFollowing_length_le _ _ _ _ rest

/-- Puts the characters of the bytes, with `none` for each fault, in reverse in front of `done`. -/
def decodeOnto (done : List (Option Char)) : List UInt8 → List (Option Char)
  | [] => done
  | b :: rest => decodeOnto ((takeChar b rest).1 :: done) (takeChar b rest).2
  termination_by bytes => bytes.length
  decreasing_by exact Nat.lt_succ_of_le (takeChar_length_le b rest)

/-- The characters of the bytes, with `none` for each fault. -/
def decode (bytes : List UInt8) : List (Option Char) := (decodeOnto [] bytes).reverse

/-- The text of bytes without a fault. -/
def text? (bytes : List UInt8) : Option String := ((decode bytes).mapM id).map String.ofList

/-- What stands for a fault. -/
def replacement : Char := '\uFFFD'

/-- The text of any bytes, with a replacement character for each fault. -/
def lossyText (bytes : List UInt8) : String :=
  String.ofList ((decode bytes).map fun c => c.getD replacement)

/-- The bytes of a text. -/
def encode (s : String) : List UInt8 := s.toList.flatMap String.utf8EncodeChar

theorem decodeOnto_append (done : List (Option Char)) (bytes : List UInt8) :
    decodeOnto done bytes = decodeOnto [] bytes ++ done := by
  induction size : bytes.length using Nat.strongRecOn generalizing done bytes with
  | ind n ih =>
    cases bytes with
    | nil => simp [decodeOnto]
    | cons b rest =>
      have shorter : (takeChar b rest).2.length < n := by
        have bound := takeChar_length_le b rest
        simp only [List.length_cons] at size
        omega
      rw [decodeOnto, decodeOnto, ih _ shorter ((takeChar b rest).1 :: done) _ rfl,
        ih _ shorter [(takeChar b rest).1] _ rfl]
      simp

@[simp] theorem decode_nil : decode [] = [] := by simp [decode, decodeOnto]

/-- A character, or the fault in its place, comes before what the bytes after it give. -/
theorem decode_cons (b : UInt8) (rest : List UInt8) :
    decode (b :: rest) = (takeChar b rest).1 :: decode (takeChar b rest).2 := by
  rw [decode, decodeOnto, decodeOnto_append]
  simp [decode]

/-! ### Reading back what was written -/

/-- What the first byte of a character says, by its number. -/
theorem lead?_ofNat {n : Nat} (small : n < 256) : lead? (UInt8.ofNat n) =
    if n < 0x80 then some ⟨0, 0x80, 0xBF, n⟩
    else if n < 0xC2 then none
    else if n < 0xE0 then some ⟨1, 0x80, 0xBF, n - 0xC0⟩
    else if n = 0xE0 then some ⟨2, 0xA0, 0xBF, 0⟩
    else if n = 0xED then some ⟨2, 0x80, 0x9F, 0xD⟩
    else if n < 0xF0 then some ⟨2, 0x80, 0xBF, n - 0xE0⟩
    else if n = 0xF0 then some ⟨3, 0x90, 0xBF, 0⟩
    else if n < 0xF4 then some ⟨3, 0x80, 0xBF, n - 0xF0⟩
    else if n = 0xF4 then some ⟨3, 0x80, 0x8F, 4⟩
    else none := by
  have value : (UInt8.ofNat n).toNat = n := UInt8.toNat_ofNat_of_lt' small
  have same (k : UInt8) : UInt8.ofNat n = k ↔ n = k.toNat := by
    rw [← UInt8.toNat_inj, value]
  simp only [lead?, UInt8.lt_iff_toNat_lt, same, value]
  rfl

/-- A byte that goes on with a character adds six bits. -/
theorem takeFollowing_byte {owed bits n : Nat} {least greatest : UInt8} {rest : List UInt8}
    (low : least.toNat ≤ n % 64 + 128) (high : n % 64 + 128 ≤ greatest.toNat) :
    takeFollowing (owed + 1) least greatest bits (UInt8.ofNat (n % 64 + 128) :: rest) =
      takeFollowing owed 0x80 0xBF (bits * 64 + n % 64) rest := by
  have value : (UInt8.ofNat (n % 64 + 128)).toNat = n % 64 + 128 :=
    UInt8.toNat_ofNat_of_lt' (Nat.lt_of_le_of_lt high greatest.toNat_lt)
  have within : least ≤ UInt8.ofNat (n % 64 + 128) ∧ UInt8.ofNat (n % 64 + 128) ≤ greatest := by
    rw [UInt8.le_iff_toNat_le, UInt8.le_iff_toNat_le, value]
    exact ⟨low, high⟩
  have six : (n % 64 + 128) % 64 = n % 64 := by omega
  rw [takeFollowing, if_pos within, value, six]

theorem takeFollowing_last {bits n : Nat} {least greatest : UInt8} {rest : List UInt8}
    (low : least.toNat ≤ n % 64 + 128) (high : n % 64 + 128 ≤ greatest.toNat) :
    takeFollowing 1 least greatest bits (UInt8.ofNat (n % 64 + 128) :: rest) =
      (some (bits * 64 + n % 64), rest) := by
  rw [takeFollowing_byte low high, takeFollowing]

/-- Of the bytes that go on with a character, the first byte restricts only the next one. -/
theorem takeFollowing_two {bits n : Nat} {least greatest : UInt8} {rest : List UInt8}
    (low : least.toNat ≤ n / 64 % 64 + 128) (high : n / 64 % 64 + 128 ≤ greatest.toNat) :
    takeFollowing 2 least greatest bits
        (UInt8.ofNat (n / 64 % 64 + 128) :: UInt8.ofNat (n % 64 + 128) :: rest) =
      (some (bits * 4096 + n % 4096), rest) := by
  rw [takeFollowing_byte low high,
    takeFollowing_last (show 0x80 ≤ _ by omega) (show _ ≤ 0xBF by omega)]
  have same : (bits * 64 + n / 64 % 64) * 64 + n % 64 = bits * 4096 + n % 4096 := by omega
  rw [same]

theorem takeFollowing_three {bits n : Nat} {least greatest : UInt8} {rest : List UInt8}
    (low : least.toNat ≤ n / 4096 % 64 + 128) (high : n / 4096 % 64 + 128 ≤ greatest.toNat) :
    takeFollowing 3 least greatest bits
        (UInt8.ofNat (n / 4096 % 64 + 128) :: UInt8.ofNat (n / 64 % 64 + 128) ::
          UInt8.ofNat (n % 64 + 128) :: rest) =
      (some (bits * 262144 + n % 262144), rest) := by
  rw [takeFollowing_byte low high,
    takeFollowing_two (show 0x80 ≤ _ by omega) (show _ ≤ 0xBF by omega)]
  have same : (bits * 64 + n / 4096 % 64) * 4096 + n % 4096 = bits * 262144 + n % 262144 := by
    omega
  rw [same]

theorem takeChar_of_lead {b least greatest : UInt8} {owed bits point : Nat} {c : Char}
    {bytes rest : List UInt8} (leads : lead? b = some ⟨owed, least, greatest, bits⟩)
    (taken : takeFollowing owed least greatest bits bytes = (some point, rest))
    (same : point = c.toNat) : takeChar b bytes = (some c, rest) := by
  simp only [takeChar, leads, taken, same, Option.map_some, Char.ofNat_toNat]

/-- A character is read back from its bytes, and what follows them is left. -/
theorem takeChar_encodeChar (c : Char) (rest : List UInt8) :
    ∃ b bytes, String.utf8EncodeChar c = b :: bytes ∧
      takeChar b (bytes ++ rest) = (some c, rest) := by
  have valid : c.toNat < 0xD800 ∨ 0xDFFF < c.toNat ∧ c.toNat < 0x110000 := c.valid
  have written : c.val.toNat = c.toNat := rfl
  unfold String.utf8EncodeChar
  simp only [written]
  split
  · have leads := lead?_ofNat (n := c.toNat) (by omega)
    rw [if_pos (by omega)] at leads
    exact ⟨_, [], rfl, takeChar_of_lead leads (by rw [takeFollowing]; rfl) rfl⟩
  split
  · have leads := lead?_ofNat (n := c.toNat / 64 % 32 + 192) (by omega)
    rw [if_neg (by omega), if_neg (by omega), if_pos (by omega)] at leads
    exact ⟨_, _, rfl, takeChar_of_lead leads
      (takeFollowing_last (show 0x80 ≤ _ by omega) (show _ ≤ 0xBF by omega)) (by omega)⟩
  split
  · have leads := lead?_ofNat (n := c.toNat / 4096 % 16 + 224) (by omega)
    rw [if_neg (by omega), if_neg (by omega), if_neg (by omega)] at leads
    -- The first byte leaves out overlong forms after 0xE0 and surrogates after 0xED.
    split at leads
    · exact ⟨_, _, rfl, takeChar_of_lead leads
        (takeFollowing_two (show 0xA0 ≤ _ by omega) (show _ ≤ 0xBF by omega))
        (by rw [Nat.zero_mul]; omega)⟩
    split at leads
    · exact ⟨_, _, rfl, takeChar_of_lead leads
        (takeFollowing_two (show 0x80 ≤ _ by omega) (show _ ≤ 0x9F by omega)) (by omega)⟩
    rw [if_pos (by omega)] at leads
    exact ⟨_, _, rfl, takeChar_of_lead leads
      (takeFollowing_two (show 0x80 ≤ _ by omega) (show _ ≤ 0xBF by omega)) (by omega)⟩
  · have leads := lead?_ofNat (n := c.toNat / 262144 % 8 + 240) (by omega)
    iterate 6 rw [if_neg (by omega)] at leads
    -- It leaves out overlong forms after 0xF0 and what is no code point after 0xF4.
    split at leads
    · exact ⟨_, _, rfl, takeChar_of_lead leads
        (takeFollowing_three (show 0x90 ≤ _ by omega) (show _ ≤ 0xBF by omega))
        (by rw [Nat.zero_mul]; omega)⟩
    split at leads
    · exact ⟨_, _, rfl, takeChar_of_lead leads
        (takeFollowing_three (show 0x80 ≤ _ by omega) (show _ ≤ 0xBF by omega)) (by omega)⟩
    rw [if_pos (by omega)] at leads
    exact ⟨_, _, rfl, takeChar_of_lead leads
      (takeFollowing_three (show 0x80 ≤ _ by omega) (show _ ≤ 0x8F by omega)) (by omega)⟩

theorem decode_encode (s : String) : decode (encode s) = s.toList.map some := by
  rw [encode]
  induction s.toList with
  | nil => simp
  | cons c rest ih =>
    obtain ⟨b, bytes, written, taken⟩ := takeChar_encodeChar c (rest.flatMap String.utf8EncodeChar)
    rw [List.flatMap_cons, written, List.cons_append, decode_cons, taken, ih, List.map_cons]

theorem text?_encode (s : String) : text? (encode s) = some s := by
  have known (chars : List Char) : (chars.map some).mapM id = some chars := by
    induction chars with
    | nil => rfl
    | cons c rest ih => simp [ih]
  rw [text?, decode_encode, known, Option.map_some, String.ofList_toList]

theorem lossyText_encode (s : String) : lossyText (encode s) = s := by
  rw [lossyText, decode_encode, List.map_map]
  simp [Function.comp_def]

end ClassAtlas.Text.Utf8
