import ClassAtlas.Proofs.Toml.Keys
import ClassAtlas.Toml.Settings

/-!
# What a configuration says

The settings that the entries of a document stand for, key by key: a key that is there has to spell
its setting, one that is missing leaves the standard value, and other keys say nothing. A profile is
spelled by its name, or by a table with an entry of that name that holds nothing. Readers of
configurations are required to find exactly these settings in documents without repeated keys, and
the one of the command does.
-/
namespace ClassAtlas

open Toml (Value Entries KeysOnce)

variable {α : Type} {entries : Entries}

/-- What is said under a key whose values spell things by `Spells`. -/
inductive Said (entries : Entries) (key : String) (Spells : Value → α → Prop) (standard : α) :
    α → Prop
  | spelled {value : Value} {a : α} : (key, value) ∈ entries → Spells value a →
      Said entries key Spells standard a
  | missing : (∀ value, (key, value) ∉ entries) → Said entries key Spells standard standard

/-- A value spells a text. -/
def SpellsText (value : Value) (text : String) : Prop := value = .string text

/-- A value spells a yes or a no. -/
def SpellsFlag (value : Value) (flag : Bool) : Prop := value = .bool flag

/-- A value spells a profile. -/
inductive SpellsProfile : Value → Profile → Prop
  | name (profile : Profile) : SpellsProfile (.string profile.name) profile
  | table (profile : Profile) (outer inner : Toml.Origin) :
      SpellsProfile (.table outer [(profile.name, .table inner [])]) profile
  | array (profile : Profile) (outer : Toml.Origin) :
      SpellsProfile (.table outer [(profile.name, .array [])]) profile

/-- The entries of a document say these settings. -/
structure Settings.SaidBy (s : Settings) (entries : Entries) : Prop where
  profile : Said entries "profile" SpellsProfile .full s.profile
  indent : Said entries "indent" SpellsText "    " s.indent
  newline : Said entries "newline" SpellsText "\n" s.newline
  pretty : Said entries "pretty" SpellsFlag false s.pretty
  followTypeArguments :
    Said entries "follow_type_arguments" SpellsFlag true s.followTypeArguments
  namespaceSentinel : Said entries "namespace_sentinel" SpellsText "Global" s.namespaceSentinel
  fallbackExceptionType :
    Said entries "fallback_exception_type" SpellsText "Exception" s.fallbackExceptionType

/-- A reader of configurations gives documents without repeated keys, and it finds the settings that
the entries of such a document say, and only these. -/
structure ConfigurationReader.Documented (reader : ConfigurationReader) : Prop where
  keysOnce : ∀ text entries, reader.entries text = some entries → KeysOnce entries
  settings_iff : ∀ entries settings, KeysOnce entries →
    (reader.settings entries = some settings ↔ settings.SaidBy entries)

/-! ### The reader of the command -/

namespace Settings

theorem text?_eq_some_iff {value : Value} {text : String} :
    text? value = some text ↔ SpellsText value text := by
  cases value <;> simp [text?, SpellsText]

theorem flag?_eq_some_iff {value : Value} {flag : Bool} :
    flag? value = some flag ↔ SpellsFlag value flag := by
  cases value <;> simp [flag?, SpellsFlag]

theorem ofName?_eq_some_iff {name : String} {profile : Profile} :
    Profile.ofName? name = some profile ↔ name = profile.name := by
  cases profile <;> simp only [Profile.ofName?, Profile.name, beq_iff_eq] <;> split <;> simp_all

theorem profile?_eq_some_iff {value : Value} {profile : Profile} :
    profile? value = some profile ↔ SpellsProfile value profile := by
  constructor
  · intro read
    unfold profile? at read
    split at read
    · obtain rfl := ofName?_eq_some_iff.mp read
      exact .name profile
    · obtain rfl := ofName?_eq_some_iff.mp read
      exact .table profile _ _
    · obtain rfl := ofName?_eq_some_iff.mp read
      exact .array profile _
    · cases read
  · rintro (_ | _ | _) <;> exact ofName?_eq_some_iff.mpr rfl

/-- An entry is read as what is said under its key, when its values are read as what they spell. -/
theorem entryOr_eq_some_iff (keysOnce : KeysOnce entries) {key : String} {standard a : α}
    {read : Value → Option α} {Spells : Value → α → Prop}
    (reads : ∀ {value a}, read value = some a ↔ Spells value a) :
    entryOr entries key standard read = some a ↔ Said entries key Spells standard a := by
  constructor
  · intro found
    unfold entryOr at found
    split at found
    · next absent =>
      cases found
      refine .missing fun value member => ?_
      rw [(mem_iff_lookup_eq_some keysOnce.once).mp member] at absent
      cases absent
    · next there => exact .spelled (mem_of_lookup_eq_some there) (reads.mp found)
  · rintro (⟨member, spells⟩ | missing)
    -- No other entry has the key, so a search for it comes to this one.
    · have there := (mem_iff_lookup_eq_some keysOnce.once).mp member
      simpa only [entryOr, there] using reads.mpr spells
    · have absent : entries.lookup key = none :=
        Option.eq_none_iff_forall_not_mem.mpr fun value found =>
          missing value (mem_of_lookup_eq_some found)
      simp only [entryOr, absent]

/-- The settings of a document are those that its entries say. -/
theorem ofEntries?_eq_some_iff (keysOnce : KeysOnce entries) {s : Settings} :
    ofEntries? entries = some s ↔ s.SaidBy entries := by
  simp only [ofEntries?, bind, pure, Option.bind_eq_some_iff, Option.some.injEq,
    entryOr_eq_some_iff keysOnce profile?_eq_some_iff,
    entryOr_eq_some_iff keysOnce text?_eq_some_iff, entryOr_eq_some_iff keysOnce flag?_eq_some_iff]
  constructor
  · rintro ⟨profile, one, indent, two, newline, three, pretty, four, follow, five, space, six,
      fallback, seven, rfl⟩
    exact ⟨one, two, three, four, five, six, seven⟩
  · rintro ⟨one, two, three, four, five, six, seven⟩
    exact ⟨_, one, _, two, _, three, _, four, _, five, _, six, _, seven, rfl⟩

end Settings

theorem ConfigurationReader.documented_toml : ConfigurationReader.toml.Documented where
  keysOnce _ _ := Toml.keysOnce_of_read
  settings_iff _ _ keysOnce := Settings.ofEntries?_eq_some_iff keysOnce

end ClassAtlas
