import ClassAtlas.Configuration
import ClassAtlas.Toml.Read

/-!
# Settings in TOML

The settings that the entries of a document make. Keys that are not there keep their standard values
and unknown ones are ignored; with a value of the wrong type there are no settings.
-/
namespace ClassAtlas.Settings

open Toml (Value Entries)

/-- The entry of a key, read by `read`, or the standard value. -/
def entryOr {α : Type} (entries : Entries) (key : String) (standard : α) (read : Value → Option α) :
    Option α :=
  match entries.lookup key with
  | none => some standard
  | some value => read value

def text? : Value → Option String
  | .string text => some text
  | _ => none

def flag? : Value → Option Bool
  | .bool value => some value
  | _ => none

/-- A profile, by its name, or as a table with nothing but an empty table or array of that name. -/
def profile? : Value → Option Profile
  | .string name => Profile.ofName? name
  | .table _ [(name, .table _ [])] => Profile.ofName? name
  | .table _ [(name, .array [])] => Profile.ofName? name
  | _ => none

/-- The settings of a document, whether they can be used or not. -/
def ofEntries? (entries : Entries) : Option Settings := do
  let s := standard
  return {
    profile := ← entryOr entries "profile" s.profile profile?
    indent := ← entryOr entries "indent" s.indent text?
    newline := ← entryOr entries "newline" s.newline text?
    pretty := ← entryOr entries "pretty" s.pretty flag?
    followTypeArguments := ← entryOr entries "follow_type_arguments" s.followTypeArguments flag?
    namespaceSentinel := ← entryOr entries "namespace_sentinel" s.namespaceSentinel text?
    fallbackExceptionType :=
      ← entryOr entries "fallback_exception_type" s.fallbackExceptionType text? }

end ClassAtlas.Settings

/-- The reader of configurations that the command is built with. -/
def ClassAtlas.ConfigurationReader.toml : ClassAtlas.ConfigurationReader :=
  ⟨ClassAtlas.Toml.read, ClassAtlas.Settings.ofEntries?⟩
