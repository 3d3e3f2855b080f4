import ClassAtlas.Failure
import ClassAtlas.Toml.Table

/-!
# Configuration

Settings from a configuration text. Which document a text is and which settings its entries make is
left open; settings that cannot be used are refused.
-/
namespace ClassAtlas

/-- What reads configurations: texts into the entries of documents, and these into settings. -/
structure ConfigurationReader where
  entries : String → Option Toml.Entries
  settings : Toml.Entries → Option Settings

/-- The settings of a configuration text. -/
def Settings.ofText (reader : ConfigurationReader) (text : String) : Except Failure Settings := do
  match (reader.entries text).bind reader.settings with
  | none => .error (.config .malformed)
  | some settings =>
    settings.validate
    return settings

end ClassAtlas
