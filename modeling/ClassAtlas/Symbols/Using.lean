import ClassAtlas.Text.Blank
import ClassAtlas.Text.Cut

/-!
# Using directives

What a `using` directive brings into scope: the types of a namespace, a second name for a namespace
or type, or the members of a type. Names are kept without blanks and without a leading `global::`.
-/
namespace ClassAtlas

inductive UsingDirective where
  /-- `using N;` -/
  | types (space : String)
  /-- `using A = N.T;` -/
  | alias (name target : String)
  /-- `using static N.T;` -/
  | members (type : String)
  deriving DecidableEq, Repr

namespace UsingDirective

/-- What follows a keyword that begins the text and is followed by a blank. -/
def afterKeyword? (keyword s : String) : Option String :=
  (Text.dropHead? keyword s).bind fun rest =>
    if Text.startsBlank rest then some (Text.trimStart rest) else none

/-- A dotted name as written, without blanks and without its root. -/
def plainName (written : String) : String := Text.dropHead "global::" (Text.compact written)

/-- The text of a directive without surrounding blanks and final semicolons. -/
def withoutSemicolons (text : String) : String :=
  Text.trim (String.ofList (Text.dropEndWhile (· == ';') (Text.trim text).toList))

/-- Reads a directive, which may be preceded by `global`. -/
def parse? (text : String) : Option UsingDirective :=
  let text := withoutSemicolons text
  let text := (afterKeyword? "global" text).getD text
  (afterKeyword? "using" text).map fun rest =>
    match afterKeyword? "static" rest with
    | some target => members (plainName target)
    | none =>
      match Text.splitFirst? '=' rest with
      | some (name, target) => .alias (plainName name) (plainName target)
      | none => types (plainName rest)

end UsingDirective

end ClassAtlas
