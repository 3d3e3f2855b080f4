import ClassAtlas.Settings
import ClassAtlas.Text.System

/-!
# Invocations

What the arguments of the command ask for, and the ends that they can come to without a description:
help, the version, and reports of what is wrong with them. How arguments are read is left open.
-/
namespace ClassAtlas.Command

/-- What the arguments ask for. -/
structure Invocation where
  path? : Option SystemText
  config? : Option SystemText
  profile? : Option Profile
  pretty : Bool
  verbose : Bool
  deriving DecidableEq, Repr

/-- The settings as the arguments change them. -/
def Invocation.override (i : Invocation) (settings : Settings) : Settings :=
  { settings with
    profile := i.profile?.getD settings.profile
    pretty := settings.pretty || i.pretty }

inductive HaltKind where
  | help
  | version
  | misuse
  deriving DecidableEq, Repr

/-- Why arguments do not ask for a description, and what is printed instead. -/
structure Halt where
  kind : HaltKind
  text : String
  deriving DecidableEq, Repr

/-- Help and the version have been asked for, so they are no errors. -/
def Halt.isError (h : Halt) : Bool := h.kind == .misuse

end ClassAtlas.Command
