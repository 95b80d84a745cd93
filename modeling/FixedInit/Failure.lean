/-
Why an operation failed, and the wording of each failure: its kind, then its cause.
-/
import FixedInit.Text

namespace FixedInit

/-- A fixed value that is no literal of its field's type. -/
inductive LiteralError
  | invalidInteger (field target value reason : String)
  | invalidFloat (field target value reason : String)
  deriving DecidableEq

namespace LiteralError

/-- The field whose value was refused. -/
def field : LiteralError → String
  | invalidInteger field _ _ _ => field
  | invalidFloat field _ _ _ => field

/-- The wording of a refused literal; the value is quoted. -/
def message : LiteralError → String
  | invalidInteger field target value reason =>
    "invalid " ++ target ++ " value " ++ quoted value ++ " for field " ++ field ++
      ": " ++ reason
  | invalidFloat field target value reason =>
    "invalid " ++ target ++ " value " ++ quoted value ++ " for field " ++ field ++
      ": " ++ reason

end LiteralError

/-- A member that cannot be installed in a class. -/
inductive InstallError
  | nameClash (className member : String)
  | invalidName (className name : String)
  deriving DecidableEq

/-- The wording of a failed installation. -/
def InstallError.message : InstallError → String
  | nameClash className member =>
    "class " ++ className ++ " already declares an incompatible member named " ++ member
  | invalidName className name =>
    "invalid member name " ++ quoted name ++ " for class " ++ className

/-- An argument that sets no option. -/
inductive OptionError
  | unknownOption (option : String)
  | invalidValue (option value : String)
  deriving DecidableEq

/-- The wording of a refused argument. -/
def OptionError.message : OptionError → String
  | unknownOption option => "unknown option: " ++ option
  | invalidValue option value => "invalid value " ++ quoted value ++ " for option " ++ option

/-- Any failure of the library. -/
inductive Failure
  | literal (cause : LiteralError)
  | install (cause : InstallError)
  | option (cause : OptionError)
  deriving DecidableEq

namespace Failure

/-- The kind of a failure, as it opens the wording. -/
def heading : Failure → String
  | literal _ => "parse error"
  | install _ => "install error"
  | option _ => "configuration error"

/-- The wording of the cause of a failure. -/
def causeMessage : Failure → String
  | literal cause => cause.message
  | install cause => cause.message
  | option cause => cause.message

/-- The wording of a failure. -/
def message (failure : Failure) : String :=
  failure.heading ++ ": " ++ failure.causeMessage

end Failure

end FixedInit
