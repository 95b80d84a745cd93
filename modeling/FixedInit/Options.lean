/-
The options of a pass, and how the host's arguments set them.

An argument is meant for the pass if it starts with the option name once its leading dashes
are removed. The name alone enables the pass; the name, a dash, a key and a value behind an
equals sign set one option.

* `ofArguments_ignored` : an argument that is not meant for the pass changes nothing.
-/
import FixedInit.Failure

namespace FixedInit

/-- What happens at a fixed value that is no literal of its field's type. -/
inductive ErrorPolicy
  /-- The pass ends. -/
  | abort
  /-- The field is left alone and the pass goes on. -/
  | skip
  deriving DecidableEq

/-- The options of a pass. -/
structure Options where
  enabled : Bool
  policy : ErrorPolicy
  /-- The name of the factory members that the pass installs. -/
  factoryField : String
  deriving DecidableEq

namespace ErrorPolicy

/-- The key of the option that sets the policy. -/
def key : String := "on-parse-error"

/-- The policy of a value. -/
def parse (value : String) : Except OptionError ErrorPolicy :=
  if value = "abort" then .ok abort
  else if value = "skip" then .ok skip
  else .error (.invalidValue key value)

/-- The value that stands for a policy. -/
def text : ErrorPolicy → String
  | abort => "abort"
  | skip => "skip"

theorem parse_text (policy : ErrorPolicy) : parse policy.text = .ok policy := by
  cases policy <;> rfl

end ErrorPolicy

namespace Options

/-- The name by which arguments address the pass. -/
def optionName : String := "Xfixed-value"

/-- The line of help on the option. -/
def usage : String :=
  "  -Xfixed-value      : enable fixed value generation for schema elements"

/-- The namespace of schema customizations for the pass. -/
def customizationNamespace : String := "urn:fixval:fixed-value"

/-- The namespaces of schema customizations that a pass knows. -/
def customizations : List String := [customizationNamespace]

/-- The key of the option that names the factory member. -/
def factoryKey : String := "factory-field"

/-- The options without any setting. -/
def standard : Options :=
  ⟨true, .abort, "DATATYPE_FACTORY"⟩

/-- Applies a key and a value. An unknown key is reported with the whole argument. -/
def set (options : Options) (argument key value : String) : Except OptionError Options :=
  if key = ErrorPolicy.key then
    (ErrorPolicy.parse value).map fun policy => { options with policy := policy }
  else if key = factoryKey then
    if value = "" then .error (.invalidValue key value)
    else .ok { options with factoryField := value }
  else .error (.unknownOption argument)

/-- The key and the value of a setting, split at the first equals sign. Without one the value
is empty. -/
def splitSetting (cs : List Char) : String × String :=
  (String.ofList (cs.takeWhile (· != '=')), String.ofList ((cs.dropWhile (· != '=')).drop 1))

/-- Applies one argument. -/
def apply (options : Options) (argument : String) : Except OptionError Options :=
  let bare := argument.toList.dropWhile (· == '-')
  match List.isPrefixOf? optionName.toList bare with
  | none => .ok options
  | some [] => .ok { options with enabled := true }
  | some ('-' :: setting) =>
    let (key, value) := splitSetting setting
    options.set (String.ofList bare) key value
  | some _ => .error (.unknownOption (String.ofList bare))

/-- The options that a list of arguments sets, from left to right. The pass is disabled unless
an argument enables it. -/
def ofArguments (arguments : List String) : Except OptionError Options :=
  arguments.foldlM apply { standard with enabled := false }

theorem ofArguments_ignored {argument : String}
    (h : List.isPrefixOf? optionName.toList (argument.toList.dropWhile (· == '-')) = none)
    (before after : List String) :
    ofArguments (before ++ argument :: after) = ofArguments (before ++ after) := by
  have ignored : ∀ options : Options, options.apply argument = .ok options := by
    intro options
    simp [apply, h]
  simp only [ofArguments, List.foldlM_append, List.foldlM_cons]
  congr 1
  funext options
  rw [ignored]
  rfl

end Options

end FixedInit
