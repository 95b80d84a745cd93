/-
What a pass tells: diagnostics about fields, and the events of its course.

* `diagnostics_append`, `ofField_append` : a log and a record grow entry by entry.
-/
import FixedInit.Model.Outline

namespace FixedInit

/-- How serious a diagnostic is. -/
inductive Severity
  | info
  | warn
  | error
  deriving DecidableEq

namespace Severity

/-- The word for a severity. -/
def text : Severity → String
  | info => "info"
  | warn => "warn"
  | error => "error"

/-- The severity of a word. -/
def ofText? (word : String) : Option Severity :=
  [info, warn, error].find? (·.text == word)

/-- The place of a severity in their order. -/
def rank : Severity → Nat
  | info => 0
  | warn => 1
  | error => 2

instance : LT Severity := ⟨fun a b => a.rank < b.rank⟩

instance (a b : Severity) : Decidable (a < b) := inferInstanceAs (Decidable (a.rank < b.rank))

theorem ofText?_text (severity : Severity) : ofText? severity.text = some severity := by
  cases severity <;> decide

end Severity

/-- A remark about a field of a class. -/
structure Diagnostic where
  severity : Severity
  className : String
  field : String
  message : String
  deriving DecidableEq

/-- What is told in the course of a pass, or of a single installation. -/
inductive Event
  /-- A disabled pass was asked to run. -/
  | disabled
  /-- A pass starts, with this many fields to treat. -/
  | started (eligible : Nat)
  /-- A class gains a factory member. -/
  | installing (className : String) (id : ClassId) (field : String)
  /-- A pass is complete, with this many classes and factories. -/
  | completed (classes factories : Nat)
  /-- A remark about a field. -/
  | remark (diagnostic : Diagnostic)
  deriving DecidableEq

namespace Event

/-- The level of an event. -/
def level : Event → String
  | remark diagnostic =>
    match diagnostic.severity with
    | .info => "INFO"
    | .warn => "WARN"
    | .error => "ERROR"
  | _ => "DEBUG"

/-- The wording of an event. -/
def message : Event → String
  | disabled => "fixed value plugin disabled, outline left unchanged"
  | started _ => "fixed value pass started"
  | installing _ _ _ => "installing calendar factory"
  | completed _ _ => "fixed value pass completed"
  | remark diagnostic => diagnostic.message

/-- The named details of an event. -/
def details : Event → List (String × String)
  | disabled => []
  | started eligible => [("eligible", String.ofList (decimalText eligible))]
  | installing className id field =>
    [("class", className), ("id", id.render), ("field", field)]
  | completed classes factories =>
    [("classes", String.ofList (decimalText classes)),
      ("factories", String.ofList (decimalText factories))]
  | remark diagnostic => [("class", diagnostic.className), ("field", diagnostic.field)]

/-- The diagnostic that an event carries. -/
def diagnostic? : Event → Option Diagnostic
  | remark diagnostic => some diagnostic
  | _ => none

end Event

/-- The diagnostics of a log, in order. -/
def diagnostics (log : List Event) : List Diagnostic :=
  log.filterMap Event.diagnostic?

/-- The events of a log other than diagnostics, in order. -/
def courseEvents (log : List Event) : List Event :=
  log.filter (·.diagnostic?.isNone)

/-- A record of diagnostics. -/
structure Recorder where
  entries : List Diagnostic

namespace Recorder

/-- The record without entries. -/
def empty : Recorder := ⟨[]⟩

/-- Appends a diagnostic. -/
def report (recorder : Recorder) (diagnostic : Diagnostic) : Recorder :=
  ⟨recorder.entries ++ [diagnostic]⟩

/-- Appends the diagnostics of a log. -/
def record (recorder : Recorder) (log : List Event) : Recorder :=
  ⟨recorder.entries ++ diagnostics log⟩

/-- The entries about a field, in order, whatever its class. -/
def ofField (recorder : Recorder) (field : String) : List Diagnostic :=
  recorder.entries.filter (·.field == field)

/-- The number of entries of a severity. -/
def count (recorder : Recorder) (severity : Severity) : Nat :=
  (recorder.entries.filter (·.severity == severity)).length

theorem ofField_append (recorder : Recorder) (log : List Event) (field : String) :
    (recorder.record log).ofField field =
      recorder.ofField field ++ (diagnostics log).filter (·.field == field) := by
  simp [record, ofField]

end Recorder

theorem diagnostics_append (a b : List Event) :
    diagnostics (a ++ b) = diagnostics a ++ diagnostics b := by
  simp [diagnostics]

end FixedInit
