/-
Expressions that fields are initialized with, and their rendering as source-like text.

* `withArg_invoke`, `withArg_of_not_call` : an argument is appended to a call and to nothing
  else.

Design notes: the rendering follows a source language that writes a literal's width after an
underscore and joins a name to its owner by two colons.
-/
import FixedInit.Binary.Shortest
import FixedInit.Text

namespace FixedInit

/-- A reference to a static member of a class. -/
structure StaticRef where
  owner : String
  name : String
  deriving DecidableEq

/-- The rendering of a reference. -/
def StaticRef.render (ref : StaticRef) : String :=
  ref.owner ++ "::" ++ ref.name

/-- An expression. -/
inductive Expr
  | str (value : String)
  | bool (value : Bool)
  | int (value : Signed 32)
  | long (value : Signed 64)
  | float (value : Binary .single)
  | double (value : Binary .double)
  /-- A constant of an enumeration. -/
  | constant (enumeration name : String)
  | static (ref : StaticRef)
  /-- A method call on a target. -/
  | invoke (target : Expr) (method : String) (args : List Expr)
  /-- A call of a function of a type. -/
  | staticInvoke (owner method : String) (args : List Expr)

namespace Expr

/-- Appends an argument to a call; any other expression stays as it is. -/
def withArg : Expr → Expr → Expr
  | invoke target method args, arg => invoke target method (args ++ [arg])
  | staticInvoke owner method args, arg => staticInvoke owner method (args ++ [arg])
  | expr, _ => expr

theorem withArg_invoke (target : Expr) (method : String) (args : List Expr) (arg : Expr) :
    (invoke target method args).withArg arg = invoke target method (args ++ [arg]) := rfl

theorem withArg_of_not_call {expr : Expr} (not_invoke : ∀ target method args,
    expr ≠ invoke target method args) (not_static : ∀ owner method args,
    expr ≠ staticInvoke owner method args) (arg : Expr) : expr.withArg arg = expr := by
  cases expr with
  | invoke target method args => exact absurd rfl (not_invoke target method args)
  | staticInvoke owner method args => exact absurd rfl (not_static owner method args)
  | _ => rfl

mutual

/-- The comparison of expressions: literals of numbers are compared as numbers, so NaN differs
from itself and the two zeros agree. -/
def same : Expr → Expr → Bool
  | str a, str b => a == b
  | bool a, bool b => a == b
  | int a, int b => a == b
  | long a, long b => a == b
  | float a, float b => a.same b
  | double a, double b => a.same b
  | constant e a, constant f b => e == f && a == b
  | static a, static b => a == b
  | invoke s m xs, invoke t n ys => same s t && m == n && sameArgs xs ys
  | staticInvoke o m xs, staticInvoke p n ys => o == p && m == n && sameArgs xs ys
  | _, _ => false

/-- The comparison of argument lists. -/
def sameArgs : List Expr → List Expr → Bool
  | [], [] => true
  | x :: xs, y :: ys => same x y && sameArgs xs ys
  | _, _ => false

end

/-! ### Rendering -/

/-- Rendered numbers: the powers of ten from -4 to 15 need no exponent. -/
def layout : Layout := ⟨-4, 16⟩

/-- The rendering of a floating point literal of the type with the given name. -/
def renderBinary {f : Format} (type : String) : Binary f → String
  | .nan => type ++ "::NAN"
  | .infinite negative => type ++ (if negative then "::NEG_INFINITY" else "::INFINITY")
  | .finite negative rank => String.ofList (layout.finite negative rank).text ++ "_" ++ type

mutual

/-- The rendering of an expression. Names are written as they are. -/
def render : Expr → String
  | str value => quoted value
  | bool value => if value then "true" else "false"
  | int value => String.ofList (decimalText value.val)
  | long value => String.ofList (decimalText value.val) ++ "_i64"
  | float value => renderBinary "f32" value
  | double value => renderBinary "f64" value
  | constant enumeration name => enumeration ++ "::" ++ name
  | static ref => ref.render
  | invoke target method args =>
    render target ++ "." ++ method ++ "(" ++ renderArgs args ++ ")"
  | staticInvoke owner method args => owner ++ "::" ++ method ++ "(" ++ renderArgs args ++ ")"

/-- The rendering of arguments, with a comma and a space between them. -/
def renderArgs : List Expr → String
  | [] => ""
  | arg :: args => render arg ++ (if args.isEmpty then "" else ", " ++ renderArgs args)

end

end Expr

end FixedInit
