import Mathlib.Logic.Basic

/-!
# Exceptions

The Nest exception classes the services throw, with their messages. A plain
`Error`, which Nest answers with status 500, is `error`.
-/

namespace AfriPay

inductive Exception where
  | badRequest (message : String)
  | notFound (message : String)
  | conflict (message : String)
  | serviceUnavailable (message : String)
  | badGateway (message : String) (upstreamStatus : Option Nat)
  | error (message : String)
  deriving DecidableEq, Repr

inductive ExceptionClass where
  | badRequest | notFound | conflict | serviceUnavailable | badGateway | error
  deriving DecidableEq, Repr

/-- The class an exception was made from, without its message. -/
def Exception.className : Exception → ExceptionClass
  | .badRequest _ => .badRequest
  | .notFound _ => .notFound
  | .conflict _ => .conflict
  | .serviceUnavailable _ => .serviceUnavailable
  | .badGateway _ _ => .badGateway
  | .error _ => .error

end AfriPay
