/-! # Exceptions

One constructor per exception class the modelled services raise or let through,
with the operation, code or message the source passes to it. `integrity` is the
database's own `IntegrityError`, named by the violated constraint, and `database`
any other `SQLAlchemyError`. -/

namespace CorpusKit

inductive Error
  | invalidRequest (operation : String)
  | dependencyUnavailable (operation : String)
  | resourceNotFound (operation : String)
  | resourceConflict (operation : String)
  | invalidStateTransition (operation : String)
  | quotaExceeded (operation : String) (retryAfterSeconds : Option Nat)
  | runStore (code : String)
  | reproducibility (code : String)
  | runtime (message : String)
  | value (message : String)
  | integrity (constraint : String)
  | trafficRateLimitExceeded (operation : String) (retryAfterSeconds : Nat)
  | database
  | objectNotFound (message : String)
  | objectStore (message : String)
  | engineUnavailable (operation : String)
  | engineContract (operation : String)
  deriving DecidableEq, Repr

end CorpusKit
