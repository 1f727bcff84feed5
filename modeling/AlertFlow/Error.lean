/-!
What can go wrong, by cause. Each kind of failure is a constructor that carries what its text needs;
the text itself is written in one place, `message`.
-/
namespace AlertFlow

/-- A value that breaks a rule of the domain. -/
inductive DomainError where
  | invalidFingerprint (text : String)
  | invalidId (kind : String)
  | routeRequiresReceiver
deriving DecidableEq, Repr

/-- What a stream of alerts reports beside the alerts. -/
inductive StreamError where
  /-- The reader fell behind and the oldest unread alerts are gone. -/
  | lagged (skipped : Nat)
  | broken (detail : String)
deriving DecidableEq, Repr

/-- A failure of a store or a stream. -/
inductive StoreError where
  | notFound
  | persistence (detail : String)
  | connection (detail : String)
  | stream (cause : StreamError)
deriving DecidableEq, Repr

/-- A failure of an application service: a broken rule, or a failure of what it stands on. -/
inductive ServiceError where
  | domain (cause : DomainError)
  | store (cause : StoreError)
deriving DecidableEq, Repr

/-- Why a notification was not delivered. -/
inductive NotifyError where
  | cancelled
  | invalidTarget
  | deliveryFailed (detail : String)
deriving DecidableEq, Repr

def DomainError.message : DomainError → String
  | .invalidFingerprint text => "invalid fingerprint: " ++ text
  | .invalidId kind => "invalid id: " ++ kind
  | .routeRequiresReceiver => "route requires a receiver"

def StreamError.message : StreamError → String
  | .lagged skipped => "subscriber lagged, " ++ toString skipped ++ " alerts skipped"
  | .broken detail => detail

def StoreError.message : StoreError → String
  | .notFound => "not found"
  | .persistence detail => "persistence error: " ++ detail
  | .connection detail => "connection error: " ++ detail
  | .stream cause => "stream error: " ++ cause.message

def ServiceError.message : ServiceError → String
  | .domain cause => "domain error: " ++ cause.message
  | .store cause => "port error: " ++ cause.message

def NotifyError.message : NotifyError → String
  | .cancelled => "notification cancelled"
  | .invalidTarget => "invalid target"
  | .deliveryFailed detail => "delivery failed: " ++ detail

end AlertFlow
