import Cirrusync.RuntimeLock

/-!
Failures and the reports of a synchronization cycle and of a check.
-/

namespace Cirrusync

inductive FailureKind where
  | coordination
  | authentication
  | rateLimited
  | transient
  | permanent
  deriving DecidableEq, Repr

inductive FailureStage where
  | coordination
  | cycleDeadline
  | discovery
  | authentication
  | zoneLookup
  | recordLookup
  | update
  | creation
  | editPermission
  deriving DecidableEq, Repr

structure CycleFailure where
  target : String
  stage : FailureStage
  kind : FailureKind
  retryAfter : Option Nat
  message : String
  deriving DecidableEq, Repr

structure CycleReport where
  records : Nat
  unchanged : Nat := 0
  updated : Nat := 0
  created : Nat := 0
  interrupted : Bool := false
  failures : List CycleFailure := []
  deriving DecidableEq, Repr

namespace CycleReport

def isSuccess (report : CycleReport) : Bool :=
  report.failures.isEmpty && !report.interrupted

/-- The longest server-requested delay. -/
def retryAfter (report : CycleReport) : Option Nat :=
  (report.failures.filterMap CycleFailure.retryAfter).max?

def hasAuthenticationFailure (report : CycleReport) : Bool :=
  report.failures.any (fun failure => failure.kind == .authentication)

def hasRetryableFailure (report : CycleReport) : Bool :=
  report.failures.any (fun failure =>
    failure.kind == .rateLimited || failure.kind == .transient)

/-- `report.failures.push(failure)`. -/
def push (report : CycleReport) (failure : CycleFailure) : CycleReport :=
  { report with failures := report.failures ++ [failure] }

end CycleReport

structure CheckReport where
  records : Nat
  authenticated : Bool := false
  existing : Nat := 0
  creatable : Nat := 0
  created : Nat := 0
  editVerifiedZones : Nat := 0
  editPermissionVerified : Bool := false
  failures : List CycleFailure := []
  deriving DecidableEq, Repr

def CheckReport.isSuccess (report : CheckReport) : Bool :=
  report.authenticated && report.editPermissionVerified && report.failures.isEmpty

def CheckReport.push (report : CheckReport) (failure : CycleFailure) : CheckReport :=
  { report with failures := report.failures ++ [failure] }

def CloudflareError.failureKind (error : CloudflareError) : FailureKind :=
  if error.isAuthenticationFailure then .authentication
  else if error.isRateLimited then .rateLimited
  else if error.isTransient then .transient
  else .permanent

def permanentFailure (target : String) (stage : FailureStage) (message : String) :
    CycleFailure :=
  { target := target, stage := stage, kind := .permanent, retryAfter := none,
    message := message }

def cycleDeadlineFailure : CycleFailure :=
  { target := "synchronization cycle"
    stage := .cycleDeadline
    kind := .transient
    retryAfter := none
    message := "cycle deadline expired before all read-only work completed" }

def checkDeadlineFailure : CycleFailure :=
  { target := "configuration check"
    stage := .cycleDeadline
    kind := .transient
    retryAfter := none
    message := "check deadline expired before all configured work completed" }

def coordinationFailure (error : RuntimeLockError) : CycleFailure :=
  { target := "runtime lock"
    stage := .coordination
    kind := .coordination
    retryAfter := none
    message := error.display }

variable [Externals]

def cloudflareFailure (target : String) (stage : FailureStage) (error : CloudflareError) :
    CycleFailure :=
  { target := target
    stage := stage
    kind := error.failureKind
    retryAfter := error.retryAfter
    message := error.display }

end Cirrusync
