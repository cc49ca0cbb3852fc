import Cirrusync.ApiError
import Cirrusync.Effect.Contract

/-!
The operations through which the code meets the world, and the three
combinators of the async runtime that it uses. A future that waits first begins
its wait (the request is sent, the timer armed) and later finishes it. Only at
that second point can a deadline, the other half of a `join!` or a signal take
its place.
-/

namespace Cirrusync

open Effect

/-- A moment of the monotonic clock, in nanoseconds. -/
abbrev Instant := Nat

/-- What a future waits for. -/
inductive Await where
  /-- The response to a Cloudflare request. -/
  | http (request : Request)
  /-- The response of an address provider, under the timeout of its attempt. -/
  | query (provider : String) (attemptTimeout : Nat)
  /-- `tokio::time::sleep`. -/
  | sleep (duration : Nat)
  deriving DecidableEq, Repr

@[reducible] def Await.Answer : Await → Type
  | .http _ => HttpOutcome
  | .query _ _ => Option HttpOutcome
  | .sleep _ => Unit

inductive LockFault where
  | contended
  | other (source : String)
  deriving DecidableEq, Repr

inductive RuntimeLockError where
  | open (path source : String)
  | insecure (path reason : String)
  | alreadyRunning (path : String)
  | lock (path source : String)
  deriving DecidableEq, Repr

/-- Operations that do not suspend the caller. -/
inductive Action where
  | begin (wait : Await)
  | now
  /-- Which half of a `join!` is polled next. -/
  | schedule
  | jitterPercent
  /-- Poll the shutdown future. -/
  | pollShutdown
  | newControl
  | requestStop
  | stopRequested
  | setMutationInFlight (flag : Bool)
  | mutationInFlight
  | cacheGet (key : String)
  | cacheInsert (key zoneId : String)
  /-- `retain(|_, cached| !cached.eq_ignore_ascii_case(zone_id))`. -/
  | cacheEvict (zoneId : String)
  | fetchAddCursor
  | prepareLockParent (root : String) (temporary : Bool)
  | openRuntimeLock (path : String)
  | tryLock (path : String)
  | unlock (path : String)
  /-- Dropping an open lock file, which also releases its lock. -/
  | closeLock (path : String)
  deriving DecidableEq, Repr

@[reducible] def Action.Answer : Action → Type
  | .begin _ | .newControl | .requestStop | .setMutationInFlight _
  | .cacheInsert _ _ | .cacheEvict _ | .unlock _ | .closeLock _ => Unit
  | .now => Instant
  | .schedule | .stopRequested | .mutationInFlight => Bool
  | .jitterPercent | .fetchAddCursor => Nat
  | .pollShutdown => Option (Except String Unit)
  | .cacheGet _ => Option String
  | .prepareLockParent _ _ => Except RuntimeLockError String
  | .openRuntimeLock _ => Except RuntimeLockError Unit
  | .tryLock _ => Except LockFault Unit

inductive Op where
  | act (action : Action)
  | finish (wait : Await)
  /-- The end of a wait inside `timeout_at(deadline, ..)`. -/
  | finishBefore (deadline : Instant) (wait : Await)
  deriving DecidableEq, Repr

@[reducible] def Ans : Op → Type
  | .act action => action.Answer
  | .finish wait => wait.Answer
  | .finishBefore _ wait => Option wait.Answer

abbrev M (α : Type) : Type := Program Ans α

/-- An answered operation of the code. -/
abbrev Step := Event Ans

def act (action : Action) : M action.Answer := Program.perform (Op.act action)

def await (wait : Await) : M wait.Answer := do
  act (.begin wait)
  Program.perform (Op.finish wait)

@[simp] theorem act_eq (action : Action) : act action = .ask (.act action) .done := rfl

@[simp] theorem await_eq (wait : Await) :
    await wait = .ask (.act (.begin wait)) (fun _ => .ask (.finish wait) .done) := rfl

/-- `timeout_at(deadline, future)`: `none` when the deadline passes first, which
drops the future where it waits. Deadlines are not nested in the code. -/
def timeoutAt {α : Type} (deadline : Instant) : M α → M (Option α)
  | .done value => .done (some value)
  | .ask (.act action) next => .ask (.act action) (fun x => timeoutAt deadline (next x))
  | .ask (.finish wait) next => .ask (.finishBefore deadline wait) (fun
      | none => .done none
      | some x => timeoutAt deadline (next x))
  | .ask (.finishBefore inner wait) next =>
      .ask (.finishBefore inner wait) (fun x => timeoutAt deadline (next x))

/-- One poll of a `join!` whose first future is about to ask `op`. -/
def joinAsk {α β : Type} (op : Op) (next : Ans op → M α)
    (resume : Ans op → M β → M (α × β)) : M β → M (α × β)
  | .done b => .ask op next >>= fun a => .done (a, b)
  | .ask op' next' => .ask (.act .schedule) (fun (first : Bool) =>
      if first then .ask op (fun x => resume x (.ask op' next'))
      else .ask op' (fun y => joinAsk op next resume (next' y)))

/-- `tokio::join!`: both futures run to their ends, in any interleaving. -/
def join {α β : Type} : M α → M β → M (α × β)
  | .done a, second => second >>= fun b => .done (a, b)
  | .ask op next, second => joinAsk op next (fun x => join (next x)) second

end Cirrusync
