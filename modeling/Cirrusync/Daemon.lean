import Cirrusync.Updater

/-!
The daemon: `run_loop` with its two `select!`s and the retry policy. The loop
never ends by itself, so `runLoop` takes the number of iterations it may still
make and says `running` when they are used up.
-/

namespace Cirrusync

open Effect

def initialBackoff : Nat := seconds 5
def maxBackoff : Nat := seconds 300

def calculateBackoff (consecutiveFailures initial maximum jitterPercent : Nat) : Nat :=
  let exponent := min (consecutiveFailures - 1) 31
  let multiplier := 2 ^ exponent % 2 ^ 64
  let asSecs := fun delay => delay / seconds 1
  let saturatingMul := fun a b => min (a * b) (2 ^ 64 - 1)
  let uncappedSeconds := saturatingMul (asSecs initial) multiplier
  let cappedSeconds := min uncappedSeconds (asSecs maximum)
  let jitter := max 50 (min jitterPercent 100)
  let jitteredSeconds := saturatingMul cappedSeconds jitter / 100
  seconds (min (max jitteredSeconds 1) (asSecs maximum))

def backoffDelay (consecutiveFailures jitterPercent : Nat) : Nat :=
  calculateBackoff consecutiveFailures initialBackoff maxBackoff jitterPercent

def retryDelay (report : CycleReport) (consecutiveFailures interval jitterPercent : Nat) :
    Nat :=
  let policyDelay :=
    if report.hasAuthenticationFailure then maxBackoff
    else if report.hasRetryableFailure then backoffDelay consecutiveFailures jitterPercent
    else interval
  match report.retryAfter with
  | none => policyDelay
  | some retryAfter => max policyDelay retryAfter

inductive DaemonError where
  | runtimeLock (message : String)
  | signal (source : String)
  deriving DecidableEq, Repr

/-- How the `select!` over the shutdown signal and a cycle comes out. -/
inductive Selected (α : Type) where
  | signalled (signalResult : Except String Unit)
  | completed (value : α)

/-- The signal branch of the second `select!`: a cycle with a mutation in flight
is awaited, any other is dropped where it waits. -/
def drainOrDrop {α : Type} (signalResult : Except String Unit) (cycle : M α) :
    M (Selected α) := do
  act .requestStop
  if ← act .mutationInFlight then
    let _ ← cycle
    return .signalled signalResult
  else return .signalled signalResult

/-- The second `select!` from where the cycle is now. The signal is polled
whenever the cycle waits. -/
def selectCycle {α : Type} : M α → M (Selected α)
  | .done value => .done (.completed value)
  | .ask (.act action) next => .ask (.act action) (fun x => selectCycle (next x))
  | .ask (.finish wait) next => .ask (.act .pollShutdown) (fun
      | some signalResult => drainOrDrop signalResult (.ask (.finish wait) next)
      | none => .ask (.finish wait) (fun x => selectCycle (next x)))
  | .ask (.finishBefore deadline wait) next => .ask (.act .pollShutdown) (fun
      | some signalResult =>
          drainOrDrop signalResult (.ask (.finishBefore deadline wait) next)
      | none => .ask (.finishBefore deadline wait) (fun x => selectCycle (next x)))

/-- The second `select!`: the signal may also be polled before the cycle is. -/
def selectShutdown {α : Type} (cycle : M α) : M (Selected α) := do
  match ← act .pollShutdown with
  | some signalResult => drainOrDrop signalResult cycle
  | none => selectCycle cycle

/-- The first `select!`: wait for the delay or the signal. -/
def waitDelay (nextDelay : Nat) : M (Option (Except String Unit)) := do
  if nextDelay = 0 then return none
  act (.begin (.sleep nextDelay))
  match ← act .pollShutdown with
  | some signalResult => return some signalResult
  | none => do
      Program.perform (Op.finish (.sleep nextDelay))
      return none

inductive LoopResult where
  | running
  | returned (result : Except DaemonError Unit)
  deriving DecidableEq

namespace Updater

variable [Externals] (self : Updater)

/-- The failure count and the delay after a cycle. -/
def schedule (report : CycleReport) (consecutiveFailures : Nat) : M (Nat × Nat) := do
  let interval := seconds self.config.intervalSeconds
  if report.isSuccess then return (0, interval)
  else
    let consecutiveFailures := min (consecutiveFailures + 1) (2 ^ 32 - 1)
    let jitter ← act .jitterPercent
    return (consecutiveFailures, retryDelay report consecutiveFailures interval jitter)

def runLoopFrom : Nat → Nat → Nat → M LoopResult
  | 0, _, _ => return .running
  | iterations + 1, nextDelay, consecutiveFailures => do
      match ← waitDelay nextDelay with
      | some signalResult => return .returned (signalResult.mapError .signal)
      | none => do
          act .newControl
          match ← selectShutdown self.runCycleLocked with
          | .signalled signalResult => return .returned (signalResult.mapError .signal)
          | .completed report => do
              let (consecutiveFailures, nextDelay) ←
                self.schedule report consecutiveFailures
              runLoopFrom iterations nextDelay consecutiveFailures

def runLoop (iterations : Nat) : M LoopResult := self.runLoopFrom iterations 0 0

/-- `daemon::run`: the loop under the runtime lock. -/
def runDaemon (iterations : Nat) : M LoopResult := do
  match ← self.runtimeLock.acquire with
  | .error error => return .returned (.error (.runtimeLock error.display))
  | .ok lock => do
      let result ← self.runLoop iterations
      lock.drop
      return result

end Updater

end Cirrusync
