import Cirrusync.Check
import Cirrusync.Daemon

/-!
How the combinators and the client's requests run. One exchange is a begun and a
finished wait; everything the client does with the world between two cache
operations is a sequence of exchanges.
-/

namespace Cirrusync

open Effect

/-- The Cloudflare request that a step sends, if it sends one. -/
def sent : Step → Option Request
  | ⟨.act (.begin (.http request)), _⟩ => some request
  | _ => none

/-- The Cloudflare request whose outcome reaches the client in a step. -/
def replied : Step → Option (Request × HttpOutcome)
  | ⟨.finish (.http request), outcome⟩ => some (request, outcome)
  | ⟨.finishBefore _ (.http request), some outcome⟩ => some (request, outcome)
  | _ => none

/-- The steps of one request and its outcome. -/
def exchange (request : Request) (outcome : HttpOutcome) : List Step :=
  [⟨.act (.begin (.http request)), ()⟩, ⟨.finish (.http request), outcome⟩]

/-- The steps of `invalidate_zone_after_not_found` after a result. -/
def evictions {α : Type} (zoneId : String) : Except CloudflareError α → List Step
  | .ok _ => []
  | .error error => if error.isNotFound then [⟨.act (.cacheEvict zoneId), ()⟩] else []

@[simp] theorem sent_exchange (request : Request) (outcome : HttpOutcome) :
    (exchange request outcome).filterMap sent = [request] := rfl

@[simp] theorem sent_evictions {α : Type} (zoneId : String)
    (result : Except CloudflareError α) :
    (evictions zoneId result).filterMap sent = [] := by
  cases result with
  | ok _ => rfl
  | error error =>
      simp only [evictions]
      split <;> rfl

namespace CloudflareClient

theorem runs_invalidate_iff {α : Type} (zoneId : String) (error : CloudflareError)
    (trace : List Step) (result : Unit) :
    Runs (invalidateZoneAfterNotFound zoneId error) trace result ↔
      trace = evictions zoneId (.error error : Except CloudflareError α) := by
  cases result
  by_cases hfound : error.isNotFound = true
  · simp only [invalidateZoneAfterNotFound, evictions, hfound, if_true, act_eq,
      runs_ask_iff, runs_done_iff]
    constructor
    · rintro ⟨⟨⟩, _, rfl, rfl, -⟩
      rfl
    · rintro rfl
      exact ⟨(), [], rfl, rfl, trivial⟩
  · simp [invalidateZoneAfterNotFound, evictions, hfound]

variable [Externals] (self : CloudflareClient)

theorem runs_send_iff (request : Request) (trace : List Step)
    (result : Except CloudflareError (ApiResponse request.kind.Value)) :
    Runs (self.send request) trace result ↔
      ∃ outcome, trace = exchange request outcome ∧
        result = receive self.apiToken request outcome := by
  simp only [send, await_eq, Program.ask_bind, Program.done_bind, Program.pure_eq,
    runs_ask_iff, runs_done_iff, exchange]
  constructor
  · rintro ⟨⟨⟩, _, rfl, outcome, _, rfl, rfl, rfl⟩
    exact ⟨outcome, rfl, rfl⟩
  · rintro ⟨outcome, rfl, rfl⟩
    exact ⟨(), _, rfl, outcome, _, rfl, rfl, rfl⟩

theorem runs_sendInZone_iff (zoneId : String) (request : Request) (trace : List Step)
    (result : Except CloudflareError (ApiResponse request.kind.Value)) :
    Runs (self.sendInZone zoneId request) trace result ↔
      ∃ outcome, trace = exchange request outcome ++ evictions zoneId result ∧
        result = receive self.apiToken request outcome := by
  simp only [sendInZone, runs_bind_iff, runs_send_iff]
  constructor
  · rintro ⟨_, after, response, rfl, ⟨outcome, rfl, rfl⟩, hrest⟩
    cases hreceive : receive self.apiToken request outcome with
    | ok response =>
        simp only [hreceive, Program.pure_eq, runs_done_iff] at hrest
        obtain ⟨rfl, rfl⟩ := hrest
        exact ⟨outcome, rfl, hreceive.symm⟩
    | error error =>
        simp only [hreceive, runs_bind_iff, Program.pure_eq, runs_done_iff,
          runs_invalidate_iff (α := ApiResponse request.kind.Value)] at hrest
        obtain ⟨_, _, _, rfl, rfl, rfl, rfl⟩ := hrest
        exact ⟨outcome, by simp, hreceive.symm⟩
  · rintro ⟨outcome, rfl, rfl⟩
    refine ⟨_, _, _, rfl, ⟨outcome, rfl, rfl⟩, ?_⟩
    cases hreceive : receive self.apiToken request outcome with
    | ok response => simp [evictions]
    | error error =>
        simp only [runs_bind_iff, Program.pure_eq, runs_done_iff,
          runs_invalidate_iff (α := ApiResponse request.kind.Value)]
        exact ⟨_, [], (), by simp, rfl, rfl, trivial⟩

end CloudflareClient

end Cirrusync
