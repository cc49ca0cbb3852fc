import Cirrusync.Scenario
import Cirrusync.Spacing

/-!
The delay of the daemon after a refusal. A cycle that has met a rate limit sends
nothing more and reports it, so the delay before the next iteration is at least
the one that the server has asked for.
-/

namespace Cirrusync

open Effect

section

variable [Externals]

theorem CloudflareClient.refusal_of_loop (self : CloudflareClient) {step : Step}
    (h : isLoopOp step.op = true) : self.refusal step = none := by
  apply self.refusal_of_not_request
  intro hrequest
  rw [hrequest.not_loop] at h
  cases h

namespace Updater

variable {self : Updater}

theorem refusal_reported : Reported self self.cloudflare.refusal where
  inCycle := by
    intro step error hrefusal
    cases hloop : isLoopOp step.op with
    | false => rfl
    | true =>
        rw [self.cloudflare.refusal_of_loop hloop] at hrefusal
        cases hrefusal
  reported := fun hrun hrefusal =>
    CloudflareClient.reports_refusal self.runCycleLocked_refusal hrefusal hrun

/-- Each later request of a trace honours the refusals before it. -/
structure Honours (updater : Updater) (trace : List TimedStep) : Prop where
  honoured : ∀ {before middle after : List TimedStep} {refused later : TimedStep}
    {error : CloudflareError} {request : Request},
    trace = before ++ refused :: (middle ++ later :: after) →
    updater.cloudflare.refusal refused.2 = some error → sent later.2 = some request →
    updater.Honoured error refused later before middle

/-- A cycle sends nothing after a refusal. -/
theorem not_continues {before middle : List TimedStep} {refused later : TimedStep}
    {error : CloudflareError} {request : Request}
    (hrefusal : self.cloudflare.refusal refused.2 = some error)
    (hsent : sent later.2 = some request) :
    ¬ Continues self refused later before middle := by
  intro h
  cases h with
  | intro hreach =>
      have hlater : isLoopOp later.2.op = false := by
        cases hloop : isLoopOp later.2.op with
        | false => rfl
        | true =>
            rw [sent_of_loop hloop] at hsent
            cases hsent
      rw [steps_append, steps_cons, ofCycle_append,
        ofCycle_cons (refusal_reported.inCycle hrefusal), steps_append, steps_cons,
        ofCycle_append, ofCycle_cons hlater] at hreach
      have hnothing := CloudflareClient.nothing_sent_after_refusal self.runCycleLocked_refusal
        hrefusal hreach
      rw [List.filterMap_append, List.append_eq_nil_iff, List.filterMap_cons, hsent] at hnothing
      cases hnothing.2

theorem Iterates.honours {delay failures : Nat} {trace : List TimedStep}
    (h : self.Iterates delay failures trace) (htimed : Timed trace) : self.Honours trace := by
  constructor
  intro before middle after refused later error request hsplit hrefusal hsent
  rcases (h.spaced refusal_reported htimed).spaced hsplit hrefusal hsent with hsame | hhonoured
  · exact absurd hsame (not_continues hrefusal hsent)
  · exact hhonoured

end Updater

omit [Externals] in
theorem contextualize_retryAfter (error : CloudflareError) :
    (contextualizeAccountVerificationError error).retryAfter = error.retryAfter := by
  cases error <;> rfl

omit [Externals] in
theorem abortOf_eq_some {α : Type} {result : Except CloudflareError α}
    {error : CloudflareError} (h : abortOf result = some error) : result = .error error := by
  cases result with
  | ok value => cases h
  | error error' =>
      by_cases haborts : error'.aborts = true
      · simp only [abortOf, haborts, if_true, Option.some.injEq] at h
        rw [h]
      · simp [abortOf, haborts] at h

namespace CloudflareClient

variable (self : CloudflareClient)

/-- A delay that an error of a request asks for is the one that the response has asked for. -/
theorem verdictOf_error {request : Request} {outcome : HttpOutcome} {error : CloudflareError}
    (h : self.verdictOf request outcome = .error error) :
    error.retryAfter = none ∨ ∃ received : CloudflareError,
      receive self.apiToken request outcome = .error received ∧
        error.retryAfter = received.retryAfter := by
  by_cases hplain : request.isPlain = true
  · rw [verdictOf_plain self hplain] at h
    cases hreceive : receive self.apiToken request outcome with
    | error received =>
        rw [hreceive] at h
        cases h
        exact .inr ⟨error, rfl, rfl⟩
    | ok response =>
        rw [hreceive] at h
        cases h
  · cases request with
    | verifyToken target =>
        cases hreceive : receive self.apiToken (.verifyToken target) outcome with
        | error received =>
            refine .inr ⟨received, rfl, ?_⟩
            simp only [verdictOf, tokenVerdict, hreceive] at h
            cases htarget : self.verificationTarget with
            | user =>
                simp only [htarget] at h
                cases h
                rfl
            | account accountId =>
                simp only [htarget] at h
                cases h
                exact contextualize_retryAfter received
        | ok response =>
            simp only [verdictOf, tokenVerdict, hreceive] at h
            split at h
            · cases h
            · cases h
              exact .inl rfl
    | _ => exact absurd rfl hplain

/-- The delay of a refusal is at most an hour. -/
theorem refusal_delay_le {step : Step} {error : CloudflareError}
    (h : self.refusal step = some error) {delay : Nat}
    (hdelay : error.retryAfter = some delay) : delay ≤ maxRetryAfter := by
  unfold refusal at h
  split at h
  · rcases self.verdictOf_error (abortOf_eq_some h) with hnone | ⟨received, hreceive, hsame⟩
    · rw [hnone] at hdelay
      cases hdelay
    · rw [hsame] at hdelay
      exact (receive_error hreceive).2 delay hdelay
  · cases h

end CloudflareClient

/-- A global refusal stops all API work, and the daemon honours the server's
delay. In every run of a cycle or of a check, once a step has turned a response
into an authentication failure or a rate limit, nothing more is sent and the
report contains that failure. In every run of the daemon's loop, a request after
such a step comes after the end of its cycle, which has reported it, and no
earlier than the delay that the server has asked for. -/
theorem refusal_ends_api_work (self : Updater) :
    (∀ {before after : List Step} {step : Step} {error : CloudflareError}
      {report : CycleReport}, Runs self.runCycle (before ++ step :: after) report →
      self.cloudflare.refusal step = some error →
      after.filterMap sent = [] ∧ Reports report.failures error) ∧
    (∀ {allowCreate allowEditProbe : Bool} {before after : List Step} {step : Step}
      {error : CloudflareError} {report : CheckReport},
      Runs (self.check allowCreate allowEditProbe) (before ++ step :: after) report →
      self.cloudflare.refusal step = some error →
      after.filterMap sent = [] ∧ Reports report.failures error) ∧
    (∀ {iterations : Nat} {trace : List TimedStep} {result : LoopResult},
      Runs (self.runLoop iterations) (steps trace) result → Timed trace →
      ∀ {before middle after : List TimedStep} {refused later : TimedStep}
        {error : CloudflareError} {request : Request},
      trace = before ++ refused :: (middle ++ later :: after) →
      self.cloudflare.refusal refused.2 = some error → sent later.2 = some request →
      self.Honoured error refused later before middle) ∧
    ∀ {step : Step} {error : CloudflareError} {delay : Nat},
      self.cloudflare.refusal step = some error → error.retryAfter = some delay →
      delay ≤ maxRetryAfter := by
  refine ⟨?_, ?_, ?_, fun h hdelay => self.cloudflare.refusal_delay_le h hdelay⟩
  · intro before after step error report hrun hrefusal
    have hholds := self.runCycle_refusal
    exact ⟨CloudflareClient.nothing_sent_after_refusal hholds hrefusal hrun.reaches,
      CloudflareClient.reports_refusal hholds hrefusal hrun⟩
  · intro allowCreate allowEditProbe before after step error report hrun hrefusal
    have hholds := self.check_refusal allowCreate allowEditProbe
    exact ⟨CloudflareClient.nothing_sent_after_refusal hholds hrefusal hrun.reaches,
      CloudflareClient.reports_refusal hholds hrefusal hrun⟩
  · intro iterations trace result hrun htimed before middle after refused later error request
      hsplit hrefusal hsent
    have hhonours := (self.runLoopFrom_iterates hrun).honours htimed
    exact hhonours.honoured hsplit hrefusal hsent

end

/-- The steps of a trace at the times at which they are made where only sleeps take time. -/
def stamped (now : Instant) : List Step → List TimedStep
  | [] => []
  | step :: rest =>
      let now := match step.op with
        | .finish (.sleep duration) => now + duration
        | _ => now
      (now, step) :: stamped now rest

@[simp] theorem steps_stamped (now : Instant) (trace : List Step) :
    steps (stamped now trace) = trace := by
  induction trace generalizing now with
  | nil => rfl
  | cons step rest ih => simp [stamped, ih]

theorem le_of_mem_stamped {now : Instant} {trace : List Step} {entry : TimedStep}
    (h : entry ∈ stamped now trace) : now ≤ entry.1 := by
  induction trace generalizing now with
  | nil => cases h
  | cons step rest ih =>
      have hstep : now ≤ (match step.op with
          | .finish (.sleep duration) => now + duration
          | _ => now) := by
        split
        · exact Nat.le_add_right now _
        · exact Nat.le_refl now
      rcases List.mem_cons.mp h with rfl | member
      · exact hstep
      · exact hstep.trans (ih member)

/-- Wherever such a trace is divided, the rest starts at the time of what comes before. -/
theorem stamped_split {now : Instant} {trace : List Step} {before after : List TimedStep}
    {entry : TimedStep} (h : stamped now trace = before ++ entry :: after) :
    after = stamped entry.1 (steps after) ∧ now ≤ entry.1 ∧
      ∀ duration, entry.2.op = .finish (.sleep duration) → now + duration ≤ entry.1 := by
  induction trace generalizing now before with
  | nil => simp [stamped] at h
  | cons step rest ih =>
      have hle : ∀ other ∈ stamped now (step :: rest), now ≤ other.1 := fun other =>
        le_of_mem_stamped
      cases before with
      | nil =>
          obtain ⟨rfl, rfl⟩ := List.cons_eq_cons.mp h
          refine ⟨by rw [steps_stamped], hle _ List.mem_cons_self, ?_⟩
          intro duration hop
          simp only at hop
          simp [hop]
      | cons first before =>
          obtain ⟨rfl, hrest⟩ := List.cons_eq_cons.mp h
          obtain ⟨hafter, hlater, hsleep⟩ := ih hrest
          have hfirst := hle _ List.mem_cons_self
          exact ⟨hafter, hfirst.trans hlater, fun duration hop =>
            (Nat.add_le_add_right hfirst duration).trans (hsleep duration hop)⟩

theorem timed_stamped (now : Instant) (trace : List Step) : Timed (stamped now trace) where
  monotone := by
    induction trace generalizing now with
    | nil => exact .nil
    | cons step rest ih => exact .cons (fun _ => le_of_mem_stamped) (ih _)
  sleeps := by
    intro before between after begun ended duration hsplit _ hended _
    obtain ⟨hlater, -, -⟩ := stamped_split hsplit
    exact (stamped_split hlater.symm).2.2 duration hended

section

attribute [local instance] exampleExternals

/-- The server asks for two minutes. -/
def limitedScenario : Scenario where
  server := fun _ _ =>
    .answered
      { status := 429
        retryAfter := some (Text.bytes "120")
        contentLength := none
        chunks := []
        broken := none }
  provider := creationScenario.provider

def exampleLimit : CloudflareError :=
  .rateLimited (some (seconds 120)) (retrySuffix (some (seconds 120)))
    "unspecified Cloudflare error" []

/-- A cycle and a check stop at a rate limit, and the loop asks nothing more for the two minutes
that the server has asked for. -/
theorem refusal_ends_api_work_limited :
    (∃ before after step report, Runs exampleUpdater.runCycle (before ++ step :: after) report ∧
      exampleUpdater.cloudflare.refusal step = some exampleLimit ∧
      after.filterMap sent = [] ∧ Reports report.failures exampleLimit) ∧
    (∃ before after step report,
      Runs (exampleUpdater.check true true) (before ++ step :: after) report ∧
      exampleUpdater.cloudflare.refusal step = some exampleLimit ∧
      after.filterMap sent = [] ∧ Reports report.failures exampleLimit) ∧
    ∃ before middle after refused later request result,
      Runs (exampleUpdater.runLoop 2)
        (steps (before ++ refused :: (middle ++ later :: after))) result ∧
      exampleUpdater.cloudflare.refusal refused.2 = some exampleLimit ∧
      sent later.2 = some request ∧
      exampleUpdater.Honoured exampleLimit refused later before middle := by
  obtain ⟨hcycle, hcheck, hloop, -⟩ := refusal_ends_api_work exampleUpdater
  refine ⟨?_, ?_, ?_⟩
  · have hrefused : ((limitedScenario.trace exampleUpdater.runCycle)[13]?).bind
        exampleUpdater.cloudflare.refusal = some exampleLimit := by
      decide +kernel
    obtain ⟨step, hstep, hrefusal⟩ := Option.bind_eq_some_iff.mp hrefused
    have hrun := limitedScenario.runs_at exampleUpdater.runCycle hstep
    exact ⟨_, _, step, _, hrun, hrefusal, hcycle hrun hrefusal⟩
  · have hrefused : ((limitedScenario.trace (exampleUpdater.check true true))[5]?).bind
        exampleUpdater.cloudflare.refusal = some exampleLimit := by
      decide +kernel
    obtain ⟨step, hstep, hrefusal⟩ := Option.bind_eq_some_iff.mp hrefused
    have hrun := limitedScenario.runs_at (exampleUpdater.check true true) hstep
    exact ⟨_, _, step, _, hrun, hrefusal, hcheck hrun hrefusal⟩
  · let timed := stamped 0 (limitedScenario.trace (exampleUpdater.runLoop 2))
    have hrefused : (timed[13]?).bind (fun entry =>
        exampleUpdater.cloudflare.refusal entry.2) = some exampleLimit := by
      decide +kernel
    have hlater : (((timed.drop 14)[15]?).bind fun entry => sent entry.2).isSome = true := by
      decide +kernel
    obtain ⟨refused, hat, hrefusal⟩ := Option.bind_eq_some_iff.mp hrefused
    obtain ⟨request, hlater⟩ := Option.isSome_iff_exists.mp hlater
    obtain ⟨later, hafter, hsent⟩ := Option.bind_eq_some_iff.mp hlater
    have hsplit := split_at hat
    rw [split_at hafter] at hsplit
    have hrun : Runs (exampleUpdater.runLoop 2) (steps timed)
        (limitedScenario.result (exampleUpdater.runLoop 2)) := by
      rw [steps_stamped]
      exact limitedScenario.runs (exampleUpdater.runLoop 2)
    have hhonoured := hloop hrun (timed_stamped 0 _) hsplit hrefusal hsent
    rw [hsplit] at hrun
    exact ⟨_, _, _, refused, later, request, _, hrun, hrefusal, hsent, hhonoured⟩

end

end Cirrusync
