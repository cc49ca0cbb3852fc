import Cirrusync.FailureReports
import Cirrusync.RefusalDelay

/-!
What the client and the daemon make of a failed response. Its status says which error it
is; a 401 and a 429 end the cycle, and a delay has passed before the next cycle sends
anything.
-/

namespace Cirrusync

open Effect

section

variable [Externals]

namespace CloudflareClient

variable {self : CloudflareClient}

theorem failing_of_answered (self : CloudflareClient) {step : Step} {request : Request}
    {response : HttpResponse}
    (hreplied : replied step = some (request, .answered response))
    (hdelivered : response.Delivered) (hbounded : response.Bounded)
    (hfailed : ¬ response.Succeeds) :
    ∃ error, self.failing step = some error ∧
      Classified request.operation (parseRetryAfter response.retryAfter) response.status
        error := by
  have hreceive : ∃ error, receive self.apiToken request (.answered response) = .error error ∧
      Classified request.operation (parseRetryAfter response.retryAfter) response.status
        error := receive_classified hdelivered hbounded hfailed
  obtain ⟨error, hreceive, hclassified⟩ := hreceive
  refine ⟨error, ?_, hclassified⟩
  unfold failing
  simp only [hreplied, hreceive]

/-- An error that aborts is a refusal, with the account's hint or without. -/
theorem refusal_of_failing {step : Step} {error : CloudflareError}
    (hfailing : self.failing step = some error) (haborts : error.aborts = true) :
    ∃ refused, self.refusal step = some refused := by
  unfold failing at hfailing
  unfold refusal
  cases hreplied : replied step with
  | none =>
      rw [hreplied] at hfailing
      cases hfailing
  | some exchanged =>
      obtain ⟨request, outcome⟩ := exchanged
      rw [hreplied] at hfailing
      simp only at hfailing ⊢
      have hreceive : receive self.apiToken request outcome = .error error := by
        cases hreceive : receive self.apiToken request outcome with
        | ok response =>
            rw [hreceive] at hfailing
            cases hfailing
        | error received =>
            rw [hreceive] at hfailing
            rw [Option.some.inj hfailing]
      have habort : ∀ {α : Type} {error : CloudflareError}, error.aborts = true →
          abortOf (.error error : Except CloudflareError α) = some error := by
        intro α error haborts
        simp only [abortOf, haborts, if_true]
      by_cases hplain : request.isPlain = true
      · rw [self.verdictOf_plain hplain, hreceive]
        exact ⟨error, habort haborts⟩
      · cases request with
        | verifyToken target =>
            simp only [verdictOf, tokenVerdict, hreceive]
            cases self.verificationTarget with
            | user => exact ⟨error, habort haborts⟩
            | account accountId =>
                refine ⟨contextualizeAccountVerificationError error, habort ?_⟩
                cases error <;> first | rfl | cases haborts
        | _ => exact absurd rfl hplain

end CloudflareClient

namespace Updater

variable {updater : Updater}

theorem failing_reported : Reported updater updater.cloudflare.failing where
  inCycle := by
    intro step error hfailing
    cases hloop : isLoopOp step.op with
    | false => rfl
    | true =>
        have hrequest : ¬ RequestOp step.op := by
          intro hrequest
          rw [hrequest.not_loop] at hloop
          cases hloop
        rw [CloudflareClient.failing_of_not_request _ hrequest] at hfailing
        cases hfailing
  reported := fun hrun hfailing =>
    cycleLocked_reports hrun (List.mem_append_right _ List.mem_cons_self) hfailing

/-- A cycle with the lock around it reports every exchange that fails. -/
theorem runCycle_reports {trace : List Step} {report : CycleReport}
    (hrun : Runs updater.runCycle trace report) {step : Step} (member : step ∈ trace)
    {error : CloudflareError} (hfailing : updater.cloudflare.failing step = some error) :
    Reports report.failures error := by
  have hlock : ∀ {α : Type} {p : M α} {trace : List Step} {value : α}, Uses LockOp p →
      Runs p trace value → step ∉ trace := by
    intro α p trace value huses hrun member
    rw [CloudflareClient.failing_of_not_request _ fun hrequest =>
      hrequest.not_lock (uses_runs huses hrun step member)] at hfailing
    cases hfailing
  simp only [runCycle, act_eq, Program.ask_bind, Program.done_bind] at hrun
  obtain ⟨_, rest, rfl, hrest⟩ := (runs_ask_iff _ _ _ _).mp hrun
  rcases List.mem_cons.mp member with rfl | member
  · cases hfailing
  · obtain ⟨acquiring, later, acquired, rfl, hacquire, hlater⟩ := (runs_bind_iff _ _ _ _).mp hrest
    rcases List.mem_append.mp member with member | member
    · exact absurd member (hlock (acquire_uses _) hacquire)
    · cases acquired with
      | error error =>
          cases hlater
          cases member
      | ok lock =>
          obtain ⟨cycle, dropping, report', rfl, hcycle, hdropping⟩ :=
            (runs_bind_iff _ _ _ _).mp hlater
          obtain ⟨dropped, _, _, rfl, hdrop, hdone⟩ := (runs_bind_iff _ _ _ _).mp hdropping
          cases hdone
          rcases List.mem_append.mp member with member | member
          · exact cycleLocked_reports hcycle member hfailing
          · rw [List.append_nil] at member
            exact absurd member (hlock (drop_uses lock) hdrop)

end Updater

/-- A failed response within the bound on its body is classified by its status alone, with
the delay that its header asks for. A cycle reports it, and sends nothing more after a 401
or a 429; the next cycle sends nothing before the delay has passed. -/
theorem failures_classified_by_status (updater : Updater) :
    (∀ {request : Request} {trace : List Step}
        {result : Except CloudflareError (ApiResponse request.kind.Value)}
        {response : HttpResponse},
      Runs (updater.cloudflare.send request) trace result →
      (⟨.finish (.http request), .answered response⟩ : Step) ∈ trace →
      response.Delivered → ¬ response.Succeeds →
      (response.Bounded → ∃ error, result = .error error ∧
        Classified request.operation (parseRetryAfter response.retryAfter) response.status
          error) ∧
      (¬ response.Bounded →
        result = .error (.responseTooLarge request.operation maxResponseBytes))) ∧
    (∀ {header : List UInt8} {count : Nat}, DecimalHeader header count → count < 2 ^ 64 →
      parseRetryAfter (some header) = some (min (seconds count) maxRetryAfter)) ∧
    (∀ {before after : List Step} {step : Step} {report : CycleReport} {request : Request}
        {response : HttpResponse}, Runs updater.runCycle (before ++ step :: after) report →
      replied step = some (request, .answered response) →
      response.Delivered → response.Bounded → ¬ response.Succeeds →
      ∃ error, Classified request.operation (parseRetryAfter response.retryAfter)
          response.status error ∧ Reports report.failures error ∧
        (response.status = 401 ∨ response.status = 429 → after.filterMap sent = [])) ∧
    ∀ {iterations : Nat} {trace : List TimedStep} {result : LoopResult},
      Runs (updater.runLoop iterations) (steps trace) result → Timed trace →
      ∀ {before middle after : List TimedStep} {answered later : TimedStep}
        {request next : Request} {response : HttpResponse},
      trace = before ++ answered :: (middle ++ later :: after) →
      replied answered.2 = some (request, .answered response) →
      response.Delivered → response.Bounded → ¬ response.Succeeds →
      sent later.2 = some next →
      ∃ error, Classified request.operation (parseRetryAfter response.retryAfter)
          response.status error ∧
        (updater.Honoured error answered later before middle ∨
          response.status ≠ 401 ∧ response.status ≠ 429 ∧
            Updater.Continues updater answered later before middle) := by
  refine ⟨?_, parseRetryAfter_decimal, ?_, ?_⟩
  · intro request trace result response hrun member hdelivered hfailed
    obtain ⟨outcome, rfl, rfl⟩ := (updater.cloudflare.runs_send_iff _ _ _).mp hrun
    have houtcome : outcome = .answered response := by
      simp only [exchange, List.mem_cons, List.not_mem_nil, or_false] at member
      rcases member with heq | heq
      · cases heq
      · cases heq
        rfl
    rw [houtcome]
    exact ⟨fun hbounded => receive_classified hdelivered hbounded hfailed,
      receive_oversized hdelivered⟩
  · intro before after step report request response hrun hreplied hdelivered hbounded hfailed
    obtain ⟨error, hfailing, hclassified⟩ :=
      updater.cloudflare.failing_of_answered hreplied hdelivered hbounded hfailed
    refine ⟨error, hclassified, ?_, fun hstatus => ?_⟩
    · exact Updater.runCycle_reports hrun (List.mem_append_right _ List.mem_cons_self) hfailing
    · obtain ⟨refused, hrefusal⟩ :=
        CloudflareClient.refusal_of_failing hfailing (hclassified.aborts hstatus)
      exact CloudflareClient.nothing_sent_after_refusal updater.runCycle_refusal hrefusal
        hrun.reaches
  · intro iterations trace result hrun htimed before middle after answered later request next
      response hsplit hreplied hdelivered hbounded hfailed hsent
    obtain ⟨error, hfailing, hclassified⟩ :=
      updater.cloudflare.failing_of_answered hreplied hdelivered hbounded hfailed
    refine ⟨error, hclassified, ?_⟩
    have hiterates := updater.runLoopFrom_iterates hrun
    rcases (hiterates.spaced Updater.failing_reported htimed).spaced hsplit hfailing hsent with
      hsame | hhonoured
    · have hgoes : ¬ (response.status = 401 ∨ response.status = 429) := by
        intro hstatus
        obtain ⟨refused, hrefusal⟩ :=
          CloudflareClient.refusal_of_failing hfailing (hclassified.aborts hstatus)
        exact Updater.not_continues hrefusal hsent hsame
      exact .inr ⟨fun h => hgoes (.inl h), fun h => hgoes (.inr h), hsame⟩
    · exact .inl hhonoured

end

section

attribute [local instance] exampleExternals

/-- A 401 with a body of one byte more than a mebibyte. -/
def oversizedUnauthorized : HttpResponse where
  status := 401
  retryAfter := none
  contentLength := none
  chunks := [List.replicate (maxResponseBytes + 1) 0]
  broken := none

/-- Such a body hides that the token was refused. -/
theorem oversized_hides_unauthorized :
    oversizedUnauthorized.Delivered ∧ oversizedUnauthorized.status = 401 ∧
    ∃ (trace : List Step) (result : Except CloudflareError (ApiResponse (List Zone))),
      Runs (exampleUpdater.cloudflare.send (.listZones "example.com" 1 zonePageSize)) trace
        result ∧
      (⟨.finish (.http (.listZones "example.com" 1 zonePageSize)),
        .answered oversizedUnauthorized⟩ : Step) ∈ trace ∧
      ¬ ∃ message errors, result = .error (.authentication 401 message errors) := by
  have hdelivered : oversizedUnauthorized.Delivered := rfl
  have hoversized : ¬ oversizedUnauthorized.Bounded := by
    intro hbounded
    have hreceived := hbounded.received
    unfold oversizedUnauthorized at hreceived
    rw [List.flatten_singleton, List.length_replicate] at hreceived
    omega
  refine ⟨hdelivered, rfl, _, _, (exampleUpdater.cloudflare.runs_send_iff _ _ _).mpr ⟨_, rfl, rfl⟩,
    List.mem_cons_of_mem _ List.mem_cons_self, ?_⟩
  rintro ⟨message, errors, herror⟩
  cases (receive_oversized hdelivered hoversized).symm.trans herror

end

end Cirrusync
