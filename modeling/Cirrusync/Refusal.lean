import Cirrusync.CycleCount
import Cirrusync.Lookup

/-!
A global refusal ends the API work of a cycle and of a check. The state that is
tracked along a run is the refusal met so far; every function of the drivers
asks the API only while there is none, and hands the refusal up as its error, to
the report.
-/

namespace Cirrusync

open Effect Text

/-- The error of a result that ends all API work. -/
def abortOf {α : Type} : Except CloudflareError α → Option CloudflareError
  | .ok _ => none
  | .error error => if error.aborts then some error else none

@[simp] theorem abortOf_ok {α : Type} (value : α) :
    abortOf (.ok value : Except CloudflareError α) = none := rfl

@[simp] theorem abortOf_map {α β : Type} (f : α → β) (result : Except CloudflareError α) :
    abortOf (result.map f) = abortOf result := by
  cases result <;> rfl

theorem abortOf_error_eq_none {α : Type} {error : CloudflareError}
    (h : error.aborts = false) : abortOf (.error error : Except CloudflareError α) = none := by
  simp [abortOf, h]

/-- A report that contains the failure of an error. -/
def Reports [Externals] (failures : List CycleFailure) (error : CloudflareError) : Prop :=
  ∃ target stage, cloudflareFailure target stage error ∈ failures

/-- The operations of a Cloudflare request. -/
def RequestOp : Op → Prop
  | .act (.begin (.http _)) | .finish (.http _) | .finishBefore _ (.http _) => True
  | _ => False

/-- The operations that a driver comes to only while it has met no refusal. -/
def GatedOp : Op → Prop
  | .act (.begin (.http _)) | .finish _ | .finishBefore _ _ => True
  | _ => False

theorem RequestOp.gated {op : Op} (h : RequestOp op) : GatedOp op := by
  unfold RequestOp at h
  split at h <;> trivial

/-- Any request but the verification of the token. -/
def Request.isPlain : Request → Bool
  | .verifyToken _ => false
  | _ => true

namespace CloudflareClient

variable [Externals] (self : CloudflareClient)

/-- What `verify_token` makes of the received response. -/
def tokenVerdict (received : Except CloudflareError (ApiResponse TokenVerification)) :
    Except CloudflareError Unit :=
  match received with
  | .error error =>
      match self.verificationTarget with
      | .account _ => .error (contextualizeAccountVerificationError error)
      | .user => .error error
  | .ok response =>
      if eqIgnoreAsciiCase response.result.status "active" then .ok ()
      else .error (.tokenInactive
        (self.sanitizeRemote response.result.status maxErrorMessageBytes))

/-- What the client turns the outcome of a request into, less its value. -/
def verdictOf (request : Request) (outcome : HttpOutcome) : Except CloudflareError Unit :=
  match request with
  | .verifyToken target =>
      self.tokenVerdict (receive self.apiToken (.verifyToken target) outcome)
  | request => (receive self.apiToken request outcome).map fun _ => ()

/-- The authentication failure or rate limit that a step brings the client. -/
def refusal (step : Step) : Option CloudflareError :=
  match replied step with
  | some (request, outcome) => abortOf (self.verdictOf request outcome)
  | none => none

/-- The refusal met so far; a request is sent, and a wait finished, only before it. -/
def refusalContract : Contract Ans (Option CloudflareError) :=
  .track (fun met op => GatedOp op → met = none) (fun _ _ => True)
    (fun met step => met.or (self.refusal step))

@[simp] theorem refusal_act (action : Action) (answer : action.Answer) :
    self.refusal ⟨.act action, answer⟩ = none := rfl

@[simp] theorem holds_refusal_done {α : Type} {post : α → Option CloudflareError → Prop}
    {value : α} {met : Option CloudflareError} :
    Holds self.refusalContract post (.done value) met ↔ post value met :=
  holds_track_done

@[simp] theorem holds_refusal_ask {α : Type} {post : α → Option CloudflareError → Prop}
    {op : Op} {rest : Ans op → M α} {met : Option CloudflareError} :
    Holds self.refusalContract post (.ask op rest) met ↔
      (GatedOp op → met = none) ∧ ∀ answer, Holds self.refusalContract post (rest answer)
        (met.or (self.refusal ⟨op, answer⟩)) := by
  unfold refusalContract
  rw [holds_track_ask]
  simp

theorem refusal_of_not_request {step : Step} (h : ¬ RequestOp step.op) :
    self.refusal step = none := by
  unfold refusal replied
  split
  · rename_i hreplied
    split at hreplied
    · exact absurd trivial h
    · exact absurd trivial h
    · cases hreplied
  · rfl

/-- A program that sends nothing leaves the refusal as it is. -/
theorem holds_quiet {α : Type} {allowed : Op → Prop} {met : Option CloudflareError}
    (hquiet : ∀ op, allowed op → ¬ RequestOp op ∧ (GatedOp op → met = none)) {p : M α}
    (huses : Uses allowed p) :
    Holds self.refusalContract (fun _ met' => met' = met) p met := by
  induction p with
  | done value => simp
  | ask op next ih =>
      obtain ⟨hrequest, hgated⟩ := hquiet op huses.1
      rw [holds_refusal_ask]
      refine ⟨hgated, fun answer => ?_⟩
      have hnone : self.refusal ⟨op, answer⟩ = none := self.refusal_of_not_request hrequest
      rw [hnone, Option.or_none]
      exact ih answer (huses.2 answer)

/-- Under a deadline a program ends with no refusal met or with its result. -/
theorem timeoutAt_refusal {α : Type} {deadline : Instant} {p : M α}
    {post : α → Option CloudflareError → Prop} {met : Option CloudflareError}
    (h : Holds self.refusalContract post p met) :
    Holds self.refusalContract (fun result met' => match result with
      | none => met' = none
      | some value => post value met') (timeoutAt deadline p) met := by
  apply holds_timeoutAt _ h
  intro met wait hpermits
  have hnone : met = none := hpermits trivial
  refine ⟨fun _ => hnone, ?_, ?_⟩
  · rintro answer met' ⟨-, hmet'⟩
    refine ⟨trivial, ?_⟩
    rw [hmet']
    cases wait <;> rfl
  · rintro met' met'' ⟨-, hmet'⟩ hsame
    have hrefusal : self.refusal ⟨.finishBefore deadline wait, none⟩ = none := by
      cases wait <;> rfl
    simp only [hrefusal, hnone, Option.or_none] at hmet'
    exact hsame.symm.trans hmet'

theorem verdictOf_plain {request : Request} (hplain : request.isPlain = true)
    (outcome : HttpOutcome) :
    self.verdictOf request outcome =
      (receive self.apiToken request outcome).map fun _ => () := by
  cases request with
  | verifyToken target => cases hplain
  | _ => rfl

/-- After an exchange the refusal met is that of its result. -/
theorem send_refusal {request : Request} (hplain : request.isPlain = true) :
    Holds self.refusalContract (fun result met => met = abortOf result)
      (self.send request) none := by
  simp only [send, await_eq, Program.ask_bind, Program.done_bind, Program.pure_eq,
    holds_refusal_ask, holds_refusal_done, implies_true, true_and, refusal_act,
    Option.or_none, Option.none_or]
  intro _ outcome
  simp [refusal, replied, self.verdictOf_plain hplain]

theorem sendInZone_refusal (zoneId : String) {request : Request}
    (hplain : request.isPlain = true) :
    Holds self.refusalContract (fun result met => met = abortOf result)
      (self.sendInZone zoneId request) none := by
  unfold sendInZone
  apply holds_bind
  refine holds_mono (self.send_refusal hplain) ?_
  rintro result _ rfl
  cases result with
  | ok response => simp
  | error error =>
      simp only [invalidateZoneAfterNotFound]
      split
      · simp [GatedOp, abortOf]
      · simp [abortOf]

omit [Externals] in
theorem checkExplicitZone_error {zoneName zoneId : String} {zone : Zone}
    {error : CloudflareError}
    (h : self.checkExplicitZone zoneName zoneId zone = .error error) :
    error.aborts = false := by
  simp only [checkExplicitZone, ensure_bind_error, ensure_error] at h
  rcases h with ⟨-, rfl⟩ | ⟨-, ⟨-, rfl⟩ | ⟨-, -, rfl⟩⟩
  · rfl
  · rfl
  · rfl

theorem resolveExplicitZoneId_refusal (zoneName zoneId : String) :
    Holds self.refusalContract (fun result met => met = abortOf result)
      (self.resolveExplicitZoneId zoneName zoneId) none := by
  simp only [resolveExplicitZoneId, act_eq, Program.ask_bind, Program.done_bind,
    holds_refusal_ask, GatedOp, false_implies, true_and, refusal_act, Option.or_none]
  intro cached
  cases cached with
  | some cachedZoneId => simp
  | none =>
      apply holds_bind
      refine holds_mono (self.send_refusal rfl) ?_
      rintro result _ rfl
      cases result with
      | error error => simp [abortOf]
      | ok response =>
          cases hcheck : self.checkExplicitZone zoneName zoneId response.result with
          | error error =>
              simp [hcheck, abortOf_error_eq_none (self.checkExplicitZone_error hcheck)]
          | ok _ => simp [hcheck, GatedOp]

omit [Externals] in
theorem scanZones_error {zoneName : String} {zones : List Zone}
    {exactMatch inactiveMatch : Option String} {error : CloudflareError}
    (h : self.scanZones zoneName zones exactMatch inactiveMatch = .error error) :
    error.aborts = false := by
  rw [scanZones_eq] at h
  split at h
  · cases h
  · cases h
  · cases h
    rfl

omit [Externals] in
theorem concludeZone_error {zoneName : String} {exactMatch inactiveMatch : Option String}
    {error : CloudflareError}
    (h : concludeZone zoneName exactMatch inactiveMatch = .error error) :
    error.aborts = false := by
  unfold concludeZone at h
  split at h
  · cases h
  · split at h
    · cases h
      rfl
    · cases h
      rfl

theorem zonePages_refusal (zoneName : String) (left page : Nat)
    (exactMatch inactiveMatch : Option String) :
    Holds self.refusalContract (fun result met => met = abortOf result)
      (self.zonePages zoneName left page exactMatch inactiveMatch) none := by
  induction left generalizing page exactMatch inactiveMatch with
  | zero => simp [zonePages, abortOf, CloudflareError.aborts,
      CloudflareError.isAuthenticationFailure, CloudflareError.isRateLimited]
  | succ left ih =>
      unfold zonePages
      apply holds_bind
      refine holds_mono (self.send_refusal rfl) ?_
      rintro result _ rfl
      cases result with
      | error error => simp [abortOf]
      | ok response =>
          simp only [abortOf_ok]
          split
          · rename_i hscan
            simp [abortOf_error_eq_none (self.scanZones_error hscan)]
          · split
            · exact ih _ _ _
            · split
              · rename_i hconclude
                simp [abortOf_error_eq_none (concludeZone_error hconclude)]
              · simp [GatedOp]

theorem resolveZoneId_refusal (zoneName : String) (explicitZoneId : Option String) :
    Holds self.refusalContract (fun result met => met = abortOf result)
      (self.resolveZoneId zoneName explicitZoneId) none := by
  cases explicitZoneId with
  | some zoneId => exact self.resolveExplicitZoneId_refusal zoneName zoneId
  | none =>
      simp only [resolveZoneId, resolveNamedZoneId, act_eq, Program.ask_bind,
        Program.done_bind, holds_refusal_ask, GatedOp, false_implies, true_and,
        refusal_act, Option.or_none]
      intro cached
      cases cached with
      | some cachedZoneId => simp
      | none => exact self.zonePages_refusal zoneName _ _ _ _

theorem recordPages_refusal (zoneId recordType name : String) (left page : Nat)
    (exactMatch : Option DnsRecord) :
    Holds self.refusalContract (fun result met => met = abortOf result)
      (self.recordPages zoneId recordType name left page exactMatch) none := by
  induction left generalizing page exactMatch with
  | zero => simp [recordPages, abortOf, CloudflareError.aborts,
      CloudflareError.isAuthenticationFailure, CloudflareError.isRateLimited]
  | succ left ih =>
      unfold recordPages
      apply holds_bind
      refine holds_mono (self.sendInZone_refusal zoneId rfl) ?_
      rintro result _ rfl
      cases result with
      | error error => simp [abortOf]
      | ok response =>
          simp only [abortOf_ok, scanRecords_eq]
          split
          · rename_i hscan
            rw [((recordVerdict_error_iff _ _ _ _).mp hscan).2]
            simp [abortOf, CloudflareError.aborts, CloudflareError.isAuthenticationFailure,
              CloudflareError.isRateLimited]
          · split
            · exact ih _ _
            · simp

theorem findRecord_refusal (zoneId recordType name : String) :
    Holds self.refusalContract (fun result met => met = abortOf result)
      (self.findRecord zoneId recordType name) none :=
  self.recordPages_refusal zoneId recordType name _ _ _

/-- The shape of the mutating calls. -/
theorem resultInZone_refusal (zoneId : String) {request : Request}
    (hplain : request.isPlain = true)
    {rest : Except CloudflareError (ApiResponse request.kind.Value) →
      M (Except CloudflareError request.kind.Value)}
    (hok : ∀ response, rest (.ok response) = pure (.ok response.result))
    (herror : ∀ error, rest (.error error) = pure (.error error)) :
    Holds self.refusalContract (fun result met => met = abortOf result)
      (self.sendInZone zoneId request >>= rest) none := by
  apply holds_bind
  refine holds_mono (self.sendInZone_refusal zoneId hplain) ?_
  rintro result _ rfl
  cases result with
  | error error => simp [herror, abortOf]
  | ok response => simp [hok]

theorem verifyToken_refusal :
    Holds self.refusalContract (fun result met => met = abortOf result)
      self.verifyToken none := by
  simp only [verifyToken, send, await_eq, Program.ask_bind, Program.done_bind,
    Program.pure_eq, holds_refusal_ask, implies_true, true_and, refusal_act,
    Option.or_none, Option.none_or]
  intro _ outcome
  have hmet : self.refusal ⟨.finish (.http (.verifyToken self.verificationTarget)), outcome⟩ =
      abortOf (self.tokenVerdict
        (receive self.apiToken (.verifyToken self.verificationTarget) outcome)) := rfl
  rw [hmet]
  unfold tokenVerdict
  cases receive self.apiToken (.verifyToken self.verificationTarget) outcome with
  | error error =>
      simp only
      cases self.verificationTarget <;> simp
  | ok response =>
      simp only
      split <;> simp

end CloudflareClient

end Cirrusync
