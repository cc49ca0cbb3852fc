import Cirrusync.DaemonRuns

/-!
Two steps of the daemon's loop and what lies between them. A step that brings an error
which a cycle reports, and a request after it, are in one cycle, or the cycle has ended and
the delay of its report has passed.
-/

namespace Cirrusync

open Effect

/-- An element of two lists after one another is of the first or of the second. -/
theorem append_eq_cons_split {α : Type} {first second before after : List α} {a : α}
    (h : first ++ second = before ++ a :: after) :
    (∃ rest, first = before ++ a :: rest) ∨
      ∃ middle, before = first ++ middle ∧ second = middle ++ a :: after := by
  rcases List.append_eq_append_iff.mp h with ⟨middle, hbefore, hsecond⟩ | ⟨tail, hfirst, htail⟩
  · exact .inr ⟨middle, hbefore, hsecond⟩
  · cases tail with
    | nil =>
        rw [List.append_nil] at hfirst
        exact .inr ⟨[], by rw [List.append_nil, hfirst], htail.symm⟩
    | cons entry rest =>
        obtain ⟨rfl, -⟩ := List.cons_eq_cons.mp htail
        exact .inl ⟨rest, hfirst⟩

/-- Two positions of a concatenation are both in its first part, both in its
second part, or one in each. -/
theorem append_eq_pair {α : Type} {first second before middle after : List α} {a b : α}
    (h : first ++ second = before ++ a :: (middle ++ b :: after)) :
    (∃ rest, first = before ++ a :: (middle ++ b :: rest)) ∨
      (∃ left right, first = before ++ a :: left ∧ middle = left ++ right ∧
        second = right ++ b :: after) ∨
      ∃ rest, before = first ++ rest ∧ second = rest ++ a :: (middle ++ b :: after) := by
  rcases append_eq_cons_split h with ⟨tail, rfl⟩ | hlater
  · have htail : tail ++ second = middle ++ b :: after := by
      simpa using h
    rcases append_eq_cons_split htail with ⟨rest, rfl⟩ | ⟨right, rfl, hsecond⟩
    · exact .inl ⟨rest, rfl⟩
    · exact .inr (.inl ⟨tail, right, rfl, rfl, hsecond⟩)
  · exact .inr (.inr hlater)

theorem sent_of_loop {step : Step} (h : isLoopOp step.op = true) : sent step = none := by
  unfold sent
  split
  · cases h
  · rfl

namespace CycleReport

/-- A reported delay is not longer than the one the daemon goes by. -/
theorem le_retryAfter {report : CycleReport} {failure : CycleFailure} {delay : Nat}
    (hfailure : failure ∈ report.failures) (hdelay : failure.retryAfter = some delay) :
    ∃ longest, report.retryAfter = some longest ∧ delay ≤ longest := by
  have hmember : delay ∈ report.failures.filterMap CycleFailure.retryAfter :=
    List.mem_filterMap.mpr ⟨failure, hfailure, hdelay⟩
  cases hlongest : report.retryAfter with
  | none =>
      have hnil := List.max?_eq_none_iff.mp hlongest
      rw [hnil] at hmember
      cases hmember
  | some longest => exact ⟨longest, rfl, (List.max?_eq_some_iff.mp hlongest).2 delay hmember⟩

theorem le_retryDelay {report : CycleReport} {failure : CycleFailure} {delay : Nat}
    (hfailure : failure ∈ report.failures) (hdelay : failure.retryAfter = some delay)
    (consecutiveFailures interval jitterPercent : Nat) :
    delay ≤ retryDelay report consecutiveFailures interval jitterPercent := by
  obtain ⟨longest, hlongest, hle⟩ := le_retryAfter hfailure hdelay
  unfold retryDelay
  rw [hlongest]
  simp only
  omega

end CycleReport

section

variable [Externals]

theorem Reports.not_success {report : CycleReport} {error : CloudflareError}
    (h : Reports report.failures error) : report.isSuccess = false := by
  obtain ⟨target, stage, member⟩ := h
  cases hfailures : report.failures with
  | nil =>
      rw [hfailures] at member
      cases member
  | cons failure rest => simp [CycleReport.isSuccess, hfailures]

namespace Updater

variable (self : Updater)

/-- What has happened between a refusal and a later request: the cycle of the
refusal has ended with a report of it, and the time that the server asked for
has passed since. -/
inductive Honoured (error : CloudflareError) (refused later : TimedStep) :
    List TimedStep → List TimedStep → Prop where
  | intro {earlier start finish waiting : List TimedStep} {started ended : Instant}
      {jitter : Nat} {report : CycleReport} :
      Runs self.runCycleLocked (ofCycle (steps (start ++ refused :: finish))) report →
      Reports report.failures error →
      (∀ delay, error.retryAfter = some delay → ended + delay ≤ later.1) →
      Honoured error refused later (earlier ++ (started, ⟨.act .newControl, ()⟩) :: start)
        (finish ++ (ended, ⟨.act .jitterPercent, jitter⟩) :: waiting)

variable {self}

theorem Honoured.prepend {error : CloudflareError} {refused later : TimedStep}
    {before middle : List TimedStep} (first : List TimedStep)
    (h : self.Honoured error refused later before middle) :
    self.Honoured error refused later (first ++ before) middle := by
  cases h with
  | intro hcycle hreports hdelay =>
      rw [← List.append_assoc]
      exact .intro hcycle hreports hdelay

/-- An iteration that has to wait sends its first request after the wait. -/
theorem Iterates.sends_after_delay {delay failures : Nat} {trace : List TimedStep}
    (h : self.Iterates delay failures trace) {moment : TimedStep}
    (htimed : Timed (moment :: trace)) {before after : List TimedStep} {later : TimedStep}
    {request : Request} (hsplit : trace = before ++ later :: after)
    (hsent : sent later.2 = some request) : moment.1 + delay ≤ later.1 := by
  have hmember : later ∈ trace := by
    rw [hsplit]
    simp
  have hsends : isLoopOp later.2.op ≠ true := by
    intro hloop
    rw [sent_of_loop hloop] at hsent
    cases hsent
  have hwaits : ∀ {waiting tail : List TimedStep}, Waits delay waiting →
      trace = waiting ++ tail → moment.1 + delay ≤ later.1 := by
    intro waiting tail hwaits htrace
    have htail : later ∈ tail := by
      rw [htrace] at hmember
      rcases List.mem_append.mp hmember with hwaiting | htail
      · exact absurd (hwaits.loopSteps later hwaiting) hsends
      · exact htail
    rw [htrace] at htimed
    cases hwaits with
    | none => exact @Timed.le_of_append [moment] tail htimed _ _ List.mem_cons_self htail
    | @slept delay begun polled ended =>
        have hslept : begun + delay ≤ ended := by
          apply @Timed.sleeps _ htimed [moment] [(polled, ⟨.act .pollShutdown, none⟩)] tail
            (begun, ⟨.act (.begin (.sleep delay)), ()⟩) (ended, ⟨.finish (.sleep delay), ()⟩)
            delay rfl rfl rfl
          intro entry member
          obtain rfl := List.mem_singleton.mp member
          rintro ⟨duration, heq⟩
          cases heq
        have hbegun : moment.1 ≤ begun :=
          @Timed.le_of_append [moment] _ htimed moment
            (begun, ⟨.act (.begin (.sleep delay)), ()⟩) List.mem_cons_self List.mem_cons_self
        have hended : ended ≤ later.1 :=
          @Timed.le_of_append [moment, (begun, ⟨.act (.begin (.sleep delay)), ()⟩),
              (polled, ⟨.act .pollShutdown, none⟩), (ended, ⟨.finish (.sleep delay), ()⟩)]
            tail htimed (ended, ⟨.finish (.sleep delay), ()⟩) later (by simp) htail
        exact (Nat.add_le_add_right hbegun delay).trans (hslept.trans hended)
  cases h with
  | idle hloop => exact absurd (hloop later hmember) hsends
  | signalled hwaiting _ => exact hwaits hwaiting rfl
  | succeeded hwaiting _ _ _ => exact hwaits hwaiting rfl
  | failed hwaiting _ _ _ => exact hwaits hwaiting rfl

omit [Externals] in
/-- A step that is not the loop's comes in the cycle. -/
theorem split_in_cycle {lead cycle before left : List TimedStep} {entry : TimedStep}
    (hlead : LoopSteps lead) (hsplit : lead ++ cycle = before ++ entry :: left)
    (hentry : isLoopOp entry.2.op = false) :
    ∃ start, before = lead ++ start ∧ cycle = start ++ entry :: left := by
  rcases append_eq_cons_split hsplit with ⟨rest, rfl⟩ | hlater
  · have hloop := hlead entry (List.mem_append_right _ List.mem_cons_self)
    rw [hentry] at hloop
    cases hloop
  · exact hlater

/-- The later step is one of the same cycle. -/
inductive Continues (updater : Updater) (answered later : TimedStep) :
    List TimedStep → List TimedStep → Prop where
  | intro {earlier start middle finish : List TimedStep} {started : Instant}
      {rest : M CycleReport} :
      Effect.Reaches updater.runCycleLocked
        (ofCycle (steps (start ++ answered :: (middle ++ later :: finish)))) rest →
      Continues updater answered later (earlier ++ (started, ⟨.act .newControl, ()⟩) :: start)
        middle

theorem Continues.prepend {answered later : TimedStep} {before middle : List TimedStep}
    (first : List TimedStep) (h : Continues updater answered later before middle) :
    Continues updater answered later (first ++ before) middle := by
  cases h with
  | intro hreach =>
      rw [← List.append_assoc]
      exact .intro hreach

/-- A request after a step that brings an error belongs to the same cycle, or the delay of
the error has passed. -/
structure Spaced (updater : Updater) (brings : Step → Option CloudflareError)
    (trace : List TimedStep) : Prop where
  spaced : ∀ {before middle after : List TimedStep} {answered later : TimedStep}
    {error : CloudflareError} {request : Request},
    trace = before ++ answered :: (middle ++ later :: after) →
    brings answered.2 = some error → sent later.2 = some request →
    Continues updater answered later before middle ∨
      updater.Honoured error answered later before middle

/-- The errors that steps of a cycle bring, all of which a cycle reports. -/
structure Reported (updater : Updater) (brings : Step → Option CloudflareError) : Prop where
  inCycle : ∀ {step : Step} {error : CloudflareError}, brings step = some error →
    isLoopOp step.op = false
  reported : ∀ {before after : List Step} {step : Step} {error : CloudflareError}
    {report : CycleReport}, Runs updater.runCycleLocked (before ++ step :: after) report →
    brings step = some error → Reports report.failures error

section

variable {brings : Step → Option CloudflareError} (hbrings : Reported self brings)

include hbrings

theorem Spaced.loop {trace : List TimedStep} (h : LoopSteps trace) :
    Spaced self brings trace := by
  constructor
  intro before middle after answered later error request hsplit hbrought hsent
  have hloop : isLoopOp answered.2.op = true := by
    apply h
    rw [hsplit]
    exact List.mem_append_right _ List.mem_cons_self
  rw [hbrings.inCycle hbrought] at hloop
  cases hloop

/-- The steps of a cycle after those that lead to it. -/
theorem Spaced.cycle {waiting cycle : List TimedStep} {started : Instant} {rest : M CycleReport}
    (hlead : LoopSteps (waiting ++ [(started, ⟨.act .newControl, ()⟩)]))
    (hreach : Effect.Reaches self.runCycleLocked (ofCycle (steps cycle)) rest) :
    Spaced self brings ((waiting ++ [(started, ⟨.act .newControl, ()⟩)]) ++ cycle) := by
  constructor
  intro before middle after answered later error request hsplit hbrought hsent
  obtain ⟨start, rfl, hcycle⟩ := split_in_cycle hlead hsplit (hbrings.inCycle hbrought)
  rw [hcycle] at hreach
  rw [← List.append_cons]
  exact .inl (.intro hreach)

/-- A cycle that has ended reports the errors of its steps. -/
theorem reports_of_brings {before after : List TimedStep} {answered : TimedStep}
    {error : CloudflareError} (hbrought : brings answered.2 = some error) {report : CycleReport}
    (hrun : Runs self.runCycleLocked (ofCycle (steps (before ++ answered :: after)))
      report) : Reports report.failures error := by
  rw [steps_append, steps_cons, ofCycle_append, ofCycle_cons (hbrings.inCycle hbrought)] at hrun
  exact hbrings.reported hrun hbrought

end

theorem Spaced.append {brings : Step → Option CloudflareError} {first second : List TimedStep}
    (hfirst : Spaced self brings first) (hsecond : Spaced self brings second)
    (hacross : ∀ {before left right after : List TimedStep} {answered later : TimedStep}
      {error : CloudflareError} {request : Request},
      first = before ++ answered :: left → second = right ++ later :: after →
      brings answered.2 = some error → sent later.2 = some request →
      self.Honoured error answered later before (left ++ right)) :
    Spaced self brings (first ++ second) := by
  constructor
  intro before middle after answered later error request hsplit hbrought hsent
  rcases append_eq_pair hsplit with ⟨rest, hinner⟩ | ⟨left, right, hleft, rfl, hright⟩ |
    ⟨rest, rfl, hinner⟩
  · exact hfirst.spaced hinner hbrought hsent
  · exact .inr (hacross hleft hright hbrought hsent)
  · rcases hsecond.spaced hinner hbrought hsent with hsame | hhonoured
    · exact .inl (hsame.prepend first)
    · exact .inr (hhonoured.prepend first)

/-- Two requests with an error between them are in one cycle, or the loop has slept the delay of
that error in the meantime. The induction is on the iterations, and the delay is that of the
failures counted so far. -/
theorem Iterates.spaced {brings : Step → Option CloudflareError}
    (hbrings : Reported self brings) {delay failures : Nat} {trace : List TimedStep}
    (h : self.Iterates delay failures trace) (htimed : Timed trace) :
    Spaced self brings trace := by
  have hlead : ∀ {delay : Nat} {waiting : List TimedStep} (started : Instant),
      Waits delay waiting → LoopSteps (waiting ++ [(started, ⟨.act .newControl, ()⟩)]) := by
    intro delay waiting started hwaits entry member
    rcases List.mem_append.mp member with member | member
    · exact hwaits.loopSteps entry member
    · obtain rfl := List.mem_singleton.mp member
      rfl
  induction h with
  | idle hloop => exact .loop hbrings hloop
  | @signalled delay failures waiting cycle started rest hwaiting hreach =>
      rw [List.append_cons]
      exact .cycle hbrings (hlead started hwaiting) hreach
  | @succeeded delay failures waiting cycle rest started report hwaiting hrun hsuccess hlater
      ih =>
      rw [List.append_cons, ← List.append_assoc] at htimed ⊢
      refine .append (.cycle hbrings (hlead started hwaiting) hrun.reaches) (ih htimed.right) ?_
      intro before left right after answered later error request hleft _ hbrought _
      obtain ⟨start, -, hcycle⟩ := split_in_cycle (hlead started hwaiting) hleft
        (hbrings.inCycle hbrought)
      rw [hcycle] at hrun
      rw [(reports_of_brings hbrings hbrought hrun).not_success] at hsuccess
      cases hsuccess
  | @failed delay failures jitter waiting cycle rest started drawn report hwaiting hrun
      hsuccess hlater ih =>
      rw [List.append_cons, ← List.append_assoc] at htimed ⊢
      have htail : Timed ((drawn, ⟨.act .jitterPercent, jitter⟩) :: rest) := htimed.right
      have hrest : Spaced self brings ((drawn, ⟨.act .jitterPercent, jitter⟩) :: rest) := by
        rw [← List.singleton_append] at htail ⊢
        have hdrawn : LoopSteps [(drawn, ⟨.act .jitterPercent, jitter⟩)] := by
          intro entry member
          obtain rfl := List.mem_singleton.mp member
          rfl
        refine .append (.loop hbrings hdrawn) (ih htail.right) ?_
        intro before left right after answered later error request hleft _ hbrought _
        have hempty : [(drawn, (⟨.act .jitterPercent, jitter⟩ : Step))] ++ [] =
            before ++ answered :: left := by
          rw [List.append_nil]
          exact hleft
        obtain ⟨start, -, hnil⟩ := split_in_cycle hdrawn hempty (hbrings.inCycle hbrought)
        cases start <;> cases hnil
      refine .append (.cycle hbrings (hlead started hwaiting) hrun.reaches) hrest ?_
      intro before left right after answered later error request hleft hright hbrought hsent
      obtain ⟨start, rfl, hcycle⟩ := split_in_cycle (hlead started hwaiting) hleft
        (hbrings.inCycle hbrought)
      rw [hcycle] at hrun
      have hreports := reports_of_brings hbrings hbrought hrun
      obtain ⟨target, stage, hfailure⟩ := id hreports
      cases right with
      | nil =>
          obtain ⟨rfl, -⟩ := List.cons_eq_cons.mp hright
          cases hsent
      | cons ended waited =>
          obtain ⟨rfl, hsplit⟩ := List.cons_eq_cons.mp hright
          rw [← List.append_cons]
          refine .intro hrun hreports fun wanted hwanted => ?_
          have hsends := hlater.sends_after_delay htail hsplit hsent
          have hlonger := CycleReport.le_retryDelay hfailure hwanted
            (min (failures + 1) (2 ^ 32 - 1)) (seconds self.config.intervalSeconds) jitter
          exact (Nat.add_le_add_left hlonger drawn).trans hsends

end Updater

end

end Cirrusync
