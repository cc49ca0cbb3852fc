import Cirrusync.Published

/-!
The drivers under any contract. Whoever knows what zone resolution, the record
lookup and the three kinds of mutation do to an invariant of its states knows
what a cycle and a check do to it: both come to a mutation only with what the
lookup has just found, and between the two nothing but the clock is asked.
-/

namespace Cirrusync

open Effect

/-- Operations of the drivers that neither wait nor touch the cache. -/
def QuietAction : Action → Prop
  | .now | .stopRequested | .fetchAddCursor | .newControl => True
  | _ => False

section

variable [Externals] {S : Type}

/-- A contract under which the lookups of the drivers can be followed: `zoned`
is what a resolved zone id is, and `found` what a lookup has found. -/
structure LookupRule (updater : Updater) (c : Contract Ans S) (inv : S → Prop)
    (zoned : RecordConfig → String → Prop)
    (found : RecordConfig → String → Option DnsRecord → S → Prop) : Prop where
  stable : ∀ {s s'}, inv s → c.interferes s s' → inv s'
  found_stable : ∀ {record zoneId existing s s'}, found record zoneId existing s →
    c.interferes s s' → found record zoneId existing s'
  quiet : ∀ {action s}, QuietAction action → inv s → c.permits s (.act action) ∧
    ∀ answer s', c.advances s (.act action) answer s' → s' = s
  discovery : ∀ {op s}, DiscoveryOp op → inv s → c.permits s op ∧
    ∀ answer s', c.advances s op answer s' → inv s'
  lookup : ∀ {s op answer s'}, LookupOp op → inv s → c.permits s op →
    c.advances s op answer s' → inv s'
  expires : ∀ {s wait} deadline, LookupOp (.finish wait) → c.permits s (.finish wait) →
    c.permits s (.finishBefore deadline wait) ∧
    ∀ answer s', c.advances s (.finishBefore deadline wait) (some answer) s' →
      c.advances s (.finish wait) answer s'
  resolve : ∀ {record s}, record ∈ updater.config.records → inv s →
    Holds c (fun result _ => ∀ zoneId, result = .ok zoneId → zoned record zoneId)
      (updater.cloudflare.resolveZoneId record.zone record.zoneId) s
  find : ∀ {record zoneId s}, record ∈ updater.config.records → zoned record zoneId →
    inv s → Holds c (fun result s' => ∀ existing, result = .ok existing →
      found record zoneId existing s')
      (updater.cloudflare.findRecord zoneId record.recordType.asStr record.name) s

/-- What has been found and done about a planned mutation. -/
def Planned (found : RecordConfig → String → Option DnsRecord → S → Prop)
    (record : RecordConfig) (address : IpAddr) : RecordPlan → S → Prop
  | .unchanged, _ => True
  | .update zoneId recordId payload, s => ∃ existing, found record zoneId (some existing) s ∧
      recordId = existing.id ∧ payload = recordPayload record address
  | .create zoneId payload, s =>
      found record zoneId none s ∧ payload = recordPayload record address

/-- Under the deadline a lookup keeps the invariant, whether it ends or not. -/
theorem timeoutAt_keeps {α : Type} {updater : Updater} {c : Contract Ans S} {inv : S → Prop}
    {zoned : RecordConfig → String → Prop}
    {found : RecordConfig → String → Option DnsRecord → S → Prop}
    (hrule : LookupRule updater c inv zoned found) {deadline : Instant} {p : M α}
    {post : α → S → Prop} (huses : Uses LookupOp p) {s : S} (h : Holds c post p s)
    (hs : inv s) :
    Holds c (fun result s' => inv s' ∧ ∀ value, result = some value → post value s')
      (timeoutAt deadline p) s := by
  induction p generalizing s with
  | done value =>
      intro s' hinterferes
      refine ⟨hrule.stable hs hinterferes, fun value' heq => ?_⟩
      cases heq
      exact h s' hinterferes
  | ask op next ih =>
      cases op with
      | act action =>
          intro s' hinterferes
          have hs' := hrule.stable hs hinterferes
          obtain ⟨hpermits, hnext⟩ := h s' hinterferes
          refine ⟨hpermits, fun answer s'' hadvances => ?_⟩
          exact ih answer (huses.2 answer) (hnext answer s'' hadvances)
            (hrule.lookup huses.1 hs' hpermits hadvances)
      | finishBefore inner wait =>
          intro s' hinterferes
          have hs' := hrule.stable hs hinterferes
          obtain ⟨hpermits, hnext⟩ := h s' hinterferes
          refine ⟨hpermits, fun answer s'' hadvances => ?_⟩
          exact ih answer (huses.2 answer) (hnext answer s'' hadvances)
            (hrule.lookup huses.1 hs' hpermits hadvances)
      | finish wait =>
          unfold timeoutAt
          intro s' hinterferes
          have hs' := hrule.stable hs hinterferes
          obtain ⟨hpermits, hnext⟩ := h s' hinterferes
          obtain ⟨hbefore, hsome⟩ := hrule.expires deadline huses.1 hpermits
          refine ⟨hbefore, fun answer s'' hadvances => ?_⟩
          have hs'' := hrule.lookup (LookupOp.finishBefore huses.1) hs' hbefore hadvances
          cases answer with
          | none =>
              intro t ht
              exact ⟨hrule.stable hs'' ht, fun value heq => by cases heq⟩
          | some answer =>
              exact ih answer (huses.2 answer) (hnext answer s'' (hsome answer s'' hadvances))
                hs''

namespace Updater

variable (self : Updater) {c : Contract Ans S} {inv : S → Prop}
  {zoned : RecordConfig → String → Prop}
  {found : RecordConfig → String → Option DnsRecord → S → Prop}
  (hrule : LookupRule self c inv zoned found)

include hrule

theorem holds_inv_done {α : Type} (value : α) {s : S} (hs : inv s) :
    Holds c (fun _ s' => inv s') (.done value) s :=
  fun _ hinterferes => hrule.stable hs hinterferes

/-- A quiet operation changes nothing that is known. -/
theorem holds_quiet_ask {α : Type} {post : α → S → Prop} {action : Action}
    {rest : action.Answer → M α} (hquiet : QuietAction action) {s : S} (hs : inv s)
    (hrest : ∀ answer s', c.interferes s s' → inv s' → Holds c post (rest answer) s') :
    Holds c post (.ask (.act action) rest) s := by
  intro s' hinterferes
  have hs' := hrule.stable hs hinterferes
  obtain ⟨hpermits, hsame⟩ := hrule.quiet hquiet hs'
  refine ⟨hpermits, fun answer s'' hadvances => ?_⟩
  obtain rfl := hsame answer s'' hadvances
  exact hrest answer s'' hinterferes hs'

theorem lookup_keeps {α : Type} {p : M α} {post : α → S → Prop} (huses : Uses LookupOp p)
    {s : S} (h : Holds c post p s) (hs : inv s) :
    Holds c (fun value s' => post value s' ∧ inv s') p s :=
  holds_keeps (fun _ _ => hrule.stable) (fun _ _ _ _ hs hop => hrule.lookup hop hs)
    huses h hs

theorem discovery_keeps (deadline : Instant) {s : S} (hs : inv s) :
    Holds c (fun _ s' => inv s') (timeoutAt deadline self.discoverRequiredAddresses) s :=
  holds_of_uses (fun _ _ => hrule.stable) (fun _ _ hs hop => hrule.discovery hop hs)
    (self.timeoutDiscovery_uses (fun _ h => h) deadline) hs

omit hrule in
theorem planExistingRecord_planned {record : RecordConfig} {address : IpAddr}
    {zoneId : String} {existing : DnsRecord} {s : S}
    (hfound : found record zoneId (some existing) s) :
    Planned found record address (planExistingRecord record address zoneId existing) s := by
  unfold planExistingRecord
  split
  · trivial
  · exact ⟨existing, hfound, rfl, rfl⟩

theorem planned_stable {record : RecordConfig} {address : IpAddr} {plan : RecordPlan}
    {s s' : S} (h : Planned found record address plan s) (hs : c.interferes s s') :
    Planned found record address plan s' := by
  cases plan with
  | unchanged => trivial
  | update zoneId recordId payload =>
      obtain ⟨existing, hfound, hrest⟩ := h
      exact ⟨existing, hrule.found_stable hfound hs, hrest⟩
  | create zoneId payload => exact ⟨hrule.found_stable h.1 hs, h.2⟩

/-- A plan rests on what has been found under the rules: an update names the record that the
lookup in this zone has shown, a creation follows a lookup that has shown none, and the payload is
that of the record and the address. -/
theorem planRecord_planned {record : RecordConfig} (hmember : record ∈ self.config.records)
    (address : IpAddr) {s : S} (hs : inv s) :
    Holds c (fun result s' => ∀ plan, result = .ok plan → Planned found record address plan s')
      (self.planRecord record address) s := by
  have hfails : ∀ {error : FailureStage × CloudflareError} {s : S},
      Holds c (fun (result : Except (FailureStage × CloudflareError) RecordPlan) s' =>
        ∀ plan, result = .ok plan → Planned found record address plan s')
        (.done (.error error)) s := by
    intro error s s' _ plan heq
    cases heq
  have hreturns : ∀ {plan : RecordPlan} {s : S}, Planned found record address plan s →
      Holds c (fun (result : Except (FailureStage × CloudflareError) RecordPlan) s' =>
        ∀ plan, result = .ok plan → Planned found record address plan s')
        (.done (.ok plan)) s := by
    intro plan s hplanned s' hinterferes plan' heq
    cases heq
    exact self.planned_stable hrule hplanned hinterferes
  unfold planRecord
  apply holds_bind
  refine holds_mono (self.lookup_keeps hrule (self.cloudflare.resolveZoneId_uses _ _)
    (hrule.resolve hmember hs) hs) ?_
  rintro resolved s' ⟨hzone, hs'⟩
  cases resolved with
  | error error => exact hfails
  | ok zoneId =>
      have hzoned := hzone zoneId rfl
      apply holds_bind
      refine holds_mono (self.lookup_keeps hrule (self.cloudflare.findRecord_uses _ _ _)
        (hrule.find hmember hzoned hs') hs') ?_
      rintro result s'' ⟨hfind, hs''⟩
      match result with
      | .error error => exact hfails
      | .ok (some existing) =>
          exact hreturns (planExistingRecord_planned (hfind _ rfl))
      | .ok none =>
          simp only [Program.pure_eq]
          split
          · exact hfails
          · apply holds_bind
            refine holds_mono (hrule.find hmember hzoned hs'') ?_
            rintro again t hagain
            match again with
            | .error error => exact hfails
            | .ok (some existing) =>
                exact hreturns (planExistingRecord_planned (hagain _ rfl))
            | .ok none => exact hreturns ⟨hagain _ rfl, rfl⟩

end Updater

/-- What the mutations of a cycle do to the invariant of a lookup rule. -/
structure MutationRule (updater : Updater) (c : Contract Ans S) (inv : S → Prop)
    (found : RecordConfig → String → Option DnsRecord → S → Prop) : Prop where
  update : ∀ {record zoneId existing s} address, record ∈ updater.config.records → inv s →
    found record zoneId (some existing) s →
    Holds c (fun _ s' => inv s') (guarded (updater.cloudflare.updateRecord zoneId existing.id
      (recordPayload record address))) s
  create : ∀ {record zoneId s} address, record ∈ updater.config.records → inv s →
    found record zoneId none s →
    Holds c (fun _ s' => inv s') (guarded (updater.cloudflare.createRecord zoneId
      (recordPayload record address))) s

namespace Updater

variable (self : Updater) {c : Contract Ans S} {inv : S → Prop}
  {zoned : RecordConfig → String → Prop}
  {found : RecordConfig → String → Option DnsRecord → S → Prop}
  (hrule : LookupRule self c inv zoned found) (hmutation : MutationRule self c inv found)

include hrule hmutation

theorem executeRecordPlan_keeps {record : RecordConfig}
    (hmember : record ∈ self.config.records) {address : IpAddr} {plan : RecordPlan} {s : S}
    (hs : inv s) (hplanned : Planned found record address plan s) :
    Holds c (fun _ s' => inv s') (self.executeRecordPlan plan) s := by
  cases plan with
  | unchanged => exact self.holds_inv_done hrule _ hs
  | update zoneId recordId payload =>
      obtain ⟨existing, hfound, rfl, rfl⟩ := hplanned
      apply holds_bind
      refine holds_mono (hmutation.update address hmember hs hfound) ?_
      intro result s' hs'
      cases result <;> exact self.holds_inv_done hrule _ hs'
  | create zoneId payload =>
      obtain ⟨hfound, rfl⟩ := hplanned
      apply holds_bind
      refine holds_mono (hmutation.create address hmember hs hfound) ?_
      intro result s' hs'
      cases result <;> exact self.holds_inv_done hrule _ hs'

/-- The visit of a configured record keeps the invariant. The only step in it for which the rules
are needed is the mutation of the plan, and the plan has been found under them. -/
theorem visitRecord_keeps (deadline : Instant) (addresses : DiscoveredAddresses)
    {record : RecordConfig} (hmember : record ∈ self.config.records) (report : CycleReport)
    {s : S} (hs : inv s) :
    Holds c (fun _ s' => inv s') (self.visitRecord deadline addresses record report) s := by
  simp only [visitRecord, act_eq, Program.ask_bind, Program.done_bind, Program.pure_eq]
  refine self.holds_quiet_ask hrule (by trivial) hs fun stopRequested s' _ hs' => ?_
  split
  · exact self.holds_inv_done hrule _ hs'
  · cases addresses.forRecord record with
    | error message => exact self.holds_inv_done hrule _ hs'
    | ok address =>
        apply holds_bind
        refine holds_mono (timeoutAt_keeps hrule (self.planRecord_uses record address)
          (self.planRecord_planned hrule hmember address hs') hs') ?_
        rintro planned s'' ⟨hs'', hplan⟩
        cases planned with
        | none => exact self.holds_inv_done hrule _ hs''
        | some result =>
            cases result with
            | error error => exact self.holds_inv_done hrule _ hs''
            | ok plan =>
                have hplanned := hplan _ rfl plan rfl
                refine self.holds_quiet_ask hrule (by trivial) hs'' fun now t hinterferes ht => ?_
                split
                · exact self.holds_inv_done hrule _ ht
                · apply holds_bind
                  refine holds_mono (self.executeRecordPlan_keeps hrule hmutation hmember ht
                    (self.planned_stable hrule hplanned hinterferes)) ?_
                  intro outcome t' ht'
                  exact self.holds_inv_done hrule _ ht'

theorem visitRecords_keeps (deadline : Instant) (addresses : DiscoveredAddresses)
    {records : List RecordConfig} (hmember : ∀ record ∈ records, record ∈ self.config.records)
    (report : CycleReport) {s : S} (hs : inv s) :
    Holds c (fun _ s' => inv s') (self.visitRecords deadline addresses records report) s := by
  induction records generalizing report s with
  | nil => exact self.holds_inv_done hrule _ hs
  | cons record rest ih =>
      apply holds_bind
      refine holds_mono (self.visitRecord_keeps hrule hmutation deadline addresses
        (hmember record List.mem_cons_self) report hs) ?_
      intro flow s' hs'
      cases flow with
      | next report' =>
          exact ih (fun r hr => hmember r (List.mem_cons_of_mem _ hr)) report' hs'
      | stop report' => exact self.holds_inv_done hrule _ hs'

theorem runCycleUntil_keeps (deadline : Instant) {s : S} (hs : inv s) :
    Holds c (fun _ s' => inv s') (self.runCycleUntil deadline) s := by
  apply holds_bind
  refine holds_mono (self.discovery_keeps hrule deadline hs) ?_
  intro discovered s' hs'
  cases discovered with
  | none => exact self.holds_inv_done hrule _ hs'
  | some addresses =>
      simp only [Program.pure_eq, act_eq, Program.ask_bind, Program.done_bind]
      split
      · exact self.holds_inv_done hrule _ hs'
      · refine self.holds_quiet_ask hrule (by trivial) hs' fun cursor s'' _ hs'' => ?_
        exact self.visitRecords_keeps hrule hmutation deadline addresses
          (fun _ => mem_of_mem_rotated) _ hs''

/-- A cycle keeps the invariant. -/
theorem runCycleLocked_keeps {s : S} (hs : inv s) :
    Holds c (fun _ s' => inv s') self.runCycleLocked s :=
  self.holds_quiet_ask hrule (by trivial) hs fun _ _ _ hs' =>
    self.runCycleUntil_keeps hrule hmutation _ hs'

end Updater

end

end Cirrusync
