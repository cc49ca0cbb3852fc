import Cirrusync.DriverRules

/-!
The check under any contract: with a lookup rule, what the token verification
and the two mutations that the flags allow do to the invariant is what the
check does to it.
-/

namespace Cirrusync

open Effect

section

variable [Externals] {S : Type}

structure CheckRule (updater : Updater) (c : Contract Ans S) (inv : S → Prop)
    (found : RecordConfig → String → Option DnsRecord → S → Prop)
    (allowCreate allowEditProbe : Bool) : Prop where
  verify : ∀ {s}, inv s → Holds c (fun _ _ => True) updater.cloudflare.verifyToken s
  create : allowCreate = true → ∀ {record zoneId s} address,
    record ∈ updater.config.records → inv s → found record zoneId none s →
    Holds c (fun _ s' => inv s') (guarded (updater.cloudflare.createRecord zoneId
      (recordPayload record address))) s
  probe : allowEditProbe = true → ∀ {record zoneId existing s},
    record ∈ updater.config.records → inv s → found record zoneId (some existing) s →
    Holds c (fun _ s' => inv s')
      (guarded (updater.cloudflare.probeRecordEdit zoneId existing)) s

namespace Updater

variable (self : Updater) {c : Contract Ans S} {inv : S → Prop}
  {zoned : RecordConfig → String → Prop}
  {found : RecordConfig → String → Option DnsRecord → S → Prop}
  (hrule : LookupRule self c inv zoned found)

include hrule

/-- The clock is read and nothing that has been found is lost. -/
theorem mutationCanFinishBefore_keeps (deadline : Instant) {record : RecordConfig}
    {zoneId : String} {existing : Option DnsRecord} {s : S} (hs : inv s)
    (hfound : found record zoneId existing s) :
    Holds c (fun _ s' => inv s' ∧ found record zoneId existing s')
      (self.mutationCanFinishBefore deadline) s := by
  refine self.holds_quiet_ask hrule (by trivial) hs fun now s' hinterferes hs' => ?_
  intro t ht
  exact ⟨hrule.stable hs' ht,
    hrule.found_stable (hrule.found_stable hfound hinterferes) ht⟩

/-- What an inspection knows of a zone and of the record in it. -/
def Inspected (zoned : RecordConfig → String → Prop)
    (found : RecordConfig → String → Option DnsRecord → S → Prop) (record : RecordConfig)
    (inspected : Except CheckLookupError (String × Option DnsRecord)) (s : S) : Prop :=
  ∀ zoneId existing, inspected = .ok (zoneId, existing) →
    zoned record zoneId ∧ found record zoneId existing s

/-- The inspection of a record keeps the invariant, and what it returns has been found under the
rules: the zone id by the resolution, the record or its absence by the lookup. -/
theorem inspectCheckRecord_inspects {record : RecordConfig}
    (hmember : record ∈ self.config.records) (deadline : Instant) (proofs : ZoneProofs)
    {s : S} (hs : inv s) :
    Holds c (fun result s' => inv s' ∧ Inspected zoned found record result.1 s')
      (self.inspectCheckRecord record deadline proofs) s := by
  have hfails : ∀ {error : CheckLookupError} {proofs : ZoneProofs} {s : S}, inv s →
      Holds c (fun (result : Except CheckLookupError (String × Option DnsRecord) × ZoneProofs)
        s' => inv s' ∧ Inspected zoned found record result.1 s')
        (.done (.error error, proofs)) s := by
    intro error proofs s hs s' hinterferes
    exact ⟨hrule.stable hs hinterferes, fun zoneId existing heq => by cases heq⟩
  unfold inspectCheckRecord
  apply holds_bind
  refine holds_mono (timeoutAt_keeps hrule (self.cloudflare.resolveZoneId_uses _ _)
    (hrule.resolve hmember hs) hs) ?_
  rintro resolved s' ⟨hs', hzone⟩
  match resolved with
  | none => exact hfails hs'
  | some (.error error) => exact hfails hs'
  | some (.ok zoneId) =>
      have hzoned := hzone _ rfl zoneId rfl
      apply holds_bind
      refine holds_mono (timeoutAt_keeps hrule (self.cloudflare.findRecord_uses _ _ _)
        (hrule.find hmember hzoned hs') hs') ?_
      rintro result s'' ⟨hs'', hfind⟩
      match result with
      | none => exact hfails hs''
      | some (.error error) => exact hfails hs''
      | some (.ok existing) =>
          intro t ht
          refine ⟨hrule.stable hs'' ht, fun zoneId' existing' heq => ?_⟩
          cases heq
          exact ⟨hzoned, hrule.found_stable (hfind _ rfl existing rfl) ht⟩

variable {options : CheckOptions}
  (hcheck : CheckRule self c inv found options.allowCreate options.allowEditProbe)

include hcheck

theorem handleExistingCheckRecord_keeps {record : RecordConfig}
    (hmember : record ∈ self.config.records) {zoneId : String} {existing : DnsRecord}
    (state : CheckState) {s : S} (hs : inv s) (hfound : found record zoneId (some existing) s) :
    Holds c (fun _ s' => inv s')
      (self.handleExistingCheckRecord record zoneId existing options state) s := by
  unfold handleExistingCheckRecord
  simp only
  split
  · exact self.holds_inv_done hrule _ hs
  · rename_i hgoes
    have hallowed : options.allowEditProbe = true := by
      simp only [Bool.or_eq_true, not_or, Bool.not_eq_true', Bool.not_eq_false] at hgoes
      exact hgoes.1
    apply holds_bind
    refine holds_mono (self.mutationCanFinishBefore_keeps hrule options.deadline hs hfound) ?_
    rintro fits s' ⟨hs', hfound'⟩
    split
    · exact self.holds_inv_done hrule _ hs'
    · unfold probeEditPermission
      rw [Program.bind_assoc]
      apply holds_bind
      refine holds_mono (hcheck.probe hallowed hmember hs' hfound') ?_
      intro result s'' hs''
      cases result <;> exact self.holds_inv_done hrule _ hs''

theorem createCheckRecord_keeps {record : RecordConfig}
    (hmember : record ∈ self.config.records) {zoneId : String} (address : IpAddr)
    (hallowed : options.allowCreate = true) (state : CheckState) {s : S} (hs : inv s)
    (hfound : found record zoneId none s) :
    Holds c (fun _ s' => inv s')
      (self.createCheckRecord record zoneId (recordPayload record address) state) s := by
  apply holds_bind
  refine holds_mono (hcheck.create hallowed address hmember hs hfound) ?_
  intro result s' hs'
  cases result <;> exact self.holds_inv_done hrule _ hs'

/-- What a check does about a missing record keeps the invariant. It looks the record up once
more and then creates it, or it handles the one that has appeared in the meantime. -/
theorem handleMissingCheckRecord_keeps {record : RecordConfig}
    (hmember : record ∈ self.config.records) {zoneId : String}
    (addresses : DiscoveredAddresses) (state : CheckState) {s : S} (hs : inv s)
    (hzoned : zoned record zoneId) (hfound : found record zoneId none s) :
    Holds c (fun _ s' => inv s')
      (self.handleMissingCheckRecord record zoneId addresses options state) s := by
  unfold handleMissingCheckRecord
  split
  · exact self.holds_inv_done hrule _ hs
  split
  · exact self.holds_inv_done hrule _ hs
  rename_i hcreate
  have hallowed : options.allowCreate = true := by simpa using hcreate
  cases addresses.forRecord record with
  | error message => exact self.holds_inv_done hrule _ hs
  | ok address =>
      apply holds_bind
      refine holds_mono (self.mutationCanFinishBefore_keeps hrule options.deadline hs hfound) ?_
      rintro fits s' ⟨hs', -⟩
      split
      · exact self.holds_inv_done hrule _ hs'
      · apply holds_bind
        refine holds_mono (timeoutAt_keeps hrule (self.cloudflare.findRecord_uses _ _ _)
          (hrule.find hmember hzoned hs') hs') ?_
        rintro result s'' ⟨hs'', hfind⟩
        match result with
        | none => exact self.holds_inv_done hrule _ hs''
        | some (.error error) => exact self.holds_inv_done hrule _ hs''
        | some (.ok (some existing)) =>
            exact self.handleExistingCheckRecord_keeps hrule hcheck hmember state hs''
              (hfind _ rfl _ rfl)
        | some (.ok none) =>
            apply holds_bind
            refine holds_mono (self.mutationCanFinishBefore_keeps hrule options.deadline hs''
              (hfind _ rfl _ rfl)) ?_
            rintro fits' t ⟨ht, hfound'⟩
            split
            · exact self.holds_inv_done hrule _ ht
            · exact self.createCheckRecord_keeps hrule hcheck hmember address hallowed state
                ht hfound'

theorem checkRecord_keeps {record : RecordConfig} (hmember : record ∈ self.config.records)
    (addresses : DiscoveredAddresses) (state : CheckState) {s : S} (hs : inv s) :
    Holds c (fun _ s' => inv s') (self.checkRecord addresses options record state) s := by
  apply holds_bind
  refine holds_mono (self.inspectCheckRecord_inspects hrule hmember options.deadline
    state.proofs hs) ?_
  rintro ⟨inspected, proofs⟩ s' ⟨hs', hinspected⟩
  match inspected with
  | .error .deadline => exact self.holds_inv_done hrule _ hs'
  | .error (.cloudflare stage error) => exact self.holds_inv_done hrule _ hs'
  | .ok (zoneId, some existing) =>
      exact self.handleExistingCheckRecord_keeps hrule hcheck hmember _ hs'
        (hinspected _ _ rfl).2
  | .ok (zoneId, none) =>
      obtain ⟨hzoned, hfound⟩ := hinspected _ _ rfl
      exact self.handleMissingCheckRecord_keeps hrule hcheck hmember addresses _ hs' hzoned
        hfound

theorem checkRecords_keeps {records : List RecordConfig}
    (hmember : ∀ record ∈ records, record ∈ self.config.records)
    (addresses : DiscoveredAddresses) (state : CheckState) {s : S} (hs : inv s) :
    Holds c (fun _ s' => inv s') (self.checkRecords addresses options records state) s := by
  induction records generalizing state s with
  | nil => exact self.holds_inv_done hrule _ hs
  | cons record rest ih =>
      apply holds_bind
      refine holds_mono (self.checkRecord_keeps hrule hcheck (hmember record
        List.mem_cons_self) addresses state hs) ?_
      intro flow s' hs'
      cases flow with
      | next state' => exact ih (fun r hr => hmember r (List.mem_cons_of_mem _ hr)) state' hs'
      | stop state' => exact self.holds_inv_done hrule _ hs'

end Updater

namespace Updater

variable (self : Updater) {c : Contract Ans S} {inv : S → Prop}
  {zoned : RecordConfig → String → Prop}
  {found : RecordConfig → String → Option DnsRecord → S → Prop}
  (hrule : LookupRule self c inv zoned found) {allowCreate allowEditProbe : Bool}
  (hcheck : CheckRule self c inv found allowCreate allowEditProbe)

include hrule hcheck

theorem checkAddressesAndRecords_keeps (deadline : Instant) (proofs : ZoneProofs)
    (report : CheckReport) {s : S} (hs : inv s) :
    Holds c (fun _ s' => inv s') (self.checkAddressesAndRecords allowCreate allowEditProbe
      deadline proofs report) s := by
  apply holds_bind
  refine holds_mono (self.discovery_keeps hrule deadline hs) ?_
  intro discovered s' hs'
  cases discovered with
  | none => exact self.holds_inv_done hrule _ hs'
  | some addresses =>
      simp only [act_eq, Program.ask_bind, Program.done_bind]
      refine self.holds_quiet_ask hrule (by trivial) hs' fun _ s'' _ hs'' => ?_
      apply holds_bind
      have hoptions : CheckRule self c inv found
          (CheckOptions.mk allowCreate allowEditProbe deadline).allowCreate
          (CheckOptions.mk allowCreate allowEditProbe deadline).allowEditProbe := hcheck
      refine holds_mono (self.checkRecords_keeps hrule hoptions (fun _ h => h) addresses _
        hs'') ?_
      intro state t ht
      exact self.holds_inv_done hrule _ ht

/-- A check keeps the invariant. -/
theorem checkUntil_keeps (deadline : Instant) {s : S} (hs : inv s) :
    Holds c (fun _ s' => inv s')
      (self.checkUntil allowCreate allowEditProbe deadline) s := by
  apply holds_bind
  refine holds_mono (timeoutAt_keeps hrule self.cloudflare.verifyToken_uses
    (hcheck.verify hs) hs) ?_
  rintro verified s' ⟨hs', -⟩
  match verified with
  | none => exact self.holds_inv_done hrule _ hs'
  | some (.ok ()) => exact self.checkAddressesAndRecords_keeps hrule hcheck deadline _ _ hs'
  | some (.error error) =>
      simp only
      split
      · exact self.holds_inv_done hrule _ hs'
      · exact self.checkAddressesAndRecords_keeps hrule hcheck deadline _ _ hs'

end Updater

end

end Cirrusync
