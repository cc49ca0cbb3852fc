import Cirrusync.CheckRuns
import Cirrusync.CycleCount
import Cirrusync.DriverRefusal
import Mathlib.Data.Finset.Card

/-!
What a check may say about DNS Edit. A check is cut into the turns of its records,
each of which starts with the resolution of its zone; the proofs that the check
keeps are those that the turns and the successful mutations of the trace give.
-/

namespace Cirrusync

open Effect

section

variable {α β : Type} [DecidableEq α]

theorem lookup_of_mem {l : List (α × β)} (hkeys : (l.map Prod.fst).Nodup) {key : α} {value : β}
    (h : (key, value) ∈ l) : l.lookup key = some value := by
  induction l with
  | nil => cases h
  | cons entry rest ih =>
      obtain ⟨hnot, hrest⟩ := List.nodup_cons.mp hkeys
      rcases List.mem_cons.mp h with rfl | h
      · simp
      · have hne : key ≠ entry.1 := by
          rintro rfl
          exact hnot (List.mem_map.mpr ⟨_, h, rfl⟩)
        have hfalse : (key == entry.1) = false := by simpa using hne
        rw [List.lookup_cons, hfalse]
        exact ih hrest h

theorem lookup_filter_ne (l : List (α × β)) (key other : α) :
    (l.filter fun entry => entry.1 != key).lookup other =
      if other = key then none else l.lookup other := by
  induction l with
  | nil => simp
  | cons entry rest ih =>
      obtain ⟨first, value⟩ := entry
      by_cases hfirst : first = key
      · subst hfirst
        have hdropped : (first != first) = false := by simp
        rw [List.filter_cons_of_neg (by simp), ih]
        by_cases hother : other = first
        · simp [hother]
        · have hfalse : (other == first) = false := by simpa using hother
          simp [hother, List.lookup_cons, hfalse]
      · rw [List.filter_cons_of_pos (by simpa using hfirst), List.lookup_cons, List.lookup_cons, ih]
        by_cases hother : other = first
        · subst hother
          simp [hfirst]
        · have hfalse : (other == first) = false := by simpa using hother
          simp [hfalse]

omit [DecidableEq α] in
/-- Unique keys among the expected ones are all of them when there are as many. -/
theorem length_eq_iff_subset {keys expected : List α} (hkeys : keys.Nodup)
    (hexpected : expected.Nodup) (hsubset : ∀ key ∈ keys, key ∈ expected) :
    keys.length = expected.length ↔ ∀ key ∈ expected, key ∈ keys := by
  have hle : keys.length ≤ expected.length := hkeys.length_le_of_subset hsubset
  constructor
  · intro hlength
    have hperm := (hkeys.subperm hsubset).perm_of_length_le (le_of_eq hlength.symm)
    exact fun key member => hperm.mem_iff.mpr member
  · intro hall
    have hge : expected.length ≤ keys.length := hexpected.length_le_of_subset hall
    omega

end

/-- The zone that a mutation is addressed to. -/
def Request.mutatedZone : Request → Option String
  | .updateRecord zoneId _ _ | .probeRecord zoneId _ _ | .createRecord zoneId _ => some zoneId
  | _ => none

section

variable [Externals]

/-- The zone of the mutation whose success a step brings the client. -/
def provenZone (apiToken : String) (step : Step) : Option String :=
  match replied step with
  | some (request, outcome) =>
      if (receive apiToken request outcome).toOption.isSome then request.mutatedZone else none
  | none => none

/-- The zones that the mutations of a trace have been proved in. -/
def provenZones (apiToken : String) (trace : List Step) : List String :=
  trace.filterMap (provenZone apiToken)

omit [Externals] in
theorem mutatedZone_of_read {request : Request} (h : request.isMutation = false) :
    request.mutatedZone = none := by
  cases request with
  | updateRecord => cases h
  | probeRecord => cases h
  | createRecord => cases h
  | _ => rfl

theorem provenZone_lookup {apiToken : String} {step : Step} (h : LookupOp step.op) :
    provenZone apiToken step = none := by
  unfold provenZone
  split
  · rename_i request outcome hreplied
    rw [mutatedZone_of_read (replied_of_lookup h hreplied)]
    exact ite_self none
  · rfl

theorem provenZone_discovery {apiToken : String} {step : Step} (h : DiscoveryOp step.op) :
    provenZone apiToken step = none := by
  unfold provenZone
  rw [replied_of_discovery h]

theorem provenZones_eq_nil {apiToken : String} {trace : List Step}
    (h : ∀ step ∈ trace, provenZone apiToken step = none) : provenZones apiToken trace = [] :=
  List.filterMap_eq_nil_iff.mpr h

/-- A mutation proves its zone when it succeeds. -/
theorem provenZones_mutation {apiToken zoneId : String} {request : Request}
    {outcome : HttpOutcome} {result : Except CloudflareError request.kind.Value}
    (hzone : request.mutatedZone = some zoneId)
    (hresult : result = (receive apiToken request outcome).map ApiResponse.result) :
    provenZones apiToken (mutationSteps zoneId request outcome result) =
      if result.toOption.isSome then [zoneId] else [] := by
  have hother : ∀ (action : Action) (answer : action.Answer),
      provenZone apiToken ⟨.act action, answer⟩ = none := fun _ _ => rfl
  have hevictions : provenZones apiToken (evictions zoneId result) = [] := by
    apply provenZones_eq_nil
    intro step member
    cases result with
    | ok value => cases member
    | error error =>
        simp only [evictions] at member
        split at member
        · rw [List.mem_singleton.mp member]
          rfl
        · cases member
  have hfinish : provenZone apiToken ⟨.finish (.http request), outcome⟩ =
      if result.toOption.isSome then some zoneId else none := by
    simp only [provenZone, replied, hzone, hresult]
    cases receive apiToken request outcome <;> rfl
  simp only [provenZones] at hevictions
  simp only [provenZones, mutationSteps, exchange, List.cons_append, List.nil_append,
    List.filterMap_cons, List.filterMap_append, List.filterMap_nil, hother, hfinish, hevictions,
    List.append_nil]
  split <;> simp_all

end

/-- A record's turn in a check: the resolution of its zone, the id that it comes to,
and what is done with it. -/
structure Turn where
  record : RecordConfig
  resolution : List Step
  resolved : Option String
  rest : List Step

def Turn.steps (turn : Turn) : List Step := turn.resolution ++ turn.rest

/-- The id that a configured zone was last resolved to. -/
def lastResolved (turns : List Turn) (zone : ConfiguredZone) : Option String :=
  turns.foldl (fun last turn =>
    if ConfiguredZone.forRecord turn.record = zone then turn.resolved.or last else last) none

theorem lastResolved_concat (turns : List Turn) (turn : Turn) (zone : ConfiguredZone) :
    lastResolved (turns ++ [turn]) zone =
      if ConfiguredZone.forRecord turn.record = zone then
        turn.resolved.or (lastResolved turns zone)
      else lastResolved turns zone := by
  simp [lastResolved]

/-- Every configured zone was resolved, last to an id that is among the proved ones. -/
def Exercised (config : Config) (turns : List Turn) (proven : List String) : Prop :=
  ∀ record ∈ config.records, ∃ zoneId ∈ proven,
    lastResolved turns (ConfiguredZone.forRecord record) = some zoneId

/-- The ids that configured zones were last resolved to and that are proved. -/
def exercisedIds (config : Config) (turns : List Turn) (proven : List String) :
    Finset String :=
  (config.records.filterMap fun record =>
    lastResolved turns (ConfiguredZone.forRecord record)).toFinset ∩ proven.toFinset

namespace ZoneProofs

variable [Externals]

/-- The proofs account for the turns so far and for nothing else. -/
structure Accounts (apiToken : String) (config : Config) (proofs : ZoneProofs)
    (turns : List Turn) : Prop where
  expected : proofs.expected = (config.records.map ConfiguredZone.forRecord).dedup
  resolved : ∀ zone, proofs.resolved.lookup zone = lastResolved turns zone
  keys : (proofs.resolved.map Prod.fst).Nodup
  known : ∀ key ∈ proofs.resolved.map Prod.fst, key ∈ proofs.expected
  proven : ∀ zoneId, zoneId ∈ proofs.provenIds ↔
    zoneId ∈ provenZones apiToken (turns.flatMap Turn.steps)

theorem accounts_start (apiToken : String) (config : Config) :
    Accounts apiToken config (forConfig config) [] where
  expected := rfl
  resolved := fun _ => rfl
  keys := List.nodup_nil
  known := fun _ member => absurd member List.not_mem_nil
  proven := fun _ => Iff.rfl

variable {apiToken : String} {config : Config} {proofs : ZoneProofs} {turns : List Turn}

/-- A turn of a configured record, with the resolution and the proof it has come to. -/
theorem Accounts.turn (h : Accounts apiToken config proofs turns) {turn : Turn}
    (hrecord : turn.record ∈ config.records) {proofs' : ZoneProofs}
    (hexpected : proofs'.expected = proofs.expected)
    (hresolved : proofs'.resolved = match turn.resolved with
      | none => proofs.resolved
      | some zoneId => (proofs.markResolved turn.record zoneId).resolved)
    (hproven : ∀ zoneId, zoneId ∈ proofs'.provenIds ↔
      zoneId ∈ proofs.provenIds ∨ zoneId ∈ provenZones apiToken turn.steps) :
    Accounts apiToken config proofs' (turns ++ [turn]) := by
  have hzone : ConfiguredZone.forRecord turn.record ∈ proofs.expected := by
    rw [h.expected]
    exact List.mem_dedup.mpr (List.mem_map.mpr ⟨_, hrecord, rfl⟩)
  have hprovenIds : ∀ zoneId, zoneId ∈ proofs'.provenIds ↔
      zoneId ∈ provenZones apiToken ((turns ++ [turn]).flatMap Turn.steps) := by
    intro zoneId
    rw [hproven, h.proven]
    simp [provenZones]
  cases hid : turn.resolved with
  | none =>
      rw [hid] at hresolved
      simp only at hresolved
      refine ⟨hexpected.trans h.expected, ?_, ?_, ?_, hprovenIds⟩
      · intro zone
        rw [hresolved, h.resolved, lastResolved_concat, hid]
        simp
      · rw [hresolved]
        exact h.keys
      · rw [hresolved, hexpected]
        exact h.known
  | some zoneId =>
      rw [hid] at hresolved
      simp only [markResolved] at hresolved
      have hkeys : proofs'.resolved.map Prod.fst =
          (proofs.resolved.filter fun entry =>
            entry.1 != ConfiguredZone.forRecord turn.record).map Prod.fst ++
          [ConfiguredZone.forRecord turn.record] := by
        rw [hresolved, List.map_append]
        rfl
      have hsublist : ((proofs.resolved.filter fun entry =>
          entry.1 != ConfiguredZone.forRecord turn.record).map Prod.fst).Sublist
          (proofs.resolved.map Prod.fst) := List.filter_sublist.map _
      refine ⟨hexpected.trans h.expected, ?_, ?_, ?_, hprovenIds⟩
      · intro zone
        rw [hresolved, List.lookup_append, lookup_filter_ne, h.resolved, lastResolved_concat, hid]
        by_cases hsame : ConfiguredZone.forRecord turn.record = zone
        · subst hsame
          simp
        · have hne : ¬ zone = ConfiguredZone.forRecord turn.record := Ne.symm hsame
          have hfalse : (zone == ConfiguredZone.forRecord turn.record) = false := by
            simpa using hne
          simp [hsame, hne, List.lookup_cons, hfalse]
      · rw [hkeys, List.nodup_append]
        refine ⟨hsublist.nodup h.keys, by simp, ?_⟩
        intro key member other hother heq
        rw [List.mem_singleton.mp hother] at heq
        subst heq
        obtain ⟨entry, hentry, hkey⟩ := List.mem_map.mp member
        have hne := (List.mem_filter.mp hentry).2
        rw [hkey] at hne
        simp at hne
      · intro key member
        rw [hkeys] at member
        rw [hexpected]
        rcases List.mem_append.mp member with member | member
        · exact h.known key (hsublist.subset member)
        · rw [List.mem_singleton.mp member]
          exact hzone

/-- The proofs are complete if and only if every configured zone was last resolved to an id in
which a mutation has succeeded. -/
theorem Accounts.isComplete_iff (h : Accounts apiToken config proofs turns) :
    proofs.isComplete = true ↔
      Exercised config turns (provenZones apiToken (turns.flatMap Turn.steps)) := by
  have hlength := length_eq_iff_subset h.keys (h.expected ▸ List.nodup_dedup _) h.known
  rw [List.length_map] at hlength
  have hmem : ∀ record ∈ config.records,
      ConfiguredZone.forRecord record ∈ proofs.expected := by
    intro record member
    rw [h.expected]
    exact List.mem_dedup.mpr (List.mem_map.mpr ⟨_, member, rfl⟩)
  simp only [isComplete, Bool.and_eq_true, beq_iff_eq, List.all_eq_true, List.contains_iff_mem]
  rw [hlength]
  constructor
  · rintro ⟨hall, hproven⟩ record member
    obtain ⟨⟨key, zoneId⟩, hentry, hkey⟩ := List.mem_map.mp (hall _ (hmem record member))
    have hid := hproven zoneId (List.mem_map.mpr ⟨_, hentry, rfl⟩)
    refine ⟨zoneId, (h.proven zoneId).mp hid, ?_⟩
    rw [← h.resolved, ← hkey]
    exact lookup_of_mem h.keys hentry
  · intro hexercised
    constructor
    · intro key member
      rw [h.expected] at member
      obtain ⟨record, hrecord, rfl⟩ := List.mem_map.mp (List.mem_dedup.mp member)
      obtain ⟨zoneId, -, hlast⟩ := hexercised record hrecord
      rw [← h.resolved] at hlast
      exact List.mem_map.mpr ⟨_, mem_of_lookup hlast, rfl⟩
    · intro zoneId member
      obtain ⟨⟨key, zoneId'⟩, hentry, rfl⟩ := List.mem_map.mp member
      have hkey := h.known key (List.mem_map.mpr ⟨_, hentry, rfl⟩)
      rw [h.expected] at hkey
      obtain ⟨record, hrecord, rfl⟩ := List.mem_map.mp (List.mem_dedup.mp hkey)
      obtain ⟨provenId, hproven, hlast⟩ := hexercised record hrecord
      rw [← h.resolved, lookup_of_mem h.keys hentry] at hlast
      cases hlast
      exact (h.proven _).mpr hproven

omit [Externals] in
theorem insertTarget_ne_nil (key target : String) (targets : List (String × String)) :
    insertTarget key target targets ≠ [] := by
  cases targets with
  | nil => simp [insertTarget]
  | cons entry rest =>
      simp only [insertTarget]
      split
      · simp
      · split <;> simp

omit [Externals] in
/-- A zone adds no target exactly when it is resolved to a proved id. -/
theorem collectTargets_nil (proofs : ZoneProofs) (targets : List (String × String))
    (zone : ConfiguredZone) :
    proofs.collectTargets targets zone = [] ↔ targets = [] ∧
      ∃ zoneId, proofs.resolved.lookup zone = some zoneId ∧ zoneId ∈ proofs.provenIds := by
  unfold collectTargets
  split
  · rename_i zoneId hlookup
    split
    · rename_i hproven
      have hmember : zoneId ∈ proofs.provenIds := by simpa using hproven
      simp [hlookup, hmember]
    · rename_i hproven
      have hmember : zoneId ∉ proofs.provenIds := by simpa using hproven
      simp [hlookup, hmember, insertTarget_ne_nil]
  · rename_i hlookup
    simp [hlookup, insertTarget_ne_nil]

omit [Externals] in
theorem foldl_collectTargets_nil (proofs : ZoneProofs) (zones : List ConfiguredZone)
    (targets : List (String × String)) :
    zones.foldl proofs.collectTargets targets = [] ↔ targets = [] ∧ ∀ zone ∈ zones,
      ∃ zoneId, proofs.resolved.lookup zone = some zoneId ∧ zoneId ∈ proofs.provenIds := by
  induction zones generalizing targets with
  | nil => simp
  | cons zone rest ih => simp [ih, collectTargets_nil, and_assoc]

theorem Accounts.unverifiedTargets_nil (h : Accounts apiToken config proofs turns) :
    proofs.unverifiedTargets = [] ↔
      Exercised config turns (provenZones apiToken (turns.flatMap Turn.steps)) := by
  unfold unverifiedTargets
  rw [List.map_eq_nil_iff, foldl_collectTargets_nil, h.expected]
  simp only [true_and, List.mem_dedup, List.mem_map, forall_exists_index, and_imp,
    forall_apply_eq_imp_iff₂, h.resolved, h.proven, Exercised]
  constructor
  · intro hall record member
    obtain ⟨zoneId, hlast, hproven⟩ := hall record member
    exact ⟨zoneId, hproven, hlast⟩
  · intro hall record member
    obtain ⟨zoneId, hproven, hlast⟩ := hall record member
    exact ⟨zoneId, hlast, hproven⟩

/-- The count is that of the last resolved ids which were proved. -/
theorem Accounts.verifiedCount_eq (h : Accounts apiToken config proofs turns) :
    proofs.verifiedCount =
      (exercisedIds config turns (provenZones apiToken (turns.flatMap Turn.steps))).card := by
  unfold verifiedCount exercisedIds
  rw [← List.card_toFinset]
  congr 1
  ext zoneId
  simp only [List.mem_toFinset, List.mem_filter, List.mem_map, List.contains_iff_mem,
    Finset.mem_inter, List.mem_filterMap, h.proven]
  constructor
  · rintro ⟨⟨⟨key, zoneId'⟩, hentry, rfl⟩, hproven⟩
    have hkey := h.known key (List.mem_map.mpr ⟨_, hentry, rfl⟩)
    rw [h.expected] at hkey
    obtain ⟨record, hrecord, rfl⟩ := List.mem_map.mp (List.mem_dedup.mp hkey)
    refine ⟨⟨record, hrecord, ?_⟩, hproven⟩
    rw [← h.resolved]
    exact lookup_of_mem h.keys hentry
  · rintro ⟨⟨record, -, hlast⟩, hproven⟩
    rw [← h.resolved] at hlast
    exact ⟨⟨_, mem_of_lookup hlast, rfl⟩, hproven⟩

end ZoneProofs

/-- The proofs after the resolution of a record's zone. -/
def ZoneProofs.resolvedTo (proofs : ZoneProofs) (record : RecordConfig) :
    Option String → ZoneProofs
  | none => proofs
  | some zoneId => proofs.markResolved record zoneId

section

variable [Externals]

/-- Operations that neither look a zone up in the cache nor change a record. -/
def AfterResolutionOp : Op → Prop
  | .act (.cacheGet _) => False
  | .act (.begin (.http request)) | .finish (.http request)
  | .finishBefore _ (.http request) => request.isMutation = false
  | _ => True

/-- What the handling of a record makes of the proofs. -/
structure Proves (apiToken : String) (proofs : ZoneProofs) (steps : List Step)
    (proofs' : ZoneProofs) : Prop where
  expected : proofs'.expected = proofs.expected
  resolved : proofs'.resolved = proofs.resolved
  proven : ∀ zoneId, zoneId ∈ proofs'.provenIds ↔
    zoneId ∈ proofs.provenIds ∨ zoneId ∈ provenZones apiToken steps
  uncached : ∀ step ∈ steps, ∀ key, step.op ≠ .act (.cacheGet key)

theorem provenZone_afterResolution {apiToken : String} {step : Step}
    (h : AfterResolutionOp step.op) : provenZone apiToken step = none := by
  unfold provenZone
  split
  · rename_i request outcome hreplied
    have hread : request.isMutation = false := by
      unfold replied at hreplied
      split at hreplied
      · cases hreplied
        exact h
      · cases hreplied
        exact h
      · cases hreplied
    rw [mutatedZone_of_read hread]
    exact ite_self none
  · rfl

/-- Steps after the resolution that change no record prove nothing. -/
theorem proves_of_reads {apiToken : String} {steps : List Step}
    (h : ∀ step ∈ steps, AfterResolutionOp step.op) (proofs : ZoneProofs) :
    Proves apiToken proofs steps proofs where
  expected := rfl
  resolved := rfl
  proven := by
    intro zoneId
    have hnone : provenZones apiToken steps = [] :=
      provenZones_eq_nil fun step member => provenZone_afterResolution (h step member)
    simp [hnone]
  uncached := by
    intro step member key heq
    have hop := h step member
    rw [heq] at hop
    exact hop

theorem Proves.append {apiToken : String} {proofs proofs' proofs'' : ZoneProofs}
    {first second : List Step} (hfirst : Proves apiToken proofs first proofs')
    (hsecond : Proves apiToken proofs' second proofs'') :
    Proves apiToken proofs (first ++ second) proofs'' where
  expected := hsecond.expected.trans hfirst.expected
  resolved := hsecond.resolved.trans hfirst.resolved
  proven := by
    intro zoneId
    rw [hsecond.proven, hfirst.proven]
    simp [provenZones, or_assoc]
  uncached := by
    intro step member
    rcases List.mem_append.mp member with member | member
    · exact hfirst.uncached step member
    · exact hsecond.uncached step member

theorem proves_now (apiToken : String) (proofs : ZoneProofs) (now : Instant) :
    Proves apiToken proofs [⟨.act .now, now⟩] proofs := by
  apply proves_of_reads
  intro step member
  rw [List.mem_singleton.mp member]
  trivial

theorem flow_failCheck_proofs (target : String) (stage : FailureStage) (state : CheckState)
    (error : CloudflareError) :
    (Updater.failCheck target stage state error).value.proofs = state.proofs := by
  unfold Updater.failCheck
  simp only
  split <;> rfl

/-- A mutation of the check proves its zone when it succeeds. -/
theorem proves_mutation {apiToken zoneId : String} {request : Request}
    {outcome : HttpOutcome} {result : Except CloudflareError request.kind.Value}
    (hzone : request.mutatedZone = some zoneId)
    (hresult : result = (receive apiToken request outcome).map ApiResponse.result)
    (proofs : ZoneProofs) :
    Proves apiToken proofs (mutationSteps zoneId request outcome result)
      (if result.toOption.isSome then proofs.markProven zoneId else proofs) where
  expected := by split <;> rfl
  resolved := by split <;> rfl
  proven := by
    intro other
    rw [provenZones_mutation hzone hresult]
    split
    · simp [ZoneProofs.markProven, or_comm]
    · simp
  uncached := by
    intro step member key heq
    simp only [mutationSteps, exchange, List.cons_append, List.nil_append, List.mem_cons,
      List.mem_append] at member
    rcases member with rfl | rfl | rfl | member | rfl | member
    · cases heq
    · cases heq
    · cases heq
    · cases result with
      | ok value => cases member
      | error error =>
          simp only [evictions] at member
          split at member
          · rw [List.mem_singleton.mp member] at heq
            cases heq
          · cases member
    · cases heq
    · cases member

end

namespace Updater

variable [Externals] (self : Updater)

theorem findRecord_after (zoneId recordType name : String) {deadline : Instant}
    {lookup : List Step} {found : Option (Except CloudflareError (Option DnsRecord))}
    (hrun : Runs (timeoutAt deadline (self.cloudflare.findRecord zoneId recordType name))
      lookup found) : ∀ step ∈ lookup, AfterResolutionOp step.op := by
  have huses : Uses AfterResolutionOp
      (timeoutAt deadline (self.cloudflare.findRecord zoneId recordType name)) := by
    apply uses_timeoutAt
    · intro wait h
      cases wait <;> exact h
    · exact self.cloudflare.uses_recordPages (fun _ => rfl) (fun _ => rfl) trivial _ _ _
  exact uses_runs huses hrun

theorem HandlesExisting.proves {record : RecordConfig} {zoneId : String}
    {existing : DnsRecord} {options : CheckOptions} {state : CheckState}
    {trace : List Step} {flow : Flow CheckState}
    (h : self.HandlesExisting record zoneId existing options state trace flow) :
    Proves self.cloudflare.apiToken state.proofs trace flow.value.proofs := by
  cases h with
  | counted => exact proves_of_reads (fun _ member => absurd member List.not_mem_nil) _
  | late => exact proves_now _ _ _
  | @probed now outcome result _ _ _ hresult =>
      have hzone : (CloudflareClient.probeRequest zoneId existing).mutatedZone = some zoneId :=
        rfl
      have hmutation := proves_mutation hzone hresult state.proofs
      have hproofs : (settleProbe record zoneId (countExisting state) result).value.proofs =
          if result.toOption.isSome then state.proofs.markProven zoneId else state.proofs := by
        cases result with
        | ok updated => rfl
        | error error => exact flow_failCheck_proofs _ _ _ _
      rw [hproofs]
      exact (proves_now _ _ now).append hmutation

/-- The handling of a missing record adds to the proven zones exactly those in which a mutation
has succeeded on the way, be it the creation or the probe of a record that has appeared, and
changes nothing else of the proofs. -/
theorem HandlesMissing.proves {record : RecordConfig} {zoneId : String}
    {addresses : DiscoveredAddresses} {options : CheckOptions} {state : CheckState}
    {trace : List Step} {flow : Flow CheckState}
    (h : self.HandlesMissing record zoneId addresses options state trace flow) :
    Proves self.cloudflare.apiToken state.proofs trace flow.value.proofs := by
  have hlookup : ∀ {now : Instant} {recheck : List Step}
      {found : Option (Except CloudflareError (Option DnsRecord))},
      Runs (timeoutAt options.deadline (self.cloudflare.findRecord zoneId
        record.recordType.asStr record.name)) recheck found →
      Proves self.cloudflare.apiToken state.proofs (⟨.act .now, now⟩ :: recheck)
        state.proofs := by
    intro now recheck found hrun
    exact (proves_now _ _ now).append
      (proves_of_reads (self.findRecord_after zoneId _ _ hrun) _)
  cases h with
  | disabled | creatable | noAddress =>
      exact proves_of_reads (fun _ member => absurd member List.not_mem_nil) _
  | late => exact proves_now _ _ _
  | recheckExpired _ _ _ _ hrun => exact hlookup hrun
  | recheckFailed _ _ _ _ hrun =>
      rw [flow_failCheck_proofs]
      exact hlookup hrun
  | appeared _ _ _ _ hrun hexisting => exact (hlookup hrun).append (hexisting.proves self)
  | lateAgain _ _ _ _ hrun _ => exact (hlookup hrun).append (proves_now _ _ _)
  | @created address now now' recheck outcome result _ _ _ _ hrun _ hresult =>
      have hzone : (Request.createRecord zoneId (recordPayload record address)).mutatedZone =
          some zoneId := rfl
      have hmutation := proves_mutation hzone hresult state.proofs
      have hproofs : (settleCreation record zoneId state result).value.proofs =
          if result.toOption.isSome then state.proofs.markProven zoneId else state.proofs := by
        cases result with
        | ok created => rfl
        | error error => exact flow_failCheck_proofs _ _ _ _
      rw [hproofs]
      exact (hlookup hrun).append ((proves_now _ _ now').append hmutation)

/-- The resolution of a turn is that of its record's zone and comes to its id. -/
def Resolves (deadline : Instant) (turn : Turn) : Prop :=
  ∃ result, Runs (timeoutAt deadline
      (self.cloudflare.resolveZoneId turn.record.zone turn.record.zoneId))
    turn.resolution result ∧ turn.resolved = result.bind Except.toOption

theorem Inspects.resolution {record : RecordConfig} {deadline : Instant}
    {proofs proofs' : ZoneProofs} {trace : List Step}
    {inspected : Except CheckLookupError (String × Option DnsRecord)}
    (h : self.Inspects record deadline proofs trace inspected proofs') :
    ∃ resolution lookup result, trace = resolution ++ lookup ∧
      Runs (timeoutAt deadline (self.cloudflare.resolveZoneId record.zone record.zoneId))
        resolution result ∧
      (∀ step ∈ lookup, AfterResolutionOp step.op) ∧
      proofs' = proofs.resolvedTo record (result.bind Except.toOption) := by
  have hnone : ∀ step ∈ ([] : List Step), AfterResolutionOp step.op :=
    fun _ member => absurd member List.not_mem_nil
  cases h with
  | zoneExpired hzone => exact ⟨trace, [], _, by simp, hzone, hnone, rfl⟩
  | zoneFailed hzone => exact ⟨trace, [], _, by simp, hzone, hnone, rfl⟩
  | lookupExpired hzone hfound =>
      exact ⟨_, _, _, rfl, hzone, self.findRecord_after _ _ _ hfound, rfl⟩
  | lookupFailed hzone hfound =>
      exact ⟨_, _, _, rfl, hzone, self.findRecord_after _ _ _ hfound, rfl⟩
  | inspected hzone hfound =>
      exact ⟨_, _, _, rfl, hzone, self.findRecord_after _ _ _ hfound, rfl⟩

/-- A checked record takes one turn. -/
theorem ChecksRecord.turn {addresses : DiscoveredAddresses} {options : CheckOptions}
    {record : RecordConfig} {state : CheckState} {trace : List Step} {flow : Flow CheckState}
    (h : self.ChecksRecord addresses options record state trace flow) :
    ∃ turn : Turn, turn.record = record ∧ turn.steps = trace ∧
      self.Resolves options.deadline turn ∧
      Proves self.cloudflare.apiToken (state.proofs.resolvedTo record turn.resolved)
        turn.rest flow.value.proofs := by
  have hturn : ∀ {inspection handling : List Step} {proofs : ZoneProofs}
      {inspected : Except CheckLookupError (String × Option DnsRecord)},
      self.Inspects record options.deadline state.proofs inspection inspected proofs →
      Proves self.cloudflare.apiToken proofs handling flow.value.proofs →
      ∃ turn : Turn, turn.record = record ∧ turn.steps = inspection ++ handling ∧
        self.Resolves options.deadline turn ∧
        Proves self.cloudflare.apiToken (state.proofs.resolvedTo record turn.resolved)
          turn.rest flow.value.proofs := by
    intro inspection handling proofs inspected hinspects hproves
    obtain ⟨resolution, lookup, result, rfl, hrun, hlookup, rfl⟩ :=
      hinspects.resolution self
    have hrest := (proves_of_reads hlookup _).append hproves
    refine ⟨⟨record, resolution, result.bind Except.toOption, lookup ++ handling⟩, rfl, ?_,
      ⟨result, hrun, rfl⟩, hrest⟩
    exact (List.append_assoc _ _ _).symm
  have hstays : ∀ {proofs : ZoneProofs} {final : CheckState}, final.proofs = proofs →
      Proves self.cloudflare.apiToken proofs [] final.proofs := by
    rintro proofs final rfl
    exact proves_of_reads (fun _ member => absurd member List.not_mem_nil) _
  cases h with
  | expired hinspects =>
      obtain ⟨turn, hrecord, hsteps, hrest⟩ := hturn hinspects (hstays rfl)
      exact ⟨turn, hrecord, hsteps.trans (List.append_nil _), hrest⟩
  | failed hinspects =>
      obtain ⟨turn, hrecord, hsteps, hrest⟩ :=
        hturn hinspects (hstays (flow_failCheck_proofs _ _ _ _))
      exact ⟨turn, hrecord, hsteps.trans (List.append_nil _), hrest⟩
  | existing hinspects hhandles => exact hturn hinspects (hhandles.proves self)
  | missing hinspects hhandles => exact hturn hinspects (hhandles.proves self)

/-- A turn keeps the proofs accounted for. -/
theorem accounts_turn {config : Config} {proofs proofs' : ZoneProofs} {turns : List Turn}
    {deadline : Instant} {turn : Turn}
    (h : proofs.Accounts self.cloudflare.apiToken config turns)
    (hrecord : turn.record ∈ config.records) (hresolves : self.Resolves deadline turn)
    (hproves : Proves self.cloudflare.apiToken
      (proofs.resolvedTo turn.record turn.resolved) turn.rest proofs') :
    proofs'.Accounts self.cloudflare.apiToken config (turns ++ [turn]) := by
  obtain ⟨result, hrun, -⟩ := hresolves
  have hlookups := uses_runs (uses_timeoutAt (fun _ => LookupOp.finishBefore)
    (self.cloudflare.resolveZoneId_uses turn.record.zone turn.record.zoneId)) hrun
  have hresolution : provenZones self.cloudflare.apiToken turn.resolution = [] :=
    provenZones_eq_nil fun step member => provenZone_lookup (hlookups step member)
  have hsteps : provenZones self.cloudflare.apiToken turn.steps =
      provenZones self.cloudflare.apiToken turn.rest := by
    unfold provenZones at hresolution ⊢
    rw [Turn.steps, List.filterMap_append, hresolution, List.nil_append]
  have hunproven : (proofs.resolvedTo turn.record turn.resolved).provenIds =
      proofs.provenIds := by
    unfold ZoneProofs.resolvedTo
    split <;> rfl
  have hexpected : (proofs.resolvedTo turn.record turn.resolved).expected =
      proofs.expected := by
    unfold ZoneProofs.resolvedTo
    split <;> rfl
  apply h.turn hrecord
  · exact hproves.expected.trans hexpected
  · rw [hproves.resolved]
    unfold ZoneProofs.resolvedTo
    split <;> rfl
  · intro zoneId
    rw [hproves.proven, hunproven, hsteps]

/-- The trace of a loop over records is cut into their turns. -/
structure TurnsOf (updater : Updater) (deadline : Instant) (records : List RecordConfig)
    (trace : List Step) (turns : List Turn) : Prop where
  trace_eq : trace = turns.flatMap Turn.steps
  records_prefix : turns.map Turn.record <+: records
  resolves : ∀ turn ∈ turns, updater.Resolves deadline turn
  uncached : ∀ turn ∈ turns, ∀ step ∈ turn.rest, ∀ key, step.op ≠ .act (.cacheGet key)

/-- The loop of a check is made of turns, one for each record that it comes to, and the zone
proofs that it ends with account for all of them after those before it. The induction is on the
records, and each turn adds what it has resolved and proven. -/
theorem ChecksAll.turns {addresses : DiscoveredAddresses} {options : CheckOptions}
    {config : Config} {records : List RecordConfig} {state final : CheckState}
    {trace : List Step} {before : List Turn}
    (h : self.ChecksAll addresses options records state trace final)
    (hrecords : ∀ record ∈ records, record ∈ config.records)
    (hstate : state.proofs.Accounts self.cloudflare.apiToken config before) :
    ∃ turns, self.TurnsOf options.deadline records trace turns ∧
      final.proofs.Accounts self.cloudflare.apiToken config (before ++ turns) := by
  induction h generalizing before with
  | done state =>
      refine ⟨[], ⟨rfl, List.nil_prefix, ?_, ?_⟩, by simpa using hstate⟩
      · exact fun _ member => absurd member List.not_mem_nil
      · exact fun _ member => absurd member List.not_mem_nil
  | @next record rest state state' final checking later hchecks _ ih =>
      obtain ⟨turn, hrecord, rfl, hresolves, hproves⟩ := hchecks.turn self
      have hmember : turn.record ∈ config.records := by
        rw [hrecord]
        exact hrecords record List.mem_cons_self
      rw [← hrecord] at hproves
      have hnext := self.accounts_turn hstate hmember hresolves hproves
      obtain ⟨turns, hturns, hfinal⟩ :=
        ih (fun other member => hrecords other (List.mem_cons_of_mem _ member)) hnext
      refine ⟨turn :: turns, ⟨?_, ?_, ?_, ?_⟩, by simpa using hfinal⟩
      · rw [List.flatMap_cons, hturns.trace_eq]
      · rw [List.map_cons, hrecord]
        exact List.prefix_cons_inj record |>.mpr hturns.records_prefix
      · exact List.forall_mem_cons.mpr ⟨hresolves, hturns.resolves⟩
      · exact List.forall_mem_cons.mpr ⟨hproves.uncached, hturns.uncached⟩
  | @stop record rest state final checking hchecks =>
      obtain ⟨turn, hrecord, rfl, hresolves, hproves⟩ := hchecks.turn self
      have hmember : turn.record ∈ config.records := by
        rw [hrecord]
        exact hrecords record List.mem_cons_self
      rw [← hrecord] at hproves
      have hfinal := self.accounts_turn hstate hmember hresolves hproves
      refine ⟨[turn], ⟨by simp, ?_, ?_, ?_⟩, hfinal⟩
      · rw [List.map_singleton, hrecord]
        exact (List.prefix_cons_inj record).mpr List.nil_prefix
      · exact List.forall_mem_cons.mpr ⟨hresolves, fun _ member => absurd member List.not_mem_nil⟩
      · exact List.forall_mem_cons.mpr
          ⟨hproves.uncached, fun _ member => absurd member List.not_mem_nil⟩

/-- A check that has got to its records, in the parts of its trace. -/
structure ReachesRecords (updater : Updater) (allowCreate allowEditProbe : Bool)
    (deadline : Instant) (trace : List Step) (report : CheckReport)
    (addresses : DiscoveredAddresses) (start final : CheckState) (before checking : List Step) :
    Prop where
  trace_eq : trace = before ++ ⟨.act .newControl, ()⟩ :: checking
  before_quiet : ∀ step ∈ before, LookupOp step.op ∨ DiscoveryOp step.op
  start_proofs : start.proofs = ZoneProofs.forConfig updater.config
  checks : Runs (updater.checkRecords addresses
    { allowCreate := allowCreate, allowEditProbe := allowEditProbe, deadline := deadline }
    updater.config.records start) checking final
  report_eq : report = finalizeCheckReport final.report final.proofs allowEditProbe

omit [Externals] in
theorem discoveryFailures_stage {addresses : DiscoveredAddresses} {failure : CycleFailure}
    (member : failure ∈ addresses.discoveryFailures) : failure.stage ≠ .editPermission := by
  have hfamily : ∀ {target : String} {result : Option (Except String IpAddr)},
      failure ∈ DiscoveredAddresses.discoveryFailure target result →
      failure.stage ≠ .editPermission := by
    intro target result member
    unfold DiscoveredAddresses.discoveryFailure at member
    split at member
    · obtain rfl := List.mem_singleton.mp member
      exact FailureStage.noConfusion
    · cases member
  rcases List.mem_append.mp member with member | member
  · exact hfamily member
  · exact hfamily member

/-- The verification of a token brings no refusal but the one that it ends with. -/
theorem verification_refusal {deadline : Instant} {verification : List Step}
    {verified : Option (Except CloudflareError Unit)}
    (hrun : Runs (timeoutAt deadline self.cloudflare.verifyToken) verification verified)
    (hgoes : ∀ error, verified = some (.error error) → error.aborts = false) :
    ∀ step ∈ verification, self.cloudflare.refusal step = none := by
  have hmet := track_run (self.cloudflare.timeoutAt_refusal self.cloudflare.verifyToken_refusal)
    hrun coherentFrom_true
  have hnone : verification.foldl
      (fun met step => met.or (self.cloudflare.refusal step)) none = none := by
    match verified with
    | none => exact hmet
    | some (.ok ()) => exact hmet
    | some (.error error) => exact hmet.trans (abortOf_error_eq_none (hgoes error rfl))
  intro step member
  obtain ⟨before, after, rfl⟩ := List.append_of_mem member
  cases hrefusal : self.cloudflare.refusal step with
  | none => rfl
  | some error =>
      rw [List.foldl_append, List.foldl_cons, hrefusal] at hnone
      cases hbefore : before.foldl
          (fun met step => met.or (self.cloudflare.refusal step)) none with
      | none =>
          rw [hbefore, Option.none_or, self.cloudflare.foldl_refusal_some] at hnone
          cases hnone
      | some earlier =>
          rw [hbefore, Option.some_or, self.cloudflare.foldl_refusal_some] at hnone
          cases hnone

/-- A check gets to its records, or it ends before and says nothing about DNS Edit. It comes
to them without a refusal and without a failure of that stage. -/
theorem Checks.reaches_or {allowCreate allowEditProbe : Bool} {deadline : Instant}
    {trace : List Step} {report : CheckReport}
    (h : self.Checks allowCreate allowEditProbe deadline trace report) :
    ((∀ step ∈ trace, step.op ≠ .act .newControl) ∧
      ∀ failure ∈ report.failures, failure.stage ≠ .editPermission) ∨
    ∃ addresses start final before checking, ReachesRecords self allowCreate allowEditProbe
      deadline trace report addresses start final before checking ∧
      (∀ step ∈ before, self.cloudflare.refusal step = none) ∧
      ∀ failure ∈ start.report.failures, failure.stage ≠ .editPermission := by
  have hverification : ∀ {verification : List Step}
      {verified : Option (Except CloudflareError Unit)},
      Runs (timeoutAt deadline self.cloudflare.verifyToken) verification verified →
      ∀ step ∈ verification, step.op ≠ .act .newControl := by
    intro verification verified hrun step member hstep
    have hop := self.verification_quiet hrun step member
    rw [hstep] at hop
    exact hop
  have hrest : ∀ {verification rest : List Step}
      {verified : Option (Except CloudflareError Unit)} {first : CheckReport},
      Runs (timeoutAt deadline self.cloudflare.verifyToken) verification verified →
      (∀ error, verified = some (.error error) → error.aborts = false) →
      (∀ failure ∈ first.failures, failure.stage ≠ .editPermission) →
      self.ChecksAddresses allowCreate allowEditProbe deadline first rest report →
      ((∀ step ∈ verification ++ rest, step.op ≠ .act .newControl) ∧
        ∀ failure ∈ report.failures, failure.stage ≠ .editPermission) ∨
      ∃ addresses start final before checking, ReachesRecords self allowCreate allowEditProbe
        deadline (verification ++ rest) report addresses start final before checking ∧
        (∀ step ∈ before, self.cloudflare.refusal step = none) ∧
        ∀ failure ∈ start.report.failures, failure.stage ≠ .editPermission := by
    intro verification rest verified first hverify hgoes hfirst hchecks
    cases hchecks with
    | undiscovered hrun =>
        refine .inl ⟨List.forall_mem_append.mpr ⟨hverification hverify, ?_⟩,
          List.forall_mem_append.mpr ⟨hfirst, ?_⟩⟩
        · intro step member hstep
          have hop := self.discovery_quiet hrun step member
          rw [hstep] at hop
          exact hop
        · exact List.forall_mem_singleton.mpr FailureStage.noConfusion
    | @checked discovery checking addresses state hrun hchecking =>
        refine .inr ⟨addresses, _, state, verification ++ discovery, checking, ⟨?_, ?_, rfl,
          hchecking, rfl⟩, ?_, ?_⟩
        · exact (List.append_assoc _ _ _).symm
        · intro other hother
          rcases List.mem_append.mp hother with hother | hother
          · exact .inl (self.verification_quiet hverify other hother)
          · exact .inr (self.discovery_quiet hrun other hother)
        · refine List.forall_mem_append.mpr ⟨self.verification_refusal hverify hgoes, ?_⟩
          exact fun step member => self.cloudflare.refusal_of_not_request fun hrequest =>
            hrequest.not_discovery (self.discovery_quiet hrun step member)
        · exact List.forall_mem_append.mpr
            ⟨hfirst, fun failure member => discoveryFailures_stage member⟩
  have hnone : ∀ failure ∈ ([] : List CycleFailure), failure.stage ≠ .editPermission :=
    fun _ member => absurd member List.not_mem_nil
  cases h with
  | expired hrun =>
      exact .inl ⟨hverification hrun, List.forall_mem_singleton.mpr FailureStage.noConfusion⟩
  | refused hrun =>
      exact .inl ⟨hverification hrun, List.forall_mem_singleton.mpr FailureStage.noConfusion⟩
  | verified hrun hchecks =>
      refine hrest hrun ?_ hnone hchecks
      intro error heq
      cases heq
  | @unverified _ _ error _ hrun hcontinues hchecks =>
      refine hrest hrun ?_ (List.forall_mem_singleton.mpr FailureStage.noConfusion) hchecks
      intro error' heq
      cases heq
      simp only [Bool.or_eq_false_iff] at hcontinues
      simp [CloudflareError.aborts, hcontinues]

theorem Checks.reachesRecords {allowCreate allowEditProbe : Bool} {deadline : Instant}
    {trace : List Step} {report : CheckReport}
    (h : self.Checks allowCreate allowEditProbe deadline trace report)
    (hrecords : ∃ step ∈ trace, step.op = .act .newControl) :
    ∃ addresses start final before checking, ReachesRecords self allowCreate allowEditProbe
      deadline trace report addresses start final before checking := by
  obtain ⟨step, member, hstep⟩ := hrecords
  rcases h.reaches_or with ⟨hnone, -⟩ |
    ⟨addresses, start, final, before, checking, hreaches, -, -⟩
  · exact absurd hstep (hnone step member)
  · exact ⟨addresses, start, final, before, checking, hreaches⟩

end Updater

theorem foldl_push_failures (failureOf : String → CycleFailure) (targets : List String)
    (report : CheckReport) :
    (targets.foldl (fun report target => report.push (failureOf target)) report).failures =
      report.failures ++ targets.map failureOf := by
  induction targets generalizing report with
  | nil => simp
  | cons target rest ih =>
      rw [List.foldl_cons, ih, List.map_cons]
      simp [CheckReport.push]

theorem foldl_push_claims (failureOf : String → CycleFailure) (targets : List String)
    (report : CheckReport) :
    let final := targets.foldl (fun report target => report.push (failureOf target)) report
    final.editPermissionVerified = report.editPermissionVerified ∧
      final.editVerifiedZones = report.editVerifiedZones := by
  induction targets generalizing report with
  | nil => exact ⟨rfl, rfl⟩
  | cons target rest ih => exact ih _

/-- The last step of a check adds one failure for each target without proof. -/
theorem finalizeCheckReport_adds (report : CheckReport) (proofs : ZoneProofs)
    (editProbeRequested : Bool) :
    ∃ added, (finalizeCheckReport report proofs editProbeRequested).failures =
        report.failures ++ added ∧
      (∀ failure ∈ added, failure.stage = .editPermission) ∧
      (added = [] ↔ proofs.unverifiedTargets = []) := by
  refine ⟨_, foldl_push_failures _ proofs.unverifiedTargets _, ?_, List.map_eq_nil_iff⟩
  intro failure member
  obtain ⟨target, -, rfl⟩ := List.mem_map.mp member
  rfl

section

variable [Externals]

/-- The proofs of a check that has got to its records account for their turns. -/
theorem Updater.ReachesRecords.accounts {self : Updater} {allowCreate allowEditProbe : Bool}
    {deadline : Instant} {trace : List Step} {report : CheckReport}
    {addresses : DiscoveredAddresses} {start final : CheckState} {before checking : List Step}
    (h : Updater.ReachesRecords self allowCreate allowEditProbe deadline trace report addresses
      start final before checking) :
    ∃ turns, Updater.TurnsOf self deadline self.config.records checking turns ∧
      final.proofs.Accounts self.cloudflare.apiToken self.config turns ∧
      provenZones self.cloudflare.apiToken trace =
        provenZones self.cloudflare.apiToken (turns.flatMap Turn.steps) := by
  have hstart : start.proofs.Accounts self.cloudflare.apiToken self.config [] := by
    rw [h.start_proofs]
    exact ZoneProofs.accounts_start _ _
  obtain ⟨turns, hturns, hfinal⟩ :=
    (self.checkRecords_checksAll h.checks).turns self (fun _ member => member) hstart
  have hbefore : provenZones self.cloudflare.apiToken before = [] := by
    apply provenZones_eq_nil
    intro step member
    rcases h.before_quiet step member with hop | hop
    · exact provenZone_lookup hop
    · exact provenZone_discovery hop
  refine ⟨turns, hturns, hfinal, ?_⟩
  rw [h.trace_eq, ← hturns.trace_eq]
  unfold provenZones at hbefore ⊢
  rw [List.filterMap_append, hbefore, List.nil_append, List.filterMap_cons]
  rfl

/-- What a check that has got to its records claims about DNS Edit. -/
theorem Updater.ReachesRecords.claims {self : Updater} {allowCreate allowEditProbe : Bool}
    {deadline : Instant} {trace : List Step} {report : CheckReport}
    {addresses : DiscoveredAddresses} {start final : CheckState} {before checking : List Step}
    (h : Updater.ReachesRecords self allowCreate allowEditProbe deadline trace report addresses
      start final before checking) :
    ∃ turns, Updater.TurnsOf self deadline self.config.records checking turns ∧
      (report.editPermissionVerified = true ↔
        Exercised self.config turns (provenZones self.cloudflare.apiToken trace)) ∧
      (∃ added, report.failures = final.report.failures ++ added ∧
        (∀ failure ∈ added, failure.stage = .editPermission) ∧
        (added = [] ↔ report.editPermissionVerified = true)) ∧
      report.editVerifiedZones =
        (exercisedIds self.config turns (provenZones self.cloudflare.apiToken trace)).card := by
  obtain ⟨turns, hturns, hfinal, htrace⟩ := h.accounts
  have hclaims : report.editPermissionVerified = final.proofs.isComplete ∧
      report.editVerifiedZones = final.proofs.verifiedCount := by
    rw [h.report_eq]
    exact foldl_push_claims _ final.proofs.unverifiedTargets _
  refine ⟨turns, hturns, ?_, ?_, ?_⟩
  · rw [hclaims.1, htrace]
    exact hfinal.isComplete_iff
  · obtain ⟨added, hadded, hstage, hnone⟩ :=
      finalizeCheckReport_adds final.report final.proofs allowEditProbe
    refine ⟨added, ?_, hstage, ?_⟩
    · rw [h.report_eq]
      exact hadded
    · rw [hnone, hclaims.1, hfinal.unverifiedTargets_nil, hfinal.isComplete_iff]
  · rw [hclaims.2, htrace]
    exact hfinal.verifiedCount_eq

/-- A check that has got to its records claims DNS Edit exactly when each
configured zone was last resolved to an id in which a mutation has succeeded, and
that is when it has no failure of its own to add about it. -/
theorem edit_proof_exact (self : Updater) {allowCreate allowEditProbe : Bool}
    {deadline : Instant} {trace : List Step} {report : CheckReport}
    (hrun : Runs (self.checkUntil allowCreate allowEditProbe deadline) trace report)
    (hrecords : ∃ step ∈ trace, step.op = .act .newControl) :
    ∃ addresses start final before checking turns,
      Updater.ReachesRecords self allowCreate allowEditProbe deadline trace report addresses
        start final before checking ∧
      Updater.TurnsOf self deadline self.config.records checking turns ∧
      (report.editPermissionVerified = true ↔
        Exercised self.config turns (provenZones self.cloudflare.apiToken trace)) ∧
      (∃ added, report.failures = final.report.failures ++ added ∧
        (∀ failure ∈ added, failure.stage = .editPermission) ∧
        (added = [] ↔ report.editPermissionVerified = true)) ∧
      report.editVerifiedZones =
        (exercisedIds self.config turns (provenZones self.cloudflare.apiToken trace)).card := by
  have hchecks := self.checkUntil_checks hrun
  obtain ⟨addresses, start, final, before, checking, hreaches⟩ :=
    hchecks.reachesRecords self hrecords
  obtain ⟨turns, hturns, hclaim, hadded, hcount⟩ := hreaches.claims
  exact ⟨addresses, start, final, before, checking, turns, hreaches, hturns, hclaim, hadded,
    hcount⟩

end

section

attribute [local instance] exampleExternals

/-- The check that creates the example record proves DNS Edit with it. -/
theorem edit_proof_exact_creation :
    ∃ turns, Exercised exampleConfig turns (provenZones "token"
      (creationScenario.trace (exampleUpdater.checkUntil true false (seconds 300)))) := by
  have hany : (creationScenario.trace (exampleUpdater.checkUntil true false
      (seconds 300))).any (fun step => decide (step.op = .act .newControl)) = true := by
    decide +kernel
  obtain ⟨step, member, hstep⟩ := List.any_eq_true.mp hany
  obtain ⟨_, _, _, _, _, turns, -, -, hclaim, -, -⟩ := edit_proof_exact exampleUpdater
    (creationScenario.runs (exampleUpdater.checkUntil true false (seconds 300)))
    ⟨step, member, of_decide_eq_true hstep⟩
  exact ⟨turns, hclaim.mp (by decide +kernel)⟩

end

end Cirrusync
