import Cirrusync.Config
import Cirrusync.Release.ReleaseOrder

/-!
The upgrade policy of the installer, `evaluate_upgrade_candidate`: the floor
below which no candidate is installed, and when nothing is to be done. `die`
is an error with its message; what `log` and `warn` print is kept in order.
-/

namespace Cirrusync.Release

/-- What the inspection of the installed binary meets. -/
structure BinaryInspection where
  /-- A regular executable file, not a symbolic link. -/
  executable : Bool
  timeoutFound : Bool
  prlimitFound : Bool
  /-- `mktemp` and `chmod` gave an output file. -/
  outputFile : Bool
  exitStatus : Nat
  processesTerminated : Bool
  sizeKnown : Bool
  written : List Char

/-- What a command substitution keeps of an output. -/
def substituted (output : List Char) : List Char :=
  (output.filter (· != '\x00')).rdropWhile (· == '\n')

def readCirrusyncBinaryVersion (inspection : BinaryInspection) : Option (List Char) :=
  let output := substituted inspection.written
  let version := output.drop "cirrusync ".length
  if !inspection.executable || !inspection.timeoutFound || !inspection.prlimitFound ||
      !inspection.outputFile then none
  else if inspection.exitStatus != 0 || !inspection.processesTerminated then none
  else if !inspection.sizeKnown then none
  else if inspection.written.length != output.length + 1 then none
  else if !("cirrusync ".toList.isPrefixOf output && !output.contains '\n') then none
  else if releaseVersionIsValid version then some version
  else none

/-- The globals of the installer that the evaluation reads or sets; an empty
text stands for one that is not set. -/
structure UpgradeState where
  action : String
  forceReinstall : Bool
  incompleteInstall : Bool
  installedVersion : List Char
  installedSourceVersion : List Char
  candidateVersion : List Char
  installedSourceCommit : List Char
  candidateSourceCommit : List Char
  upgradeIsNoop : Bool
  messages : List String

def UpgradeState.log (state : UpgradeState) (message : String) : UpgradeState :=
  { state with messages := state.messages ++ [message] }

/-- What the evaluation meets outside of the globals. -/
structure UpgradeWorld where
  /-- What `read_package_version` prints for the staged manifest. -/
  packageVersion : Option (List Char)
  binaryExists : Bool
  inspection : BinaryInspection
  processesTerminated : Bool
  managedInstallationIsComplete : Bool

/-- The version that a readable installed binary reports. -/
def UpgradeWorld.binaryVersion (world : UpgradeWorld) : Option (List Char) :=
  if world.binaryExists then readCirrusyncBinaryVersion world.inspection else none

/-- `relation="$(compare_release_versions ..)" || die message`. -/
def comparedOrDie (candidate installed : List Char) (message : String) :
    Except String (List Char) := do
  ensure ((compareReleaseVersions candidate installed).status == 0) message
  return (compareReleaseVersions candidate installed).output

/-- The evaluation's locals after its look at the installed binary. -/
structure Inspected where
  state : UpgradeState
  comparisonVersion : List Char
  repairRequired : Bool

/-- From the log of the managed source to the end of `if [[ -e BINARY_PATH ]]`. -/
def inspectInstalled (world : UpgradeWorld) (state : UpgradeState) : Except String Inspected :=
  let managed := state.installedSourceVersion
  let state := if managed.isEmpty then state
    else state.log s!"Managed-source Cirrusync version: {String.ofList managed}"
  if world.binaryExists then
    match readCirrusyncBinaryVersion world.inspection with
    | none => do
        ensure world.processesTerminated
          "installed version inspection left processes that could not be terminated"
        ensure state.forceReinstall ("could not determine the installed version; " ++
          "rerun with --upgrade --force-reinstall to repair it")
        ensure (!managed.isEmpty) ("cannot establish a downgrade-safe recovery version because " ++
          "both the installed binary and managed source are unreadable or missing")
        return ⟨state.log ("Could not determine the installed binary version; " ++
          "using the managed source as the recovery floor"), managed, true⟩
    | some binaryVersion => do
        ensure world.processesTerminated
          "installed version inspection left processes that could not be terminated"
        let state :=
          state.log s!"Installed binary Cirrusync version: {String.ofList binaryVersion}"
        if managed.isEmpty then return ⟨state, binaryVersion, false⟩
        else
          let relation ← comparedOrDie binaryVersion managed
            "could not compare installed binary and managed-source versions"
          let comparisonVersion :=
            if relation = "newer".toList then binaryVersion else managed
          if binaryVersion ≠ managed then
            return ⟨state.log ("Installed binary and managed source report different versions; " ++
              "the higher version is the downgrade floor"), comparisonVersion, true⟩
          else return ⟨state, comparisonVersion, false⟩
  else .ok ⟨state.log "No installed binary was found", managed, true⟩

/-- The comparison of the candidate with the floor, from the assignment of
`INSTALLED_VERSION` on. -/
def settleCandidate (world : UpgradeWorld) (state : UpgradeState) (repairRequired : Bool) :
    Except String UpgradeState := do
  let installed := String.ofList state.installedVersion
  let candidate := String.ofList state.candidateVersion
  let relation ← comparedOrDie state.candidateVersion state.installedVersion
    "could not compare installed and candidate versions"
  if relation = "newer".toList then
    return state.log s!"Upgrading Cirrusync {installed} -> {candidate}"
  else if relation = "equal".toList then
    if state.forceReinstall then
      return state.log s!"Force-reinstalling Cirrusync {installed}"
    else if !state.installedSourceCommit.isEmpty &&
        state.candidateSourceCommit != state.installedSourceCommit then
      .error ("candidate source changed without a version bump; " ++
        "use a newer release or --force-reinstall")
    else if state.incompleteInstall || repairRequired then
      return state.log s!"Repairing the incomplete Cirrusync {installed} installation"
    else if state.action == "update" && !world.managedInstallationIsComplete then
      return ({ state with incompleteInstall := true }.log
        "Installed runtime state changed during upgrade inspection").log
        s!"Repairing the incomplete Cirrusync {installed} installation"
    else if state.installedSourceCommit.isEmpty then
      return state.log
        s!"Reinstalling Cirrusync {installed} because the managed source is missing"
    else
      return { state with upgradeIsNoop := true }.log
        s!"Cirrusync {installed} is already current"
  else if relation = "older".toList then
    .error s!"refusing to downgrade Cirrusync {installed} to {candidate}"
  else .error "internal error: unsupported version comparison result"

def evaluateUpgradeCandidate (world : UpgradeWorld) (state : UpgradeState) :
    Except String UpgradeState :=
  match world.packageVersion with
  | none => .error "could not read the staged Cirrusync package version"
  | some candidate => do
      ensure (releaseVersionIsValid candidate)
        "the staged package version is not a supported MAJOR.MINOR.PATCH release"
      let inspected ← inspectInstalled world ({ state with candidateVersion := candidate }.log
        s!"Candidate Cirrusync version: {String.ofList candidate}")
      if inspected.comparisonVersion.isEmpty then
        ensure (!inspected.state.incompleteInstall)
          ("cannot establish a downgrade-safe recovery version because the prior " ++
            "installation has neither a readable binary nor managed source")
        return inspected.state.log (s!"Installing Cirrusync {String.ofList candidate} " ++
          "without an existing version floor")
      else
        let state := { inspected.state with installedVersion := inspected.comparisonVersion }
        settleCandidate world state inspected.repairRequired

/-! ## What each part allows -/

/-- A text is that of a release. -/
def IsRelease (text : List Char) (v : Version) : Prop := text = v.str ∧ v.Bounded

theorem IsRelease.ne_nil {text : List Char} {v : Version} (h : IsRelease text v) : text ≠ [] := by
  rw [h.1, Version.str]
  simp

theorem IsRelease.unique {text : List Char} {v w : Version} (hv : IsRelease text v)
    (hw : IsRelease text w) : v = w := by
  have h := @Version.str_injective ⟨v, hv.2⟩ ⟨w, hw.2⟩ (hv.1.symm.trans hw.1)
  exact congrArg Subtype.val h

theorem releaseVersionIsValid_iff_isRelease {text : List Char} :
    releaseVersionIsValid text = true ↔ ∃ v, IsRelease text v := by
  simp only [releaseVersionIsValid_iff, IsRelease, and_comm]

theorem readCirrusyncBinaryVersion_isRelease {inspection : BinaryInspection} {text : List Char}
    (h : readCirrusyncBinaryVersion inspection = some text) : ∃ v, IsRelease text v := by
  unfold readCirrusyncBinaryVersion at h
  simp only at h
  split_ifs at h with _ _ _ _ _ hvalid
  cases h
  exact releaseVersionIsValid_iff_isRelease.mp hvalid

theorem comparedOrDie_ok {candidate installed output : List Char} {message : String} :
    comparedOrDie candidate installed message = .ok output ↔
      ∃ v w, IsRelease candidate v ∧ IsRelease installed w ∧ output = relation v w := by
  unfold comparedOrDie
  rw [ensure_bind_ok, beq_iff_eq]
  constructor
  · rintro ⟨hstatus, houtput⟩
    by_cases hvalid : releaseVersionIsValid candidate = true ∧
        releaseVersionIsValid installed = true
    · obtain ⟨v, hv⟩ := releaseVersionIsValid_iff_isRelease.mp hvalid.1
      obtain ⟨w, hw⟩ := releaseVersionIsValid_iff_isRelease.mp hvalid.2
      rw [hv.1, hw.1, compareReleaseVersions_str hv.2 hw.2] at houtput
      exact ⟨v, w, hv, hw, (Except.ok.inj houtput).symm⟩
    · rw [compareReleaseVersions_invalid hvalid] at hstatus
      cases hstatus
  · rintro ⟨v, w, ⟨rfl, hv⟩, ⟨rfl, hw⟩, rfl⟩
    rw [compareReleaseVersions_str hv hw]
    exact ⟨rfl, rfl⟩

/-- The text of the floor and the versions it covers. -/
structure Covers (comparison : List Char) (managed : List Char) (binary : Option (List Char)) :
    Prop where
  /-- Without a floor there is neither a managed version nor a readable binary. -/
  absent : comparison = [] → managed = [] ∧ binary = none
  binary : ∀ floor, IsRelease comparison floor → ∀ text, binary = some text →
    ∃ v, IsRelease text v ∧ v ≤ floor
  managed : ∀ floor, IsRelease comparison floor → managed ≠ [] →
    ∃ v, IsRelease managed v ∧ v ≤ floor

theorem Covers.managed_only (managed : List Char) : Covers managed managed none where
  absent := fun h => ⟨h, rfl⟩
  binary := fun _ _ text h => by cases h
  managed := fun floor h _ => ⟨floor, h, le_rfl⟩

theorem Covers.binary_only {text : List Char} {v : Version} (h : IsRelease text v) :
    Covers text [] (some text) where
  absent := fun hnil => absurd hnil h.ne_nil
  binary := by
    intro floor hfloor text' htext
    cases htext
    exact ⟨floor, hfloor, le_rfl⟩
  managed := fun _ _ hne => absurd rfl hne

/-- Of two versions the greater is the floor. -/
theorem Covers.both {text managed : List Char} {v w : Version} (hv : IsRelease text v)
    (hw : IsRelease managed w) :
    Covers (if relation v w = "newer".toList then text else managed) managed (some text) := by
  have hmax : ∀ floor,
      IsRelease (if relation v w = "newer".toList then text else managed) floor →
      v ≤ floor ∧ w ≤ floor := by
    intro floor hfloor
    split_ifs at hfloor with hnewer
    · rw [relation_newer] at hnewer
      rw [hfloor.unique hv]
      exact ⟨le_rfl, hnewer.le⟩
    · rw [relation_newer, not_lt] at hnewer
      rw [hfloor.unique hw]
      exact ⟨hnewer, le_rfl⟩
  constructor
  · intro hnil
    split_ifs at hnil
    · exact absurd hnil hv.ne_nil
    · exact absurd hnil hw.ne_nil
  · intro floor hfloor text' htext
    cases htext
    exact ⟨v, hv, (hmax floor hfloor).1⟩
  · intro floor hfloor _
    exact ⟨w, hw, (hmax floor hfloor).2⟩

/-- When the inspection of what is installed comes to its end, its floor covers the managed source
and the binary that could be read, and no repair is asked for only if both are that floor. -/
theorem inspectInstalled_ok {world : UpgradeWorld} {state : UpgradeState} {inspected : Inspected}
    (h : inspectInstalled world state = .ok inspected) :
    (∃ messages, inspected.state = { state with messages := messages }) ∧
    Covers inspected.comparisonVersion state.installedSourceVersion world.binaryVersion ∧
    (inspected.repairRequired = false →
      world.binaryVersion = some inspected.comparisonVersion ∧
        (state.installedSourceVersion ≠ [] →
          inspected.comparisonVersion = state.installedSourceVersion)) := by
  have hlog : ∀ message, ∃ messages, (if state.installedSourceVersion.isEmpty then state
      else state.log message) = { state with messages := messages } := by
    intro message
    split_ifs
    · exact ⟨state.messages, rfl⟩
    · exact ⟨_, rfl⟩
  unfold inspectInstalled at h
  simp only at h
  generalize hlogged : (if state.installedSourceVersion.isEmpty = true then state else _) =
    logged at h
  obtain ⟨messages, rfl⟩ : ∃ messages, logged = { state with messages := messages } :=
    hlogged ▸ hlog _
  by_cases hexists : world.binaryExists = true
  · cases hread : readCirrusyncBinaryVersion world.inspection with
    | none =>
      simp only [hexists, if_true, hread, ensure_bind_ok] at h
      obtain ⟨-, -, hmanaged, h⟩ := h
      cases h
      refine ⟨⟨_, rfl⟩, ?_, fun hrepair => by cases hrepair⟩
      rw [UpgradeWorld.binaryVersion, if_pos hexists, hread]
      exact Covers.managed_only _
    | some text =>
      obtain ⟨v, hv⟩ := readCirrusyncBinaryVersion_isRelease hread
      have hbinary : world.binaryVersion = some text := by
        rw [UpgradeWorld.binaryVersion, if_pos hexists, hread]
      simp only [hexists, if_true, hread, ensure_bind_ok] at h
      obtain ⟨-, h⟩ := h
      rw [hbinary]
      by_cases hmanaged : state.installedSourceVersion = []
      · simp only [hmanaged, List.isEmpty_nil, if_true] at h
        cases h
        rw [hmanaged]
        exact ⟨⟨_, rfl⟩, Covers.binary_only hv, fun _ => ⟨rfl, fun hne => absurd rfl hne⟩⟩
      · simp only [List.isEmpty_iff, hmanaged, if_false, except_bind_ok, comparedOrDie_ok] at h
        obtain ⟨output, ⟨v', w, hv', hw, rfl⟩, h⟩ := h
        have hcovers := Covers.both hv' hw
        by_cases hsame : text = state.installedSourceVersion
        · rw [if_neg (not_not.mpr hsame)] at h
          cases h
          refine ⟨⟨_, rfl⟩, hcovers, fun _ => ?_⟩
          simp only [hsame, ite_self, implies_true, and_self]
        · rw [if_pos hsame] at h
          cases h
          exact ⟨⟨_, rfl⟩, hcovers, fun hrepair => by cases hrepair⟩
  · simp only [hexists, Bool.false_eq_true, if_false] at h
    cases h
    refine ⟨⟨_, rfl⟩, ?_, fun hrepair => by cases hrepair⟩
    rw [UpgradeWorld.binaryVersion, if_neg hexists]
    exact Covers.managed_only _

/-- When the candidate is settled without an error it is not below the floor,
an equal one is of the known commit or forced, and it is only left in place when
nothing is amiss. -/
theorem settleCandidate_ok {world : UpgradeWorld} {state state' : UpgradeState}
    {repairRequired : Bool} (h : settleCandidate world state repairRequired = .ok state') :
    state'.candidateVersion = state.candidateVersion ∧
    ∃ candidate floor, IsRelease state.candidateVersion candidate ∧
      IsRelease state.installedVersion floor ∧ floor ≤ candidate ∧
      (candidate = floor → state.installedSourceCommit ≠ [] →
        state.candidateSourceCommit ≠ state.installedSourceCommit →
        state.forceReinstall = true) ∧
      (state'.upgradeIsNoop = true → state.upgradeIsNoop = true ∨
        candidate = floor ∧ state.installedSourceCommit ≠ [] ∧
        state.candidateSourceCommit = state.installedSourceCommit ∧
        state.forceReinstall = false ∧ state.incompleteInstall = false ∧
        repairRequired = false ∧
        (state.action = "update" → world.managedInstallationIsComplete = true)) := by
  unfold settleCandidate at h
  simp only [except_bind_ok, comparedOrDie_ok] at h
  obtain ⟨output, ⟨candidate, floor, hcandidate, hfloor, rfl⟩, h⟩ := h
  simp only [relation_newer, relation_equal, relation_older] at h
  by_cases hnewer : floor < candidate
  · rw [if_pos hnewer] at h
    cases h
    exact ⟨rfl, candidate, floor, hcandidate, hfloor, hnewer.le,
      fun hequal => absurd hequal hnewer.ne', fun hnoop => .inl hnoop⟩
  rw [if_neg hnewer] at h
  by_cases hequal : candidate = floor
  · rw [if_pos hequal] at h
    split_ifs at h with hforce hcommit hincomplete hupdate hmissing
    · cases h
      exact ⟨rfl, candidate, floor, hcandidate, hfloor, hequal.ge, fun _ _ _ => hforce,
        fun hnoop => .inl hnoop⟩
    all_goals
      have hunchanged : state.installedSourceCommit ≠ [] →
          state.candidateSourceCommit = state.installedSourceCommit := by
        intro hne
        simpa [hne] using hcommit
      cases h
      refine ⟨rfl, candidate, floor, hcandidate, hfloor, hequal.ge,
        fun _ hne hdiffer => absurd (hunchanged hne) hdiffer, fun hnoop => ?_⟩
    · exact .inl hnoop
    · exact .inl hnoop
    · exact .inl hnoop
    · have hne : state.installedSourceCommit ≠ [] := by simpa using hmissing
      simp only [Bool.or_eq_true, not_or, Bool.not_eq_true] at hincomplete
      refine .inr ⟨hequal, hne, hunchanged hne, by simpa using hforce, hincomplete.1,
        hincomplete.2, fun haction => ?_⟩
      simpa [haction] using hupdate
  · rw [if_neg hequal] at h
    split_ifs at h

/-- No candidate below the version of a readable installed binary or of the
managed source is accepted, an equal one of another commit only by force, and
the installation is taken for current only when nothing differs from it. -/
theorem upgrade_keeps_floor {world : UpgradeWorld} {state state' : UpgradeState}
    (hpaired : state.installedSourceVersion = [] ↔ state.installedSourceCommit = [])
    (h : evaluateUpgradeCandidate world state = .ok state') :
    world.packageVersion = some state'.candidateVersion ∧
    ∃ candidate, IsRelease state'.candidateVersion candidate ∧
      (∀ text, world.binaryVersion = some text → ∃ v, IsRelease text v ∧ v ≤ candidate) ∧
      (state.installedSourceVersion ≠ [] →
        ∃ v, IsRelease state.installedSourceVersion v ∧ v ≤ candidate) ∧
      (world.binaryVersion = some state'.candidateVersion ∨
          state.installedSourceVersion = state'.candidateVersion →
        state.installedSourceCommit ≠ [] →
        state.candidateSourceCommit ≠ state.installedSourceCommit →
        state.forceReinstall = true) ∧
      (state'.upgradeIsNoop = true → state.upgradeIsNoop = true ∨
        world.binaryVersion = some state'.candidateVersion ∧
        state.installedSourceVersion = state'.candidateVersion ∧
        state.candidateSourceCommit = state.installedSourceCommit ∧
        state.forceReinstall = false ∧ state.incompleteInstall = false ∧
        (state.action = "update" → world.managedInstallationIsComplete = true)) := by
  unfold evaluateUpgradeCandidate at h
  split at h
  · cases h
  rename_i text htext
  rw [ensure_bind_ok] at h
  obtain ⟨hvalid, h⟩ := h
  rw [except_bind_ok] at h
  obtain ⟨inspected, hinspected, h⟩ := h
  obtain ⟨⟨messages, hstate⟩, hcovers, hrepair⟩ := inspectInstalled_ok hinspected
  simp only [UpgradeState.log] at hstate hcovers hrepair
  split_ifs at h with hfloor
  · rw [ensure_bind_ok] at h
    obtain ⟨-, h⟩ := h
    cases h
    obtain ⟨candidate, hcandidate⟩ := releaseVersionIsValid_iff_isRelease.mp hvalid
    obtain ⟨hmanaged, hbinary⟩ := hcovers.absent (List.isEmpty_iff.mp hfloor)
    rw [hstate]
    refine ⟨htext, candidate, hcandidate, ?_, ?_, ?_, ?_⟩
    · intro text h
      rw [hbinary] at h
      cases h
    · exact fun hne => absurd hmanaged hne
    · rintro - hne
      exact absurd (hpaired.mp hmanaged) hne
    · exact fun hnoop => .inl hnoop
  · obtain ⟨hcandidateVersion, candidate, floor, hcandidate, hfloorText, hle, hforce, hnoop⟩ :=
      settleCandidate_ok h
    simp only [hstate] at hcandidateVersion hcandidate hforce hnoop
    rw [hcandidateVersion]
    have hbinary := hcovers.binary floor hfloorText
    have hmanaged := hcovers.managed floor hfloorText
    refine ⟨htext, candidate, hcandidate, ?_, ?_, ?_, ?_⟩
    · intro text' htext'
      obtain ⟨v, hv, hvle⟩ := hbinary text' htext'
      exact ⟨v, hv, hvle.trans hle⟩
    · intro hne
      obtain ⟨v, hv, hvle⟩ := hmanaged hne
      exact ⟨v, hv, hvle.trans hle⟩
    · intro hreached
      refine hforce (le_antisymm ?_ hle)
      rcases hreached with hreached | hreached
      · obtain ⟨v, hv, hvle⟩ := hbinary _ hreached
        exact hcandidate.unique hv ▸ hvle
      · obtain ⟨v, hv, hvle⟩ := hmanaged (hreached ▸ hcandidate.ne_nil)
        rw [hreached] at hv
        exact hcandidate.unique hv ▸ hvle
    · intro hset
      refine (hnoop hset).imp_right ?_
      rintro ⟨rfl, hcommit, hsame, hforced, hincomplete, hnorepair, hcomplete⟩
      obtain ⟨hread, hequal⟩ := hrepair hnorepair
      have hcomparison : inspected.comparisonVersion = text :=
        hfloorText.1.trans hcandidate.1.symm
      have hmanagedText := hequal (fun hnil => hcommit (hpaired.mp hnil))
      rw [hcomparison] at hread hmanagedText
      exact ⟨hread, hmanagedText.symm, hsame, hforced, hincomplete, hcomplete⟩

/-- An installation with nothing amiss, offered the version it has. -/
def currentWorld : UpgradeWorld where
  packageVersion := some "1.2.3".toList
  binaryExists := true
  inspection := ⟨true, true, true, true, 0, true, true, "cirrusync 1.2.3\n".toList⟩
  processesTerminated := true
  managedInstallationIsComplete := true

def currentState : UpgradeState where
  action := "update"
  forceReinstall := false
  incompleteInstall := false
  installedVersion := []
  installedSourceVersion := "1.2.3".toList
  candidateVersion := []
  installedSourceCommit := "aaaa".toList
  candidateSourceCommit := "aaaa".toList
  upgradeIsNoop := false
  messages := []

theorem upgrade_keeps_floor_current : ∃ state',
    evaluateUpgradeCandidate currentWorld currentState = .ok state' ∧
      state'.upgradeIsNoop = true ∧
      currentState.installedSourceVersion = state'.candidateVersion ∧
      ∃ candidate, IsRelease state'.candidateVersion candidate := by
  have houtcome : (evaluateUpgradeCandidate currentWorld currentState).toOption.map
      UpgradeState.upgradeIsNoop = some true := by
    decide +kernel
  cases hrun : evaluateUpgradeCandidate currentWorld currentState with
  | error message =>
    rw [hrun] at houtcome
    cases houtcome
  | ok state' =>
    rw [hrun] at houtcome
    have hnoop : state'.upgradeIsNoop = true := Option.some.inj houtcome
    obtain ⟨-, candidate, hcandidate, -, -, -, hcurrent⟩ :=
      upgrade_keeps_floor (by decide) hrun
    rcases hcurrent hnoop with hbefore | ⟨-, hsame, -⟩
    · cases hbefore
    · exact ⟨state', rfl, hnoop, hsame, candidate, hcandidate⟩

end Cirrusync.Release
