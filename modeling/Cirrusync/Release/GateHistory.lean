import Cirrusync.Release.GateRuns

/-!
A branch whose pull requests pass the gate, and what the gate makes of a version that was bumped
by the same script.
-/

namespace Cirrusync.Release

open Effect

/-! ## A branch -/

/-- One commit of a branch is released under a higher version than another. -/
def Supersedes (loads : List Char → Option Table) (store : Git.Store)
    (newer older : Git.ObjectId) : Prop :=
  ∃ v w, Released loads store older v ∧ Released loads store newer w ∧ v < w

section

variable {loads : List Char → Option Table} {store store' : Git.Store}
  {newer middle older : Git.ObjectId}

theorem Supersedes.extends (h : Supersedes loads store newer older)
    (hextends : store.Extends store') : Supersedes loads store' newer older := by
  obtain ⟨v, w, hv, hw, hlt⟩ := h
  exact ⟨v, w, hv.extends hextends, hw.extends hextends, hlt⟩

theorem Supersedes.trans (h : Supersedes loads store newer middle)
    (h' : Supersedes loads store middle older) : Supersedes loads store newer older := by
  obtain ⟨v, w, hv, hw, hlt⟩ := h
  obtain ⟨v', w', hv', hw', hlt'⟩ := h'
  obtain rfl := hw'.unique hv (.refl _)
  exact ⟨v', w, hv', hw, hlt'.trans hlt⟩

theorem Supersedes.apart (h : Supersedes loads store newer older) {v : Version}
    (hnewer : Released loads store newer v) : ¬ Released loads store older v := by
  intro holder
  obtain ⟨v', w', hv', hw', hlt⟩ := h
  obtain rfl := hv'.unique holder (.refl _)
  obtain rfl := hw'.unique hnewer (.refl _)
  exact lt_irrefl _ hlt

theorem Supersedes.ne (h : Supersedes loads store newer older) : newer ≠ older := by
  rintro rfl
  obtain ⟨-, w, -, hw, -⟩ := id h
  exact h.apart hw hw

end

section

variable {loads : List Char → Option Table} {pathText : PathText} {component : String}
  {disk : Disk}

theorem holds_known {α : Type} {fact : Prop} (h : fact) (p : Program FileAns α) :
    Holds fileContract (fun _ _ => fact) p disk := by
  induction p generalizing disk with
  | done value => exact holds_done.mpr h
  | ask op next ih => exact holds_solo_ask.mpr ⟨trivial, fun answer _ _ => ih answer⟩

theorem bump_within :
    Holds fileContract (fun result _ => ∀ w, result = .ok w →
        ∀ path : VersionFile, (disk.bytes path).length ≤ path.maximumBytes)
      (bump loads pathText component).run disk := by
  apply holds_bind
  refine holds_mono readText_whole ?_
  rintro result disk' ⟨rfl, hmanifest⟩
  cases result with
  | error message => exact holds_done.mpr nofun
  | ok manifest =>
    apply holds_bind
    refine holds_mono readText_whole ?_
    rintro result disk' ⟨rfl, hlockfile⟩
    cases result with
    | error message => exact holds_done.mpr nofun
    | ok lockfile =>
      have hwithin : ∀ path : VersionFile, (disk'.bytes path).length ≤ path.maximumBytes := by
        intro path
        cases path with
        | manifest => exact (hmanifest manifest rfl).2
        | lockfile => exact (hlockfile lockfile rfl).2
      exact holds_mono (holds_known hwithin _) fun _ _ h _ _ => h

theorem decode_encode (contents : List Char) : decode (encode contents) = some contents := by
  have hbytes : (⟨(encode contents).toArray⟩ : ByteArray) =
      (String.ofList contents).toByteArray := by
    simp [encode]
  unfold decode
  rw [hbytes]
  unfold String.fromUTF8?
  rw [dif_pos (String.ofList contents).isValidUTF8]
  exact congrArg some String.toList_ofList

/-- The two sides of a bump as commits release them, the new one where it is within bounds. -/
theorem bump_releases {disk' : Disk} {fileTrace : List (Event FileAns)} {w : Version}
    (hbump : Runs (bump loads pathText component).run fileTrace (.ok w))
    (hdisk : Path fileContract disk fileTrace disk') {store : Git.Store}
    {base head : Git.ObjectId} (hbase : ∀ path, CommittedFile store base path (disk.bytes path))
    (hhead : ∀ path, CommittedFile store head path (disk'.bytes path)) :
    ∃ v, Released loads store base v ∧ v < w ∧
      ((∀ path, (disk'.bytes path).length ≤ path.maximumBytes) → Released loads store head w) := by
  have hwithin := holds_run bump_within hbump hdisk w rfl
  have hbumped := holds_run (bump_bumped loads pathText component disk) hbump hdisk
  cases hbumped with
  | @updated manifest lockfile texts _ hmanifest hlockfile htexts hnewManifest hnewLockfile =>
    obtain ⟨current, hcurrent, hlt, -, haccepted, -⟩ := bumpedTexts_rewrite loads htexts
    refine ⟨current, ⟨manifest, lockfile, ?_, ?_, hcurrent _⟩, hlt, fun hnew =>
      ⟨texts.manifest, texts.lockfile, ?_, ?_, haccepted _⟩⟩
    · exact ⟨_, hbase .manifest, hwithin .manifest, hmanifest⟩
    · exact ⟨_, hbase .lockfile, hwithin .lockfile, hlockfile⟩
    · exact ⟨_, hhead .manifest, hnew .manifest, by rw [hnewManifest, decode_encode]⟩
    · exact ⟨_, hhead .lockfile, hnew .lockfile, by rw [hnewLockfile, decode_encode]⟩

theorem Released.within {store : Git.Store} {commit : Git.ObjectId} {v : Version}
    (h : Released loads store commit v)
    (hfiles : ∀ path, CommittedFile store commit path (disk.bytes path)) :
    ∀ path, (disk.bytes path).length ≤ path.maximumBytes := by
  obtain ⟨-, -, ⟨bytes, hmanifest, hmanifestLength, -⟩,
    ⟨bytes', hlockfile, hlockfileLength, -⟩, -⟩ :=
    h
  intro path
  cases path with
  | manifest => rwa [(hfiles .manifest).unique hmanifest (.refl _)]
  | lockfile => rwa [(hfiles .lockfile).unique hlockfile (.refl _)]

end

/-- A bump that was committed passes the gate over the commit that it was made on, and as the
version that it printed, unless a file has grown out of its bound. -/
theorem bump_passes_gate {loads : List Char → Option Table} {pathText : PathText}
    {component : String} {disk disk' : Disk} {fileTrace : List (Event FileAns)} {w : Version}
    (hbump : Runs (bump loads pathText component).run fileTrace (.ok w))
    (hdisk : Path fileContract disk fileTrace disk') {store : Git.Store}
    {base head : Git.ObjectId} (hbase : ∀ path, CommittedFile store base path (disk.bytes path))
    (hhead : ∀ path, CommittedFile store head path (disk'.bytes path))
    {baseRef headRef : List Char} (hbaseRef : refIsInvalid baseRef = false)
    (hheadRef : refIsInvalid headRef = false) {trace : List (Event Git.Answer)}
    {result : Except GateError (Version × Version)} {state' : Git.State}
    (hruns : Runs (checkPr loads baseRef headRef).run trace result)
    (hpath : Path (Git.contract false) ⟨store, []⟩ trace state')
    (hasked : state'.resolved <+: [some base, some head]) :
    ∃ v, Released loads state'.store base v ∧ v < w ∧
      (result = .ok (v, w) ↔ ∀ path, (disk'.bytes path).length ≤ path.maximumBytes) := by
  have hextends : store.Extends state'.store := Git.path_extends hpath
  have hhead' : ∀ path, CommittedFile state'.store head path (disk'.bytes path) :=
    fun path => (hhead path).extends hextends
  obtain ⟨v, hbaseReleased, hlt, hheadReleased⟩ :=
    bump_releases hbump hdisk (fun path => (hbase path).extends hextends) hhead'
  have hdecided : Decided loads false baseRef headRef ⟨store, []⟩ result state' :=
    holds_run checkPr_decided hruns hpath
  refine ⟨v, hbaseReleased, hlt, fun hok => ?_, fun hwithin => ?_⟩
  · obtain ⟨base', head', hresolved, hpasses⟩ := hdecided.sound v w hok
    rw [hresolved] at hasked
    obtain ⟨-, hrest⟩ := List.cons_prefix_cons.mp hasked
    obtain ⟨hsame, -⟩ := List.cons_prefix_cons.mp hrest
    cases hsame
    exact hpasses.head_released.within hhead'
  · exact hdecided.complete rfl base head v w _ rfl hasked
      ⟨hbaseRef, hheadRef, hbaseReleased, hheadReleased hwithin, hlt⟩

theorem proposal_base (path : VersionFile) :
    CommittedFile proposal baseCommit path (checkoutDisk.bytes path) := by
  cases path with
  | manifest =>
      exact ⟨regularEntry (objectNamed 'c' (by decide)), ⟨⟨_, rfl, rfl⟩, rfl⟩, rfl, rfl⟩
  | lockfile =>
      exact ⟨regularEntry (objectNamed 'd' (by decide)), ⟨⟨_, rfl, rfl⟩, rfl⟩, rfl, rfl⟩

theorem proposal_head (path : VersionFile) :
    CommittedFile proposal headCommit path (patchRun.2.2.bytes path) := by
  cases path with
  | manifest =>
      exact ⟨regularEntry (objectNamed 'e' (by decide)), ⟨⟨_, rfl, rfl⟩, rfl⟩, rfl, rfl⟩
  | lockfile =>
      exact ⟨regularEntry (objectNamed 'f' (by decide)), ⟨⟨_, rfl, rfl⟩, rfl⟩, rfl, rfl⟩

theorem bump_passes_gate_proposal :
    ∃ v, Released scannedLoads proposalRun.2.2.store baseCommit v ∧ v < ⟨1, 2, 4⟩ ∧
      (proposalRun.2.1 = .ok (v, ⟨1, 2, 4⟩) ↔
        ∀ path, (patchRun.2.2.bytes path).length ≤ path.maximumBytes) := by
  have hversion : patchRun.2.1 = .ok ⟨1, 2, 4⟩ := by decide +kernel
  obtain ⟨hbump, hdisk⟩ := patchRun_run
  rw [hversion] at hbump
  obtain ⟨hruns, hpath⟩ := proposalRun_run false
  have hasked : proposalRun.2.2.resolved <+: [some baseCommit, some headCommit] :=
    ⟨[], by rw [List.append_nil, proposalRun_resolved]⟩
  exact bump_passes_gate hbump hdisk proposal_base proposal_head (by decide) (by decide) hruns
    hpath hasked

end Cirrusync.Release
