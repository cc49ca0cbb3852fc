import Cirrusync.Installer.Stages

/-!
What a rollback does, whichever of its commands fail. The host is looked at together
with the commands so far, since what is restored depends on what they came back with.
-/

namespace Cirrusync.Installer

open Effect

/-- A command came back with success, if the event is of one. -/
def Succeeds : Event Ans → Prop
  | ⟨.run _, status⟩ => status = true
  | _ => True

/-- The removal of a path that was absent before. -/
def removal (key : Managed) : Event Ans := ⟨.run (.rm (.managed key)), true⟩

/-- The paths that the results of a rollback are about. -/
def FilePath.isKept : FilePath → Bool
  | .managed _ => true
  | path => path.isProtected

def Command.Possible {C : Type} (fs : FileSystem C) : Command → Prop
  | .cp source _ | .mv source _ _ => (fs source).isSome = true
  | _ => True

/-- An operation that changes neither variables nor kept paths. -/
def Op.Calm : Op → Prop
  | .assign _ => False
  | .run command => ∀ path : FilePath, path.isKept = true → command.touches path = false
  | _ => True

/-- A calm operation that can always be asked. -/
def Op.Apart : Op → Prop
  | .run (.cp _ _) | .run (.mv _ _ _) | .run (.systemctl .restart) => False
  | op => op.Calm

section

variable {C : Type}

/-- A host with the events so far. -/
abbrev Watched (C : Type) := Host C × List (Event Ans)

def Watched.Succeeded (watched : Watched C) : Prop := ∀ event ∈ watched.2, Succeeds event

/-- Commands find what they copy or move, and the service is restarted only in states as
required. -/
def watching (atRestart : Watched C → Prop) : Contract Ans (Watched C) :=
  .logged (fun watched op =>
    (∀ command, op = .run command → command.Possible watched.1.fs) ∧
      (op = .run (.systemctl .restart) → atRestart watched)) Host.Advances

/-- Nothing has happened to what is kept, and no absent path has been removed. -/
structure Quiet (watched watched' : Watched C) : Prop where
  vars : watched'.1.vars = watched.1.vars
  paths : ∀ path : FilePath, path.isKept = true → watched'.1.fs path = watched.1.fs path
  removals : ∀ key, removal key ∈ watched'.2 ↔ removal key ∈ watched.2
  succeeded : watched'.Succeeded → watched.Succeeded

theorem quiet_refl (watched : Watched C) : Quiet watched watched :=
  ⟨rfl, fun _ _ => rfl, fun _ => Iff.rfl, id⟩

theorem Quiet.trans {first second third : Watched C} (h : Quiet first second)
    (g : Quiet second third) : Quiet first third := by
  constructor
  · exact g.vars.trans h.vars
  · exact fun path hpath => (g.paths path hpath).trans (h.paths path hpath)
  · exact fun key => (g.removals key).trans (h.removals key)
  · exact fun hsucceeded => h.succeeded (g.succeeded hsucceeded)

theorem succeeded_concat {host : Host C} {log : List (Event Ans)} {event : Event Ans} :
    Watched.Succeeded (host, log ++ [event]) ↔
      (∀ earlier ∈ log, Succeeds earlier) ∧ Succeeds event := by
  unfold Watched.Succeeded
  simp only [List.forall_mem_append, List.forall_mem_singleton]

theorem Op.Calm.quiet {op : Op} (h : op.Calm) {watched : Watched C} {answer : Ans op}
    {host' : Host C} (hadvances : watched.1.Advances op answer host') :
    Quiet watched (host', watched.2 ++ [⟨op, answer⟩]) := by
  have hsucceeded : Watched.Succeeded (host', watched.2 ++ [⟨op, answer⟩]) →
      watched.Succeeded := fun hboth => (succeeded_concat.mp hboth).1
  have hremovals : (∀ key, (⟨op, answer⟩ : Event Ans) ≠ removal key) →
      ∀ key, removal key ∈ watched.2 ++ [⟨op, answer⟩] ↔ removal key ∈ watched.2 := by
    intro hne key
    rw [List.mem_append, List.mem_singleton, or_iff_left (hne key).symm]
  have hsame : host' = watched.1 → (∀ key, (⟨op, answer⟩ : Event Ans) ≠ removal key) →
      Quiet watched (host', watched.2 ++ [⟨op, answer⟩]) := by
    rintro rfl hne
    exact ⟨rfl, fun _ _ => rfl, hremovals hne, hsucceeded⟩
  cases op with
  | get | test condition path =>
      exact hsame hadvances.2 fun key heq => by cases heq
  | stat path | ask question | readServiceEnablement =>
      exact hsame hadvances fun key heq => by cases heq
  | assign assignment => exact h.elim
  | run command =>
      constructor
      · exact hadvances.1
      · exact fun path hpath => Command.leads_untouched hadvances.2 (h path hpath)
      · apply hremovals
        intro key heq
        cases heq
        have htouches := h (.managed key) rfl
        simp [Command.touches] at htouches
      · exact hsucceeded

variable {atRestart : Watched C → Prop} {watched : Watched C} {α : Type}

theorem watched_ask {post : α → Watched C → Prop} {op : Op} {next : Ans op → Sh α}
    (hpossible : ∀ command, op = .run command → command.Possible watched.1.fs)
    (hrestart : op = .run (.systemctl .restart) → atRestart watched)
    (h : ∀ answer host', watched.1.Advances op answer host' →
      Holds (watching atRestart) post (next answer) (host', watched.2 ++ [⟨op, answer⟩])) :
    Holds (watching atRestart) post (.ask op next) watched := by
  refine holds_solo_ask.mpr ⟨⟨hpossible, hrestart⟩, ?_⟩
  rintro answer ⟨host', log'⟩ ⟨hadvances, hlog⟩
  have hlog' : log' = watched.2 ++ [⟨op, answer⟩] := hlog
  rw [hlog']
  exact h answer host' hadvances

/-- A command that has come back. -/
structure Ran (watched : Watched C) (command : Command) (status : Bool)
    (watched' : Watched C) : Prop where
  vars : watched'.1.vars = watched.1.vars
  leads : command.Leads watched.1.fs status watched'.1.fs
  log : watched'.2 = watched.2 ++ [⟨.run command, status⟩]

/-- An operation that reads: the host stays. -/
structure Looked (watched : Watched C) (watched' : Watched C) : Prop where
  host : watched'.1 = watched.1
  quiet : Quiet watched watched'

theorem Ran.quiet {command : Command} {status : Bool} {watched' : Watched C}
    (h : Ran watched command status watched')
    (htouches : ∀ path : FilePath, path.isKept = true → command.touches path = false) :
    Quiet watched watched' := by
  have hcalm : Op.Calm (.run command) := htouches
  have hadvances : watched.1.Advances (.run command) status watched'.1 := ⟨h.vars, h.leads⟩
  have hquiet := hcalm.quiet hadvances
  rw [← h.log] at hquiet
  exact hquiet

theorem Ran.failed {command : Command} {watched' : Watched C}
    (h : Ran watched command false watched') : ¬ watched'.Succeeded := by
  intro hsucceeded
  unfold Watched.Succeeded at hsucceeded
  rw [h.log, List.forall_mem_append, List.forall_mem_singleton] at hsucceeded
  cases hsucceeded.2

theorem Ran.succeeded {command : Command} {status : Bool} {watched' : Watched C}
    (h : Ran watched command status watched') (hsucceeded : watched'.Succeeded) :
    watched.Succeeded ∧ status = true := by
  unfold Watched.Succeeded at hsucceeded
  rw [h.log, List.forall_mem_append, List.forall_mem_singleton] at hsucceeded
  exact ⟨hsucceeded.1, hsucceeded.2⟩

theorem watched_get {post : α → Watched C → Prop} {next : Variables → Sh α}
    (h : ∀ watched', Looked watched watched' →
      Holds (watching atRestart) post (next watched.1.vars) watched') :
    Holds (watching atRestart) post (get >>= next) watched := by
  apply watched_ask
  · intro command heq
    cases heq
  · intro heq
    cases heq
  · intro answer host' hadvances
    have hcalm : Op.Calm .get := trivial
    have hquiet := hcalm.quiet hadvances
    obtain ⟨rfl, rfl⟩ := hadvances
    exact h _ ⟨rfl, hquiet⟩

theorem watched_assign {post : α → Watched C → Prop} {assignment : Assignment}
    {next : Unit → Sh α}
    (h : ∀ log, (∀ key, removal key ∈ log ↔ removal key ∈ watched.2) →
      ((∀ event ∈ log, Succeeds event) → watched.Succeeded) →
      Holds (watching atRestart) post (next ())
        ({ watched.1 with vars := watched.1.vars.assign assignment }, log)) :
    Holds (watching atRestart) post (.ask (.assign assignment) next) watched := by
  apply watched_ask
  · intro command heq
    cases heq
  · intro heq
    cases heq
  · intro answer host' hadvances
    have hassign : host' = { watched.1 with vars := watched.1.vars.assign assignment } :=
      hadvances
    rw [hassign]
    apply h
    · intro key
      rw [List.mem_append, List.mem_singleton, or_iff_left]
      intro heq
      cases heq
    · intro hsucceeded
      exact (List.forall_mem_append.mp hsucceeded).1

theorem watched_test {post : α → Watched C → Prop} {condition : Test} {path : FilePath}
    {next : Bool → Sh α}
    (h : ∀ watched', Looked watched watched' →
      Holds (watching atRestart) post (next (watched.1.fs.test condition path)) watched') :
    Holds (watching atRestart) post (.ask (.test condition path) next) watched := by
  apply watched_ask
  · intro command heq
    cases heq
  · intro heq
    cases heq
  · intro answer host' hadvances
    have hcalm : Op.Calm (.test condition path) := trivial
    have hquiet := hcalm.quiet hadvances
    obtain ⟨rfl, rfl⟩ := hadvances
    exact h _ ⟨rfl, hquiet⟩

theorem watched_run {post : α → Watched C → Prop} {command : Command} {next : Bool → Sh α}
    (hpossible : command.Possible watched.1.fs)
    (hrestart : command = .systemctl .restart → atRestart watched)
    (h : ∀ status watched', Ran watched command status watched' →
      Holds (watching atRestart) post (next status) watched') :
    Holds (watching atRestart) post (.ask (.run command) next) watched := by
  apply watched_ask
  · intro other heq
    cases heq
    exact hpossible
  · intro heq
    cases heq
    exact hrestart rfl
  · intro status host' hadvances
    exact h status _ ⟨hadvances.1, hadvances.2, rfl⟩

/-- A program of operations apart leaves what is kept. -/
theorem watched_apart {p : Sh α} (huses : Uses Op.Apart p) :
    Holds (watching atRestart) (fun _ watched' => Quiet watched watched') p watched := by
  refine holds_of_uses ?_ ?_ huses (quiet_refl watched)
  · rintro one _ hquiet rfl
    exact hquiet
  · intro one op hquiet hapart
    have hcalm : op.Calm := by
      cases op with
      | run command =>
          cases command with
          | cp | mv => exact hapart.elim
          | systemctl verb =>
              cases verb with
              | restart => exact hapart.elim
              | _ => exact hapart
          | _ => exact hapart
      | _ => exact hapart
    refine ⟨⟨?_, ?_⟩, ?_⟩
    · rintro command rfl
      cases command with
      | cp | mv => exact hapart.elim
      | _ => trivial
    · rintro rfl
      exact hapart.elim
    · rintro answer ⟨host', log'⟩ ⟨hadvances, hlog⟩
      have hlog' : log' = one.2 ++ [⟨op, answer⟩] := hlog
      rw [hlog']
      exact hquiet.trans (hcalm.quiet hadvances)

/-! The blocks that leave what is kept. -/

theorem apart_run {command : Command} (h : Op.Apart (.run command)) :
    Uses Op.Apart (run command) :=
  ⟨h, fun _ => trivial⟩

theorem apart_ask (question : Question) : Uses Op.Apart (ask question) :=
  ⟨trivial, fun _ => trivial⟩

theorem apart_test (condition : Test) (path : FilePath) : Uses Op.Apart (test condition path) :=
  ⟨trivial, fun _ => trivial⟩

theorem ne_kept {path other : FilePath} (hother : other.isKept = false)
    (hpath : path.isKept = true) : (path == other) = false := by
  apply beq_eq_false_iff_ne.mpr
  rintro rfl
  rw [hpath] at hother
  cases hother

theorem apart_removeTemporary {held : Bool} {condition : Test} {path : FilePath}
    {remove : Command} (h : Op.Apart (.run remove)) :
    Uses Op.Apart (removeTemporary held condition path remove) := by
  unfold removeTemporary
  split
  · apply uses_bind (apart_test _ _)
    intro there
    split
    · apply uses_bind (apart_run h)
      intro _
      trivial
    · trivial
  · trivial

theorem apart_restoreMetadata {path : FilePath} (hpath : path.isKept = false)
    (metadata : Metadata) : Uses Op.Apart (restoreMetadata path metadata) := by
  unfold restoreMetadata
  apply uses_bind
  · exact apart_run fun _ => ne_kept hpath
  · intro owned
    apply uses_bind
    · exact apart_run fun _ => ne_kept hpath
    · intro moded
      trivial

theorem apart_restoreUnitOverrideDir (vars : Variables) :
    Uses Op.Apart (restoreUnitOverrideDir vars) := by
  unfold restoreUnitOverrideDir
  split
  · apply uses_bind
    · exact apart_run fun _ => ne_kept rfl
    · intro made
      apply uses_bind (apart_restoreMetadata rfl _)
      intro restored
      trivial
  · apply uses_bind
    · exact apart_run fun _ => ne_kept rfl
    · intro _
      trivial

theorem apart_restoreConfigDir (vars : Variables) : Uses Op.Apart (restoreConfigDir vars) := by
  unfold restoreConfigDir
  split
  · exact apart_restoreMetadata rfl _
  · apply uses_bind (apart_test _ _)
    intro there
    split
    · exact apart_run fun _ => ne_kept rfl
    · trivial

theorem apart_restoreStateDir (vars : Variables) : Uses Op.Apart (restoreStateDir vars) := by
  unfold restoreStateDir
  split
  · apply uses_bind (apart_restoreMetadata rfl _)
    intro restored
    trivial
  · apply uses_bind (apart_test _ _)
    intro there
    split
    · apply uses_bind
      · exact apart_run fun _ => ne_kept rfl
      · intro removed
        split <;> trivial
    · trivial

theorem apart_removeIdentity {hadExisting retain : Bool} {known : Question} {validate : Helper}
    {remove : Command} (hvalidate : Op.Apart (.run (.helper validate)))
    (hremove : Op.Apart (.run remove)) :
    Uses Op.Apart (removeIdentity hadExisting retain known validate remove) := by
  unfold removeIdentity
  split
  · trivial
  · apply uses_bind (apart_ask _)
    intro there
    split
    · apply uses_bind (apart_run hvalidate)
      intro valid
      split
      · exact apart_run hremove
      · trivial
    · trivial

theorem apart_terminateBuilds (vars : Variables) : Uses Op.Apart (terminateBuilds vars) := by
  unfold terminateBuilds
  split
  · apply uses_bind
    · exact apart_run fun _ _ => rfl
    · intro _
      trivial
  · trivial

/-- What `restore_snapshot` does to one path, and whether it says that it has. -/
structure Restores (found : FileSystem C) (key : Managed) (watched : Watched C) (ok : Bool)
    (watched' : Watched C) : Prop where
  vars : watched'.1.vars = watched.1.vars
  paths : ∀ path : FilePath, path.isKept = true → path ≠ .managed key →
    watched'.1.fs path = watched.1.fs path
  removals : ∀ other, other ≠ key → (removal other ∈ watched'.2 ↔ removal other ∈ watched.2)
  /-- An absent path is absent again unless its removal fails. -/
  absent : found (.managed key) = none → removal key ∉ watched.2 →
    (watched'.1.fs (.managed key) = none ↔
      watched.1.fs (.managed key) = none ∨ removal key ∈ watched'.2)
  present : (found (.managed key)).isSome = true → ok = true →
    watched'.1.fs (.managed key) = found (.managed key)
  succeeded : watched'.Succeeded → watched.Succeeded ∧ ok = true ∧
    (found (.managed key) = none → watched'.1.fs (.managed key) = none)

variable {found : FileSystem C}

/-- A path that is not restored is as it was. -/
theorem Quiet.restores_failed {key : Managed} {watched' : Watched C}
    (h : Quiet watched watched') (hfound : (found (.managed key)).isSome = true)
    (hfails : ¬ watched'.Succeeded) : Restores found key watched false watched' where
  vars := h.vars
  paths := fun path hpath _ => h.paths path hpath
  removals := fun other _ => h.removals other
  absent := by
    intro habsent
    rw [habsent] at hfound
    cases hfound
  present := fun _ hok => by cases hok
  succeeded := fun hsucceeded => absurd hsucceeded hfails

theorem restore_touches (key : Managed) :
    ∀ path : FilePath, path.isKept = true → (path == .restore key) = false :=
  fun _ => ne_kept rfl

theorem directory_unkept (key : Managed) : key.directory.isKept = false := by
  cases key <;> rfl

theorem lands_over {old : Option (Node C)} {node landed : Node C}
    (h : Lands true old node landed) : landed = node := by
  match h with
  | .free _ | .over _ _ => rfl
  | .into _ _ _ htarget | .through _ _ htarget => cases htarget

/-- An event that removes nothing adds no removal. -/
theorem removals_concat {log : List (Event Ans)} {event : Event Ans} {key : Managed}
    (hne : removal key ≠ event) : removal key ∈ log ++ [event] ↔ removal key ∈ log := by
  rw [List.mem_append, List.mem_singleton, or_iff_left hne]

/-- The removal of a path that was absent. -/
theorem restores_absent {key : Managed} {first watched' : Watched C} {status : Bool}
    (hquiet : Quiet first watched) (hfound : found (.managed key) = none)
    (hran : Ran watched (.rm (.managed key)) status watched') :
    Restores found key first true watched' where
  vars := hran.vars.trans hquiet.vars
  paths := by
    intro path hpath hne
    have huntouched : Command.touches (.rm (.managed key)) path = false := by
      simpa [Command.touches] using hne
    exact (Command.leads_untouched hran.leads huntouched).trans (hquiet.paths path hpath)
  removals := by
    intro other hne
    rw [← hquiet.removals other, hran.log]
    apply removals_concat
    intro heq
    simp [removal] at heq
    exact hne heq.1
  absent := by
    intro _ hnew
    have hbefore := hquiet.paths (.managed key) rfl
    rw [hran.log, ← hbefore]
    cases status with
    | true =>
        have hgone : watched'.1.fs = Function.update watched.1.fs (.managed key) none :=
          hran.leads
        rw [hgone]
        simp [removal]
    | false =>
        have hsame : watched'.1.fs = watched.1.fs := hran.leads
        have hlog : removal key ∉ watched.2 := fun member =>
          hnew ((hquiet.removals key).mp member)
        rw [hsame, removals_concat (by simp [removal])]
        simp only [hlog, or_false]
  present := by
    intro hsome
    rw [hfound] at hsome
    cases hsome
  succeeded := by
    intro hsucceeded
    obtain ⟨hbefore, rfl⟩ := hran.succeeded hsucceeded
    refine ⟨hquiet.succeeded hbefore, rfl, fun _ => ?_⟩
    have hgone : watched'.1.fs = Function.update watched.1.fs (.managed key) none := hran.leads
    rw [hgone]
    exact Function.update_self _ _ _

/-- The copy of the snapshot in the place of a path. -/
theorem restores_present {key : Managed} {first watched' : Watched C}
    (hquiet : Quiet first watched) (hfound : (found (.managed key)).isSome = true)
    (hcopy : watched.1.fs (.restore key) = found (.managed key))
    (hran : Ran watched (.mv (.restore key) (.managed key) true) true watched') :
    Restores found key first true watched' where
  vars := hran.vars.trans hquiet.vars
  paths := by
    intro path hpath hne
    have huntouched : Command.touches (.mv (.restore key) (.managed key) true) path = false := by
      have hrestore := restore_touches key path hpath
      simp only [Command.touches, hrestore, Bool.false_or, beq_eq_false_iff_ne]
      exact hne
    exact (Command.leads_untouched hran.leads huntouched).trans (hquiet.paths path hpath)
  removals := by
    intro other _
    rw [← hquiet.removals other, hran.log]
    exact removals_concat (by simp [removal])
  absent := by
    intro habsent
    rw [habsent] at hfound
    cases hfound
  present := by
    intro _ _
    obtain ⟨node, landed, hnode, hlands, hfs⟩ := hran.leads
    rw [hfs, lands_over hlands, ← hcopy, hnode]
    exact Function.update_self _ _ _
  succeeded := by
    intro hsucceeded
    refine ⟨hquiet.succeeded (hran.succeeded hsucceeded).1, rfl, fun habsent => ?_⟩
    rw [habsent] at hfound
    cases hfound

/-- A move that fails moves nothing. -/
theorem Ran.mv_failed {source destination : FilePath} {noTargetDirectory : Bool}
    {watched' : Watched C}
    (h : Ran watched (.mv source destination noTargetDirectory) false watched') :
    Quiet watched watched' where
  vars := h.vars
  paths := by
    intro path _
    have hsame : watched'.1.fs = watched.1.fs := h.leads
    rw [hsame]
  removals := by
    intro key
    rw [h.log]
    exact removals_concat (by simp [removal])
  succeeded := fun hsucceeded => (h.succeeded hsucceeded).1

/-- `restore_snapshot` copies a snapshot back or removes a file that was not there before, and
says that it has. Only the status of the removal is lost, and that is noted in what has come up
unnoticed. -/
theorem watched_restoreSnapshot (key : Managed) (h : Snapshotted found watched.1.fs) :
    Holds (watching atRestart) (Restores found key watched) (restoreSnapshot key) watched := by
  have htouches := restore_touches key
  have hstops : ∀ {one : Watched C}, Quiet watched one → ¬ one.Succeeded →
      (found (.managed key)).isSome = true →
      Holds (watching atRestart) (Restores found key watched) (.done false) one := by
    intro one hquiet hfails hfound
    exact holds_solo_done.mpr (hquiet.restores_failed hfound hfails)
  unfold restoreSnapshot
  refine watched_test fun w₀ hlooked => ?_
  rw [h.present key]
  have hquiet₀ := hlooked.quiet
  cases hfound : (found (.managed key)).isSome with
  | false =>
      have hnone : found (.managed key) = none := by simpa using hfound
      refine watched_run trivial (fun heq => by cases heq) fun removed w₁ hremoved => ?_
      exact holds_solo_done.mpr (restores_absent hquiet₀ hnone hremoved)
  | true =>
      refine watched_run trivial (fun heq => by cases heq) fun made w₁ hmade => ?_
      have hquiet₁ := hquiet₀.trans (hmade.quiet fun path => ne_kept (directory_unkept key))
      cases made with
      | false => exact hstops hquiet₁ hmade.failed hfound
      | true =>
      refine watched_run trivial (fun heq => by cases heq) fun temporary w₂ htemporary => ?_
      have hquiet₂ := hquiet₁.trans (htemporary.quiet htouches)
      cases temporary with
      | false => exact hstops hquiet₂ htemporary.failed hfound
      | true =>
      refine watched_run trivial (fun heq => by cases heq) fun removed w₃ hremoved => ?_
      have hquiet₃ := hquiet₂.trans (hremoved.quiet htouches)
      cases removed with
      | false => exact hstops hquiet₃ hremoved.failed hfound
      | true =>
      have hsnapshot : w₃.1.fs (.snapshot key) = found (.managed key) :=
        (hquiet₃.paths (.snapshot key) rfl).trans (h.snapshot key)
      have hthere : (w₃.1.fs (.snapshot key)).isSome = true := by
        rw [hsnapshot]
        exact hfound
      refine watched_run hthere (fun heq => by cases heq) fun copied w₄ hcopied => ?_
      have hquiet₄ := hquiet₃.trans (hcopied.quiet htouches)
      cases copied with
      | false =>
          refine watched_run trivial (fun heq => by cases heq) fun cleaned w₅ hcleaned => ?_
          have hlast := hcleaned.quiet htouches
          exact hstops (hquiet₄.trans hlast)
            (fun hsucceeded => hcopied.failed (hlast.succeeded hsucceeded)) hfound
      | true =>
      have hcopy : w₄.1.fs (.restore key) = found (.managed key) := by
        rw [hcopied.leads.2, Function.update_self]
        exact hsnapshot
      have hthere' : (w₄.1.fs (.restore key)).isSome = true := by
        rw [hcopy]
        exact hfound
      refine watched_run hthere' (fun heq => by cases heq) fun moved w₅ hmoved => ?_
      cases moved with
      | true => exact holds_solo_done.mpr (restores_present hquiet₄ hfound hcopy hmoved)
      | false =>
          refine watched_run trivial (fun heq => by cases heq) fun cleaned w₆ hcleaned => ?_
          have hlast := hcleaned.quiet htouches
          exact hstops ((hquiet₄.trans hmoved.mv_failed).trans hlast)
            (fun hsucceeded => hmoved.failed (hlast.succeeded hsucceeded)) hfound

end

end Cirrusync.Installer
