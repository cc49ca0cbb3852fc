import Cirrusync.Installer.Rollback

/-!
A host that answers: every command does what it can, unless it is one that fails, and
the questions are answered as given.
-/

namespace Cirrusync.Installer

open Effect

section

variable {C : Type}

/-- What is at the destination of an `mv`. -/
def land (noTargetDirectory : Bool) (old : Option (Node C)) (node : Node C) : Node C :=
  match old with
  | none => node
  | some there => if noTargetDirectory || !there.passes .directory then node else there

/-- Nothing is at a path or in it. -/
def FileSystem.without (fs : FileSystem C) (path : FilePath) : FileSystem C :=
  fun other => if path.holds other then none else fs other

theorem FileSystem.without_inside {fs : FileSystem C} {path other : FilePath}
    (h : path.holds other = true) : fs.without path other = none :=
  if_pos h

theorem FileSystem.without_outside {fs : FileSystem C} {path other : FilePath}
    (h : path.holds other = false) : fs.without path other = fs other := by
  unfold without
  rw [h]
  rfl

theorem FilePath.holds_self (path : FilePath) : path.holds path = true := by
  cases path <;> simp [holds]

section

variable [Inhabited C]

/-- What a command does that succeeds, where it finds what it needs. -/
def Command.perform (fs : FileSystem C) : Command → Option (FileSystem C)
  | .mktemp path | .write path => some (Function.update fs path (some (.file default)))
  | .mktempDirectory path =>
      some (Function.update (fs.without path) path (some (.directory default)))
  | .cp source destination => (fs source).map fun node =>
      Function.update fs destination (some node)
  | .mv source destination noTargetDirectory => (fs source).map fun node =>
      Function.update (Function.update fs source none) destination
        (some (land noTargetDirectory (fs destination) node))
  | .rm path => some (Function.update fs path none)
  | .rmTree path => some (fs.without path)
  | _ => some fs

end

/-- How one run of the installer goes: what is answered and what fails. -/
structure Circumstances where
  answers : Question → Bool
  fails : Command → Bool

section

variable [Inhabited C]

/-- A command that cannot do its work or is one that fails does nothing. -/
def Circumstances.attempt (around : Circumstances) (fs : FileSystem C) (command : Command) :
    Bool × FileSystem C :=
  match command.perform fs, around.fails command with
  | some fs', false => (true, fs')
  | _, _ => (false, fs)

def Circumstances.respond (around : Circumstances) : Responder Ans (Host C) :=
  fun host op => match op with
  | .get => (host.vars, host)
  | .assign assignment => ((), { host with vars := host.vars.assign assignment })
  | .test condition path => (host.fs.test condition path, host)
  | .stat _ => (⟨"0:0", "755"⟩, host)
  | .readServiceEnablement => (some "enabled", host)
  | .ask question => (around.answers question, host)
  | .run command =>
      ((around.attempt host.fs command).1, ⟨(around.attempt host.fs command).2, host.vars⟩)

end

theorem lands_land (noTargetDirectory : Bool) (old : Option (Node C)) (node : Node C) :
    Lands noTargetDirectory old node (land noTargetDirectory old node) := by
  cases old with
  | none => exact .free node
  | some there =>
      cases noTargetDirectory with
      | true => exact .over node (.inl rfl)
      | false =>
          cases there with
          | file content => exact .over node (.inr rfl)
          | directory content => exact .into content content node rfl
          | link target found =>
              cases found with
              | none => exact .over node (.inr rfl)
              | some kind =>
                  cases kind with
                  | file => exact .over node (.inr rfl)
                  | directory => exact .through target node rfl

/-- A command that fails may have done nothing. -/
theorem Command.leads_failed (fs : FileSystem C) (command : Command) :
    command.Leads fs false fs := by
  cases command with
  | helper function => cases function <;> first | rfl | exact fun _ _ => rfl
  | _ => first | rfl | exact fun _ _ => rfl

variable [Inhabited C]

/-- What a command does when it succeeds is among the things that it may lead to. The cases are
those of the commands. -/
theorem Command.perform_leads {fs fs' : FileSystem C} {command : Command}
    (h : command.perform fs = some fs') : command.Leads fs true fs' := by
  cases command with
  | mkdir path | rmdir path | chown owner path | chmod mode path | setfacl path =>
      cases h
      exact fun _ _ => rfl
  | mktemp path | write path =>
      cases h
      exact ⟨default, rfl⟩
  | mktempDirectory path =>
      cases h
      refine ⟨?_, ⟨default, Function.update_self _ _ _⟩, ?_⟩
      · intro other hout
        have hne : other ≠ path := by
          rintro rfl
          rw [FilePath.holds_self] at hout
          cases hout
        rw [Function.update_of_ne hne]
        exact FileSystem.without_outside hout
      · intro other hin hne
        rw [Function.update_of_ne hne]
        exact FileSystem.without_inside hin
  | cp source destination =>
      obtain ⟨node, hnode, rfl⟩ := Option.map_eq_some_iff.mp h
      change (fs source).isSome = true ∧ _ = Function.update fs destination (fs source)
      rw [hnode]
      exact ⟨rfl, rfl⟩
  | mv source destination noTargetDirectory =>
      obtain ⟨node, hnode, rfl⟩ := Option.map_eq_some_iff.mp h
      exact ⟨node, _, hnode, lands_land _ _ _, rfl⟩
  | rm path =>
      cases h
      rfl
  | rmTree path =>
      cases h
      constructor
      · exact fun _ hout => FileSystem.without_outside hout
      · exact fun _ hin => FileSystem.without_inside hin
  | systemctl verb | userdel | groupdel =>
      cases h
      rfl
  | helper function =>
      cases h
      cases function <;> first | rfl | exact fun _ _ => rfl

theorem Circumstances.attempt_leads (around : Circumstances) (fs : FileSystem C)
    (command : Command) :
    command.Leads fs (around.attempt fs command).1 (around.attempt fs command).2 := by
  unfold attempt
  split
  · next hperform _ => exact Command.perform_leads hperform
  · exact command.leads_failed fs

/-- The host does what a host may do. -/
theorem Circumstances.respond_advances (around : Circumstances) (host : Host C) (op : Op) :
    host.Advances op (around.respond host op).1 (around.respond host op).2 := by
  cases op with
  | get | test condition path => exact ⟨rfl, rfl⟩
  | assign assignment => rfl
  | stat path | readServiceEnablement | ask question => rfl
  | run command => exact ⟨rfl, around.attempt_leads host.fs command⟩

/-- Only what a command copies or moves can be missing. -/
theorem Command.perform_isSome {fs : FileSystem C} {command : Command}
    (h : command.Possible fs) : (command.perform fs).isSome = true := by
  cases command with
  | cp source destination | mv source destination noTargetDirectory =>
      have hthere : (fs source).isSome = true := h
      simpa [perform] using hthere
  | _ => rfl

/-- Without failures, what finds what it needs succeeds. -/
theorem Circumstances.attempt_succeeds {around : Circumstances} {fs : FileSystem C}
    {command : Command} (hfails : around.fails command = false) (h : command.Possible fs) :
    (around.attempt fs command).1 = true := by
  obtain ⟨fs', hfs⟩ := Option.isSome_iff_exists.mp (Command.perform_isSome h)
  unfold attempt
  rw [hfs, hfails]

end

end Cirrusync.Installer
