import Cirrusync.ConfigLoadingVerdict
import Cirrusync.Configure.Agreement

/-!
What the service reads when it starts, the configuration and then the API token: where it
comes from if other users interfere, and when it is accepted if nobody does.
-/

namespace Cirrusync.ConfigLoading

open Effect Files FileSystem Text

theorem loadInputs_onlyReads [Externals] (loads : List Char → Option TomlDoc.Table)
    (environment : Option (Option String)) (configPath : String) :
    OnlyReads (loadInputs loads environment configPath) := by
  refine (load_onlyReads loads configPath).bind fun config => ?_
  have htoken : OnlyReads (loadApiToken environment config) := by
    unfold loadApiToken
    split
    · exact onlyReads_liftExcept _
    · exact onlyReads_throw _
    · exact loadTokenFile_onlyReads _
  exact htoken.bind fun _ => onlyReads_pure _

/-! What is accepted was there before. -/

section

variable {ι : Type} {a : Account} {i : ι} {w₀ w w' : System ι} {trace : List (Event Answer)}
  {file : Nat} {path token : String}

theorem TokenFileAt.kept (h : TokenFileAt a w₀ w.fs path token) (hroot : a.trusted 0)
    (hkeeps : w.fs.Keeps a.trusted a.transient w'.fs) : TokenFileAt a w₀ w'.fs path token := by
  obtain ⟨file, ⟨⟨data, hdata, hmetadata⟩, text, hcontents, hsecret⟩, hnamed⟩ := h
  have howner : a.trusted data.uid := by rwa [hmetadata.owner]
  obtain ⟨now, hnow, hsame⟩ := hkeeps.keeps file data hdata
  refine ⟨file, ⟨⟨now, hnow, (TokenMetadata.kept hsame howner).mpr hmetadata⟩, text, ?_, hsecret⟩,
    hnamed⟩
  rw [hkeeps.writes file data hdata howner hmetadata.closed, hcontents]

theorem TokenFileAt.came_from (h : TokenFileAt a w₀ w'.fs path token)
    (hroot : a.trusted 0) (hbeset : Beset a i w trace w')
    (hreads : ∀ event ∈ trace, event.op.isReading = true) : TokenFileAt a w₀ w.fs path token := by
  obtain ⟨file, ⟨⟨data', hdata', hmetadata⟩, text, hcontents, hsecret⟩, hnamed⟩ := h
  obtain ⟨data, hdata, hkeeps, hsame⟩ :=
    hbeset.came_from hreads hdata' (by rwa [hmetadata.owner])
  have howner : a.trusted data.uid := by
    rw [← hkeeps.uid_eq, hmetadata.owner]
    exact hroot
  have hbefore := (TokenMetadata.kept hkeeps howner).mp hmetadata
  exact ⟨file, ⟨⟨data, hdata, hbefore⟩, text, (hsame hbefore.closed).symm.trans hcontents,
    hsecret⟩, hnamed⟩

variable {config : Config} {environment : Option (Option String)} {configPath : String}

/-- Where an accepted token has come from, the environment or a file. -/
def TokenFrom (a : Account) (w : System ι) (fs : FileSystem) (config : Config) (token : String) :
    Option (Option String) → Prop
  | some (some value) => secretFromText value .environment = .ok token
  | some none => False
  | none => TokenFileAt a w fs config.cloudflare.apiTokenFile token

theorem loadApiToken_accepts (hroot : a.trusted 0) :
    Yields a i w (loadApiToken environment config) fun token w' =>
      TokenFrom a w w'.fs config token environment := by
  unfold loadApiToken
  rcases environment with _ | _ | value
  · exact loadTokenFile_accepts hroot
  · exact yields_throw
  · exact yields_liftExcept fun token htoken _ _ => htoken

variable [Externals] {loads : List Char → Option TomlDoc.Table}

theorem SettingsFileAt.kept (h : SettingsFileAt loads a w₀ w.fs path config)
    (hroot : a.trusted 0) (huser : a.trusted a.uid)
    (hkeeps : w.fs.Keeps a.trusted a.transient w'.fs) :
    SettingsFileAt loads a w₀ w'.fs path config := by
  obtain ⟨file, ⟨⟨data, hdata, hmetadata⟩, text, hcontents, hsettings⟩, hnamed⟩ := h
  have howner := hmetadata.trusted hroot huser
  obtain ⟨now, hnow, hsame⟩ := hkeeps.keeps file data hdata
  refine ⟨file, ⟨⟨now, hnow, (ConfigMetadata.kept hsame howner).mpr hmetadata⟩, text, ?_,
    hsettings⟩, hnamed⟩
  rw [hkeeps.writes file data hdata howner hmetadata.closed, hcontents]

theorem SettingsFileAt.came_from (h : SettingsFileAt loads a w₀ w'.fs path config)
    (hroot : a.trusted 0) (huser : a.trusted a.uid) (hbeset : Beset a i w trace w')
    (hreads : ∀ event ∈ trace, event.op.isReading = true) :
    SettingsFileAt loads a w₀ w.fs path config := by
  obtain ⟨file, ⟨⟨data', hdata', hmetadata⟩, text, hcontents, hsettings⟩, hnamed⟩ := h
  have howner' := hmetadata.trusted hroot huser
  obtain ⟨data, hdata, hkeeps, hsame⟩ := hbeset.came_from hreads hdata' howner'
  have howner : a.trusted data.uid := by rwa [hkeeps.uid_eq] at howner'
  have hbefore := (ConfigMetadata.kept hkeeps howner).mp hmetadata
  exact ⟨file, ⟨⟨data, hdata, hbefore⟩, text, (hsame hbefore.closed).symm.trans hcontents,
    hsettings⟩, hnamed⟩

/-- Where accepted settings and an accepted token have come from. A configuration may belong
to the user of the process. -/
structure InputsFrom (loads : List Char → Option TomlDoc.Table) (a : Account) (w : System ι)
    (fs : FileSystem) (environment : Option (Option String)) (configPath : String)
    (inputs : Config × String) : Prop where
  settings : a.trusted a.uid → SettingsFileAt loads a w fs configPath inputs.1
  token : TokenFrom a w fs inputs.1 inputs.2 environment

theorem loadInputs_accepts (hroot : a.trusted 0) :
    Yields a i w (loadInputs loads environment configPath) fun inputs w' =>
      InputsFrom loads a w w'.fs environment configPath inputs := by
  unfold loadInputs
  refine yields_bind (load_accepts hroot) fun config w₁ h₁ hsettings => ?_
  refine yields_bind (loadApiToken_accepts hroot) fun token w₂ h₂ hfrom =>
    yields_pure fun w₃ h₃ => ⟨?_, ?_⟩
  · exact fun huser => (hsettings huser).kept hroot huser (h₂.keeps.trans h₃.keeps)
  · rcases environment with _ | _ | value
    · obtain ⟨file, haccepted, hnamed⟩ := TokenFileAt.kept hfrom hroot h₃.keeps
      refine ⟨file, haccepted, fun other hleads hlasting => ?_⟩
      exact hnamed other (hleads.onward (.inr hlasting) h₁) hlasting
    · exact hfrom
    · exact hfrom

end

/-! What is accepted on a faultless host. -/

section

variable {ι : Type} {a : Account} {i : ι} {w : System ι}

/-- What is accepted as the token. -/
def TokenIs (a : Account) (fs : FileSystem) (config : Config) (token : String) :
    Option (Option String) → Prop
  | some (some value) => secretFromText value .environment = .ok token
  | some none => False
  | none => TokenAt a fs config.cloudflare.apiTokenFile token

theorem loadApiToken_decides {environment : Option (Option String)} {config : Config} :
    Decides a i w (·.fs = w.fs) (loadApiToken environment config) fun token =>
      TokenIs a w.fs config token environment := by
  unfold loadApiToken
  rcases environment with _ | _ | value
  · exact loadTokenFile_decides
  · exact decides_throw rfl fun _ h => h
  · exact decides_liftExcept rfl

variable [Externals] {loads : List Char → Option TomlDoc.Table}
  {environment : Option (Option String)} {configPath : String}

theorem loadInputs_decides :
    Decides a i w (·.fs = w.fs) (loadInputs loads environment configPath) fun inputs =>
      SettingsAt loads a w.fs configPath inputs.1 ∧
        TokenIs a w.fs inputs.1 inputs.2 environment := by
  unfold loadInputs
  refine load_decides.bind ?_ ?_
  · intro config w₁ hfs hsettings
    have hconfig : ∀ other, SettingsAt loads a w.fs configPath other → other = config :=
      fun other hother => (load_decides (i := i)).unique hother hsettings
    have htoken := @loadApiToken_decides ι a i w₁ environment config
    rw [hfs] at htoken
    refine htoken.bind ?_ ?_
    · intro token w₂ hfs₂ htaken
      refine decides_pure hfs₂ fun inputs => ⟨?_, ?_⟩
      · rintro ⟨hsettings', htaken'⟩
        have hsame := hconfig inputs.1 hsettings'
        rw [hsame, ← hfs] at htaken'
        rw [← hfs] at htaken
        exact Prod.ext hsame ((loadApiToken_decides (i := i)).unique htaken' htaken)
      · rintro rfl
        exact ⟨hsettings, htaken⟩
    · refine fun hnone w₂ hfs₂ => ⟨hfs₂, ?_⟩
      rintro inputs ⟨hsettings', htaken⟩
      rw [hconfig inputs.1 hsettings'] at htaken
      exact hnone inputs.2 htaken
  · exact fun hnone w₁ hfs => ⟨hfs, fun inputs h => hnone inputs.1 h.1⟩

end

/-- The files of an installed service. -/
def installedDisk : FileSystem where
  top := 0
  here := 0
  count := 5
  metadata := fun file =>
    if file < 3 then some ⟨.directory, 0, 0, 0o755, 2, false⟩
    else if file < 5 then some ⟨.regular, 0, 998, 0o640, 1, false⟩
    else none
  contents := fun file =>
    if file = 3 then bytes "secret\n"
    else if file = 4 then bytes (.ofList Configure.exampleText)
    else []
  entry := fun dir name =>
    if dir = 0 ∧ name = "etc" then some 1
    else if dir = 1 ∧ name = "cirrusync" then some 2
    else if dir = 2 ∧ name = "token" then some 3
    else if dir = 2 ∧ name = "config.toml" then some 4
    else none
  leads := fun _ => none
  rooted := rfl
  seated := rfl
  unmade := by
    intro file hfile
    rw [if_neg (by omega), if_neg (by omega)]
  named := by
    intro dir name file hentry
    have hfile : file < 5 := by grind
    by_cases hlow : file < 3 <;> simp [hfile, hlow]

def installedHost : System Unit where
  fs := installedDisk
  maker := fun _ => none
  opened := fun _ => none
  locks := fun _ => none
  next := 0
  made := fun _ _ h => nomatch h
  unopened := fun _ _ => rfl
  locked := fun _ _ h => nomatch h

def service : Account := ⟨999, 998, fun user => user = 0 ∨ user = 999, fun _ => False⟩

def installedPath : String := "/etc/cirrusync/config.toml"

def installedSettings : Config :=
  Configure.settingsOf Configure.exampleInput.tokenPath 300 Configure.exampleAnswers "example.com"
    "home.example.com"

attribute [local instance] exampleExternals

theorem installed_reads :
    Config.fromToml TomlDoc.readTable (String.ofList Configure.exampleText).toList =
      .ok installedSettings := by
  rw [String.toList_ofList]
  decide +kernel

theorem installed_settings :
    SettingsAt TomlDoc.readTable service installedDisk installedPath installedSettings := by
  have hfind : installedDisk.find (route installedPath) = some 4 := by decide
  have hcontents : installedDisk.contents 4 = bytes (.ofList Configure.exampleText) := by
    simp [installedDisk]
  have hmetadata : ConfigMetadata service.uid ⟨.regular, 0, 998, 0o640, 1, false⟩ :=
    ⟨rfl, rfl, .inl rfl⟩
  exact ⟨4, hfind, ⟨_, rfl, hmetadata⟩, _, hcontents, installed_reads⟩

theorem installed_token :
    TokenIs service installedDisk installedSettings "secret" none := by
  have hfind : installedDisk.find (route installedSettings.cloudflare.apiTokenFile) =
      some 3 := by decide +kernel
  have hmetadata : TokenMetadata service.gid ⟨.regular, 0, 998, 0o640, 1, false⟩ :=
    ⟨rfl, rfl, by decide, rfl, fun _ => rfl, rfl⟩
  exact ⟨3, hfind, ⟨_, rfl, hmetadata⟩, "secret\n", rfl, by decide⟩

theorem installed_run : ∃ trace w',
    Runs (loadInputs TomlDoc.readTable none installedPath).run trace
      (.ok (installedSettings, "secret")) ∧
      Path (faultless service ()) installedHost trace w' := by
  have hdecides : Decides service () installedHost (·.fs = installedDisk)
      (loadInputs TomlDoc.readTable none installedPath) _ := loadInputs_decides
  have hright : SettingsAt TomlDoc.readTable service installedHost.fs installedPath
      (installedSettings, "secret").1 ∧ TokenIs service installedHost.fs
        (installedSettings, "secret").1 (installedSettings, "secret").2 none :=
    ⟨installed_settings, installed_token⟩
  obtain ⟨trace, w', hrun, hpath, -⟩ := hdecides.exists_run hright
  exact ⟨trace, w', hrun, hpath⟩

/-! Another user at work while the inputs are loaded. -/

/-- The same files, but for the settings, which are in a directory that everybody may write
to. -/
def sharedDisk : FileSystem :=
  { installedDisk with
    count := 6
    metadata := Function.update installedDisk.metadata 5 (some ⟨.directory, 0, 0, 0o777, 2, false⟩)
    entry := fun dir name =>
      if dir = 0 ∧ name = "srv" then some 5
      else if dir = 5 ∧ name = "config.toml" then some 4
      else if dir = 2 ∧ name = "config.toml" then none
      else installedDisk.entry dir name
    rooted := rfl
    seated := rfl
    unmade := by
      intro file hfile
      rw [Function.update_of_ne (by omega)]
      exact installedDisk.unmade file (Nat.le_of_succ_le hfile)
    named := by
      intro dir name file hentry
      by_cases hfile : file = 5
      · rw [hfile, Function.update_self]
        rfl
      · rw [Function.update_of_ne hfile]
        split at hentry
        · exact absurd (Option.some.inj hentry).symm hfile
        · split at hentry
          · cases hentry
            rfl
          · split at hentry
            · cases hentry
            · exact installedDisk.named dir name file hentry }

def sharedHost : System Unit :=
  { installedHost with
    fs := sharedDisk
    made := fun _ _ h => nomatch h }

def sharedPath : String := "/srv/config.toml"

/-- The shared files when another user has put a file of his own in the place of the
settings. -/
def replacedDisk : FileSystem :=
  (sharedDisk.unlink 5 "config.toml").make 5 "config.toml" ⟨.regular, 1001, 1001, 0o644, 1, false⟩

theorem shared_alterable {fs : FileSystem}
    (h : fs.metadata 5 = some ⟨.directory, 0, 0, 0o777, 2, false⟩) :
    fs.Alterable service.trusted 5 "config.toml" := by
  intro data hdata _
  obtain rfl := Option.some.inj (h.symm.trans hdata)
  exact .inr ⟨by decide, fun hsticky => absurd hsticky (by decide)⟩

theorem shared_settings :
    SettingsAt TomlDoc.readTable service sharedDisk sharedPath installedSettings := by
  have hfind : sharedDisk.find (route sharedPath) = some 4 := by decide
  have hcontents : sharedDisk.contents 4 = bytes (.ofList Configure.exampleText) := by
    simp [sharedDisk, installedDisk]
  have hmetadata : ConfigMetadata service.uid ⟨.regular, 0, 998, 0o640, 1, false⟩ :=
    ⟨rfl, rfl, .inl rfl⟩
  exact ⟨4, hfind, ⟨_, rfl, hmetadata⟩, _, hcontents, installed_reads⟩

theorem replaced_token : TokenIs service replacedDisk installedSettings "secret" none := by
  have hfind : replacedDisk.find (route installedSettings.cloudflare.apiTokenFile) =
      some 3 := by decide +kernel
  have hmetadata : TokenMetadata service.gid ⟨.regular, 0, 998, 0o640, 1, false⟩ :=
    ⟨rfl, rfl, by decide, rfl, fun _ => rfl, rfl⟩
  exact ⟨3, hfind, ⟨_, rfl, hmetadata⟩, "secret\n", rfl, by decide⟩

/-- When the settings have been read, and before the token is, another user takes the file of
the settings away and puts one of his own in its place. -/
theorem shared_run : ∃ trace w',
    Runs (loadInputs TomlDoc.readTable none sharedPath).run trace
      (.ok (installedSettings, "secret")) ∧
      Beset service () sharedHost trace w' ∧ w'.fs = replacedDisk := by
  have hload : Decides service () sharedHost (·.fs = sharedDisk)
      (load TomlDoc.readTable sharedPath) _ := load_decides
  obtain ⟨before, w₁, hloads, hread, hfs₁⟩ := hload.exists_run shared_settings
  have htaken : w₁.fs.Tampered service.trusted (sharedDisk.unlink 5 "config.toml") := by
    rw [hfs₁]
    exact unlink_tampered (shared_alterable rfl)
  have hput : (sharedDisk.unlink 5 "config.toml").Tampered service.trusted replacedDisk :=
    make_tampered (by simp [service]) (shared_alterable rfl)
  have hsecret : Decides service ()
      ((w₁.mount _ fun _ => htaken.isSome).mount replacedDisk fun _ => hput.isSome)
      (·.fs = replacedDisk) (loadApiToken none installedSettings) _ := loadApiToken_decides
  obtain ⟨after, w₂, hloaded, hrest, hfs₂⟩ := hsecret.exists_run replaced_token
  have hreplaced : Beset service () w₁ after w₂ :=
    .tampered (mount_moves htaken) (.tampered (mount_moves hput) (beset_of_path hrest))
  have hpair : Runs (loadApiToken none installedSettings >>= fun token =>
      pure (installedSettings, token)).run after (.ok (installedSettings, "secret")) := by
    rw [← List.append_nil after]
    exact runs_raising_bind hloaded (.done _)
  have hruns : Runs (loadInputs TomlDoc.readTable none sharedPath).run (before ++ after) _ :=
    runs_raising_bind hloads hpair
  exact ⟨_, w₂, hruns, (beset_of_path hread).append hreplaced, hfs₂⟩

/-! The main results. -/

section

variable {ι : Type} {a : Account} {i : ι} {w w' : System ι} {trace : List (Event Answer)}
  [Externals] {loads : List Char → Option TomlDoc.Table}
  {environment : Option (Option String)} {configPath : String}
  {result : Except ConfigLoadError (Config × String)}

/-- Whatever all users but root do while the settings and the token are loaded: nothing is
accepted but what was in their files before, the files stay as they are, and none stays open. -/
theorem loadInputs_authentic (hroot : a.trusted 0)
    (hrun : Runs (loadInputs loads environment configPath).run trace result)
    (hbeset : Beset a i w trace w') :
    Onward a i w w' ∧ ∀ inputs, result = .ok inputs →
      InputsFrom loads a w w.fs environment configPath inputs ∧
        InputsFrom loads a w w'.fs environment configPath inputs := by
  obtain ⟨honward, haccepts⟩ := ensures_run (loadInputs_accepts hroot) hrun hbeset
  refine ⟨honward, fun inputs hinputs => ⟨?_, haccepts inputs hinputs⟩⟩
  obtain ⟨hsettings, htoken⟩ := haccepts inputs hinputs
  have hreads := uses_runs (loadInputs_onlyReads loads environment configPath) hrun
  refine ⟨fun huser => (hsettings huser).came_from hroot huser hbeset hreads, ?_⟩
  rcases environment with _ | _ | value
  · exact TokenFileAt.came_from htoken hroot hbeset hreads
  · exact htoken
  · exact htoken

end

theorem loadInputs_authentic_replaced : ∃ trace w',
    Runs (loadInputs TomlDoc.readTable none sharedPath).run trace
      (.ok (installedSettings, "secret")) ∧
      Beset service () sharedHost trace w' ∧
      w'.fs.find (route sharedPath) ≠ sharedDisk.find (route sharedPath) ∧
      InputsFrom TomlDoc.readTable service sharedHost sharedDisk none sharedPath
        (installedSettings, "secret") ∧
      InputsFrom TomlDoc.readTable service sharedHost w'.fs none sharedPath
        (installedSettings, "secret") := by
  obtain ⟨trace, w', hrun, hbeset, hfs⟩ := shared_run
  have hinputs := (loadInputs_authentic (a := service) (.inl rfl) hrun hbeset).2 _ rfl
  refine ⟨trace, w', hrun, hbeset, ?_, hinputs⟩
  rw [hfs]
  decide

section

variable {ι : Type} {a : Account} {i : ι} {w w' : System ι} {trace : List (Event Answer)}
  [Externals] {loads : List Char → Option TomlDoc.Table}
  {environment : Option (Option String)} {configPath : String}
  {result : Except ConfigLoadError (Config × String)}

/-- On a faultless host the inputs are loaded if and only if the paths name files that are as
they should be, they are what is in these files, and nothing is changed. -/
theorem loadInputs_exact
    (hrun : Runs (loadInputs loads environment configPath).run trace result)
    (hpath : Path (faultless a i) w trace w') :
    w'.fs = w.fs ∧ ∀ inputs, result = .ok inputs ↔
      SettingsAt loads a w.fs configPath inputs.1 ∧
        TokenIs a w.fs inputs.1 inputs.2 environment := by
  have hdecides : Decides a i w (·.fs = w.fs) (loadInputs loads environment configPath) _ :=
    loadInputs_decides
  have hend := holds_run hdecides hrun hpath
  exact hend

end

theorem loadInputs_exact_installed : ∃ trace w',
    Runs (loadInputs TomlDoc.readTable none installedPath).run trace
      (.ok (installedSettings, "secret")) ∧
      Path (faultless service ()) installedHost trace w' ∧ w'.fs = installedDisk := by
  obtain ⟨trace, w', hrun, hpath⟩ := installed_run
  exact ⟨trace, w', hrun, hpath, (loadInputs_exact hrun hpath).1⟩

end Cirrusync.ConfigLoading
