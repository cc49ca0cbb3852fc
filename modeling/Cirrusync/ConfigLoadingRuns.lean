import Cirrusync.ConfigLoading
import Cirrusync.Files.Beset
import Cirrusync.Files.Knowledge

/-!
What is accepted as the API token or the configuration while other users tamper with the
file system: what trusted users had put into a file before, and nothing else.
-/

namespace Cirrusync.ConfigLoading

open Effect Files FileSystem Text

/-- What is asked of the file with the token. -/
structure TokenMetadata (gid : Nat) (data : Metadata) : Prop where
  regular : data.fileType = .regular
  mode : permissions data &&& 0o7137 = 0
  readable : permissions data &&& 0o400 ≠ 0
  owner : data.uid = 0
  group : permissions data &&& 0o040 ≠ 0 → data.gid = gid
  acl : data.acl = false

structure TokenFile (gid : Nat) (fs : FileSystem) (file : Nat) (token : String) : Prop where
  metadata : ∃ data, fs.metadata file = some data ∧ TokenMetadata gid data
  contents : ∃ text, fs.contents file = bytes text ∧ secretFromText text .file = .ok token

/-- What is asked of the file with the configuration. -/
structure ConfigMetadata (uid : Nat) (data : Metadata) : Prop where
  regular : data.fileType = .regular
  mode : permissions data &&& 0o022 = 0
  owner : data.uid = 0 ∨ data.uid = uid

structure SettingsFile [Externals] (loads : List Char → Option TomlDoc.Table) (uid : Nat)
    (fs : FileSystem) (file : Nat) (config : Config) : Prop where
  metadata : ∃ data, fs.metadata file = some data ∧ ConfigMetadata uid data
  contents : ∃ text, fs.contents file = bytes text ∧
    Config.fromToml loads text.toList = .ok config

theorem othersWrite_of_permissions {data : Metadata} (h : permissions data &&& 0o022 = 0) :
    data.othersWrite = false := by
  have hwrite : data.mode &&& 0o022 = 0 := by
    simpa [permissions, Nat.and_assoc] using h
  simp [Metadata.othersWrite, hwrite]

theorem TokenMetadata.closed {gid : Nat} {data : Metadata} (h : TokenMetadata gid data) :
    data.othersWrite = false := by
  apply othersWrite_of_permissions
  calc permissions data &&& 0o022 = permissions data &&& 0o7137 &&& 0o022 := by
        simp [Nat.and_assoc]
    _ = 0 := by rw [h.mode, Nat.zero_and]

theorem ConfigMetadata.closed {uid : Nat} {data : Metadata} (h : ConfigMetadata uid data) :
    data.othersWrite = false :=
  othersWrite_of_permissions h.mode

theorem ConfigMetadata.trusted {trusted : Nat → Prop} {uid : Nat} {data : Metadata}
    (h : ConfigMetadata uid data) (hroot : trusted 0) (huser : trusted uid) :
    trusted data.uid := by
  rcases h.owner with howner | howner
  · rwa [howner]
  · rwa [howner]

theorem TokenMetadata.kept {trusted : Nat → Prop} {gid : Nat} {data data' : Metadata}
    (h : data.Keeps trusted data') (howner : trusted data.uid) :
    TokenMetadata gid data' ↔ TokenMetadata gid data := by
  rw [h.eq_of_trusted howner]
  constructor
  · rintro ⟨hregular, hmode, hreadable, howner', hgroup, hacl⟩
    exact ⟨hregular, hmode, hreadable, howner', hgroup, hacl⟩
  · rintro ⟨hregular, hmode, hreadable, howner', hgroup, hacl⟩
    exact ⟨hregular, hmode, hreadable, howner', hgroup, hacl⟩

theorem ConfigMetadata.kept {trusted : Nat → Prop} {uid : Nat} {data data' : Metadata}
    (h : data.Keeps trusted data') (howner : trusted data.uid) :
    ConfigMetadata uid data' ↔ ConfigMetadata uid data := by
  rw [h.eq_of_trusted howner]
  constructor
  · rintro ⟨hregular, hmode, howner'⟩
    exact ⟨hregular, hmode, howner'⟩
  · rintro ⟨hregular, hmode, howner'⟩
    exact ⟨hregular, hmode, howner'⟩

/-- A text no longer than the limit is read whole. -/
theorem eq_bytes_of_take {data : List UInt8} {limit : Nat} {contents : String}
    (hread : fromUtf8 (data.take (limit + 1)) = some contents) (hfits : len contents ≤ limit) :
    data = bytes contents := by
  rw [fromUtf8_eq_some_iff] at hread
  have hlength := congrArg List.length hread
  rw [List.length_take, length_bytes] at hlength
  rw [← hread, List.take_of_length_le]
  omega

section

variable {ι : Type} {a : Account} {i : ι} {w w' : System ι} {path : String}
  {handle file : Nat} {data : Metadata}

/-- What has been read of a file up to a limit, if others cannot write to it. -/
def Read (a : Account) (file : Nat) (data : Metadata) (limit : Nat) (contents : String)
    (w : System ι) : Prop :=
  Told a w file data ∧ (a.trusted data.uid → data.othersWrite = false →
    fromUtf8 ((w.fs.contents file).take limit) = some contents)

theorem Read.kept {limit : Nat} {contents : String} (h : Read a file data limit contents w)
    (hkeeps : w.fs.Keeps a.trusted a.transient w'.fs) : Read a file data limit contents w' := by
  obtain ⟨htold, hread⟩ := h
  refine ⟨htold.kept hkeeps, fun howner hclosed => ?_⟩
  rw [htold.contents_eq hkeeps howner hclosed]
  exact hread howner hclosed

theorem readToString_reads {error : String → ConfigLoadError} {limit : Nat}
    (hopened : w.opened handle = some (i, file)) (htold : Told a w file data) :
    Yields a i w (readToString error handle limit) (Read a file data limit) := by
  have hcall : Yields a i w (call (.read handle limit) : LoadM _) fun result w' =>
      ∀ read contents, result = .ok read → fromUtf8 read = some contents →
        Read a file data limit contents w' := by
    refine yields_request rfl (fun _ _ => trivial) ?_
    rintro answer w₁ w₂ w₃ h₁ hanswers - h₃ read contents rfl hdecoded
    obtain ⟨rfl, file', hfile, rfl⟩ := hanswers
    have hopened' := (h₁.opened _ _).mpr hopened
    obtain rfl : file = file' :=
      congrArg Prod.snd (Option.some.inj (hopened'.symm.trans hfile))
    exact Read.kept ⟨htold.onward h₁, fun _ _ => hdecoded⟩ h₃.keeps
  unfold readToString
  refine yields_bind hcall fun result w₁ h₁ hread => ?_
  refine yields_orRaise_bind fun read hok => ?_
  cases hdecoded : fromUtf8 read with
  | none => exact yields_throw
  | some contents => exact yields_pure fun w₂ h₂ => (hread read contents hok hdecoded).kept h₂.keeps

/-! The token. -/

theorem rejectTokenAccessAcl_accepts (hopened : w.opened handle = some (i, file))
    (htold : Told a w file data) (howner : a.trusted data.uid) :
    Yields a i w (rejectTokenAccessAcl path handle) fun _ _ => data.acl = false := by
  have hcall : Yields a i w (call (.accessAcl handle) : LoadM _) fun result _ =>
      ∀ error, result = .error error → noAttribute error = true → data.acl = false := by
    refine yields_request rfl (fun _ _ => trivial) ?_
    rintro answer w₁ w₂ w₃ h₁ hanswers - - error rfl hnone
    obtain ⟨now, hnow, hkeeps⟩ := htold.onward h₁
    rw [← (hkeeps.guarded howner).2.2]
    exact hanswers.2 file now error ((h₁.opened _ _).mpr hopened) hnow rfl hnone
  unfold rejectTokenAccessAcl
  refine yields_bind hcall fun result w₁ _ hnone => ?_
  cases result with
  | ok value => exact yields_throw
  | error error =>
      dsimp only
      split
      · next hattribute => exact yields_pure fun _ _ => hnone error rfl hattribute
      · split <;> exact yields_throw

theorem validateTokenMetadata_accepts (hroot : a.trusted 0)
    (hopened : w.opened handle = some (i, file)) (htold : Told a w file data) :
    Yields a i w (validateTokenMetadata path handle data) fun _ _ =>
      TokenMetadata a.gid data := by
  unfold validateTokenMetadata
  refine yields_check fun hregular => yields_check fun hmode => yields_check fun howner => ?_
  have howner' : data.uid = 0 := by simpa using howner
  have hmodes : permissions data &&& 0o7137 = 0 ∧ permissions data &&& 0o400 ≠ 0 := by
    simpa using hmode
  -- the access list is asked for with or without a group that may read
  have hrest : ∀ w₁, Onward a i w w₁ →
      (permissions data &&& 0o040 ≠ 0 → data.gid = a.gid) →
      Yields a i w₁ (rejectTokenAccessAcl path handle) fun _ _ => TokenMetadata a.gid data := by
    intro w₁ h₁ hgroup
    refine yields_mono (rejectTokenAccessAcl_accepts ((h₁.opened _ _).mpr hopened)
      (htold.onward h₁) (by rwa [howner'])) fun _ _ _ hacl => ?_
    exact ⟨by simpa using hregular, hmodes.1, hmodes.2, howner', hgroup, hacl⟩
  split
  · have hgroup : Yields a i w (call .effectiveGroup : LoadM _) fun gid _ => gid = a.gid :=
      yields_request rfl (fun _ _ => trivial) fun _ _ _ _ _ hanswers _ _ => hanswers.1
    refine yields_bind hgroup fun gid w₁ h₁ hgid => yields_check fun hsame => ?_
    refine hrest w₁ h₁ fun _ => ?_
    rw [← hgid]
    simpa using hsame
  · next hunreadable =>
    exact hrest w (.refl w) fun hgroup => absurd hgroup (by simpa using hunreadable)

theorem validateOpenedTokenPath_yields {opened : Stat} :
    Yields a i w (validateOpenedTokenPath path opened) fun _ _ => True := by
  unfold validateOpenedTokenPath
  refine yields_any rfl (fun _ => trivial) fun result w₁ _ => ?_
  exact yields_orRaise_bind fun named _ => yields_check fun _ =>
    yields_last_check fun _ _ _ => trivial

/-- Where an accepted token has come from: a file of root, which is the one that the path
leads to if nobody else can change that. -/
def TokenFileAt (a : Account) (w : System ι) (fs : FileSystem) (path token : String) : Prop :=
  ∃ file, TokenFile a.gid fs file token ∧
    ∀ other, Leads a w path other → Lasting a path → file = other

/-- An accepted token is the text of a file that has passed all checks, and that is the file of
the path if only trusted users can change the path. What is checked is the open file, so that it
does not matter what becomes of its name between the calls. -/
theorem loadTokenFile_accepts (hroot : a.trusted 0) :
    Yields a i w (loadTokenFile path) fun token w' => TokenFileAt a w w'.fs path token := by
  unfold loadTokenFile
  refine ensures_raising_bind (ensures_mono ensures_openRead ?_)
  rintro (error | handle) w₁ hopened
  · exact fun w₂ h₂ => ⟨hopened.trans h₂.onward, fun _ hvalue => nomatch hvalue⟩
  obtain ⟨file, hadds, hnamed⟩ := hopened
  have hread : Yields a i w₁ (do
      let metadata ← orElse (.tokenMetadata path) (← call (.fstat handle))
      validateOpenedTokenPath path metadata
      validateTokenMetadata path handle metadata.data
      if metadata.size > maxTokenBytes then
        throw (.tokenTooLarge path)
      readToString (.tokenRead path) handle (maxTokenBytes + 1)) fun contents w' =>
        ∃ data, TokenMetadata a.gid data ∧ Read a file data (maxTokenBytes + 1) contents w' := by
    refine yields_fstat hadds.opened_self fun stat w₂ h₂ _ htold => ?_
    refine yields_bind validateOpenedTokenPath_yields fun _ w₃ h₃ _ => ?_
    have hopened₃ := (h₃.opened _ _).mpr ((h₂.opened _ _).mpr hadds.opened_self)
    refine yields_bind (validateTokenMetadata_accepts hroot hopened₃ (htold.onward h₃))
      fun _ w₄ h₄ hdata => yields_check fun _ => ?_
    refine yields_mono (readToString_reads ((h₄.opened _ _).mpr hopened₃)
      ((htold.onward h₃).onward h₄)) ?_
    exact fun contents w₅ _ hread => ⟨stat.data, hdata, hread⟩
  refine ensures_raising_bind (ensures_mono (whileOpen_yields hadds hread ?_) ?_)
  · rintro contents w₂ w₃ hkeeps ⟨data, hdata, hread'⟩
    exact ⟨data, hdata, hread'.kept hkeeps⟩
  rintro (error | contents) w₂ ⟨h₂, hcontents⟩
  · exact fun w₃ h₃ => ⟨h₂.trans h₃.onward, fun _ hvalue => nomatch hvalue⟩
  refine Yields.after ?_ h₂
  refine yields_check fun hlength => yields_liftExcept fun token htoken w₃ h₃ => ?_
  obtain ⟨data, hdata, hread'⟩ := hcontents contents rfl
  obtain ⟨⟨now, hnow, hkeeps⟩, htext⟩ := hread'.kept h₃.keeps
  have howner : a.trusted data.uid := by rwa [hdata.owner]
  refine ⟨file, ⟨⟨now, hnow, (TokenMetadata.kept hkeeps howner).mpr hdata⟩, contents, ?_, htoken⟩,
    hnamed⟩
  exact eq_bytes_of_take (htext howner hdata.closed) (by omega)

/-! The configuration. -/

theorem validateConfigFile_accepts (hopened : w.opened handle = some (i, file)) :
    Yields a i w (validateConfigFile path handle) fun _ w' =>
      ∃ data, Told a w' file data ∧ ConfigMetadata a.uid data := by
  unfold validateConfigFile
  refine yields_fstat hopened fun opened w₁ h₁ _ htold => yields_check fun hregular => ?_
  refine yields_any rfl (fun _ => trivial) fun result w₂ h₂ => ?_
  refine yields_orRaise_bind fun named _ => ?_
  refine yields_check fun _ => yields_check fun _ => yields_check fun hmode => ?_
  have huser : Yields a i w₂ (call .effectiveUser : LoadM _) fun uid _ => uid = a.uid :=
    yields_request rfl (fun _ _ => trivial) fun _ _ _ _ _ hanswers _ _ => hanswers.1
  refine yields_bind huser fun uid w₃ h₃ huid => yields_check fun howner => ?_
  refine yields_last_check fun _ w₄ h₄ => ?_
  refine ⟨opened.data, ((htold.onward h₂).onward h₃).onward h₄, by simpa using hregular,
    by simpa using hmode, ?_⟩
  rw [← huid]
  by_cases hzero : opened.data.uid = 0
  · exact .inl hzero
  · exact .inr (by simpa [hzero] using howner)

/-- A file that belongs to a trusted user and is open for the settings to be read. -/
def ConfigOpened (a : Account) (file : Nat) (w : System ι) : Prop :=
  ∃ data, Told a w file data ∧ ConfigMetadata a.uid data

theorem openConfigFile_opens :
    Ensures a i w (openConfigFile path).run fun result w' => match result with
      | .ok handle => ∃ file, Adds a i handle file w w' ∧ ConfigOpened a file w' ∧
          ∀ other, Leads a w path other → Lasting a path → file = other
      | .error _ => Onward a i w w' := by
  unfold openConfigFile
  refine ensures_raising_bind (ensures_mono ensures_openRead ?_)
  rintro (error | handle) w₁ hopened
  · exact fun w₂ h₂ => hopened.trans h₂.onward
  obtain ⟨file, hadds, hnamed⟩ := hopened
  have hstable : ∀ w₂ w₃, w₂.Leaves a i w₃ → ConfigOpened a file w₂ →
      ConfigOpened a file w₃ := by
    rintro w₂ w₃ hleaves ⟨data, htold, hdata⟩
    exact ⟨data, htold.onward hleaves.onward, hdata⟩
  refine ensures_mono (keepingOpen_ensures hadds
    (validateConfigFile_accepts hadds.opened_self) hstable) ?_
  rintro (error | opened) w₂ hkept
  · exact hkept
  · obtain ⟨rfl, hadds', hconfig⟩ := hkept
    exact ⟨file, hadds', hconfig, hnamed⟩

/-- Where an accepted configuration has come from. -/
def SettingsFileAt [Externals] (loads : List Char → Option TomlDoc.Table) (a : Account)
    (w : System ι) (fs : FileSystem) (path : String) (config : Config) : Prop :=
  ∃ file, SettingsFile loads a.uid fs file config ∧
    ∀ other, Leads a w path other → Lasting a path → file = other

theorem load_accepts [Externals] {loads : List Char → Option TomlDoc.Table}
    (hroot : a.trusted 0) :
    Yields a i w (load loads path) fun config w' =>
      a.trusted a.uid → SettingsFileAt loads a w w'.fs path config := by
  unfold load
  refine ensures_raising_bind (ensures_mono openConfigFile_opens ?_)
  rintro (error | handle) w₁ hopened
  · exact fun w₂ h₂ => ⟨hopened.trans h₂.onward, fun _ hvalue => nomatch hvalue⟩
  obtain ⟨file, hadds, ⟨data, htold, hdata⟩, hnamed⟩ := hopened
  refine ensures_raising_bind (ensures_mono (whileOpen_yields hadds
    (readToString_reads hadds.opened_self htold) fun _ _ _ hkeeps hread => hread.kept hkeeps) ?_)
  rintro (error | contents) w₂ ⟨h₂, hcontents⟩
  · exact fun w₃ h₃ => ⟨h₂.trans h₃.onward, fun _ hvalue => nomatch hvalue⟩
  refine Yields.after ?_ h₂
  refine yields_check fun hlength => ?_
  cases hconfig : Config.fromToml loads contents.toList with
  | error error => exact yields_throw
  | ok config =>
      refine yields_pure fun w₃ h₃ huser => ?_
      obtain ⟨⟨now, hnow, hkeeps⟩, htext⟩ := (hcontents contents rfl).kept h₃.keeps
      have howner := hdata.trusted hroot huser
      refine ⟨file, ⟨⟨now, hnow, (ConfigMetadata.kept hkeeps howner).mpr hdata⟩, contents, ?_,
        hconfig⟩, hnamed⟩
      exact eq_bytes_of_take (htext howner hdata.closed) (by omega)

end

/-! Nothing is made on the way. -/

theorem readToString_onlyReads (error : String → ConfigLoadError) (file limit : Nat) :
    OnlyReads (readToString error file limit) := by
  refine (onlyReads_call rfl).bind fun result => (onlyReads_orRaise _ result).bind fun data => ?_
  split
  · exact onlyReads_pure _
  · exact onlyReads_throw _

theorem openNoFollow_onlyReads (path : String) (insecure error : String → ConfigLoadError) :
    OnlyReads (openNoFollow path insecure error) :=
  (onlyReads_call rfl).bind fun _ => onlyReads_orRaise _ _

theorem validateConfigFile_onlyReads (path : String) (file : Nat) :
    OnlyReads (validateConfigFile path file) :=
  (onlyReads_call rfl).bind fun _ => (onlyReads_orRaise _ _).bind fun _ => .check <|
    (onlyReads_call rfl).bind fun _ => (onlyReads_orRaise _ _).bind fun _ => .check <| .check <|
      .check <| (onlyReads_call rfl).bind fun _ => .check onlyReads_check

theorem load_onlyReads [Externals] (loads : List Char → Option TomlDoc.Table) (path : String) :
    OnlyReads (load loads path) := by
  have hopen : OnlyReads (openConfigFile path) :=
    (openNoFollow_onlyReads _ _ _).bind fun file =>
      (validateConfigFile_onlyReads path file).keepingOpen
  refine hopen.bind fun file => (readToString_onlyReads _ _ _).whileOpen.bind fun contents => ?_
  refine .check ?_
  split
  · exact onlyReads_pure _
  · exact onlyReads_throw _

theorem rejectTokenAccessAcl_onlyReads (path : String) (file : Nat) :
    OnlyReads (rejectTokenAccessAcl path file) := by
  refine (onlyReads_call rfl).bind fun result => ?_
  cases result with
  | ok value => exact onlyReads_throw _
  | error source =>
      dsimp only
      split
      · exact onlyReads_pure _
      · split <;> exact onlyReads_throw _

theorem validateTokenMetadata_onlyReads (path : String) (file : Nat) (metadata : Metadata) :
    OnlyReads (validateTokenMetadata path file metadata) := by
  have hacl := rejectTokenAccessAcl_onlyReads path file
  unfold validateTokenMetadata
  refine .check ?_
  refine .check ?_
  refine .check ?_
  split
  · exact (onlyReads_call rfl).bind fun _ => .check hacl
  · exact hacl

theorem loadTokenFile_onlyReads (path : String) : OnlyReads (loadTokenFile path) := by
  have hpath : ∀ opened, OnlyReads (validateOpenedTokenPath path opened) := fun _ =>
    (onlyReads_call rfl).bind fun _ => (onlyReads_orRaise _ _).bind fun _ => .check onlyReads_check
  have hbody : ∀ file, OnlyReads (do
      let metadata ← orElse (.tokenMetadata path) (← call (.fstat file))
      validateOpenedTokenPath path metadata
      validateTokenMetadata path file metadata.data
      if metadata.size > maxTokenBytes then
        throw (.tokenTooLarge path)
      readToString (.tokenRead path) file (maxTokenBytes + 1)) := fun file =>
    (onlyReads_call rfl).bind fun _ => (onlyReads_orRaise _ _).bind fun metadata =>
      (hpath metadata).bind fun _ => (validateTokenMetadata_onlyReads path file _).bind fun _ =>
        .check (readToString_onlyReads _ _ _)
  refine (openNoFollow_onlyReads _ _ _).bind fun file => (hbody file).whileOpen.bind fun contents =>
    .check ?_
  exact onlyReads_liftExcept _

end Cirrusync.ConfigLoading
