import Cirrusync.ConfigLoadingRuns
import Cirrusync.Files.Decision

/-!
What is accepted as the configuration and the API token where nothing fails and nobody
interferes: exactly the files that are as they should be, with what is in them.
-/

namespace Cirrusync.ConfigLoading

open Effect Files FileSystem Text

section

variable {ι : Type} {a : Account} {i : ι} {w : System ι} {path : String} {handle file : Nat}
  {data : Metadata}

theorem readToString_decides {error : String → ConfigLoadError} {limit : Nat}
    (hopened : w.opened handle = some (i, file)) :
    Decides a i w (· = w) (readToString error handle limit) fun contents =>
      fromUtf8 ((w.fs.contents file).take limit) = some contents := by
  unfold readToString
  refine decides_read hopened ?_
  split
  · next contents hread =>
      refine decides_pure rfl fun other => ?_
      rw [hread, Option.some.injEq, eq_comm]
  · next hread =>
      refine decides_throw rfl fun other hother => ?_
      rw [hread] at hother
      cases hother

/-! The token. -/

theorem rejectTokenAccessAcl_decides (hopened : w.opened handle = some (i, file))
    (hdata : w.fs.metadata file = some data) :
    Decides a i w (· = w) (rejectTokenAccessAcl path handle) fun _ => data.acl = false := by
  unfold rejectTokenAccessAcl
  refine decides_accessAcl hopened hdata (fun error hacl hnone => ?_) fun answer hacl hsome => ?_
  · dsimp only
    rw [if_pos hnone]
    exact decides_pure rfl fun _ => iff_of_true hacl rfl
  · have hwrong : ∀ _ : Unit, ¬ data.acl = false := by simp [hacl]
    cases answer with
    | ok value => exact decides_throw rfl hwrong
    | error error =>
        dsimp only
        rw [if_neg (by simp [hsome error rfl])]
        split <;> exact decides_throw rfl hwrong

theorem validateTokenMetadata_decides (hopened : w.opened handle = some (i, file))
    (hdata : w.fs.metadata file = some data) :
    Decides a i w (· = w) (validateTokenMetadata path handle data) fun _ =>
      TokenMetadata a.gid data := by
  unfold validateTokenMetadata
  refine decides_check (fun hfails => ⟨rfl, fun _ h => ?_⟩) fun hregular => ?_
  · simp [h.regular] at hfails
  refine decides_check (fun hfails => ⟨rfl, fun _ h => ?_⟩) fun hmode => ?_
  · simp [h.mode, h.readable] at hfails
  refine decides_check (fun hfails => ⟨rfl, fun _ h => ?_⟩) fun howner => ?_
  · simp [h.owner] at hfails
  have hmodes : permissions data &&& 0o7137 = 0 ∧ permissions data &&& 0o400 ≠ 0 := by
    simpa using hmode
  have hrest : (permissions data &&& 0o040 ≠ 0 → data.gid = a.gid) →
      Decides a i w (· = w) (rejectTokenAccessAcl path handle) fun _ =>
        TokenMetadata a.gid data := by
    intro hgroup
    refine (rejectTokenAccessAcl_decides hopened hdata).congr fun _ => ⟨fun hacl => ?_, ?_⟩
    · exact ⟨by simpa using hregular, hmodes.1, hmodes.2, by simpa using howner, hgroup, hacl⟩
    · exact fun h => h.acl
  split
  · next hreadable =>
      refine decides_effectiveGroup ?_
      refine decides_check (fun hfails => ⟨rfl, fun _ h => ?_⟩) fun hsame => ?_
      · simp [h.group (by simpa using hreadable)] at hfails
      · exact hrest fun _ => by simpa using hsame
  · next hunreadable => exact hrest fun hgroup => absurd hgroup (by simpa using hunreadable)

theorem validateOpenedTokenPath_decides {opened : Stat}
    (hfind : w.fs.find (route path) = some file) (hdata : w.fs.metadata file = some data)
    (hlink : data.fileType ≠ .symlink) (hsame : opened.file = file) :
    Decides a i w (· = w) (validateOpenedTokenPath path opened) fun _ => True := by
  unfold validateOpenedTokenPath
  refine decides_lstat hfind hdata ?_
  refine decides_check (fun hfails => absurd hfails (by simpa using hlink)) fun _ => ?_
  exact decides_last_check rfl (by simp [hsame])

theorem secretFromText_fits {text token : String} {source : TokenSource}
    (h : secretFromText text source = .ok token) : len text ≤ maxTokenBytes := by
  unfold secretFromText at h
  simp only [ensure_bind_ok] at h
  simpa using h.1

/-- A text that fits is read whole. -/
theorem read_eq_some_iff {bytes' : List UInt8} {limit : Nat} {contents : String}
    (hfits : len contents ≤ limit) :
    fromUtf8 (bytes'.take (limit + 1)) = some contents ↔ bytes' = bytes contents := by
  refine ⟨fun h => eq_bytes_of_take h hfits, ?_⟩
  rintro rfl
  rw [fromUtf8_eq_some_iff, List.take_of_length_le]
  rw [length_bytes]
  omega

/-- A token is read where its path names a file that is as it should be. -/
def TokenAt (a : Account) (fs : FileSystem) (path token : String) : Prop :=
  ∃ file, fs.find (route path) = some file ∧ TokenFile a.gid fs file token

/-- Where nothing fails of itself, a token is loaded if and only if the path names a file of the
superuser that nobody else may write to or read beyond the group, and the token is its trimmed
text. The checks of the code are taken one by one, each against the file that was opened. -/
theorem loadTokenFile_decides :
    Decides a i w (·.fs = w.fs) (loadTokenFile path) (TokenAt a w.fs path) := by
  unfold loadTokenFile
  refine decides_openRead (fun file data hfind hdata hlink => ?_) fun hnone => ⟨rfl, ?_⟩
  · have hopened : (w.openAs i file).opened w.next = some (i, file) := Function.update_self ..
    have hbody : Decides a i (w.openAs i file) (· = w.openAs i file) (do
        let metadata ← orElse (.tokenMetadata path) (← call (.fstat w.next))
        validateOpenedTokenPath path metadata
        validateTokenMetadata path w.next metadata.data
        if metadata.size > maxTokenBytes then
          throw (.tokenTooLarge path)
        readToString (.tokenRead path) w.next (maxTokenBytes + 1)) fun contents =>
          TokenMetadata a.gid data ∧ (w.fs.contents file).length ≤ maxTokenBytes ∧
            fromUtf8 ((w.fs.contents file).take (maxTokenBytes + 1)) = some contents := by
      have hpath : Decides a i (w.openAs i file) (· = w.openAs i file) (validateOpenedTokenPath
          path ⟨file, data, (w.fs.contents file).length⟩) fun _ => True :=
        validateOpenedTokenPath_decides hfind hdata hlink rfl
      refine decides_fstat hopened hdata (hpath.bind ?_ fun hnone => absurd trivial (hnone ()))
      rintro _ _ rfl -
      refine (validateTokenMetadata_decides hopened hdata).bind ?_ fun hnone => ?_
      · rintro _ _ rfl hmetadata
        refine decides_check (fun hlarge => ⟨rfl, fun _ h => ?_⟩) fun hsize => ?_
        · exact absurd h.2.1 (Nat.not_le.mpr hlarge)
        · refine (readToString_decides hopened).congr fun contents => ?_
          exact ⟨fun h => ⟨hmetadata, Nat.not_lt.mp hsize, h⟩, fun h => h.2.2⟩
      · rintro _ rfl
        exact ⟨rfl, fun _ h => hnone () h.1⟩
    have hread : Decides a i (w.openAs i file) (·.fs = w.fs) (whileOpen w.next _) _ :=
      hbody.whileOpen ⟨file, hopened⟩ rfl
    refine hread.bind ?_ ?_
    · rintro contents w₁ hfs ⟨hmetadata, hsize, hread⟩
      have hfits : len contents ≤ maxTokenBytes := by
        rw [fromUtf8_eq_some_iff, List.take_of_length_le (by omega)] at hread
        rwa [← length_bytes, ← hread]
      have hbytes := (read_eq_some_iff hfits).mp hread
      refine decides_check (fun hlarge => absurd hlarge (by omega)) fun _ => ?_
      refine (decides_liftExcept hfs).congr fun token => ⟨fun htoken => ?_, ?_⟩
      · exact ⟨file, hfind, ⟨data, hdata, hmetadata⟩, contents, hbytes, htoken⟩
      · rintro ⟨file', hfind', -, text, htext, htoken⟩
        obtain rfl := Option.some.inj (hfind.symm.trans hfind')
        have hsame : fromUtf8 (bytes contents) = some text := by
          rw [fromUtf8_eq_some_iff, ← hbytes, htext]
        rw [fromUtf8_eq_some_iff.mpr rfl, Option.some.injEq] at hsame
        rwa [hsame]
    · rintro hnone w₁ hfs
      refine ⟨hfs, ?_⟩
      rintro token ⟨file', hfind', ⟨data', hdata', hmetadata⟩, text, htext, htoken⟩
      obtain rfl := Option.some.inj (hfind.symm.trans hfind')
      obtain rfl := Option.some.inj (hdata.symm.trans hdata')
      have hfits := secretFromText_fits htoken
      refine hnone text ⟨hmetadata, ?_, (read_eq_some_iff hfits).mpr htext⟩
      rwa [htext, length_bytes]
  · rintro token ⟨file, hfind, ⟨data, hdata, hmetadata⟩, -⟩
    have hlink := hnone file data hfind hdata
    rw [hmetadata.regular] at hlink
    cases hlink

/-! The configuration. -/

theorem validateConfigFile_decides (hopened : w.opened handle = some (i, file))
    (hfind : w.fs.find (route path) = some file) (hdata : w.fs.metadata file = some data)
    (hlink : data.fileType ≠ .symlink) :
    Decides a i w (· = w) (validateConfigFile path handle) fun _ =>
      ConfigMetadata a.uid data ∧ (w.fs.contents file).length ≤ maxConfigBytes := by
  unfold validateConfigFile
  refine decides_fstat hopened hdata ?_
  refine decides_check (fun hfails => ⟨rfl, fun _ h => ?_⟩) fun hregular => ?_
  · simp [h.1.regular] at hfails
  refine decides_lstat hfind hdata ?_
  refine decides_check (fun hfails => absurd hfails (by simpa using hlink)) fun _ => ?_
  refine decides_check (fun hfails => absurd hfails (by simp)) fun _ => ?_
  refine decides_check (fun hfails => ⟨rfl, fun _ h => ?_⟩) fun hmode => ?_
  · simp [h.1.mode] at hfails
  refine decides_effectiveUser ?_
  refine decides_check (fun hfails => ⟨rfl, fun _ h => ?_⟩) fun howner => ?_
  · rcases h.1.owner with howner | howner <;> simp [howner] at hfails
  refine decides_last_check rfl ?_
  constructor
  · exact fun h => Nat.not_lt.mpr h.2
  · intro hsize
    refine ⟨⟨by simpa using hregular, by simpa using hmode, ?_⟩, Nat.not_lt.mp hsize⟩
    by_cases hzero : data.uid = 0
    · exact .inl hzero
    · exact .inr (by simpa [hzero] using howner)

/-- A file from which the settings can be read. -/
def ConfigReady (a : Account) (fs : FileSystem) (path : String) (file : Nat) : Prop :=
  fs.find (route path) = some file ∧
    (∃ data, fs.metadata file = some data ∧ ConfigMetadata a.uid data) ∧
    (fs.contents file).length ≤ maxConfigBytes

theorem openConfigFile_decides :
    Decides a i w (fun w' => w'.fs = w.fs ∧ ∀ file, ConfigReady a w.fs path file →
        w'.opened w.next = some (i, file)) (openConfigFile path) fun opened =>
      opened = w.next ∧ ∃ file, ConfigReady a w.fs path file := by
  unfold openConfigFile
  refine decides_openRead (fun file data hfind hdata hlink => ?_) fun hnone => ?_
  · have hopened : (w.openAs i file).opened w.next = some (i, file) := Function.update_self ..
    have hready : (∃ file, ConfigReady a w.fs path file) ↔
        ConfigMetadata a.uid data ∧ (w.fs.contents file).length ≤ maxConfigBytes := by
      constructor
      · rintro ⟨file', hfind', ⟨data', hdata', hmetadata⟩, hsize⟩
        obtain rfl := Option.some.inj (hfind.symm.trans hfind')
        obtain rfl := Option.some.inj (hdata.symm.trans hdata')
        exact ⟨hmetadata, hsize⟩
      · exact fun h => ⟨file, hfind, ⟨data, hdata, h.1⟩, h.2⟩
    refine ((validateConfigFile_decides hopened hfind hdata hlink).keepingOpen ⟨file, hopened⟩
      (fun _ => ⟨rfl, fun file' h => ?kept⟩) fun hwrong => ⟨rfl, fun file' h => ?closed⟩).congr
        ?same
    case kept =>
      obtain rfl := Option.some.inj (hfind.symm.trans h.1)
      exact hopened
    case closed => exact absurd (hready.mp ⟨file', h⟩) hwrong
    case same => exact fun opened => and_congr_right fun _ => hready.symm
  · have hwrong : ∀ file, ¬ ConfigReady a w.fs path file := by
      rintro file ⟨hfind, ⟨data, hdata, hmetadata⟩, -⟩
      have hlink := hnone file data hfind hdata
      rw [hmetadata.regular] at hlink
      cases hlink
    exact ⟨⟨rfl, fun file h => absurd h (hwrong file)⟩, fun _ h => h.2.elim hwrong⟩

section

variable [Externals] {loads : List Char → Option TomlDoc.Table}

theorem fromToml_fits {text : List Char} {config : Config}
    (h : Config.fromToml loads text = .ok config) : byteLength text ≤ maxConfigBytes := by
  unfold Config.fromToml at h
  rw [ensure_bind_ok] at h
  simpa using h.1

/-- The settings are read where their path names a file that is as it should be. -/
def SettingsAt (loads : List Char → Option TomlDoc.Table) (a : Account) (fs : FileSystem)
    (path : String) (config : Config) : Prop :=
  ∃ file, fs.find (route path) = some file ∧ SettingsFile loads a.uid fs file config

theorem SettingsAt.ready {config : Config} (h : SettingsAt loads a w.fs path config) :
    ∃ file, ConfigReady a w.fs path file := by
  obtain ⟨file, hfind, hmetadata, text, htext, hconfig⟩ := h
  refine ⟨file, hfind, hmetadata, ?_⟩
  rw [htext, length_bytes]
  exact fromToml_fits hconfig

/-- Where nothing fails of itself, a configuration is loaded if and only if the path names a file
of the superuser or the user that nobody else may write to and whose text is accepted. A text that
is too large is one that is not accepted. -/
theorem load_decides :
    Decides a i w (·.fs = w.fs) (load loads path) (SettingsAt loads a w.fs path) := by
  unfold load
  refine openConfigFile_decides.bind ?_ ?_
  · rintro _ w₁ ⟨hfs, hopened⟩ ⟨rfl, file, hready⟩
    have hopened' := hopened file hready
    obtain ⟨hfind, hmetadata, hsize⟩ := hready
    have hread : Decides a i w₁ (·.fs = w.fs) (whileOpen w.next
        (readToString (.read path) w.next (maxConfigBytes + 1))) _ :=
      (readToString_decides hopened').whileOpen ⟨file, hopened'⟩ hfs
    refine hread.bind ?_ ?_
    · rintro contents w₂ hfs₂ hcontents
      have hfits : len contents ≤ maxConfigBytes := by
        rw [hfs, fromUtf8_eq_some_iff, List.take_of_length_le (by omega)] at hcontents
        rwa [← length_bytes, ← hcontents]
      have hbytes := (read_eq_some_iff hfits).mp hcontents
      rw [hfs] at hbytes
      refine decides_check (fun hlarge => absurd hlarge (by omega)) fun _ => ?_
      have hright : ∀ config, SettingsAt loads a w.fs path config ↔
          Config.fromToml loads contents.toList = .ok config := by
        refine fun config =>
          ⟨?_, fun hconfig => ⟨file, hfind, hmetadata, contents, hbytes, hconfig⟩⟩
        rintro ⟨file', hfind', -, text, htext, hconfig⟩
        obtain rfl := Option.some.inj (hfind.symm.trans hfind')
        have hsame : fromUtf8 (bytes contents) = some text := by
          rw [fromUtf8_eq_some_iff, ← hbytes, htext]
        rw [fromUtf8_eq_some_iff.mpr rfl, Option.some.injEq] at hsame
        rwa [hsame]
      cases hconfig : Config.fromToml loads contents.toList with
      | error error => exact decides_throw hfs₂ fun config h => by simp [hright, hconfig] at h
      | ok config => exact decides_pure hfs₂ fun other => by simp [hright, hconfig, eq_comm]
    · rintro hnone w₂ hfs₂
      refine ⟨hfs₂, ?_⟩
      rintro config ⟨file', hfind', -, text, htext, hconfig⟩
      obtain rfl := Option.some.inj (hfind.symm.trans hfind')
      refine hnone text ((read_eq_some_iff (fromToml_fits hconfig)).mpr ?_)
      rw [hfs, htext]
  · rintro hnone w₁ ⟨hfs, -⟩
    exact ⟨hfs, fun config h => hnone w.next ⟨rfl, h.ready⟩⟩

end

end

end Cirrusync.ConfigLoading
