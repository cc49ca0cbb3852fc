import Cirrusync.Git.Command
import Cirrusync.Release.Repository

/-!
The gate of `scripts/versioning.py` that a proposed commit has to pass: the version files of two
commits are read out of Git and the version of the head has to be above the one of the base.
-/

namespace Cirrusync.Python

/-- The white space of `bytes`. -/
def isSpaceByte (byte : UInt8) : Bool :=
  byte == 9 || byte == 10 || byte == 11 || byte == 12 || byte == 13 || byte == 32

def stripBytes (bytes : List UInt8) : List UInt8 :=
  (bytes.dropWhile isSpaceByte).rdropWhile isSpaceByte

/-- `bytes.split()`. -/
def splitBytes (bytes : List UInt8) : List (List UInt8) :=
  (bytes.splitOnP isSpaceByte).filter fun word => !word.isEmpty

/-- `bytes.decode("ascii")`. -/
def decodeAscii (bytes : List UInt8) : Option (List Char) :=
  if bytes.all (· < 128) then some (bytes.map fun byte => Char.ofNat byte.toNat) else none

/-- `int` takes a text of this many digits at most. -/
def maxStrDigits : Nat := 4300

end Cirrusync.Python

namespace Cirrusync.Release

open Effect Numerals Python

/-- What `VersionRepository.check_pr` raises. -/
inductive GateError where
  | policy (message : String)
  /-- The `ValueError` of an integer with too many digits. -/
  | value
deriving DecidableEq, Repr

abbrev Gate (α : Type) : Type := Raising Git.Answer GateError α

/-- `subprocess.run` of a Git command. -/
def git (command : Git.Command) : Gate Git.Completed :=
  ExceptT.mk do
    match ← (Program.perform command : Program Git.Answer (Git.Answer command)) with
    | .error exception => return .error (.policy s!"cannot run Git: {exception.text}")
    | .ok result => return .ok result

def refuseIf (condition : Bool) (message : String) : Gate Unit :=
  if condition then throw (.policy message) else pure ()

/-- A value that must be there. -/
def orRefuse {α : Type} (value : Option α) (message : String) : Gate α :=
  match value with
  | some found => pure found
  | none => throw (.policy message)

def isHexDigit (c : Char) : Bool :=
  c.isDigit || ('a' ≤ c && c ≤ 'f') || ('A' ≤ c && c ≤ 'F')

/-- `_HEX_OBJECT_RE`. -/
def hexObjectRe : List (Pattern Char) := [.run isHexDigit 40 (some 64)]

def isHexByte (byte : UInt8) : Bool :=
  (48 ≤ byte && byte ≤ 57) || (97 ≤ byte && byte ≤ 102) || (65 ≤ byte && byte ≤ 70)

def objectBytesRe : List (Pattern UInt8) := [.run isHexByte 40 (some 64)]

def sizeRe : List (Pattern UInt8) := [.run (fun byte => 48 ≤ byte && byte ≤ 57) 1 none]

def refIsInvalid (ref : List Char) : Bool :=
  ref.isEmpty || 1024 < ref.length || ['-'].isPrefixOf ref ||
    ref.any fun character => Python.isSpace character || character.toNat < 32

/-- `_resolve_git_ref`. -/
def resolveGitRef (ref : List Char) : Gate (List Char) := do
  refuseIf (refIsInvalid ref) "invalid Git ref"
  let result ← git (.revParse ref)
  let decoded ← orRefuse (decodeAscii result.stdout) "Git ref did not resolve to an ASCII object ID"
  let objectId := strip decoded
  refuseIf (result.returncode != 0 || !Pattern.fullmatch hexObjectRe objectId)
    "Git ref does not resolve to a commit"
  return objectId.map Char.toLower

/-- `path.as_posix()`. -/
def VersionFile.asPosix : VersionFile → List Char
  | .manifest => "Cargo.toml".toList
  | .lockfile => "Cargo.lock".toList

def VersionFile.maximumBytes : VersionFile → Nat
  | .manifest => maxManifestBytes
  | .lockfile => maxLockfileBytes

/-- What `ls-tree` has before the path, for a file that is neither executable nor a link. -/
def isRegularPrefix (treePrefix : List (List UInt8)) : Bool :=
  match treePrefix with
  | [mode, kind, object] => mode == Git.ascii "100644".toList && kind == Git.ascii "blob".toList &&
      Pattern.fullmatch objectBytesRe object
  | _ => false

/-- `int` of digits. -/
def intOfBytes (text : List UInt8) : Gate Nat :=
  if maxStrDigits < text.length then throw .value
  else pure (Version.int (text.map fun byte => Char.ofNat byte.toNat))

/-- `_file_at_commit`. -/
def fileAtCommit (commit : List Char) (path : VersionFile) : Gate (List Char) := do
  let name := String.ofList path.asPosix
  let treeResult ← git (.lsTree commit path.asPosix)
  let treePrefix := splitBytes (treeResult.stdout.takeWhile (· != 9))
  refuseIf (treeResult.returncode != 0 || !isRegularPrefix treePrefix)
    s!"{name} at the requested Git ref is not a regular non-executable file"
  let sizeResult ← git (.size commit path.asPosix)
  let sizeText := stripBytes sizeResult.stdout
  refuseIf (sizeResult.returncode != 0 || !Pattern.fullmatch sizeRe sizeText)
    s!"cannot inspect {name} at the requested Git ref"
  let size ← intOfBytes sizeText
  refuseIf (path.maximumBytes < size)
    (s!"{name} at the requested Git ref is too large " ++
      s!"({size} bytes; maximum {path.maximumBytes})")
  let result ← git (.blob commit path.asPosix)
  refuseIf (result.returncode != 0) s!"cannot read {name} at the requested Git ref"
  orRefuse (decode result.stdout) s!"{name} at the requested Git ref is not UTF-8"

section

variable (loads : List Char → Option Table)

/-- `VersionRepository.version_at`. -/
def versionAt (ref : List Char) : Gate Version := do
  let commit ← resolveGitRef ref
  let manifest ← fileAtCommit commit .manifest
  let lockfile ← fileAtCommit commit .lockfile
  match validatedVersion loads manifest lockfile "requested Git commit" with
  | .ok version => return version
  | .error message => throw (.policy message)

/-- `VersionRepository.check_pr`. -/
def checkPr (baseRef headRef : List Char) : Gate (Version × Version) := do
  let base ← versionAt loads baseRef
  let head ← versionAt loads headRef
  refuseIf (decide (head ≤ base))
    ("pull request version must be strictly greater than the base: " ++
      String.ofList head.str ++ " is not greater than " ++ String.ofList base.str)
  return (base, head)

end

/-! ## The texts that Git prints -/

theorem fullmatch_run {α : Type} [DecidableEq α] {accepts : α → Bool} {least : Nat}
    {most : Option Nat} {text : List α} :
    Pattern.fullmatch [.run accepts least most] text = true ↔
      (∀ c ∈ text, accepts c = true) ∧ least ≤ text.length ∧
        ∀ bound ∈ most, text.length ≤ bound := by
  rw [Pattern.fullmatch_iff]
  constructor
  · rintro ⟨ms, hall, rfl⟩
    obtain ⟨m, rest, hm, hrest, rfl⟩ := List.forall₂_cons_left_iff.mp hall
    cases hrest
    rw [List.flatten_cons, List.flatten_nil, List.append_nil]
    exact hm
  · intro h
    exact ⟨[text], .cons h .nil, by simp⟩

theorem isHex_cases {c : Char} (h : Git.isHex c = true) :
    (48 ≤ c.toNat ∧ c.toNat ≤ 57) ∨ (97 ≤ c.toNat ∧ c.toNat ≤ 102) := by
  simp only [Git.isHex, Char.isDigit, Bool.or_eq_true, Bool.and_eq_true, decide_eq_true_eq] at h
  exact h

section

variable {text : List Char} (htext : ∀ c ∈ text, 32 < c.toNat ∧ c.toNat < 128)

include htext

theorem ascii_toNat {c : Char} (hc : c ∈ text) : (UInt8.ofNat c.toNat).toNat = c.toNat := by
  have hbound := (htext c hc).2
  exact UInt8.toNat_ofNat_of_lt' (by simp only [UInt8.size]; omega)

theorem ascii_plain : ∀ byte ∈ Git.ascii text, 32 < byte.toNat := by
  intro byte hbyte
  obtain ⟨c, hc, rfl⟩ := List.mem_map.mp hbyte
  rw [ascii_toNat htext hc]
  exact (htext c hc).1

theorem map_ascii : (Git.ascii text).map (fun byte => Char.ofNat byte.toNat) = text := by
  unfold Git.ascii
  rw [List.map_map]
  refine (List.map_congr_left fun c hc => ?_).trans (List.map_id text)
  simp only [Function.comp_apply, ascii_toNat htext hc, Char.ofNat_toNat, id]

theorem decodeAscii_line : decodeAscii (Git.ascii text ++ [10]) = some (text ++ ['\n']) := by
  have hall : (Git.ascii text ++ [10]).all (· < 128) = true := by
    rw [List.all_append, Bool.and_eq_true]
    refine ⟨List.all_eq_true.mpr fun byte hbyte => ?_, rfl⟩
    obtain ⟨c, hc, rfl⟩ := List.mem_map.mp hbyte
    rw [decide_eq_true_eq, UInt8.lt_iff_toNat_lt, ascii_toNat htext hc]
    exact (htext c hc).2
  unfold decodeAscii
  rw [if_pos hall, List.map_append, map_ascii htext]
  rfl

end

/-- What ends with white space and has none before it. -/
theorem strip_line {α : Type} {space : α → Bool} {text : List α} {last : α}
    (htext : ∀ c ∈ text, space c = false) (hlast : space last = true) :
    ((text ++ [last]).dropWhile space).rdropWhile space = text := by
  have hfront : (text ++ [last]).dropWhile space = text ++ [last] ∨ text = [] := by
    cases text with
    | nil => exact .inr rfl
    | cons c text =>
        refine .inl ?_
        rw [List.cons_append, List.dropWhile_cons_of_neg]
        simp [htext c (by simp)]
  rcases hfront with hfront | rfl
  · rw [hfront, List.rdropWhile_concat_pos _ _ _ hlast, List.rdropWhile_eq_self_iff]
    intro hne
    simp [htext _ (List.getLast_mem hne)]
  · simp [hlast]

/-- Text before white space stays. -/
theorem mem_strip_head {c : Char} {rest : List Char} (hc : Python.isSpace c = false) :
    c ∈ strip (c :: rest) := by
  unfold strip lstrip
  rw [List.dropWhile_cons_of_neg (by rw [hc]; decide)]
  have hlead := List.rdropWhile_prefix Python.isSpace (c :: rest)
  cases hfront : (c :: rest).rdropWhile Python.isSpace with
  | nil =>
      have hspace := List.rdropWhile_eq_nil_iff.mp hfront c (by simp)
      rw [hc] at hspace
      cases hspace
  | cons c' rest' =>
      rw [hfront] at hlead
      obtain rfl := (List.cons_prefix_cons.mp hlead).1
      simp

theorem not_isSpaceByte {byte : UInt8} (h : 32 < byte.toNat) : isSpaceByte byte = false := by
  simp only [isSpaceByte, Bool.or_eq_false_iff, beq_eq_false_iff_ne, ne_eq, ← UInt8.toNat_inj]
  refine ⟨⟨⟨⟨⟨?_, ?_⟩, ?_⟩, ?_⟩, ?_⟩, ?_⟩ <;> simp <;> omega

theorem splitBytes_word {word : List UInt8} (hne : word ≠ [])
    (hword : ∀ byte ∈ word, 32 < byte.toNat) : splitBytes word = [word] := by
  unfold splitBytes
  rw [List.splitOnP_eq_singleton fun byte hbyte => not_isSpaceByte (hword byte hbyte)]
  simp [hne]

theorem splitBytes_append {word rest : List UInt8} (hne : word ≠ [])
    (hword : ∀ byte ∈ word, 32 < byte.toNat) :
    splitBytes (word ++ 32 :: rest) = word :: splitBytes rest := by
  unfold splitBytes
  rw [List.splitOnP_append_cons_of_forall_mem
    (fun byte hbyte => not_isSpaceByte (hword byte hbyte)) 32 rfl rest]
  simp [hne]

section

variable (id : Git.ObjectId)

theorem objectId_plain : ∀ c ∈ id.text, 32 < c.toNat ∧ c.toNat < 128 := by
  intro c hc
  have hcases := isHex_cases (id.hex c hc)
  omega

theorem strip_objectId : strip (id.text ++ ['\n']) = id.text := by
  refine strip_line (fun c hc => ?_) rfl
  have hcases := isHex_cases (id.hex c hc)
  simp only [Python.isSpace, Bool.or_eq_false_iff, Bool.and_eq_false_imp, decide_eq_true_eq,
    decide_eq_false_iff_not, beq_eq_false_iff_ne, ne_eq]
  omega

theorem fullmatch_objectId : Pattern.fullmatch hexObjectRe id.text = true := by
  refine fullmatch_run.mpr ⟨fun c hc => ?_, id.least, ?_⟩
  · have hhex := id.hex c hc
    unfold Git.isHex at hhex
    simp only [isHexDigit, hhex, Bool.true_or]
  · rintro _ ⟨⟩
    exact id.most

theorem lower_objectId : id.text.map Char.toLower = id.text := by
  refine (List.map_congr_left fun c hc => ?_).trans (List.map_id id.text)
  have hcases := isHex_cases (id.hex c hc)
  have hupper : ¬ (c.val ≥ 'A'.val ∧ c.val ≤ 'Z'.val) := by
    simp only [ge_iff_le, UInt32.le_iff_toNat_le, not_and]
    change 65 ≤ c.toNat → ¬ c.toNat ≤ 90
    omega
  unfold Char.toLower
  exact dif_neg hupper

theorem fullmatch_objectBytes : Pattern.fullmatch objectBytesRe (Git.ascii id.text) = true := by
  have hlength : (Git.ascii id.text).length = id.text.length := List.length_map ..
  refine fullmatch_run.mpr ⟨fun byte hbyte => ?_, hlength ▸ id.least, ?_⟩
  · obtain ⟨c, hc, rfl⟩ := List.mem_map.mp hbyte
    have hcases := isHex_cases (id.hex c hc)
    have hnat := ascii_toNat (objectId_plain id) hc
    simp only [isHexByte, Bool.or_eq_true, Bool.and_eq_true, decide_eq_true_eq,
      UInt8.le_iff_toNat_le, hnat]
    simp
    omega
  · rintro _ ⟨⟩
    exact hlength ▸ id.most

end

/-- The line of an entry tells whether it is one of a regular file. -/
theorem isRegularPrefix_line (entry : Git.Entry) (path : List Char) :
    isRegularPrefix (splitBytes ((entry.line path).takeWhile (· != 9))) = true ↔
      entry.mode.bytes = Git.ascii "100644".toList ∧ entry.kind.bytes = Git.blobKind := by
  have hobject := ascii_plain (objectId_plain entry.object)
  have hobjectNe : Git.ascii entry.object.text ≠ [] := by
    intro h
    have hlength := congrArg List.length h
    simp only [Git.ascii, List.length_map, List.length_nil] at hlength
    have := entry.object.least
    omega
  have hlead : (entry.line path).takeWhile (· != 9) =
      entry.mode.bytes ++ 32 :: (entry.kind.bytes ++ 32 :: Git.ascii entry.object.text) := by
    have htab : ∀ byte : UInt8, 32 < byte.toNat → (byte != 9) = true := by
      intro byte h
      simp only [bne_iff_ne, ne_eq, ← UInt8.toNat_inj]
      simp
      omega
    unfold Git.Entry.line
    rw [List.takeWhile_append_of_pos fun byte hbyte => htab byte (entry.mode.plain byte hbyte),
      List.takeWhile_cons_of_pos (by rfl),
      List.takeWhile_append_of_pos fun byte hbyte => htab byte (entry.kind.plain byte hbyte),
      List.takeWhile_cons_of_pos (by rfl),
      List.takeWhile_append_of_pos fun byte hbyte => htab byte (hobject byte hbyte),
      List.takeWhile_cons_of_neg (by decide), List.append_nil]
  rw [hlead, splitBytes_append entry.mode.nonempty entry.mode.plain,
    splitBytes_append entry.kind.nonempty entry.kind.plain, splitBytes_word hobjectNe hobject]
  simp only [isRegularPrefix, fullmatch_objectBytes, Bool.and_true, Bool.and_eq_true, beq_iff_eq]
  rfl

/-! ## The texts of sizes -/

theorem toDigits_plain (n : Nat) :
    ∀ c ∈ Nat.toDigits 10 n, 32 < c.toNat ∧ c.toNat < 128 :=
  forall_mem_toDigits (by decide) (by decide) n

theorem stripBytes_size (n : Nat) :
    stripBytes (Git.ascii (Nat.toDigits 10 n) ++ [10]) = Git.ascii (Nat.toDigits 10 n) :=
  strip_line (fun byte hbyte => not_isSpaceByte (ascii_plain (toDigits_plain n) byte hbyte)) rfl

theorem fullmatch_size (n : Nat) :
    Pattern.fullmatch sizeRe (Git.ascii (Nat.toDigits 10 n)) = true := by
  refine fullmatch_run.mpr ⟨fun byte hbyte => ?_, ?_, by simp⟩
  · obtain ⟨c, hc, rfl⟩ := List.mem_map.mp hbyte
    have hdigit := toDigits_isDigit c hc
    simp only [Char.isDigit, Bool.and_eq_true, decide_eq_true_eq] at hdigit
    change 48 ≤ c.toNat ∧ c.toNat ≤ 57 at hdigit
    simp only [Bool.and_eq_true, decide_eq_true_eq, UInt8.le_iff_toNat_le,
      ascii_toNat (toDigits_plain n) hc]
    simpa using hdigit
  · simp only [Git.ascii, List.length_map]
    exact Nat.length_toDigits_pos

theorem intOfBytes_size {n : Nat} (hn : (Nat.toDigits 10 n).length ≤ maxStrDigits) :
    intOfBytes (Git.ascii (Nat.toDigits 10 n)) = pure n := by
  unfold intOfBytes
  rw [map_ascii (toDigits_plain n), Version.int_toDigits, if_neg]
  simp only [Git.ascii, List.length_map]
  omega

end Cirrusync.Release
