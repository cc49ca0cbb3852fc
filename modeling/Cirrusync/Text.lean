import Mathlib.Algebra.GroupWithZero.Nat
import Mathlib.Data.Bool.AllAny
import Mathlib.Data.List.Basic
import Mathlib.Data.List.DropRight

/-!
The text operations of the Rust standard library that the code uses, on lists
of characters and lifted to strings. `trim` and `isWhitespace` follow the
Unicode `White_Space` property and `isControl` the category `Cc`; the ASCII
operations leave every other character alone.
-/

namespace Cirrusync.Text

def isWhitespace (c : Char) : Bool :=
  let n := c.toNat
  (9 ≤ n && n ≤ 13) || n == 0x20 || n == 0x85 || n == 0xa0 || n == 0x1680 ||
    (0x2000 ≤ n && n ≤ 0x200a) || n == 0x2028 || n == 0x2029 || n == 0x202f ||
    n == 0x205f || n == 0x3000

def isControl (c : Char) : Bool :=
  c.toNat < 0x20 || (0x7f ≤ c.toNat && c.toNat < 0xa0)

def trimChars (cs : List Char) : List Char :=
  (cs.dropWhile isWhitespace).rdropWhile isWhitespace

def trim (s : String) : String := .ofList (trimChars s.toList)

/-- `trim_end_matches('.')`. -/
def trimEndDots (s : String) : String := .ofList (s.toList.rdropWhile (· == '.'))

def toAsciiLowercase (s : String) : String := .ofList (s.toList.map Char.toLower)

def eqIgnoreAsciiCase (s t : String) : Bool :=
  s.toList.map Char.toLower == t.toList.map Char.toLower

/-- The length of a text in bytes of its UTF-8 encoding. -/
def byteLength (cs : List Char) : Nat := (cs.map Char.utf8Size).sum

def len (s : String) : Nat := byteLength s.toList

def bytes (s : String) : List UInt8 := s.toList.flatMap String.utf8EncodeChar

/-- `str::from_utf8`. -/
def fromUtf8 (body : List UInt8) : Option String := String.fromUTF8? ⟨body.toArray⟩

/-- `split(separator)`: one more piece than there are separators. -/
def splitChars (separator : Char) : List Char → List (List Char)
  | [] => [[]]
  | c :: rest =>
      if c = separator then [] :: splitChars separator rest
      else match splitChars separator rest with
        | [] => [[c]]
        | piece :: pieces => (c :: piece) :: pieces

/-- `str::lines`: the pieces before a line feed, less a carriage return at
their end, and what follows the last line feed unless it is empty. -/
def lines (cs : List Char) : List (List Char) :=
  let pieces := splitChars '\n' cs
  let ended := pieces.dropLast.map (fun piece =>
    if piece.getLast? = some '\r' then piece.dropLast else piece)
  ended ++ pieces.getLast?.toList.filter (fun piece => !piece.isEmpty)

/-- `strip_prefix`. -/
def stripPrefix : List Char → List Char → Option (List Char)
  | [], cs => some cs
  | _ :: _, [] => none
  | p :: ps, c :: cs => if p = c then stripPrefix ps cs else none

def startsWith (s start : String) : Bool := start.toList.isPrefixOf s.toList

def endsWith (s suffix : String) : Bool := suffix.toList.isSuffixOf s.toList

def contains (pattern : List Char) : List Char → Bool
  | [] => pattern.isEmpty
  | c :: rest => pattern.isPrefixOf (c :: rest) || contains pattern rest

/-- `str::replace` for a nonempty pattern: leftmost matches that do not overlap.
The counter is how much of the last match is still to be skipped. -/
def replaceFrom (pattern replacement : List Char) : Nat → List Char → List Char
  | _, [] => []
  | skip + 1, _ :: rest => replaceFrom pattern replacement skip rest
  | 0, c :: rest =>
      if pattern.isPrefixOf (c :: rest) then
        replacement ++ replaceFrom pattern replacement (pattern.length - 1) rest
      else c :: replaceFrom pattern replacement 0 rest

def replace (s pattern replacement : String) : String :=
  .ofList (replaceFrom pattern.toList replacement.toList 0 s.toList)

def decimal (cs : List Char) : Nat :=
  cs.foldl (fun n c => 10 * n + (c.toNat - '0'.toNat)) 0

/-- `str::parse::<u64>`: an optional plus sign and at least one digit, with a
value that fits. -/
def parseU64 (cs : List Char) : Option Nat :=
  let digits := (stripPrefix ['+'] cs).getD cs
  if digits.isEmpty || !digits.all Char.isDigit then none
  else if decimal digits < 2 ^ 64 then some (decimal digits) else none

def hexDigit (n : Nat) : Char :=
  if n < 10 then Char.ofNat ('0'.toNat + n) else Char.ofNat ('a'.toNat + (n - 10))

/-- `{:016x}`. -/
def hex16 (n : UInt64) : String :=
  .ofList ((List.range 16).map (fun i => hexDigit (n.toNat / 16 ^ (15 - i) % 16)))

def isHexDigit (c : Char) : Bool :=
  c.isDigit || ('a'.toNat ≤ c.toNat && c.toNat ≤ 'f'.toNat) ||
    ('A'.toNat ≤ c.toNat && c.toNat ≤ 'F'.toNat)

def isAlphanumeric (c : Char) : Bool :=
  c.isDigit || ('a'.toNat ≤ c.toNat && c.toNat ≤ 'z'.toNat) ||
    ('A'.toNat ≤ c.toNat && c.toNat ≤ 'Z'.toNat)

theorem mk_bytes (s : String) : (⟨(bytes s).toArray⟩ : ByteArray) = s.toByteArray := by
  have hencoded : (bytes s).toByteArray = s.toByteArray := String.utf8Encode_toList
  rw [← hencoded]
  apply ByteArray.ext
  rw [List.data_toByteArray]

theorem fromUtf8_eq_some_iff {body : List UInt8} {s : String} :
    fromUtf8 body = some s ↔ body = bytes s := by
  have hsame : (⟨body.toArray⟩ : ByteArray) = s.toByteArray ↔ body = bytes s := by
    rw [← mk_bytes]
    simp
  rw [← hsame]
  unfold fromUtf8 String.fromUTF8?
  constructor
  · intro h
    split at h
    · exact congrArg String.toByteArray (Option.some.inj h)
    · cases h
  · intro h
    rw [h, dif_pos s.isValidUTF8]
    rfl

theorem length_bytes (s : String) : (bytes s).length = len s := by
  unfold bytes len byteLength
  rw [List.length_flatMap]
  simp

theorem toLower_cases (c : Char) :
    c.toLower = c ∨ 65 ≤ c.toNat ∧ c.toNat ≤ 90 ∧ c.toLower.toNat = c.toNat + 32 := by
  unfold Char.toLower
  split
  · rename_i hupper
    right
    simp only [Char.reduceVal, ge_iff_le, UInt32.le_iff_toNat_le, UInt32.reduceToNat] at hupper
    refine ⟨hupper.1, hupper.2, ?_⟩
    have hval : c.toNat = c.val.toNat := rfl
    simp only [Char.toNat, Char.reduceVal, UInt32.toNat_add, UInt32.reduceToNat,
      UInt32.reduceSub]
    omega
  · left
    rfl

/-- Outside of the letters, case folding neither makes nor loses a character. -/
theorem toLower_eq_iff {separator : Char} (h : separator.toNat < 65) (c : Char) :
    c.toLower = separator ↔ c = separator := by
  rcases toLower_cases c with hc | ⟨hlow, hhigh, hc⟩
  · rw [hc]
  · constructor
    · rintro rfl
      omega
    · rintro rfl
      omega

/-- A text that has been case folded is as case folding leaves it. -/
theorem toLower_of_mem_map {cs : List Char} {c : Char} (h : c ∈ cs.map Char.toLower) :
    c.toLower = c := by
  obtain ⟨d, -, rfl⟩ := List.mem_map.mp h
  rcases toLower_cases d with hd | ⟨hlow, -, hd⟩
  · rw [hd, hd]
  · rcases toLower_cases d.toLower with hsame | ⟨-, hhigh, -⟩
    · exact hsame
    · omega

theorem map_toLower_idem (cs : List Char) :
    (cs.map Char.toLower).map Char.toLower = cs.map Char.toLower := by
  have hfixed : (cs.map Char.toLower).map Char.toLower = (cs.map Char.toLower).map id :=
    List.map_congr_left fun c member => toLower_of_mem_map member
  rw [hfixed, List.map_id]

@[simp] theorem toList_toAsciiLowercase (s : String) :
    (toAsciiLowercase s).toList = s.toList.map Char.toLower := by
  simp [toAsciiLowercase]

theorem toAsciiLowercase_idem (s : String) :
    toAsciiLowercase (toAsciiLowercase s) = toAsciiLowercase s := by
  rw [← String.toList_inj, toList_toAsciiLowercase, toList_toAsciiLowercase]
  exact map_toLower_idem _

theorem eqIgnoreAsciiCase_iff (s t : String) :
    eqIgnoreAsciiCase s t = true ↔ toAsciiLowercase s = toAsciiLowercase t := by
  rw [← String.toList_inj]
  simp [eqIgnoreAsciiCase]

@[simp] theorem eqIgnoreAsciiCase_refl (s : String) : eqIgnoreAsciiCase s s = true := by
  simp [eqIgnoreAsciiCase]

theorem eqIgnoreAsciiCase_symm {s t : String} (h : eqIgnoreAsciiCase s t = true) :
    eqIgnoreAsciiCase t s = true := by
  rw [eqIgnoreAsciiCase_iff] at h ⊢
  exact h.symm

theorem eqIgnoreAsciiCase_trans {s t u : String} (h : eqIgnoreAsciiCase s t = true)
    (g : eqIgnoreAsciiCase t u = true) : eqIgnoreAsciiCase s u = true := by
  rw [eqIgnoreAsciiCase_iff] at h g ⊢
  exact h.trans g

end Cirrusync.Text
