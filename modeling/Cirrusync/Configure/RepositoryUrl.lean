import Cirrusync.Configure.DnsNames

/-!
`validate_repository_url` of the installer: a regular expression, a list of
patterns that the host and the path must not match, and the range of the port.
bash runs in the C locale; `die` is an error with its message.
-/

namespace Cirrusync.Configure

open Numerals Text Shell Release

def isAuthorityChar (c : Char) : Bool := isAlphanumeric c || c == '.' || c == '-'

def isPathChar (c : Char) : Bool := isAlphanumeric c || c == '.' || c == '_' || c == '/' || c == '-'

/-- `https://`, an authority, at most one `(:[0-9]{1,5})`, a slash and a path. -/
def repositoryUrlPattern : List (Pattern Char) :=
  [.lit "https://".toList, .run isAuthorityChar 1 none,
    .alt (.seq (.lit [':']) (.run Char.isDigit 1 (some 5))) (.lit []),
    .lit ['/'], .run isPathChar 1 none]

/-- `${text%%c*}`. -/
def beforeFirst (c : Char) (text : List Char) : List Char := text.takeWhile (· != c)

/-- `${text#*c}`: all of a text without the character. -/
def afterFirst (c : Char) (text : List Char) : List Char :=
  match text.dropWhile (· != c) with
  | [] => text
  | _ :: rest => rest

/-- `${text##*c}`. -/
def afterLast (c : Char) (text : List Char) : List Char := text.rtakeWhile (· != c)

/-- The patterns that the authority must not match. -/
def safeAuthority (authority : List Char) : Bool :=
  !contains "@".toList authority && !".".toList.isPrefixOf authority &&
    !contains "..".toList authority && !contains ".-".toList authority &&
    !contains "-.".toList authority

/-- The patterns that the path must not match. -/
def safePath (path : List Char) : Bool :=
  !"/".toList.isSuffixOf path && !contains "//".toList path &&
    !"../".toList.isPrefixOf path && !contains "/../".toList path &&
    !"/..".toList.isSuffixOf path && !"./".toList.isPrefixOf path &&
    !contains "/./".toList path && !"/.".toList.isSuffixOf path

def validateRepositoryUrl (url : List Char) : Except String Unit := do
  ensure (Pattern.fullmatch repositoryUrlPattern url)
    "--repo must be a credential-free HTTPS repository URL"
  let remainder := (stripPrefix "https://".toList url).getD url
  let authority := beforeFirst '/' remainder
  let repositoryPath := afterFirst '/' remainder
  ensure (safeAuthority authority && safePath repositoryPath)
    "--repo contains an unsafe host or path"
  if contains [':'] authority then
    let port := afterLast ':' authority
    ensure (arithmetic (fun value bound => bound.sle value) (constant port) (some 1#64) &&
        arithmetic BitVec.sle (constant port) (some 65535#64))
      "--repo contains an invalid TCP port"
  else return ()

def portText : Option (List Char) → List Char
  | none => []
  | some digits => ':' :: digits

/-- A URL for cloning over HTTPS without credentials. -/
structure CloneUrl (url host : List Char) (port : Option (List Char)) (path : List Char) :
    Prop where
  url_eq : url = "https://".toList ++ (host ++ portText port ++ '/' :: path)
  host_nonempty : host ≠ []
  host_chars : ∀ c ∈ host, isAlphanumeric c = true ∨ c = '.' ∨ c = '-'
  host_start : host.head? ≠ some '.'
  host_dots : ¬"..".toList <:+: host
  port_range : ∀ digits ∈ port, 1 ≤ digits.length ∧ digits.length ≤ 5 ∧
    (∀ c ∈ digits, c.isDigit = true) ∧ 1 ≤ Nat.ofDigitChars 10 digits 0 ∧
    Nat.ofDigitChars 10 digits 0 ≤ 65535
  clean : ∀ c ∈ url, c ≠ '@' ∧ c ≠ '?' ∧ c ≠ '#' ∧ isControl c = false

/-- Every component of the path names something below the one before it. -/
def Descends (path : List Char) : Prop :=
  ∀ component ∈ splitChars '/' path,
    component ≠ [] ∧ component ≠ ['.'] ∧ component ≠ ['.', '.']

/-- What follows the first slash after the authority is neither one dot nor two, and
does not start with a slash. -/
def StartsBelow (url : List Char) : Prop :=
  ∀ authority, '/' ∉ authority → url ≠ "https://".toList ++ (authority ++ "/.".toList) ∧
    url ≠ "https://".toList ++ (authority ++ "/..".toList) ∧
    ¬"https://".toList ++ (authority ++ "//".toList) <+: url

/-! ## The path -/

/-- The patterns leave out a bad component everywhere but where it is all of the path,
and an empty one everywhere but at its start. -/
theorem descends_iff {path : List Char} (hne : path ≠ []) (h : safePath path = true) :
    Descends path ↔ path ≠ ['.'] ∧ path ≠ ['.', '.'] ∧ path.head? ≠ some '/' := by
  simp only [safePath, Bool.and_eq_true, Bool.not_eq_true', Bool.eq_false_iff, ne_eq,
    contains_iff, List.isPrefixOf_iff_prefix, List.isSuffixOf_iff_suffix] at h
  obtain ⟨⟨⟨⟨⟨⟨⟨hend, hdouble⟩, hup⟩, hups⟩, hupEnd⟩, hdot⟩, hdots⟩, hdotEnd⟩ := h
  have hnil : [] ∈ splitChars '/' path ↔ path.head? = some '/' := by
    rw [mem_splitChars_iff (by simp), ← List.singleton_prefix_iff_head?_eq_some]
    constructor
    · rintro (hempty | hstart | hsuffix | hinfix)
      · exact absurd hempty hne
      · exact hstart
      · exact absurd hsuffix hend
      · exact absurd hinfix hdouble
    · exact fun hstart => .inr (.inl hstart)
  have hone : ['.'] ∈ splitChars '/' path ↔ path = ['.'] := by
    rw [mem_splitChars_iff (by decide)]
    constructor
    · rintro (hwhole | hstart | hsuffix | hinfix)
      · exact hwhole
      · exact absurd hstart hdot
      · exact absurd hsuffix hdotEnd
      · exact absurd hinfix hdots
    · exact .inl
  have htwo : ['.', '.'] ∈ splitChars '/' path ↔ path = ['.', '.'] := by
    rw [mem_splitChars_iff (by decide)]
    constructor
    · rintro (hwhole | hstart | hsuffix | hinfix)
      · exact hwhole
      · exact absurd hstart hup
      · exact absurd hsuffix hupEnd
      · exact absurd hinfix hups
    · exact .inl
  constructor
  · intro hdescends
    refine ⟨fun hpath => ?_, fun hpath => ?_, fun hpath => ?_⟩
    · exact (hdescends _ (hone.mpr hpath)).2.1 rfl
    · exact (hdescends _ (htwo.mpr hpath)).2.2 rfl
    · exact (hdescends _ (hnil.mpr hpath)).1 rfl
  · rintro ⟨hpathOne, hpathTwo, hpathNil⟩ component hcomponent
    refine ⟨?_, ?_, ?_⟩
    · rintro rfl
      exact hpathNil (hnil.mp hcomponent)
    · rintro rfl
      exact hpathOne (hone.mp hcomponent)
    · rintro rfl
      exact hpathTwo (htwo.mp hcomponent)

/-! ## The authority -/

theorem cut_at {c : Char} {front : List Char} (h : c ∉ front) (rest : List Char) :
    beforeFirst c (front ++ c :: rest) = front ∧ afterFirst c (front ++ c :: rest) = rest := by
  have hfront : ∀ d ∈ front, (d != c) = true := by
    intro d hd
    rw [bne_iff_ne]
    rintro rfl
    exact h hd
  have hstop : ∀ d ∈ (c :: rest).head?, (d != c) = false := by simp
  obtain ⟨htake, hdrop⟩ := takeWhile_append_class hfront hstop
  exact ⟨htake, by rw [afterFirst, hdrop]⟩

theorem afterLast_append {c : Char} {front rest : List Char} (h : c ∉ rest) :
    afterLast c (front ++ c :: rest) = rest := by
  have hrest : ∀ d ∈ rest.reverse, (d != c) = true := by
    intro d hd
    rw [bne_iff_ne]
    rintro rfl
    exact h (List.mem_reverse.mp hd)
  have hstop : ∀ d ∈ (c :: front.reverse).head?, (d != c) = false := by simp
  obtain ⟨htake, -⟩ := takeWhile_append_class hrest hstop
  have hback : (front ++ c :: rest).reverse = rest.reverse ++ c :: front.reverse := by simp
  rw [afterLast, List.rtakeWhile, hback, htake, List.reverse_reverse]

/-- What the expression matches. -/
theorem matched_form {url : List Char} (h : Pattern.fullmatch repositoryUrlPattern url = true) :
    ∃ host port path, url = "https://".toList ++ (host ++ portText port ++ '/' :: path) ∧
      (host ≠ [] ∧ ∀ c ∈ host, isAuthorityChar c = true) ∧
      (∀ digits ∈ port, 1 ≤ digits.length ∧ digits.length ≤ 5 ∧ ∀ c ∈ digits, c.isDigit = true) ∧
      path ≠ [] ∧ ∀ c ∈ path, isPathChar c = true := by
  obtain ⟨ms, hall, rfl⟩ := Pattern.fullmatch_iff.mp h
  obtain ⟨scheme, _, hscheme, hfromHost, rfl⟩ := List.forall₂_cons_left_iff.mp hall
  obtain ⟨host, _, hhost, hfromPort, rfl⟩ := List.forall₂_cons_left_iff.mp hfromHost
  obtain ⟨portPart, _, hport, hfromSlash, rfl⟩ := List.forall₂_cons_left_iff.mp hfromPort
  obtain ⟨slash, _, hslash, hfromPath, rfl⟩ := List.forall₂_cons_left_iff.mp hfromSlash
  obtain ⟨path, _, hpath, hnone, rfl⟩ := List.forall₂_cons_left_iff.mp hfromPath
  cases hnone
  cases hscheme
  cases hslash
  obtain ⟨hhostChars, hhostLength, -⟩ := hhost
  obtain ⟨hpathChars, hpathLength, -⟩ := hpath
  have hform : ∃ port, portPart = portText port ∧ ∀ digits ∈ port,
      1 ≤ digits.length ∧ digits.length ≤ 5 ∧ ∀ c ∈ digits, c.isDigit = true := by
    rcases hport with ⟨colon, digits, rfl, hcolon, hchars, hleast, hmost⟩ | hempty
    · cases hcolon
      refine ⟨some digits, rfl, fun other hother => ?_⟩
      cases hother
      exact ⟨hleast, hmost 5 rfl, hchars⟩
    · cases hempty
      exact ⟨none, rfl, fun digits hdigits => by cases hdigits⟩
  obtain ⟨port, rfl, hrange⟩ := hform
  refine ⟨host, port, path, by simp, ⟨List.ne_nil_of_length_pos hhostLength, hhostChars⟩, hrange,
    List.ne_nil_of_length_pos hpathLength, hpathChars⟩

/-- Neither the host nor the port has a slash. -/
theorem slash_notMem {host : List Char} {port : Option (List Char)}
    (hhost : ∀ c ∈ host, isAuthorityChar c = true)
    (hport : ∀ digits ∈ port, ∀ c ∈ digits, c.isDigit = true) : '/' ∉ host ++ portText port := by
  intro hmem
  rcases List.mem_append.mp hmem with hmem | hmem
  · exact absurd (hhost '/' hmem) (by decide)
  · cases port with
    | none => cases hmem
    | some digits =>
        rcases List.mem_cons.mp hmem with hcolon | hdigit
        · cases hcolon
        · exact absurd (hport digits rfl '/' hdigit) (by decide)

theorem port_in_range {digits : List Char} (hne : digits ≠ [])
    (hdigits : ∀ c ∈ digits, c.isDigit = true) (hlength : digits.length ≤ 5)
    (h : (arithmetic (fun value bound => bound.sle value) (constant digits) (some 1#64) &&
      arithmetic BitVec.sle (constant digits) (some 65535#64)) = true) :
    1 ≤ Nat.ofDigitChars 10 digits 0 ∧ Nat.ofDigitChars 10 digits 0 ≤ 65535 := by
  have hbound := ofDigitChars_lt hdigits 0
  have hpower : 10 ^ digits.length ≤ 10 ^ 5 := Nat.pow_le_pow_right (by decide) hlength
  have hsmall : Nat.ofDigitChars 10 digits 0 < 2 ^ 63 := by omega
  obtain ⟨x, hconstant, hx⟩ := constant_value hne hdigits rfl hsmall
  simp only [hconstant, arithmetic, Bool.and_eq_true, BitVec.sle_iff_toInt_le] at h
  have hone : (1#64).toInt = 1 := by decide
  have hmost : (65535#64).toInt = 65535 := by decide
  omega

theorem afterLast_authority (host : List Char) {digits : List Char}
    (h : ∀ c ∈ digits, c.isDigit = true) :
    contains [':'] (host ++ ':' :: digits) = true ∧
      afterLast ':' (host ++ ':' :: digits) = digits := by
  have hdigits : ':' ∉ digits := by
    intro hmem
    exact absurd (h _ hmem) (by decide)
  refine ⟨(contains_iff _ _).mpr ⟨host, digits, by simp⟩, afterLast_append hdigits⟩

/-- A character of an accepted URL. -/
def isUrlChar (c : Char) : Bool := isHostChar c || c == '_' || c == '/' || c == ':'

theorem isUrlChar_clean {c : Char} (h : isUrlChar c = true) :
    c ≠ '@' ∧ c ≠ '?' ∧ c ≠ '#' ∧ isControl c = false := by
  refine ⟨?_, ?_, ?_, ?_⟩
  · rintro rfl
    exact absurd h (by decide)
  · rintro rfl
    exact absurd h (by decide)
  · rintro rfl
    exact absurd h (by decide)
  · have hrange : 45 ≤ c.toNat ∧ c.toNat ≤ 122 := by
      simp only [isUrlChar, Bool.or_eq_true, beq_iff_eq] at h
      rcases h with ((h | rfl) | rfl) | rfl
      · exact isHostChar_range h
      · decide
      · decide
      · decide
    simp only [isControl, Bool.or_eq_false_iff, Bool.and_eq_false_iff, decide_eq_false_iff_not]
    omega

theorem isUrlChar_of_form {host path : List Char} {port : Option (List Char)}
    (hhost : ∀ c ∈ host, isAuthorityChar c = true)
    (hport : ∀ digits ∈ port, ∀ c ∈ digits, c.isDigit = true)
    (hpath : ∀ c ∈ path, isPathChar c = true) :
    ∀ c ∈ "https://".toList ++ (host ++ portText port ++ '/' :: path), isUrlChar c = true := by
  intro c hc
  simp only [List.mem_append, List.mem_cons] at hc
  rcases hc with hc | (hc | hc) | rfl | hc
  · have hscheme : ∀ c ∈ "https://".toList, isUrlChar c = true :=
      List.all_eq_true.mp (by decide)
    exact hscheme c hc
  · have hchar := hhost c hc
    simp only [isAuthorityChar, isUrlChar, isHostChar, Bool.or_eq_true] at hchar ⊢
    tauto
  · cases port with
    | none => cases hc
    | some digits =>
        rcases List.mem_cons.mp hc with rfl | hdigit
        · decide
        · have hchar := hport digits rfl c hdigit
          simp [isUrlChar, isHostChar, isAlphanumeric, hchar]
  · decide
  · have hchar := hpath c hc
    simp only [isPathChar, isUrlChar, isHostChar, Bool.or_eq_true] at hchar ⊢
    tauto

/-- An accepted URL is that of a clone over HTTPS, with a host, perhaps a port, and a path that is
not empty and passes the installer's own checks of paths. -/
theorem accepted_form {url : List Char} (h : validateRepositoryUrl url = .ok ()) :
    ∃ host port path, CloneUrl url host port path ∧ path ≠ [] ∧ safePath path = true := by
  unfold validateRepositoryUrl at h
  simp only [ensure_bind_ok] at h
  obtain ⟨hmatch, hsafe, hrange⟩ := h
  obtain ⟨host, port, path, hurl, ⟨hhostNe, hhost⟩, hport, hpathNe, hpath⟩ := matched_form hmatch
  have hdigits : ∀ digits ∈ port, ∀ c ∈ digits, c.isDigit = true :=
    fun digits hmem => (hport digits hmem).2.2
  obtain ⟨hauthority, hrest⟩ := cut_at (slash_notMem hhost hdigits) path
  rw [hurl, stripPrefix_append, Option.getD_some, hauthority, hrest, Bool.and_eq_true] at hsafe
  rw [hurl, stripPrefix_append, Option.getD_some, hauthority] at hrange
  obtain ⟨hsafeHost, hsafePath⟩ := hsafe
  simp only [safeAuthority, Bool.and_eq_true, Bool.not_eq_true', Bool.eq_false_iff, ne_eq,
    contains_iff, List.isPrefixOf_iff_prefix] at hsafeHost
  obtain ⟨⟨⟨⟨-, hstart⟩, hdots⟩, -⟩, -⟩ := hsafeHost
  refine ⟨host, port, path, ⟨hurl, hhostNe, ?_, ?_, ?_, ?_, ?_⟩, hpathNe, hsafePath⟩
  · intro c hc
    have hchar := hhost c hc
    simp only [isAuthorityChar, Bool.or_eq_true, beq_iff_eq, or_assoc] at hchar
    exact hchar
  · intro hhead
    have hdot : ['.'] <+: host := List.singleton_prefix_iff_head?_eq_some.mpr hhead
    exact hstart (hdot.trans (List.prefix_append _ _))
  · intro htwo
    exact hdots (htwo.trans (List.prefix_append _ _).isInfix)
  · intro digits hmem
    cases hmem
    obtain ⟨hleast, hmost, hchars⟩ := hport digits rfl
    obtain ⟨hcolon, hlast⟩ := afterLast_authority host hchars
    rw [portText, if_pos hcolon, hlast, ensure_ok] at hrange
    obtain ⟨hlow, hhigh⟩ := port_in_range (List.ne_nil_of_length_pos hleast) hchars hmost hrange
    exact ⟨hleast, hmost, hchars, hlow, hhigh⟩
  · intro c hc
    rw [hurl] at hc
    exact isUrlChar_clean (isUrlChar_of_form hhost hdigits hpath c hc)

/-! ## Which accepted URLs descend -/

theorem CloneUrl.slash_notMem {url host path : List Char} {port : Option (List Char)}
    (h : CloneUrl url host port path) : '/' ∉ host ++ portText port := by
  refine Configure.slash_notMem (fun c hc => ?_)
    (fun digits hdigits => (h.port_range digits hdigits).2.2.1)
  rcases h.host_chars c hc with hchar | rfl | rfl
  · simp [isAuthorityChar, hchar]
  · decide
  · decide

theorem CloneUrl.path_eq {url host path : List Char} {port : Option (List Char)}
    (h : CloneUrl url host port path) {authority rest : List Char} (hauthority : '/' ∉ authority)
    (hurl : url = "https://".toList ++ (authority ++ '/' :: rest)) : path = rest := by
  have hsame := List.append_cancel_left (h.url_eq.symm.trans hurl)
  rw [← (cut_at h.slash_notMem path).2, hsame, (cut_at hauthority rest).2]

theorem CloneUrl.startsBelow_iff {url host path : List Char} {port : Option (List Char)}
    (h : CloneUrl url host port path) :
    StartsBelow url ↔ path ≠ ['.'] ∧ path ≠ ['.', '.'] ∧ path.head? ≠ some '/' := by
  constructor
  · intro hstarts
    obtain ⟨hone, htwo, hslash⟩ := hstarts _ h.slash_notMem
    rw [h.url_eq] at hone htwo hslash
    refine ⟨?_, ?_, ?_⟩
    · rintro rfl
      exact hone rfl
    · rintro rfl
      exact htwo rfl
    · intro hhead
      obtain ⟨rest, rfl⟩ := List.singleton_prefix_iff_head?_eq_some.mpr hhead
      exact hslash ⟨rest, by simp⟩
  · rintro ⟨hone, htwo, hslash⟩ authority hauthority
    refine ⟨fun hurl => ?_, fun hurl => ?_, ?_⟩
    · exact hone (h.path_eq hauthority hurl)
    · exact htwo (h.path_eq hauthority hurl)
    · rintro ⟨rest, hrest⟩
      refine hslash ?_
      have hpath : path = '/' :: rest := h.path_eq hauthority (by rw [← hrest]; simp)
      rw [hpath]
      rfl

/-- Every accepted URL has a safe host and port and no other part; its path has no
empty component and none that is one dot or two just when it starts below. -/
theorem accepted_descends_iff {url : List Char} (h : validateRepositoryUrl url = .ok ()) :
    (∃ host port path, CloneUrl url host port path) ∧
      ((∃ host port path, CloneUrl url host port path ∧ Descends path) ↔ StartsBelow url) := by
  obtain ⟨host, port, path, hform, hne, hsafe⟩ := accepted_form h
  refine ⟨⟨host, port, path, hform⟩, ?_⟩
  rw [hform.startsBelow_iff, ← descends_iff hne hsafe]
  constructor
  · rintro ⟨host', port', path', hform', hdescends⟩
    rw [hform.path_eq hform'.slash_notMem hform'.url_eq]
    exact hdescends
  · exact fun hdescends => ⟨host, port, path, hform, hdescends⟩

theorem accepted_descends_iff_release :
    (∃ host port path, CloneUrl "https://github.com/wiresock/cirrusync.git".toList host port path) ∧
      ((∃ host port path, CloneUrl "https://github.com/wiresock/cirrusync.git".toList host port
          path ∧ Descends path) ↔
        StartsBelow "https://github.com/wiresock/cirrusync.git".toList) :=
  accepted_descends_iff (by decide +kernel)

/-- The parent of the root and an empty first component are let through. -/
theorem parent_of_root_accepted :
    validateRepositoryUrl "https://github.com/..".toList = .ok () ∧
      validateRepositoryUrl "https://github.com//wiresock/cirrusync.git".toList = .ok () ∧
      ¬∃ host port path, CloneUrl "https://github.com/..".toList host port path ∧
        Descends path := by
  have haccepted : validateRepositoryUrl "https://github.com/..".toList = .ok () := by
    decide +kernel
  refine ⟨haccepted, by decide +kernel, ?_⟩
  rintro ⟨host, port, path, hform, hdescends⟩
  have hpath : path = ['.', '.'] := @CloneUrl.path_eq _ _ _ _ hform "github.com".toList _
    (by decide) (by decide)
  subst hpath
  exact (hdescends ['.', '.'] (by decide)).2.2 rfl

end Cirrusync.Configure
