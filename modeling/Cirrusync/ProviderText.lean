import Cirrusync.Discovery
import Cirrusync.Pieces
import Cirrusync.Scenario
import Cirrusync.Trim

/-!
The two formats of a provider's body: one address, or a trace with one `ip=` line
that has a value. Of a trace, neither the order of the lines nor their ends nor the
other lines matter.
-/

namespace Cirrusync

open Text

/-- Lines with their ends: a line feed, with or without a carriage return before it,
and none after a last line that is not empty. -/
inductive Written : List (List Char) → List Char → Prop where
  | nil : Written [] []
  | last {line : List Char} (hline : '\n' ∉ line) (hne : line ≠ []) : Written [line] line
  | lf {line : List Char} {more : List (List Char)} {rest : List Char} (hline : '\n' ∉ line)
      (hrest : Written more rest) : Written (line :: more) (line ++ '\n' :: rest)
  | crlf {line : List Char} {more : List (List Char)} {rest : List Char} (hline : '\n' ∉ line)
      (hrest : Written more rest) : Written (line :: more) (line ++ '\r' :: '\n' :: rest)

/-- A line of a trace that gives an address. -/
def IpLine (line value : List Char) : Prop :=
  ∃ after, trimChars line = "ip=".toList ++ after ∧ value = trimChars after ∧ value ≠ []

/-- Lines in another order, and lines added or taken away that do not start with `ip=`. -/
inductive Edited : List (List Char) → List (List Char) → Prop where
  | reorder {before after : List (List Char)} (hperm : before.Perm after) : Edited before after
  | insert {front rest : List (List Char)} {line : List Char}
      (hline : ¬"ip=".toList <+: trimChars line) : Edited (front ++ rest) (front ++ line :: rest)
  | delete {front rest : List (List Char)} {line : List Char}
      (hline : ¬"ip=".toList <+: trimChars line) : Edited (front ++ line :: rest) (front ++ rest)
  | trans {before between after : List (List Char)} (hfirst : Edited before between)
      (hsecond : Edited between after) : Edited before after

/-! ## Lines -/

theorem lines_of_notMem {line : List Char} (h : '\n' ∉ line) (hne : line ≠ []) :
    lines line = [line] := by
  simp [lines, splitChars_of_not_mem h, hne]

theorem lines_append {line rest : List Char} (h : '\n' ∉ line) :
    lines (line ++ '\n' :: rest) =
      (if line.getLast? = some '\r' then line.dropLast else line) :: lines rest := by
  obtain ⟨piece, pieces, hpieces⟩ := List.exists_cons_of_ne_nil (splitChars_ne_nil '\n' rest)
  simp [lines, splitChars_append, splitChars_of_not_mem h, hpieces]

theorem trimChars_dropLast_cr {line : List Char} (h : line.getLast? = some '\r') :
    trimChars line.dropLast = trimChars line := by
  obtain ⟨front, rfl⟩ := List.getLast?_eq_some_iff.mp h
  have hcr : ∀ c ∈ ['\r'], isWhitespace c = true := List.all_eq_true.mp (by decide)
  rw [List.dropLast_concat, trimChars_append_blanks hcr]

/-- The lines that are read are those that were written, up to white space around them. -/
theorem map_trimChars_lines {written : List (List Char)} {text : List Char}
    (h : Written written text) : (lines text).map trimChars = written.map trimChars := by
  induction h with
  | nil => rfl
  | last hline hne => rw [lines_of_notMem hline hne]
  | @lf line more rest hline hrest ih =>
      rw [lines_append hline, List.map_cons, List.map_cons, ih]
      split
      · rename_i hcr
        rw [trimChars_dropLast_cr hcr]
      · rfl
  | @crlf line more rest hline hrest ih =>
      have hsplit : line ++ '\r' :: '\n' :: rest = (line ++ ['\r']) ++ '\n' :: rest := by simp
      have hcr : '\n' ∉ line ++ ['\r'] := by simp [hline]
      rw [hsplit, lines_append hcr, List.map_cons, List.map_cons, ih]
      simp

/-- Every text is its lines, written with some ends. -/
theorem written_lines (text : List Char) : Written (lines text) text := by
  induction hlength : text.length using Nat.strong_induction_on generalizing text with
  | h n ih =>
      by_cases hmem : '\n' ∈ text
      · obtain ⟨line, rest, htext, hline⟩ := List.eq_append_cons_of_mem hmem
        subst htext
        have hrest := ih rest.length (by simp at hlength; omega) rest rfl
        rw [lines_append hline]
        split
        · rename_i hcr
          obtain ⟨front, hfront⟩ := List.getLast?_eq_some_iff.mp hcr
          subst hfront
          have hfree : '\n' ∉ front := fun h => hline (List.mem_append_left _ h)
          have hwritten := Written.crlf hfree hrest
          simpa using hwritten
        · exact Written.lf hline hrest
      · by_cases hne : text = []
        · subst hne
          exact Written.nil
        · rw [lines_of_notMem hmem hne]
          exact Written.last hmem hne

theorem Written.mem {written : List (List Char)} {text line : List Char} {c : Char}
    (h : Written written text) (hline : line ∈ written) (hc : c ∈ line) : c ∈ text := by
  induction h with
  | nil => cases hline
  | last _ _ =>
      rw [List.mem_singleton.mp hline] at hc
      exact hc
  | lf _ _ ih =>
      rcases List.mem_cons.mp hline with rfl | hmore
      · exact List.mem_append_left _ hc
      · exact List.mem_append_right _ (List.mem_cons_of_mem _ (ih hmore))
  | crlf _ _ ih =>
      rcases List.mem_cons.mp hline with rfl | hmore
      · exact List.mem_append_left _ hc
      · exact List.mem_append_right _ (List.mem_cons_of_mem _ (List.mem_cons_of_mem _ (ih hmore)))

/-! ## Values -/

/-- The value of a line, if it gives one. -/
def ipValue (line : List Char) : Option String :=
  ((stripPrefix "ip=".toList (trimChars line)).map trimChars).bind (fun value =>
    if value.isEmpty then none else some (.ofList value))

theorem stripPrefix_eq_some_iff {start cs rest : List Char} :
    stripPrefix start cs = some rest ↔ cs = start ++ rest := by
  induction start generalizing cs with
  | nil => simp [stripPrefix, eq_comm]
  | cons c start ih =>
      cases cs with
      | nil => simp [stripPrefix]
      | cons d cs =>
          by_cases hc : c = d
          · subst hc
            simp [stripPrefix, ih]
          · simp [stripPrefix, hc, Ne.symm hc]

theorem ipValue_eq_some_iff {line : List Char} {value : String} :
    ipValue line = some value ↔ IpLine line value.toList := by
  simp only [ipValue, Option.bind_eq_some_iff, Option.map_eq_some_iff,
    stripPrefix_eq_some_iff, Option.ite_none_left_eq_some, List.isEmpty_iff]
  constructor
  · rintro ⟨_, ⟨after, hline, rfl⟩, hne, hvalue⟩
    cases hvalue
    exact ⟨after, hline, by simp, by simpa using hne⟩
  · rintro ⟨after, hline, hvalue, hne⟩
    rw [hvalue] at hne
    exact ⟨_, ⟨after, hline, rfl⟩, hne, by rw [← hvalue, String.ofList_toList]⟩

theorem ipValue_trimChars (line : List Char) : ipValue (trimChars line) = ipValue line := by
  rw [ipValue, trimChars_trimChars, ipValue]

theorem ipValue_of_not_prefix {line : List Char} (h : ¬"ip=".toList <+: trimChars line) :
    ipValue line = none := by
  rw [Option.eq_none_iff_forall_ne_some]
  intro value hvalue
  obtain ⟨after, hline, -⟩ := ipValue_eq_some_iff.mp hvalue
  exact h ⟨after, hline.symm⟩

theorem Edited.values_perm {before after : List (List Char)} (h : Edited before after) :
    (before.filterMap ipValue).Perm (after.filterMap ipValue) := by
  induction h with
  | reorder hperm => exact hperm.filterMap ipValue
  | insert hline => simp [List.filterMap_append, ipValue_of_not_prefix hline]
  | delete hline => simp [List.filterMap_append, ipValue_of_not_prefix hline]
  | trans _ _ ihfirst ihsecond => exact ihfirst.trans ihsecond

/-- White space around the lines does not matter for their values. -/
theorem filterMap_ipValue_congr {before after : List (List Char)}
    (h : before.map trimChars = after.map trimChars) :
    before.filterMap ipValue = after.filterMap ipValue := by
  have htrimmed : ∀ written : List (List Char),
      (written.map trimChars).filterMap ipValue = written.filterMap ipValue := by
    intro written
    rw [List.filterMap_map]
    exact List.filterMap_congr fun line _ => ipValue_trimChars line
  rw [← htrimmed before, h, htrimmed after]

theorem filterMap_eq_singleton_iff {α β : Type} {f : α → Option β} {cs : List α} {b : β} :
    cs.filterMap f = [b] ↔ ∃ front c rest, cs = front ++ c :: rest ∧ f c = some b ∧
      ∀ other ∈ front ++ rest, f other = none := by
  constructor
  · intro h
    obtain ⟨front, c, rest, rfl, hfront, hc, hrest⟩ := List.filterMap_eq_cons_iff.mp h
    refine ⟨front, c, rest, rfl, hc, fun other hother => ?_⟩
    rcases List.mem_append.mp hother with hother | hother
    · exact hfront other hother
    · exact List.filterMap_eq_nil_iff.mp hrest other hother
  · rintro ⟨front, c, rest, rfl, hc, hothers⟩
    have hfront : front.filterMap f = [] :=
      List.filterMap_eq_nil_iff.mpr fun other h => hothers other (List.mem_append_left _ h)
    have hrest : rest.filterMap f = [] :=
      List.filterMap_eq_nil_iff.mpr fun other h => hothers other (List.mem_append_right _ h)
    simp [hfront, hrest, hc]

/-! ## Bodies -/

/-- A body with a line that gives an address has an equals sign, so it is no address. -/
theorem equals_mem_trim {body : String} {line value : List Char}
    (hline : line ∈ lines body.toList) (hvalue : IpLine line value) :
    '=' ∈ (trim body).toList := by
  obtain ⟨after, htrim, -⟩ := hvalue
  have hmem : '=' ∈ trimChars line := by
    rw [htrim]
    exact List.mem_append_left _ (by decide)
  have hbody : '=' ∈ body.toList :=
    (written_lines body.toList).mem hline (mem_of_mem_trimChars hmem)
  rw [trim, String.toList_ofList]
  exact mem_trimChars hbody (by decide)

section

variable [Externals]

/-- What the address parser never takes. -/
structure AddressTexts : Prop where
  nonempty : parseIpAddr "" = none
  plain : ∀ text address, parseIpAddr text = some address → '=' ∉ text.toList

/-- The body is no address, and one of its lines gives one. -/
structure TraceOf (body : String) (address : IpAddr) : Prop where
  not_plain : parseIpAddr (trim body) = none
  one_line : ∃ front line rest value, lines body.toList = front ++ line :: rest ∧
    IpLine line value ∧ (∀ other ∈ front ++ rest, ∀ value, ¬IpLine other value) ∧
    parseIpAddr (.ofList value) = some address

theorem one_line_iff {body : String} {address : IpAddr} :
    (∃ front line rest value, lines body.toList = front ++ line :: rest ∧
      IpLine line value ∧ (∀ other ∈ front ++ rest, ∀ value, ¬IpLine other value) ∧
      parseIpAddr (.ofList value) = some address) ↔
    ∃ value, traceAddresses body = [value] ∧ parseIpAddr value = some address := by
  have hnone : ∀ line, ipValue line = none ↔ ∀ value, ¬IpLine line value := by
    intro line
    rw [Option.eq_none_iff_forall_ne_some]
    constructor
    · intro h value hline
      refine h (.ofList value) (ipValue_eq_some_iff.mpr ?_)
      rwa [String.toList_ofList]
    · exact fun h value hvalue => h value.toList (ipValue_eq_some_iff.mp hvalue)
  have hvalues : traceAddresses body = (lines body.toList).filterMap ipValue := rfl
  simp only [hvalues, filterMap_eq_singleton_iff, hnone]
  constructor
  · rintro ⟨front, line, rest, value, hlines, hline, hothers, hparsed⟩
    refine ⟨.ofList value, ⟨front, line, rest, hlines, ipValue_eq_some_iff.mpr ?_, hothers⟩,
      hparsed⟩
    rwa [String.toList_ofList]
  · rintro ⟨value, ⟨front, line, rest, hlines, hline, hothers⟩, hparsed⟩
    refine ⟨front, line, rest, value.toList, hlines, ipValue_eq_some_iff.mp hline, hothers, ?_⟩
    rwa [String.ofList_toList]

theorem TraceOf.equals_mem {body : String} {address : IpAddr} (h : TraceOf body address) :
    '=' ∈ (trim body).toList := by
  obtain ⟨front, line, rest, value, hlines, hline, -⟩ := h.one_line
  exact equals_mem_trim (by simp [hlines]) hline

theorem TraceOf.candidate {body : String} {address : IpAddr} (h : TraceOf body address) :
    candidateAddress body = .ok address := by
  obtain ⟨value, hvalue, hparsed⟩ := one_line_iff.mp h.one_line
  simp only [candidateAddress, h.not_plain, hvalue, hparsed]

theorem candidateAddress_ok_iff {body : String} {address : IpAddr} :
    candidateAddress body = .ok address ↔
      parseIpAddr (trim body) = some address ∨ TraceOf body address := by
  constructor
  · intro h
    unfold candidateAddress at h
    cases hplain : parseIpAddr (trim body) with
    | some found =>
        rw [hplain] at h
        cases h
        exact .inl rfl
    | none =>
        right
        simp only [hplain] at h
        refine ⟨hplain, one_line_iff.mpr ?_⟩
        split at h
        · rename_i value hvalue
          cases hparsed : parseIpAddr value with
          | none =>
              rw [hparsed] at h
              cases h
          | some found =>
              rw [hparsed] at h
              cases h
              exact ⟨value, hvalue, hparsed⟩
        · cases h
  · rintro (hplain | htrace)
    · simp only [candidateAddress, hplain]
    · exact htrace.candidate

/-- The candidate of a body that is not empty decides. -/
theorem parseProviderResponse_eq {body : String} (hsize : len body ≤ maxProviderResponseBytes)
    (hne : (trim body).toList ≠ []) {address : IpAddr}
    (hcandidate : candidateAddress body = .ok address) (family : AddressFamily) :
    parseProviderResponse body family = (do
      ensure (family.contains address) (.wrongAddressFamily family address)
      ensure (isPublicAddress address) (.nonPublicAddress address)
      return address) := by
  have hempty : (trim body).toList.isEmpty = false := by simpa using hne
  rw [parseProviderResponse, hcandidate]
  simp only [hsize, hempty]
  rfl

theorem parseProviderResponse_ok_iff (hparser : AddressTexts) {body : String}
    (hsize : len body ≤ maxProviderResponseBytes) (family : AddressFamily) (address : IpAddr) :
    parseProviderResponse body family = .ok address ↔
      family.contains address = true ∧ isPublicAddress address = true ∧
        (parseIpAddr (trim body) = some address ∨ TraceOf body address) := by
  rw [← candidateAddress_ok_iff]
  constructor
  · intro h
    unfold parseProviderResponse at h
    simp only [except_bind_ok, ensure_ok, pure, Except.pure, Except.ok.injEq] at h
    obtain ⟨_, -, _, -, found, hcandidate, _, hfamily, _, hpublic, rfl⟩ := h
    exact ⟨hfamily, hpublic, hcandidate⟩
  · rintro ⟨hfamily, hpublic, hcandidate⟩
    have hne : (trim body).toList ≠ [] := by
      rcases candidateAddress_ok_iff.mp hcandidate with hplain | htrace
      · intro hnil
        have hempty : trim body = "" := String.toList_inj.mp hnil
        rw [hempty, hparser.nonempty] at hplain
        cases hplain
      · exact List.ne_nil_of_mem htrace.equals_mem
    rw [parseProviderResponse_eq hsize hne hcandidate, hfamily, hpublic]
    rfl

/-- Another text of the same trace gives the same address. -/
theorem TraceOf.edited (hparser : AddressTexts) {body body' : String} {address : IpAddr}
    (h : TraceOf body address) {written : List (List Char)}
    (hedited : Edited (lines body.toList) written) (hwritten : Written written body'.toList) :
    TraceOf body' address := by
  obtain ⟨value, hvalue, hparsed⟩ := one_line_iff.mp h.one_line
  have hvalues : (lines body'.toList).filterMap ipValue = [value] := by
    rw [filterMap_ipValue_congr (map_trimChars_lines hwritten)]
    have hbefore : (lines body.toList).filterMap ipValue = [value] := hvalue
    exact List.perm_singleton.mp (hbefore ▸ hedited.values_perm.symm)
  have hone := one_line_iff.mpr ⟨value, hvalues, hparsed⟩
  refine ⟨?_, hone⟩
  obtain ⟨front, line, rest, found, hlines, hline, -⟩ := hone
  have hmem : line ∈ lines body'.toList := by simp [hlines]
  have hequals := equals_mem_trim hmem hline
  cases hplain : parseIpAddr (trim body') with
  | none => rfl
  | some other => exact absurd hequals (hparser.plain _ _ hplain)

/-- Bodies within the limit are read as an address or as a trace and as nothing else,
and what is read from a trace depends on its one line with an address only. -/
theorem provider_bodies_exact (hparser : AddressTexts) (body : String)
    (hsize : len body ≤ 16384) (family : AddressFamily) :
    (∀ address, parseProviderResponse body family = .ok address ↔
      family.contains address = true ∧ isPublicAddress address = true ∧
        (parseIpAddr (trim body) = some address ∨ TraceOf body address)) ∧
    Written (lines body.toList) body.toList ∧
    ∀ address, TraceOf body address → ∀ written, Edited (lines body.toList) written →
      ∀ body' : String, Written written body'.toList → len body' ≤ 16384 →
        TraceOf body' address ∧
          parseProviderResponse body' family = parseProviderResponse body family := by
  refine ⟨parseProviderResponse_ok_iff hparser hsize family, written_lines body.toList, ?_⟩
  intro address htrace written hedited body' hwritten hsize'
  have htrace' := htrace.edited hparser hedited hwritten
  refine ⟨htrace', ?_⟩
  rw [parseProviderResponse_eq hsize (List.ne_nil_of_mem htrace.equals_mem) htrace.candidate,
    parseProviderResponse_eq hsize' (List.ne_nil_of_mem htrace'.equals_mem) htrace'.candidate]

end

theorem exampleExternals_addressTexts : @AddressTexts exampleExternals := by
  refine @AddressTexts.mk exampleExternals rfl ?_
  intro text address hparsed
  have hmem : (text, address) ∈ [("93.184.216.34", exampleAddress),
      ("93.184.216.35", movedAddress)] := mem_of_lookup hparsed
  simp only [List.mem_cons, List.not_mem_nil, or_false, Prod.mk.injEq] at hmem
  obtain ⟨rfl, rfl⟩ | ⟨rfl, rfl⟩ := hmem
  · decide
  · decide

def traceBody : String := "fl=1\nip=93.184.216.34\r\n"

theorem provider_bodies_exact_trace :
    @parseProviderResponse exampleExternals traceBody .ipv4 = .ok exampleAddress ↔
      AddressFamily.ipv4.contains exampleAddress = true ∧ isPublicAddress exampleAddress = true ∧
        (@parseIpAddr exampleExternals (trim traceBody) = some exampleAddress ∨
          @TraceOf exampleExternals traceBody exampleAddress) :=
  (@provider_bodies_exact exampleExternals exampleExternals_addressTexts traceBody (by decide)
    .ipv4).1 exampleAddress

end Cirrusync
