import Cirrusync.Sanitize
import Cirrusync.Scenario

/-!
Text of a remote as it is kept in errors: bounded, on one line and stable under
the pass, and what follows for a summary of errors and its details.
-/

namespace Cirrusync

open Text Sequence

/-- A text without control characters, with no white space but single spaces
between other characters. -/
structure OneLine (cs : List Char) : Prop where
  printable : ∀ c ∈ cs, isControl c = false
  spaces : ∀ c ∈ cs, isWhitespace c = true → c = ' '
  single : cs.IsChain (Apart ' ')
  head : cs.head? ≠ some ' '
  last : cs.getLast? ≠ some ' '

theorem isBlank_foldBlank {c : Char} :
    isControl (foldBlank c) = false ∧ (isWhitespace (foldBlank c) = true → foldBlank c = ' ') := by
  unfold foldBlank
  split
  · exact ⟨by decide, fun _ => rfl⟩
  · rename_i hblank
    simp only [isBlank, Bool.or_eq_true, not_or, Bool.not_eq_true] at hblank
    exact ⟨hblank.1, fun hspace => absurd hspace (by simp [hblank.2])⟩

/-- The trimmed start of what the pass collects is on one line. -/
theorem oneLine_start {kept value : List Char} (h : kept <+: collected value) :
    OneLine (kept.rdropWhile (· == ' ')) := by
  have hstart : kept.rdropWhile (· == ' ') <+: collected value :=
    (List.rdropWhile_prefix _ _).trans h
  have hfolded : ∀ c ∈ kept.rdropWhile (· == ' '), ∃ d, c = foldBlank d := by
    intro c hc
    obtain ⟨d, -, hd⟩ := List.mem_map.mp (mem_collapse (hstart.subset hc))
    exact ⟨d, hd.symm⟩
  refine ⟨?_, ?_, ?_, ?_, ?_⟩
  · intro c hc
    obtain ⟨d, rfl⟩ := hfolded c hc
    exact isBlank_foldBlank.1
  · intro c hc
    obtain ⟨d, rfl⟩ := hfolded c hc
    exact isBlank_foldBlank.2
  · obtain ⟨rest, hrest⟩ := hstart
    have hchain := isChain_collapse_true ' ' ((trimChars value).map foldBlank)
    rw [← collected, ← hrest] at hchain
    exact hchain.left_of_append
  · intro hspace
    obtain ⟨rest, hrest⟩ := hstart
    refine head?_collapse_true ' ' ((trimChars value).map foldBlank) ?_
    rw [← collected, ← hrest, List.head?_append, hspace]
    rfl
  · intro hspace
    have hkept := getLast?_rdropWhile hspace
    cases hkept

theorem oneLine_normalized (value : List Char) : OneLine (normalized value) := by
  rw [normalized_eq]
  exact oneLine_start (List.prefix_refl _)

/-- A text of one line stays one when it is cut off and dots take the place of the rest. -/
theorem oneLine_append_dots {kept : List Char} (h : OneLine kept) (n : Nat) :
    OneLine (kept ++ List.replicate n '.') := by
  have hdot : ∀ c ∈ List.replicate n '.', c = '.' := fun c hc => List.eq_of_mem_replicate hc
  have hne : ∀ c ∈ List.replicate n '.', c ≠ ' ' := by
    intro c hc
    rw [hdot c hc]
    decide
  refine ⟨?_, ?_, ?_, ?_, ?_⟩
  · intro c hc
    rcases List.mem_append.mp hc with hc | hc
    · exact h.printable c hc
    · rw [hdot c hc]
      decide
  · intro c hc hspace
    rcases List.mem_append.mp hc with hc | hc
    · exact h.spaces c hc hspace
    · rw [hdot c hc] at hspace
      exact absurd hspace (by decide)
  · refine List.isChain_append.mpr ⟨h.single, ?_, fun a _ b hb => ?_⟩
    · exact List.isChain_replicate_of_rel n (Or.inl (by decide))
    · exact .inr (hne b (List.mem_of_mem_head? hb))
  · intro hspace
    rw [List.head?_append] at hspace
    cases hkept : kept.head? with
    | none =>
        rw [hkept, Option.none_or] at hspace
        exact hne ' ' (List.mem_of_mem_head? hspace) rfl
    | some c =>
        rw [hkept, Option.some_or] at hspace
        exact h.head (hkept.trans hspace)
  · intro hspace
    rw [List.getLast?_append] at hspace
    cases hdots : (List.replicate n '.').getLast? with
    | none =>
        rw [hdots, Option.none_or] at hspace
        exact h.last hspace
    | some c =>
        rw [hdots, Option.some_or] at hspace
        exact hne ' ' (List.mem_of_getLast? (hdots.trans hspace)) rfl

/-- The pass gives a start of the line, alone or with the dots. -/
theorem sanitizeAndTruncateChars_start (value : List Char) (maxBytes : Nat) :
    ∃ kept, kept <+: normalized value ∧ OneLine kept ∧
      byteLength (sanitizeAndTruncateChars value maxBytes) ≤ maxBytes ∧
      (sanitizeAndTruncateChars value maxBytes = kept ∨
        sanitizeAndTruncateChars value maxBytes =
          kept ++ List.replicate (min 3 maxBytes) '.') := by
  rw [sanitizeAndTruncateChars_eq]
  split
  · rename_i hfits
    refine ⟨normalized value, List.prefix_refl _, oneLine_normalized value, ?_, .inl rfl⟩
    obtain ⟨dropped, -, hdropped⟩ := exists_rdropWhile_append (· == ' ') (collected value)
    have hsize := congrArg (total Char.utf8Size) hdropped
    rw [total_append, ← normalized_eq] at hsize
    rw [byteLength_eq_total] at hfits ⊢
    omega
  · have hstart : fitting Char.utf8Size (maxBytes - min 3 maxBytes) (normalized value) <+:
        collected value := by
      refine (fitting_isPrefix _ _).trans ?_
      rw [normalized_eq]
      exact List.rdropWhile_prefix _ _
    refine ⟨_, (List.rdropWhile_prefix _ _).trans (fitting_isPrefix _ _), oneLine_start hstart, ?_,
      .inr rfl⟩
    obtain ⟨dropped, -, hdropped⟩ := exists_rdropWhile_append (· == ' ')
      (fitting Char.utf8Size (maxBytes - min 3 maxBytes) (normalized value))
    have hsize := congrArg (total Char.utf8Size) hdropped
    have hlimit := @total_fitting_le _ Char.utf8Size (maxBytes - min 3 maxBytes) (normalized value)
    rw [total_append] at hsize
    rw [byteLength_eq_total, shortened, total_append, total_dots]
    omega

theorem oneLine_sanitized (value : List Char) (maxBytes : Nat) :
    OneLine (sanitizeAndTruncateChars value maxBytes) := by
  obtain ⟨kept, -, hkept, -, hwhole | hdots⟩ := sanitizeAndTruncateChars_start value maxBytes
  · rw [hwhole]
    exact hkept
  · rw [hdots]
    exact oneLine_append_dots hkept _

/-- A line has nothing to trim, to fold or to collapse. -/
theorem OneLine.collected_eq_self {cs : List Char} (h : OneLine cs) : collected cs = cs := by
  have hhead : ∀ c ∈ cs.head?, isWhitespace c = false := by
    intro c hc
    by_contra hspace
    have hblank := h.spaces c (List.mem_of_mem_head? hc) (by simpa using hspace)
    subst hblank
    exact h.head hc
  have hlast : ∀ c ∈ cs.getLast?, isWhitespace c = false := by
    intro c hc
    by_contra hspace
    have hblank := h.spaces c (List.mem_of_getLast? hc) (by simpa using hspace)
    subst hblank
    exact h.last hc
  have hfold : cs.map foldBlank = cs := by
    have hself : ∀ c ∈ cs, foldBlank c = id c := by
      intro c hc
      by_cases hblank : isBlank c = true
      · have hspace : isWhitespace c = true := by
          simpa [isBlank, h.printable c hc] using hblank
        rw [foldBlank_blank hblank, h.spaces c hc hspace]
        rfl
      · simp [foldBlank, hblank]
    exact (List.map_congr_left hself).trans (List.map_id cs)
  rw [collected, trimChars_of_ends hhead hlast, hfold]
  exact collapse_true_of_isChain h.single h.head

/-- The pass leaves a line that fits as it is. -/
theorem sanitizeAndTruncateChars_of_oneLine {cs : List Char} {maxBytes : Nat} (h : OneLine cs)
    (hfits : byteLength cs ≤ maxBytes) : sanitizeAndTruncateChars cs maxBytes = cs := by
  have htrim : cs.rdropWhile (· == ' ') = cs := by
    refine rdropWhile_of_getLast? (fun c hc => ?_)
    have hne : c ≠ ' ' := by
      rintro rfl
      exact h.last hc
    simpa using hne
  rw [sanitizeAndTruncateChars_eq, normalized_eq, h.collected_eq_self, if_pos hfits, htrim]

theorem len_sanitizeAndTruncate_le (value : String) (maxBytes : Nat) :
    len (sanitizeAndTruncate value maxBytes) ≤ maxBytes := by
  obtain ⟨-, -, -, hsize, -⟩ := sanitizeAndTruncateChars_start value.toList maxBytes
  simpa [len, sanitizeAndTruncate] using hsize

theorem len_sanitizeRemoteValue_le (value sensitiveValue : String) (maxBytes : Nat) :
    len (sanitizeRemoteValue value sensitiveValue maxBytes) ≤ maxBytes := by
  unfold sanitizeRemoteValue
  split
  · exact len_sanitizeAndTruncate_le _ _
  · exact len_sanitizeAndTruncate_le _ _

/-- A text that stays on the line it is written to. -/
def KeepsLine (text : String) : Prop :=
  ∀ c ∈ text.toList, isControl c = false ∧ (isWhitespace c = true → c = ' ')

theorem OneLine.keepsLine {text : String} (h : OneLine text.toList) : KeepsLine text :=
  fun c hc => ⟨h.printable c hc, h.spaces c hc⟩

theorem isAlphanumeric_printable {c : Char} (h : isAlphanumeric c = true) :
    isControl c = false ∧ isWhitespace c = false := by
  simp only [isAlphanumeric, Char.isDigit, Bool.or_eq_true, Bool.and_eq_true,
    decide_eq_true_eq, Char.reduceToNat, Char.reduceVal, ge_iff_le, UInt32.le_iff_toNat_le,
    UInt32.reduceToNat] at h
  have hval : c.toNat = c.val.toNat := rfl
  have hrange : 48 ≤ c.toNat ∧ c.toNat ≤ 122 := by omega
  constructor
  · simp only [isControl, Bool.or_eq_false_iff, Bool.and_eq_false_iff, decide_eq_false_iff_not]
    omega
  · simp only [isWhitespace, Bool.or_eq_false_iff, Bool.and_eq_false_iff,
      decide_eq_false_iff_not, beq_eq_false_iff_ne]
    omega

/-- The messages of a summary before they are cut to its limit. -/
def joinedErrors (errors : List ApiErrorDetail) (sensitiveValue : String) : String :=
  let (summaries, omitted) := summarizeErrors sensitiveValue errors []
  let summary := String.intercalate "; " summaries
  if omitted then summary ++ "; ..." else summary

section

variable [Externals]

/-- What the phrases of the HTTP status codes have in common. -/
structure ReasonPhrases : Prop where
  nonempty : ∀ status reason, canonicalReason status = some reason → reason ≠ ""
  short : ∀ status reason, canonicalReason status = some reason → len reason ≤ 31
  letters : ∀ status reason, canonicalReason status = some reason →
    ∀ c ∈ reason.toList, isAlphanumeric c = true ∨ c = ' ' ∨ c = '-' ∨ c = '\''

/-- A summary is the line of the joined messages, or names the status. -/
theorem errorSummary_cases (errors : List ApiErrorDetail) (status : Nat)
    (sensitiveValue : String) :
    (errorSummary errors status sensitiveValue =
        sanitizeAndTruncate (joinedErrors errors sensitiveValue) maxErrorSummaryBytes ∧
      errorSummary errors status sensitiveValue ≠ "") ∨
      canonicalReason status = some (errorSummary errors status sensitiveValue) ∨
      errorSummary errors status sensitiveValue = "unspecified Cloudflare error" := by
  have hsummary : errorSummary errors status sensitiveValue =
      let summary := sanitizeAndTruncate (joinedErrors errors sensitiveValue) maxErrorSummaryBytes
      if summary.toList.isEmpty then
        (canonicalReason status).getD "unspecified Cloudflare error"
      else summary := rfl
  rw [hsummary]
  generalize sanitizeAndTruncate (joinedErrors errors sensitiveValue) maxErrorSummaryBytes = line
  by_cases hempty : line.toList.isEmpty
  · right
    simp only [hempty, if_true]
    cases hreason : canonicalReason status with
    | none => exact .inr rfl
    | some reason => exact .inl rfl
  · left
    simp only [hempty]
    refine ⟨rfl, ?_⟩
    rintro rfl
    exact hempty rfl

theorem ReasonPhrases.keepsLine (h : ReasonPhrases) {status : Nat} {reason : String}
    (hreason : canonicalReason status = some reason) : KeepsLine reason := by
  intro c hc
  rcases h.letters status reason hreason c hc with hletter | rfl | rfl | rfl
  · obtain ⟨hcontrol, hspace⟩ := isAlphanumeric_printable hletter
    exact ⟨hcontrol, fun hwhite => absurd hwhite (by simp [hspace])⟩
  · decide
  · decide
  · decide

/-- The summary of any errors. -/
theorem errorSummary_bounded (hreasons : ReasonPhrases) (errors : List ApiErrorDetail)
    (status : Nat) (sensitiveValue : String) :
    errorSummary errors status sensitiveValue ≠ "" ∧
      len (errorSummary errors status sensitiveValue) ≤ maxErrorSummaryBytes ∧
      KeepsLine (errorSummary errors status sensitiveValue) := by
  rcases errorSummary_cases errors status sensitiveValue with ⟨hline, hne⟩ | hreason | hother
  · refine ⟨hne, ?_, ?_⟩
    · rw [hline]
      exact len_sanitizeAndTruncate_le _ _
    · rw [hline]
      refine OneLine.keepsLine ?_
      simpa [sanitizeAndTruncate] using oneLine_sanitized _ _
  · have hshort := hreasons.short _ _ hreason
    refine ⟨hreasons.nonempty _ _ hreason, ?_, hreasons.keepsLine hreason⟩
    unfold maxErrorSummaryBytes
    omega
  · rw [hother]
    exact ⟨by decide, by decide, List.all_iff_forall_prop.mp (by decide)⟩

/-- Remote text is bounded, on one line and a fixed point of the pass; the summary of
any errors and their details stay within their limits. -/
theorem remote_text_bounded (hreasons : ReasonPhrases) :
    (∀ (value : String) (maxBytes : Nat),
      len (sanitizeAndTruncate value maxBytes) ≤ maxBytes ∧
        OneLine (sanitizeAndTruncate value maxBytes).toList ∧
        (∃ kept, kept <+: normalized value.toList ∧
          ((sanitizeAndTruncate value maxBytes).toList = kept ∨
            (sanitizeAndTruncate value maxBytes).toList =
              kept ++ List.replicate (min 3 maxBytes) '.')) ∧
        sanitizeAndTruncate (sanitizeAndTruncate value maxBytes) maxBytes =
          sanitizeAndTruncate value maxBytes) ∧
    ∀ (errors : List ApiErrorDetail) (status : Nat) (sensitiveValue : String),
      let (summary, details) := prepareErrorDetails errors status sensitiveValue
      summary ≠ "" ∧ len summary ≤ 1024 ∧ KeepsLine summary ∧ details.length ≤ 4 ∧
        ∀ detail ∈ details, len detail.message ≤ 256 := by
  constructor
  · intro value maxBytes
    obtain ⟨kept, hkept, -, hsize, hshape⟩ :=
      sanitizeAndTruncateChars_start value.toList maxBytes
    have hline := oneLine_sanitized value.toList maxBytes
    have hstable := sanitizeAndTruncateChars_of_oneLine hline hsize
    refine ⟨len_sanitizeAndTruncate_le value maxBytes, ?_, ⟨kept, hkept, ?_⟩, ?_⟩
    · simpa [sanitizeAndTruncate] using hline
    · simpa [sanitizeAndTruncate] using hshape
    · simp only [sanitizeAndTruncate, String.toList_ofList, hstable]
  · intro errors status sensitiveValue
    obtain ⟨hne, hshort, hline⟩ := errorSummary_bounded hreasons errors status sensitiveValue
    refine ⟨hne, hshort, hline, List.length_take_le _ _, ?_⟩
    intro detail hdetail
    obtain ⟨error, -, herror⟩ := List.mem_filterMap.mp (List.mem_of_mem_take hdetail)
    simp only [Option.ite_none_right_eq_some] at herror
    obtain ⟨-, hsome⟩ := herror
    cases hsome
    exact len_sanitizeRemoteValue_le _ _ _

end

/-- The outside code of the example with some more of the reason phrases. -/
@[reducible] def phrasedExternals : Externals :=
  { exampleExternals with
    canonicalReason := fun status =>
      [(200, "OK"), (400, "Bad Request"), (401, "Unauthorized"), (403, "Forbidden"),
        (404, "Not Found"), (429, "Too Many Requests"),
        (500, "Internal Server Error")].lookup status }

theorem phrasedExternals_reasonPhrases : @ReasonPhrases phrasedExternals := by
  have hall : ∀ entry ∈ [(200, "OK"), (400, "Bad Request"), (401, "Unauthorized"),
      (403, "Forbidden"), (404, "Not Found"), (429, "Too Many Requests"),
      (500, "Internal Server Error")], entry.2 ≠ "" ∧ len entry.2 ≤ 31 ∧
      entry.2.toList.all
        (fun c => decide (isAlphanumeric c = true ∨ c = ' ' ∨ c = '-' ∨ c = '\'')) = true := by
    decide
  have hmem := fun status reason h => hall (status, reason) (mem_of_lookup h)
  exact @ReasonPhrases.mk phrasedExternals (fun status reason h => (hmem status reason h).1)
    (fun status reason h => (hmem status reason h).2.1)
    (fun status reason h => List.all_iff_forall_prop.mp (hmem status reason h).2.2)

theorem remote_text_bounded_forbidden :
    let (summary, details) := @prepareErrorDetails phrasedExternals
      [⟨some 9109, "Invalid\r\n access token\x07"⟩, ⟨none, "\x07"⟩] 403 "token"
    summary ≠ "" ∧ len summary ≤ 1024 ∧ KeepsLine summary ∧ details.length ≤ 4 ∧
      ∀ detail ∈ details, len detail.message ≤ 256 :=
  (@remote_text_bounded phrasedExternals phrasedExternals_reasonPhrases).2 _ 403 "token"

end Cirrusync
