import Cirrusync.Client
import Cirrusync.Numerals
import Cirrusync.Pieces
import Cirrusync.RemoteText
import Cirrusync.Sequence.Lacks

/-!
No text kept from a remote mentions the token it was sent with: every match is
replaced before the text is folded, cut, joined or decorated, and no later step
brings characters of a token together that the text kept apart.
-/

namespace Cirrusync

open Numerals Text Sequence

/-- A character of a token. -/
def isTokenChar (c : Char) : Bool := isAlphanumeric c || c == '_' || c == '-'

/-- A token in the format with a visible start. -/
structure ScannableToken (token : String) : Prop where
  start : ['c', 'f', 'a', 't', '_'] <+: token.toList ∨ ['c', 'f', 'u', 't', '_'] <+: token.toList
  characters : ∀ c ∈ token.toList, isTokenChar c = true

def Mentions (token text : String) : Prop := token.toList <:+: text.toList

namespace ScannableToken

variable {token : String}

theorem notMem (h : ScannableToken token) {c : Char} (hc : isTokenChar c = false) :
    c ∉ token.toList := by
  intro hmem
  have hchar := h.characters c hmem
  rw [hc] at hchar
  cases hchar

theorem underscore (h : ScannableToken token) : '_' ∈ token.toList := by
  rcases h.start with hstart | hstart
  · exact hstart.subset (by decide)
  · exact hstart.subset (by decide)

theorem ne_nil (h : ScannableToken token) : token.toList ≠ [] := List.ne_nil_of_mem h.underscore

/-- Text between messages has no character of a token. -/
theorem apart (h : ScannableToken token) {text : List Char}
    (htext : text.all (fun c => !isTokenChar c) = true) : ∀ c ∈ text, c ∉ token.toList := by
  intro c hc
  have hchar := List.all_eq_true.mp htext c hc
  exact h.notMem (by simpa using hchar)

end ScannableToken

/-! ## Replacement -/

/-- A start without the first character of the replacement was there before. -/
theorem prefix_of_replaceFrom {pattern replacement part cs : List Char} {first : Char}
    (hfirst : first ∉ part) (h : part <+: replaceFrom pattern (first :: replacement) 0 cs) :
    part <+: cs := by
  induction cs generalizing part with
  | nil => exact h
  | cons c rest ih =>
      rw [replaceFrom] at h
      split at h
      · have hnil : part <+: [] := prefix_of_append_cons hfirst h
        rw [List.prefix_nil.mp hnil]
        exact List.nil_prefix
      · rcases List.prefix_cons_iff.mp h with rfl | ⟨tail, rfl, htail⟩
        · exact List.nil_prefix
        · have htail' := ih (fun hmem => hfirst (List.mem_cons_of_mem c hmem)) htail
          exact List.prefix_cons_iff.mpr (.inr ⟨tail, rfl, htail'⟩)

/-- No match is left, nor made with a part of the replacement. -/
theorem lacks_replaceFrom {pattern middle : List Char} {first last : Char}
    (hfirst : first ∉ pattern) (hlast : last ∉ pattern) (hne : pattern ≠ [])
    (hmiddle : Lacks pattern middle) (skip : Nat) (cs : List Char) :
    Lacks pattern (replaceFrom pattern (first :: (middle ++ [last])) skip cs) := by
  induction cs generalizing skip with
  | nil => exact fun hnil => hne (List.infix_nil.mp (by simpa [replaceFrom] using hnil))
  | cons c rest ih =>
      cases skip with
      | succ skip => exact ih skip
      | zero =>
          rw [replaceFrom]
          split
          · rw [List.cons_append, List.append_assoc]
            exact Lacks.cons hfirst hne (Lacks.append_cons hlast hmiddle (ih _))
          · rename_i hnot
            intro h
            rcases List.infix_cons_iff.mp h with hstart | hlater
            · rcases List.prefix_cons_iff.mp hstart with hnil | ⟨tail, htail, hrest⟩
              · exact hne hnil
              · rw [htail, List.mem_cons, not_or] at hfirst
                have hbefore := prefix_of_replaceFrom hfirst.2 hrest
                refine hnot (List.isPrefixOf_iff_prefix.mpr ?_)
                exact List.prefix_cons_iff.mpr (.inr ⟨tail, htail, hbefore⟩)
            · exact ih 0 hlater

theorem ScannableToken.lacks_replace {token : String} (h : ScannableToken token)
    (value : String) : Lacks token.toList (replace value token "[redacted]").toList := by
  have hword : "[redacted]".toList = '[' :: ("redacted".toList ++ [']']) := by decide
  rw [replace, String.toList_ofList, hword]
  exact lacks_replaceFrom (h.notMem (by decide)) (h.notMem (by decide)) h.ne_nil
    (Lacks.of_notMem h.underscore (by decide)) 0 value.toList

/-! ## The pass over a text, and the texts made from it -/

theorem lacks_collected {part value : List Char} (hspace : ' ' ∉ part) (hne : part ≠ [])
    (h : Lacks part value) : Lacks part (collected value) := by
  intro hpart
  have hfolded := infix_of_collapse hspace hne hpart
  obtain ⟨before, hbefore, rfl⟩ := List.infix_map_iff.mp hfolded
  have hself : before.map foldBlank = before := by
    refine (List.map_congr_left fun c hc => ?_).trans (List.map_id before)
    refine foldBlank_eq_self (fun hblank => hspace ?_)
    exact List.mem_map.mpr ⟨c, hc, hblank⟩
  obtain ⟨front, after, -, -, htrim⟩ := exists_trimChars value
  refine h ?_
  rw [hself, htrim]
  exact hbefore.trans ⟨front, after, rfl⟩

theorem ScannableToken.lacks_sanitized {token : String} (h : ScannableToken token)
    {value : List Char} (hvalue : Lacks token.toList value) (maxBytes : Nat) :
    Lacks token.toList (sanitizeAndTruncateChars value maxBytes) := by
  obtain ⟨kept, hkept, -, -, hshape⟩ := sanitizeAndTruncateChars_start value maxBytes
  have hline : Lacks token.toList kept := by
    refine Lacks.of_infix (lacks_collected (h.notMem (by decide)) h.ne_nil hvalue) ?_
    rw [normalized_eq] at hkept
    exact (hkept.trans (List.rdropWhile_prefix _ _)).isInfix
  rcases hshape with hwhole | hdots
  · rw [hwhole]
    exact hline
  · rw [hdots]
    refine Lacks.append_right (fun c hc => ?_) h.ne_nil hline
    rw [List.eq_of_mem_replicate hc]
    exact h.notMem (by decide)

theorem ScannableToken.not_mentions_sanitizeAndTruncate {token : String}
    (h : ScannableToken token) {value : String} (hvalue : ¬Mentions token value)
    (maxBytes : Nat) : ¬Mentions token (sanitizeAndTruncate value maxBytes) := by
  rw [Mentions, sanitizeAndTruncate, String.toList_ofList]
  exact h.lacks_sanitized hvalue maxBytes

theorem ScannableToken.not_mentions_sanitizeRemoteValue {token : String}
    (h : ScannableToken token) (value : String) (maxBytes : Nat) :
    ¬Mentions token (sanitizeRemoteValue value token maxBytes) := by
  unfold sanitizeRemoteValue
  split
  · rename_i hplain
    refine h.not_mentions_sanitizeAndTruncate (fun hvalue => ?_) maxBytes
    rw [Bool.or_eq_true, List.isEmpty_iff, Bool.not_eq_true', Bool.eq_false_iff] at hplain
    rcases hplain with hempty | hwithout
    · exact h.ne_nil hempty
    · exact hwithout ((contains_iff _ _).mpr hvalue)
  · exact h.not_mentions_sanitizeAndTruncate (h.lacks_replace value) maxBytes

theorem underscore_notMem_toString (code : Int) : '_' ∉ (toString code).toList := by
  have hdigits : ∀ n : Nat, '_' ∉ n.repr.toList := by
    intro n
    rw [Nat.toList_repr]
    exact notMem_toDigits (by decide) (by decide) n
  rw [Int.toString_eq_repr, Int.repr_eq_if]
  split
  · exact hdigits _
  · rw [String.toList_append, List.mem_append, not_or]
    exact ⟨by decide, hdigits _⟩

theorem ScannableToken.not_mentions_coded {token : String} (h : ScannableToken token)
    {message : String} (hmessage : ¬Mentions token message) (code : Int) :
    ¬Mentions token s!"{message} ({code})" := by
  have htext : s!"{message} ({code})" = message ++ " (" ++ toString code ++ ")" := rfl
  have hcode : Lacks token.toList (toString code).toList :=
    Lacks.of_notMem h.underscore (underscore_notMem_toString code)
  have hclosed : Lacks token.toList ((toString code).toList ++ ")".toList) :=
    Lacks.append_right (h.apart (by decide)) h.ne_nil hcode
  have hopened : Lacks token.toList ('(' :: ((toString code).toList ++ ")".toList)) :=
    Lacks.cons (h.notMem (by decide)) h.ne_nil hclosed
  rw [Mentions, htext]
  simp only [String.toList_append, List.append_assoc]
  exact Lacks.append_cons (h.notMem (by decide)) hmessage hopened

theorem ScannableToken.not_mentions_summarizeErrors {token : String} (h : ScannableToken token)
    (errors : List ApiErrorDetail) (summaries : List String)
    (hsummaries : ∀ summary ∈ summaries, ¬Mentions token summary) :
    ∀ summary ∈ (summarizeErrors token errors summaries).1, ¬Mentions token summary := by
  induction errors generalizing summaries with
  | nil => exact hsummaries
  | cons error rest ih =>
      rw [summarizeErrors]
      have hmessage := h.not_mentions_sanitizeRemoteValue error.message maxErrorMessageBytes
      generalize sanitizeRemoteValue error.message token maxErrorMessageBytes = message at hmessage
      simp only []
      split
      · exact ih summaries hsummaries
      · split
        · exact hsummaries
        · refine ih _ (fun summary hsummary => ?_)
          rcases List.mem_append.mp hsummary with hearlier | hnew
          · exact hsummaries summary hearlier
          · rw [List.mem_singleton.mp hnew]
            cases error.code with
            | none => exact hmessage
            | some code => exact h.not_mentions_coded hmessage code

theorem ScannableToken.not_mentions_joinedErrors {token : String} (h : ScannableToken token)
    (errors : List ApiErrorDetail) : ¬Mentions token (joinedErrors errors token) := by
  have hpieces := h.not_mentions_summarizeErrors errors [] (by simp)
  unfold joinedErrors
  generalize summarizeErrors token errors [] = result at hpieces
  obtain ⟨summaries, omitted⟩ := result
  have hjoined : Lacks token.toList ("; ".intercalate summaries).toList := by
    rw [String.toList_intercalate]
    refine Lacks.intercalate (h.apart (by decide)) (by decide) h.ne_nil (fun piece hpiece => ?_)
    obtain ⟨summary, hsummary, rfl⟩ := List.mem_map.mp hpiece
    exact hpieces summary hsummary
  cases omitted with
  | false => exact hjoined
  | true =>
      simp only [Mentions, if_true, String.toList_append]
      exact Lacks.append_right (h.apart (by decide)) h.ne_nil hjoined

/-- The hint names `account_id`, which starts no token. -/
theorem ScannableToken.not_mentions_accountIdHint {token : String} (h : ScannableToken token) :
    ¬Mentions token accountIdHint := by
  rcases h.start with hstart | hstart
  · have hhint : Lacks ['c', 'f', 'a', 't', '_'] accountIdHint.toList := by
      unfold Lacks
      decide
    exact hhint.of_part hstart.isInfix
  · have hhint : Lacks ['c', 'f', 'u', 't', '_'] accountIdHint.toList := by
      unfold Lacks
      decide
    exact hhint.of_part hstart.isInfix

theorem ScannableToken.not_mentions_withHint {token : String} (h : ScannableToken token)
    {message : String} (hmessage : ¬Mentions token message) :
    ¬Mentions token (sanitizeAndTruncate s!"{message}; {accountIdHint}" maxErrorSummaryBytes) := by
  refine h.not_mentions_sanitizeAndTruncate ?_ _
  have htext : s!"{message}; {accountIdHint}" = message ++ "; " ++ accountIdHint := rfl
  rw [Mentions, htext]
  simp only [String.toList_append, List.append_assoc]
  exact Lacks.append_cons (h.notMem (by decide)) hmessage
    (Lacks.append_left (h.apart (by decide)) h.ne_nil h.not_mentions_accountIdHint)

section

variable [Externals]

theorem ScannableToken.not_mentions_errorSummary (hreasons : ReasonPhrases) {token : String}
    (h : ScannableToken token) (errors : List ApiErrorDetail) (status : Nat) :
    ¬Mentions token (errorSummary errors status token) := by
  rcases errorSummary_cases errors status token with ⟨hline, -⟩ | hreason | hother
  · rw [hline]
    exact h.not_mentions_sanitizeAndTruncate (h.not_mentions_joinedErrors errors) _
  · refine Lacks.of_notMem h.underscore (fun hmem => ?_)
    rcases hreasons.letters _ _ hreason '_' hmem with hletter | hspace | hhyphen | hquote
    · exact absurd hletter (by decide)
    · exact absurd hspace (by decide)
    · exact absurd hhyphen (by decide)
    · exact absurd hquote (by decide)
  · rw [hother]
    exact Lacks.of_notMem h.underscore (by decide)

/-- The token a client sends is in no text made from what a remote answers. -/
theorem secrets_redacted (hreasons : ReasonPhrases) {token : String} (htoken : ScannableToken token)
    (errors : List ApiErrorDetail) (status : Nat) (value : String) (maxBytes : Nat) :
    let (summary, details) := prepareErrorDetails errors status token
    ¬Mentions token summary ∧ (∀ detail ∈ details, ¬Mentions token detail.message) ∧
      ¬Mentions token (sanitizeRemoteValue value token maxBytes) ∧
      ∃ message, ¬Mentions token message ∧
        contextualizeAccountVerificationError (.authentication status summary details) =
          .authentication status message details ∧
        contextualizeAccountVerificationError (.permissionDenied status summary details) =
          .permissionDenied status message details := by
  have hsummary := htoken.not_mentions_errorSummary hreasons errors status
  refine ⟨hsummary, ?_, htoken.not_mentions_sanitizeRemoteValue value maxBytes, _,
    htoken.not_mentions_withHint hsummary, rfl, rfl⟩
  intro detail hdetail
  obtain ⟨error, -, herror⟩ := List.mem_filterMap.mp (List.mem_of_mem_take hdetail)
  simp only [Option.ite_none_right_eq_some] at herror
  obtain ⟨-, hsome⟩ := herror
  cases hsome
  exact htoken.not_mentions_sanitizeRemoteValue _ _

end

theorem secrets_redacted_echoed :
    let (summary, details) := @prepareErrorDetails phrasedExternals
      [⟨some 9109, "no cfat_cfat_a\x07 here, cfat_acfat_a"⟩, ⟨none, "cf"⟩] 403 "cfat_a"
    ¬Mentions "cfat_a" summary ∧ (∀ detail ∈ details, ¬Mentions "cfat_a" detail.message) ∧
      ¬Mentions "cfat_a" (sanitizeRemoteValue "cfat_cfat_a_a" "cfat_a" 20) ∧
      ∃ message, ¬Mentions "cfat_a" message ∧
        contextualizeAccountVerificationError (.authentication 403 summary details) =
          .authentication 403 message details ∧
        contextualizeAccountVerificationError (.permissionDenied 403 summary details) =
          .permissionDenied 403 message details :=
  @secrets_redacted phrasedExternals phrasedExternals_reasonPhrases "cfat_a"
    ⟨.inl (by decide), List.all_eq_true.mp (by decide)⟩ _ 403 _ 20

end Cirrusync
