import Cirrusync.Refusal
import Cirrusync.Trim

/-!
How a response that is delivered in full is classified. Its body is read before its status
is looked at, so the bound on the body comes first; within the bound the status alone says
which error it is.
-/

namespace Cirrusync

open Effect Text

/-- A response whose body arrives in full. -/
def HttpResponse.Delivered (response : HttpResponse) : Prop := response.broken = none

/-- A body that `read_response_body` reads to its end. -/
structure HttpResponse.Bounded (response : HttpResponse) : Prop where
  declared : ∀ length, response.contentLength = some length → length ≤ maxResponseBytes
  received : response.chunks.flatten.length ≤ maxResponseBytes

def HttpResponse.Succeeds (response : HttpResponse) : Prop :=
  200 ≤ response.status ∧ response.status < 300

/-- The errors that a status stands for. -/
inductive Classified (operation : String) (retryAfter : Option Nat) :
    Nat → CloudflareError → Prop where
  | unauthorized (message : String) (errors : List ApiErrorDetail) :
      Classified operation retryAfter 401 (.authentication 401 message errors)
  | forbidden (message : String) (errors : List ApiErrorDetail) :
      Classified operation retryAfter 403 (.permissionDenied 403 message errors)
  | tooManyRequests (retrySuffix message : String) (errors : List ApiErrorDetail) :
      Classified operation retryAfter 429 (.rateLimited retryAfter retrySuffix message errors)
  | other {status : Nat} (retrySuffix message : String) (errors : List ApiErrorDetail) :
      status ≠ 401 → status ≠ 403 → status ≠ 429 →
      Classified operation retryAfter status
        (.api operation status retryAfter retrySuffix message errors)

theorem Classified.aborts {operation : String} {retryAfter : Option Nat} {status : Nat}
    {error : CloudflareError} (h : Classified operation retryAfter status error)
    (hstatus : status = 401 ∨ status = 429) : error.aborts = true := by
  cases h with
  | unauthorized message errors => rfl
  | forbidden message errors => omega
  | tooManyRequests retrySuffix message errors => rfl
  | other retrySuffix message errors hauthentication _ hlimit => omega

theorem Classified.retryAfter {operation : String} {retryAfter : Option Nat} {status : Nat}
    {error : CloudflareError} (h : Classified operation retryAfter status error)
    (hunauthorized : status ≠ 401) (hforbidden : status ≠ 403) :
    error.retryAfter = retryAfter := by
  cases h with
  | unauthorized message errors => omega
  | forbidden message errors => omega
  | tooManyRequests retrySuffix message errors => rfl
  | other retrySuffix message errors _ _ _ => rfl

/-! The body. -/

theorem readChunks_bounded {operation : String} {body : List UInt8}
    {chunks : List (List UInt8)}
    (h : body.length + chunks.flatten.length ≤ maxResponseBytes) :
    readChunks operation none body chunks = .ok (body ++ chunks.flatten) := by
  induction chunks generalizing body with
  | nil => rw [readChunks, List.flatten_nil, List.append_nil]
  | cons chunk rest ih =>
      rw [List.flatten_cons, List.length_append] at h
      have hrest : (body ++ chunk).length + rest.flatten.length ≤ maxResponseBytes := by
        rw [List.length_append]
        omega
      rw [readChunks, if_neg (by omega), ih hrest, List.flatten_cons, List.append_assoc]

theorem readChunks_oversized {operation : String} {body : List UInt8}
    {chunks : List (List UInt8)} (hbody : body.length ≤ maxResponseBytes)
    (h : maxResponseBytes < body.length + chunks.flatten.length) :
    readChunks operation none body chunks =
      .error (.responseTooLarge operation maxResponseBytes) := by
  induction chunks generalizing body with
  | nil =>
      rw [List.flatten_nil, List.length_nil] at h
      omega
  | cons chunk rest ih =>
      rw [List.flatten_cons, List.length_append] at h
      rw [readChunks]
      by_cases hchunk : body.length + chunk.length > maxResponseBytes
      · rw [if_pos hchunk]
      · rw [if_neg hchunk]
        refine ih ?_ ?_
        · rw [List.length_append]
          omega
        · rw [List.length_append]
          omega

theorem readResponseBody_bounded {response : HttpResponse} (operation : String)
    (hdelivered : response.Delivered) (hbounded : response.Bounded) :
    readResponseBody response operation =
      .ok (response.status, parseRetryAfter response.retryAfter, response.chunks.flatten) := by
  have hdeclared : ¬ response.contentLength.any (· > maxResponseBytes) = true := by
    cases hlength : response.contentLength with
    | none => simp
    | some length =>
        have hle := hbounded.declared length hlength
        rw [Option.any_some, decide_eq_true_eq]
        omega
  unfold HttpResponse.Delivered at hdelivered
  have hreceived := hbounded.received
  have hchunks : readChunks operation none [] response.chunks = .ok response.chunks.flatten := by
    rw [readChunks_bounded (by rw [List.length_nil]; omega), List.nil_append]
  simp only [readResponseBody, hdeclared, hdelivered, hchunks]
  rfl

theorem readResponseBody_oversized {response : HttpResponse} (operation : String)
    (hdelivered : response.Delivered) (hoversized : ¬ response.Bounded) :
    readResponseBody response operation =
      .error (.responseTooLarge operation maxResponseBytes) := by
  unfold HttpResponse.Delivered at hdelivered
  by_cases hdeclared : response.contentLength.any (· > maxResponseBytes) = true
  · simp only [readResponseBody, hdeclared, if_true]
    rfl
  · have hlarge : maxResponseBytes < response.chunks.flatten.length := by
      by_contra hsmall
      refine hoversized ⟨fun length hlength => ?_, Nat.not_lt.mp hsmall⟩
      rw [hlength, Option.any_some, decide_eq_true_eq] at hdeclared
      omega
    have hchunks : readChunks operation none [] response.chunks =
        .error (.responseTooLarge operation maxResponseBytes) :=
      readChunks_oversized (Nat.zero_le _) (by rw [List.length_nil]; omega)
    simp only [readResponseBody, hdeclared, hdelivered, hchunks]
    rfl

/-! The delay. -/

/-- The number that decimal digits stand for. -/
def digitsValue (digits : List UInt8) : Nat :=
  digits.foldl (fun n digit => 10 * n + (digit.toNat - 48)) 0

/-- A header that is a decimal number, with blanks around it or not. -/
inductive DecimalHeader : List UInt8 → Nat → Prop where
  | intro {left digits right : List UInt8} :
      (∀ blank ∈ left, blank = 32 ∨ blank = 9) → (∀ blank ∈ right, blank = 32 ∨ blank = 9) →
      digits ≠ [] → (∀ digit ∈ digits, 48 ≤ digit ∧ digit ≤ 57) →
      DecimalHeader (left ++ (digits ++ right)) (digitsValue digits)

theorem digit_char {digit : UInt8} (h : 48 ≤ digit ∧ digit ≤ 57) :
    (Char.ofNat digit.toNat).isDigit = true ∧ isWhitespace (Char.ofNat digit.toNat) = false ∧
      (Char.ofNat digit.toNat).toNat = digit.toNat ∧ Char.ofNat digit.toNat ≠ '+' := by
  have hlow : 48 ≤ digit.toNat := UInt8.le_iff_toNat_le.mp h.1
  have hhigh : digit.toNat < 58 := Nat.lt_succ_of_le (UInt8.le_iff_toNat_le.mp h.2)
  have hall : ∀ n < 58, 48 ≤ n → (Char.ofNat n).isDigit = true ∧
      isWhitespace (Char.ofNat n) = false ∧ (Char.ofNat n).toNat = n ∧ Char.ofNat n ≠ '+' := by
    decide
  exact hall _ hhigh hlow

theorem blank_char {blank : UInt8} (h : blank = 32 ∨ blank = 9) :
    isWhitespace (Char.ofNat blank.toNat) = true := by
  rcases h with rfl | rfl
  · rfl
  · rfl

theorem trimChars_padded {left word right : List Char}
    (hleft : ∀ c ∈ left, isWhitespace c = true) (hright : ∀ c ∈ right, isWhitespace c = true)
    (hword : ∀ c ∈ word, isWhitespace c = false) :
    trimChars (left ++ (word ++ right)) = word := by
  rw [trimChars_blanks_append hleft, trimChars_append_blanks hright]
  exact trimChars_of_ends (fun c hc => hword c (List.mem_of_mem_head? hc))
    (fun c hc => hword c (List.mem_of_mem_getLast? hc))

theorem decimal_digits (digits : List UInt8) (hdigits : ∀ digit ∈ digits, 48 ≤ digit ∧ digit ≤ 57) :
    decimal (digits.map fun b => Char.ofNat b.toNat) = digitsValue digits := by
  have hfold : ∀ start : Nat,
      (digits.map fun b => Char.ofNat b.toNat).foldl
        (fun n c => 10 * n + (c.toNat - '0'.toNat)) start =
      digits.foldl (fun n digit => 10 * n + (digit.toNat - 48)) start := by
    induction digits with
    | nil => exact fun _ => rfl
    | cons digit rest ih =>
        intro start
        rw [List.forall_mem_cons] at hdigits
        rw [List.map_cons, List.foldl_cons, List.foldl_cons, ih hdigits.2,
          (digit_char hdigits.1).2.2.1]
        rfl
  exact hfold 0

/-- A header of seconds that fits is the delay, or the longest one allowed. -/
theorem parseRetryAfter_decimal {header : List UInt8} {count : Nat}
    (h : DecimalHeader header count) (hfits : count < 2 ^ 64) :
    parseRetryAfter (some header) = some (min (seconds count) maxRetryAfter) := by
  cases h with
  | @intro left digits right hleft hright hsome hdigits =>
      have hvisible : headerText (left ++ (digits ++ right)) =
          some ((left ++ (digits ++ right)).map fun b => Char.ofNat b.toNat) := by
        unfold headerText
        rw [if_pos]
        rw [List.all_eq_true]
        intro b hb
        rw [List.mem_append, List.mem_append] at hb
        have hblank : b = 32 ∨ b = 9 → ((32 ≤ b && b < 127) || b == 9) = true := by
          rintro (rfl | rfl)
          · rfl
          · rfl
        rcases hb with hb | hb | hb
        · exact hblank (hleft b hb)
        · obtain ⟨hlow, hhigh⟩ := hdigits b hb
          simp only [UInt8.le_iff_toNat_le, UInt8.lt_iff_toNat_lt, Bool.or_eq_true,
            Bool.and_eq_true, decide_eq_true_eq] at hlow hhigh ⊢
          simp only [UInt8.toNat_ofNat] at hlow hhigh ⊢
          omega
        · exact hblank (hright b hb)
      have hword : ∀ c ∈ digits.map (fun b => Char.ofNat b.toNat), isWhitespace c = false := by
        intro c hc
        obtain ⟨digit, hdigit, rfl⟩ := List.mem_map.mp hc
        exact (digit_char (hdigits digit hdigit)).2.1
      have hblanks : ∀ {blanks : List UInt8}, (∀ blank ∈ blanks, blank = 32 ∨ blank = 9) →
          ∀ c ∈ blanks.map (fun b => Char.ofNat b.toNat), isWhitespace c = true := by
        intro blanks hall c hc
        obtain ⟨blank, hblank, rfl⟩ := List.mem_map.mp hc
        exact blank_char (hall blank hblank)
      have hparsed : parseU64 (digits.map fun b => Char.ofNat b.toNat) =
          some (digitsValue digits) := by
        have hplus : stripPrefix ['+'] (digits.map fun b => Char.ofNat b.toNat) = none := by
          cases digits with
          | nil => exact absurd rfl hsome
          | cons digit rest =>
              rw [List.map_cons, stripPrefix, if_neg]
              exact (digit_char (hdigits digit List.mem_cons_self)).2.2.2.symm
        have hdigit : (digits.map fun b => Char.ofNat b.toNat).all Char.isDigit = true := by
          rw [List.all_eq_true]
          intro c hc
          obtain ⟨digit, hdigit, rfl⟩ := List.mem_map.mp hc
          exact (digit_char (hdigits digit hdigit)).1
        have hnonempty : (digits.map fun b => Char.ofNat b.toNat).isEmpty = false := by
          rw [List.isEmpty_eq_false_iff]
          simpa using hsome
        unfold parseU64
        rw [hplus, Option.getD_none]
        simp only [hdigit, hnonempty, decimal_digits digits hdigits, Bool.not_true, Bool.or_false,
          Bool.false_eq_true, if_false, hfits, if_true]
      unfold parseRetryAfter
      rw [Option.bind_some, hvisible, Option.bind_some, List.map_append, List.map_append,
        trimChars_padded (hblanks hleft) (hblanks hright) hword, hparsed]
      rfl

section

variable [Externals]

theorem classify_classified {T : Type} {apiToken operation : String} {status : Nat}
    {retryAfter : Option Nat} {parsed : Except String (ApiEnvelope T)}
    (hstatus : ¬ (200 ≤ status ∧ status < 300)) :
    ∃ error, classify apiToken operation status retryAfter parsed = .error error ∧
      Classified operation retryAfter status error := by
  unfold classify
  generalize prepareErrorDetails (decodedErrors parsed) status apiToken = details
  obtain ⟨message, errors⟩ := details
  by_cases hunauthorized : status = 401
  · subst hunauthorized
    exact ⟨_, rfl, .unauthorized message errors⟩
  by_cases hforbidden : status = 403
  · subst hforbidden
    exact ⟨_, rfl, .forbidden message errors⟩
  by_cases hlimited : status = 429
  · subst hlimited
    exact ⟨_, rfl, .tooManyRequests _ message errors⟩
  · have hfailure : (!(200 ≤ status && status < 300)) = true := by
      rw [Bool.not_eq_true', Bool.and_eq_false_iff, decide_eq_false_iff_not,
        decide_eq_false_iff_not]
      omega
    refine ⟨_, ?_, .other (retrySuffix retryAfter) message errors hunauthorized hforbidden
      hlimited⟩
    simp only [beq_iff_eq, hunauthorized, hforbidden, hlimited, hfailure, if_true, if_false]

/-- Within the bound on the body the status says which error a response is. -/
theorem receive_classified {apiToken : String} {request : Request} {response : HttpResponse}
    (hdelivered : response.Delivered) (hbounded : response.Bounded)
    (hfailed : ¬ response.Succeeds) :
    ∃ error, receive apiToken request (.answered response) = .error error ∧
      Classified request.operation (parseRetryAfter response.retryAfter) response.status
        error := by
  simp only [receive, readResponseBody_bounded request.operation hdelivered hbounded]
  exact classify_classified hfailed

theorem receive_oversized {apiToken : String} {request : Request} {response : HttpResponse}
    (hdelivered : response.Delivered) (hoversized : ¬ response.Bounded) :
    receive apiToken request (.answered response) =
      .error (.responseTooLarge request.operation maxResponseBytes) := by
  simp only [receive, readResponseBody_oversized request.operation hdelivered hoversized]
  rfl

end

end Cirrusync
