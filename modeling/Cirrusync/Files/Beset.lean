import Cirrusync.Files.Faultless
import Cirrusync.Files.Scope

/-!
A run of one process while other users tamper with the file system: what it has ensured at
its end, and what was there before it, if it makes nothing itself.
-/

namespace Files

open Effect

variable {ι α β ε : Type} {a : Account} {i : ι} {w w' : System ι} {trace : List (Event Answer)}

/-- A process takes its steps, and in between other users tamper with the file system. -/
inductive Beset (a : Account) (i : ι) : System ι → List (Event Answer) → System ι → Prop where
  | nil (w : System ι) : Beset a i w [] w
  | tampered {w w' w'' : System ι} {trace : List (Event Answer)} :
      (world a).moves w w' → Beset a i w' trace w'' → Beset a i w trace w''
  | answered {w w' w'' : System ι} {call : Call} {answer : Answer call}
      {rest : List (Event Answer)} :
      w.answers a i call answer w' → Beset a i w' rest w'' →
      Beset a i w (⟨call, answer⟩ :: rest) w''

theorem Beset.append {w'' : System ι} {rest : List (Event Answer)} (h : Beset a i w trace w')
    (h' : Beset a i w' rest w'') : Beset a i w (trace ++ rest) w'' := by
  induction h with
  | nil => exact h'
  | tampered hmoves _ ih => exact .tampered hmoves (ih h')
  | answered hanswers _ ih => exact .answered hanswers (ih h')

theorem Beset.path (h : Beset a i w trace w') : Path (contract a) (i, w) trace (i, w') := by
  induction h with
  | nil w => exact .nil ⟨rfl, .refl i w⟩
  | @tampered w w₁ w₂ trace hmoves _ ih =>
      obtain ⟨fs, h, htampered, rfl⟩ := hmoves
      have hfirst : (contract a).interferes (i, w) (i, w.mount fs h) :=
        ⟨rfl, mount_leaves (h := h) htampered⟩
      cases ih with
      | nil hlater => exact .nil ((contract a).interferes_trans _ _ _ hfirst hlater)
      | cons hlater hadvances hrest =>
          exact .cons ((contract a).interferes_trans _ _ _ hfirst hlater) hadvances hrest
  | @answered w w₁ w₂ call answer rest hanswers _ ih =>
      have hadvances : (contract a).advances (i, w) call answer (i, w₁) := ⟨rfl, hanswers⟩
      exact .cons ⟨rfl, .refl i w⟩ hadvances ih

/-- What a program ensures is true where it ends. -/
theorem ensures_run {post : α → System ι → Prop} {p : Program Answer α} {value : α}
    (h : Ensures a i w p post) (hrun : Runs p trace value) (hbeset : Beset a i w trace w') :
    post value w' :=
  (holds_run h hrun hbeset.path).2

/-- A host on which nothing fails is one on which nobody interferes. -/
theorem beset_of_path (h : Path (faultless a i) w trace w') : Beset a i w trace w' := by
  induction h with
  | nil hsame =>
      cases hsame
      exact .nil _
  | cons hsame hadvances _ ih =>
      cases hsame
      exact .answered hadvances.1 ih

/-! Programs that only read. -/

/-- The calls that leave the file system as it is. -/
def Call.isReading : Call → Bool
  | .mkdir _ _ | .openNew _ _ | .openFile _ _ | .unlink _ => false
  | _ => true

theorem System.reading_fs {call : Call} {answer : Answer call} (hreading : call.isReading = true)
    (h : w.answers a i call answer w') : w'.fs = w.fs := by
  cases call with
  | mkdir path mode | openNew path mode | openFile path mode | unlink path => cases hreading
  | lstat path | fstat handle | read handle limit =>
      cases answer with
      | error error => rw [show w' = w from h]
      | ok value => rw [h.1]
  | openRead path =>
      cases answer with
      | error error => rw [show w' = w from h]
      | ok value =>
          obtain ⟨-, file, data, -, -, -, rfl⟩ := h
          rfl
  | tryLock handle =>
      cases answer with
      | error error => rw [show w' = w from h]
      | ok value =>
          obtain ⟨file, hopened, -, rfl⟩ := h
          rfl
  | unlock handle | close handle => obtain ⟨-, rfl⟩ | ⟨-, rfl⟩ := h <;> rfl
  | accessAcl handle => rw [h.1]
  | effectiveUser | effectiveGroup => rw [h.2]
  | clock | processId | counter => rw [show w' = w from h]

/-- A program leaves the file system as it is. -/
def OnlyReads (p : Raising Answer ε α) : Prop :=
  Uses (fun request => request.isReading = true) p.run

theorem onlyReads_pure (value : α) : OnlyReads (pure value : Raising Answer ε α) := trivial

theorem onlyReads_throw (exception : ε) : OnlyReads (throw exception : Raising Answer ε α) :=
  trivial

theorem onlyReads_call {request : Call} (h : request.isReading = true) :
    OnlyReads (call request : Raising Answer ε _) :=
  ⟨h, fun _ => trivial⟩

theorem onlyReads_liftExcept (result : Except ε α) :
    OnlyReads (liftExcept result : Raising Answer ε α) := by
  cases result with
  | error exception => exact onlyReads_throw exception
  | ok value => exact onlyReads_pure value

theorem onlyReads_orRaise (raise : IoError → ε) (result : Except IoError α) :
    OnlyReads (orRaise raise result) := by
  cases result with
  | error source => exact onlyReads_throw _
  | ok value => exact onlyReads_pure value

theorem OnlyReads.bind {p : Raising Answer ε α} {f : α → Raising Answer ε β} (hp : OnlyReads p)
    (hf : ∀ value, OnlyReads (f value)) : OnlyReads (p >>= f) :=
  uses_raising_bind hp hf

theorem OnlyReads.check {c : Prop} [Decidable c] {exception : ε} {f : Unit → Raising Answer ε α}
    (hf : OnlyReads (f ())) : OnlyReads (if c then throw exception >>= f else f ()) := by
  split
  · trivial
  · exact hf

theorem onlyReads_check {c : Prop} [Decidable c] {exception : ε} :
    OnlyReads (if c then throw exception else pure () : Raising Answer ε Unit) := by
  split
  · exact onlyReads_throw exception
  · exact onlyReads_pure ()

theorem OnlyReads.whileOpen {file : Nat} {body : Raising Answer ε α} (h : OnlyReads body) :
    OnlyReads (whileOpen file body) :=
  uses_bind h fun _ => ⟨rfl, fun _ => trivial⟩

theorem OnlyReads.keepingOpen {file : Nat} {body : Raising Answer ε Unit} (h : OnlyReads body) :
    OnlyReads (keepingOpen file body) := by
  refine uses_bind h fun result => ?_
  cases result with
  | ok value => trivial
  | error exception => exact ⟨rfl, fun _ => trivial⟩

/-- A file of a trusted user was there before, as it is now. -/
theorem Beset.came_from (h : Beset a i w trace w')
    (hreads : ∀ event ∈ trace, event.op.isReading = true) {file : Nat} {data' : Metadata}
    (hdata' : w'.fs.metadata file = some data') (htrusted : a.trusted data'.uid) :
    ∃ data, w.fs.metadata file = some data ∧ data.Keeps a.trusted data' ∧
      (data.othersWrite = false → w'.fs.contents file = w.fs.contents file) := by
  induction h with
  | nil w => exact ⟨data', hdata', .refl data', fun _ => rfl⟩
  | @tampered w w₁ w₂ trace hmoves _ ih =>
      obtain ⟨data₁, hdata₁, hkeeps₁, hcontents₁⟩ := ih hreads hdata'
      obtain ⟨fs, h, htampered, rfl⟩ := hmoves
      have howner : a.trusted data₁.uid := by rwa [hkeeps₁.uid_eq] at htrusted
      cases hdata : w.fs.metadata file with
      | none => exact absurd howner (htampered.brings file data₁ hdata hdata₁)
      | some data =>
          obtain ⟨there, hthere, hkeeps⟩ := htampered.keeps file data hdata
          obtain rfl : there = data₁ := Option.some.inj (hthere.symm.trans hdata₁)
          have howner' : a.trusted data.uid := by rwa [hkeeps.uid_eq] at howner
          refine ⟨data, rfl, hkeeps.trans hkeeps₁, fun hclosed => ?_⟩
          have hclosed₁ : there.othersWrite = false := by
            unfold Metadata.othersWrite at hclosed ⊢
            rwa [hkeeps.mode_eq howner']
          rw [hcontents₁ hclosed₁]
          exact htampered.writes file data hdata howner' hclosed
  | @answered w w₁ w₂ call answer rest hanswers _ ih =>
      have hlater := ih (fun event member => hreads event (List.mem_cons_of_mem _ member)) hdata'
      rwa [System.reading_fs (hreads _ List.mem_cons_self) hanswers] at hlater

end Files
