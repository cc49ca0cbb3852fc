import Cirrusync.Effect.Raising
import Cirrusync.Files.System

/-!
What a process can be sure of once it has run a program, whatever its siblings and the
other users do in the meantime.
-/

namespace Files

open Effect

variable {ι α β ε : Type}

/-- Process `i` can run a program from here on without harm to its siblings, and where it
ends the postcondition is true. -/
def Ensures (a : Account) (i : ι) (w : System ι) (p : Program Answer α)
    (post : α → System ι → Prop) : Prop :=
  Holds (contract a) (fun value s => s.1 = i ∧ post value s.2) p (i, w)

/-- What a process finds as it was, unless it gives it up: what the file system keeps, its
handles and its locks. -/
structure Onward (a : Account) (i : ι) (w w' : System ι) : Prop where
  keeps : w.fs.Keeps a.trusted a.transient w'.fs
  opened : ∀ handle file, w'.opened handle = some (i, file) ↔ w.opened handle = some (i, file)
  locks : ∀ handle file, w.opened handle = some (i, file) → w.locks file = some handle →
    w'.locks file = some handle

/-- The handle of a file comes to those of a process. -/
structure Adds (a : Account) (i : ι) (handle file : Nat) (w w' : System ι) : Prop where
  keeps : w.fs.Keeps a.trusted a.transient w'.fs
  fresh : ¬ w.Owns i handle
  opened : ∀ handle' file', w'.opened handle' = some (i, file') ↔
    (handle' = handle ∧ file' = file) ∨ w.opened handle' = some (i, file')
  locks : ∀ handle' file', w.opened handle' = some (i, file') → w.locks file' = some handle' →
    w'.locks file' = some handle'

/-- A handle goes from those of a process. -/
structure Drops (a : Account) (i : ι) (handle : Nat) (w w' : System ι) : Prop where
  keeps : w.fs.Keeps a.trusted a.transient w'.fs
  opened : ∀ handle' file', w'.opened handle' = some (i, file') ↔
    handle' ≠ handle ∧ w.opened handle' = some (i, file')
  locks : ∀ handle' file', handle' ≠ handle → w.opened handle' = some (i, file') →
    w.locks file' = some handle' → w'.locks file' = some handle'

variable {a : Account} {i : ι} {w w' w'' : System ι} {handle file : Nat}

namespace Onward

theorem refl (w : System ι) : Onward a i w w where
  keeps := .refl w.fs
  opened := fun _ _ => Iff.rfl
  locks := fun _ _ _ hlock => hlock

theorem trans (h : Onward a i w w') (h' : Onward a i w' w'') : Onward a i w w'' where
  keeps := h.keeps.trans h'.keeps
  opened := fun handle file => (h'.opened handle file).trans (h.opened handle file)
  locks := fun handle file hopened hlock =>
    h'.locks handle file ((h.opened handle file).mpr hopened) (h.locks handle file hopened hlock)

theorem owns (h : Onward a i w w') : w'.Owns i handle ↔ w.Owns i handle :=
  exists_congr fun file => h.opened handle file

end Onward

theorem System.Leaves.onward (h : w.Leaves a i w') : Onward a i w w' where
  keeps := h.keeps
  opened := h.opened
  locks := fun handle file hopened => (h.locks handle file hopened).mpr

namespace Adds

theorem owns (h : Adds a i handle file w w') {other : Nat} :
    w'.Owns i other ↔ other = handle ∨ w.Owns i other := by
  unfold System.Owns
  simp only [h.opened]
  constructor
  · rintro ⟨file', ⟨rfl, -⟩ | hopened⟩
    · exact .inl rfl
    · exact .inr ⟨file', hopened⟩
  · rintro (rfl | ⟨file', hopened⟩)
    · exact ⟨file, .inl ⟨rfl, rfl⟩⟩
    · exact ⟨file', .inr hopened⟩

theorem before (h : Adds a i handle file w' w'') (h' : Onward a i w w') :
    Adds a i handle file w w'' where
  keeps := h'.keeps.trans h.keeps
  fresh := fun howns => h.fresh (h'.owns.mpr howns)
  opened := by
    intro handle' file'
    rw [h.opened, h'.opened]
  locks := fun handle' file' hopened hlock =>
    h.locks handle' file' ((h'.opened _ _).mpr hopened) (h'.locks handle' file' hopened hlock)

theorem onward (h : Adds a i handle file w w') (h' : Onward a i w' w'') :
    Adds a i handle file w w'' where
  keeps := h.keeps.trans h'.keeps
  fresh := h.fresh
  opened := fun handle' file' => (h'.opened handle' file').trans (h.opened handle' file')
  locks := fun handle' file' hopened hlock =>
    h'.locks handle' file' ((h.opened _ _).mpr (.inr hopened)) (h.locks handle' file' hopened hlock)

theorem opened_self (h : Adds a i handle file w w') : w'.opened handle = some (i, file) :=
  (h.opened handle file).mpr (.inl ⟨rfl, rfl⟩)

/-- A handle that comes and goes. -/
theorem drops (h : Adds a i handle file w w') (h' : Drops a i handle w' w'') :
    Onward a i w w'' where
  keeps := h.keeps.trans h'.keeps
  opened := by
    intro handle' file'
    rw [h'.opened, h.opened]
    constructor
    · rintro ⟨hne, ⟨hsame, -⟩ | hopened⟩
      · exact absurd hsame hne
      · exact hopened
    · intro hopened
      refine ⟨?_, .inr hopened⟩
      rintro rfl
      exact h.fresh ⟨file', hopened⟩
  locks := by
    intro handle' file' hopened hlock
    have hne : handle' ≠ handle := by
      rintro rfl
      exact h.fresh ⟨file', hopened⟩
    exact h'.locks handle' file' hne ((h.opened _ _).mpr (.inr hopened))
      (h.locks handle' file' hopened hlock)

end Adds

theorem Drops.onward (h : Drops a i handle w w') (h' : Onward a i w' w'') :
    Drops a i handle w w'' where
  keeps := h.keeps.trans h'.keeps
  opened := fun handle' file' => (h'.opened handle' file').trans (h.opened handle' file')
  locks := fun handle' file' hne hopened hlock =>
    h'.locks handle' file' ((h.opened _ _).mpr ⟨hne, hopened⟩)
      (h.locks handle' file' hne hopened hlock)

theorem Drops.before (h : Drops a i handle w' w'') (h' : Onward a i w w') :
    Drops a i handle w w'' where
  keeps := h'.keeps.trans h.keeps
  opened := by
    intro handle' file'
    rw [h.opened, h'.opened]
  locks := fun handle' file' hne hopened hlock =>
    h.locks handle' file' hne ((h'.opened _ _).mpr hopened) (h'.locks handle' file' hopened hlock)

theorem Drops.owns (h : Drops a i handle w w') {other : Nat} :
    w'.Owns i other ↔ other ≠ handle ∧ w.Owns i other := by
  unfold System.Owns
  simp only [h.opened]
  exact exists_and_left

theorem System.openAs_adds (w : System ι) (file : Nat) :
    Adds a i w.next file w (w.openAs i file) where
  keeps := .refl w.fs
  fresh := by
    rintro ⟨file', hopened⟩
    rw [w.unopened _ (Nat.le_refl _)] at hopened
    cases hopened
  opened := by
    intro handle' file'
    unfold openAs
    by_cases hhandle : handle' = w.next
    · subst hhandle
      simp only [Function.update_self, Option.some.injEq, Prod.mk.injEq, true_and]
      rw [w.unopened _ (Nat.le_refl _)]
      simp [eq_comm]
    · simp [hhandle]
  locks := fun _ _ _ hlock => hlock

theorem System.shut_drops (w : System ι) (handle : Nat) :
    Drops a i handle w (w.shut handle) where
  keeps := .refl w.fs
  opened := by
    intro handle' file'
    unfold shut
    by_cases hsame : handle' = handle
    · subst hsame
      simp
    · simp [hsame]
  locks := fun _ _ hne _ hlock => (release_locks_iff hne).mpr hlock

theorem System.Creates.next_eq {fileType : FileType} {place : Route} {mode : Nat}
    (h : w.Creates a i fileType place mode w') : w'.next = w.next := by
  obtain ⟨dir, name, data, -, -, -, -, -, rfl⟩ := h
  rfl

/-- A new file, opened. -/
theorem System.Creates.adds {fileType : FileType} {place : Route} {mode : Nat}
    (h : w.Creates a i fileType place mode w') :
    Adds a i w.next file w (w'.openAs i file) := by
  have hopen := (w'.openAs_adds (a := a) (i := i) file).before (creates_leaves h).onward
  rwa [h.next_eq] at hopen

/-- The calls that leave a process its handles and locks, and bring it none. -/
def Call.isQuiet : Call → Bool
  | .openNew _ _ | .openFile _ _ | .openRead _ | .tryLock _ | .unlock _ | .close _ => false
  | _ => true

theorem System.quiet_onward {call : Call} {answer : Answer call} (hquiet : call.isQuiet = true)
    (hpermits : w.permits a i call) (h : w.answers a i call answer w') : Onward a i w w' := by
  have hsame : w'.opened = w.opened ∧ w'.locks = w.locks := by
    cases call with
    | lstat path | fstat handle | read handle limit =>
        cases answer with
        | error error => rw [show w' = w from h]; exact ⟨rfl, rfl⟩
        | ok value => rw [h.1]; exact ⟨rfl, rfl⟩
    | mkdir path mode =>
        cases answer with
        | error error => rw [show w' = w from h]; exact ⟨rfl, rfl⟩
        | ok value =>
            obtain ⟨dir, name, data, -, -, -, -, -, rfl⟩ := h
            exact ⟨rfl, rfl⟩
    | unlink path =>
        cases answer with
        | error error => rw [show w' = w from h]; exact ⟨rfl, rfl⟩
        | ok value =>
            obtain ⟨dir, name, file, -, -, -, rfl⟩ := h
            exact ⟨rfl, rfl⟩
    | accessAcl handle => rw [h.1]; exact ⟨rfl, rfl⟩
    | effectiveUser | effectiveGroup => rw [h.2]; exact ⟨rfl, rfl⟩
    | clock | processId | counter => rw [show w' = w from h]; exact ⟨rfl, rfl⟩
    | openNew path mode | openFile path mode | openRead path | tryLock handle
    | unlock handle | close handle => cases hquiet
  refine ⟨System.answers_keeps hpermits h, fun handle file => ?_, fun handle file _ hlock => ?_⟩
  · rw [hsame.1]
  · rw [hsame.2]
    exact hlock

section

variable {post : α → System ι → Prop}

theorem ensures_done {value : α} (h : ∀ w', w.Leaves a i w' → post value w') :
    Ensures a i w (.done value) post :=
  holds_done fun w' hleaves => ⟨rfl, h w' hleaves⟩

theorem ensures_mono {post' : α → System ι → Prop} {p : Program Answer α}
    (h : Ensures a i w p post) (himp : ∀ value w', post value w' → post' value w') :
    Ensures a i w p post' :=
  holds_mono h fun value s hpost => ⟨hpost.1, himp value s.2 hpost.2⟩

theorem Ensures.leaves {p : Program Answer α} (h : Ensures a i w p post)
    (hleaves : w.Leaves a i w') : Ensures a i w' p post :=
  holds_interferes h ⟨rfl, hleaves⟩

theorem ensures_bind {p : Program Answer β} {f : β → Program Answer α}
    (h : Ensures a i w p fun value w' => Ensures a i w' (f value) post) :
    Ensures a i w (p >>= f) post := by
  apply holds_bind
  refine holds_mono h ?_
  rintro value ⟨_, w'⟩ ⟨rfl, hrest⟩
  exact hrest

theorem ensures_ask {request : Call} {next : Answer request → Program Answer α}
    (h : ∀ w', w.Leaves a i w' → w'.permits a i request ∧
      ∀ answer w'', w'.answers a i request answer w'' →
        Ensures a i w'' (next answer) post) :
    Ensures a i w (.ask request next) post :=
  holds_call h

end

section

variable {post : Except ε α → System ι → Prop}

/-- A sequence, whose first part may raise. -/
theorem ensures_raising_bind {p : Raising Answer ε β} {f : β → Raising Answer ε α}
    (h : Ensures a i w p.run fun result w' => match result with
      | .ok value => Ensures a i w' (f value).run post
      | .error exception => ∀ w'', w'.Leaves a i w'' → post (.error exception) w'') :
    Ensures a i w (p >>= f).run post := by
  rw [Raising.run_bind]
  refine ensures_bind (ensures_mono h ?_)
  intro result w' hrest
  cases result with
  | ok value => exact hrest
  | error exception => exact ensures_done hrest

/-- A call that brings or costs a process no handle. The states are those when it is
made, when it is answered and when the process goes on. -/
theorem ensures_request {request : Call} (hquiet : request.isQuiet = true)
    {post : Except ε (Answer request) → System ι → Prop}
    (hpermits : ∀ w', w.Leaves a i w' → w'.permits a i request)
    (h : ∀ answer w₁ w₂ w₃, Onward a i w w₁ → w₁.answers a i request answer w₂ →
      Onward a i w w₂ → Onward a i w₂ w₃ → post (.ok answer) w₃) :
    Ensures a i w (ExceptT.lift (Program.perform request) : Raising Answer ε _).run post := by
  refine ensures_bind (p := Program.perform request) (ensures_ask fun w₁ hleaves => ?_)
  refine ⟨hpermits w₁ hleaves, fun answer w₂ hanswers => ?_⟩
  refine ensures_done fun w₃ hleaves' => ensures_done fun w₄ hleaves'' => ?_
  exact h answer w₁ w₂ w₄ hleaves.onward hanswers
    (hleaves.onward.trans (System.quiet_onward hquiet (hpermits w₁ hleaves) hanswers))
    (hleaves'.onward.trans hleaves''.onward)

end

/-! Parts of a program that give up what handles they take. -/

def call (request : Call) : Raising Answer ε (Answer request) :=
  ExceptT.lift (Program.perform request)

/-- What a call returned, or the exception for its error. -/
def orRaise (raise : IoError → ε) : Except IoError α → Raising Answer ε α
  | .ok value => return value
  | .error source => throw (raise source)

/-- A program that goes through with this result, if it does not raise, and brings or costs
the process no handle. -/
def Yields (a : Account) (i : ι) (w : System ι) (p : Raising Answer ε α)
    (post : α → System ι → Prop) : Prop :=
  Ensures a i w p.run fun result w' =>
    Onward a i w w' ∧ ∀ value, result = .ok value → post value w'

section

variable {post : α → System ι → Prop}

theorem yields_pure {value : α} (h : ∀ w', Onward a i w w' → post value w') :
    Yields a i w (pure value : Raising Answer ε α) post := by
  refine ensures_done fun w' hleaves => ⟨hleaves.onward, ?_⟩
  rintro _ ⟨⟩
  exact h w' hleaves.onward

theorem yields_throw {exception : ε} :
    Yields a i w (throw exception : Raising Answer ε α) post :=
  ensures_done fun _ hleaves => ⟨hleaves.onward, fun _ hvalue => nomatch hvalue⟩

theorem yields_mono {post' : α → System ι → Prop} {p : Raising Answer ε α}
    (h : Yields a i w p post)
    (himp : ∀ value w', Onward a i w w' → post value w' → post' value w') :
    Yields a i w p post' :=
  ensures_mono h fun _ w' hpost =>
    ⟨hpost.1, fun value hvalue => himp value w' hpost.1 (hpost.2 value hvalue)⟩

/-- What a program does that comes after others. -/
theorem Yields.after {p : Raising Answer ε α} (h : Yields a i w' p post)
    (hbefore : Onward a i w w') :
    Ensures a i w' p.run fun result w'' =>
      Onward a i w w'' ∧ ∀ value, result = .ok value → post value w'' :=
  ensures_mono h fun _ _ hpost => ⟨hbefore.trans hpost.1, hpost.2⟩

theorem yields_bind {middle : β → System ι → Prop} {p : Raising Answer ε β}
    {f : β → Raising Answer ε α} (h : Yields a i w p middle)
    (hrest : ∀ value w', Onward a i w w' → middle value w' → Yields a i w' (f value) post) :
    Yields a i w (p >>= f) post := by
  refine ensures_raising_bind (ensures_mono h ?_)
  rintro (exception | value) w' ⟨honward, hmiddle⟩
  · exact fun w'' hleaves => ⟨honward.trans hleaves.onward, fun _ hvalue => nomatch hvalue⟩
  · refine ensures_mono (hrest value w' honward (hmiddle value rfl)) ?_
    exact fun result w'' hpost => ⟨honward.trans hpost.1, hpost.2⟩

theorem yields_throw_bind {exception : ε} {f : β → Raising Answer ε α} :
    Yields a i w ((throw exception : Raising Answer ε β) >>= f) post := by
  have hnever : Yields a i w (throw exception : Raising Answer ε β) fun _ _ => False :=
    yields_throw
  exact yields_bind hnever fun _ _ _ hfalse => hfalse.elim

/-- The states are those when the call is made, when it is answered and when the process
goes on. -/
theorem yields_request {request : Call} (hquiet : request.isQuiet = true)
    {post : Answer request → System ι → Prop}
    (hpermits : ∀ w', w.Leaves a i w' → w'.permits a i request)
    (h : ∀ answer w₁ w₂ w₃, Onward a i w w₁ → w₁.answers a i request answer w₂ →
      Onward a i w w₂ → Onward a i w₂ w₃ → post answer w₃) :
    Yields a i w (call request : Raising Answer ε _) post := by
  refine ensures_request hquiet hpermits fun answer w₁ w₂ w₃ h₁ hanswers h₂ h₃ => ?_
  refine ⟨h₂.trans h₃, ?_⟩
  rintro _ ⟨⟩
  exact h answer w₁ w₂ w₃ h₁ hanswers h₂ h₃

theorem run_call_bind (request : Call) (f : Answer request → Raising Answer ε α) :
    (call request >>= f).run = .ask request fun answer => (f answer).run := rfl

theorem yields_any {request : Call} {f : Answer request → Raising Answer ε α}
    (hquiet : request.isQuiet = true) (hpermits : ∀ w', System.permits a w' i request)
    (h : ∀ answer w', Onward a i w w' → Yields a i w' (f answer) post) :
    Yields a i w (call request >>= f) post := by
  have hcall : Yields a i w (call request : Raising Answer ε _) fun _ _ => True :=
    yields_request hquiet (fun w' _ => hpermits w') fun _ _ _ _ _ _ _ _ => trivial
  exact yields_bind hcall fun answer w' honward _ => h answer w' honward

theorem yields_orRaise_bind {raise : IoError → ε} {result : Except IoError β}
    {f : β → Raising Answer ε α}
    (h : ∀ value, result = .ok value → Yields a i w (f value) post) :
    Yields a i w (orRaise raise result >>= f) post := by
  cases result with
  | error source => exact yields_throw_bind
  | ok value => exact h value rfl

theorem yields_liftExcept {result : Except ε α}
    (h : ∀ value, result = .ok value → ∀ w', Onward a i w w' → post value w') :
    Yields a i w (liftExcept result : Raising Answer ε α) post := by
  cases result with
  | error exception => exact yields_throw
  | ok value => exact yields_pure (h value rfl)

/-- A check that what follows can rely on. -/
theorem yields_check {c : Prop} [Decidable c] {exception : ε} {f : Unit → Raising Answer ε α}
    (h : ¬ c → Yields a i w (f ()) post) :
    Yields a i w (if c then throw exception >>= f else f ()) post := by
  split
  · exact yields_throw_bind
  · next hpassed => exact h hpassed

/-- A check that comes last. -/
theorem yields_last_check {c : Prop} [Decidable c] {exception : ε}
    {post : Unit → System ι → Prop} (h : ¬ c → ∀ w', Onward a i w w' → post () w') :
    Yields a i w (if c then throw exception else pure () : Raising Answer ε Unit) post := by
  split
  · exact yields_throw
  · next hpassed => exact yields_pure (h hpassed)

end

end Files
