import Cirrusync.Files.Faultless
import Cirrusync.Files.Scope

/-!
What a program that reads files decides on a faultless host: the results that it can have
are told by the file system alone.
-/

namespace Files

open Effect FileSystem

/-- On a faultless host a program comes to an allowed state, and its result is a value if and
only if that is the right one. -/
def Decides {ι ε α : Type} (a : Account) (i : ι) (w : System ι) (allowed : System ι → Prop)
    (p : Raising Answer ε α) (right : α → Prop) : Prop :=
  Attains a i w p.run fun result w' => allowed w' ∧ ∀ value, result = .ok value ↔ right value

section

variable {ι α β ε : Type} {a : Account} {i : ι} {w : System ι} {allowed : System ι → Prop}
  {right : α → Prop}

theorem decides_throw {e : ε} (hallowed : allowed w) (h : ∀ value, ¬ right value) :
    Decides a i w allowed (throw e : Raising Answer ε α) right :=
  attains_done.mpr ⟨hallowed, fun value => ⟨nofun, fun hright => absurd hright (h value)⟩⟩

theorem decides_liftExcept {result : Except ε α} (hallowed : allowed w) :
    Decides a i w allowed (liftExcept result : Raising Answer ε α) fun value =>
      result = .ok value := by
  cases result <;> exact attains_done.mpr ⟨hallowed, fun _ => Iff.rfl⟩

theorem decides_pure {value : α} (hallowed : allowed w) (h : ∀ other, right other ↔ other = value) :
    Decides a i w allowed (pure value : Raising Answer ε α) right := by
  refine attains_done.mpr ⟨hallowed, fun other => ?_⟩
  rw [h, Except.ok.injEq, eq_comm]

theorem Decides.congr {right' : α → Prop} {p : Raising Answer ε α}
    (hp : Decides a i w allowed p right) (h : ∀ value, right value ↔ right' value) :
    Decides a i w allowed p right' :=
  attains_mono hp fun _ _ hresult => ⟨hresult.1, fun value => (hresult.2 value).trans (h value)⟩

/-- The right value is one that the program comes to. -/
theorem Decides.exists_run {p : Raising Answer ε α} (hp : Decides a i w allowed p right)
    {value : α} (h : right value) :
    ∃ trace w', Runs p.run trace (.ok value) ∧ Path (faultless a i) w trace w' ∧ allowed w' := by
  obtain ⟨trace, result, w', hrun, hpath, hallowed, hresult⟩ := Attains.exists_run hp
  rw [(hresult value).mpr h] at hrun
  exact ⟨trace, w', hrun, hpath, hallowed⟩

/-- There is but one right value. -/
theorem Decides.unique {p : Raising Answer ε α} {value value' : α}
    (hp : Decides a i w allowed p right) (h : right value) (h' : right value') :
    value = value' := by
  obtain ⟨trace, result, w', -, -, -, hresult⟩ := Attains.exists_run hp
  have hsame := ((hresult value).mpr h).symm.trans ((hresult value').mpr h')
  exact Except.ok.inj hsame

/-- A sequence, whose first part may raise. -/
theorem Decides.bind {allowed' : System ι → Prop} {right' : β → Prop} {p : Raising Answer ε β}
    {f : β → Raising Answer ε α} (hp : Decides a i w allowed' p right')
    (hok : ∀ value w', allowed' w' → right' value → Decides a i w' allowed (f value) right)
    (hfails : (∀ value, ¬ right' value) → ∀ w', allowed' w' →
      allowed w' ∧ ∀ value, ¬ right value) :
    Decides a i w allowed (p >>= f) right := by
  unfold Decides
  rw [Raising.run_bind]
  refine attains_bind (attains_mono hp ?_)
  rintro (exception | value) w' ⟨hallowed, hright⟩
  · have hnone : ∀ value, ¬ right' value := fun value hvalue =>
      nomatch (hright value).mpr hvalue
    obtain ⟨hend, hwrong⟩ := hfails hnone w' hallowed
    exact decides_throw (e := exception) hend hwrong
  · exact hok value w' hallowed ((hright value).mp rfl)

theorem decides_check {c : Prop} [Decidable c] {exception : ε} {f : Unit → Raising Answer ε α}
    (hfails : c → allowed w ∧ ∀ value, ¬ right value)
    (h : ¬ c → Decides a i w allowed (f ()) right) :
    Decides a i w allowed (if c then throw exception >>= f else f ()) right := by
  split
  · next hc => exact decides_throw (e := exception) (hfails hc).1 (hfails hc).2
  · next hc => exact h hc

/-- A check that comes last decides what it checks. -/
theorem decides_last_check {c : Prop} [Decidable c] {exception : ε} {right : Unit → Prop}
    (hallowed : allowed w) (h : right () ↔ ¬ c) :
    Decides a i w allowed (if c then throw exception else pure () : Raising Answer ε Unit)
      right := by
  split
  · next hc => exact decides_throw hallowed fun _ hright => h.mp hright hc
  · next hc => exact decides_pure hallowed fun _ => iff_of_true (h.mpr hc) rfl

end

section

variable {ι α ε : Type} {a : Account} {i : ι} {w : System ι} {allowed : System ι → Prop}
  {right : α → Prop} {path : String} {handle file : Nat} {data : Metadata} {raise : IoError → ε}

theorem decides_lstat {f : Stat → Raising Answer ε α}
    (hfind : w.fs.find (route path) = some file) (hdata : w.fs.metadata file = some data)
    (h : Decides a i w allowed (f ⟨file, data, (w.fs.contents file).length⟩) right) :
    Decides a i w allowed (call (.lstat path) >>= fun result => orRaise raise result >>= f)
      right := by
  unfold Decides
  rw [run_call_bind]
  exact attains_lstat hfind hdata h

theorem decides_fstat {f : Stat → Raising Answer ε α}
    (hopened : w.opened handle = some (i, file)) (hdata : w.fs.metadata file = some data)
    (h : Decides a i w allowed (f ⟨file, data, (w.fs.contents file).length⟩) right) :
    Decides a i w allowed (call (.fstat handle) >>= fun result => orRaise raise result >>= f)
      right := by
  unfold Decides
  rw [run_call_bind]
  exact attains_fstat hopened hdata h

theorem decides_read {limit : Nat} {f : List UInt8 → Raising Answer ε α}
    (hopened : w.opened handle = some (i, file))
    (h : Decides a i w allowed (f ((w.fs.contents file).take limit)) right) :
    Decides a i w allowed
      (call (.read handle limit) >>= fun result => orRaise raise result >>= f) right := by
  unfold Decides
  rw [run_call_bind]
  refine attains_ask fun answer w' hanswers hobliges => ?_
  cases answer with
  | error error => exact absurd ⟨file, hopened⟩ hobliges
  | ok read =>
      obtain ⟨rfl, file', hfile, rfl⟩ := hanswers
      obtain rfl : file = file' := congrArg Prod.snd (Option.some.inj (hopened.symm.trans hfile))
      exact h

theorem decides_effectiveUser {f : Nat → Raising Answer ε α}
    (h : Decides a i w allowed (f a.uid) right) :
    Decides a i w allowed (call .effectiveUser >>= f) right := by
  unfold Decides
  rw [run_call_bind]
  refine attains_ask fun answer w' hanswers _ => ?_
  obtain ⟨rfl, rfl⟩ := hanswers
  exact h

theorem decides_effectiveGroup {f : Nat → Raising Answer ε α}
    (h : Decides a i w allowed (f a.gid) right) :
    Decides a i w allowed (call .effectiveGroup >>= f) right := by
  unfold Decides
  rw [run_call_bind]
  refine attains_ask fun answer w' hanswers _ => ?_
  obtain ⟨rfl, rfl⟩ := hanswers
  exact h

theorem decides_accessAcl {f : Except IoError Unit → Raising Answer ε α}
    (hopened : w.opened handle = some (i, file)) (hdata : w.fs.metadata file = some data)
    (hnone : ∀ error, data.acl = false → noAttribute error = true →
      Decides a i w allowed (f (.error error)) right)
    (hother : ∀ answer, data.acl = true → (∀ error, answer = .error error →
      noAttribute error = false) → Decides a i w allowed (f answer) right) :
    Decides a i w allowed (call (.accessAcl handle) >>= f) right := by
  unfold Decides
  rw [run_call_bind]
  refine attains_ask fun answer w' hanswers hobliges => ?_
  obtain ⟨rfl, htold⟩ := hanswers
  cases hacl : data.acl with
  | false =>
      obtain ⟨error, rfl, hattribute⟩ := hobliges file data hopened hdata hacl
      exact hnone error hacl hattribute
  | true =>
      refine hother answer hacl fun error herror => ?_
      cases hattribute : noAttribute error with
      | false => rfl
      | true =>
          have hnot := htold file data error hopened hdata herror hattribute
          rw [hacl] at hnot
          cases hnot

/-- Opening a file, which fails if the path names none or a symbolic link. -/
theorem decides_openRead {β : Type} {f : Nat → Raising Answer ε β} {right : β → Prop}
    (hfile : ∀ file data, w.fs.find (route path) = some file →
      w.fs.metadata file = some data → data.fileType ≠ .symlink →
      Decides a i (w.openAs i file) allowed (f w.next) right)
    (hnone : (∀ file data, w.fs.find (route path) = some file →
      w.fs.metadata file = some data → data.fileType = .symlink) →
      allowed w ∧ ∀ value, ¬ right value) :
    Decides a i w allowed ((call (.openRead path) >>= fun result => orRaise raise result) >>= f)
      right := by
  unfold Decides
  rw [Raising.run_bind, run_call_bind, Program.ask_bind]
  refine attains_ask fun answer w' hanswers hobliges => ?_
  cases answer with
  | error error =>
      obtain rfl : w' = w := hanswers
      obtain ⟨hallowed, hwrong⟩ := hnone hobliges
      exact decides_throw (e := raise error) hallowed hwrong
  | ok opened =>
      obtain ⟨rfl, file, data, hfind, hdata, hlink, rfl⟩ := hanswers
      exact hfile file data hfind hdata hlink

/-- What is decided with a file open is decided once it is closed. -/
theorem Decides.whileOpen {body : Raising Answer ε α} (hown : w.Owns i handle)
    (hbody : Decides a i w (· = w) body right) (hallowed : allowed (w.shut handle)) :
    Decides a i w allowed (whileOpen handle body) right := by
  refine attains_bind (attains_mono hbody ?_)
  rintro result _ ⟨rfl, hright⟩
  refine attains_bind (attains_close hown ?_)
  exact attains_done.mpr (attains_done.mpr ⟨hallowed, hright⟩)

theorem Decides.keepingOpen {body : Raising Answer ε Unit} {right : Unit → Prop}
    (hown : w.Owns i handle) (hbody : Decides a i w (· = w) body right)
    (hkept : right () → allowed w) (hclosed : ¬ right () → allowed (w.shut handle)) :
    Decides a i w allowed (keepingOpen handle body) fun opened => opened = handle ∧ right () := by
  refine attains_bind (attains_mono hbody ?_)
  rintro (exception | ⟨⟩) _ ⟨rfl, hright⟩
  · have hwrong : ¬ right () := fun h => nomatch (hright ()).mpr h
    refine attains_bind (attains_close hown ?_)
    exact attains_done.mpr (attains_done.mpr ⟨hclosed hwrong, fun _ =>
      ⟨nofun, fun h => absurd h.2 hwrong⟩⟩)
  · have hok := (hright ()).mp rfl
    refine attains_done.mpr ⟨hkept hok, fun opened => ?_⟩
    simp [hok, eq_comm]

end

end Files
