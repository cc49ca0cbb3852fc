import Cirrusync.Files.Triple

/-!
Files that go out of scope: one is closed when what is done with it fails, or when it is
over in any case.
-/

namespace Files

open Effect

section

variable {α ε : Type}

/-- The file stays open unless the body fails. -/
def keepingOpen (file : Nat) (body : Raising Answer ε Unit) : Raising Answer ε Nat :=
  ExceptT.mk (body.run >>= fun
    | .ok () => return .ok file
    | .error error => do
        Program.perform (Call.close file)
        return .error error)

/-- The file is closed after the body. -/
def whileOpen (file : Nat) (body : Raising Answer ε α) : Raising Answer ε α :=
  ExceptT.mk (body.run >>= fun result => do
    Program.perform (Call.close file)
    return result)

end

section

variable {ι α ε : Type} {a : Account} {i : ι} {w w' : System ι} {handle file : Nat}

/-- What becomes of a file that is kept open if all goes well. -/
def KeptOpen (a : Account) (i : ι) (w : System ι) (file handle : Nat) (post : System ι → Prop) :
    Except ε Nat → System ι → Prop
  | .ok opened, w' => opened = handle ∧ Adds a i handle file w w' ∧ post w'
  | .error _, w' => Onward a i w w'

/-- Closing a handle that has come to a process. -/
theorem ensures_close {post : α → System ι → Prop} {next : Unit → Program Answer α}
    (hadds : Adds a i handle file w w')
    (h : ∀ w'', Onward a i w w'' → w'.fs.Keeps a.trusted a.transient w''.fs →
      Ensures a i w'' (next ()) post) :
    Ensures a i w' (.ask (.close handle) next) post := by
  refine ensures_ask fun w₁ h₁ => ⟨trivial, fun _ w₂ hclosed => ?_⟩
  have hown := hadds.onward h₁.onward
  obtain ⟨-, rfl⟩ | ⟨hnot, -⟩ := hclosed
  · exact h _ (hown.drops (w₁.shut_drops handle)) h₁.keeps
  · exact absurd ⟨_, hown.opened_self⟩ hnot

theorem keepingOpen_ensures {post : System ι → Prop} {body : Raising Answer ε Unit}
    (hadds : Adds a i handle file w w') (hbody : Yields a i w' body fun _ => post)
    (hstable : ∀ w₁ w₂, w₁.Leaves a i w₂ → post w₁ → post w₂) :
    Ensures a i w' (keepingOpen handle body).run (KeptOpen a i w file handle post) := by
  unfold keepingOpen
  refine ensures_bind (ensures_mono hbody ?_)
  rintro (error | ⟨⟩) w₁ ⟨h₁, hpost⟩
  · refine ensures_bind (ensures_close (hadds.onward h₁) fun w₂ h₂ _ => ?_)
    exact ensures_done fun w₃ h₃ => ensures_done fun w₄ h₄ =>
      h₂.trans (h₃.onward.trans h₄.onward)
  · exact ensures_done fun w₂ h₂ =>
      ⟨rfl, hadds.onward (h₁.trans h₂.onward), hstable w₁ w₂ h₂ (hpost () rfl)⟩

/-- The postcondition of the body survives the closing if it is about the file system. -/
theorem whileOpen_yields {post : α → System ι → Prop} {body : Raising Answer ε α}
    (hadds : Adds a i handle file w w') (hbody : Yields a i w' body post)
    (hkept : ∀ value w₁ w₂, w₁.fs.Keeps a.trusted a.transient w₂.fs → post value w₁ →
      post value w₂) :
    Ensures a i w' (whileOpen handle body).run fun result w'' =>
      Onward a i w w'' ∧ ∀ value, result = .ok value → post value w'' := by
  unfold whileOpen
  refine ensures_bind (ensures_mono hbody ?_)
  rintro result w₁ ⟨h₁, hpost⟩
  refine ensures_bind (ensures_close (hadds.onward h₁) fun w₂ h₂ hkeeps => ?_)
  refine ensures_done fun w₃ h₃ => ensures_done fun w₄ h₄ => ⟨?_, fun value hvalue => ?_⟩
  · exact h₂.trans (h₃.onward.trans h₄.onward)
  · exact hkept value w₁ w₄ ((hkeeps.trans h₃.keeps).trans h₄.keeps) (hpost value hvalue)

end

end Files
