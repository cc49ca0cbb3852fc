import Cirrusync.Effect.Contract

/-!
Programs that may exit early: a script goes on as long as its steps do. What it asks
and what holds along it are those of the program underneath.
-/

namespace Effect

variable {Op : Type} {Ans : Op → Type} {S α β : Type}

/-- A program that either comes to its end or exits. -/
abbrev Script (Ans : Op → Type) (α : Type) : Type := OptionT (Program Ans) α

namespace Script

/-- Leave the script. -/
def exit : Script Ans α := OptionT.fail

/-- A program as a step of a script. -/
def step (p : Program Ans α) : Script Ans α := OptionT.lift p

@[simp] theorem run_exit : (exit : Script Ans α).run = .done none := rfl

@[simp] theorem run_pure (value : α) : (pure value : Script Ans α).run = .done (some value) :=
  rfl

theorem run_bind (p : Script Ans α) (f : α → Script Ans β) :
    (p >>= f).run = p.run >>= fun
      | some value => (f value).run
      | none => .done none := by
  rw [OptionT.run_bind, Option.elimM]
  congr 1
  funext result
  cases result <;> rfl

end Script

theorem uses_script_step {allowed : Op → Prop} {p : Program Ans α} (h : Uses allowed p) :
    Uses allowed (Script.step p).run :=
  uses_bind h fun _ => trivial

theorem uses_script_bind {allowed : Op → Prop} {p : Script Ans α} {f : α → Script Ans β}
    (hp : Uses allowed p.run) (hf : ∀ value, Uses allowed (f value).run) :
    Uses allowed (p >>= f).run := by
  rw [Script.run_bind]
  apply uses_bind hp
  intro result
  cases result with
  | none => trivial
  | some value => exact hf value

variable {c : Contract Ans S}

/-- A sequence holds where its second part does after the first; if the first exits, so
does the whole. -/
theorem holds_script_bind {post : Option β → S → Prop} {p : Script Ans α}
    {f : α → Script Ans β} {s : S}
    (h : Holds c (fun result s' => match result with
      | some value => Holds c post (f value).run s'
      | none => Holds c post (.done none) s') p.run s) :
    Holds c post (p >>= f).run s := by
  rw [Script.run_bind]
  apply holds_bind
  refine holds_mono h ?_
  intro result s' hpost
  cases result <;> exact hpost

end Effect
