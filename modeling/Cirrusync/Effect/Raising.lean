import Cirrusync.Effect.Contract

/-!
Programs that may raise an exception: what follows a raised one is left out, up to
a cleanup that runs in either case.
-/

namespace Effect

variable {Op : Type} {Ans : Op → Type} {S ε α β : Type}

/-- A program that comes to its end with a value or raises. -/
abbrev Raising (Ans : Op → Type) (ε α : Type) : Type := ExceptT ε (Program Ans) α

namespace Raising

/-- `try: body finally: cleanup`. What the cleanup raises takes the place of what the
body came to. -/
def tryFinally (body : Raising Ans ε α) (cleanup : Raising Ans ε Unit) : Raising Ans ε α :=
  ExceptT.mk (body.run >>= fun result => cleanup.run >>= fun
    | .ok _ => .done result
    | .error exception => .done (.error exception))

@[simp] theorem run_pure (value : α) :
    (pure value : Raising Ans ε α).run = .done (.ok value) := rfl

theorem run_bind (p : Raising Ans ε α) (f : α → Raising Ans ε β) :
    (p >>= f).run = p.run >>= fun
      | .ok value => (f value).run
      | .error exception => .done (.error exception) := by
  rw [ExceptT.run_bind]
  rfl

end Raising

theorem uses_raising_bind {allowed : Op → Prop} {p : Raising Ans ε α} {f : α → Raising Ans ε β}
    (hp : Uses allowed p.run) (hf : ∀ value, Uses allowed (f value).run) :
    Uses allowed (p >>= f).run := by
  rw [Raising.run_bind]
  refine uses_bind hp fun result => ?_
  cases result with
  | ok value => exact hf value
  | error exception => trivial

/-- Where the first part of a sequence comes to a value, the run goes on with the second. -/
theorem runs_raising_bind {p : Raising Ans ε α} {f : α → Raising Ans ε β} {value : α}
    {result : Except ε β} {before after : List (Event Ans)} (hp : Runs p.run before (.ok value))
    (hf : Runs (f value).run after result) : Runs (p >>= f).run (before ++ after) result := by
  rw [Raising.run_bind]
  exact (runs_bind_iff _ _ _ _).mpr ⟨before, after, .ok value, rfl, hp, hf⟩

variable {c : Contract Ans S}

/-- A sequence holds where its second part does after the first; if the first raises,
so does the whole. -/
theorem holds_raising_bind {post : Except ε β → S → Prop} {p : Raising Ans ε α}
    {f : α → Raising Ans ε β} {s : S}
    (h : Holds c (fun result s' => match result with
      | .ok value => Holds c post (f value).run s'
      | .error exception => Holds c post (.done (.error exception)) s') p.run s) :
    Holds c post (p >>= f).run s := by
  rw [Raising.run_bind]
  apply holds_bind
  refine holds_mono h ?_
  intro result s' hpost
  cases result <;> exact hpost

theorem holds_tryFinally {post : Except ε α → S → Prop} {body : Raising Ans ε α}
    {cleanup : Raising Ans ε Unit} {s : S}
    (h : Holds c (fun result s' => Holds c (fun cleaned s'' => match cleaned with
      | .ok _ => Holds c post (.done result) s''
      | .error exception => Holds c post (.done (.error exception)) s'') cleanup.run s')
      body.run s) :
    Holds c post (Raising.tryFinally body cleanup).run s := by
  apply holds_bind
  refine holds_mono h ?_
  intro result s' hpost
  apply holds_bind
  refine holds_mono hpost ?_
  intro cleaned s'' hdone
  cases cleaned <;> exact hdone

end Effect
