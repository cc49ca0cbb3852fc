import Cirrusync.Effect.Contract
import Cirrusync.Git.Store

/-!
The commands that look into a store, as they run in processes of their own: what they print
and with which status they end. While none of them runs, objects are added and refs move.
-/

namespace Git

open Effect

/-- An error of starting a process. -/
structure OSError where
  text : String
  deriving DecidableEq, Repr

structure Completed where
  returncode : Int
  stdout : List UInt8
  deriving DecidableEq, Repr

inductive Command where
  /-- `rev-parse --verify --quiet ref^{commit}`. -/
  | revParse (ref : List Char)
  /-- `ls-tree commit -- path`. -/
  | lsTree (commit path : List Char)
  /-- `cat-file -s commit:path`. -/
  | size (commit path : List Char)
  /-- `cat-file blob commit:path`. -/
  | blob (commit path : List Char)
  deriving DecidableEq, Repr

abbrev Answer (_ : Command) : Type := Except OSError Completed

/-- A line of `ls-tree`. -/
def Entry.line (entry : Entry) (path : List Char) : List UInt8 :=
  entry.mode.bytes ++ 32 :: (entry.kind.bytes ++ 32 :: (ascii entry.object.text ++
    9 :: (ascii path ++ [10])))

/-- What a command prints that ends with zero. -/
def Store.Prints (s : Store) (stdout : List UInt8) : Command → Prop
  | .revParse ref =>
      (∃ commit, s.refs ref = some commit ∧ stdout = ascii commit.text ++ [10]) ∨
        -- a name to leave out is printed as one
        s.refs ref = none ∧ ∃ rest, stdout = 94 :: rest
  | .lsTree name path => ∀ commit : ObjectId, commit.text = name →
      ∃ tree, s.trees commit = some tree ∧
        stdout = ((tree path).map fun entry => entry.line path).getD []
  | .size name path => ∀ (commit : ObjectId) entry data, commit.text = name →
      s.HasFile commit path entry data → entry.kind.bytes = blobKind →
        stdout = ascii (Nat.toDigits 10 data.length) ++ [10]
  | .blob name path => ∀ (commit : ObjectId) entry data, commit.text = name →
      s.HasFile commit path entry data → entry.kind.bytes = blobKind → stdout = data

/-- What a command asks for. -/
def Store.Has (s : Store) : Command → Prop
  | .revParse ref => ∃ commit, s.refs ref = some commit
  | .lsTree name _ => ∃ commit : ObjectId, commit.text = name ∧ (s.trees commit).isSome = true
  | .size name path | .blob name path => ∃ (commit : ObjectId) (entry : Entry)
      (data : List UInt8), commit.text = name ∧ s.HasFile commit path entry data ∧
        entry.kind.bytes = blobKind

/-- How a command may answer in a state of the store. Where there are faults, one may fail
that has what it asks for. -/
def Store.answers (s : Store) (faults : Bool) (command : Command) : Except OSError Completed → Prop
  | .ok result => (result.returncode = 0 → s.Prints result.stdout command) ∧
      (faults = false → s.Has command → result.returncode = 0)
  | .error _ => faults = true

structure State where
  store : Store
  /-- What each ref stood for when it was asked for. -/
  resolved : List (Option ObjectId)

/-- A command is answered in a state that the store has come to. -/
def State.asked (state : State) (store : Store) : Command → State
  | .revParse ref => ⟨store, state.resolved ++ [store.refs ref]⟩
  | _ => ⟨store, state.resolved⟩

def contract (faults : Bool) : Contract Answer State :=
  .solo (fun _ _ => True) fun state command answer state' => ∃ store,
    state.store.Extends store ∧ store.answers faults command answer ∧
      state' = state.asked store command

theorem holds_ask {α : Type} {faults : Bool} {post : α → State → Prop} {command : Command}
    {next : Answer command → Program Answer α} {state : State}
    (h : ∀ store answer, state.store.Extends store → store.answers faults command answer →
      Holds (contract faults) post (next answer) (state.asked store command)) :
    Holds (contract faults) post (.ask command next) state := by
  refine holds_solo_ask.mpr ⟨trivial, ?_⟩
  rintro answer state' ⟨store, hextends, hanswers, rfl⟩
  exact h store answer hextends hanswers

theorem holds_done {α : Type} {faults : Bool} {post : α → State → Prop} {value : α}
    {state : State} (h : post value state) :
    Holds (contract faults) post (.done value) state := holds_solo_done.mpr h

/-- Objects stay through a run. -/
theorem path_extends {faults : Bool} {state state' : State} {trace : List (Event Answer)}
    (h : Path (contract faults) state trace state') : state.store.Extends state'.store := by
  induction h with
  | nil h =>
      obtain rfl : _ = _ := h
      exact .refl _
  | @cons s s' s'' t op answer rest h hstep _ ih =>
      obtain rfl : s = s' := h
      obtain ⟨store, hextends, -, rfl⟩ := hstep
      refine hextends.trans ?_
      cases op <;> exact ih

/-! ## A store that keeps still -/

def Store.file (s : Store) (name path : List Char) : Option (List UInt8) := do
  let commit ← ObjectId.ofText name
  let tree ← s.trees commit
  let entry ← tree path
  s.blobs entry.object

/-- What a command answers that does not fail of itself. -/
def Store.respond (s : Store) : Command → Completed
  | .revParse ref => match s.refs ref with
    | some commit => ⟨0, ascii commit.text ++ [10]⟩
    | none => ⟨1, []⟩
  | .lsTree name path => match (ObjectId.ofText name).bind s.trees with
    | some tree => ⟨0, ((tree path).map fun entry => entry.line path).getD []⟩
    | none => ⟨128, []⟩
  | .size name path => match s.file name path with
    | some data => ⟨0, ascii (Nat.toDigits 10 data.length) ++ [10]⟩
    | none => ⟨128, []⟩
  | .blob name path => match s.file name path with
    | some data => ⟨0, data⟩
    | none => ⟨128, []⟩

theorem Store.HasFile.file_eq {s : Store} {commit : ObjectId} {path : List Char} {entry : Entry}
    {data : List UInt8} (h : s.HasFile commit path entry data) :
    s.file commit.text path = some data := by
  obtain ⟨⟨tree, htree, hentry⟩, hdata⟩ := h
  simp only [file, ObjectId.ofText_text, Option.bind_eq_bind, Option.bind_some, htree, hentry,
    hdata]

theorem Store.not_hasFile {s : Store} {commit : ObjectId} {path : List Char} {entry : Entry}
    {data : List UInt8} (hnone : s.file commit.text path = none) :
    ¬ s.HasFile commit path entry data := by
  intro h
  rw [h.file_eq] at hnone
  cases hnone

/-- The response that evaluates a command on the store is one of the answers that the store may
give. So there is a run of every program on every store. -/
theorem Store.respond_answers (s : Store) (faults : Bool) (command : Command) :
    s.answers faults command (.ok (s.respond command)) := by
  cases command with
  | revParse ref =>
      cases href : s.refs ref with
      | none =>
          simp only [respond, href]
          refine ⟨fun h => absurd h (by decide), ?_⟩
          rintro - ⟨commit, hcommit⟩
          rw [href] at hcommit
          cases hcommit
      | some commit =>
          simp only [respond, href]
          exact ⟨fun _ => .inl ⟨commit, href, rfl⟩, fun _ _ => rfl⟩
  | lsTree name path =>
      cases htree : (ObjectId.ofText name).bind s.trees with
      | none =>
          simp only [respond, htree]
          refine ⟨fun h => absurd h (by decide), ?_⟩
          rintro - ⟨commit, rfl, hcommit⟩
          rw [ObjectId.ofText_text, Option.bind_some] at htree
          rw [htree] at hcommit
          cases hcommit
      | some tree =>
          simp only [respond, htree]
          refine ⟨?_, fun _ _ => rfl⟩
          rintro - commit rfl
          rw [ObjectId.ofText_text, Option.bind_some] at htree
          exact ⟨tree, htree, rfl⟩
  | size name path =>
      cases hfile : s.file name path with
      | none =>
          simp only [respond, hfile]
          refine ⟨fun h => absurd h (by decide), ?_⟩
          rintro - ⟨commit, entry, data, rfl, h, -⟩
          exact absurd h (not_hasFile hfile)
      | some data =>
          simp only [respond, hfile]
          refine ⟨?_, fun _ _ => rfl⟩
          rintro - commit entry data' rfl h -
          rw [Option.some.inj (hfile.symm.trans h.file_eq)]
  | blob name path =>
      cases hfile : s.file name path with
      | none =>
          simp only [respond, hfile]
          refine ⟨fun h => absurd h (by decide), ?_⟩
          rintro - ⟨commit, entry, data, rfl, h, -⟩
          exact absurd h (not_hasFile hfile)
      | some data =>
          simp only [respond, hfile]
          refine ⟨?_, fun _ _ => rfl⟩
          rintro - commit entry data' rfl h -
          rw [Option.some.inj (hfile.symm.trans h.file_eq)]

/-- A run on a store that keeps still, without faults. -/
def runStill {α : Type} : State → Program Answer α → List (Event Answer) × α × State
  | state, .done value => ([], value, state)
  | state, .ask command next =>
      let answer : Answer command := .ok (state.store.respond command)
      let (trace, result) := runStill (state.asked state.store command) (next answer)
      (⟨command, answer⟩ :: trace, result)

theorem runStill_run {α : Type} (faults : Bool) (state : State) (p : Program Answer α) :
    Runs p (runStill state p).1 (runStill state p).2.1 ∧
      Path (contract faults) state (runStill state p).1 (runStill state p).2.2 := by
  induction p generalizing state with
  | done value => exact ⟨.done value, .nil rfl⟩
  | ask command next ih =>
      obtain ⟨hruns, hpath⟩ := ih (.ok (state.store.respond command))
        (state.asked state.store command)
      refine ⟨.ask _ hruns, .cons rfl ⟨state.store, .refl _, ?_, rfl⟩ hpath⟩
      exact state.store.respond_answers faults command

end Git
