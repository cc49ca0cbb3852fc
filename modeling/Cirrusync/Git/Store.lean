import Mathlib.Data.List.Basic

/-!
A store of commits and files under names that are computed from them, so that they never
change once they are there, and of refs to commits, which move.
-/

namespace Git

/-- A word of a line, without white space or control characters of ASCII. -/
structure Word where
  bytes : List UInt8
  nonempty : bytes ≠ []
  plain : ∀ byte ∈ bytes, 32 < byte.toNat

def ascii (text : List Char) : List UInt8 := text.map fun c => UInt8.ofNat c.toNat

def isHex (c : Char) : Bool := c.isDigit || ('a' ≤ c && c ≤ 'f')

/-- The name of an object: its digest in hexadecimal digits. -/
structure ObjectId where
  text : List Char
  least : 40 ≤ text.length
  most : text.length ≤ 64
  hex : ∀ c ∈ text, isHex c = true
  deriving DecidableEq

namespace ObjectId

def ofText (text : List Char) : Option ObjectId :=
  if h : 40 ≤ text.length ∧ text.length ≤ 64 ∧ text.all isHex = true then
    some ⟨text, h.1, h.2.1, List.all_eq_true.mp h.2.2⟩
  else none

theorem ext {id id' : ObjectId} (h : id.text = id'.text) : id = id' := by
  cases id
  cases id'
  cases h
  rfl

theorem ofText_text (id : ObjectId) : ofText id.text = some id :=
  dif_pos ⟨id.least, id.most, List.all_eq_true.mpr id.hex⟩

end ObjectId

/-- What a commit has under a path. -/
structure Entry where
  mode : Word
  kind : Word
  object : ObjectId

def blobKind : List UInt8 := ascii "blob".toList

structure Store where
  /-- What a revision stands for; with a path in it one can name something else than a commit. -/
  refs : List Char → Option ObjectId
  trees : ObjectId → Option (List Char → Option Entry)
  blobs : ObjectId → Option (List UInt8)
  /-- A commit that is there is there with its files. -/
  complete : ∀ commit tree path entry, trees commit = some tree → tree path = some entry →
    entry.kind.bytes = blobKind → (blobs entry.object).isSome = true

namespace Store

/-- Objects come and stay; refs go anywhere. -/
structure Extends (s s' : Store) : Prop where
  trees : ∀ commit tree, s.trees commit = some tree → s'.trees commit = some tree
  blobs : ∀ object data, s.blobs object = some data → s'.blobs object = some data

variable {s s' s'' : Store} {commit : ObjectId} {path : List Char} {entry entry' : Entry}
  {data data' : List UInt8}

theorem Extends.refl (s : Store) : s.Extends s := ⟨fun _ _ h => h, fun _ _ h => h⟩

theorem Extends.trans (h : s.Extends s') (h' : s'.Extends s'') : s.Extends s'' where
  trees := fun commit tree hcommit => h'.trees commit tree (h.trees commit tree hcommit)
  blobs := fun object data hobject => h'.blobs object data (h.blobs object data hobject)

/-- A file of a commit: how it is entered and what is in it. -/
structure HasFile (s : Store) (commit : ObjectId) (path : List Char) (entry : Entry)
    (data : List UInt8) : Prop where
  entered : ∃ tree, s.trees commit = some tree ∧ tree path = some entry
  stored : s.blobs entry.object = some data

theorem HasFile.extends (h : s.HasFile commit path entry data) (hextends : s.Extends s') :
    s'.HasFile commit path entry data := by
  obtain ⟨⟨tree, htree, hentry⟩, hdata⟩ := h
  exact ⟨⟨tree, hextends.trees commit tree htree, hentry⟩, hextends.blobs _ _ hdata⟩

/-- What is entered in a commit that was there stays what is entered. -/
theorem HasFile.entry_eq {tree : List Char → Option Entry} (h : s'.HasFile commit path entry data)
    (htree : s.trees commit = some tree) (hextends : s.Extends s') : tree path = some entry := by
  obtain ⟨tree', htree', hentry⟩ := h.entered
  obtain rfl := Option.some.inj ((hextends.trees commit tree htree).symm.trans htree')
  exact hentry

/-- A commit has one file under a path, whenever it is looked up. -/
theorem HasFile.unique (h : s.HasFile commit path entry data)
    (h' : s'.HasFile commit path entry' data') (hextends : s.Extends s') :
    entry = entry' ∧ data = data' := by
  obtain ⟨tree, htree, hentry⟩ := h.entered
  obtain rfl := Option.some.inj (hentry.symm.trans (h'.entry_eq htree hextends))
  exact ⟨rfl, Option.some.inj ((hextends.blobs _ _ h.stored).symm.trans h'.stored)⟩

theorem exists_hasFile {tree : List Char → Option Entry} (htree : s.trees commit = some tree)
    (hentry : tree path = some entry) (hkind : entry.kind.bytes = blobKind) :
    ∃ data, s.HasFile commit path entry data := by
  obtain ⟨data, hdata⟩ := Option.isSome_iff_exists.mp (s.complete _ _ _ _ htree hentry hkind)
  exact ⟨data, ⟨tree, htree, hentry⟩, hdata⟩

end Store

end Git
