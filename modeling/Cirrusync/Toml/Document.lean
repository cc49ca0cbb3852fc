import Cirrusync.Text

/-!
A part of TOML 1.0: assignments of integers, booleans, basic strings without
escapes and arrays of such strings, under table headers and array-of-tables
headers, all keys bare. A document of this part has one layout in lines here,
and the table that it stands for.
-/

namespace Cirrusync.TomlDoc

open Text

/-- The values a parser reports; the kinds the part does not write are one. -/
inductive Value where
  | integer (number : Int)
  | boolean (value : Bool)
  | string (text : String)
  | array (items : List Value)
  | table (entries : List (String × Value))
  | other

abbrev Table := List (String × Value)

/-- The right side of an assignment. -/
inductive Literal where
  | integer (number : Nat)
  | boolean (value : Bool)
  | string (text : List Char)
  | strings (items : List (List Char))
  deriving DecidableEq

structure Entry where
  key : String
  literal : Literal
  deriving DecidableEq

inductive Header where
  | table (name : String)
  | element (name : String)
  deriving DecidableEq

def Header.name : Header → String
  | .table name => name
  | .element name => name

structure Block where
  header : Header
  entries : List Entry
  deriving DecidableEq

structure Document where
  entries : List Entry
  blocks : List Block
  deriving DecidableEq

def isBareKeyChar (c : Char) : Bool := isAlphanumeric c || c == '-' || c == '_'

/-- The characters that no basic string may hold, not even as an escape's first. -/
def isControlChar (c : Char) : Bool := c != '\t' && (c.toNat < 0x20 || c.toNat == 0x7f)

/-- A character that stands for itself in a basic string. -/
def isBasicChar (c : Char) : Bool := c != '"' && c != '\\' && !isControlChar c

def quoted (text : List Char) : List Char := '"' :: (text ++ ['"'])

def Literal.text : Literal → List Char
  | .integer number => Nat.toDigits 10 number
  | .boolean true => "true".toList
  | .boolean false => "false".toList
  | .string text => quoted text
  | .strings _ => ['[']

/-- An array stands on lines of its own, one for each item. -/
def Literal.moreLines : Literal → List (List Char)
  | .strings items =>
      items.map (fun item => "    ".toList ++ quoted item ++ [',']) ++ [[']']]
  | _ => []

def Entry.lines (entry : Entry) : List (List Char) :=
  (entry.key.toList ++ " = ".toList ++ entry.literal.text) :: entry.literal.moreLines

def Header.line : Header → List Char
  | .table name => '[' :: (name.toList ++ [']'])
  | .element name => '[' :: '[' :: (name.toList ++ [']', ']'])

def Block.lines (block : Block) : List (List Char) :=
  [] :: block.header.line :: block.entries.flatMap Entry.lines

def Document.lines (doc : Document) : List (List Char) :=
  doc.entries.flatMap Entry.lines ++ doc.blocks.flatMap Block.lines

/-- Lines as a text, each ended by a line feed. -/
def unlines (lines : List (List Char)) : List Char := lines.flatMap (· ++ ['\n'])

def Document.text (doc : Document) : List Char := unlines doc.lines

def Literal.value : Literal → Value
  | .integer number => .integer number
  | .boolean value => .boolean value
  | .string text => .string (.ofList text)
  | .strings items => .array (items.map (fun item => .string (.ofList item)))

def entriesTable (entries : List Entry) : Table :=
  entries.map (fun entry => (entry.key, entry.literal.value))

def Block.asTable (block : Block) : Option (String × Value) :=
  match block.header with
  | .table name => some (name, .table (entriesTable block.entries))
  | .element _ => none

def Block.asElement (name : String) (block : Block) : Option Value :=
  if block.header = .element name then some (.table (entriesTable block.entries))
  else none

def Document.tableNames (doc : Document) : List String :=
  doc.blocks.filterMap (fun block => block.asTable.map Prod.fst)

/-- The names of the arrays of tables, one for each element. -/
def Document.elementNames (doc : Document) : List String :=
  doc.blocks.filterMap fun block =>
    match block.header with
    | .table _ => none
    | .element name => some name

/-- The table of a document. -/
def Document.value (doc : Document) : Table :=
  entriesTable doc.entries ++ doc.blocks.filterMap Block.asTable ++
    doc.elementNames.eraseDups.map
      (fun name => (name, .array (doc.blocks.filterMap (Block.asElement name))))

def BareKey (key : String) : Prop := key.toList ≠ [] ∧ ∀ c ∈ key.toList, isBareKeyChar c = true

instance (key : String) : Decidable (BareKey key) :=
  decidable_of_iff (key.toList ≠ [] ∧ key.toList.all isBareKeyChar = true) (by
    rw [BareKey, List.all_eq_true])

def Literal.WellFormed : Literal → Prop
  | .integer number => number < 2 ^ 63
  | .boolean _ => True
  | .string text => ∀ c ∈ text, isBasicChar c = true
  | .strings items => ∀ item ∈ items, ∀ c ∈ item, isBasicChar c = true

structure EntriesWellFormed (entries : List Entry) : Prop where
  bare : ∀ entry ∈ entries, BareKey entry.key
  literals : ∀ entry ∈ entries, entry.literal.WellFormed
  distinct : (entries.map Entry.key).Nodup

/-- No key is given two values. -/
structure Document.WellFormed (doc : Document) : Prop where
  entries : EntriesWellFormed doc.entries
  names : ∀ block ∈ doc.blocks, BareKey block.header.name
  blocks : ∀ block ∈ doc.blocks, EntriesWellFormed block.entries
  distinct : (doc.entries.map Entry.key ++ doc.tableNames).Nodup
  separate : ∀ name ∈ doc.elementNames, name ∉ doc.entries.map Entry.key ++ doc.tableNames

/-- What TOML 1.0 says of the documents of this part: each has its table, and a
control character other than a tab ends no basic string. -/
structure Implements (loads : List Char → Option Table) : Prop where
  reads : ∀ doc : Document, doc.WellFormed → loads doc.text = some doc.value
  refuses : ∀ (doc : Document) (key : String) (body rest : List Char) (c : Char),
    doc.WellFormed → BareKey key → (∀ c ∈ body, isBasicChar c = true) →
    isControlChar c = true →
    loads (doc.text ++ (key.toList ++ " = \"".toList ++ (body ++ c :: rest))) = none

theorem unlines_append (lines more : List (List Char)) :
    unlines (lines ++ more) = unlines lines ++ unlines more := by
  simp [unlines]

/-- A text is cut at an assignment of a string. -/
theorem text_string (entries : List Entry) (blocks more : List Block) (header : Header)
    (before after : List Entry) (key : String) (text : List Char) :
    Document.text ⟨entries, blocks ++ ⟨header, before ++ ⟨key, .string text⟩ :: after⟩ :: more⟩ =
      Document.text ⟨entries, blocks ++ [⟨header, before⟩]⟩ ++
        (key.toList ++ " = \"".toList ++ (text ++ '"' :: '\n' ::
          unlines (after.flatMap Entry.lines ++ more.flatMap Block.lines))) := by
  simp [Document.text, Document.lines, Block.lines, Entry.lines, Literal.text, Literal.moreLines,
    quoted, unlines_append]
  simp [unlines]

/-- No parser of TOML takes a document with a control character in a string. -/
theorem Implements.refuses_string {loads : List Char → Option Table} (h : Implements loads)
    {entries : List Entry} {blocks more : List Block} {header : Header}
    {before after : List Entry} {key : String} {body rest : List Char} {c : Char}
    (hfront : Document.WellFormed ⟨entries, blocks ++ [⟨header, before⟩]⟩) (hkey : BareKey key)
    (hbody : ∀ c ∈ body, isBasicChar c = true) (hc : isControlChar c = true) :
    loads (Document.text ⟨entries, blocks ++
      ⟨header, before ++ ⟨key, .string (body ++ c :: rest)⟩ :: after⟩ :: more⟩) = none := by
  have hrefused := fun tail => h.refuses _ key body tail c hfront hkey hbody hc
  rw [text_string, List.append_assoc body, List.cons_append]
  exact hrefused _

end Cirrusync.TomlDoc
