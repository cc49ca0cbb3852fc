import Cirrusync.Numerals
import Cirrusync.Pieces
import Cirrusync.Toml.Document

/-!
A reader of the documents of the part in their one layout, from the last line
to the first, and that it follows the rules of the part.
-/

namespace Cirrusync.TomlDoc

open Numerals Text

/-- What the lines below the current one hold: the items of an array whose end
was seen, the entries before the next header and the blocks from there on. -/
structure Below where
  items : Option (List (List Char))
  entries : List Entry
  blocks : List Block

/-- A basic string and what follows it. -/
def readString : List Char → Option (List Char × List Char)
  | '"' :: text =>
      match text.dropWhile isBasicChar with
      | '"' :: rest => some (text.takeWhile isBasicChar, rest)
      | _ => none
  | _ => none

def readInteger (text : List Char) : Option Nat :=
  let number := Nat.ofDigitChars 10 text 0
  if text = Nat.toDigits 10 number ∧ number < 2 ^ 63 then some number else none

/-- A literal on one line. -/
def readLiteral (text : List Char) : Option Literal :=
  if text = "true".toList then some (.boolean true)
  else if text = "false".toList then some (.boolean false)
  else if text.head? = some '"' then
    match readString text with
    | some (body, []) => some (.string body)
    | _ => none
  else (readInteger text).map .integer

/-- A bare key that is not empty and what follows it. -/
def readKey (line : List Char) : Option (String × List Char) :=
  let key := line.takeWhile isBareKeyChar
  if key.isEmpty then none else some (.ofList key, line.dropWhile isBareKeyChar)

def readHeader (line : List Char) : Option Header :=
  match line with
  | '[' :: '[' :: rest =>
      match readKey rest with
      | some (name, [']', ']']) => some (.element name)
      | _ => none
  | '[' :: rest =>
      match readKey rest with
      | some (name, [']']) => some (.table name)
      | _ => none
  | _ => none

def readItem (line : List Char) : Option (List Char) :=
  match (stripPrefix "    ".toList line).bind readString with
  | some (item, [',']) => some item
  | _ => none

/-- A line on top of those below it. -/
def Below.push (line : List Char) (below : Below) : Option Below :=
  match below.items with
  | some items =>
      match readKey line with
      | some (key, rest) =>
          if rest = " = [".toList then
            some ⟨none, ⟨key, .strings items⟩ :: below.entries, below.blocks⟩
          else none
      | none => (readItem line).map (fun item => { below with items := some (item :: items) })
  | none =>
      if line = [] then some below
      else if line = [']'] then some { below with items := some [] }
      else if line.head? = some '[' then
        (readHeader line).map (fun header =>
          ⟨none, [], ⟨header, below.entries⟩ :: below.blocks⟩)
      else
        match readKey line with
        | some (key, rest) =>
            ((stripPrefix " = ".toList rest).bind readLiteral).map (fun literal =>
              { below with entries := ⟨key, literal⟩ :: below.entries })
        | none => none

def readLines : List (List Char) → Option Below
  | [] => some ⟨none, [], []⟩
  | line :: lines => (readLines lines).bind (Below.push line)

/-- The document of a text of whole lines. -/
def readDocument (text : List Char) : Option Document :=
  match readLines (splitChars '\n' text) with
  | some ⟨none, entries, blocks⟩ => some ⟨entries, blocks⟩
  | _ => none

/-- The table of a text. -/
def readTable (text : List Char) : Option Table := (readDocument text).map Document.value

theorem readString_quoted {text : List Char} (h : ∀ c ∈ text, isBasicChar c = true)
    (rest : List Char) : readString (quoted text ++ rest) = some (text, rest) := by
  have hquote : ∀ c ∈ ('"' :: rest).head?, isBasicChar c = false := by
    intro c hc
    cases hc
    decide
  obtain ⟨htake, hdrop⟩ := takeWhile_append_class h hquote
  have happend : quoted text ++ rest = '"' :: (text ++ '"' :: rest) := by simp [quoted]
  rw [happend]
  simp only [readString, hdrop, htake]

theorem readKey_append {key : String} (h : BareKey key) {rest : List Char}
    (hrest : ∀ c ∈ rest.head?, isBareKeyChar c = false) :
    readKey (key.toList ++ rest) = some (key, rest) := by
  obtain ⟨htake, hdrop⟩ := takeWhile_append_class h.2 hrest
  simp [readKey, htake, hdrop, h.1]

theorem readInteger_toDigits {number : Nat} (h : number < 2 ^ 63) :
    readInteger (Nat.toDigits 10 number) = some number := by
  have hvalue : Nat.ofDigitChars 10 (Nat.toDigits 10 number) 0 = number :=
    Nat.ofDigitChars_ten_toDigits
  simp only [readInteger, hvalue]
  rw [if_pos ⟨trivial, h⟩]

theorem readLiteral_quoted {text : List Char} (h : ∀ c ∈ text, isBasicChar c = true) :
    readLiteral (quoted text) = some (.string text) := by
  have hquoted := readString_quoted h []
  rw [List.append_nil] at hquoted
  have htrue : quoted text ≠ "true".toList := by simp [quoted]
  have hfalse : quoted text ≠ "false".toList := by simp [quoted]
  have hhead : (quoted text).head? = some '"' := rfl
  unfold readLiteral
  rw [if_neg htrue, if_neg hfalse, if_pos hhead, hquoted]

theorem readLiteral_toDigits {number : Nat} (h : number < 2 ^ 63) :
    readLiteral (Nat.toDigits 10 number) = some (.integer number) := by
  -- no digit starts another literal
  have hhead : ∀ c, (Nat.toDigits 10 number).head? = some c → c.isDigit = true := by
    intro c hc
    exact Nat.isDigit_of_mem_toDigits (by decide) (by decide) (List.mem_of_head? hc)
  have htrue : Nat.toDigits 10 number ≠ "true".toList := by
    intro heq
    exact absurd (hhead 't' (by rw [heq]; rfl)) (by decide)
  have hfalse : Nat.toDigits 10 number ≠ "false".toList := by
    intro heq
    exact absurd (hhead 'f' (by rw [heq]; rfl)) (by decide)
  have hquote : (Nat.toDigits 10 number).head? ≠ some '"' := by
    intro heq
    exact absurd (hhead '"' heq) (by decide)
  unfold readLiteral
  rw [if_neg htrue, if_neg hfalse, if_neg hquote, readInteger_toDigits h]
  rfl

theorem readLiteral_text {literal : Literal} (h : literal.WellFormed)
    (hline : literal.moreLines = []) : readLiteral literal.text = some literal := by
  cases literal with
  | integer number => exact readLiteral_toDigits h
  | boolean value => cases value <;> decide
  | string text => exact readLiteral_quoted h
  | strings items => simp [Literal.moreLines] at hline

theorem bareKey_head {key : String} (h : BareKey key) {rest : List Char} {c : Char}
    (hc : (key.toList ++ rest).head? = some c) : isBareKeyChar c = true := by
  obtain ⟨start, others, hkey⟩ := List.exists_cons_of_ne_nil h.1
  rw [hkey] at hc
  cases hc
  exact h.2 c (hkey ▸ List.mem_cons_self)

/-- A line that starts with a key is no header, no blank and no end of an array. -/
theorem push_assignment {key : String} (h : BareKey key) (rest : List Char) (entries : List Entry)
    (blocks : List Block) :
    Below.push (key.toList ++ (" = ".toList ++ rest)) ⟨none, entries, blocks⟩ =
      (readLiteral rest).map (fun literal => ⟨none, ⟨key, literal⟩ :: entries, blocks⟩) := by
  have hhead := @bareKey_head key h (" = ".toList ++ rest)
  have hnil : key.toList ++ (" = ".toList ++ rest) ≠ [] := by simp
  have hclose : key.toList ++ (" = ".toList ++ rest) ≠ [']'] := by
    intro heq
    exact absurd (hhead (by rw [heq]; rfl)) (by decide)
  have hopen : (key.toList ++ (" = ".toList ++ rest)).head? ≠ some '[' := by
    intro heq
    exact absurd (hhead heq) (by decide)
  have hkey : readKey (key.toList ++ (" = ".toList ++ rest)) =
      some (key, " = ".toList ++ rest) := by
    refine readKey_append h ?_
    intro c hc
    cases hc
    decide
  unfold Below.push
  simp only [hnil, hclose, hopen, hkey, if_false, stripPrefix_append, Option.bind_some]

theorem readItem_line {item : List Char} (h : ∀ c ∈ item, isBasicChar c = true) :
    readItem ("    ".toList ++ quoted item ++ [',']) = some item := by
  unfold readItem
  rw [List.append_assoc, stripPrefix_append, Option.bind_some, readString_quoted h]
  rfl

theorem push_item {item : List Char} (h : ∀ c ∈ item, isBasicChar c = true)
    (items : List (List Char)) (entries : List Entry) (blocks : List Block) :
    Below.push ("    ".toList ++ quoted item ++ [',']) ⟨some items, entries, blocks⟩ =
      some ⟨some (item :: items), entries, blocks⟩ := by
  have hkey : readKey ("    ".toList ++ quoted item ++ [',']) = none := rfl
  simp only [Below.push, hkey, readItem_line h, Option.map_some]

/-- The items of an array are read from the last to the first. -/
theorem readLines_items {items : List (List Char)} {lines : List (List Char)}
    {entries : List Entry} {blocks : List Block}
    (hitems : ∀ item ∈ items, ∀ c ∈ item, isBasicChar c = true)
    (hlines : readLines lines = some ⟨none, entries, blocks⟩) :
    readLines (items.map (fun item => "    ".toList ++ quoted item ++ [',']) ++ [']'] :: lines) =
      some ⟨some items, entries, blocks⟩ := by
  induction items with
  | nil =>
      simp only [List.map_nil, List.nil_append, readLines, hlines, Option.bind_some]
      rfl
  | cons item items ih =>
      have hrest := ih (fun other member => hitems other (List.mem_cons_of_mem _ member))
      rw [List.map_cons, List.cons_append, readLines, hrest, Option.bind_some]
      exact push_item (hitems item List.mem_cons_self) items entries blocks

theorem readLines_entry {entry : Entry} (hkey : BareKey entry.key)
    (hliteral : entry.literal.WellFormed) {lines : List (List Char)} {entries : List Entry}
    {blocks : List Block} (hlines : readLines lines = some ⟨none, entries, blocks⟩) :
    readLines (entry.lines ++ lines) = some ⟨none, entry :: entries, blocks⟩ := by
  obtain ⟨key, literal⟩ := entry
  cases hmore : literal.moreLines with
  | nil =>
      have hread := readLiteral_text hliteral hmore
      simp only [Entry.lines, hmore, List.cons_append, List.nil_append, readLines, hlines,
        Option.bind_some, List.append_assoc]
      rw [push_assignment hkey, hread]
      rfl
  | cons line more =>
      cases literal with
      | strings items =>
          have hitems := readLines_items hliteral hlines
          have hfirst : readKey (key.toList ++ (" = ".toList ++ ['['])) =
              some (key, " = [".toList) := by
            refine readKey_append hkey ?_
            intro c hc
            cases hc
            decide
          simp only [Entry.lines, Literal.moreLines, Literal.text, List.cons_append,
            List.append_assoc, List.nil_append, readLines] at hitems ⊢
          rw [hitems, Option.bind_some]
          simp only [Below.push, hfirst, if_true]
      | integer number => cases hmore
      | boolean value => cases hmore
      | string text => cases hmore

theorem readLines_entries {added : List Entry} (hadded : EntriesWellFormed added)
    {lines : List (List Char)} {blocks : List Block} :
    readLines lines = some ⟨none, [], blocks⟩ →
      readLines (added.flatMap Entry.lines ++ lines) = some ⟨none, added, blocks⟩ := by
  intro hlines
  have hall : ∀ entry ∈ added, BareKey entry.key ∧ entry.literal.WellFormed :=
    fun entry member => ⟨hadded.bare entry member, hadded.literals entry member⟩
  clear hadded
  induction added with
  | nil => exact hlines
  | cons entry added ih =>
      have hrest := ih (fun other member => hall other (List.mem_cons_of_mem _ member))
      obtain ⟨hkey, hliteral⟩ := hall entry List.mem_cons_self
      rw [List.flatMap_cons, List.append_assoc]
      exact readLines_entry hkey hliteral hrest

/-- The line of a header is read as the header. -/
theorem readHeader_line {header : Header} (h : BareKey header.name) :
    readHeader header.line = some header := by
  cases header with
  | table name =>
      have hname : BareKey name := h
      have hkey : readKey (name.toList ++ [']']) = some (name, [']']) := by
        refine readKey_append h ?_
        intro c hc
        cases hc
        decide
      have hstart : ∀ rest, name.toList ++ [']'] ≠ '[' :: rest := by
        intro rest heq
        exact absurd (bareKey_head hname (by rw [heq]; rfl)) (by decide)
      unfold readHeader
      split
      · rename_i rest heq
        have hrest : name.toList ++ [']'] = '[' :: rest := List.tail_eq_of_cons_eq heq
        exact absurd hrest (hstart rest)
      · rename_i rest _ heq
        have hrest : name.toList ++ [']'] = rest := List.tail_eq_of_cons_eq heq
        rw [← hrest, hkey]
        rfl
      · rename_i _ hother
        exact absurd rfl (hother _)
  | element name =>
      have hkey : readKey (name.toList ++ [']', ']']) = some (name, [']', ']']) := by
        refine readKey_append h ?_
        intro c hc
        cases hc
        decide
      simp only [readHeader, Header.line, hkey]

theorem readLines_block {block : Block} (hname : BareKey block.header.name)
    (hentries : EntriesWellFormed block.entries) {lines : List (List Char)}
    {blocks : List Block} (hlines : readLines lines = some ⟨none, [], blocks⟩) :
    readLines (block.lines ++ lines) = some ⟨none, [], block :: blocks⟩ := by
  have hread := readLines_entries hentries hlines
  have hpush : Below.push block.header.line ⟨none, block.entries, blocks⟩ =
      some ⟨none, [], block :: blocks⟩ := by
    have hheader := readHeader_line hname
    have hnil : block.header.line ≠ [] := by cases block.header <;> simp [Header.line]
    have hclose : block.header.line ≠ [']'] := by cases block.header <;> simp [Header.line]
    have hopen : block.header.line.head? = some '[' := by cases block.header <;> rfl
    simp only [Below.push, hnil, hclose, hopen, if_false, if_true, hheader, Option.map_some]
  simp only [Block.lines, List.cons_append, readLines, hread, Option.bind_some, hpush]
  rfl

theorem readLines_document {doc : Document} (h : doc.WellFormed) :
    readLines (doc.lines ++ [[]]) = some ⟨none, doc.entries, doc.blocks⟩ := by
  have hblocks : ∀ blocks : List Block,
      (∀ block ∈ blocks, BareKey block.header.name ∧ EntriesWellFormed block.entries) →
      readLines (blocks.flatMap Block.lines ++ [[]]) = some ⟨none, [], blocks⟩ := by
    intro blocks hall
    induction blocks with
    | nil => rfl
    | cons block blocks ih =>
        have hrest := ih (fun other member => hall other (List.mem_cons_of_mem _ member))
        obtain ⟨hname, hentries⟩ := hall block List.mem_cons_self
        rw [List.flatMap_cons, List.append_assoc]
        exact readLines_block hname hentries hrest
  have hrest := hblocks doc.blocks
    (fun block member => ⟨h.names block member, h.blocks block member⟩)
  rw [Document.lines, List.append_assoc]
  exact readLines_entries h.entries hrest

theorem splitChars_unlines {lines : List (List Char)} (h : ∀ line ∈ lines, '\n' ∉ line)
    (rest : List Char) :
    splitChars '\n' (unlines lines ++ rest) = lines ++ splitChars '\n' rest := by
  induction lines with
  | nil => rfl
  | cons line lines ih =>
      have htail := ih (fun other member => h other (List.mem_cons_of_mem _ member))
      have hline := splitChars_of_not_mem (h line List.mem_cons_self)
      have htext : unlines (line :: lines) ++ rest = line ++ '\n' :: (unlines lines ++ rest) := by
        simp [unlines]
      rw [htext, splitChars_append, hline, htail]
      rfl

theorem lineFeed_not_mem_key {key : String} (h : BareKey key) : '\n' ∉ key.toList := by
  intro member
  exact absurd (h.2 _ member) (by decide)

theorem lineFeed_not_mem_basic {text : List Char} (h : ∀ c ∈ text, isBasicChar c = true) :
    '\n' ∉ text := by
  intro member
  exact absurd (h _ member) (by decide)

theorem entry_lines_single {entry : Entry} (hkey : BareKey entry.key)
    (hliteral : entry.literal.WellFormed) : ∀ line ∈ entry.lines, '\n' ∉ line := by
  obtain ⟨key, literal⟩ := entry
  have hfirst := lineFeed_not_mem_key hkey
  intro line member
  rcases List.mem_cons.mp member with rfl | member
  · cases literal with
    | integer number =>
        have hdigits : '\n' ∉ Nat.toDigits 10 number :=
          notMem_toDigits (by decide) (by decide) number
        simp [Literal.text, hdigits, hfirst]
    | boolean value => cases value <;> simp [Literal.text, hfirst]
    | string text =>
        have htext := lineFeed_not_mem_basic hliteral
        simp [Literal.text, quoted, htext, hfirst]
    | strings items => simp [Literal.text, hfirst]
  · cases literal with
    | strings items =>
        rcases List.mem_append.mp member with member | member
        · obtain ⟨item, hitem, rfl⟩ := List.mem_map.mp member
          have htext := lineFeed_not_mem_basic (hliteral item hitem)
          simp [quoted, htext]
        · simp only [List.mem_singleton] at member
          simp [member]
    | integer number => cases member
    | boolean value => cases member
    | string text => cases member

theorem entries_lines_single {entries : List Entry} (h : EntriesWellFormed entries) :
    ∀ line ∈ entries.flatMap Entry.lines, '\n' ∉ line := by
  intro line member
  obtain ⟨entry, hentry, hline⟩ := List.mem_flatMap.mp member
  exact entry_lines_single (h.bare entry hentry) (h.literals entry hentry) line hline

theorem document_lines_single {doc : Document} (h : doc.WellFormed) :
    ∀ line ∈ doc.lines, '\n' ∉ line := by
  intro line member
  rcases List.mem_append.mp member with member | member
  · exact entries_lines_single h.entries line member
  · obtain ⟨block, hblock, member⟩ := List.mem_flatMap.mp member
    have hname := lineFeed_not_mem_key (h.names block hblock)
    rcases List.mem_cons.mp member with rfl | member
    · simp
    rcases List.mem_cons.mp member with rfl | member
    · cases hheader : block.header <;> simp_all [Header.line, Header.name]
    · exact entries_lines_single (h.blocks block hblock) line member

/-- What a document renders to reads back as the document. -/
theorem readDocument_text {doc : Document} (h : doc.WellFormed) :
    readDocument doc.text = some doc := by
  have hsplit := splitChars_unlines (document_lines_single h) []
  rw [List.append_nil] at hsplit
  unfold readDocument Document.text
  rw [hsplit]
  simp only [splitChars, readLines_document h]

theorem readLines_eq_none {line : List Char} (h : ∀ below, Below.push line below = none)
    (front more : List (List Char)) : readLines (front ++ line :: more) = none := by
  induction front with
  | nil =>
      rw [List.nil_append, readLines]
      cases readLines more with
      | none => rfl
      | some below => exact h below
  | cons first front ih => rw [List.cons_append, readLines, ih, Option.bind_none]

/-- A string that meets its line's end or a control character is no literal. -/
theorem readLiteral_unclosed {body more : List Char} (hbody : ∀ c ∈ body, isBasicChar c = true)
    (hmore : ∀ c ∈ more.head?, isControlChar c = true) :
    readLiteral ('"' :: (body ++ more)) = none := by
  have hstop : ∀ c ∈ more.head?, isBasicChar c = false := by
    intro c hc
    simp [isBasicChar, hmore c hc]
  obtain ⟨-, hdrop⟩ := takeWhile_append_class hbody hstop
  have hread : readString ('"' :: (body ++ more)) = none := by
    simp only [readString, hdrop]
    split
    · exact absurd (hmore '"' rfl) (by decide)
    · rfl
  have htrue : '"' :: (body ++ more) ≠ "true".toList := by simp
  have hfalse : '"' :: (body ++ more) ≠ "false".toList := by simp
  have hhead : ('"' :: (body ++ more)).head? = some '"' := rfl
  unfold readLiteral
  rw [if_neg htrue, if_neg hfalse, if_pos hhead, hread]

theorem push_unclosed {key : String} (hkey : BareKey key) {body more : List Char}
    (hbody : ∀ c ∈ body, isBasicChar c = true)
    (hmore : ∀ c ∈ more.head?, isControlChar c = true) (below : Below) :
    Below.push (key.toList ++ (" = ".toList ++ '"' :: (body ++ more))) below = none := by
  obtain ⟨items, entries, blocks⟩ := below
  cases items with
  | none => rw [push_assignment hkey, readLiteral_unclosed hbody hmore, Option.map_none]
  | some items =>
      have hread : readKey (key.toList ++ (" = ".toList ++ '"' :: (body ++ more))) =
          some (key, " = ".toList ++ '"' :: (body ++ more)) := by
        refine readKey_append hkey ?_
        intro c hc
        cases hc
        decide
      have hrest : " = ".toList ++ '"' :: (body ++ more) ≠ " = [".toList := by simp
      simp only [Below.push, hread, hrest, if_false]

/-- A document that goes on with a string which a control character breaks off is refused as a
whole. -/
theorem readDocument_unclosed {doc : Document} (h : doc.WellFormed) {key : String}
    (hkey : BareKey key) {body rest : List Char} {c : Char}
    (hbody : ∀ c ∈ body, isBasicChar c = true) (hc : isControlChar c = true) :
    readDocument (doc.text ++ (key.toList ++ " = \"".toList ++ (body ++ c :: rest))) = none := by
  have hstart : '\n' ∉ key.toList ++ (" = ".toList ++ '"' :: body) := by
    have hfirst := lineFeed_not_mem_key hkey
    have hlast := lineFeed_not_mem_basic hbody
    simp [hfirst, hlast]
  have htail : key.toList ++ " = \"".toList ++ (body ++ c :: rest) =
      (key.toList ++ (" = ".toList ++ '"' :: body)) ++ c :: rest := by simp
  -- the first line of what follows the document
  have hfirst : ∃ more pieces, splitChars '\n' (c :: rest) = more :: pieces ∧
      ∀ c ∈ more.head?, isControlChar c = true := by
    by_cases hlf : c = '\n'
    · subst hlf
      refine ⟨[], splitChars '\n' rest, splitChars_separator _ _, ?_⟩
      intro c hc
      cases hc
    · obtain ⟨piece, pieces, hpieces⟩ :=
        List.exists_cons_of_ne_nil (splitChars_ne_nil '\n' rest)
      refine ⟨c :: piece, pieces, splitChars_cons hlf hpieces, ?_⟩
      intro c' hc'
      cases hc'
      exact hc
  obtain ⟨more, pieces, hpieces, hmore⟩ := hfirst
  have hline : key.toList ++ (" = ".toList ++ '"' :: body) ++ more =
      key.toList ++ (" = ".toList ++ '"' :: (body ++ more)) := by simp
  have hnone := readLines_eq_none (push_unclosed hkey hbody hmore) doc.lines pieces
  unfold readDocument Document.text
  rw [htail, splitChars_unlines (document_lines_single h),
    splitChars_append_of_not_mem hstart hpieces, hline, hnone]

/-- The reader is one parser that follows the rules. -/
theorem readTable_implements : Implements readTable where
  reads doc h := by rw [readTable, readDocument_text h, Option.map_some]
  refuses doc key body rest c h hkey hbody hc := by
    rw [readTable, readDocument_unclosed h hkey hbody hc, Option.map_none]

end Cirrusync.TomlDoc
