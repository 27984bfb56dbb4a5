/-!
# Option documents

Documents in a subset of TOML 1.0: tables, texts, truth values and empty lists. Options have no
other values, so a document with a number, a date or a list with items is as good as unreadable. A
key is given once, and a table is opened by a header once.
-/

namespace Interpose.Document

/-- How a table came into a document. -/
inductive TableKind where
  /-- Opened by a header of its own. -/
  | header
  /-- On the way to a table that a header opens. -/
  | implied
  /-- On the way to a value with a dotted key. -/
  | dotted
  /-- Written as a value, and closed. -/
  | inline
deriving DecidableEq, Repr

/-- A value of a document. -/
inductive Entry where
  | text (s : String)
  | truth (b : Bool)
  | emptyList
  | table (kind : TableKind) (entries : List (String × Entry))

/-- The entries of a table. -/
abbrev Entries := List (String × Entry)

namespace Entries

/-- The entry of a key. -/
def get? (es : Entries) (key : String) : Option Entry := (es.find? (·.1 == key)).map (·.2)

/-- Entries with that of a key replaced. -/
def replace (es : Entries) (key : String) (e : Entry) : Entries :=
  es.map fun entry => if entry.1 == key then (key, e) else entry

/-- Adds a value under a dotted key. -/
def insert : List String → Entry → Entries → Option Entries
  | [], _, _ => none
  | [key], e, es =>
    match get? es key with
    | none => some (es ++ [(key, e)])
    | some _ => none
  | key :: rest, e, es =>
    match get? es key with
    | none => (insert rest e []).map fun inner => es ++ [(key, .table .dotted inner)]
    | some (.table .dotted inner) =>
      (insert rest e inner).map fun inner => replace es key (.table .dotted inner)
    | some _ => none

/-- Opens the table of a header. -/
def openTable : List String → Entries → Option Entries
  | [], _ => none
  | [key], es =>
    match get? es key with
    | none => some (es ++ [(key, .table .header [])])
    | some (.table .implied inner) => some (replace es key (.table .header inner))
    | some _ => none
  | key :: rest, es =>
    match get? es key with
    | none => (openTable rest []).map fun inner => es ++ [(key, .table .implied inner)]
    | some (.table .inline _) => none
    | some (.table kind inner) =>
      (openTable rest inner).map fun inner => replace es key (.table kind inner)
    | some _ => none

/-- Adds a value under a dotted key to the table at a path. -/
def insertUnder : List String → List String → Entry → Entries → Option Entries
  | [], keys, e, es => insert keys e es
  | name :: path, keys, e, es =>
    match get? es name with
    | some (.table kind inner) =>
      (insertUnder path keys e inner).map fun inner => replace es name (.table kind inner)
    | _ => none

end Entries

/-- Whether a character is a blank within a line. -/
def isSpace (c : Char) : Bool := c == ' ' || c == '\t'

/-- Whether a character may stand in a comment or, as itself, in a text. -/
def isPlain (c : Char) : Bool := c == '\t' || (0x20 ≤ c.toNat && c.toNat != 0x7f)

/-- Whether a character may stand in a key without quotes. -/
def isBare (c : Char) : Bool := (c.isAlphanum) || c == '_' || c == '-'

/-- What follows the blanks of a line. -/
def skipSpaces (cs : List Char) : List Char := cs.dropWhile isSpace

/-- What follows a line end. -/
def newline? : List Char → Option (List Char)
  | '\n' :: rest => some rest
  | '\r' :: '\n' :: rest => some rest
  | _ => none

/-- What follows a comment, if there is one. -/
def skipComment : List Char → List Char
  | '#' :: rest => rest.dropWhile isPlain
  | cs => cs

/-- What follows the end of a line that holds nothing more. -/
def lineEnd? (cs : List Char) : Option (List Char) :=
  match skipComment (skipSpaces cs) with
  | [] => some []
  | rest => newline? rest

/-- What follows blanks, comments and line ends. -/
def skipLines : Nat → List Char → List Char
  | 0, cs => cs
  | fuel + 1, cs =>
    let rest := skipComment (skipSpaces cs)
    match newline? rest with
    | some rest => skipLines fuel rest
    | none => rest

/-- The value of a digit in base sixteen. -/
def hexDigit? (c : Char) : Option Nat :=
  if '0' ≤ c ∧ c ≤ '9' then some (c.toNat - '0'.toNat)
  else if 'a' ≤ c ∧ c ≤ 'f' then some (c.toNat - 'a'.toNat + 10)
  else if 'A' ≤ c ∧ c ≤ 'F' then some (c.toNat - 'A'.toNat + 10)
  else none

/-- The character with a number of digits in base sixteen, and what follows. -/
def codePoint? (digits : Nat) (cs : List Char) : Option (Char × List Char) := do
  let values ← (cs.take digits).mapM hexDigit?
  let n := values.foldl (fun n d => 16 * n + d) 0
  if values.length = digits ∧ n.isValidChar then some (Char.ofNat n, cs.drop digits) else none

/-- The character of an escape after its backslash, and what follows. -/
def escaped? : List Char → Option (Char × List Char)
  | 'b' :: rest => some ('\x08', rest)
  | 't' :: rest => some ('\t', rest)
  | 'n' :: rest => some ('\n', rest)
  | 'f' :: rest => some ('\x0c', rest)
  | 'r' :: rest => some ('\r', rest)
  | '"' :: rest => some ('"', rest)
  | '\\' :: rest => some ('\\', rest)
  | 'u' :: rest => codePoint? 4 rest
  | 'U' :: rest => codePoint? 8 rest
  | _ => none

/-- The rest of a text between double quotes, and what follows it. -/
def basicText? : Nat → List Char → Option (List Char × List Char)
  | 0, _ => none
  | fuel + 1, cs =>
    match cs with
    | '"' :: rest => some ([], rest)
    | '\\' :: rest => do
      let (c, rest) ← escaped? rest
      let (text, rest) ← basicText? fuel rest
      return (c :: text, rest)
    | c :: rest =>
      if isPlain c then do
        let (text, rest) ← basicText? fuel rest
        return (c :: text, rest)
      else none
    | [] => none

/-- The rest of a text between single quotes, and what follows it. -/
def literalText? : List Char → Option (List Char × List Char)
  | '\'' :: rest => some ([], rest)
  | c :: rest =>
    if isPlain c then do
      let (text, rest) ← literalText? rest
      return (c :: text, rest)
    else none
  | [] => none

/-- The quotes before the three that close a text of several lines: at most two. -/
def closing? (quote : Char) (cs : List Char) : Option (List Char × List Char) :=
  let quotes := (cs.takeWhile (· == quote)).length
  if quotes < 3 then none
  else
    let kept := min (quotes - 3) 2
    some (List.replicate kept quote, cs.drop (kept + 3))

/-- What follows blanks and line ends after a backslash, if a line ends there. -/
def continuation? (fuel : Nat) (cs : List Char) : Option (List Char) := do
  let rest ← newline? (skipSpaces cs)
  return go fuel rest
where
  /-- What follows blanks and line ends. -/
  go : Nat → List Char → List Char
    | 0, cs => cs
    | fuel + 1, cs =>
      match newline? (skipSpaces cs) with
      | some rest => go fuel rest
      | none => skipSpaces cs

/-- The rest of a text of several lines, and what follows it. -/
def longText? (quote : Char) : Nat → List Char → Option (List Char × List Char)
  | 0, _ => none
  | fuel + 1, cs =>
    match closing? quote cs, newline? cs, cs with
    | some closed, _, _ => some closed
    | none, some rest, _ => do
      let (text, rest) ← longText? quote fuel rest
      return ('\n' :: text, rest)
    | none, none, c :: rest =>
      if quote == '"' && c == '\\' then
        match continuation? fuel rest with
        | some rest => longText? quote fuel rest
        | none => do
          let (c, rest) ← escaped? rest
          let (text, rest) ← longText? quote fuel rest
          return (c :: text, rest)
      else if isPlain c then do
        let (text, rest) ← longText? quote fuel rest
        return (c :: text, rest)
      else none
    | none, none, [] => none

/-- A text of several lines without the line end right after its opening quotes. -/
def dropFirstLineEnd (cs : List Char) : List Char := (newline? cs).getD cs

/-- A text, and what follows it. -/
def text? (cs : List Char) : Option (List Char × List Char) :=
  match cs with
  | '"' :: '"' :: '"' :: rest => longText? '"' cs.length (dropFirstLineEnd rest)
  | '"' :: rest => basicText? cs.length rest
  | '\'' :: '\'' :: '\'' :: rest => longText? '\'' cs.length (dropFirstLineEnd rest)
  | '\'' :: rest => literalText? rest
  | _ => none

/-- One part of a key, and what follows it. -/
def keyPart? (cs : List Char) : Option (String × List Char) :=
  match cs with
  | '"' :: rest => do
    let (text, rest) ← basicText? cs.length rest
    return (String.ofList text, rest)
  | '\'' :: rest => do
    let (text, rest) ← literalText? rest
    return (String.ofList text, rest)
  | _ =>
    let bare := cs.takeWhile isBare
    if bare.isEmpty then none else some (String.ofList bare, cs.dropWhile isBare)

/-- A key with parts between dots, and what follows it and the blanks after it. -/
def key? : Nat → List Char → Option (List String × List Char)
  | 0, _ => none
  | fuel + 1, cs => do
    let (part, rest) ← keyPart? (skipSpaces cs)
    match skipSpaces rest with
    | '.' :: rest =>
      let (parts, rest) ← key? fuel rest
      return (part :: parts, rest)
    | rest => return ([part], rest)

mutual

/-- A value, and what follows it. -/
def value? : Nat → List Char → Option (Entry × List Char)
  | 0, _ => none
  | fuel + 1, cs =>
    match cs with
    | 't' :: 'r' :: 'u' :: 'e' :: rest => some (.truth true, rest)
    | 'f' :: 'a' :: 'l' :: 's' :: 'e' :: rest => some (.truth false, rest)
    | '[' :: rest =>
      match skipLines fuel rest with
      | ']' :: rest => some (.emptyList, rest)
      | _ => none
    | '\x7b' :: rest =>
      match skipSpaces rest with
      | '\x7d' :: rest => some (.table .inline [], rest)
      | rest => inlineEntries? fuel [] rest
    | _ => do
      let (text, rest) ← text? cs
      return (.text (String.ofList text), rest)

/-- The entries of an inline table after some of them, and what follows the table. -/
def inlineEntries? : Nat → Entries → List Char → Option (Entry × List Char)
  | 0, _, _ => none
  | fuel + 1, es, cs => do
    let (keys, rest) ← key? cs.length cs
    let .cons '=' rest := rest | none
    let (e, rest) ← value? fuel (skipSpaces rest)
    let es ← es.insert keys e
    match skipSpaces rest with
    | ',' :: rest => inlineEntries? fuel es rest
    | '\x7d' :: rest => some (.table .inline es, rest)
    | _ => none

end

/-- The entries of a document whose lines so far opened the table of a path. -/
def lines? : Nat → List String → Entries → List Char → Option Entries
  | 0, _, _, _ => none
  | fuel + 1, path, es, cs =>
    match skipSpaces cs with
    | [] => some es
    | '[' :: rest => do
      let (keys, rest) ← key? cs.length rest
      let .cons ']' rest := rest | none
      let rest ← lineEnd? rest
      lines? fuel keys (← es.openTable keys) rest
    | '#' :: rest => do lines? fuel path es (← lineEnd? ('#' :: rest))
    | '\n' :: rest => lines? fuel path es rest
    | '\r' :: rest => do lines? fuel path es (← newline? ('\r' :: rest))
    | rest => do
      let (keys, rest) ← key? cs.length rest
      let .cons '=' rest := rest | none
      let (e, rest) ← value? cs.length (skipSpaces rest)
      let rest ← lineEnd? rest
      lines? fuel path (← es.insertUnder path keys e) rest

/-- The entries of a document; a mark of the byte order may come first. -/
def read? (s : String) : Option Entries :=
  let cs := s.toList
  let cs := match cs with
    | '\ufeff' :: rest => rest
    | _ => cs
  lines? (cs.length + 1) [] [] cs

end Interpose.Document
