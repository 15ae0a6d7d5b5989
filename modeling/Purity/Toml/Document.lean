-- From the text of a document to its tables.
import Purity.Toml.Scalar

namespace Purity.Toml

/-! ## Blanks, comments and ends of lines -/

/-- A blank inside a line. -/
def isBlank (c : Char) : Bool := c = ' ' || c = '\t'

/-- The text after the blanks at its front. -/
def skipBlanks (cs : List Char) : List Char := cs.dropWhile isBlank

/-- Whether a character may stand in comments and quoted texts: no control but the tab. -/
def isPlain (c : Char) : Bool := c = '\t' || (0x20 ≤ c.toNat && c.toNat ≠ 0x7f)

/-- The text after a newline, if it starts with one. -/
def newline? : List Char → Option (List Char)
  | '\n' :: cs => some cs
  | '\r' :: '\n' :: cs => some cs
  | _ => none

/-- The text after a comment, if it starts with one. -/
def skipComment (cs : List Char) : List Char :=
  match cs with
  | '#' :: cs => cs.dropWhile isPlain
  | cs => cs

/-- The text after the end of a line, which may hold a comment. -/
def endLine (cs : List Char) : Option (List Char) :=
  match skipComment (skipBlanks cs) with
  | [] => some []
  | cs => newline? cs

/-- The text after blanks, comments and newlines. -/
def skipLines : Nat → List Char → List Char
  | 0, cs => cs
  | fuel + 1, cs =>
    let cs := skipComment (skipBlanks cs)
    match newline? cs with
    | some cs => skipLines fuel cs
    | none => cs

/-! ## Quoted texts -/

/-- The character of a number, if there is one. -/
def scalar? (n : Nat) : Option Char :=
  if n < 0xD800 || (0xE000 ≤ n && n < 0x110000) then some (Char.ofNat n) else none

/-- The character written by `count` digits in base sixteen. -/
def codePoint (count : Nat) (cs : List Char) : Option (Char × List Char) :=
  let digits := cs.take count
  if digits.length = count && digits.all isHexDigit then
    (scalar? (valueIn 16 digits)).map fun c => (c, cs.drop count)
  else none

/-- The character of an escape, from behind its backslash. -/
def escape (cs : List Char) : Option (Char × List Char) :=
  match cs with
  | 'b' :: cs => some ('\x08', cs)
  | 't' :: cs => some ('\t', cs)
  | 'n' :: cs => some ('\n', cs)
  | 'f' :: cs => some ('\x0c', cs)
  | 'r' :: cs => some ('\r', cs)
  | 'e' :: cs => some ('\x1b', cs)
  | '"' :: cs => some ('"', cs)
  | '\\' :: cs => some ('\\', cs)
  | 'x' :: cs => codePoint 2 cs
  | 'u' :: cs => codePoint 4 cs
  | 'U' :: cs => codePoint 8 cs
  | _ => none

/-- A text in double quotes, from behind the first; `acc` has its characters, last first. -/
def basicText : Nat → List Char → List Char → Option (String × List Char)
  | 0, _, _ => none
  | fuel + 1, acc, cs =>
    match cs with
    | [] => none
    | '"' :: cs => some (String.ofList acc.reverse, cs)
    | '\\' :: cs =>
      match escape cs with
      | some (c, cs) => basicText fuel (c :: acc) cs
      | none => none
    | c :: cs => if isPlain c then basicText fuel (c :: acc) cs else none

/-- A text in single quotes, from behind the first. -/
def literalText (cs : List Char) : Option (String × List Char) :=
  let inside := cs.takeWhile fun c => isPlain c && c ≠ '\x27'
  match cs.dropWhile fun c => isPlain c && c ≠ '\x27' with
  | c :: cs => if c = '\x27' then some (String.ofList inside, cs) else none
  | [] => none

/-- The end of a text in triple quotes. Up to two more quotes belong to the text. -/
def closing (quote : Char) (cs : List Char) : Option (List Char × List Char) :=
  let run := min (cs.takeWhile (· = quote)).length 5
  if 3 ≤ run then some (List.replicate (run - 3) quote, cs.drop run) else none

/-- The text after blanks and newlines. -/
def skipSpace : Nat → List Char → List Char
  | 0, cs => cs
  | fuel + 1, cs =>
    let cs := skipBlanks cs
    match newline? cs with
    | some cs => skipSpace fuel cs
    | none => cs

/-- The text after a backslash at the end of a line: all blanks and newlines up to the next word
are dropped. -/
def joinLines (cs : List Char) : Option (List Char) :=
  (newline? (skipBlanks cs)).map fun cs => skipSpace cs.length cs

/-- A text in triple quotes over several lines, from behind the quotes. -/
def longText (quote : Char) (escapes : Bool) :
    Nat → List Char → List Char → Option (String × List Char)
  | 0, _, _ => none
  | fuel + 1, acc, cs =>
    match closing quote cs with
    | some (more, cs) => some (String.ofList (acc.reverse ++ more), cs)
    | none =>
      match cs with
      | [] => none
      | '\n' :: cs => longText quote escapes fuel ('\n' :: acc) cs
      | '\r' :: '\n' :: cs => longText quote escapes fuel ('\n' :: '\r' :: acc) cs
      | c :: cs =>
        if escapes && c = '\\' then
          match joinLines cs with
          | some cs => longText quote escapes fuel acc cs
          | none =>
            match escape cs with
            | some (c, cs) => longText quote escapes fuel (c :: acc) cs
            | none => none
        else if isPlain c then longText quote escapes fuel (c :: acc) cs
        else none

/-- A newline right behind the opening quotes does not count. -/
def afterOpening (cs : List Char) : List Char := (newline? cs).getD cs

/-- A quoted text on one line, from its first quote. -/
def shortText (cs : List Char) : Option (String × List Char) :=
  match cs with
  | '"' :: cs => basicText (cs.length + 1) [] cs
  | '\x27' :: cs => literalText cs
  | _ => none

/-- A quoted text, from its first quote. -/
def quotedText (cs : List Char) : Option (String × List Char) :=
  match cs with
  | '"' :: '"' :: '"' :: cs => longText '"' true (cs.length + 1) [] (afterOpening cs)
  | '\x27' :: '\x27' :: '\x27' :: cs => longText '\x27' false (cs.length + 1) [] (afterOpening cs)
  | cs => shortText cs

/-! ## Keys -/

/-- A character of a key without quotes. -/
def isKeyChar (c : Char) : Bool := c.isAlphanum || c = '_' || c = '-'

/-- One part of a key. -/
def keyPart (cs : List Char) : Option (String × List Char) :=
  match cs with
  | '"' :: '"' :: '"' :: _ => none
  | '\x27' :: '\x27' :: '\x27' :: _ => none
  | '"' :: _ => shortText cs
  | '\x27' :: _ => shortText cs
  | _ =>
    match cs.takeWhile isKeyChar with
    | [] => none
    | name => some (String.ofList name, cs.dropWhile isKeyChar)

/-- How many parts a key may have, and how deep arrays and tables in braces may stand in each
other. -/
def maxDepth : Nat := 80

/-- The parts of a key with dots between them, at most `left` of them: all but the last after
`path`, and the last. -/
def keyParts : Nat → List String → List Char → Option (List String × String × List Char)
  | 0, _, _ => none
  | left + 1, path, cs => do
    let (name, cs) ← keyPart (skipBlanks cs)
    match skipBlanks cs with
    | '.' :: cs => keyParts left (path ++ [name]) cs
    | cs => some (path, name, cs)

/-- A key: all parts but the last, and the last. -/
def dottedKey (cs : List Char) : Option (List String × String × List Char) := keyParts maxDepth [] cs

/-! ## Values -/

/-- Whether a character ends a value that is neither quoted nor bracketed. -/
def endsBare (c : Char) : Bool :=
  isBlank c || c = '\n' || c = '\r' || c = ',' || c = '=' || c = '[' || c = ']' || c = '{' ||
    c = '}' || c = '#'

/-- Whether a text starts with a word that is neither quoted nor bracketed. -/
def startsBare : List Char → Bool
  | [] => false
  | c :: _ => !endsBare c && c ≠ '"' && c ≠ '\x27'

/-- The text of a value that is neither quoted nor bracketed. All words on the way belong to it,
with the blanks between them, as the time belongs to its day. -/
def bareText : Nat → List Char → List Char × List Char
  | 0, cs => ([], cs)
  | fuel + 1, cs =>
    let word := cs.takeWhile (!endsBare ·)
    let rest := cs.dropWhile (!endsBare ·)
    let next := skipBlanks rest
    if startsBare next then
      let (text, rest') := bareText fuel next
      (word ++ rest.takeWhile isBlank ++ text, rest')
    else (word, rest)

mutual

/-- A value. -/
def scanValue (depth : Nat) : Nat → List Char → Option (Value × List Char)
  | 0, _ => none
  | fuel + 1, cs =>
    match cs with
    | '"' :: _ => (quotedText cs).map fun (s, cs) => (.string s, cs)
    | '\x27' :: _ => (quotedText cs).map fun (s, cs) => (.string s, cs)
    | '[' :: cs =>
      if depth < maxDepth then
        (scanItems (depth + 1) fuel [] cs).map fun (items, cs) => (.array false items, cs)
      else none
    | '{' :: cs =>
      if depth < maxDepth then
        match skipLines cs.length cs with
        | '}' :: cs => some (.table .inline [], cs)
        | cs => (scanEntries (depth + 1) fuel (.new .inline) cs).map fun (t, cs) => (t.value, cs)
      else none
    | cs =>
      let (text, cs) := bareText (cs.length + 1) cs
      (bare text).map fun v => (v, cs)

/-- The items of an array up to its end; `acc` has those before, last first. -/
def scanItems (depth : Nat) : Nat → List Value → List Char → Option (List Value × List Char)
  | 0, _, _ => none
  | fuel + 1, acc, cs =>
    match skipLines cs.length cs with
    | ']' :: cs => some (acc.reverse, cs)
    | cs => do
      let (v, cs) ← scanValue depth fuel cs
      match skipLines cs.length cs with
      | ',' :: cs => scanItems depth fuel (v :: acc) cs
      | ']' :: cs => some ((v :: acc).reverse, cs)
      | _ => none

/-- The entries of a table in braces up to its end, from where a key should stand. Lines may end
between any two parts of an entry. -/
def scanEntries (depth : Nat) : Nat → Table → List Char → Option (Table × List Char)
  | 0, _, _ => none
  | fuel + 1, t, cs => do
    let (path, key, cs) ← dottedKey cs
    match skipLines cs.length cs with
    | '=' :: cs =>
      let (v, cs) ← scanValue depth fuel (skipLines cs.length cs)
      let t ← t.addEntry path key v
      match skipLines cs.length cs with
      | '}' :: cs => some (t, cs)
      | ',' :: cs =>
        match skipLines cs.length cs with
        | '}' :: cs => some (t, cs)
        | cs => scanEntries depth fuel t cs
      | _ => none
    | _ => none

end

/-! ## Documents -/

/-- A header, from behind its first bracket. -/
def scanHeader (d : Draft) (cs : List Char) : Option (Draft × List Char) :=
  match cs with
  | '[' :: cs => do
    let (path, key, cs) ← dottedKey cs
    match cs with
    | ']' :: ']' :: cs => some (← d.openTable path key true, ← endLine cs)
    | _ => none
  | cs => do
    let (path, key, cs) ← dottedKey cs
    match cs with
    | ']' :: cs => some (← d.openTable path key false, ← endLine cs)
    | _ => none

/-- The lines of a document. -/
def scanDocument : Nat → Draft → List Char → Option Table
  | 0, _, _ => none
  | fuel + 1, d, cs =>
    match skipLines cs.length cs with
    | [] => d.close
    | '[' :: cs => do
      let (d, cs) ← scanHeader d cs
      scanDocument fuel d cs
    | cs => do
      let (path, key, cs) ← dottedKey cs
      match cs with
      | '=' :: cs =>
        let cs := skipBlanks cs
        let (v, cs) ← scanValue 0 (2 * cs.length + 2) cs
        let d ← d.addEntry path key v
        scanDocument fuel d (← endLine cs)
      | _ => none

/-- Reads a document. A byte order mark at its front does not count. -/
def parse (text : String) : Option Table :=
  let cs := match text.toList with
    | '\ufeff' :: cs => cs
    | cs => cs
  scanDocument (cs.length + 1) .empty cs

end Purity.Toml
