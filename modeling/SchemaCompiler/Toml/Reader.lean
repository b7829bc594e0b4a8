import SchemaCompiler.Toml
import SchemaCompiler.Toml.Scalar

/-!
Reading TOML text: one statement a line, comments and blank lines aside. A reader step takes the
characters that are left and gives what it read with the rest, or nothing if the text is
malformed. Arrays and tables in braces nest at most 79 deep, and a dotted key has at most 79
parts.
-/
namespace SchemaCompiler.Toml.Reader

def skipBlanks (cs : List Char) : List Char := cs.dropWhile fun c => c == ' ' || c == '\t'

/-- Control characters other than the tab stand nowhere in a document except in line ends. -/
def isPlain (c : Char) : Bool := c == '\t' || (' ' ≤ c && c ≠ Char.ofNat 127)

/-- What follows a line end. -/
def lineEnd? : List Char → Option (List Char)
  | '\n' :: rest => some rest
  | '\r' :: '\n' :: rest => some rest
  | _ => none

/-- Skips a comment, if there is one. -/
def skipComment : List Char → List Char
  | '#' :: rest => rest.dropWhile isPlain
  | cs => cs

/-- Skips blanks, comments and line ends. -/
def skipLines : Nat → List Char → List Char
  | 0, cs => cs
  | fuel + 1, cs =>
    let rest := skipComment (skipBlanks cs)
    match lineEnd? rest with
    | some rest => skipLines fuel rest
    | none => rest

/-! ## Strings -/

/-- The character with a number of so many hexadecimal digits. -/
def numbered? (count : Nat) (cs : List Char) : Option (Char × List Char) :=
  let digits := cs.take count
  let code := digitsValue 16 digits
  if digits.length == count && digits.all isHexDigit && code.isValidChar then
    some (Char.ofNat code, cs.drop count)
  else none

/-- What follows a backslash. -/
def escape? : List Char → Option (Char × List Char)
  | 'b' :: rest => some (Char.ofNat 8, rest)
  | 't' :: rest => some ('\t', rest)
  | 'n' :: rest => some ('\n', rest)
  | 'f' :: rest => some (Char.ofNat 12, rest)
  | 'r' :: rest => some ('\r', rest)
  | '"' :: rest => some ('"', rest)
  | '\\' :: rest => some ('\\', rest)
  | 'u' :: rest => numbered? 4 rest
  | 'U' :: rest => numbered? 8 rest
  | _ => none

/-- A string on one line up to its closing quote; escapes count only between double quotes. -/
def line? (quote : Char) : Nat → List Char → Option (List Char × List Char)
  | 0, _ => none
  | _, [] => none
  | fuel + 1, c :: rest =>
    if c = quote then some ([], rest)
    else if c = '\\' ∧ quote = '"' then do
      let (c, rest) ← escape? rest
      let (cs, rest) ← line? quote fuel rest
      return (c :: cs, rest)
    else if isPlain c then do
      let (cs, rest) ← line? quote fuel rest
      return (c :: cs, rest)
    else none

/-- What follows a backslash at the end of a line: all blanks and line ends are left out. -/
def continuation? (fuel : Nat) (cs : List Char) : Option (List Char) := do
  let rest ← lineEnd? (skipBlanks cs)
  return skipGaps fuel rest
where
  skipGaps : Nat → List Char → List Char
    | 0, cs => cs
    | fuel + 1, cs =>
      let rest := skipBlanks cs
      match lineEnd? rest with
      | some rest => skipGaps fuel rest
      | none => rest

/-- A string over several lines up to three closing quotes. Up to two quotes may stand right
before those. Line ends are read as line feeds. -/
def lines? (quote : Char) : Nat → List Char → Option (List Char × List Char)
  | 0, _ => none
  | _, [] => none
  | fuel + 1, c :: rest =>
    if c = quote then
      let run := 1 + (rest.takeWhile (· = quote)).length
      if run < 3 then do
        let (cs, rest) ← lines? quote fuel rest
        return (c :: cs, rest)
      else
        let extra := min (run - 3) 2
        some (List.replicate extra quote, (c :: rest).drop (extra + 3))
    else if c = '\\' ∧ quote = '"' then
      match continuation? fuel rest with
      | some rest => lines? quote fuel rest
      | none => do
        let (c, rest) ← escape? rest
        let (cs, rest) ← lines? quote fuel rest
        return (c :: cs, rest)
    else
      match lineEnd? (c :: rest) with
      | some rest => do
        let (cs, rest) ← lines? quote fuel rest
        return ('\n' :: cs, rest)
      | none =>
        if isPlain c then do
          let (cs, rest) ← lines? quote fuel rest
          return (c :: cs, rest)
        else none

/-- A string of any kind. A line end right after three opening quotes is left out. -/
def string? (cs : List Char) : Option (List Char × List Char) :=
  let long (quote : Char) (rest : List Char) :=
    lines? quote (rest.length + 1) ((lineEnd? rest).getD rest)
  match cs with
  | '"' :: '"' :: '"' :: rest => long '"' rest
  | '\'' :: '\'' :: '\'' :: rest => long '\'' rest
  | '"' :: rest => line? '"' (rest.length + 1) rest
  | '\'' :: rest => line? '\'' (rest.length + 1) rest
  | _ => none

/-! ## Keys -/

def isBareKeyChar (c : Char) : Bool := c.isAlphanum || c == '_' || c == '-'

/-- One key, bare or quoted. -/
def simpleKey? (cs : List Char) : Option (String × List Char) := do
  match cs with
  | '"' :: rest =>
    let (key, rest) ← line? '"' (rest.length + 1) rest
    return (String.ofList key, rest)
  | '\'' :: rest =>
    let (key, rest) ← line? '\'' (rest.length + 1) rest
    return (String.ofList key, rest)
  | cs =>
    let key := cs.takeWhile isBareKeyChar
    guard !key.isEmpty
    return (String.ofList key, cs.drop key.length)

/-- Keys with dots between them, and the blanks around each. -/
def key? : Nat → List Char → Option (List String × List Char)
  | 0, _ => none
  | fuel + 1, cs => do
    let (name, rest) ← simpleKey? (skipBlanks cs)
    match skipBlanks rest with
    | '.' :: rest =>
      let (path, rest) ← key? fuel rest
      return (name :: path, rest)
    | rest => return ([name], rest)

/-- How deep values nest, and how many parts a dotted key has, at most. -/
def maxDepth : Nat := 79

/-- A dotted key that is not too long. -/
def path? (cs : List Char) : Option (List String × List Char) := do
  let (path, rest) ← key? (cs.length + 1) cs
  guard (path.length ≤ maxDepth)
  return (path, rest)

/-! ## Values -/

/-- The characters of numbers, dates and times. -/
def isWordChar (c : Char) : Bool :=
  c.isAlphanum || c == '_' || c == '-' || c == '+' || c == '.' || c == ':'

/-- The word at the front. A blank may stand between a date and a time. -/
def word (cs : List Char) : List Char × List Char :=
  let first := cs.takeWhile isWordChar
  match date? first, cs.drop first.length with
  | some [], ' ' :: d :: rest =>
    if d.isDigit then
      let second := (d :: rest).takeWhile isWordChar
      (first ++ ' ' :: second, (d :: rest).drop second.length)
    else (first, ' ' :: d :: rest)
  | _, rest => (first, rest)

mutual

/-- One value; `depth` bounds the arrays and braces that may still be opened. -/
def value? : Nat → Nat → List Char → Option (Toml × List Char)
  | 0, _, _ => none
  | fuel + 1, depth, cs =>
    match depth, cs with
    | 0, '[' :: _ => none
    | depth + 1, '[' :: rest => do
      let (items, rest) ← items? fuel depth (skipLines (rest.length + 1) rest)
      return (.array items, rest)
    | 0, '\x7b' :: _ => none
    | depth + 1, '\x7b' :: rest => do
      let (entries, rest) ← match skipBlanks rest with
        | '\x7d' :: rest => some ([], rest)
        | rest => entries? fuel depth rest
      return (← inlineTable? entries, rest)
    | _, '"' :: rest => do
      let (s, rest) ← string? ('"' :: rest)
      return (.string (String.ofList s), rest)
    | _, '\'' :: rest => do
      let (s, rest) ← string? ('\'' :: rest)
      return (.string (String.ofList s), rest)
    | _, cs => do
      let (w, rest) := word cs
      if w == ['t', 'r', 'u', 'e'] then return (.boolean true, rest)
      if w == ['f', 'a', 'l', 's', 'e'] then return (.boolean false, rest)
      guard (isScalar w)
      return (.scalar, rest)

/-- The items of an array up to its end; a comma may follow the last one. -/
def items? : Nat → Nat → List Char → Option (List Toml × List Char)
  | 0, _, _ => none
  | _, _, ']' :: rest => some ([], rest)
  | fuel + 1, depth, cs => do
    let (item, rest) ← value? fuel depth cs
    match skipLines (rest.length + 1) rest with
    | ']' :: rest => return ([item], rest)
    | ',' :: rest =>
      let (items, rest) ← items? fuel depth (skipLines (rest.length + 1) rest)
      return (item :: items, rest)
    | _ => none

/-- The assignments in braces up to their end, all on one line and with no comma after the
last. -/
def entries? : Nat → Nat → List Char → Option (List (List String × Toml) × List Char)
  | 0, _, _ => none
  | fuel + 1, depth, cs => do
    let (path, rest) ← path? cs
    let '=' :: rest := rest | none
    let (value, rest) ← value? fuel depth (skipBlanks rest)
    match skipBlanks rest with
    | '\x7d' :: rest => return ([(path, value)], rest)
    | ',' :: rest =>
      let (entries, rest) ← entries? fuel depth rest
      return ((path, value) :: entries, rest)
    | _ => none

end

/-! ## Statements -/

/-- One statement. -/
def statement? (cs : List Char) : Option (Statement × List Char) := do
  match cs with
  | '[' :: '[' :: rest =>
    let (path, rest) ← path? rest
    let ']' :: ']' :: rest := rest | none
    return (.seriesHeader path, rest)
  | '[' :: rest =>
    let (path, rest) ← path? rest
    let ']' :: rest := rest | none
    return (.header path, rest)
  | cs =>
    let (path, rest) ← path? cs
    let '=' :: rest := rest | none
    let (value, rest) ← value? (2 * rest.length + 2) maxDepth (skipBlanks rest)
    return (.assign path value, rest)

/-- The statements of a text, each on a line of its own. -/
def statements? : Nat → List Char → Option (List Statement)
  | 0, _ => none
  | fuel + 1, cs =>
    match skipLines (cs.length + 1) cs with
    | [] => some []
    | cs => do
      let (statement, rest) ← statement? cs
      match skipComment (skipBlanks rest) with
      | [] => return [statement]
      | rest => return statement :: (← statements? fuel (← lineEnd? rest))

end SchemaCompiler.Toml.Reader

namespace SchemaCompiler.Toml

/-- Reads a document; a byte order mark at its start is no part of it. -/
def read? (text : String) : Option Toml := do
  let cs := match text.toList with
    | '\ufeff' :: rest => rest
    | cs => cs
  let document ← Document.ofStatements? (← Reader.statements? (cs.length + 1) cs)
  return document.root.close

end SchemaCompiler.Toml
