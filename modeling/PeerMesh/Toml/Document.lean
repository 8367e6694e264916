import PeerMesh.Text.Reader
import PeerMesh.Toml.Value

/-! The text of a TOML document. Line ends are a line feed or a carriage return and a line feed;
they count as one character here, since the readers see a text in which the carriage returns of
line ends are gone. A carriage return elsewhere is no part of any document. -/

namespace PeerMesh.Toml
set_option autoImplicit false
open Text (Reader)
open Text.Reader (char word digit? ofDigitsUpTo scalar?)

/-- A character that comments and strings may hold as it is. -/
def isTextChar (c : Char) : Bool := c = '\t' || (c.val ≥ 0x20 && c.val ≠ 0x7f)

def isSpace (c : Char) : Bool := c = ' ' || c = '\t'

def skipSpace (cs : List Char) : List Char := cs.dropWhile isSpace

def skipTrivia (inComment : Bool) : List Char → List Char
  | [] => []
  | c :: cs =>
    if c = '\n' then skipTrivia false cs
    else if inComment then if isTextChar c then skipTrivia true cs else c :: cs
    else if isSpace c then skipTrivia false cs
    else if c = '#' then skipTrivia true cs
    else c :: cs

def skipBlank (cs : List Char) : List Char := cs.dropWhile fun c => isSpace c || c = '\n'

theorem length_skipBlank_le (cs : List Char) : (skipBlank cs).length ≤ cs.length :=
  (List.dropWhile_suffix _).length_le

/-! ### Strings -/

def escaped? (c : Char) : Option Char :=
  [('b', '\x08'), ('t', '\t'), ('n', '\n'), ('f', '\x0c'), ('r', '\r'), ('"', '"'),
    ('\\', '\\')].lookup c

def andThen (c : Option Char) (more : Option (List Char × List Char)) :
    Option (List Char × List Char) := do
  let c ← c
  let (text, rest) ← more
  return (c :: text, rest)

def plain? (c : Char) : Option Char := if isTextChar c then some c else none

def basicText : Reader (List Char)
  | [] => none
  | '"' :: cs => some ([], cs)
  | '\\' :: 'u' :: a :: b :: c :: d :: cs => andThen (scalar? [a, b, c, d]) (basicText cs)
  | '\\' :: 'U' :: a :: b :: c :: d :: e :: f :: g :: h :: cs =>
    andThen (scalar? [a, b, c, d, e, f, g, h]) (basicText cs)
  | '\\' :: c :: cs => andThen (escaped? c) (basicText cs)
  | c :: cs => andThen (plain? c) (basicText cs)

def literalText : Reader (List Char)
  | [] => none
  | '\'' :: cs => some ([], cs)
  | c :: cs => andThen (plain? c) (literalText cs)

/-- A character of a string of several lines as it is. -/
def lineChar? (c : Char) : Option Char := if c = '\n' then some c else plain? c

/-- Whether only spaces are left of the line. -/
def lineEnds (cs : List Char) : Bool := (skipSpace cs).head? = some '\n'

/-- Reads a string up to three double quotes; one or two more before the end belong to it. A
backslash at the end of a line takes away all spaces and line ends up to the next character. -/
def basicLines : Reader (List Char)
  | [] => none
  | '"' :: '"' :: '"' :: '"' :: '"' :: cs => some (['"', '"'], cs)
  | '"' :: '"' :: '"' :: '"' :: cs => some (['"'], cs)
  | '"' :: '"' :: '"' :: cs => some ([], cs)
  | '\\' :: 'u' :: a :: b :: c :: d :: cs => andThen (scalar? [a, b, c, d]) (basicLines cs)
  | '\\' :: 'U' :: a :: b :: c :: d :: e :: f :: g :: h :: cs =>
    andThen (scalar? [a, b, c, d, e, f, g, h]) (basicLines cs)
  | '\\' :: c :: cs =>
    if lineEnds (c :: cs) then
      have := length_skipBlank_le cs
      basicLines (skipBlank cs)
    else andThen (escaped? c) (basicLines cs)
  | c :: cs => andThen (lineChar? c) (basicLines cs)
termination_by cs => cs.length
decreasing_by all_goals simp only [List.length_cons]; omega

/-- Reads a string without escapes up to three single quotes; one or two more before the end
belong to it. -/
def literalLines : Reader (List Char)
  | [] => none
  | '\'' :: '\'' :: '\'' :: '\'' :: '\'' :: cs => some (['\'', '\''], cs)
  | '\'' :: '\'' :: '\'' :: '\'' :: cs => some (['\''], cs)
  | '\'' :: '\'' :: '\'' :: cs => some ([], cs)
  | c :: cs => andThen (lineChar? c) (literalLines cs)

/-- A line end right after the opening quotes is no part of the string. -/
def skipLineEnd : List Char → List Char
  | '\n' :: cs => cs
  | cs => cs

def readString : Reader String := fun cs => do
  let (text, rest) ← match cs with
    | '"' :: '"' :: '"' :: cs => basicLines (skipLineEnd cs)
    | '\'' :: '\'' :: '\'' :: cs => literalLines (skipLineEnd cs)
    | '"' :: cs => basicText cs
    | '\'' :: cs => literalText cs
    | _ => none
  return (String.ofList text, rest)

/-! ### Numbers -/

/-- Whether underscores stand only between digits. -/
def wellSpaced : List Char → Bool
  | [] => false
  | '_' :: _ => false
  | _ :: '_' :: cs => wellSpaced cs
  | [_] => true
  | _ :: cs => wellSpaced cs

/-- Reads digits in a base, perhaps with underscores between them. -/
def readDigits (base : Nat) : Reader (List Char) := fun cs =>
  let run := cs.takeWhile fun c => c = '_' || (digit? base c).isSome
  if wellSpaced run then some (run.filter (· ≠ '_'), cs.drop run.length) else none

/-- All numbers from here on are beyond the integers of 64 bits, with either sign. -/
def beyondIntegers : Nat := Nat.pow 2 63 + 1

/-- Reads a decimal number; only zero itself starts with a zero. -/
def readDecimal : Reader Nat := fun cs => do
  let (digits, rest) ← readDigits 10 cs
  if digits.length > 1 && digits.head? = some '0' then none
  return (ofDigitsUpTo beyondIntegers 10 digits, rest)

def readBased (base : Nat) : Reader Nat := fun cs => do
  let (digits, rest) ← readDigits base cs
  return (ofDigitsUpTo beyondIntegers base digits, rest)

/-- Reads an integer of 64 bits; only decimal ones carry a sign. -/
def readInteger : Reader Int := fun cs => do
  let (n, rest) ← match cs with
    | '0' :: 'x' :: cs => (readBased 16 cs).map fun (n, rest) => ((n : Int), rest)
    | '0' :: 'o' :: cs => (readBased 8 cs).map fun (n, rest) => ((n : Int), rest)
    | '0' :: 'b' :: cs => (readBased 2 cs).map fun (n, rest) => ((n : Int), rest)
    | '-' :: cs => (readDecimal cs).map fun (n, rest) => (-(n : Int), rest)
    | '+' :: cs => (readDecimal cs).map fun (n, rest) => ((n : Int), rest)
    | cs => (readDecimal cs).map fun (n, rest) => ((n : Int), rest)
  if n < -Int.pow 2 63 || n ≥ Int.pow 2 63 then none
  return (n, rest)

/-! ### Keys -/

def isBareChar (c : Char) : Bool := c.isAlphanum || c = '_' || c = '-'

def readPart : Reader String
  | '"' :: cs => (basicText cs).map fun (text, rest) => (String.ofList text, rest)
  | '\'' :: cs => (literalText cs).map fun (text, rest) => (String.ofList text, rest)
  | cs =>
    let bare := cs.takeWhile isBareChar
    if bare.isEmpty then none else some (String.ofList bare, cs.drop bare.length)

/-- Reads a key of at most so many parts, with the spaces around it. -/
def readKey : Nat → Reader Key
  | 0, _ => none
  | most + 1, cs => do
    let (part, rest) ← readPart (skipSpace cs)
    match skipSpace rest with
    | '.' :: rest =>
      let (key, rest) ← readKey most rest
      return ({ key with path := part :: key.path }, rest)
    | rest => return (⟨[], part⟩, rest)

/-! ### Values -/

mutual

/-- Reads a value that nests no deeper than the first argument says. -/
def readNested : Nat → Reader Value
  | 0, _ => none
  | depth + 1, cs =>
    match cs with
    | '[' :: cs => (readItems depth cs).map fun (items, rest) => (.array items, rest)
    | '{' :: cs =>
      match skipSpace cs with
      | '}' :: rest => some (.table .inline [], rest)
      | cs => do
        let (pairs, rest) ← readPairs depth cs
        return (← Value.ofPairs? pairs, rest)
    | cs =>
      ((word "true".toList cs).map fun rest => (.boolean true, rest)) <|>
      ((word "false".toList cs).map fun rest => (.boolean false, rest)) <|>
      ((readString cs).map fun (s, rest) => (.text s, rest)) <|>
      ((readMoment cs).map fun (m, rest) => (.moment m, rest)) <|>
      ((readInteger cs).map fun (n, rest) => (.integer n, rest))

/-- Reads the items of an array up to its bracket. A comma may follow the last one. -/
def readItems : Nat → Reader (List Value)
  | 0, _ => none
  | depth + 1, cs =>
    match skipTrivia false cs with
    | ']' :: rest => some ([], rest)
    | cs => do
      let (item, rest) ← readNested depth cs
      match skipTrivia false rest with
      | ']' :: rest => return ([item], rest)
      | ',' :: rest =>
        let (items, rest) ← readItems depth rest
        return (item :: items, rest)
      | _ => none

def readPairs : Nat → Reader (List (Key × Value))
  | 0, _ => none
  | depth + 1, cs => do
    let (key, rest) ← readKey depth cs
    let (value, rest) ← readNested depth (skipSpace (← char '=' rest))
    match skipSpace rest with
    | '}' :: rest => return ([(key, value)], rest)
    | ',' :: rest =>
      let (pairs, rest) ← readPairs depth rest
      return ((key, value) :: pairs, rest)
    | _ => none

end

/-! ### Lines -/

/-- Reads what a line says in a text of at most so many characters. Every part of a key, every level
of nesting and every further item takes a character at least. -/
def readStatement (most : Nat) : Reader Statement
  | '[' :: '[' :: cs => do
    let (key, rest) ← readKey most cs
    return (.row key, ← word [']', ']'] rest)
  | '[' :: cs => do
    let (key, rest) ← readKey most cs
    return (.header key, ← char ']' rest)
  | cs => do
    let (key, rest) ← readKey most cs
    let (value, rest) ← readNested (2 * most) (skipSpace (← char '=' rest))
    return (.assign key value, rest)

/-- What follows the end of a line, before which spaces and a comment may stand. -/
def lineEnd (cs : List Char) : Option (List Char) :=
  let rest := match skipSpace cs with
    | '#' :: comment => comment.dropWhile isTextChar
    | rest => rest
  match rest with
  | [] => some []
  | '\n' :: rest => some rest
  | _ => none

def readStatements : Nat → List Char → Option (List Statement)
  | 0, cs => if cs.isEmpty then some [] else none
  | most + 1, cs =>
    match skipSpace cs with
    | [] => some []
    | c :: cs =>
      if c = '\n' || c = '#' then do readStatements most (← lineEnd (c :: cs))
      else do
        let (statement, rest) ← readStatement (most + 1) (c :: cs)
        return statement :: (← readStatements most (← lineEnd rest))

/-- Takes the carriage returns out of line ends. -/
def joinLineEnds : List Char → List Char
  | '\r' :: '\n' :: cs => '\n' :: joinLineEnds cs
  | c :: cs => c :: joinLineEnds cs
  | [] => []

/-- A byte order mark at the start is no part of the document. -/
def skipMark : List Char → List Char
  | '\ufeff' :: cs => cs
  | cs => cs

def parse? (text : String) : Option Value := do
  let cs := joinLineEnds (skipMark text.toList)
  Draft.ofStatements? (← readStatements cs.length cs)

end PeerMesh.Toml
