import PeerMesh.Text.Blank
import PeerMesh.Text.Letters
import PeerMesh.Text.Pattern
import PeerMesh.Text.Reader

/-! The text of regular expressions. Where the flag `x` is set, blanks and comments between the
parts of an expression count for nothing. How often something is repeated can be said by the signs
`?`, `*` and `+` alone, not by numbers in braces. -/

namespace PeerMesh.Text.Pattern
set_option autoImplicit false
open Reader (char word digit? scalar?)

/-- The text after blanks and comments. -/
def skipComments (inComment : Bool) : List Char → List Char
  | [] => []
  | c :: cs =>
    if inComment then skipComments (c ≠ '\n') cs
    else if isBlank c then skipComments false cs
    else if c = '#' then skipComments true cs
    else c :: cs

/-- The text after what counts for nothing. -/
def skip (isVerbose : Bool) (cs : List Char) : List Char :=
  if isVerbose then skipComments false cs else cs

/-! ### Characters and escapes -/

def readHex (isVerbose : Bool) : Nat → Reader (List Char)
  | 0, cs => some ([], cs)
  | n + 1, cs =>
    match skip isVerbose cs with
    | [] => none
    | c :: rest =>
      if (digit? 16 c).isSome then (readHex isVerbose n rest).map fun (cs, rest) => (c :: cs, rest)
      else none

/-- The number of digits after the letters that announce a character by its number. -/
def hexDigits : List (Char × Nat) := [('x', 2), ('u', 4), ('U', 8)]

def controls : List (Char × Char) :=
  [('a', '\x07'), ('f', '\x0c'), ('t', '\t'), ('n', '\n'), ('r', '\r'), ('v', '\x0b')]

/-- Letters and signs that stand for something other than a character. -/
def specials : List (Char × Atom) :=
  [('A', .edge), ('z', .edge), ('b', .wordEdge), ('B', .wordEdge), ('<', .wordEdge),
    ('>', .wordEdge), ('d', .kind false), ('s', .kind false), ('w', .kind false),
    ('D', .kind true), ('S', .kind true), ('W', .kind true)]

/-- Reads what follows a backslash. Any other ASCII sign stands for itself. -/
def readEscape (isVerbose : Bool) : Reader Atom
  | [] => none
  | c :: rest =>
    match hexDigits.lookup c, controls.lookup c, specials.lookup c with
    | some n, _, _ => do
      let (digits, rest) ← readHex isVerbose n rest
      return (.literal ⟨← scalar? digits, n = 2⟩, rest)
    | _, some control, _ => some (.literal ⟨control, false⟩, rest)
    | _, _, some special => some (special, rest)
    | _, _, _ => if c.toNat < 0x80 && !c.isAlphanum then some (.literal ⟨c, false⟩, rest) else none

def readAtom (isVerbose : Bool) : Reader Atom
  | [] => none
  | c :: rest =>
    match c with
    | '\\' => readEscape isVerbose rest
    | '.' => some (.any, rest)
    | '^' | '$' => some (.edge, rest)
    | _ => some (.literal ⟨c, false⟩, rest)

/-! ### Sets in brackets -/

def readMember (isVerbose : Bool) : Reader Atom
  | [] => none
  | '\\' :: rest => readEscape isVerbose rest
  | c :: rest => some (.literal ⟨c, false⟩, rest)

def Atom.literal? : Atom → Option Literal
  | .literal l => some l
  | _ => none

def Atom.set? : Atom → Option CharSet
  | .literal l => some (.literal l)
  | .kind negated => some (.kind negated)
  | _ => none

/-- The character after a hyphen that tells whether the hyphen makes a range. Of a comment that
comes between, only the sign and the blanks after it are passed over. -/
def peek? (isVerbose : Bool) (cs : List Char) : Option Char :=
  let shown := match cs.dropWhile isBlank with
    | '#' :: more => more.dropWhile isBlank
    | more => more
  if isVerbose && !shown.isEmpty then shown.head? else cs.head?

/-- Reads a character, a kind of characters or a range. A hyphen before the closing bracket or
another hyphen makes no range. -/
def readItem (isVerbose : Bool) : Reader CharSet := fun cs => do
  let (a, rest) ← readMember isVerbose cs
  match skip isVerbose rest with
  | [] => none
  | '-' :: more =>
    if peek? isVerbose more = some ']' || peek? isVerbose more = some '-' then
      return (← a.set?, '-' :: more)
    let (b, rest) ← readMember isVerbose (skip isVerbose more)
    let first ← a.literal?
    let last ← b.literal?
    if last.char < first.char then none
    return (.range first last, rest)
  | rest => return (← a.set?, rest)

def setNames : List String :=
  ["alnum", "alpha", "ascii", "blank", "cntrl", "digit", "graph", "lower", "print", "punct",
    "space", "upper", "word", "xdigit"]

def negation : List Char → Bool × List Char
  | '^' :: cs => (true, cs)
  | cs => (false, cs)

/-- Reads the rest of a set with a name after its first bracket. -/
def readNamed : Reader CharSet := fun cs => do
  let (negated, cs) := negation (← char ':' cs)
  let name := cs.takeWhile (· ≠ ':')
  if !setNames.contains (String.ofList name) then none
  return (.named negated, ← word [':', ']'] (cs.drop name.length))

/-- What follows a sign between two sets: what both have in common, what the first has alone, or
what one of them has alone. -/
def operator? : List Char → Option (List Char)
  | '&' :: '&' :: rest | '-' :: '-' :: rest | '~' :: '~' :: rest => some rest
  | _ => none

/-- What has been read of a set. -/
structure SetDraft where
  /-- Whether nothing but hyphens has been read, which stand for themselves here. -/
  isStart : Bool
  /-- What stands before the last sign between sets. -/
  left : Option CharSet
  /-- What stands after it, the last first. -/
  items : List CharSet

namespace SetDraft

def empty : SetDraft := ⟨true, none, []⟩

def add (d : SetDraft) (item : CharSet) : SetDraft := ⟨false, d.left, item :: d.items⟩

def result (d : SetDraft) : CharSet :=
  let right := match d.items with
    | [item] => item
    | items => .union items.reverse
  match d.left with
  | some left => .combined left right
  | none => right

end SetDraft

/-- Reads a set up to its closing bracket, which stands for itself if it comes first. The first
argument is greater than the length of the text. -/
def readSet : Nat → Bool → SetDraft → Reader CharSet
  | 0, _, _, _ => none
  | more + 1, isVerbose, d, cs =>
    match skip isVerbose cs with
    | [] => none
    | c :: rest =>
      let self : CharSet := .literal ⟨c, false⟩
      if d.isStart && c = '-' then
        readSet more isVerbose { d.add self with isStart := true } rest
      else if d.isStart && d.items.isEmpty && c = ']' then readSet more isVerbose (d.add self) rest
      else if c = ']' then some (d.result, rest)
      else
        match operator? (c :: rest) with
        | some rest => readSet more isVerbose ⟨false, some d.result, []⟩ rest
        | none =>
          if c = '[' then
            match readNamed rest with
            | some (item, rest) => readSet more isVerbose (d.add item) rest
            | none => do
              let (negated, rest) := negation (skip isVerbose rest)
              let (body, rest) ← readSet more isVerbose .empty rest
              readSet more isVerbose (d.add (.bracketed negated body)) rest
          else do
            let (item, rest) ← readItem isVerbose (c :: rest)
            readSet more isVerbose (d.add item) rest

/-! ### Groups -/

/-- Reads flags, those after a hyphen being cleared. -/
def Flags.parse? (cs : List Char) : Option Flags :=
  let on := cs.takeWhile (· ≠ '-')
  let off := (cs.dropWhile (· ≠ '-')).drop 1
  let letters := on ++ off
  if letters.all ("imsUuRx".toList.contains ·) && letters.Nodup && !(off.isEmpty && '-' ∈ cs) then
    some ⟨on, off⟩
  else none

def isName : List Char → Bool
  | [] => false
  | c :: cs =>
    (c = '_' || isAlphabetic c) && cs.all fun c => "_.[]".toList.contains c || isAlphanumeric c

inductive Opening
  | flags (f : Flags)
  | group (name : Option String) (f : Flags)
  deriving DecidableEq

/-- Reads what follows an opening parenthesis up to the body of the group. -/
def readOpening : Reader Opening
  | '?' :: 'P' :: '<' :: cs | '?' :: '<' :: cs => do
    let name := cs.takeWhile (· ≠ '>')
    if !isName name then none
    return (.group (String.ofList name) ⟨[], []⟩, ← char '>' (cs.drop name.length))
  | '?' :: cs => do
    let letters := cs.takeWhile fun c => c ≠ ':' && c ≠ ')'
    let f ← Flags.parse? letters
    match cs.drop letters.length with
    | ':' :: rest => return (.group none f, rest)
    | ')' :: rest => if letters.isEmpty then none else return (.flags f, rest)
    | _ => none
  | cs => some (.group none ⟨[], []⟩, cs)

/-! ### Expressions -/

/-- A single item is what it is; others form a sequence. -/
def ofItems : List Pattern → Pattern
  | [p] => p
  | items => .sequence items

def ofBranches : List Pattern → Pattern
  | [p] => p
  | branches => .choice branches

/-- Puts a repetition around the last item. There has to be one, and flags cannot be repeated. -/
def repeatLast : List Pattern → Option (List Pattern)
  | [] | .flags _ :: _ => none
  | p :: items => some (.repeated p :: items)

/-- A question mark after a repetition makes it as short as can be. -/
def skipShort : List Char → List Char
  | '?' :: cs => cs
  | cs => cs

/-- Reads the branches of a group up to its end, of which the items of the first one are given as
far as they are read, the last first. The first argument is greater than the length of the text. -/
def readBranches : Nat → Bool → List Pattern → Reader (List Pattern)
  | 0, _, _, _ => none
  | more + 1, isVerbose, items, cs =>
    match skip isVerbose cs with
    | [] => some ([ofItems items.reverse], [])
    | c :: rest =>
      match c with
      | ')' => some ([ofItems items.reverse], c :: rest)
      | '|' => do
        let (branches, rest) ← readBranches more isVerbose [] rest
        return (ofItems items.reverse :: branches, rest)
      | '(' => do
        match ← readOpening (skip isVerbose rest) with
        | (.flags f, rest) =>
          readBranches more ((f.state? 'x').getD isVerbose) (.flags f :: items) rest
        | (.group name f, rest) =>
          let (branches, rest) ← readBranches more ((f.state? 'x').getD isVerbose) [] rest
          readBranches more isVerbose (.group name f (ofBranches branches) :: items)
            (← char ')' rest)
      | '[' => do
        let (negated, rest) := negation (skip isVerbose rest)
        let (body, rest) ← readSet more isVerbose .empty rest
        readBranches more isVerbose (.set (.bracketed negated body) :: items) rest
      | '?' | '*' | '+' => do readBranches more isVerbose (← repeatLast items) (skipShort rest)
      | '\x7b' => none
      | _ => do
        let (a, rest) ← readAtom isVerbose (c :: rest)
        readBranches more isVerbose (.atom a :: items) rest

def parse? (text : List Char) : Option Pattern :=
  ((Reader.whole (readBranches (text.length + 1) false []) text).map ofBranches).filter isUsable

end PeerMesh.Text.Pattern
