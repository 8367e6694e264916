/-! Regular expressions, and which of them can be used to match text. The machine that runs them
reads text byte by byte and knows characters by their numbers alone. So an expression is refused
if it depends on letter case or on kinds of characters beyond ASCII, or if a match of it could
begin or end inside of a character; and it may nest only so deep. -/

namespace PeerMesh.Text
set_option autoImplicit false

namespace Pattern

structure Literal where
  char : Char
  /-- Whether it is written as a byte, with two digits. -/
  isByte : Bool
  deriving DecidableEq

/-- The parts of an expression that have no parts. -/
inductive Atom
  | literal (l : Literal)
  | any
  /-- The beginning or the end of a line or of the text. -/
  | edge
  /-- The beginning or the end of a word, or that there is neither. -/
  | wordEdge
  /-- A digit, a blank or a character of a word; or anything else. -/
  | kind (negated : Bool)
  deriving DecidableEq

inductive CharSet
  | literal (l : Literal)
  | range (first last : Literal)
  | kind (negated : Bool)
  /-- A set with a name, such as `[:alpha:]`. -/
  | named (negated : Bool)
  | union (items : List CharSet)
  /-- What two sets have in common, or by what they differ. -/
  | combined (left right : CharSet)
  | bracketed (negated : Bool) (body : CharSet)

/-- The flags that are set and those that are cleared. -/
structure Flags where
  on : List Char
  off : List Char
  deriving DecidableEq

/-- What becomes of a flag, if it is mentioned. -/
def Flags.state? (f : Flags) (flag : Char) : Option Bool :=
  if f.on.contains flag then some true else if f.off.contains flag then some false else none

end Pattern

open Pattern (Literal Atom CharSet Flags)

inductive Pattern
  | atom (a : Atom)
  | set (s : CharSet)
  /-- Flags for what follows in the same group. -/
  | flags (f : Flags)
  | repeated (p : Pattern)
  | group (name : Option String) (flags : Flags) (body : Pattern)
  | sequence (items : List Pattern)
  | choice (branches : List Pattern)

namespace Pattern

/-! ### What can be used -/

structure Mode where
  /-- Whether capital and small letters are the same. -/
  ignoreCase : Bool
  /-- Whether characters are meant, not bytes. -/
  unicode : Bool
  deriving DecidableEq

/-- The mode at the start of an expression. -/
def Mode.usual : Mode := ⟨false, true⟩

def Mode.set (m : Mode) (f : Flags) : Mode :=
  ⟨(f.state? 'i').getD m.ignoreCase, (f.state? 'u').getD m.unicode⟩

/-- Whether a character can stand in a set. A set is one of characters or one of bytes, and only
ASCII characters are bytes. -/
def Literal.fitsSet (m : Mode) (l : Literal) : Bool :=
  if m.unicode then !m.ignoreCase else l.char.toNat < 0x80

def Atom.fits (m : Mode) : Atom → Bool
  | literal l => if m.unicode then !m.ignoreCase else !l.isByte || l.char.toNat < 0x80
  | any => m.unicode
  | edge => true
  | wordEdge => !m.unicode
  | kind negated => !m.unicode && !negated

mutual

/-- Whether a set can be used. The complement of a set of bytes has bytes that are no characters,
and of no set but the empty one can letter case be ignored beyond ASCII. -/
def CharSet.fits (m : Mode) : CharSet → Bool
  | .literal l => l.fitsSet m
  | .range first last => first.fitsSet m && last.fitsSet m
  | .kind negated => !m.unicode && !negated
  | .named negated => if m.unicode then !m.ignoreCase else !negated
  | .union items => CharSet.allFit m items
  | .combined left right => CharSet.fits m left && CharSet.fits m right
  | .bracketed negated body => (m.unicode || !negated) && CharSet.fits m body

def CharSet.allFit (m : Mode) : List CharSet → Bool
  | [] => true
  | s :: items => CharSet.fits m s && CharSet.allFit m items

end

mutual

/-- The mode after an expression, if it can be used. What a group sets ends with the group. -/
def after? (m : Mode) : Pattern → Option Mode
  | atom a => if a.fits m then some m else none
  | set s => if s.fits m then some m else none
  | flags f => some (m.set f)
  | repeated p => after? m p
  | group _ f body => (after? (m.set f) body).map fun _ => m
  | sequence items => afterAll? m items
  | choice branches => afterAll? m branches

def afterAll? (m : Mode) : List Pattern → Option Mode
  | [] => some m
  | p :: items => (after? m p).bind fun m => afterAll? m items

end

/-! ### Nesting -/

mutual

def CharSet.depth : CharSet → Nat
  | .union [] => 0
  | .union (s :: items) => 1 + max s.depth (CharSet.mostDepth items)
  | .combined left right => 1 + max left.depth right.depth
  | .bracketed _ body => 1 + body.depth
  | _ => 0

def CharSet.mostDepth : List CharSet → Nat
  | [] => 0
  | s :: items => max s.depth (CharSet.mostDepth items)

end

mutual

def depth : Pattern → Nat
  | atom _ | flags _ | sequence [] | choice [] => 0
  | set s => s.depth
  | repeated p => 1 + p.depth
  | group _ _ body => 1 + body.depth
  | sequence (p :: items) => 1 + max p.depth (mostDepth items)
  | choice (p :: branches) => 1 + max p.depth (mostDepth branches)

def mostDepth : List Pattern → Nat
  | [] => 0
  | p :: items => max p.depth (mostDepth items)

end

def maxDepth : Nat := 250

/-! ### Names of groups -/

mutual

def names : Pattern → List String
  | atom _ | set _ | flags _ => []
  | repeated p => p.names
  | group name _ body => name.toList ++ body.names
  | sequence items => allNames items
  | choice branches => allNames branches

def allNames : List Pattern → List String
  | [] => []
  | p :: items => p.names ++ allNames items

end

/-- Whether an expression can be used: no two of its groups share a name. -/
def isUsable (p : Pattern) : Bool :=
  (p.after? .usual).isSome && p.depth ≤ maxDepth && decide p.names.Nodup

end Pattern
end PeerMesh.Text
