import PeerMesh.Log
import PeerMesh.Text.Bytes
import PeerMesh.Text.Number
import PeerMesh.Text.Pattern.Reader

/-! Which records are logged. A filter is a list of directives, each for the targets that start
with a given text, or for all; of those that concern a record the most specific one decides. In
text directives are separated by commas: `level`, `target`, `target=level`, and forms with a span
or with fields in brackets, such as `target[span{field}]=level`. A field may have a value, which is
a number or a regular expression. -/

namespace PeerMesh.Log
set_option autoImplicit false

/-- The least important level that is logged; `none` if nothing is. -/
abbrev Threshold := Option Level

def Threshold.passes (t : Threshold) (level : Level) : Bool :=
  match t with
  | some most => level.rank ≤ most.rank
  | none => false

/-- The threshold of a name in either case, or of a number. -/
def Threshold.parse? (cs : List Char) : Option Threshold :=
  let word := String.ofList (cs.map Char.toLower)
  let digits := match cs with
    | '+' :: rest => rest
    | _ => cs
  let number := Text.Reader.whole (Text.Reader.number ⟨10, none, true, 5⟩) digits
  let byNumber : List Threshold :=
    [none, some .error, some .warn, some .info, some .debug, some .trace]
  (number.bind (byNumber[·]?)) <|>
    [("off", none), ("error", some .error), ("warn", some .warn), ("info", some .info),
      ("debug", some .debug), ("trace", some .trace)].lookup word

structure Directive where
  /-- What the target of a record starts with. -/
  target : Option String
  /-- The span in which records are meant; there are no spans here, so such a directive concerns no
  record. -/
  span : Option String
  /-- The names of fields that a record has to have. -/
  fields : List String
  /-- Whether values of fields are asked for, which only spans have. -/
  hasValues : Bool
  threshold : Threshold
  deriving DecidableEq

namespace Directive

/-- Whether a directive has a say about a record. The message counts as a field. -/
def concerns (d : Directive) (r : Record) : Bool :=
  d.span.isNone && !d.hasValues &&
    d.target.all (fun t => t.toList.isPrefixOf r.target.toList) &&
    d.fields.all fun name => name = "message" || r.fields.any (·.1 = name)

/-- How specific a directive is: a target counts before the number of fields. -/
def specificity (d : Directive) : Nat × Nat :=
  ((d.target.map fun t => t.utf8ByteSize + 1).getD 0, d.fields.length)

/-- Whether a directive decides rather than another that came before it. -/
def outranks (d e : Directive) : Bool :=
  let (a, b) := d.specificity
  let (a', b') := e.specificity
  a > a' || (a = a' && (b > b' || (b = b' && !decide (d.fields < e.fields))))

/-! ### Reading -/

inductive Reading
  | start
  | levelOrTarget (begin : Nat)
  | span (begin : Nat)
  | field (begin : Nat)
  | afterFields
  | afterSpan
  | level (begin : Nat)
  deriving DecidableEq

def everything : Directive := ⟨none, none, [], false, some .trace⟩

/-- The value that a field is to have, if it names one: the text after its first equals sign, up to
the next one. -/
def value? (field : List Char) : Option (List Char) :=
  if field.contains '=' then
    some (((field.dropWhile (· ≠ '=')).drop 1).takeWhile (· ≠ '='))
  else none

def isValue (value : List Char) : Bool :=
  Text.isNumber value || (Text.Pattern.parse? value).isSome

def addField (d : Directive) (field : List Char) : Option Directive :=
  if field.isEmpty || (value? field).any (!isValue ·) then none
  else
    some { d with
      fields := d.fields ++ [String.ofList (field.takeWhile (· ≠ '='))]
      hasValues := d.hasValues || (value? field).isSome }

/-- Whether a directive without a span or fields can begin with a character. -/
def isFirst (c : Char) : Bool := c = '-' || c = ':' || c = '_' || Text.isAlphanumeric c

/-- Takes the next character, which stands at place `i`. Parts are cut out of the text by the
function `cut`. -/
def readStep (cut : Nat → Nat → Option (List Char)) (state : Reading × Directive)
    (next : Nat × Char) : Option (Reading × Directive) := do
  let (reading, d) := state
  let (i, c) := next
  match reading with
  | .start =>
    if c = '[' then return (.span (i + 1), d)
    if isFirst c then return (.levelOrTarget i, d)
    none
  | .levelOrTarget begin =>
    if c = '=' then return (.level (i + 1), { d with target := String.ofList (← cut begin i) })
    if c = '[' then return (.span (i + 1), { d with target := String.ofList (← cut begin i) })
    return state
  | .span begin =>
    if c = ']' then return (.afterSpan, { d with span := String.ofList (← cut begin i) })
    if c = '\x7b' then
      let name ← cut begin i
      let span := if name.isEmpty then none else some (String.ofList name)
      return (.field (i + 1), { d with span })
    return state
  | .field begin =>
    if c = '\x7d' then return (.afterFields, ← d.addField (← cut begin i))
    return state
  | .afterFields => if c = ']' then return (.afterSpan, d) else none
  | .afterSpan => if c = '=' then return (.level (i + 1), d) else none
  | .level _ => return state

/-- Reads one directive. Places are counted without the blanks around the text, while parts are cut
out of the text as it stands. -/
def parse? (text : List Char) : Option Directive := do
  let cut (a b : Nat) : Option (List Char) := do
    Text.takeBytes (b - a) (← Text.dropBytes a text)
  let (reading, d) ← (Text.places (Text.trim text)).foldlM (readStep cut) (.start, everything)
  match reading with
  | .levelOrTarget begin =>
    let rest ← Text.dropBytes begin text
    match Threshold.parse? rest with
    | some threshold => return { d with threshold }
    | none => return { d with target := String.ofList rest }
  | .level begin =>
    let rest ← Text.dropBytes begin text
    if rest.isEmpty then return d
    return { d with threshold := ← Threshold.parse? rest }
  | .afterSpan => return d
  | _ => none

end Directive

structure Filter where
  directives : List Directive
  deriving DecidableEq

namespace Filter

def atLevel (level : Level) : Filter := ⟨[{ Directive.everything with threshold := some level }]⟩

/-- Reads a filter. Nothing between two commas is no directive, and without directives errors alone
are logged. -/
def parse? (text : String) : Option Filter := do
  let parts := (text.splitOn ",").filter (· ≠ "")
  if parts.isEmpty then return atLevel .error
  return ⟨← parts.mapM fun part => Directive.parse? part.toList⟩

def decisive? (f : Filter) (r : Record) : Option Directive :=
  (f.directives.filter (·.concerns r)).foldl (fun best d =>
    match best with
    | some e => if d.outranks e then some d else some e
    | none => some d) none

def passes (f : Filter) (r : Record) : Bool :=
  match f.decisive? r with
  | some d => d.threshold.passes r.level
  | none => false

end Filter
end PeerMesh.Log
