/-! Which texts are numbers. -/

namespace PeerMesh.Text
set_option autoImplicit false

def unsigned : List Char → List Char
  | '+' :: cs | '-' :: cs => cs
  | cs => cs

/-- Whether a text is nothing, or the letter `e` with a whole number. -/
def isExponent : List Char → Bool
  | [] => true
  | c :: cs => (c = 'e' || c = 'E') && !(unsigned cs).isEmpty && (unsigned cs).all Char.isDigit

/-- Whether a text is digits, perhaps with a point among or beside them, and perhaps an exponent. -/
def isDecimal (cs : List Char) : Bool :=
  let whole := cs.takeWhile Char.isDigit
  match cs.dropWhile Char.isDigit with
  | '.' :: rest =>
    !(whole.isEmpty && (rest.takeWhile Char.isDigit).isEmpty) &&
      isExponent (rest.dropWhile Char.isDigit)
  | rest => !whole.isEmpty && isExponent rest

/-- Whether a text is a number with or without a sign: a decimal one, infinity, or the one that
is not a number. -/
def isNumber (cs : List Char) : Bool :=
  isDecimal (unsigned cs) ||
    ["inf", "infinity", "nan"].contains (String.ofList ((unsigned cs).map Char.toLower))

end PeerMesh.Text
