/-! Places in a text that are counted in bytes of its UTF-8 form. -/

namespace PeerMesh.Text
set_option autoImplicit false

/-- The characters of a text from a place on, each with the place where it begins. -/
def placesFrom (place : Nat) : List Char → List (Nat × Char)
  | [] => []
  | c :: cs => (place, c) :: placesFrom (place + c.utf8Size) cs

def places (cs : List Char) : List (Nat × Char) := placesFrom 0 cs

/-- The first bytes of a text and those after them, unless there are fewer or a character would be
cut in two. -/
def splitBytes : Nat → List Char → Option (List Char × List Char)
  | 0, cs => some ([], cs)
  | _ + 1, [] => none
  | n + 1, c :: cs =>
    if c.utf8Size ≤ n + 1 then
      (splitBytes (n + 1 - c.utf8Size) cs).map fun (front, rest) => (c :: front, rest)
    else none

def takeBytes (n : Nat) (cs : List Char) : Option (List Char) := (splitBytes n cs).map (·.1)

def dropBytes (n : Nat) (cs : List Char) : Option (List Char) := (splitBytes n cs).map (·.2)

end PeerMesh.Text
