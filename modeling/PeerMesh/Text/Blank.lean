import PeerMesh.Text.Ranges

/-! The Unicode property `White_Space`, and taking such characters off the ends of a text. -/

namespace PeerMesh.Text
set_option autoImplicit false

/-- The first and last characters of the runs of white space. -/
def blankRanges : List (Nat × Nat) :=
  [(0x09, 0x0d), (0x20, 0x20), (0x85, 0x85), (0xa0, 0xa0), (0x1680, 0x1680), (0x2000, 0x200a),
    (0x2028, 0x2029), (0x202f, 0x202f), (0x205f, 0x205f), (0x3000, 0x3000)]

def isBlank (c : Char) : Bool := inRanges blankRanges c.toNat

def trim (cs : List Char) : List Char :=
  ((cs.dropWhile isBlank).reverse.dropWhile isBlank).reverse

end PeerMesh.Text
