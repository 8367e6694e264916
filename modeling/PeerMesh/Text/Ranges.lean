/-! Sets of characters that are given by ranges of their numbers, as the Unicode character database
gives its properties. -/

namespace PeerMesh.Text
set_option autoImplicit false

/-- Whether a code point lies in one of the ranges, both ends included. -/
def inRanges (ranges : List (Nat × Nat)) (c : Nat) : Bool :=
  ranges.any fun r => r.1 ≤ c && c ≤ r.2

end PeerMesh.Text
