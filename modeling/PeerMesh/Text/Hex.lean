/-! Bytes written as pairs of hexadecimal digits, the high digit first and all letters in one case, and
digits read in either case. -/

namespace PeerMesh.Hex
set_option autoImplicit false

/-- Which letters stand for the digits ten to fifteen. -/
inductive Case
  | upper
  | lower
  deriving DecidableEq

def digit (c : Case) (n : Nat) : Char :=
  if n < 10 then Char.ofNat ('0'.toNat + n)
  else Char.ofNat ((match c with | .upper => 'A' | .lower => 'a').toNat + (n - 10))

/-- The value of a digit, in either case of letters. -/
def value? (c : Char) : Option Nat :=
  if '0' ≤ c ∧ c ≤ '9' then some (c.toNat - '0'.toNat)
  else if 'a' ≤ c ∧ c ≤ 'f' then some (c.toNat - 'a'.toNat + 10)
  else if 'A' ≤ c ∧ c ≤ 'F' then some (c.toNat - 'A'.toNat + 10)
  else none

theorem value?_eq (c : Char) : value? c =
    if 48 ≤ c.toNat ∧ c.toNat ≤ 57 then some (c.toNat - 48)
    else if 97 ≤ c.toNat ∧ c.toNat ≤ 102 then some (c.toNat - 97 + 10)
    else if 65 ≤ c.toNat ∧ c.toNat ≤ 70 then some (c.toNat - 65 + 10)
    else none := rfl

def ofByte (c : Case) (b : UInt8) : List Char := [digit c (b.toNat / 16), digit c (b.toNat % 16)]

def encode (c : Case) (bytes : List UInt8) : List Char := bytes.flatMap (ofByte c)

theorem length_encode (c : Case) (bytes : List UInt8) :
    (encode c bytes).length = 2 * bytes.length := by
  induction bytes with
  | nil => rfl
  | cons b r ih =>
    rw [encode, List.flatMap_cons, List.length_append, ← encode, ih]
    simp [ofByte]
    omega

end PeerMesh.Hex
