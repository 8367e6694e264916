import PeerMesh.Text.Hex

/-! Reading values off the front of a text. -/

namespace PeerMesh.Text
set_option autoImplicit false

/-- Reads a value off the front of a text and leaves the rest. -/
abbrev Reader (α : Type) := List Char → Option (α × List Char)

namespace Reader

/-- The value of a text that a reader reads to its end. -/
def whole {α : Type} (read : Reader α) (cs : List Char) : Option α :=
  match read cs with
  | some (a, []) => some a
  | _ => none

def char (c : Char) (cs : List Char) : Option (List Char) :=
  match cs with
  | d :: rest => if d = c then some rest else none
  | [] => none

def word : List Char → List Char → Option (List Char)
  | [], cs => some cs
  | c :: more, cs => (char c cs).bind (word more)

structure Numeral where
  base : Nat
  /-- The most digits; any number of them if absent. -/
  most : Option Nat
  /-- Whether a number of several digits may start with zero. -/
  leadingZero : Bool
  greatest : Nat

def digit? (base : Nat) (c : Char) : Option Nat := (Hex.value? c).filter (· < base)

def ofDigits (base : Nat) (digits : List Char) : Nat :=
  digits.foldl (fun n c => n * base + (digit? base c).getD 0) 0

/-- The number that digits spell, or a limit if it is beyond that. However many digits there are, no
number on the way is much beyond it. -/
def ofDigitsUpTo (limit base : Nat) (digits : List Char) : Nat :=
  digits.foldl (fun n c => min limit (n * base + (digit? base c).getD 0)) 0

theorem min_min_mul_add {base : Nat} (pos : 0 < base) (limit n d : Nat) :
    min limit (min limit n * base + d) = min limit (n * base + d) := by
  by_cases h : n ≤ limit
  · rw [Nat.min_eq_right h]
  · have : limit ≤ limit * base := Nat.le_mul_of_pos_right limit pos
    have : limit * base ≤ n * base := Nat.mul_le_mul_right base (by omega)
    rw [Nat.min_eq_left (show limit ≤ n by omega)]
    omega

theorem ofDigitsUpTo_eq_min {base : Nat} (pos : 0 < base) (limit : Nat) (digits : List Char) :
    ofDigitsUpTo limit base digits = min limit (ofDigits base digits) := by
  suffices ∀ n, digits.foldl (fun n c => min limit (n * base + (digit? base c).getD 0)) (min limit n) =
      min limit (digits.foldl (fun n c => n * base + (digit? base c).getD 0) n) by
    simpa [ofDigitsUpTo, ofDigits] using this 0
  induction digits with
  | nil => simp
  | cons c rest ih => intro n; simp only [List.foldl_cons, min_min_mul_add pos, ih]

def number (form : Numeral) : Reader Nat := fun cs =>
  let digits := cs.takeWhile fun c => (digit? form.base c).isSome
  let n := ofDigitsUpTo (form.greatest + 1) form.base digits
  if digits.isEmpty || form.most.any (digits.length > ·) || n > form.greatest ||
      (!form.leadingZero && digits.length > 1 && digits.head? = some '0') then none
  else some (n, cs.drop digits.length)

/-- The character whose number hexadecimal digits spell. -/
def scalar? (digits : List Char) : Option Char :=
  let n := ofDigits 16 digits
  if digits.all (fun c => (digit? 16 c).isSome) && n.isValidChar then some (.ofNat n) else none

end Reader
end PeerMesh.Text
