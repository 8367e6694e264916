import Mathlib.Algebra.GroupWithZero.Nat
import PeerMesh.Identity

/-!
# The text of an identity

An identity is shown as 32 digits, and no two are shown alike. The texts of identities are ordered as
the identities are, which is the order of their bytes. A routing id is read as the identity that it
was made of, and nothing else is read as one.
-/

namespace PeerMesh
set_option autoImplicit false

namespace Hex

theorem toNat_digit {n : Nat} (hn : n < 16) :
    (digit .upper n).toNat = if n < 10 then 48 + n else 55 + n := by
  revert n
  decide

theorem digit_lt_digit {m n : Nat} (hm : m < 16) (hn : n < 16) :
    digit .upper m < digit .upper n ↔ m < n := by
  change (digit .upper m).toNat < (digit .upper n).toNat ↔ m < n
  rw [toNat_digit hm, toNat_digit hn]
  split <;> split <;> omega

theorem digit_inj {m n : Nat} (hm : m < 16) (hn : n < 16) :
    digit .upper m = digit .upper n ↔ m = n := by
  rw [← Char.toNat_inj, toNat_digit hm, toNat_digit hn]
  split <;> split <;> omega

theorem encode_cons (c : Case) (b : UInt8) (bytes : List UInt8) :
    encode c (b :: bytes) = digit c (b.toNat / 16) :: digit c (b.toNat % 16) :: encode c bytes := rfl

/-- Digits order what they spell as the bytes are ordered. -/
theorem encode_lt_encode {a b : List UInt8} :
    encode .upper a < encode .upper b ↔ a < b := by
  induction a generalizing b with
  | nil =>
    cases b with
    | nil => exact iff_of_false (List.not_lt_nil _) (List.not_lt_nil _)
    | cons y b => exact iff_of_true (List.nil_lt_cons ..) (List.nil_lt_cons ..)
  | cons x a ih =>
    cases b with
    | nil => exact iff_of_false (List.not_lt_nil _) (List.not_lt_nil _)
    | cons y b =>
      have hx : x.toNat < 256 := x.toNat_lt
      have hy : y.toNat < 256 := y.toNat_lt
      -- Two digits decide as the byte does: the high one first, and the low one if they are equal.
      rw [encode_cons, encode_cons, List.cons_lt_cons_iff, List.cons_lt_cons_iff,
        List.cons_lt_cons_iff, ih, digit_lt_digit (by omega) (by omega),
        digit_lt_digit (by omega) (by omega), digit_inj (by omega) (by omega),
        digit_inj (by omega) (by omega), UInt8.lt_iff_toNat_lt, ← UInt8.toNat_inj]
      by_cases htail : a < b <;> simp only [htail, and_true, and_false, or_false] <;> omega

end Hex

namespace PeerId

theorem length_text (id : PeerId) : id.text.length = 32 := by
  rw [text, String.length_ofList, Hex.length_encode, id.length_bytes]

theorem text_lt_text {a b : PeerId} : a.text < b.text ↔ a < b := by
  rw [String.lt_iff, text, text, String.toList_ofList, String.toList_ofList, Hex.encode_lt_encode]
  exact Iff.rfl

theorem text_inj {a b : PeerId} : a.text = b.text ↔ a = b := by
  constructor
  · intro h
    -- Of two texts that are equal neither comes first, so neither identity does.
    have hab : ¬ a < b := fun hlt => Std.lt_irrefl (h ▸ text_lt_text.mpr hlt)
    have hba : ¬ b < a := fun hlt => Std.lt_irrefl (h ▸ text_lt_text.mpr hlt)
    exact Std.le_antisymm (Std.not_lt.mp hba) (Std.not_lt.mp hab)
  · exact congrArg text

theorem ofRoutingId?_eq_some {r : List UInt8} {id : PeerId} :
    ofRoutingId? r = some id ↔ r = id.routingId := by
  cases r with
  | nil => exact iff_of_false (fun h => by cases h) (fun h => by cases h)
  | cons marker bytes =>
    rw [ofRoutingId?, routingId, List.cons.injEq, ← ofBytes?_eq_some]
    split
    · exact (and_iff_right ‹_›).symm
    · exact iff_of_false (fun h => by cases h) fun h => ‹¬ _› h.1

end PeerId
end PeerMesh
