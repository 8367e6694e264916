import Mathlib.Algebra.GroupWithZero.Nat
import Mathlib.Data.List.Basic
import PeerMesh.Tcp.Address

/-!
# Reading back the address of a socket

Numbers are written without leading zeros and read as far as their digits go, so what follows a
number must not start with a digit. In the text of an address of version 4 it never does, and the
endpoint made of an address and a port is read back as these.
-/

namespace PeerMesh
set_option autoImplicit false

/-! ### Numbers -/

namespace Text.Reader
variable {form : Numeral} {n : Nat} {rest : List Char}

/-- Of the numbers only zero is written with a zero in front. -/
theorem head?_toDigits (hn : 0 < n) : (Nat.toDigits 10 n).head? ≠ some '0' := by
  induction n using Nat.strongRecOn with
  | _ n ih =>
    by_cases hsmall : n < 10
    · rw [Nat.toDigits_of_lt_base hsmall, List.head?_cons, Ne, Option.some.injEq,
        Nat.digitChar_eq_zero]
      omega
    · rw [Nat.toDigits_of_base_le (by decide) (by omega),
        List.head?_append_of_ne_nil _ Nat.toDigits_ne_nil]
      exact ih (n / 10) (by omega) (by omega)

theorem digit?_ten (c : Char) :
    digit? 10 c = if c.isDigit then some (c.toNat - 48) else none := by
  have hdigit : c.isDigit = true ↔ 48 ≤ c.toNat ∧ c.toNat ≤ 57 := by
    rw [Char.isDigit, Bool.and_eq_true, decide_eq_true_eq, decide_eq_true_eq]
    exact Iff.rfl
  rw [digit?, Hex.value?_eq]
  simp only [hdigit]
  grind

theorem isSome_digit?_ten (c : Char) : (digit? 10 c).isSome = c.isDigit := by
  rw [digit?_ten]
  cases c.isDigit <;> rfl

theorem ofDigits_ten {digits : List Char} (h : ∀ c ∈ digits, c.isDigit = true) :
    ofDigits 10 digits = Nat.ofDigitChars 10 digits 0 := by
  rw [ofDigits, Nat.ofDigitChars_eq_foldl]
  refine List.foldl_ext _ _ 0 fun value c hc => ?_
  rw [digit?_ten, if_pos (h c hc), Nat.mul_comm]
  rfl

/-- A number is read up to the first character that is no digit. -/
theorem number_toDigits (hbase : form.base = 10) (hgreatest : n ≤ form.greatest)
    (hmost : ∀ most, form.most = some most → 0 < most ∧ n < 10 ^ most)
    (hrest : ∀ c, rest.head? = some c → c.isDigit = false) :
    number form (Nat.toDigits 10 n ++ rest) = some (n, rest) := by
  have hdigits : ∀ c ∈ Nat.toDigits 10 n, c.isDigit = true := fun c hc =>
    Nat.isDigit_of_mem_toDigits (by decide) (by decide) hc
  have htake : (Nat.toDigits 10 n ++ rest).takeWhile (fun c => (digit? form.base c).isSome) =
      Nat.toDigits 10 n := by
    simp only [hbase, isSome_digit?_ten]
    rw [List.takeWhile_append_of_pos hdigits]
    cases rest with
    | nil => exact List.append_nil _
    | cons c rest => rw [List.takeWhile_cons, hrest c rfl, if_neg nofun, List.append_nil]
  have hvalue : ofDigitsUpTo (form.greatest + 1) form.base (Nat.toDigits 10 n) = n := by
    rw [hbase, ofDigitsUpTo_eq_min (by decide), ofDigits_ten hdigits,
      Nat.ofDigitChars_ten_toDigits]
    omega
  have hlong : form.most.any ((Nat.toDigits 10 n).length > ·) = false := by
    cases hm : form.most with
    | none => rfl
    | some most =>
      obtain ⟨hpos, hsmall⟩ := hmost most hm
      have hlength := (Nat.length_toDigits_le_iff (by decide) hpos).mpr hsmall
      exact decide_eq_false (Nat.not_lt.mpr hlength)
  have hzero : (Nat.toDigits 10 n).length > 1 → (Nat.toDigits 10 n).head? ≠ some '0' := by
    intro hlength
    refine head?_toDigits (Nat.pos_of_ne_zero ?_)
    rintro rfl
    exact absurd hlength (by decide)
  unfold number
  dsimp only
  rw [htake, hvalue, hlong, List.drop_left]
  rw [if_neg]
  simp only [Bool.or_eq_true, Bool.and_eq_true, decide_eq_true_eq, List.isEmpty_iff]
  rintro (((hnil | hfalse) | hover) | ⟨⟨-, hlength⟩, hhead⟩)
  · exact Nat.toDigits_ne_nil hnil
  · cases hfalse
  · exact absurd hgreatest (by omega)
  · exact hzero hlength hhead

end Text.Reader

/-! ### Addresses of version 4 -/

namespace Tcp
open Text.Reader

theorem toList_text (ip : IPv4) : ip.text.toList =
    Nat.toDigits 10 ip.a.toNat ++ '.' :: (Nat.toDigits 10 ip.b.toNat ++
      '.' :: (Nat.toDigits 10 ip.c.toNat ++ '.' :: Nat.toDigits 10 ip.d.toNat)) := by
  rw [IPv4.text, String.toList_intercalate]
  simp [List.intercalate]

theorem number_octet (b : UInt8) {rest : List Char}
    (hrest : ∀ c, rest.head? = some c → c.isDigit = false) :
    number octet (Nat.toDigits 10 b.toNat ++ rest) = some (b.toNat, rest) := by
  have hb : b.toNat < 256 := b.toNat_lt
  refine number_toDigits rfl (Nat.le_of_lt_succ hb) ?_ hrest
  intro most hmost
  cases hmost
  exact ⟨by decide, Nat.lt_of_lt_of_le hb (by decide)⟩

theorem readIPv4_text (ip : IPv4) {rest : List Char}
    (hrest : ∀ c, rest.head? = some c → c.isDigit = false) :
    readIPv4 (ip.text.toList ++ rest) = some (ip, rest) := by
  have hdot : ∀ more c, ('.' :: more : List Char).head? = some c → c.isDigit = false := by
    intro more c hc
    cases hc
    rfl
  rw [toList_text, readIPv4]
  simp only [List.append_assoc, List.cons_append, number_octet _ (hdot _), Option.bind_eq_bind,
    Option.bind_some, char, ↓reduceIte, number_octet _ hrest, UInt8.ofNat_toNat, Option.pure_def]

theorem readPort_toDigits (port : UInt16) :
    readPort (':' :: Nat.toDigits 10 port.toNat) = some (port, []) := by
  have hnumber : number portNumber (Nat.toDigits 10 port.toNat ++ []) = some (port.toNat, []) :=
    number_toDigits rfl (Nat.le_of_lt_succ port.toNat_lt) nofun nofun
  rw [List.append_nil] at hnumber
  simp only [readPort, char, ↓reduceIte, Option.bind_eq_bind, Option.bind_some, hnumber,
    UInt16.ofNat_toNat, Option.pure_def]

theorem endpoint_v4 (ip : IPv4) (zone : Nat) (port : UInt16) :
    SocketAddress.endpoint ⟨.v4 ip, zone, port⟩ =
      scheme ++ (ip.text ++ ":" ++ toString port.toNat) := rfl

/-- An endpoint made of an address of version 4 is read back. -/
theorem ofEndpoint?_endpoint (ip : IPv4) (port : UInt16) :
    SocketAddress.ofEndpoint? (SocketAddress.endpoint ⟨.v4 ip, 0, port⟩) =
      some ⟨.v4 ip, 0, port⟩ := by
  have hcolon : ∀ c, (':' :: Nat.toDigits 10 port.toNat).head? = some c → c.isDigit = false := by
    intro c hc
    cases hc
    rfl
  have htext : (SocketAddress.endpoint ⟨.v4 ip, 0, port⟩).toList =
      scheme.toList ++ (ip.text.toList ++ ':' :: Nat.toDigits 10 port.toNat) := by
    simp [endpoint_v4]
  have hread : readSocketV4 (ip.text.toList ++ ':' :: Nat.toDigits 10 port.toNat) =
      some (⟨.v4 ip, 0, port⟩, []) := by
    simp only [readSocketV4, readIPv4_text ip hcolon, readPort_toDigits, Option.bind_eq_bind,
      Option.bind_some, Option.pure_def]
  have hprefix : scheme.toList.isPrefixOf
      (scheme.toList ++ (ip.text.toList ++ ':' :: Nat.toDigits 10 port.toNat)) = true :=
    List.isPrefixOf_iff_prefix.mpr (List.prefix_append _ _)
  have hdrop : scheme.length = scheme.toList.length := String.length_toList.symm
  rw [SocketAddress.ofEndpoint?, htext]
  rw [if_pos hprefix, hdrop, List.drop_left, SocketAddress.parse?, whole, hread]
  rfl

end Tcp
end PeerMesh
