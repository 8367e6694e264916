import Mathlib.Data.List.TakeDrop
import PeerMesh.Proofs.Wire.Layout

/-!
# Reading back what was written

Each reader gives back what the writer of the same name wrote and leaves the bytes behind it alone.
A message that has a wire form is therefore what its frames spell.
-/

namespace PeerMesh.Wire
set_option autoImplicit false

theorem takeExact_append {α : Type} (front rest : List α) :
    takeExact front.length (front ++ rest) = some (front, rest) := by
  induction front with
  | nil => cases rest <;> rfl
  | cons a front ih =>
    rw [List.length_cons, List.cons_append, takeExact, ih]
    rfl

theorem toNat_ofNat_of_le {n : Nat} (h : n ≤ limit) : (UInt8.ofNat n).toNat = n := by
  have hlimit : limit = 255 := rfl
  apply Nat.mod_eq_of_lt
  omega

/-! ### Numbers -/

theorem readUInt16_ofUInt16 (field : Field) (n : UInt16) (rest : List UInt8) :
    readUInt16 field (ofUInt16 n ++ rest) = .ok (n, rest) := by
  have hjoin : (n >>> 8).toUInt8.toUInt16 <<< 8 ||| n.toUInt8.toUInt16 = n := by
    apply UInt16.toNat_inj.mp
    have hn : n.toNat < 65536 := n.toNat_lt
    have hhigh : n.toNat / 256 < 256 := by omega
    have hlow : n.toNat % 256 < 2 ^ 8 := by omega
    have hshift : UInt16.toNat 8 % 16 = 8 := rfl
    simp only [UInt16.toNat_or, UInt16.toNat_shiftLeft, UInt8.toNat_toUInt16,
      UInt16.toNat_toUInt8, UInt16.toNat_shiftRight, hshift, Nat.shiftRight_eq_div_pow,
      Nat.shiftLeft_eq, Nat.reducePow]
    rw [Nat.mod_eq_of_lt hhigh, Nat.mod_eq_of_lt (by omega : n.toNat / 256 * 256 < 65536),
      ← Nat.shiftLeft_eq _ 8, ← Nat.shiftLeft_add_eq_or_of_lt hlow, Nat.shiftLeft_eq]
    omega
  change Except.ok ((n >>> 8).toUInt8.toUInt16 <<< 8 ||| n.toUInt8.toUInt16, rest) = _
  rw [hjoin]

/-! ### Strings -/

theorem length_utf8 (s : String) : (utf8 s).length = s.utf8ByteSize := by
  rw [utf8, Array.length_toList]
  rfl

theorem fromUTF8?_utf8 (s : String) : String.fromUTF8? ⟨(utf8 s).toArray⟩ = some s := by
  have hbytes : (⟨(utf8 s).toArray⟩ : ByteArray) = s.toByteArray := rfl
  rw [hbytes, String.fromUTF8?, dif_pos s.isValidUTF8]
  rfl

theorem readString_ofString {field : Field} {s : String} {bytes : List UInt8}
    (h : ofString field s = .ok bytes) (rest : List UInt8) :
    readString field (bytes ++ rest) = .ok (s, rest) := by
  obtain ⟨hsize, rfl⟩ := ofString_eq_ok.mp h
  have hlength : (UInt8.ofNat s.utf8ByteSize).toNat = (utf8 s).length := by
    rw [length_utf8, toNat_ofNat_of_le hsize]
  have htake : takeExact (UInt8.ofNat s.utf8ByteSize).toNat (utf8 s ++ rest) = some (utf8 s, rest) := by
    rw [hlength, takeExact_append]
  simp only [readString, List.cons_append, readByte, bind, Except.bind, htake, fromUTF8?_utf8]

theorem readEach_ofEach {field : Field} {list : List String} {bytes : List UInt8}
    (h : ofEach field list = .ok bytes) (rest : List UInt8) :
    readEach field list.length (bytes ++ rest) = .ok (list, rest) := by
  induction list generalizing bytes with
  | nil =>
    cases h
    rfl
  | cons s list ih =>
    rw [ofEach] at h
    obtain ⟨head, hs, h⟩ := bind_eq_ok.mp h
    obtain ⟨tail, ht, h⟩ := bind_eq_ok.mp h
    cases h
    rw [List.length_cons, readEach, List.append_assoc, readString_ofString hs]
    simp only [bind, Except.bind, ih ht]
    rfl

theorem readStrings_ofStrings {field : Field} {list : List String} {bytes : List UInt8}
    (h : ofStrings field list = .ok bytes) (rest : List UInt8) :
    readStrings field (bytes ++ rest) = .ok (list, rest) := by
  unfold ofStrings at h
  split at h
  · rename_i hsize
    obtain ⟨items, hitems, h⟩ := bind_eq_ok.mp h
    cases h
    have hread := readEach_ofEach hitems rest
    rw [← toNat_ofNat_of_le hsize] at hread
    exact hread
  · cases h

/-! ### Headers -/

theorem splitHeader?_append {key : String} (h : '=' ∉ key.toList) (value : String) :
    splitHeader? (key ++ "=" ++ value) = some (key, value) := by
  have hlist : (key ++ "=" ++ value).toList = key.toList ++ '=' :: value.toList := by
    rw [String.toList_append, String.toList_append, List.append_assoc]
    rfl
  have hkey : ∀ c ∈ key.toList, decide (c ≠ '=') = true := by
    intro c hc
    apply decide_eq_true
    intro heq
    rw [heq] at hc
    exact h hc
  have hspan : (key.toList ++ '=' :: value.toList).span (fun c => decide (c ≠ '=')) =
      (key.toList, '=' :: value.toList) := by
    rw [List.span_eq_takeWhile_dropWhile, List.takeWhile_append_of_pos hkey,
      List.dropWhile_append_of_pos hkey]
    simp
  rw [splitHeader?, hlist, hspan]
  simp only [String.ofList_toList]

theorem readEachHeader_ofEachHeader {list : List (String × String)} {bytes : List UInt8}
    (h : ofEachHeader list = .ok bytes) (headers : Headers) (rest : List UInt8) :
    readEachHeader list.length headers (bytes ++ rest) =
      .ok (list.foldl (fun headers e => headers.insert e.1 e.2) headers, rest) := by
  induction list generalizing bytes headers with
  | nil =>
    cases h
    rfl
  | cons e list ih =>
    obtain ⟨key, value⟩ := e
    rw [ofEachHeader] at h
    obtain ⟨head, hs, h⟩ := bind_eq_ok.mp h
    obtain ⟨tail, ht, h⟩ := bind_eq_ok.mp h
    cases h
    unfold ofHeader at hs
    split at hs
    · cases hs
    · rename_i hkey
      rw [List.length_cons, readEachHeader, List.append_assoc, readString_ofString hs]
      simp only [bind, Except.bind, splitHeader?_append hkey, ih ht]
      rfl

theorem readHeaders_ofHeaders {headers : Headers} {bytes : List UInt8}
    (h : ofHeaders headers = .ok bytes) (rest : List UInt8) :
    readHeaders (bytes ++ rest) = .ok (headers, rest) := by
  unfold ofHeaders at h
  split at h
  · rename_i hsize
    obtain ⟨items, hitems, h⟩ := bind_eq_ok.mp h
    cases h
    have hread := readEachHeader_ofEachHeader hitems .empty rest
    rw [SortedMap.foldl_insert_entries, ← SortedMap.size, ← toNat_ofNat_of_le hsize] at hread
    exact hread
  · cases h

/-! ### Messages -/

theorem readFields_ofFields {body : Body} {bytes : List UInt8} (h : ofFields body = .ok bytes) :
    readFields (contentFrames body) body.command bytes = .ok (body, []) := by
  cases body with
  | hello hello =>
    rw [ofFields] at h
    obtain ⟨endpoint, he, h⟩ := bind_eq_ok.mp h
    obtain ⟨groups, hg, h⟩ := bind_eq_ok.mp h
    obtain ⟨name, hn, h⟩ := bind_eq_ok.mp h
    obtain ⟨headers, hh, h⟩ := bind_eq_ok.mp h
    cases h
    have hheaders := readHeaders_ofHeaders hh []
    rw [List.append_nil] at hheaders
    simp only [readFields, Body.command, readHello, List.append_assoc, List.cons_append, bind,
      Except.bind, readString_ofString he, readStrings_ofStrings hg, readByte,
      readString_ofString hn, hheaders]
    rfl
  | shout group content =>
    have hgroup := readString_ofString h []
    rw [List.append_nil] at hgroup
    simp only [readFields, Body.command, bind, Except.bind, hgroup]
    rfl
  | join group status =>
    rw [ofFields] at h
    obtain ⟨group', hg, h⟩ := bind_eq_ok.mp h
    cases h
    simp only [readFields, Body.command, bind, Except.bind, readString_ofString hg, readByte]
    rfl
  | leave group status =>
    rw [ofFields] at h
    obtain ⟨group', hg, h⟩ := bind_eq_ok.mp h
    cases h
    simp only [readFields, Body.command, bind, Except.bind, readString_ofString hg, readByte]
    rfl
  | whisper | ping | pingOk =>
    cases h
    rfl

theorem decode_of_encode {m : Message} {frames : Content} (h : encode m = .ok frames) :
    decode frames = .ok m := by
  obtain ⟨head, hhead, h⟩ := bind_eq_ok.mp h
  obtain ⟨fields, hfields, hhead⟩ := bind_eq_ok.mp hhead
  cases h
  cases hhead
  have hread : readHead (contentFrames m.body) (preamble m ++ fields) = .ok (m, []) := by
    have hbody := readFields_ofFields hfields
    have hcode : Command.ofCode? m.body.command.code = some m.body.command :=
      Command.ofCode?_eq_some.mpr rfl
    simp only [readHead, preamble, List.append_assoc, bind, Except.bind, readUInt16_ofUInt16]
    simp only [List.cons_append, List.nil_append, readByte, hcode, ne_eq, not_true_eq_false, if_false,
      readUInt16_ofUInt16, hbody]
    rfl
  rw [decode, decodeHead]
  change Except.map (·.1) (readHead _ (preamble m ++ fields)) = _
  rw [hread]
  rfl

/-- Of what a node says about its groups, only a group with too long a name has no wire form. -/
theorem encode_join {group : String} (h : group.utf8ByteSize ≤ limit) (sequence : UInt16)
    (status : UInt8) : ∃ frames, encode ⟨sequence, .join group status⟩ = .ok frames :=
  ⟨_, encode_eq_ok.mpr ⟨h, rfl⟩⟩

theorem encode_leave {group : String} (h : group.utf8ByteSize ≤ limit) (sequence : UInt16)
    (status : UInt8) : ∃ frames, encode ⟨sequence, .leave group status⟩ = .ok frames :=
  ⟨_, encode_eq_ok.mpr ⟨h, rfl⟩⟩

/-- A HELLO has a wire form if each of its parts has. -/
theorem encode_hello {h : Hello} (hendpoint : h.endpoint.utf8ByteSize ≤ limit)
    (hname : h.name.utf8ByteSize ≤ limit) (hgroups : h.groups.length ≤ limit)
    (hgroup : ∀ group ∈ h.groups, group.utf8ByteSize ≤ limit) (hheaders : h.headers.size ≤ limit)
    (hheader : ∀ {key value}, h.headers.get? key = some value →
      '=' ∉ key.toList ∧ key.utf8ByteSize + 1 + value.utf8ByteSize ≤ limit) (sequence : UInt16) :
    ∃ frames, encode ⟨sequence, .hello h⟩ = .ok frames := by
  have hentry : ∀ entry ∈ h.headers.entries,
      '=' ∉ entry.1.toList ∧ (entryText entry).utf8ByteSize ≤ limit := by
    rintro ⟨key, value⟩ hmem
    rw [entryText, String.utf8ByteSize_append, String.utf8ByteSize_append]
    exact hheader (SortedMap.mem_entries.mp hmem)
  have hlimits : h.WithinLimits h.headers.entries :=
    ⟨hendpoint, hgroups, hgroup, hname, hheaders, fun entry hmem => (hentry entry hmem).1,
      fun entry hmem => (hentry entry hmem).2⟩
  exact ⟨_, encode_eq_ok.mpr ⟨hlimits, rfl⟩⟩

theorem le_of_encode_hello {sequence : UInt16} {h : Hello} {frames : Content}
    (hf : encode ⟨sequence, .hello h⟩ = .ok frames) :
    h.endpoint.utf8ByteSize ≤ limit ∧ h.name.utf8ByteSize ≤ limit := by
  obtain ⟨hlimits, -⟩ := encode_eq_ok.mp hf
  exact ⟨hlimits.endpoint, hlimits.name⟩

/-- Whether frames are those of a HELLO. -/
def isHello (content : Content) : Bool := (decode content).toOption.any Message.isHello

theorem isHello_of_decode {content : Content} {m : Message} (h : decode content = .ok m) :
    isHello content = m.isHello := by
  rw [isHello, h]
  rfl

/-! ### There and back -/

/-- What has a wire form is read back whole, and is the only message of that form. -/
theorem decode_encode {m : Message} {frames : Content} (h : encode m = .ok frames) :
    decode frames = .ok m ∧ ∀ {m' : Message}, encode m' = .ok frames → m' = m := by
  have hread := decode_of_encode h
  refine ⟨hread, fun h' => ?_⟩
  have hread' := decode_of_encode h'
  rw [hread] at hread'
  exact (Except.ok.inj hread').symm

/-- A crowded HELLO and a SHOUT whose frames are empty or look like messages. -/
theorem decode_encode_crowded :
    let long := String.ofList (List.replicate 255 'z')
    let headers : Headers := .ofList [("", ""), ("key", "a=b="), ("empty", "")]
    let greeting : Message := ⟨1, .hello ⟨long, List.replicate 254 "b" ++ ["a"], 255, "", headers⟩⟩
    let shouted : Message := ⟨65535, .shout "" [.empty, ⟨#[0xAA, 0xA1, 7, 2, 0, 1]⟩]⟩
    (∃ frames, encode greeting = .ok frames ∧ decode frames = .ok greeting) ∧
      ∃ frames, encode shouted = .ok frames ∧ decode frames = .ok shouted := by
  intro long headers greeting shouted
  constructor
  · have hfits : ∃ frames, encode greeting = .ok frames := by
      refine encode_hello (by decide +kernel) (by decide) (by decide +kernel) ?_ (by decide) ?_ 1
      · intro group hgroup
        rcases List.mem_append.mp hgroup with h | h
        · rw [List.eq_of_mem_replicate h]
          decide
        · rw [List.mem_singleton.mp h]
          decide
      · intro key value h
        have hmem := SortedMap.mem_entries.mpr h
        change (key, value) ∈ [("", ""), ("empty", ""), ("key", "a=b=")] at hmem
        simp only [List.mem_cons, Prod.mk.injEq, List.not_mem_nil, or_false] at hmem
        rcases hmem with ⟨rfl, rfl⟩ | ⟨rfl, rfl⟩ | ⟨rfl, rfl⟩ <;> decide
    obtain ⟨frames, hframes⟩ := hfits
    exact ⟨frames, hframes, (decode_encode hframes).1⟩
  · exact ⟨_, rfl, (decode_encode rfl).1⟩

end PeerMesh.Wire
