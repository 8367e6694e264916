import Mathlib.Data.List.Flatten
import Mathlib.Data.List.Nodup
import Mathlib.Data.List.Perm.Subperm
import PeerMesh.Proofs.Wire.Spelling

/-!
# What reading forgets

Many frames are read as one message: they may list its headers in any order and repeatedly, go on
behind the last field, and drag along frames that the message does not use. Writing the message leaves
one form of them, in which the headers stand in order of their bytes.
-/

namespace PeerMesh.Wire
set_option autoImplicit false

/-! ### The order of bytes -/

/-- Lists of bytes are in order if their first bytes are, and if the rest is where these are equal. -/
theorem cons_lt_of_le {m n : Nat} {l l' : List UInt8} (hn : n < 256) (hle : m ≤ n)
    (h : m = n → l < l') : UInt8.ofNat m :: l < UInt8.ofNat n :: l' := by
  have hm : (UInt8.ofNat m).toNat = m := Nat.mod_eq_of_lt (hle.trans_lt hn)
  have hn' : (UInt8.ofNat n).toNat = n := Nat.mod_eq_of_lt hn
  rw [List.cons_lt_cons_iff, UInt8.lt_iff_toNat_lt, ← UInt8.toNat_inj, hm, hn']
  exact hle.lt_or_eq.imp_right fun heq => ⟨heq, h heq⟩

/-- A character of more bytes has a greater first byte; within a length the digits decide. -/
theorem utf8EncodeChar_lt {c d : Char} (h : c < d) (l l' : List UInt8) :
    String.utf8EncodeChar c ++ l < String.utf8EncodeChar d ++ l' := by
  have hlt : c.val.toNat < d.val.toNat := h
  have hd : d.val.toNat < 0x110000 := by
    have hvalid : d.val.toNat < 0xD800 ∨ 0xDFFF < d.val.toNat ∧ d.val.toNat < 0x110000 := d.valid
    omega
  unfold String.utf8EncodeChar
  dsimp only
  generalize c.val.toNat = m at *
  generalize d.val.toNat = n at *
  split_ifs
  all_goals first
    | omega
    | simp only [List.cons_append, List.nil_append]
      repeat refine cons_lt_of_le (by omega) (by omega) fun _ => ?_
      omega

theorem utf8_eq_flatMap (s : String) : utf8 s = s.toList.flatMap String.utf8EncodeChar := by
  have hbytes : s.toByteArray = s.toList.utf8Encode := by
    rw [← String.toByteArray_ofList, String.ofList_toList]
  rw [utf8, hbytes, List.utf8Encode, List.data_toByteArray]

theorem flatMap_utf8EncodeChar_lt {l l' : List Char} (h : l < l') :
    l.flatMap String.utf8EncodeChar < l'.flatMap String.utf8EncodeChar := by
  induction h with
  | @nil c l =>
    rw [List.flatMap_nil, List.flatMap_cons]
    obtain ⟨b, bytes, hc⟩ := List.exists_cons_of_ne_nil (String.utf8EncodeChar_ne_nil (c := c))
    rw [hc]
    exact List.nil_lt_cons _ _
  | rel h => exact utf8EncodeChar_lt h _ _
  | cons _ ih => exact List.append_left_lt ih

/-- The order of strings is that of their bytes. -/
theorem utf8_lt {s t : String} : utf8 s < utf8 t ↔ s < t := by
  have hmono : ∀ {s t : String}, s < t → utf8 s < utf8 t := by
    intro s t h
    rw [utf8_eq_flatMap, utf8_eq_flatMap]
    exact flatMap_utf8EncodeChar_lt h
  refine ⟨fun h => ?_, hmono⟩
  rcases Std.lt_trichotomy s t with hlt | rfl | hgt
  · exact hlt
  · exact absurd h (Std.lt_irrefl)
  · exact absurd (Std.lt_trans h (hmono hgt)) Std.lt_irrefl

/-! ### What frames hold -/

/-- The frames spell a message with these entries, and `trailing` is behind its last field. -/
structure Spelled (frames : Content) (m : Message) (entries : List (String × String))
    (trailing : List UInt8) : Prop where
  limits : m.body.WithinLimits entries
  told : m.body.ToldBy entries
  frames_eq : ∃ head content, frames = head :: content ∧ Supplies content m.body ∧
    head.data.toList = (Layout.ofMessage m entries).bytes ++ trailing

theorem decode_eq_ok {frames : Content} {m : Message} :
    decode frames = .ok m ↔ ∃ entries trailing, Spelled frames m entries trailing := by
  cases frames with
  | nil =>
    refine iff_of_false (fun h => by cases h) ?_
    rintro ⟨_, _, -, -, _, _, h, -⟩
    cases h
  | cons head content =>
    rw [decode, decodeHead_eq_ok]
    constructor
    · rintro ⟨front, trailing, hhead, hform⟩
      obtain ⟨hcontent, entries, hlimits, htold, rfl⟩ := headForm_iff.mp hform
      exact ⟨entries, trailing, hlimits, htold, head, content, rfl, hcontent, hhead⟩
    · rintro ⟨entries, trailing, hlimits, htold, _, _, hframes, hcontent, hhead⟩
      obtain ⟨rfl, rfl⟩ := List.cons.inj hframes
      exact ⟨_, trailing, hhead, headForm_iff.mpr ⟨hcontent, entries, hlimits, htold, rfl⟩⟩

theorem contentFrames_eq_nil {body : Body} (h : body.hasContent = false) : contentFrames body = [] := by
  cases body with
  | whisper | shout => cases h
  | _ => rfl

/-- A message is spelled by its own entries in the frames that are written. -/
theorem spelled_of_encode {m : Message} {frames : Content} (h : encode m = .ok frames) :
    Spelled frames m m.body.entries [] := by
  obtain ⟨hlimits, rfl⟩ := encode_eq_ok.mp h
  exact ⟨hlimits, m.body.toldBy_entries, _, _, rfl, fun _ => rfl, (List.append_nil _).symm⟩

/-! ### Entries and headers -/

section
variable {headers : Headers} {entries : List (String × String)}

/-- The headers are entries that were told, each of them once. -/
theorem subperm_of_told (h : ∀ key, headers.get? key = entries.reverse.lookup key) :
    headers.entries.Subperm entries := by
  refine (List.Nodup.of_map _ headers.nodup_keys).subperm ?_
  rintro ⟨key, value⟩ hmem
  have hlookup := (h key).symm.trans (SortedMap.mem_entries.mp hmem)
  obtain ⟨before, after, hentries, -⟩ := List.lookup_eq_some_iff.mp hlookup
  rw [← List.mem_reverse, hentries]
  exact List.mem_append_right _ List.mem_cons_self

/-- Entries in ascending order of key tell themselves. -/
theorem entries_of_ascending (h : ∀ key, headers.get? key = entries.reverse.lookup key)
    (hasc : entries.Pairwise fun a b => a.1 < b.1) : headers.entries = entries := by
  suffices hsame : headers = ⟨entries, hasc⟩ by rw [hsame]
  apply SortedMap.ext_get?
  intro key
  have htold := get?_foldl_insert_entries entries .empty key
  rw [SortedMap.get?_foldl_insert entries hasc, SortedMap.get?_empty, Option.or_none,
    Option.or_none] at htold
  rw [htold]
  exact h key

theorem entries_inj {entries' : List (String × String)} (h : ∀ entry ∈ entries, '=' ∉ entry.1.toList)
    (h' : ∀ entry ∈ entries', '=' ∉ entry.1.toList)
    (htexts : entries.map entryText = entries'.map entryText) : entries = entries' := by
  have hsplit : ∀ {list : List (String × String)}, (∀ entry ∈ list, '=' ∉ entry.1.toList) →
      (list.map entryText).filterMap splitHeader? = list := by
    intro list hlist
    rw [List.filterMap_map]
    refine (List.filterMap_congr fun entry hentry => ?_).trans List.filterMap_some
    exact splitHeader?_append (hlist entry hentry) entry.2
  rw [← hsplit h, htexts, hsplit h']

end

/-! ### Headers and bytes -/

theorem length_flatMap_le {α β : Type} {l l' : List α} (h : l.Subperm l') (f : α → List β) :
    (l.flatMap f).length ≤ (l'.flatMap f).length := by
  obtain ⟨l₀, hperm, hsublist⟩ := h
  rw [← (hperm.flatMap_right f).length_eq]
  exact (hsublist.flatMap f).length_le

/-- The headers of a HELLO come last. -/
theorem exists_bytes_hello (sequence : UInt16) (h : Hello) : ∃ front, ∀ entries,
    (Layout.ofMessage ⟨sequence, .hello h⟩ entries).bytes =
      front ++ (Layout.ofStrings .headers (entries.map entryText)).bytes := by
  refine ⟨preamble ⟨sequence, .hello h⟩ ++ Layout.bytes (.ofString .endpoint h.endpoint ::
    (Layout.ofStrings .groups h.groups ++ [⟨.status, [h.status]⟩, .ofString .name h.name])), ?_⟩
  intro entries
  rw [Layout.bytes_ofMessage, List.append_assoc, ← Layout.bytes_append, List.cons_append,
    List.append_assoc]
  rfl

theorem withinLimits_own {body : Body} {entries : List (String × String)}
    (h : body.WithinLimits entries) (htold : body.ToldBy entries) : body.WithinLimits body.entries := by
  cases body with
  | hello hello =>
    have hsubperm := subperm_of_told htold
    exact ⟨h.endpoint, h.groups, h.group, h.name, hsubperm.length_le.trans h.headers,
      fun entry hentry => h.key entry (hsubperm.subset hentry),
      fun entry hentry => h.header entry (hsubperm.subset hentry)⟩
  | _ => exact h

/-- No way of telling the headers is shorter than to tell each of them once. -/
theorem length_own_le {m : Message} {entries : List (String × String)} (h : m.body.ToldBy entries) :
    (Layout.ofMessage m m.body.entries).bytes.length ≤ (Layout.ofMessage m entries).bytes.length := by
  obtain ⟨sequence, body⟩ := m
  cases body with
  | hello hello =>
    obtain ⟨front, hbytes⟩ := exists_bytes_hello sequence hello
    have hle := length_flatMap_le (subperm_of_told h)
      fun entry => (Segment.ofString .headers (entryText entry)).bytes
    rw [hbytes, hbytes, List.length_append, List.length_append, Layout.bytes_ofStrings,
      Layout.bytes_ofStrings, Layout.bytes, Layout.bytes, List.map_map, List.map_map,
      List.flatMap_map, List.flatMap_map]
    exact Nat.add_le_add_left (Nat.succ_le_succ hle) _
  | _ => exact h ▸ Nat.le_refl _

namespace Spelled
variable {frames : Content} {m : Message} {entries : List (String × String)} {trailing : List UInt8}

/-- What frames hold is settled by the frames. -/
theorem unique {entries' : List (String × String)} {trailing' : List UInt8}
    (h : Spelled frames m entries trailing) (h' : Spelled frames m entries' trailing') :
    entries = entries' ∧ trailing = trailing' := by
  obtain ⟨hlimits, htold, head, content, rfl, -, hhead⟩ := h
  obtain ⟨hlimits', htold', _, _, hframes, -, hhead'⟩ := h'
  obtain ⟨rfl, rfl⟩ := List.cons.inj hframes
  rw [hhead] at hhead'
  obtain ⟨sequence, body⟩ := m
  cases body with
  | hello hello =>
    obtain ⟨front, hbytes⟩ := exists_bytes_hello sequence hello
    rw [hbytes, hbytes, List.append_assoc, List.append_assoc, List.append_cancel_left_eq] at hhead'
    have hread : ∀ {entries}, hello.WithinLimits entries → ∀ trailing,
        readStrings .headers ((Layout.ofStrings .headers (entries.map entryText)).bytes ++ trailing) =
          .ok (entries.map entryText, trailing) := by
      intro entries hlimits trailing
      refine (accepts_readStrings .headers _ _ _).mpr ⟨_, rfl, (stringsForm_iff .headers).mpr ⟨?_, ?_, rfl⟩⟩
      · rw [List.length_map]
        exact hlimits.headers
      · exact List.forall_mem_map.mpr hlimits.header
    have hsame := hread hlimits trailing
    rw [hhead', hread hlimits'] at hsame
    obtain ⟨htexts, rfl⟩ := Prod.ext_iff.mp (Except.ok.inj hsame)
    exact ⟨(entries_inj hlimits'.key hlimits.key htexts).symm, rfl⟩
  | _ =>
    obtain rfl : entries = [] := htold
    obtain rfl : entries' = [] := htold'
    exact ⟨rfl, List.append_cancel_left hhead'⟩

theorem entries_eq_own (h : Spelled frames m entries trailing)
    (hasc : entries.Pairwise fun a b => utf8 a.1 < utf8 b.1) : entries = m.body.entries := by
  have htold := h.told
  cases hbody : m.body with
  | hello hello =>
    rw [hbody] at htold
    exact (entries_of_ascending htold (hasc.imp utf8_lt.mp)).symm
  | _ =>
    rw [hbody] at htold
    exact htold

/-- Frames are what is written for their message if they hold nothing that is forgotten. -/
theorem eq_iff {frames' : Content} (h : Spelled frames m entries trailing)
    (h' : encode m = .ok frames') : frames' = frames ↔ trailing = [] ∧
      entries.Pairwise (fun a b => utf8 a.1 < utf8 b.1) ∧
      (m.body.hasContent = false → frames.length = 1) := by
  constructor
  · rintro rfl
    obtain ⟨rfl, rfl⟩ := h.unique (spelled_of_encode h')
    obtain ⟨-, rfl⟩ := encode_eq_ok.mp h'
    refine ⟨rfl, ?_, fun hnone => ?_⟩
    · cases m.body with
      | hello hello => exact hello.headers.ascending.imp utf8_lt.mpr
      | _ => exact .nil
    · rw [contentFrames_eq_nil hnone]
      rfl
  · rintro ⟨rfl, hasc, hsingle⟩
    obtain rfl := h.entries_eq_own hasc
    obtain ⟨head, content, rfl, hcontent, hhead⟩ := h.frames_eq
    obtain ⟨-, rfl⟩ := encode_eq_ok.mp h'
    rw [List.append_nil] at hhead
    have hsame : contentFrames m.body = content := by
      cases hc : m.body.hasContent with
      | true => exact hcontent hc
      | false =>
        rw [contentFrames_eq_nil hc, List.eq_nil_of_length_eq_zero (Nat.succ.inj (hsingle hc))]
    rw [hsame, ← hhead]

end Spelled

/-- Reads frames and writes down the message. -/
def reencode (frames : Content) : Option Content :=
  (decode frames).toOption.bind fun m => (encode m).toOption

/-- What is read has one form that is written: it is read as the same message and is the shortest, and
frames are in this form if they hold no more than their message, with the headers in order of their
bytes. So no two messages share a form, and writing again what was read changes nothing any more. -/
theorem normal_form :
    (∀ frames m, decode frames = .ok m → (∃ entries trailing, Spelled frames m entries trailing) ∧
      ∃ head content head', frames = head :: content ∧ head'.size ≤ head.size ∧
        encode m = .ok (head' :: contentFrames m.body) ∧
        decode (head' :: contentFrames m.body) = .ok m ∧
        ∀ entries trailing, Spelled frames m entries trailing →
          (head' :: contentFrames m.body = frames ↔ trailing = [] ∧
            entries.Pairwise (fun a b => utf8 a.1 < utf8 b.1) ∧
            (m.body.hasContent = false → frames.length = 1))) ∧
    (∀ m₁ m₂ frames, encode m₁ = .ok frames → encode m₂ = .ok frames → m₁ = m₂) ∧
    ∀ frames frames', reencode frames = some frames' → reencode frames' = some frames' := by
  refine ⟨fun frames m h => ?_, fun m₁ m₂ frames h₁ h₂ => ?_, fun frames frames' h => ?_⟩
  · obtain ⟨entries, trailing, hspelled⟩ := decode_eq_ok.mp h
    obtain ⟨head, content, hframes, -, hhead⟩ := hspelled.frames_eq
    have hencode := encode_eq_ok.mpr ⟨withinLimits_own hspelled.limits hspelled.told, rfl⟩
    refine ⟨⟨entries, trailing, hspelled⟩, head, content, _, hframes, ?_, hencode,
      decode_of_encode hencode, fun entries trailing hspelled => hspelled.eq_iff hencode⟩
    have hle := length_own_le hspelled.told
    have hsize : head.size = head.data.toList.length := rfl
    rw [hsize, hhead, List.length_append]
    exact hle.trans (Nat.le_add_right _ _)
  · have hread := decode_of_encode h₁
    rw [decode_of_encode h₂] at hread
    exact (Except.ok.inj hread).symm
  · obtain ⟨m, -, hm⟩ := Option.bind_eq_some_iff.mp h
    have hencode : encode m = .ok frames' := by
      cases hm' : encode m with
      | error e =>
        rw [hm'] at hm
        cases hm
      | ok frames =>
        rw [hm'] at hm
        exact congrArg Except.ok (Option.some.inj hm)
    rw [reencode, decode_of_encode hencode]
    exact hm

/-- A HELLO with a key told twice and out of order, a byte behind its last field and a stray frame. -/
theorem normal_form_untidy :
    let start : List UInt8 := [0xAA, 0xA1, 1, 2, 0, 1, 1, 101, 0, 0, 0]
    let untidy : ByteArray := ⟨(start ++ [3, 3, 98, 61, 49, 3, 97, 61, 50, 3, 98, 61, 51, 9]).toArray⟩
    let tidy : ByteArray := ⟨(start ++ [2, 3, 97, 61, 50, 3, 98, 61, 51]).toArray⟩
    let greeting : Message := ⟨1, .hello ⟨"e", [], 0, "", .ofList [("a", "2"), ("b", "3")]⟩⟩
    decode [untidy, .empty] = .ok greeting ∧ encode greeting = .ok [tidy] ∧
      (∃ entries trailing, Spelled [untidy, .empty] greeting entries trailing) ∧
      reencode [untidy, .empty] = some [tidy] ∧ reencode [tidy] = some [tidy] ∧
      ∀ m, encode m = .ok [tidy] → m = greeting := by
  intro start untidy tidy greeting
  have hread : decode [untidy, .empty] = .ok greeting := by decide +kernel
  have hwrite : encode greeting = .ok [tidy] := by decide +kernel
  have hagain : reencode [untidy, .empty] = some [tidy] := by decide +kernel
  exact ⟨hread, hwrite, (normal_form.1 [untidy, .empty] greeting hread).1, hagain,
    normal_form.2.2 [untidy, .empty] [tidy] hagain,
    fun m hm => normal_form.2.1 m greeting [tidy] hm hwrite⟩

end PeerMesh.Wire
