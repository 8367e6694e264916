import PeerMesh.Proofs.Wire.Grammar

/-!
# Messages spelled by layouts

What spells a message is the bytes of a layout of it, for any entries that tell its headers.
-/

namespace PeerMesh
set_option autoImplicit false

namespace Body

/-- The entries tell the headers of a body, the last one with a key being what counts. -/
def ToldBy (entries : List (String × String)) : Body → Prop
  | .hello h => ∀ key, h.headers.get? key = entries.reverse.lookup key
  | _ => entries = []

/-- Whether the frames behind the head frame belong to the message. -/
def hasContent : Body → Bool
  | .whisper _ | .shout _ _ => true
  | _ => false

theorem toldBy_entries (body : Body) : body.ToldBy body.entries := by
  cases body with
  | hello h =>
    intro key
    have hget := Wire.get?_foldl_insert_entries h.headers.entries .empty key
    rwa [SortedMap.foldl_insert_entries, SortedMap.get?_empty, Option.or_none] at hget
  | _ => rfl

end Body

namespace Wire

theorem toNat_eq_length {n : UInt8} {k : Nat} : n.toNat = k ↔ k ≤ limit ∧ n = UInt8.ofNat k := by
  constructor
  · rintro rfl
    exact ⟨Nat.le_of_lt_succ n.toNat_lt, (UInt8.ofNat_toNat).symm⟩
  · rintro ⟨hk, rfl⟩
    exact toNat_ofNat_of_le hk

theorem stringForm_iff (field : Field) {s : String} {bytes : List UInt8} : StringForm s bytes ↔
    s.utf8ByteSize ≤ limit ∧ bytes = (Segment.ofString field s).bytes := by
  simp only [StringForm, toNat_eq_length, length_utf8, and_assoc, exists_and_left]
  rw [exists_eq_left]
  rfl

theorem eachForm_iff (field : Field) {list : List String} {bytes : List UInt8} :
    EachForm list bytes ↔ (∀ s ∈ list, s.utf8ByteSize ≤ limit) ∧
      bytes = Layout.bytes (list.map (.ofString field)) := by
  induction list generalizing bytes with
  | nil =>
    constructor
    · intro h
      cases h
      exact ⟨List.forall_mem_nil _, rfl⟩
    · rintro ⟨-, rfl⟩
      exact .nil
  | cons s list ih =>
    rw [List.forall_mem_cons, List.map_cons, Layout.bytes_cons]
    constructor
    · intro h
      cases h with
      | cons hs ht =>
        obtain ⟨hsize, rfl⟩ := (stringForm_iff field).mp hs
        obtain ⟨hsizes, rfl⟩ := ih.mp ht
        exact ⟨⟨hsize, hsizes⟩, rfl⟩
    · rintro ⟨⟨hsize, hsizes⟩, rfl⟩
      exact .cons ((stringForm_iff field).mpr ⟨hsize, rfl⟩) (ih.mpr ⟨hsizes, rfl⟩)

theorem stringsForm_iff (field : Field) {list : List String} {bytes : List UInt8} :
    StringsForm list bytes ↔ list.length ≤ limit ∧ (∀ s ∈ list, s.utf8ByteSize ≤ limit) ∧
      bytes = (Layout.ofStrings field list).bytes := by
  simp only [StringsForm, toNat_eq_length, eachForm_iff field, Layout.bytes_ofStrings]
  constructor
  · rintro ⟨n, items, ⟨hn, rfl⟩, rfl, hitems, rfl⟩
    exact ⟨hn, hitems, rfl⟩
  · rintro ⟨hn, hitems, rfl⟩
    exact ⟨_, _, ⟨hn, rfl⟩, rfl, hitems, rfl⟩

theorem headersForm_iff {headers : Headers} {bytes : List UInt8} : HeadersForm headers bytes ↔
    ∃ entries : List (String × String), (entries.length ≤ limit ∧
      (∀ entry ∈ entries, '=' ∉ entry.1.toList) ∧
      ∀ entry ∈ entries, (entryText entry).utf8ByteSize ≤ limit) ∧
    (∀ key, headers.get? key = entries.reverse.lookup key) ∧
    bytes = (Layout.ofStrings .headers (entries.map entryText)).bytes := by
  simp only [HeadersForm, stringsForm_iff .headers, List.length_map, List.forall_mem_map]
  refine exists_congr fun entries => ?_
  constructor
  · rintro ⟨hkeys, ⟨hn, hsizes, rfl⟩, htold⟩
    exact ⟨⟨hn, hkeys, hsizes⟩, htold, rfl⟩
  · rintro ⟨⟨hn, hkeys, hsizes⟩, htold, rfl⟩
    exact ⟨hkeys, ⟨hn, hsizes, rfl⟩, htold⟩

theorem helloForm_iff {h : Hello} {bytes : List UInt8} : HelloForm h bytes ↔
    ∃ entries, h.WithinLimits entries ∧ (∀ key, h.headers.get? key = entries.reverse.lookup key) ∧
      bytes = (Layout.ofBody entries (.hello h)).bytes := by
  simp only [HelloForm, stringForm_iff .endpoint, stringsForm_iff .groups, headersForm_iff]
  constructor
  · rintro ⟨_, _, _, _, ⟨he, rfl⟩, ⟨hg, hgs, rfl⟩, ⟨hn, rfl⟩, ⟨entries, ⟨hh, hk, hhs⟩, htold, rfl⟩, rfl⟩
    refine ⟨entries, ⟨he, hg, hgs, hn, hh, hk, hhs⟩, htold, ?_⟩
    rw [Layout.ofBody, Layout.bytes_cons, Layout.bytes_append]
    rfl
  · rintro ⟨entries, ⟨he, hg, hgs, hn, hh, hk, hhs⟩, htold, rfl⟩
    refine ⟨_, _, _, _, ⟨he, rfl⟩, ⟨hg, hgs, rfl⟩, ⟨hn, rfl⟩, ⟨entries, ⟨hh, hk, hhs⟩, htold, rfl⟩, ?_⟩
    rw [Layout.ofBody, Layout.bytes_cons, Layout.bytes_append]
    rfl

/-- The content that a message is given is the content that it has, if it has any. -/
def Supplies (content : Content) (body : Body) : Prop :=
  body.hasContent = true → contentFrames body = content

theorem fieldsForm_iff {content : Content} {body : Body} {bytes : List UInt8} :
    FieldsForm content body bytes ↔ Supplies content body ∧ ∃ entries,
      body.WithinLimits entries ∧ body.ToldBy entries ∧ bytes = (Layout.ofBody entries body).bytes := by
  constructor
  · intro h
    cases h with
    | hello h =>
      exact ⟨fun h => Bool.noConfusion h, helloForm_iff.mp h⟩
    | whisper => exact ⟨fun _ => rfl, [], trivial, rfl, rfl⟩
    | shout h =>
      obtain ⟨hsize, rfl⟩ := (stringForm_iff .group).mp h
      exact ⟨fun _ => rfl, [], hsize, rfl, (List.append_nil _).symm⟩
    | join h | leave h =>
      obtain ⟨hsize, rfl⟩ := (stringForm_iff .group).mp h
      exact ⟨fun h => Bool.noConfusion h, [], hsize, rfl, rfl⟩
    | ping | pingOk => exact ⟨fun h => Bool.noConfusion h, [], trivial, rfl, rfl⟩
  · rintro ⟨hcontent, entries, hlimits, htold, rfl⟩
    cases body with
    | hello h => exact .hello (helloForm_iff.mpr ⟨entries, hlimits, htold, rfl⟩)
    | whisper content' =>
      obtain rfl : content' = content := hcontent rfl
      exact .whisper
    | shout group content' =>
      obtain rfl : content' = content := hcontent rfl
      exact .shout ((stringForm_iff .group).mpr ⟨hlimits, List.append_nil _⟩)
    | join group status => exact .join ((stringForm_iff .group).mpr ⟨hlimits, rfl⟩)
    | leave group status => exact .leave ((stringForm_iff .group).mpr ⟨hlimits, rfl⟩)
    | ping => exact .ping
    | pingOk => exact .pingOk

theorem wordForm_ofUInt16 {n : UInt16} {hi lo : UInt8} : WordForm n hi lo ↔ ofUInt16 n = [hi, lo] := by
  have hread := readUInt16_ofUInt16 .sequence n []
  obtain ⟨_, hbytes, hi', lo', rfl, hword⟩ := (accepts_readUInt16 .sequence _ _ _).mp hread
  rw [List.append_nil, List.append_nil] at hbytes
  rw [hbytes]
  constructor
  · intro h
    have hsame : 256 * hi'.toNat + lo'.toNat = 256 * hi.toNat + lo.toNat := hword.symm.trans h
    have hlo : lo.toNat < 256 := lo.toNat_lt
    have hlo' : lo'.toNat < 256 := lo'.toNat_lt
    obtain rfl : hi' = hi := UInt8.toNat_inj.mp (by omega)
    obtain rfl : lo' = lo := UInt8.toNat_inj.mp (by omega)
    rfl
  · intro h
    simp only [List.cons.injEq, and_true] at h
    rw [← h.1, ← h.2]
    exact hword

theorem headForm_iff {content : Content} {m : Message} {bytes : List UInt8} :
    HeadForm content m bytes ↔ Supplies content m.body ∧ ∃ entries, m.body.WithinLimits entries ∧
      m.body.ToldBy entries ∧ bytes = (Layout.ofMessage m entries).bytes := by
  simp only [HeadForm, wordForm_ofUInt16, fieldsForm_iff, Layout.bytes_ofMessage]
  constructor
  · rintro ⟨hi, lo, _, hword, ⟨hcontent, entries, hlimits, htold, rfl⟩, rfl⟩
    refine ⟨hcontent, entries, hlimits, htold, ?_⟩
    rw [preamble, hword]
    rfl
  · rintro ⟨hcontent, entries, hlimits, htold, rfl⟩
    refine ⟨_, _, _, rfl, ⟨hcontent, entries, hlimits, htold, rfl⟩, rfl⟩

end Wire
end PeerMesh
