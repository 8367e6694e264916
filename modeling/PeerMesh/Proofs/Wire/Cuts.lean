import PeerMesh.Proofs.Wire.Spelling

/-!
# Cutting a head frame short

The parts of a head frame cover its layout segment by segment. A cut falls into one segment: the parts
before it are there in full, and its own part is not, so that nothing but the length is ever looked at.
-/

namespace PeerMesh.Wire
set_option autoImplicit false

/-! ### Parts and segments -/

namespace Part

theorem width_pos (p : Part) (bytes : List UInt8) : 0 < p.width bytes := by
  cases p <;> cases bytes <;> simp only [width] <;> omega

/-- The first byte settles how long a part is. -/
theorem width_take (p : Part) (bytes : List UInt8) {k : Nat} (hk : 0 < k) :
    p.width (bytes.take k) = p.width bytes := by
  obtain ⟨k, rfl⟩ := Nat.exists_eq_succ_of_ne_zero hk.ne'
  cases bytes with
  | nil => rfl
  | cons n bytes => cases p <;> rfl

theorem Takes.length_eq {p : Part} {front : List UInt8} {more : List Part} (h : p.Takes front more) :
    front.length = p.width front := by
  have hstring : ∀ {s bytes}, StringForm s bytes → ∃ n text, bytes = n :: text ∧
      text.length = n.toNat := by
    rintro s _ ⟨n, hn, rfl⟩
    exact ⟨n, utf8 s, rfl, hn.symm⟩
  cases h with
  | string h | header h =>
    obtain ⟨n, text, rfl, hn⟩ := hstring h
    rw [List.length_cons, hn]
    exact Nat.add_comm _ _
  | _ => rfl

theorem Takes.refuses_take {p : Part} {front : List UInt8} {more : List Part}
    (h : p.Takes front more) {k : Nat} (hk : k < front.length) :
    p.Refuses (front.take k) (.truncated p.field) := by
  apply Refuses.short
  rw [List.length_take_of_le hk.le]
  rcases Nat.eq_zero_or_pos k with rfl | hpos
  · exact p.width_pos _
  · rw [p.width_take front hpos, ← h.length_eq]
    exact hk

end Part

/-- The parts, with those that they announce, are in good form in the segments of a layout. -/
inductive Covers : List Part → Layout → Prop
  | nil : Covers [] []
  | cons {p later front more layout} (hp : p.Takes front more) (h : Covers (more ++ later) layout) :
    Covers (p :: later) (⟨p.field, front⟩ :: layout)

namespace Covers

theorem append {parts parts' : List Part} {layout layout' : Layout} (h : Covers parts layout)
    (h' : Covers parts' layout') : Covers (parts ++ parts') (layout ++ layout') := by
  induction h with
  | nil => exact h'
  | cons hp _ ih =>
    rw [List.append_assoc] at ih
    exact .cons hp ih

/-- Cut short, the parts fail in the segment that the cut falls into. -/
theorem fails_take {parts : List Part} {layout : Layout} (h : Covers parts layout) {k : Nat}
    (hk : k < layout.bytes.length) : ∃ field, layout.fieldAt? k = some field ∧
      Fails parts (layout.bytes.take k) (.truncated field) := by
  induction h generalizing k with
  | nil => cases hk
  | @cons p later front more layout hp _ ih =>
    rw [Layout.bytes_cons, List.length_append] at hk
    rw [Layout.bytes_cons, Layout.fieldAt?]
    dsimp only at hk ⊢
    by_cases hfront : k < front.length
    · rw [if_pos hfront, List.take_append_of_le_length hfront.le]
      exact ⟨p.field, rfl, .here (hp.refuses_take hfront)⟩
    · obtain ⟨field, hfield, hfails⟩ := ih (k := k - front.length) (by omega)
      rw [if_neg hfront, List.take_append, List.take_of_length_le (Nat.le_of_not_lt hfront)]
      exact ⟨field, hfield, .there hp hfails⟩

theorem string (field : Field) {s : String} (h : s.utf8ByteSize ≤ limit) :
    Covers [.string field] [.ofString field s] :=
  .cons (.string ((stringForm_iff field).mpr ⟨h, rfl⟩)) .nil

theorem header {entry : String × String} (h : (entryText entry).utf8ByteSize ≤ limit) :
    Covers [.header] [.ofString .headers (entryText entry)] :=
  .cons (.header ((stringForm_iff .headers).mpr ⟨h, rfl⟩) (mem_entryText entry)) .nil

theorem byte (field : Field) (b : UInt8) : Covers [.byte field] [⟨field, [b]⟩] :=
  .cons (.byte field b) .nil

theorem each {item : Part} {field : Field} {list : List String}
    (h : ∀ s ∈ list, Covers [item] [.ofString field s]) :
    Covers (List.replicate list.length item) (list.map (.ofString field)) := by
  induction list with
  | nil => exact .nil
  | cons s list ih =>
    obtain ⟨hs, hlist⟩ := List.forall_mem_cons.mp h
    exact hs.append (ih hlist)

theorem list {item : Part} {field : Field} {list : List String} (hn : list.length ≤ limit)
    (h : ∀ s ∈ list, Covers [item] [.ofString field s]) :
    Covers [.list field item] (Layout.ofStrings field list) := by
  refine .cons (.list field item (UInt8.ofNat list.length)) ?_
  rw [toNat_ofNat_of_le hn, List.append_nil]
  exact each h

theorem body {body : Body} {entries : List (String × String)} (h : body.WithinLimits entries) :
    Covers (Part.fieldsOf body.command) (Layout.ofBody entries body) := by
  cases body with
  | hello hello =>
    have hheaders : Covers [.list .headers .header] (Layout.ofStrings .headers (entries.map entryText)) := by
      refine list (by rw [List.length_map]; exact h.headers) (List.forall_mem_map.mpr ?_)
      exact fun entry hentry => header (h.header entry hentry)
    have hgroups : Covers [.list .groups (.string .groups)] (Layout.ofStrings .groups hello.groups) :=
      list h.groups fun group hgroup => string .groups (h.group group hgroup)
    exact (string .endpoint h.endpoint).append (hgroups.append ((byte .status hello.status).append
      ((string .name h.name).append hheaders)))
  | shout group content => exact string .group h
  | join group status | leave group status => exact (string .group h).append (byte .status status)
  | whisper | ping | pingOk => exact .nil

theorem message {m : Message} {entries : List (String × String)} (h : m.body.WithinLimits entries) :
    Covers [.signature, .id] (Layout.ofMessage m entries) := by
  refine .cons .signature (.cons (.id m.body.command) (.cons .version (.cons (.sequence _ _) ?_)))
  change Covers (Part.fieldsOf m.body.command ++ []) _
  rw [List.append_nil]
  exact body h

end Covers

/-! ### Frames -/

theorem toList_extract_zero (head : ByteArray) (k : Nat) :
    (head.extract 0 k).data.toList = head.data.toList.take k := by
  simp [ByteArray.data_extract]

/-- A head frame that begins with the segments of a layout is read as a message when, and as soon as,
it holds all of them. -/
structure Delimits (layout : Layout) (head : ByteArray) (m : Message) : Prop where
  /-- What reading leaves is what is behind the layout. -/
  reads : readHead [] head.data.toList = .ok (m, head.data.toList.drop layout.bytes.length)
  front : layout.bytes <+: head.data.toList
  cut : ∀ k < layout.bytes.length, ∃ field, layout.fieldAt? k = some field ∧
    decodeFrame (head.extract 0 k) = .error (.truncated field)
  whole : ∀ trailing, decodeFrame (head.extract 0 layout.bytes.length ++ trailing) = .ok m

theorem delimits_of_decode {head : ByteArray} {m : Message} (h : decodeFrame head = .ok m) :
    ∃ entries, m.body.WithinLimits entries ∧ m.body.ToldBy entries ∧
      Delimits (Layout.ofMessage m entries) head m := by
  obtain ⟨front, trailing, hbytes, hform⟩ := decodeHead_eq_ok.mp h
  obtain ⟨-, entries, hlimits, htold, rfl⟩ := headForm_iff.mp hform
  refine ⟨entries, hlimits, htold, ?_, ?_, ?_, ?_⟩
  · rw [hbytes, List.drop_left]
    exact (accepts_readHead [] _ _ _).mpr ⟨_, rfl, hform⟩
  · exact ⟨trailing, hbytes.symm⟩
  · intro k hk
    obtain ⟨field, hfield, hfails⟩ := (Covers.message hlimits).fails_take hk
    refine ⟨field, hfield, decodeHead_eq_error.mpr ?_⟩
    rwa [toList_extract_zero, hbytes, List.take_append_of_le_length hk.le]
  · intro rest
    refine decodeHead_eq_ok.mpr ⟨_, rest.data.toList, ?_, hform⟩
    rw [ByteArray.data_append, Array.toList_append, toList_extract_zero, hbytes, List.take_left]

/-- No head frame begins another one. -/
theorem eq_of_prefix {m₁ m₂ : Message} {head₁ head₂ : ByteArray} {content₁ content₂ : Content}
    (h₁ : encode m₁ = .ok (head₁ :: content₁)) (h₂ : encode m₂ = .ok (head₂ :: content₂))
    (hbegins : head₁.data.toList <+: head₂.data.toList) : head₁ = head₂ := by
  obtain ⟨hlimits, hframes⟩ := encode_eq_ok.mp h₂
  obtain ⟨rfl, -⟩ := List.cons.inj hframes
  have htake := List.prefix_iff_eq_take.mp hbegins
  rcases Nat.lt_or_ge head₁.data.toList.length (Layout.ofMessage m₂ m₂.body.entries).bytes.length
    with hshort | hlong
  · obtain ⟨field, -, hfails⟩ := (Covers.message hlimits).fails_take hshort
    have hread : decodeHead head₁ content₁ = .ok m₁ := decode_of_encode h₁
    have herror : decodeHead head₁ content₁ = .error (.truncated field) := by
      rw [decodeHead_eq_error, htake]
      exact hfails
    rw [hread] at herror
    cases herror
  · have hsame := hbegins.eq_of_length_le hlong
    exact ByteArray.ext (Array.toList_inj.mp hsame)

/-- A head frame that is read holds its message in the segments of a layout: the fields occupy these
bytes, any fewer are refused as truncated at the field of the first one missing, and any more do not
matter. So none of the frames that are written begins another one. -/
theorem self_delimiting :
    (∀ head m, decodeFrame head = .ok m → ∃ entries, m.body.WithinLimits entries ∧
      m.body.ToldBy entries ∧ Delimits (Layout.ofMessage m entries) head m) ∧
    ∀ m₁ m₂ head₁ head₂ content₁ content₂, encode m₁ = .ok (head₁ :: content₁) →
      encode m₂ = .ok (head₂ :: content₂) → head₁.data.toList <+: head₂.data.toList →
      head₁ = head₂ :=
  ⟨fun _ _ => delimits_of_decode, fun _ _ _ _ _ _ => eq_of_prefix⟩

/-- A HELLO with a byte behind it, in whose endpoint a character takes two bytes; and two messages with
the same head frame. -/
theorem self_delimiting_greeting :
    let headers : Headers := .ofList [("k", "v=w")]
    let greeting : Message := ⟨1, .hello ⟨"tcp://é", ["chat", ""], 3, "bob", headers⟩⟩
    let head : ByteArray := ⟨#[0xAA, 0xA1, 1, 2, 0, 1, 8, 116, 99, 112, 58, 47, 47, 195, 169, 2, 4, 99,
      104, 97, 116, 0, 3, 3, 98, 111, 98, 1, 5, 107, 61, 118, 61, 119, 7]⟩
    (decodeFrame head = .ok greeting ∧ ∃ entries, greeting.body.WithinLimits entries ∧
      greeting.body.ToldBy entries ∧ Delimits (Layout.ofMessage greeting entries) head greeting) ∧
    ∃ head₁ head₂, encode ⟨2, .whisper []⟩ = .ok [head₁] ∧
      encode ⟨2, .whisper [head]⟩ = .ok [head₂, head] ∧ head₁ = head₂ := by
  intro headers greeting head
  have hread : decodeFrame head = .ok greeting := by decide +kernel
  exact ⟨⟨hread, self_delimiting.1 head greeting hread⟩, _, _, rfl, rfl,
    self_delimiting.2 ⟨2, .whisper []⟩ ⟨2, .whisper [head]⟩ _ _ _ _ rfl rfl (List.prefix_refl _)⟩

end PeerMesh.Wire
