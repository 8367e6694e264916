import PeerMesh.Proofs.Tcp.Framing

/-!
# What is read off a stream

What a reader finds at a place in a stream depends on the bytes from there on alone. It reads a
message exactly if these begin with the bytes of one that can be framed. It goes wrong exactly if they
begin with too high a number of frames, or with frames and then too great a length; what comes behind
is not looked at. In all other cases the stream ends too soon.
-/

namespace PeerMesh.Tcp
set_option autoImplicit false

variable {stream : ByteArray} {place next : Nat}

/-! ### Words -/

theorem ofNat_eq_iff {n : Nat} {b : UInt8} : UInt8.ofNat n = b ↔ n % 256 = b.toNat := by
  rw [← UInt8.toNat_inj, UInt8.toNat_ofNat']

theorem readWord_of_le (h : place + 4 ≤ stream.size) :
    ∃ b₀ b₁ b₂ b₃ : UInt8,
      (octets stream).drop place = b₀ :: b₁ :: b₂ :: b₃ :: (octets stream).drop (place + 4) ∧
      readWord stream place = .ok (b₀.toNat + 256 * b₁.toNat + 65536 * b₂.toNat +
        16777216 * b₃.toNat, place + 4) := by
  have hlength := length_octets stream
  refine ⟨_, _, _, _, ?_, dif_pos h⟩
  rw [List.drop_eq_getElem_cons (by omega), List.drop_eq_getElem_cons (by omega),
    List.drop_eq_getElem_cons (by omega), List.drop_eq_getElem_cons (by omega)]
  rfl

theorem readWord_of_lt (h : stream.size < place + 4) :
    readWord stream place = .error .unexpectedEnd :=
  dif_neg (Nat.not_le_of_lt h)

theorem readWord_eq_ok {n : Nat} : readWord stream place = .ok (n, next) ↔
    n < 4294967296 ∧ next = place + 4 ∧ octets (wordBytes n) <+: (octets stream).drop place := by
  by_cases h : place + 4 ≤ stream.size
  · obtain ⟨b₀, b₁, b₂, b₃, hdrop, hread⟩ := readWord_of_le h
    rw [hdrop, hread]
    change _ ↔ _ ∧ _ ∧ [_, _, _, _] <+: _
    simp only [List.cons_prefix_cons, List.nil_prefix, and_true, ofNat_eq_iff, Except.ok.injEq,
      Prod.mk.injEq]
    have h₀ := b₀.toNat_lt
    have h₁ := b₁.toNat_lt
    have h₂ := b₂.toNat_lt
    have h₃ := b₃.toNat_lt
    omega
  · rw [readWord_of_lt (Nat.lt_of_not_le h)]
    refine iff_of_false nofun fun ⟨_, _, hp⟩ => h ?_
    have hlength : 4 ≤ ((octets stream).drop place).length := hp.length_le
    rw [List.length_drop, length_octets] at hlength
    omega

theorem readWord_error {e : StreamError} (h : readWord stream place = .error e) :
    e = .unexpectedEnd := by
  unfold readWord at h
  split at h
  · cases h
  · cases h
    rfl

/-! ### Frames -/

theorem readFrames_succ (stream : ByteArray) (n place : Nat) :
    readFrames stream (n + 1) place =
      match readWord stream place with
      | .error e => .error e
      | .ok (length, start) =>
        if length > maxFrameBytes then .error (.size .frameTooLarge)
        else if start + length > stream.size then .error .unexpectedEnd
        else
          match readFrames stream n (start + length) with
          | .error e => .error e
          | .ok (content, next) => .ok (stream.extract start (start + length) :: content, next) := by
  rw [readFrames]
  cases readWord stream place with
  | error e => rfl
  | ok r =>
    obtain ⟨length, start⟩ := r
    simp only [bind, Except.bind]
    split
    · rfl
    · split
      · rfl
      · cases readFrames stream n (start + length) with
        | error e => rfl
        | ok r => rfl

theorem eq_extract_of_isPrefix {f : ByteArray} (h : octets f <+: (octets stream).drop place) :
    f = stream.extract place (place + f.size) := by
  apply octets_inj
  rw [octets_extract, Nat.add_sub_cancel_left, ← length_octets]
  exact List.prefix_iff_eq_take.mp h

theorem size_extract {length : Nat} (h : place + length ≤ stream.size) :
    (stream.extract place (place + length)).size = length := by
  rw [ByteArray.size_extract]
  omega

/-- A front part of a stream and what follows it. -/
theorem append_prefix_drop {a b : List UInt8} : a ++ b <+: (octets stream).drop place ↔
    a <+: (octets stream).drop place ∧ b <+: (octets stream).drop (place + a.length) := by
  constructor
  · rintro ⟨rest, h⟩
    rw [List.append_assoc] at h
    refine ⟨⟨_, h⟩, rest, ?_⟩
    rw [← List.drop_drop, ← h, List.drop_left]
  · rintro ⟨⟨rest, h⟩, hb⟩
    rw [← List.drop_drop, ← h, List.drop_left] at hb
    rw [← h]
    exact (List.prefix_append_right_inj a).mpr hb

theorem le_of_prefix_drop {bytes : List UInt8} (h : bytes <+: (octets stream).drop place)
    (hsome : bytes ≠ []) : place + bytes.length ≤ stream.size := by
  have hlength := h.length_le
  rw [List.length_drop, length_octets] at hlength
  have hpos := List.length_pos_iff.mpr hsome
  omega

/-- A frame that is all there is read, and then the others are. -/
theorem readFrames_of_frame {f : ByteArray} (n : Nat) (hshort : f.size ≤ 16777216)
    (h : octets (wordBytes f.size) ++ octets f <+: (octets stream).drop place) :
    readFrames stream (n + 1) place =
      (readFrames stream n (place + 4 + f.size)).map fun r => (f :: r.1, r.2) := by
  obtain ⟨hword, hframe⟩ := append_prefix_drop.mp h
  have hw : readWord stream place = .ok (f.size, place + 4) :=
    readWord_eq_ok.mpr ⟨by omega, rfl, hword⟩
  have hfits : ¬ f.size > maxFrameBytes := Nat.not_lt_of_le hshort
  have hin : place + 4 + f.size ≤ stream.size := by
    have hend := le_of_prefix_drop h (List.append_ne_nil_of_left_ne_nil (List.cons_ne_nil _ _) _)
    rw [List.length_append] at hend
    change place + (4 + f.size) ≤ _ at hend
    omega
  have hf : stream.extract (place + 4) (place + 4 + f.size) = f := (eq_extract_of_isPrefix hframe).symm
  rw [readFrames_succ, hw]
  dsimp only
  rw [if_neg hfits, if_neg (Nat.not_lt_of_le hin), hf]
  cases readFrames stream n (place + 4 + f.size) <;> rfl

/-- A frame that is too large is refused, and nothing behind its length is looked at. -/
theorem readFrames_of_long {length : Nat} (n : Nat) (hlong : 16777216 < length)
    (hword : length < 4294967296) (h : octets (wordBytes length) <+: (octets stream).drop place) :
    readFrames stream (n + 1) place = .error (.size .frameTooLarge) := by
  have hover : length > maxFrameBytes := hlong
  rw [readFrames_succ, readWord_eq_ok.mpr ⟨hword, rfl, h⟩]
  exact if_pos hover

/-- What there is at a place of which a frame is read. -/
theorem frame_cases (stream : ByteArray) (place n : Nat) :
    (∃ f : ByteArray, f.size ≤ 16777216 ∧
      octets (wordBytes f.size) ++ octets f <+: (octets stream).drop place) ∨
    (∃ length, 16777216 < length ∧ length < 4294967296 ∧
      octets (wordBytes length) <+: (octets stream).drop place) ∨
    readFrames stream (n + 1) place = .error .unexpectedEnd := by
  rw [readFrames_succ]
  cases hw : readWord stream place with
  | error e => exact .inr (.inr (congrArg _ (readWord_error hw)))
  | ok r =>
    obtain ⟨length, start⟩ := r
    obtain ⟨hbound, rfl, hword⟩ := readWord_eq_ok.mp hw
    dsimp only
    by_cases hlong : 16777216 < length
    · exact .inr (.inl ⟨length, hlong, hbound, hword⟩)
    · by_cases hin : place + 4 + length ≤ stream.size
      · refine .inl ⟨stream.extract (place + 4) (place + 4 + length), ?_, ?_⟩
        · rw [size_extract hin]
          exact Nat.le_of_not_lt hlong
        · rw [size_extract hin, append_prefix_drop, octets_extract]
          exact ⟨hword, List.take_prefix _ _⟩
      · have hfits : ¬ length > maxFrameBytes := hlong
        rw [if_neg hfits, if_pos (Nat.lt_of_not_le hin)]
        exact .inr (.inr rfl)

theorem length_frame (f : ByteArray) : (octets (wordBytes f.size) ++ octets f).length = 4 + f.size := by
  rw [List.length_append, length_octets, length_octets]
  rfl

/-- Bytes of frames begin with those of the first frame. -/
theorem octetsOfFrames_cons_isPrefix {f : ByteArray} {content : Content} {more : List UInt8} :
    octetsOfFrames (f :: content) ++ more <+: (octets stream).drop place ↔
      octets (wordBytes f.size) ++ octets f <+: (octets stream).drop place ∧
        octetsOfFrames content ++ more <+: (octets stream).drop (place + 4 + f.size) := by
  rw [octetsOfFrames_cons, ← List.append_assoc, List.append_assoc, append_prefix_drop, length_frame,
    Nat.add_assoc]

theorem readFrames_eq_ok {n : Nat} {content : Content} :
    readFrames stream n place = .ok (content, next) ↔ content.length = n ∧
      (∀ frame ∈ content, frame.size ≤ 16777216) ∧
      octetsOfFrames content <+: (octets stream).drop place ∧
      next = place + (octetsOfFrames content).length := by
  induction n generalizing place content next with
  | zero =>
    constructor
    · intro h
      cases h
      exact ⟨rfl, nofun, List.nil_prefix, rfl⟩
    · rintro ⟨hlength, -, -, rfl⟩
      obtain rfl := List.eq_nil_of_length_eq_zero hlength
      rfl
  | succ n ih =>
    have htotal (f : ByteArray) (content : Content) : (octetsOfFrames (f :: content)).length =
        4 + f.size + (octetsOfFrames content).length := by
      rw [octetsOfFrames_cons, ← List.append_assoc, List.length_append, length_frame]
    constructor
    · intro h
      rcases frame_cases stream place n with ⟨f, hshort, hp⟩ | ⟨length, hlong, hword, hp⟩ | hend
      · rw [readFrames_of_frame n hshort hp] at h
        cases hrest : readFrames stream n (place + 4 + f.size) with
        | error e =>
          rw [hrest] at h
          cases h
        | ok r =>
          rw [hrest] at h
          cases h
          obtain ⟨hlength, hothers, hrest, hnext⟩ := ih.mp hrest
          refine ⟨congrArg (· + 1) hlength, List.forall_mem_cons.mpr ⟨hshort, hothers⟩, ?_, ?_⟩
          · rw [← List.append_nil (octetsOfFrames _), octetsOfFrames_cons_isPrefix, List.append_nil]
            exact ⟨hp, hrest⟩
          · rw [htotal, hnext]
            omega
      · rw [readFrames_of_long n hlong hword hp] at h
        cases h
      · rw [hend] at h
        cases h
    · rintro ⟨hlength, hshort, hp, rfl⟩
      cases content with
      | nil => cases hlength
      | cons f content =>
        rw [← List.append_nil (octetsOfFrames _), octetsOfFrames_cons_isPrefix, List.append_nil] at hp
        obtain ⟨hfirst, hothers⟩ := List.forall_mem_cons.mp hshort
        have hrest := ih.mpr ⟨Nat.succ.inj hlength, hothers, hp.2, rfl⟩
        have hnext : place + (octetsOfFrames (f :: content)).length =
            place + 4 + f.size + (octetsOfFrames content).length := by
          rw [htotal]
          omega
        rw [readFrames_of_frame n hfirst hp.1, hrest, hnext]
        rfl

theorem readFrames_eq_size {n : Nat} {e : SizeError} :
    readFrames stream n place = .error (.size e) ↔ e = .frameTooLarge ∧
      ∃ (front : Content) (length : Nat), front.length < n ∧
        (∀ frame ∈ front, frame.size ≤ 16777216) ∧ 16777216 < length ∧ length < 4294967296 ∧
        octetsOfFrames front ++ octets (wordBytes length) <+: (octets stream).drop place := by
  induction n generalizing place with
  | zero =>
    refine iff_of_false nofun ?_
    rintro ⟨-, front, length, hfront, -⟩
    exact Nat.not_lt_zero _ hfront
  | succ n ih =>
    constructor
    · intro h
      rcases frame_cases stream place n with ⟨f, hshort, hp⟩ | ⟨length, hlong, hword, hp⟩ | hend
      · rw [readFrames_of_frame n hshort hp] at h
        cases hrest : readFrames stream n (place + 4 + f.size) with
        | ok r =>
          rw [hrest] at h
          cases h
        | error e' =>
          rw [hrest] at h
          cases h
          obtain ⟨rfl, front, length, hfront, hothers, hlong, hword, hbad⟩ := ih.mp hrest
          refine ⟨rfl, f :: front, length, Nat.succ_lt_succ hfront,
            List.forall_mem_cons.mpr ⟨hshort, hothers⟩, hlong, hword, ?_⟩
          exact octetsOfFrames_cons_isPrefix.mpr ⟨hp, hbad⟩
      · rw [readFrames_of_long n hlong hword hp] at h
        cases h
        exact ⟨rfl, [], length, Nat.succ_pos n, nofun, hlong, hword, hp⟩
      · rw [hend] at h
        cases h
    · rintro ⟨rfl, front, length, hfront, hshort, hlong, hword, hbad⟩
      cases front with
      | nil => exact readFrames_of_long n hlong hword hbad
      | cons f front =>
        obtain ⟨hp, hbad⟩ := octetsOfFrames_cons_isPrefix.mp hbad
        obtain ⟨hfirst, hothers⟩ := List.forall_mem_cons.mp hshort
        have hrest := ih.mpr
          ⟨rfl, front, length, Nat.lt_of_succ_lt_succ hfront, hothers, hlong, hword, hbad⟩
        rw [readFrames_of_frame n hfirst hp, hrest]
        rfl

/-! ### Messages -/

/-- The beginnings of a message that cannot be framed. -/
inductive Malformed : SizeError → List UInt8 → Prop
  | count {n : Nat} (hmany : 1024 < n) (hword : n < 4294967296) :
      Malformed .tooManyFrames (octets (wordBytes n))
  | frame {n length : Nat} {front : Content} (hfew : n ≤ 1024) (hfront : front.length < n)
      (hshort : ∀ frame ∈ front, frame.size ≤ 16777216) (hlong : 16777216 < length)
      (hword : length < 4294967296) :
      Malformed .frameTooLarge
        (octets (wordBytes n) ++ (octetsOfFrames front ++ octets (wordBytes length)))

theorem readMessage_of_count {n : Nat} (hfew : n ≤ 1024)
    (h : octets (wordBytes n) <+: (octets stream).drop place) :
    readMessage stream place = readFrames stream n (place + 4) := by
  have hfits : ¬ n > maxFrames := Nat.not_lt_of_le hfew
  rw [readMessage, readWord_eq_ok.mpr ⟨by omega, rfl, h⟩]
  exact if_neg hfits

theorem readMessage_of_many {n : Nat} (hmany : 1024 < n) (hword : n < 4294967296)
    (h : octets (wordBytes n) <+: (octets stream).drop place) :
    readMessage stream place = .error (.size .tooManyFrames) := by
  have hover : n > maxFrames := hmany
  rw [readMessage, readWord_eq_ok.mpr ⟨hword, rfl, h⟩]
  exact if_pos hover

theorem count_cases (stream : ByteArray) (place : Nat) :
    (∃ n, n ≤ 1024 ∧ octets (wordBytes n) <+: (octets stream).drop place) ∨
    (∃ n, 1024 < n ∧ n < 4294967296 ∧ octets (wordBytes n) <+: (octets stream).drop place) ∨
    readMessage stream place = .error .unexpectedEnd := by
  cases hw : readWord stream place with
  | error e =>
    obtain rfl := readWord_error hw
    rw [readMessage, hw]
    exact .inr (.inr rfl)
  | ok r =>
    obtain ⟨n, start⟩ := r
    obtain ⟨hbound, -, hword⟩ := readWord_eq_ok.mp hw
    by_cases hmany : 1024 < n
    · exact .inr (.inl ⟨n, hmany, hbound, hword⟩)
    · exact .inl ⟨n, Nat.le_of_not_lt hmany, hword⟩

theorem readMessage_eq_ok {content : Content} : readMessage stream place = .ok (content, next) ↔
    Framable content ∧ octetsOfMessage content <+: (octets stream).drop place ∧
      next = place + (octetsOfMessage content).length := by
  have hlength : (octetsOfMessage content).length = 4 + (octetsOfFrames content).length :=
    List.length_append
  rw [octetsOfMessage, append_prefix_drop, ← octetsOfMessage, hlength, ← Nat.add_assoc]
  constructor
  · intro h
    rcases count_cases stream place with ⟨n, hfew, hword⟩ | ⟨n, hmany, hbound, hword⟩ | hend
    · rw [readMessage_of_count hfew hword] at h
      obtain ⟨rfl, hshort, hp, rfl⟩ := readFrames_eq_ok.mp h
      exact ⟨⟨hfew, hshort⟩, ⟨hword, hp⟩, rfl⟩
    · rw [readMessage_of_many hmany hbound hword] at h
      cases h
    · rw [hend] at h
      cases h
  · rintro ⟨hfits, ⟨hword, hp⟩, rfl⟩
    rw [readMessage_of_count hfits.few hword]
    exact readFrames_eq_ok.mpr ⟨rfl, hfits.short, hp, rfl⟩

theorem readMessage_eq_size {e : SizeError} : readMessage stream place = .error (.size e) ↔
    ∃ bad, Malformed e bad ∧ bad <+: (octets stream).drop place := by
  constructor
  · intro h
    rcases count_cases stream place with ⟨n, hfew, hword⟩ | ⟨n, hmany, hbound, hword⟩ | hend
    · rw [readMessage_of_count hfew hword] at h
      obtain ⟨rfl, front, length, hfront, hshort, hlong, hbound, hbad⟩ := readFrames_eq_size.mp h
      exact ⟨_, .frame hfew hfront hshort hlong hbound, append_prefix_drop.mpr ⟨hword, hbad⟩⟩
    · rw [readMessage_of_many hmany hbound hword] at h
      cases h
      exact ⟨_, .count hmany hbound, hword⟩
    · rw [hend] at h
      cases h
  · rintro ⟨bad, hmalformed, hbad⟩
    cases hmalformed with
    | count hmany hbound => exact readMessage_of_many hmany hbound hbad
    | frame hfew hfront hshort hlong hbound =>
      obtain ⟨hword, hbad⟩ := append_prefix_drop.mp hbad
      rw [readMessage_of_count hfew hword]
      exact readFrames_eq_size.mpr ⟨rfl, _, _, hfront, hshort, hlong, hbound, hbad⟩

end PeerMesh.Tcp
