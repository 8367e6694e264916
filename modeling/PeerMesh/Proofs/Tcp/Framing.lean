import Mathlib.Data.List.Basic
import PeerMesh.Tcp.Framing

/-!
# Which messages can be framed, and how

A message is put onto a stream if it has at most 1024 frames, each of at most 16 MiB, and is refused
otherwise. The mailbox tests a message as a whole before it queues it, and the writer tests it frame
by frame while it puts the bytes together; the two tests come out alike. Streams are compared as
lists of bytes, where one is a front part of another.
-/

namespace PeerMesh.Tcp
set_option autoImplicit false

structure Framable (content : Content) : Prop where
  few : content.length ≤ 1024
  short : ∀ frame ∈ content, frame.size ≤ 16777216

theorem not_framable {content : Content} : ¬ Framable content ↔
    1024 < content.length ∨ ∃ frame ∈ content, 16777216 < frame.size := by
  constructor
  · intro h
    by_contra hnone
    obtain ⟨hfew, hshort⟩ := not_or.mp hnone
    refine h ⟨Nat.le_of_not_lt hfew, fun frame hmem => ?_⟩
    exact Nat.le_of_not_lt fun hlong => hshort ⟨frame, hmem, hlong⟩
  · rintro (hmany | ⟨frame, hmem, hlong⟩) h
    · exact Nat.not_le_of_lt hmany h.few
    · exact Nat.not_le_of_lt hlong (h.short frame hmem)

/-- The test of the mailbox. -/
theorem isSome_sizeError? {content : Content} : (sizeError? content).isSome = true ↔
    1024 < content.length ∨ ∃ frame ∈ content, 16777216 < frame.size := by
  have hany : content.any (·.size > maxFrameBytes) = true ↔
      ∃ frame ∈ content, 16777216 < frame.size := by
    rw [List.any_eq_true]
    simp only [decide_eq_true_eq]
    rfl
  rw [← hany, sizeError?]
  split
  · rename_i hmany
    exact iff_of_true rfl (.inl hmany)
  · rename_i hfew
    split
    · rename_i hlong
      exact iff_of_true rfl (.inr hlong)
    · rename_i hshort
      exact iff_of_false Bool.false_ne_true (not_or.mpr ⟨hfew, hshort⟩)

theorem isSome_sizeError?_iff_not_framable {content : Content} :
    (sizeError? content).isSome = true ↔ ¬ Framable content := by
  rw [isSome_sizeError?, not_framable]

/-! ### The test of the writer -/

theorem appendFrames_eq_ok {out bytes : ByteArray} {content : Content} :
    appendFrames out content = .ok bytes ↔ (∀ frame ∈ content, frame.size ≤ 16777216) ∧
      bytes = content.foldl (fun out f => out ++ wordBytes f.size ++ f) out := by
  induction content generalizing out with
  | nil => simp [appendFrames, eq_comm]
  | cons f rest ih =>
    rw [appendFrames, List.forall_mem_cons, List.foldl_cons]
    split
    · rename_i hlong
      change 16777216 < f.size at hlong
      refine iff_of_false (by simp) fun h => ?_
      have hshort := h.1.1
      omega
    · rename_i hshort
      rw [ih, and_assoc]
      exact (and_iff_right (Nat.le_of_not_lt hshort)).symm

theorem writeMessage_eq_ok {content : Content} {bytes : ByteArray} :
    writeMessage content = .ok bytes ↔ Framable content ∧ bytes = frameBytes content := by
  rw [writeMessage]
  split
  · rename_i hmany
    refine iff_of_false (by simp) fun h => ?_
    exact Nat.not_le_of_lt hmany h.1.few
  · rename_i hfew
    rw [appendFrames_eq_ok]
    constructor
    · rintro ⟨hshort, hbytes⟩
      exact ⟨⟨Nat.le_of_not_lt hfew, hshort⟩, hbytes⟩
    · rintro ⟨h, hbytes⟩
      exact ⟨h.short, hbytes⟩

theorem exists_writeMessage_eq_error {content : Content} :
    (∃ e, writeMessage content = .error e) ↔ ¬ Framable content := by
  cases h : writeMessage content with
  | error e =>
    refine iff_of_true ⟨e, rfl⟩ fun hfits => ?_
    rw [writeMessage_eq_ok.mpr ⟨hfits, rfl⟩] at h
    cases h
  | ok bytes =>
    have hfits := (writeMessage_eq_ok.mp h).1
    exact iff_of_false (by simp) (not_not_intro hfits)

/-! ### The bytes of a message -/

def octets (bytes : ByteArray) : List UInt8 := bytes.data.toList

theorem octets_inj {a b : ByteArray} (h : octets a = octets b) : a = b :=
  ByteArray.ext (Array.toList_inj.mp h)

theorem octets_mk (l : List UInt8) : octets ⟨l.toArray⟩ = l := rfl

theorem length_octets (bytes : ByteArray) : (octets bytes).length = bytes.size := rfl

theorem octets_append (a b : ByteArray) : octets (a ++ b) = octets a ++ octets b := by
  simp [octets]

theorem octets_extract (bytes : ByteArray) (start stop : Nat) :
    octets (bytes.extract start stop) = ((octets bytes).drop start).take (stop - start) := by
  simp [octets]

/-- The bytes of frames, each behind its length. -/
def octetsOfFrames (content : Content) : List UInt8 :=
  content.flatMap fun f => octets (wordBytes f.size) ++ octets f

theorem octetsOfFrames_cons (f : ByteArray) (content : Content) : octetsOfFrames (f :: content) =
    octets (wordBytes f.size) ++ (octets f ++ octetsOfFrames content) := by
  rw [octetsOfFrames, List.flatMap_cons, List.append_assoc]
  rfl

def octetsOfMessage (content : Content) : List UInt8 :=
  octets (wordBytes content.length) ++ octetsOfFrames content

theorem octets_foldl_frames (out : ByteArray) (content : Content) :
    octets (content.foldl (fun out f => out ++ wordBytes f.size ++ f) out) =
      octets out ++ octetsOfFrames content := by
  induction content generalizing out with
  | nil => simp [octetsOfFrames]
  | cons f content ih =>
    rw [List.foldl_cons, ih, octets_append, octets_append, octetsOfFrames_cons]
    simp only [List.append_assoc]

theorem octets_frameBytes (content : Content) :
    octets (frameBytes content) = octetsOfMessage content :=
  octets_foldl_frames _ content

/-! ### The bytes of a connection -/

def octetsOfMessages (messages : List Content) : List UInt8 := messages.flatMap octetsOfMessage

theorem octetsOfMessages_cons (m : Content) (messages : List Content) :
    octetsOfMessages (m :: messages) = octetsOfMessage m ++ octetsOfMessages messages :=
  List.flatMap_cons

theorem octetsOfMessages_append (messages more : List Content) :
    octetsOfMessages (messages ++ more) = octetsOfMessages messages ++ octetsOfMessages more :=
  List.flatMap_append

theorem octets_foldl_messages (out : ByteArray) (messages : List Content) :
    octets (messages.foldl (fun out m => out ++ frameBytes m) out) =
      octets out ++ octetsOfMessages messages := by
  induction messages generalizing out with
  | nil => simp [octetsOfMessages]
  | cons m messages ih =>
    rw [List.foldl_cons, ih, octets_append, octets_frameBytes, octetsOfMessages_cons,
      List.append_assoc]

theorem octets_writeConnection (routingId : List UInt8) (messages : List Content) :
    octets (writeConnection routingId messages) = routingId ++ octetsOfMessages messages :=
  octets_foldl_messages _ messages

/-- The stream is put together from what the writer makes of each message. -/
theorem mapM_writeMessage {messages : List Content} (h : ∀ m ∈ messages, Framable m) :
    messages.mapM writeMessage = .ok (messages.map frameBytes) := by
  induction messages with
  | nil => rfl
  | cons m messages ih =>
    obtain ⟨hm, hrest⟩ := List.forall_mem_cons.mp h
    rw [List.mapM_cons, writeMessage_eq_ok.mpr ⟨hm, rfl⟩, ih hrest]
    rfl

theorem writeConnection_eq (routingId : List UInt8) (messages : List Content) :
    writeConnection routingId messages =
      (messages.map frameBytes).foldl (· ++ ·) ⟨routingId.toArray⟩ :=
  List.foldl_map.symm

end PeerMesh.Tcp
