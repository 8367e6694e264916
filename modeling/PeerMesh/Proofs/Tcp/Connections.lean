import PeerMesh.Proofs.Tcp.Reading
import PeerMesh.Tcp.Feed

/-!
# What a connection brings

Behind the routing id a stream is a sequence of whole messages and a rest at which no whole message
begins. There is one way only to take it apart like this, so what is read does not depend on how the
stream is cut, and a stream that ends early brings the messages that are whole by then.
-/

namespace PeerMesh.Tcp
set_option autoImplicit false

/-! ### Whole messages and a rest -/

/-- No whole message begins here. -/
def Stuck (rest : List UInt8) : Prop :=
  ∀ content, Framable content → ¬ octetsOfMessage content <+: rest

/-- The bytes go wrong here. -/
def GoesWrong (e : SizeError) (rest : List UInt8) : Prop := ∃ bad, Malformed e bad ∧ bad <+: rest

/-- Of two messages neither is a front part of the other. -/
theorem eq_of_isPrefix {a b : Content} {l : List UInt8} (ha : Framable a)
    (hb : Framable b) (hpa : octetsOfMessage a <+: l) (hpb : octetsOfMessage b <+: l) : a = b := by
  have hreada := (@readMessage_eq_ok ⟨l.toArray⟩ 0 _ _).mpr ⟨ha, hpa, rfl⟩
  have hreadb := (@readMessage_eq_ok ⟨l.toArray⟩ 0 _ _).mpr ⟨hb, hpb, rfl⟩
  rw [hreada] at hreadb
  exact congrArg Prod.fst (Except.ok.inj hreadb)

theorem not_malformed_of_isPrefix {a : Content} {e : SizeError} {bad l : List UInt8} (ha : Framable a)
    (hbad : Malformed e bad) (hpa : octetsOfMessage a <+: l) : ¬ bad <+: l := by
  intro hp
  have hread := (@readMessage_eq_ok ⟨l.toArray⟩ 0 _ _).mpr ⟨ha, hpa, rfl⟩
  rw [(@readMessage_eq_size ⟨l.toArray⟩ 0 _).mpr ⟨bad, hbad, hp⟩] at hread
  cases hread

theorem GoesWrong.stuck {e : SizeError} {rest : List UInt8} (h : GoesWrong e rest) : Stuck rest := by
  obtain ⟨bad, hbad, hp⟩ := h
  exact fun content hfits hpa => not_malformed_of_isPrefix hfits hbad hpa hp

theorem GoesWrong.append {e : SizeError} {rest : List UInt8} (h : GoesWrong e rest)
    (more : List UInt8) : GoesWrong e (rest ++ more) := by
  obtain ⟨bad, hbad, hp⟩ := h
  exact ⟨bad, hbad, hp.trans (List.prefix_append _ _)⟩

theorem octetsOfMessage_ne_nil (m : Content) : octetsOfMessage m ≠ [] :=
  List.append_ne_nil_of_left_ne_nil (List.cons_ne_nil _ _) _

theorem stuck_nil : Stuck [] := fun content _ hp =>
  octetsOfMessage_ne_nil content (List.prefix_nil.mp hp)

theorem not_goesWrong_nil (e : SizeError) : ¬ GoesWrong e [] := by
  rintro ⟨bad, hbad, hp⟩
  obtain rfl := List.prefix_nil.mp hp
  cases hbad

/-- A message that is cut is neither whole nor wrong. -/
theorem stuck_of_cut {m : Content} {rest : List UInt8} (hm : Framable m)
    (hp : rest <+: octetsOfMessage m) (hcut : rest.length < (octetsOfMessage m).length) :
    Stuck rest ∧ ∀ e, ¬ GoesWrong e rest := by
  constructor
  · intro content hfits hpa
    obtain rfl := eq_of_isPrefix hfits hm (hpa.trans hp) List.prefix_rfl
    exact Nat.not_le_of_lt hcut hpa.length_le
  · rintro e ⟨bad, hbad, hpb⟩
    exact not_malformed_of_isPrefix hm hbad List.prefix_rfl (hpb.trans hp)

/-- Bytes are whole messages and a rest. -/
structure Splits (bytes : List UInt8) (messages : List Content) (rest : List UInt8) : Prop where
  eq : bytes = octetsOfMessages messages ++ rest
  framable : ∀ m ∈ messages, Framable m
  stuck : Stuck rest

namespace Splits
variable {bytes rest : List UInt8} {messages : List Content}

theorem cons {m : Content} (hm : Framable m) (h : Splits bytes messages rest) :
    Splits (octetsOfMessage m ++ bytes) (m :: messages) rest where
  eq := by rw [h.eq, octetsOfMessages_cons, List.append_assoc]
  framable := List.forall_mem_cons.mpr ⟨hm, h.framable⟩
  stuck := h.stuck

/-- All bytes can be taken apart. -/
theorem exists_splits (bytes : List UInt8) : ∃ messages rest, Splits bytes messages rest := by
  induction hn : bytes.length using Nat.strongRecOn generalizing bytes with
  | _ n ih =>
    by_cases hstuck : Stuck bytes
    · exact ⟨[], bytes, rfl, nofun, hstuck⟩
    · obtain ⟨m, hm, more, rfl⟩ : ∃ m, Framable m ∧ octetsOfMessage m <+: bytes := by
        by_contra hnone
        exact hstuck fun m hm hp => hnone ⟨m, hm, hp⟩
      have hpos := List.length_pos_iff.mpr (octetsOfMessage_ne_nil m)
      rw [List.length_append] at hn
      obtain ⟨messages, rest, h⟩ := ih more.length (by omega) more rfl
      exact ⟨m :: messages, rest, h.cons hm⟩

/-- A cut sequence of messages is those that are whole and a rest, and does not go wrong. -/
theorem take {messages : List Content} (hm : ∀ m ∈ messages, Framable m) (n : Nat) :
    ∃ k ≤ messages.length, ∃ rest,
      Splits ((octetsOfMessages messages).take n) (messages.take k) rest ∧ (∀ e, ¬ GoesWrong e rest) ∧
        ∀ j ≤ messages.length, (octetsOfMessages (messages.take j)).length ≤ n ↔ j ≤ k := by
  induction messages generalizing n with
  | nil =>
    refine ⟨0, Nat.le_refl 0, [], ⟨List.take_nil, List.forall_mem_nil _, stuck_nil⟩, not_goesWrong_nil, ?_⟩
    intro j hj
    exact iff_of_true (by simp [octetsOfMessages]) hj
  | cons m messages ih =>
    obtain ⟨hfirst, hrest⟩ := List.forall_mem_cons.mp hm
    rw [octetsOfMessages_cons]
    by_cases hcut : n < (octetsOfMessage m).length
    · have hpart : (octetsOfMessage m ++ octetsOfMessages messages).take n <+: octetsOfMessage m := by
        rw [List.take_append_of_le_length (Nat.le_of_lt hcut)]
        exact List.take_prefix _ _
      have hlength : ((octetsOfMessage m ++ octetsOfMessages messages).take n).length <
          (octetsOfMessage m).length := Nat.lt_of_le_of_lt (List.length_take_le _ _) hcut
      obtain ⟨hstuck, hright⟩ := stuck_of_cut hfirst hpart hlength
      refine ⟨0, Nat.zero_le _, _, ⟨rfl, List.forall_mem_nil _, hstuck⟩, hright, fun j _ => ?_⟩
      cases j with
      | zero => exact iff_of_true (Nat.zero_le n) (Nat.le_refl 0)
      | succ j =>
        rw [List.take_succ_cons, octetsOfMessages_cons, List.length_append]
        exact iff_of_false (by omega) (Nat.not_succ_le_zero j)
    · obtain ⟨k, hk, rest, hsplits, hright, hwhole⟩ := ih hrest (n - (octetsOfMessage m).length)
      refine ⟨k + 1, Nat.succ_le_succ hk, rest, ?_, hright, fun j hj => ?_⟩
      · rw [List.take_append, List.take_of_length_le (Nat.le_of_not_lt hcut), List.take_succ_cons]
        exact hsplits.cons hfirst
      · cases j with
        | zero => exact iff_of_true (Nat.zero_le n) (Nat.zero_le _)
        | succ j =>
          have hj := hwhole j (Nat.le_of_succ_le_succ hj)
          rw [List.take_succ_cons, octetsOfMessages_cons, List.length_append]
          omega

end Splits

/-! ### Reading messages -/

variable {stream : ByteArray} {place next : Nat}

theorem readMessages_of_error {e : StreamError} (hplace : place < stream.size)
    (h : readMessage stream place = .error e) :
    readMessages stream place = ⟨[], place, some e⟩ := by
  rw [readMessages, if_neg (Nat.not_le_of_lt hplace)]
  split
  · rename_i e' h'
    rw [h] at h'
    cases h'
    rfl
  · rename_i h'
    rw [h] at h'
    cases h'

theorem readMessages_of_ok {content : Content} (h : readMessage stream place = .ok (content, next)) :
    readMessages stream place = { readMessages stream next with
      messages := content :: (readMessages stream next).messages } := by
  have hplace := (lt_of_readMessage h).2
  rw [readMessages, if_neg (Nat.not_le_of_lt hplace)]
  split
  · rename_i h'
    rw [h] at h'
    cases h'
  · rename_i content' next' h'
    rw [h] at h'
    cases h'
    rfl

/-- Bytes that are taken apart are read as the messages among them, up to where the rest begins. -/
theorem Splits.readMessages {messages : List Content} {rest : List UInt8}
    (h : Splits ((octets stream).drop place) messages rest) :
    (readMessages stream place).messages = messages ∧
      (octets stream).drop (readMessages stream place).next = rest ∧
      ∀ e, (readMessages stream place).stop = some (.size e) ↔ GoesWrong e rest := by
  induction messages generalizing place with
  | nil =>
    obtain rfl : (octets stream).drop place = rest := h.eq
    by_cases hend : stream.size ≤ place
    · have hnil : (octets stream).drop place = [] := List.drop_of_length_le hend
      rw [Tcp.readMessages, if_pos hend]
      exact ⟨rfl, rfl, fun e => iff_of_false nofun (hnil ▸ not_goesWrong_nil e)⟩
    · cases hread : readMessage stream place with
      | ok r =>
        obtain ⟨hfits, hp, -⟩ := readMessage_eq_ok.mp hread
        exact absurd hp (h.stuck r.1 hfits)
      | error e' =>
        rw [readMessages_of_error (Nat.lt_of_not_le hend) hread]
        refine ⟨rfl, rfl, fun e => ?_⟩
        rw [GoesWrong, ← readMessage_eq_size, hread, Option.some_inj, Except.error.injEq]
  | cons m messages ih =>
    obtain ⟨hm, hmessages⟩ := List.forall_mem_cons.mp h.framable
    have heq := h.eq
    rw [octetsOfMessages_cons, List.append_assoc] at heq
    have hread := readMessage_eq_ok.mpr ⟨hm, ⟨_, heq.symm⟩, rfl⟩
    have hdrop : (octets stream).drop (place + (octetsOfMessage m).length) =
        octetsOfMessages messages ++ rest := by
      rw [← List.drop_drop, heq, List.drop_left]
    obtain ⟨hsame, hnext, hstop⟩ := ih ⟨hdrop, hmessages, h.stuck⟩
    rw [readMessages_of_ok hread]
    exact ⟨congrArg (m :: ·) hsame, hnext, hstop⟩

/-! ### Connections -/

/-- A stream is a routing id, whole messages and a rest. -/
structure Carries (stream : ByteArray) (routingId : List UInt8) (messages : List Content)
    (rest : List UInt8) : Prop where
  long : routingId.length = 17
  eq : octets stream = routingId ++ (octetsOfMessages messages ++ rest)
  framable : ∀ m ∈ messages, Framable m
  stuck : Stuck rest

namespace Carries
variable {routingId rest : List UInt8} {messages : List Content}

theorem splits (h : Carries stream routingId messages rest) :
    Splits ((octets stream).drop routingIdLength) messages rest := by
  refine ⟨?_, h.framable, h.stuck⟩
  rw [h.eq]
  exact List.drop_left' h.long

theorem size (h : Carries stream routingId messages rest) : ¬ stream.size < routingIdLength := by
  have hlength := congrArg List.length h.eq
  rw [length_octets, List.length_append, h.long] at hlength
  change ¬ stream.size < 17
  omega

theorem routingId_eq (h : Carries stream routingId messages rest) :
    octets (stream.extract 0 routingIdLength) = routingId := by
  rw [octets_extract, List.drop_zero, h.eq]
  exact List.take_left' h.long

theorem exists_carries (h : ¬ stream.size < routingIdLength) :
    ∃ routingId messages rest, Carries stream routingId messages rest := by
  obtain ⟨messages, rest, hsplits⟩ := Splits.exists_splits ((octets stream).drop routingIdLength)
  refine ⟨(octets stream).take routingIdLength, messages, rest, ?_, ?_, hsplits.framable,
    hsplits.stuck⟩
  · rw [List.length_take, length_octets]
    exact Nat.min_eq_left (Nat.le_of_not_lt h)
  · rw [← hsplits.eq, List.take_append_drop]

theorem forwarded (h : Carries stream routingId messages rest) :
    (forwardConnection stream).1 = messages.map (routingId, ·) := by
  have hid : (stream.extract 0 routingIdLength).data.toList = routingId := h.routingId_eq
  rw [forwardConnection, readConnection, if_neg h.size, hid]
  exact congrArg (List.map (routingId, ·)) h.splits.readMessages.1

/-- The connection ends in an error exactly if the rest goes wrong. -/
theorem failed (h : Carries stream routingId messages rest) (e : SizeError) :
    (forwardConnection stream).2 = .error (.size e) ↔ GoesWrong e rest := by
  rw [← h.splits.readMessages.2.2, forwardConnection, readConnection, if_neg h.size]
  dsimp only
  split
  · rename_i e' he
    simp [he]
  · rename_i hother
    exact iff_of_false nofun (hother e)

theorem ended (h : Carries stream routingId messages rest) (hright : ∀ e, ¬ GoesWrong e rest) :
    (forwardConnection stream).2 = .ok () := by
  have hstop := h.splits.readMessages.2.2
  rw [forwardConnection, readConnection, if_neg h.size]
  dsimp only
  split
  · rename_i e he
    exact absurd ((hstop e).mp he) (hright e)
  · rfl

end Carries

/-! ### Reading piece by piece -/

namespace Feed
variable {f : Feed} {forwarded : List (List UInt8 × Content)}

/-- A feed that took in the bytes of a stream so far and forwarded what there was in them. -/
inductive Follows (f : Feed) (stream : ByteArray) (forwarded : List (List UInt8 × Content)) : Prop
  | short (hsize : stream.size < routingIdLength) (hf : f = ⟨none, stream, false⟩)
      (hnone : forwarded = [])
  | carried {routingId rest : List UInt8} {messages : List Content}
      (h : Carries stream routingId messages rest) (hid : f.routingId = some routingId)
      (hforwarded : forwarded = messages.map (routingId, ·))
      (hbroken : f.broken = true ↔ ∃ e, GoesWrong e rest)
      (hpending : f.broken = false → octets f.pending = rest)

theorem drain_eq {bytes : ByteArray} {rest : List UInt8} {messages : List Content}
    (h : Splits ((octets bytes).drop place) messages rest) :
    (f.drain bytes place).1 = messages ∧ (f.drain bytes place).2.routingId = f.routingId ∧
      octets (f.drain bytes place).2.pending = rest ∧
      ((f.drain bytes place).2.broken = true ↔ ∃ e, GoesWrong e rest) := by
  obtain ⟨hmessages, hnext, hstop⟩ := h.readMessages
  refine ⟨hmessages, rfl, ?_, ?_⟩
  · change octets (bytes.extract _ bytes.size) = rest
    have hlength : rest.length = bytes.size - (readMessages bytes place).next := by
      rw [← hnext, List.length_drop, length_octets]
    rw [octets_extract, hnext]
    exact List.take_of_length_le (Nat.le_of_eq hlength)
  · unfold drain
    dsimp only
    split
    · rename_i e he
      exact iff_of_true rfl ⟨e, (hstop e).mp he⟩
    · rename_i hother
      exact iff_of_false Bool.false_ne_true fun ⟨e, he⟩ => hother e ((hstop e).mpr he)

theorem Follows.push (h : f.Follows stream forwarded) (piece : ByteArray) :
    (f.push piece).2.Follows (stream ++ piece)
      (forwarded ++ (f.push piece).1.map ((f.push piece).2.routingId.getD [], ·)) := by
  cases h with
  | short hsize hf hnone =>
    subst hf hnone
    by_cases hfew : (stream ++ piece).size < routingIdLength
    · have hpush : (⟨none, stream, false⟩ : Feed).push piece = ([], ⟨none, stream ++ piece, false⟩) :=
        if_pos hfew
      rw [hpush]
      exact .short hfew rfl rfl
    · obtain ⟨routingId, messages, rest, hcarries⟩ := Carries.exists_carries hfew
      have hpush : (⟨none, stream, false⟩ : Feed).push piece =
          (⟨some (octets ((stream ++ piece).extract 0 routingIdLength)), stream, false⟩ : Feed).drain
            (stream ++ piece) routingIdLength := if_neg hfew
      rw [hcarries.routingId_eq] at hpush
      obtain ⟨hmessages, hid, hpending, hbroken⟩ :=
        drain_eq (f := ⟨some routingId, stream, false⟩) hcarries.splits
      rw [hpush, hmessages, hid]
      exact .carried hcarries hid rfl hbroken fun _ => hpending
  | @carried routingId rest messages hcarries hid hforwarded hbroken hpending =>
    have heq : octets (stream ++ piece) =
        routingId ++ (octetsOfMessages messages ++ (rest ++ octets piece)) := by
      rw [octets_append, hcarries.eq]
      simp only [List.append_assoc]
    by_cases hwrong : f.broken = true
    · have hpush : f.push piece = ([], f) := if_pos hwrong
      obtain ⟨e, hgoes⟩ := hbroken.mp hwrong
      have hgoes := hgoes.append (octets piece)
      rw [hpush, List.map_nil, List.append_nil]
      refine .carried ⟨hcarries.long, heq, hcarries.framable, hgoes.stuck⟩ hid hforwarded
        (iff_of_true hwrong ⟨e, hgoes⟩) fun hright => ?_
      rw [hright] at hwrong
      cases hwrong
    · have hpush : f.push piece = f.drain (f.pending ++ piece) 0 := by
        unfold Feed.push
        rw [if_neg hwrong, hid]
      obtain ⟨more, rest', hsplits⟩ := Splits.exists_splits (rest ++ octets piece)
      have hbytes : (octets (f.pending ++ piece)).drop 0 = rest ++ octets piece := by
        rw [List.drop_zero, octets_append, hpending (Bool.eq_false_iff.mpr hwrong)]
      obtain ⟨hmore, hsame, hpending', hbroken'⟩ := drain_eq (f := f) (hbytes ▸ hsplits)
      rw [hpush, hmore, hsame, hid, hforwarded]
      refine .carried ⟨hcarries.long, ?_, ?_, hsplits.stuck⟩ (hsame.trans hid)
        List.map_append.symm hbroken' fun _ => hpending'
      · rw [heq, hsplits.eq, octetsOfMessages_append, List.append_assoc]
      · exact List.forall_mem_append.mpr ⟨hcarries.framable, hsplits.framable⟩

theorem Follows.pushAll (h : f.Follows stream forwarded) (pieces : List ByteArray) :
    (f.pushAll pieces).2.Follows (pieces.foldl (· ++ ·) stream)
      (forwarded ++ (f.pushAll pieces).1) := by
  induction pieces generalizing f stream forwarded with
  | nil =>
    rw [Feed.pushAll, List.append_nil]
    exact h
  | cons piece pieces ih =>
    have hrest := ih (h.push piece)
    rw [List.append_assoc] at hrest
    exact hrest

/-- A feed forwards what the connection brings, and breaks where it goes wrong. -/
theorem Follows.agrees (h : f.Follows stream forwarded) :
    forwarded = (forwardConnection stream).1 ∧
      (f.broken = true ↔ ∃ e, (forwardConnection stream).2 = .error (.size e)) := by
  cases h with
  | short hsize hf hnone =>
    subst hf hnone
    rw [forwardConnection, readConnection, if_pos hsize]
    exact ⟨rfl, iff_of_false Bool.false_ne_true nofun⟩
  | carried hcarries hid hforwarded hbroken hpending =>
    exact ⟨hforwarded.trans hcarries.forwarded.symm,
      hbroken.trans (exists_congr fun e => (hcarries.failed e).symm)⟩

end Feed

/-! ### Streams that are written are read -/

theorem Carries.of_take {routingId : List UInt8} {messages : List Content}
    (hid : routingId.length = 17) (hm : ∀ m ∈ messages, Framable m) {n : Nat} (hn : 17 ≤ n) :
    ∃ k ≤ messages.length, ∃ rest,
      Carries ((writeConnection routingId messages).extract 0 n) routingId (messages.take k) rest ∧
        (∀ e, ¬ GoesWrong e rest) ∧ ∀ j ≤ messages.length,
          (writeConnection routingId (messages.take j)).size ≤ n ↔ j ≤ k := by
  obtain ⟨k, hk, rest, hsplits, hright, hwhole⟩ := Splits.take hm (n - 17)
  refine ⟨k, hk, rest, ⟨hid, ?_, hsplits.framable, hsplits.stuck⟩, hright, fun j hj => ?_⟩
  · rw [octets_extract, octets_writeConnection, List.drop_zero, Nat.sub_zero, List.take_append, hid,
      List.take_of_length_le (hid ▸ hn), hsplits.eq]
  · rw [← length_octets, octets_writeConnection, List.length_append, hid, ← hwhole j hj]
    omega

/-- What is written is read, and a stream that is cut brings the messages that are whole. -/
theorem forwardConnection_take {routingId : List UInt8} {messages : List Content}
    (hid : routingId.length = 17) (hm : ∀ m ∈ messages, Framable m) {n : Nat} (hn : 17 ≤ n) :
    ∃ k ≤ messages.length,
      forwardConnection ((writeConnection routingId messages).extract 0 n) =
        ((messages.take k).map (routingId, ·), .ok ()) ∧
      ∀ j ≤ messages.length, (writeConnection routingId (messages.take j)).size ≤ n ↔ j ≤ k := by
  obtain ⟨k, hk, rest, hcarries, hright, hwhole⟩ := Carries.of_take hid hm hn
  exact ⟨k, hk, Prod.ext hcarries.forwarded (hcarries.ended hright), hwhole⟩

theorem forwardConnection_writeConnection {routingId : List UInt8} {messages : List Content}
    (hid : routingId.length = 17) (hm : ∀ m ∈ messages, Framable m) :
    forwardConnection (writeConnection routingId messages) = (messages.map (routingId, ·), .ok ()) := by
  have hcarries : Carries (writeConnection routingId messages) routingId messages [] := by
    refine ⟨hid, ?_, hm, stuck_nil⟩
    rw [octets_writeConnection, List.append_nil]
  exact Prod.ext hcarries.forwarded (hcarries.ended not_goesWrong_nil)

/-- What is behind a place where a stream goes wrong is not read. -/
theorem forwardConnection_of_malformed {routingId : List UInt8} {messages : List Content}
    {e : SizeError} {bad : ByteArray} (hid : routingId.length = 17) (hm : ∀ m ∈ messages, Framable m)
    (hbad : Malformed e (octets bad)) (tail : ByteArray) :
    forwardConnection (writeConnection routingId messages ++ (bad ++ tail)) =
      (messages.map (routingId, ·), .error (.size e)) := by
  have hwrong : GoesWrong e (octets bad ++ octets tail) := ⟨_, hbad, List.prefix_append _ _⟩
  have hcarries : Carries (writeConnection routingId messages ++ (bad ++ tail)) routingId messages
      (octets bad ++ octets tail) := by
    refine ⟨hid, ?_, hm, hwrong.stuck⟩
    rw [octets_append, octets_append, octets_writeConnection, List.append_assoc]
  exact Prod.ext hcarries.forwarded ((hcarries.failed e).mpr hwrong)

/-- What is read was written, up to where the stream ends or goes wrong. -/
theorem exists_forwardConnection {stream : ByteArray} (h : 17 ≤ stream.size) :
    ∃ routingId messages rest, routingId.length = 17 ∧ (∀ m ∈ messages, Framable m) ∧
      stream = writeConnection routingId messages ++ rest ∧
      (forwardConnection stream).1 = messages.map (routingId, ·) ∧
      ((forwardConnection stream).2 = .ok () ∧ (∀ e, ¬ GoesWrong e (octets rest)) ∨
        ∃ e, (forwardConnection stream).2 = .error (.size e) ∧ GoesWrong e (octets rest)) := by
  obtain ⟨routingId, messages, rest, hcarries⟩ := Carries.exists_carries (Nat.not_lt_of_le h)
  refine ⟨routingId, messages, ⟨rest.toArray⟩, hcarries.long, hcarries.framable, ?_,
    hcarries.forwarded, ?_⟩
  · apply octets_inj
    rw [hcarries.eq, octets_append, octets_writeConnection, octets_mk, List.append_assoc]
  · rw [octets_mk]
    by_cases hwrong : ∃ e, GoesWrong e rest
    · obtain ⟨e, hwrong⟩ := hwrong
      exact .inr ⟨e, (hcarries.failed e).mpr hwrong, hwrong⟩
    · have hright := not_exists.mp hwrong
      exact .inl ⟨hcarries.ended hright, hright⟩

/-- What is written is read, however it is cut into pieces, and of a stream that is cut off at the end
the messages that are whole. What is read was written, up to where the stream ends or goes wrong; what
comes behind that is not read. -/
theorem transmitted :
    (∀ (routingId : List UInt8) (messages : List Content), routingId.length = 17 →
      (∀ m ∈ messages, Framable m) →
      (∃ encodings, messages.mapM writeMessage = .ok encodings ∧
        writeConnection routingId messages = encodings.foldl (· ++ ·) ⟨routingId.toArray⟩) ∧
      forwardConnection (writeConnection routingId messages) = (messages.map (routingId, ·), .ok ()) ∧
      ∀ n, 17 ≤ n → ∃ k ≤ messages.length,
        forwardConnection ((writeConnection routingId messages).extract 0 n) =
          ((messages.take k).map (routingId, ·), .ok ()) ∧
        ∀ j ≤ messages.length, (writeConnection routingId (messages.take j)).size ≤ n ↔ j ≤ k) ∧
    (∀ pieces : List ByteArray,
      let stream := pieces.foldl (· ++ ·) .empty
      (Feed.new.pushAll pieces).1 = (forwardConnection stream).1 ∧
        ((Feed.new.pushAll pieces).2.broken = true ↔
          ∃ e, (forwardConnection stream).2 = .error (.size e))) ∧
    (∀ stream : ByteArray, 17 ≤ stream.size →
      ∃ routingId messages rest, routingId.length = 17 ∧ (∀ m ∈ messages, Framable m) ∧
        stream = writeConnection routingId messages ++ rest ∧
        (forwardConnection stream).1 = messages.map (routingId, ·) ∧
        ((forwardConnection stream).2 = .ok () ∧ (∀ e, ¬ GoesWrong e (octets rest)) ∨
          ∃ e, (forwardConnection stream).2 = .error (.size e) ∧ GoesWrong e (octets rest))) ∧
    (∀ stream : ByteArray, stream.size < 17 →
      forwardConnection stream = ([], .error .unexpectedEnd)) ∧
    ∀ (routingId : List UInt8) (messages : List Content) (e : SizeError) (bad tail : ByteArray),
      routingId.length = 17 → (∀ m ∈ messages, Framable m) → Malformed e (octets bad) →
      forwardConnection (writeConnection routingId messages ++ (bad ++ tail)) =
        (messages.map (routingId, ·), .error (.size e)) := by
  refine ⟨fun routingId messages hid hm => ⟨?_, ?_, ?_⟩, fun pieces => ?_, ?_, ?_, ?_⟩
  case refine_1 => exact ⟨_, mapM_writeMessage hm, writeConnection_eq routingId messages⟩
  case refine_2 => exact forwardConnection_writeConnection hid hm
  case refine_3 => exact fun n hn => forwardConnection_take hid hm hn
  case refine_4 =>
    have hnew : Feed.new.Follows .empty [] := .short (by decide) rfl rfl
    exact (hnew.pushAll pieces).agrees
  case refine_5 => exact fun stream h => exists_forwardConnection h
  case refine_6 =>
    intro stream h
    have hnone : readConnection stream = none := if_pos h
    rw [forwardConnection, hnone]
  case refine_7 =>
    exact fun routingId messages e bad tail hid hm hbad => forwardConnection_of_malformed hid hm hbad tail

end PeerMesh.Tcp
