import PeerMesh.Proofs.Wire.Fields

/-!
# Which head frames can be read

A head frame is read if it spells a message, and then it gives this message. A frame that spells none
fails at the first part, in the order of the wire, that cannot be read, and the part decides the
error.
-/

namespace PeerMesh.Wire
set_option autoImplicit false

/-! ### Head frames -/

def checkSignature (found : UInt16) : Except DecodeError Unit :=
  if found = signature then .ok () else .error (.badSignature found)

def checkCommand (code : UInt8) : Except DecodeError Command :=
  (Command.ofCode? code).elim (.error (.unknownCommand code)) .ok

def checkVersion (found : UInt8) : Except DecodeError Unit :=
  if found = version then .ok () else .error (.badVersion found)

def readSignature : Reader Unit := checked (readUInt16 .signature) checkSignature

def readCommand : Reader Command := checked (readByte .id) checkCommand

def readVersion : Reader Unit := checked (readByte .version) checkVersion

/-- What stands behind the command id. -/
def readRest (content : Content) (c : Command) : Reader Message := fun bytes =>
  readVersion bytes >>= fun p => readUInt16 .sequence p.2 >>= fun p =>
    readFields content c p.2 >>= fun q => .ok (⟨p.1, q.1⟩, q.2)

theorem readHead_eq (content : Content) : readHead content = fun bytes =>
    readSignature bytes >>= fun p => readCommand p.2 >>= fun p => readRest content p.1 p.2 := by
  funext bytes
  rw [readHead, readSignature, checked_bind]
  refine bind_congr ?_
  rintro ⟨found, bytes⟩
  dsimp only
  by_cases hsig : found = signature
  · rw [checkSignature, if_pos hsig, if_neg (not_not_intro hsig)]
    change _ = readCommand bytes >>= _
    rw [readCommand, checked_bind]
    refine bind_congr ?_
    rintro ⟨code, bytes⟩
    dsimp only
    rw [checkCommand]
    cases Command.ofCode? code with
    | none => rfl
    | some c =>
      change _ = readRest content c bytes
      rw [readRest, readVersion, checked_bind]
      refine bind_congr ?_
      rintro ⟨found, bytes⟩
      dsimp only
      by_cases hver : found = version
      · rw [checkVersion, if_pos hver, if_neg (not_not_intro hver)]
        rfl
      · rw [checkVersion, if_neg hver, if_pos hver]
        rfl
  · rw [checkSignature, if_neg hsig, if_pos hsig]
    rfl

theorem wordForm_signature {hi lo : UInt8} :
    WordForm signature hi lo ↔ hi = 0xAA ∧ lo = 0xA1 := by
  have hhi : hi.toNat < 256 := hi.toNat_lt
  have hlo : lo.toNat < 256 := lo.toNat_lt
  change 43681 = 256 * hi.toNat + lo.toNat ↔ _
  rw [← UInt8.toNat_inj, ← UInt8.toNat_inj]
  change _ ↔ hi.toNat = 170 ∧ lo.toNat = 161
  omega

theorem accepts_readSignature : Accepts readSignature fun _ bytes => bytes = [0xAA, 0xA1] := by
  refine (accepts_checked (accepts_readUInt16 .signature) checkSignature).congr fun {_ bytes} => ?_
  have hcheck : ∀ found, checkSignature found = .ok () ↔ found = signature := fun found => by
    simp [checkSignature]
  constructor
  · rintro ⟨found, ⟨hi, lo, rfl, hword⟩, hok⟩
    obtain rfl := (hcheck found).mp hok
    obtain ⟨rfl, rfl⟩ := wordForm_signature.mp hword
    rfl
  · rintro rfl
    exact ⟨signature, ⟨0xAA, 0xA1, rfl, wordForm_signature.mpr ⟨rfl, rfl⟩⟩, (hcheck _).mpr rfl⟩

theorem readSignature_eq_error {bytes : List UInt8} {e : DecodeError} :
    readSignature bytes = .error e ↔ Part.signature.Refuses bytes e := by
  have hcheck : ∀ found, checkSignature found = .error e ↔
      found ≠ signature ∧ e = .badSignature found := fun found => by
    rw [checkSignature]
    split <;> simp_all [eq_comm]
  rw [readSignature, checked_eq_error (accepts_readUInt16 .signature), readUInt16_eq_error]
  constructor
  · rintro (⟨h, rfl⟩ | ⟨found, _, rest, rfl, ⟨hi, lo, rfl, hword⟩, herror⟩)
    · exact .short (p := .signature) h
    · obtain ⟨hne, rfl⟩ := (hcheck found).mp herror
      refine .signature hword fun hsig => hne ?_
      exact UInt16.toNat_inj.mp (hword.trans (wordForm_signature.mpr hsig).symm)
  · intro h
    cases h with
    | short h => exact .inl ⟨h, rfl⟩
    | @signature found hi lo rest hword h =>
      refine .inr ⟨found, [hi, lo], rest, rfl, ⟨hi, lo, rfl, hword⟩, (hcheck found).mpr ⟨?_, rfl⟩⟩
      rintro rfl
      exact h (wordForm_signature.mp hword)

theorem follows_readSignature : Follows readSignature [.signature] := by
  refine .single accepts_readSignature (fun bytes e => readSignature_eq_error)
    fun {front more} => ?_
  constructor
  · intro h
    cases h with
    | signature => exact ⟨(), rfl, rfl⟩
  · rintro ⟨-, rfl, rfl⟩
    exact .signature

theorem accepts_readVersion : Accepts readVersion fun _ bytes => bytes = [version] := by
  refine (accepts_checked (accepts_readByte .version) checkVersion).congr fun {_ bytes} => ?_
  constructor
  · rintro ⟨found, rfl, hok⟩
    have hver : found = version := by simpa [checkVersion] using hok
    rw [hver]
  · rintro rfl
    exact ⟨version, rfl, by simp [checkVersion]⟩

theorem readVersion_eq_error {bytes : List UInt8} {e : DecodeError} :
    readVersion bytes = .error e ↔ Part.version.Refuses bytes e := by
  have hcheck : ∀ found, checkVersion found = .error e ↔
      found ≠ version ∧ e = .badVersion found := fun found => by
    rw [checkVersion]
    split <;> simp_all [eq_comm]
  rw [readVersion, checked_eq_error (accepts_readByte .version), readByte_eq_error]
  constructor
  · rintro (⟨rfl, rfl⟩ | ⟨found, _, rest, rfl, rfl, herror⟩)
    · exact .short (p := .version) Nat.one_pos
    · obtain ⟨hne, rfl⟩ := (hcheck found).mp herror
      exact .version hne
  · intro h
    cases h with
    | short h => exact .inl ⟨List.eq_nil_of_length_eq_zero (Nat.lt_one_iff.mp h), rfl⟩
    | @version found rest h => exact .inr ⟨found, [found], rest, rfl, rfl, (hcheck found).mpr ⟨h, rfl⟩⟩

theorem follows_readVersion : Follows readVersion [.version] := by
  refine .single accepts_readVersion (fun bytes e => readVersion_eq_error) fun {front more} => ?_
  constructor
  · intro h
    cases h with
    | version => exact ⟨(), rfl, rfl⟩
  · rintro ⟨-, rfl, rfl⟩
    exact .version

theorem accepts_readCommand : Accepts readCommand fun c bytes => bytes = [c.code] := by
  refine (accepts_checked (accepts_readByte .id) checkCommand).congr fun {c bytes} => ?_
  have hcheck : ∀ code, checkCommand code = .ok c ↔ code = c.code := fun code => by
    rw [← Command.ofCode?_eq_some, checkCommand]
    cases Command.ofCode? code <;> simp
  constructor
  · rintro ⟨code, rfl, hok⟩
    rw [(hcheck code).mp hok]
  · rintro rfl
    exact ⟨c.code, rfl, (hcheck _).mpr rfl⟩

theorem readCommand_eq_error {bytes : List UInt8} {e : DecodeError} :
    readCommand bytes = .error e ↔ Part.id.Refuses bytes e := by
  have hcheck : ∀ code, checkCommand code = .error e ↔
      (∀ c : Command, code ≠ c.code) ∧ e = .unknownCommand code := fun code => by
    simp only [← Command.ofCode?_eq_some, ne_eq, checkCommand]
    cases Command.ofCode? code <;> simp [eq_comm]
  rw [readCommand, checked_eq_error (accepts_readByte .id), readByte_eq_error]
  constructor
  · rintro (⟨rfl, rfl⟩ | ⟨code, _, rest, rfl, rfl, herror⟩)
    · exact .short (p := .id) Nat.one_pos
    · obtain ⟨hne, rfl⟩ := (hcheck code).mp herror
      exact .id hne
  · intro h
    cases h with
    | short h => exact .inl ⟨List.eq_nil_of_length_eq_zero (Nat.lt_one_iff.mp h), rfl⟩
    | @id code rest h => exact .inr ⟨code, [code], rest, rfl, rfl, (hcheck code).mpr ⟨h, rfl⟩⟩

def RestForm (content : Content) (c : Command) (m : Message) (bytes : List UInt8) : Prop :=
  ∃ hi lo fields, WordForm m.sequence hi lo ∧ m.body.command = c ∧
    FieldsForm content m.body fields ∧ bytes = version :: hi :: lo :: fields

theorem accepts_readRest (content : Content) (c : Command) :
    Accepts (readRest content c) (RestForm content c) := by
  refine (accepts_readVersion.bind fun _ => (accepts_readUInt16 .sequence).bind fun sequence =>
    (accepts_readFields content c).map (Message.mk sequence)).congr fun {m bytes} => ?_
  constructor
  · rintro ⟨-, _, _, rfl, rfl, sequence, _, _, rfl, ⟨hi, lo, rfl, hword⟩, body, ⟨hc, hform⟩, rfl⟩
    exact ⟨hi, lo, _, hword, hc, hform, rfl⟩
  · rintro ⟨hi, lo, fields, hword, hc, hform, rfl⟩
    exact ⟨(), [version], _, rfl, rfl, m.sequence, [hi, lo], fields, rfl, ⟨hi, lo, rfl, hword⟩,
      m.body, ⟨hc, hform⟩, rfl⟩

theorem follows_readRest (content : Content) (c : Command) :
    Follows (readRest content c) (.version :: .sequence :: Part.fieldsOf c) :=
  follows_readVersion.bind fun _ => follows_sequence.bind fun sequence =>
    (follows_readFields content c).map (Message.mk sequence)

theorem accepts_readHead (content : Content) : Accepts (readHead content) (HeadForm content) := by
  rw [readHead_eq]
  refine (accepts_readSignature.bind fun _ => accepts_readCommand.bind fun c =>
    accepts_readRest content c).congr fun {m bytes} => ?_
  constructor
  · rintro ⟨-, _, _, rfl, rfl, c, _, _, rfl, rfl, hi, lo, fields, hword, rfl, hform, rfl⟩
    exact ⟨hi, lo, fields, hword, hform, rfl⟩
  · rintro ⟨hi, lo, fields, hword, hform, rfl⟩
    exact ⟨(), [0xAA, 0xA1], _, rfl, rfl, m.body.command, [m.body.command.code], _, rfl, rfl,
      hi, lo, fields, hword, rfl, hform, rfl⟩

theorem follows_readHead (content : Content) : Follows (readHead content) [.signature, .id] := by
  have hid : Follows (fun bytes => readCommand bytes >>= fun p => readRest content p.1 p.2) [.id] := by
    refine .announce accepts_readCommand (fun bytes e => readCommand_eq_error)
      (fun {front more} => ?_) (follows_readRest content)
    constructor
    · intro h
      cases h with
      | id c => exact ⟨c, rfl, rfl⟩
    · rintro ⟨c, rfl, rfl⟩
      exact .id c
  rw [readHead_eq]
  exact follows_readSignature.bind fun _ => hid

theorem decodeHead_eq_ok {head : ByteArray} {content : Content} {m : Message} :
    decodeHead head content = .ok m ↔
      ∃ front trailing, head.data.toList = front ++ trailing ∧ HeadForm content m front := by
  have hread : decodeHead head content = .ok m ↔
      ∃ rest, readHead content head.data.toList = .ok (m, rest) := by
    rw [decodeHead]
    cases readHead content head.data.toList with
    | error e => simp [Except.map]
    | ok p => simp [Except.map, Prod.ext_iff]
  simp only [hread, accepts_readHead content _ _ _]
  exact exists_comm

theorem decodeHead_eq_error {head : ByteArray} {content : Content} {e : DecodeError} :
    decodeHead head content = .error e ↔ Fails [.signature, .id] head.data.toList e := by
  have hfails := follows_readHead content [] head.data.toList e
  simp only [List.append_nil, not_fails_nil, and_false, exists_false, or_false] at hfails
  rw [hfails, decodeHead]
  cases readHead content head.data.toList with
  | error e' => simp [Except.map]
  | ok p => simp [Except.map]

/-- What a head frame that stands alone is read as: the message it spells, bytes behind the last
field left aside, or the error of the first part that cannot be read. -/
theorem decodeFrame_classified (head : ByteArray) :
    (∀ m, decodeFrame head = .ok m ↔
      ∃ front trailing, head.data.toList = front ++ trailing ∧ HeadForm [] m front) ∧
    ∀ e, decodeFrame head = .error e ↔ Fails [.signature, .id] head.data.toList e :=
  ⟨fun _ => decodeHead_eq_ok, fun _ => decodeHead_eq_error⟩

end PeerMesh.Wire
