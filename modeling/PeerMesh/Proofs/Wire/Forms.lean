import PeerMesh.Proofs.Wire.RoundTrip

/-!
# What a head frame may look like

The forms below say which bytes spell which message. Beside them a head frame is a row of parts, each
of which may announce further ones: the command id announces the fields of the command, and a count
its items. A reader accepts a form if it gives exactly what the form spells, and follows parts if it
fails where they do; both are kept when readers are put together.
-/

namespace PeerMesh.Wire
set_option autoImplicit false

/-! ### Forms -/

/-- A string: a length byte, and that many bytes of UTF-8. -/
def StringForm (s : String) (bytes : List UInt8) : Prop :=
  ∃ n : UInt8, n.toNat = (utf8 s).length ∧ bytes = n :: utf8 s

inductive EachForm : List String → List UInt8 → Prop
  | nil : EachForm [] []
  | cons {s list head tail} (hs : StringForm s head) (ht : EachForm list tail) :
    EachForm (s :: list) (head ++ tail)

/-- A list of strings: a count byte, and that many strings. -/
def StringsForm (list : List String) (bytes : List UInt8) : Prop :=
  ∃ (n : UInt8) (items : List UInt8), n.toNat = list.length ∧ bytes = n :: items ∧ EachForm list items

/-- Headers: a list of strings `key=value`, of which the last one with a key counts. -/
def HeadersForm (headers : Headers) (bytes : List UInt8) : Prop :=
  ∃ entries : List (String × String), (∀ entry ∈ entries, '=' ∉ entry.1.toList) ∧
    StringsForm (entries.map entryText) bytes ∧
    ∀ key, headers.get? key = entries.reverse.lookup key

def HelloForm (h : Hello) (bytes : List UInt8) : Prop :=
  ∃ endpoint groups name headers, StringForm h.endpoint endpoint ∧ StringsForm h.groups groups ∧
    StringForm h.name name ∧ HeadersForm h.headers headers ∧
    bytes = endpoint ++ (groups ++ h.status :: (name ++ headers))

/-- The fields of a command. The content is not among them. -/
inductive FieldsForm (content : Content) : Body → List UInt8 → Prop
  | hello {h bytes} (hh : HelloForm h bytes) : FieldsForm content (.hello h) bytes
  | whisper : FieldsForm content (.whisper content) []
  | shout {group bytes} (h : StringForm group bytes) : FieldsForm content (.shout group content) bytes
  | join {group bytes status} (h : StringForm group bytes) :
    FieldsForm content (.join group status) (bytes ++ [status])
  | leave {group bytes status} (h : StringForm group bytes) :
    FieldsForm content (.leave group status) (bytes ++ [status])
  | ping : FieldsForm content .ping []
  | pingOk : FieldsForm content .pingOk []

def WordForm (n : UInt16) (hi lo : UInt8) : Prop := n.toNat = 256 * hi.toNat + lo.toNat

def HeadForm (content : Content) (m : Message) (bytes : List UInt8) : Prop :=
  ∃ hi lo fields, WordForm m.sequence hi lo ∧ FieldsForm content m.body fields ∧
    bytes = 0xAA :: 0xA1 :: m.body.command.code :: 2 :: hi :: lo :: fields

/-! ### Parts -/

inductive Part
  | signature
  | id
  | version
  | sequence
  | byte (field : Field)
  | string (field : Field)
  | header
  /-- The count of a list. -/
  | list (field : Field) (item : Part)

namespace Part

def field : Part → Field
  | signature => .signature
  | id => .id
  | version => .version
  | sequence => .sequence
  | byte field | string field | list field _ => field
  | header => .headers

def fieldsOf : Command → List Part
  | .hello => [string .endpoint, list .groups (string .groups), byte .status, string .name,
      list .headers header]
  | .shout => [string .group]
  | .join | .leave => [string .group, byte .status]
  | .whisper | .ping | .pingOk => []

/-- The bytes are a part in good form, which announces the parts `more`. -/
inductive Takes : Part → List UInt8 → List Part → Prop
  | signature : Takes signature [0xAA, 0xA1] []
  | id (c : Command) : Takes id [c.code] (version :: sequence :: fieldsOf c)
  | version : Takes version [2] []
  | sequence (hi lo : UInt8) : Takes sequence [hi, lo] []
  | byte (field : Field) (b : UInt8) : Takes (byte field) [b] []
  | string {field s bytes} (h : StringForm s bytes) : Takes (string field) bytes []
  | header {s bytes} (h : StringForm s bytes) (hs : '=' ∈ s.toList) : Takes header bytes []
  | list (field : Field) (item : Part) (n : UInt8) :
    Takes (list field item) [n] (List.replicate n.toNat item)

/-- How many bytes a part would take off the front. -/
def width : Part → List UInt8 → Nat
  | signature, _ | sequence, _ => 2
  | string _, n :: _ | header, n :: _ => 1 + n.toNat
  | _, _ => 1

/-- Why a part cannot be read. Only what is there in full is looked at. -/
inductive Refuses : Part → List UInt8 → DecodeError → Prop
  | short {p bytes} (h : bytes.length < p.width bytes) : Refuses p bytes (.truncated p.field)
  | signature {n hi lo rest} (hn : WordForm n hi lo) (h : ¬ (hi = 0xAA ∧ lo = 0xA1)) :
    Refuses signature (hi :: lo :: rest) (.badSignature n)
  | id {b rest} (h : ∀ c : Command, b ≠ c.code) : Refuses id (b :: rest) (.unknownCommand b)
  | version {b rest} (h : b ≠ 2) : Refuses version (b :: rest) (.badVersion b)
  | string {field n text rest} (hl : text.length = n.toNat) (h : ∀ s, utf8 s ≠ text) :
    Refuses (string field) (n :: (text ++ rest)) (.invalidUtf8 field)
  | entry {n text rest} (hl : text.length = n.toNat) (h : ∀ s, utf8 s ≠ text) :
    Refuses header (n :: (text ++ rest)) (.invalidUtf8 .headers)
  | header {s bytes rest} (hs : StringForm s bytes) (h : '=' ∉ s.toList) :
    Refuses header (bytes ++ rest) .badHeader

end Part

/-- The first of the parts that cannot be read is the error `e`. -/
inductive Fails : List Part → List UInt8 → DecodeError → Prop
  | here {p later bytes e} (h : p.Refuses bytes e) : Fails (p :: later) bytes e
  | there {p later front more rest e} (hp : p.Takes front more) (h : Fails (more ++ later) rest e) :
    Fails (p :: later) (front ++ rest) e

theorem not_fails_nil (bytes : List UInt8) (e : DecodeError) : ¬ Fails [] bytes e := by
  intro h
  cases h

theorem fails_cons {p : Part} {later : List Part} {bytes : List UInt8} {e : DecodeError} :
    Fails (p :: later) bytes e ↔ p.Refuses bytes e ∨ ∃ front more rest, bytes = front ++ rest ∧
      p.Takes front more ∧ Fails (more ++ later) rest e := by
  constructor
  · intro h
    cases h with
    | here h => exact .inl h
    | there hp h => exact .inr ⟨_, _, _, rfl, hp, h⟩
  · rintro (h | ⟨front, more, rest, rfl, hp, h⟩)
    · exact .here h
    · exact .there hp h

/-! ### Readers -/

/-- A reader takes exactly the forms of a value off the front. -/
def Accepts {α : Type} (r : Reader α) (form : α → List UInt8 → Prop) : Prop :=
  ∀ bytes x rest, r bytes = .ok (x, rest) ↔ ∃ front, bytes = front ++ rest ∧ form x front

/-- A reader fails where the first of the parts fails that cannot be read, and otherwise leaves what
is behind them. -/
def Follows {α : Type} (r : Reader α) (parts : List Part) : Prop :=
  ∀ later bytes e, Fails (parts ++ later) bytes e ↔
    r bytes = .error e ∨ ∃ x rest, r bytes = .ok (x, rest) ∧ Fails later rest e

theorem bind_eq_error {ε α β : Type} {x : Except ε α} {f : α → Except ε β} {e : ε} :
    x >>= f = .error e ↔ x = .error e ∨ ∃ a, x = .ok a ∧ f a = .error e := by
  cases x with
  | error e' =>
    constructor
    · intro h
      cases h
      exact .inl rfl
    · rintro (h | ⟨a, ha, -⟩)
      · cases h
        rfl
      · cases ha
  | ok a =>
    constructor
    · exact fun h => .inr ⟨a, rfl, h⟩
    · rintro (h | ⟨a', ha, h⟩)
      · cases h
      · cases ha
        exact h

section
variable {α β : Type} {r : Reader α} {k : α → Reader β}

theorem Accepts.bind {form : α → List UInt8 → Prop} {form' : α → β → List UInt8 → Prop}
    (hr : Accepts r form) (hk : ∀ x, Accepts (k x) (form' x)) :
    Accepts (fun bytes => r bytes >>= fun p => k p.1 p.2) fun y bytes =>
      ∃ x front back, bytes = front ++ back ∧ form x front ∧ form' x y back := by
  intro bytes y rest
  rw [bind_eq_ok]
  constructor
  · rintro ⟨⟨x, middle⟩, hx, hy⟩
    obtain ⟨front, rfl, hfront⟩ := (hr _ _ _).mp hx
    obtain ⟨back, rfl, hback⟩ := (hk x _ _ _).mp hy
    exact ⟨front ++ back, (List.append_assoc _ _ _).symm, x, front, back, rfl, hfront, hback⟩
  · rintro ⟨_, rfl, x, front, back, rfl, hfront, hback⟩
    refine ⟨(x, back ++ rest), (hr _ _ _).mpr ⟨front, List.append_assoc _ _ _, hfront⟩, ?_⟩
    exact (hk x _ _ _).mpr ⟨back, rfl, hback⟩

theorem Accepts.pure (x : α) :
    Accepts (fun bytes => .ok (x, bytes)) fun y bytes => y = x ∧ bytes = [] := by
  intro bytes y rest
  constructor
  · intro h
    cases h
    exact ⟨[], rfl, rfl, rfl⟩
  · rintro ⟨_, rfl, rfl, rfl⟩
    rfl

theorem Accepts.congr {form form' : α → List UInt8 → Prop} (hr : Accepts r form)
    (h : ∀ {x bytes}, form x bytes ↔ form' x bytes) : Accepts r form' := by
  intro bytes x rest
  rw [hr]
  exact exists_congr fun _ => and_congr_right fun _ => h

theorem Accepts.map {form : α → List UInt8 → Prop} (hr : Accepts r form) (f : α → β) :
    Accepts (fun bytes => r bytes >>= fun p => .ok (f p.1, p.2))
      fun y bytes => ∃ x, form x bytes ∧ y = f x := by
  refine (hr.bind fun x => Accepts.pure (f x)).congr fun {y bytes} => exists_congr fun x => ?_
  constructor
  · rintro ⟨front, _, rfl, hfront, rfl, rfl⟩
    rw [List.append_nil]
    exact ⟨hfront, rfl⟩
  · rintro ⟨hform, rfl⟩
    exact ⟨bytes, [], (List.append_nil _).symm, hform, rfl, rfl⟩

namespace Follows
variable {parts parts' : List Part}

theorem pure (x : α) : Follows (fun bytes => .ok (x, bytes)) [] := by
  intro later bytes e
  constructor
  · exact fun h => .inr ⟨x, bytes, rfl, h⟩
  · rintro (h | ⟨_, _, h, hlater⟩)
    · cases h
    · cases h
      exact hlater

/-- Reading on follows the parts of both readers. -/
theorem bind (hr : Follows r parts) (hk : ∀ x, Follows (k x) parts') :
    Follows (fun bytes => r bytes >>= fun p => k p.1 p.2) (parts ++ parts') := by
  intro later bytes e
  rw [List.append_assoc, hr, bind_eq_error, or_assoc]
  refine or_congr_right ?_
  constructor
  · rintro ⟨x, rest, hx, h⟩
    rcases (hk x _ _ _).mp h with h | ⟨y, rest', hy, h⟩
    · exact .inl ⟨(x, rest), hx, h⟩
    · exact .inr ⟨y, rest', bind_eq_ok.mpr ⟨(x, rest), hx, hy⟩, h⟩
  · rintro (⟨⟨x, rest⟩, hx, h⟩ | ⟨y, rest', hy, h⟩)
    · exact ⟨x, rest, hx, (hk x _ _ _).mpr (.inl h)⟩
    · obtain ⟨⟨x, rest⟩, hx, hy⟩ := bind_eq_ok.mp hy
      exact ⟨x, rest, hx, (hk x _ _ _).mpr (.inr ⟨y, rest', hy, h⟩)⟩

theorem map (hr : Follows r parts) (f : α → β) :
    Follows (fun bytes => r bytes >>= fun p => .ok (f p.1, p.2)) parts := by
  have hbind := hr.bind (k := fun x bytes => .ok (f x, bytes)) fun x => Follows.pure (f x)
  rw [List.append_nil] at hbind
  exact hbind

/-- A reader of one part reads on as the value announces. -/
theorem announce {p : Part} {form : α → List UInt8 → Prop} {announced : α → List Part}
    (hr : Accepts r form) (herror : ∀ bytes e, r bytes = .error e ↔ p.Refuses bytes e)
    (htakes : ∀ {front more}, p.Takes front more ↔ ∃ x, form x front ∧ more = announced x)
    (hk : ∀ x, Follows (k x) (announced x)) :
    Follows (fun bytes => r bytes >>= fun p => k p.1 p.2) [p] := by
  intro later bytes e
  rw [List.singleton_append, fails_cons, bind_eq_error, herror, or_assoc]
  refine or_congr_right ?_
  constructor
  · rintro ⟨front, more, rest, hbytes, hp, h⟩
    obtain ⟨x, hform, rfl⟩ := htakes.mp hp
    have hx := (hr _ _ _).mpr ⟨front, hbytes, hform⟩
    rcases (hk x _ _ _).mp h with h | ⟨y, rest', hy, h⟩
    · exact .inl ⟨(x, rest), hx, h⟩
    · exact .inr ⟨y, rest', bind_eq_ok.mpr ⟨(x, rest), hx, hy⟩, h⟩
  · rintro (⟨⟨x, rest⟩, hx, h⟩ | ⟨y, rest', hy, h⟩)
    · obtain ⟨front, hbytes, hform⟩ := (hr _ _ _).mp hx
      exact ⟨front, _, rest, hbytes, htakes.mpr ⟨x, hform, rfl⟩, (hk x _ _ _).mpr (.inl h)⟩
    · obtain ⟨⟨x, rest⟩, hx, hy⟩ := bind_eq_ok.mp hy
      obtain ⟨front, hbytes, hform⟩ := (hr _ _ _).mp hx
      exact ⟨front, _, rest, hbytes, htakes.mpr ⟨x, hform, rfl⟩,
        (hk x _ _ _).mpr (.inr ⟨y, rest', hy, h⟩)⟩

theorem single {p : Part} {form : α → List UInt8 → Prop} (hr : Accepts r form)
    (herror : ∀ bytes e, r bytes = .error e ↔ p.Refuses bytes e)
    (htakes : ∀ {front more}, p.Takes front more ↔ ∃ x, form x front ∧ more = []) :
    Follows r [p] := by
  have hread := announce (k := fun x bytes => .ok (x, bytes)) hr herror htakes Follows.pure
  have hsame : (fun bytes => r bytes >>= fun p => .ok (p.1, p.2)) = r := by
    funext bytes
    cases r bytes <;> rfl
  rw [hsame] at hread
  exact hread

end Follows
end

/-! ### Checked readers -/

/-- Reads a value and looks at it; what cannot be used is an error. -/
def checked {α β : Type} (r : Reader α) (check : α → Except DecodeError β) : Reader β := fun bytes => do
  let (x, bytes) ← r bytes
  let y ← check x
  return (y, bytes)

section
variable {α β : Type} {r : Reader α} {form : α → List UInt8 → Prop}

theorem accepts_checked (hr : Accepts r form) (check : α → Except DecodeError β) :
    Accepts (checked r check) fun y bytes => ∃ x, form x bytes ∧ check x = .ok y := by
  intro bytes y rest
  rw [checked, bind_eq_ok]
  constructor
  · rintro ⟨⟨x, rest'⟩, hx, h⟩
    obtain ⟨front, rfl, hform⟩ := (hr _ _ _).mp hx
    obtain ⟨y', hy, h⟩ := bind_eq_ok.mp h
    cases h
    exact ⟨front, rfl, x, hform, hy⟩
  · rintro ⟨front, rfl, x, hform, hy⟩
    exact ⟨(x, rest), (hr _ _ _).mpr ⟨front, rfl, hform⟩, bind_eq_ok.mpr ⟨y, hy, rfl⟩⟩

theorem checked_bind {γ : Type} (check : α → Except DecodeError β)
    (f : β × List UInt8 → Except DecodeError γ) (bytes : List UInt8) : checked r check bytes >>= f =
      r bytes >>= fun p => check p.1 >>= fun y => f (y, p.2) := by
  rw [checked, bind_assoc]
  refine bind_congr fun p => ?_
  rw [bind_assoc]
  rfl

theorem checked_eq_error (hr : Accepts r form) {check : α → Except DecodeError β}
    {bytes : List UInt8} {e : DecodeError} : checked r check bytes = .error e ↔
      r bytes = .error e ∨
        ∃ x front rest, bytes = front ++ rest ∧ form x front ∧ check x = .error e := by
  rw [checked, bind_eq_error]
  refine or_congr_right ?_
  constructor
  · rintro ⟨⟨x, rest⟩, hx, h⟩
    obtain ⟨front, hbytes, hform⟩ := (hr _ _ _).mp hx
    rcases bind_eq_error.mp h with h | ⟨y, -, h⟩
    · exact ⟨x, front, rest, hbytes, hform, h⟩
    · cases h
  · rintro ⟨x, front, rest, hbytes, hform, h⟩
    exact ⟨(x, rest), (hr _ _ _).mpr ⟨front, hbytes, hform⟩, bind_eq_error.mpr (.inl h)⟩

end

end PeerMesh.Wire
