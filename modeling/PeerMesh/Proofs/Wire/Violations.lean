import PeerMesh.Proofs.Wire.Spelling

/-!
# Why a message has no wire form

What stands against a message is listed in the order of the wire, each thing with the error that it
is. Every writer reports the first of what it finds, and goes on if it finds nothing.
-/

namespace PeerMesh.Wire
set_option autoImplicit false

/-! ### What stands against a message -/

def tooLong (field : Field) (s : String) : List EncodeError :=
  if s.utf8ByteSize ≤ limit then [] else [.stringTooLong field s.utf8ByteSize]

def tooMany (field : Field) (count : Nat) : List EncodeError :=
  if count ≤ limit then [] else [.tooManyItems field count]

/-- What stands against a header: a `=` in its key, and the length of the whole entry. -/
def entryViolations (entry : String × String) : List EncodeError :=
  (if '=' ∈ entry.1.toList then [.headerKey entry.1] else []) ++ tooLong .headers (entryText entry)

/-- All that stands against a body, in the order of the wire; headers come in ascending order of key. -/
def violations : Body → List EncodeError
  | .hello h => tooLong .endpoint h.endpoint ++
      ((tooMany .groups h.groups.length ++ h.groups.flatMap (tooLong .groups)) ++
      (tooLong .name h.name ++
      (tooMany .headers h.headers.size ++ h.headers.entries.flatMap entryViolations)))
  | .shout group _ | .join group _ | .leave group _ => tooLong .group group
  | .whisper _ | .ping | .pingOk => []

/-! ### Reporting -/

/-- A writer fails for the first thing that it finds, and only for that. -/
def Reports {α : Type} (x : Except EncodeError α) (found : List EncodeError) : Prop :=
  ∀ e, x = .error e ↔ found.head? = some e

namespace Reports
variable {α β : Type} {x : Except EncodeError α} {found found' : List EncodeError}

theorem ok (a : α) : Reports (.ok a) [] := fun _ => iff_of_false (fun h => by cases h) (fun h => by cases h)

theorem error (e : EncodeError) (found : List EncodeError) :
    Reports (.error e : Except EncodeError α) (e :: found) := by
  intro e'
  rw [List.head?_cons, Except.error.injEq, Option.some.injEq]

theorem head?_eq_none {a : α} (h : Reports (.ok a) found) : found.head? = none := by
  rw [Option.eq_none_iff_forall_ne_some]
  intro e he
  cases (h e).mpr he

theorem bind {f : α → Except EncodeError β} (h : Reports x found) (hf : ∀ a, Reports (f a) found') :
    Reports (x >>= f) (found ++ found') := by
  intro e
  rw [List.head?_append]
  cases x with
  | error e' =>
    rw [(h e').mp rfl, Option.some_or]
    exact error e' [] e
  | ok a =>
    rw [h.head?_eq_none, Option.none_or]
    exact hf a e

theorem map (h : Reports x found) (f : α → β) : Reports (x >>= fun a => .ok (f a)) found := by
  have hbind := h.bind fun a => ok (f a)
  rwa [List.append_nil] at hbind

/-- A count is looked at before the items. -/
theorem counted (h : Reports x found) (field : Field) (count : Nat) :
    Reports (if count ≤ limit then x else .error (.tooManyItems field count))
      (tooMany field count ++ found) := by
  unfold tooMany
  split
  · exact h
  · exact error _ found

end Reports

theorem reports_ofString (field : Field) (s : String) : Reports (ofString field s) (tooLong field s) := by
  unfold ofString tooLong
  split
  · exact .ok _
  · exact .error _ []

theorem reports_ofEach (field : Field) (list : List String) :
    Reports (ofEach field list) (list.flatMap (tooLong field)) := by
  induction list with
  | nil => exact .ok []
  | cons s list ih =>
    rw [List.flatMap_cons]
    exact (reports_ofString field s).bind fun head => ih.map (head ++ ·)

theorem reports_ofStrings (field : Field) (list : List String) : Reports (ofStrings field list)
    (tooMany field list.length ++ list.flatMap (tooLong field)) :=
  ((reports_ofEach field list).map _).counted field list.length

theorem reports_ofHeader (entry : String × String) :
    Reports (ofHeader entry.1 entry.2) (entryViolations entry) := by
  unfold ofHeader entryViolations
  split
  · exact .error _ _
  · exact reports_ofString .headers (entryText entry)

theorem reports_ofEachHeader (list : List (String × String)) :
    Reports (ofEachHeader list) (list.flatMap entryViolations) := by
  induction list with
  | nil => exact .ok []
  | cons entry list ih =>
    rw [List.flatMap_cons]
    exact (reports_ofHeader entry).bind fun head => ih.map (head ++ ·)

theorem reports_ofHeaders (headers : Headers) : Reports (ofHeaders headers)
    (tooMany .headers headers.size ++ headers.entries.flatMap entryViolations) :=
  ((reports_ofEachHeader headers.entries).map _).counted .headers headers.size

theorem reports_ofFields (body : Body) : Reports (ofFields body) (violations body) := by
  cases body with
  | hello h =>
    exact (reports_ofString .endpoint h.endpoint).bind fun endpoint =>
      (reports_ofStrings .groups h.groups).bind fun groups =>
      (reports_ofString .name h.name).bind fun name => (reports_ofHeaders h.headers).map _
  | shout group content => exact reports_ofString .group group
  | join group status | leave group status => exact (reports_ofString .group group).map _
  | whisper | ping | pingOk => exact .ok []

theorem reports_encode (m : Message) : Reports (encode m) (violations m.body) :=
  ((reports_ofFields m.body).map _).map _

/-- When a message has a wire form, and what is reported if it has none: the first thing that stands
against it. What is written spells the message with nothing left out, each length byte and each count
byte being what it counts. -/
theorem encode_decided (m : Message) :
    ((∃ frames, encode m = .ok frames) ↔ m.body.WithinLimits m.body.entries) ∧
    (∀ e, encode m = .error e ↔ (violations m.body).head? = some e) ∧
    ∀ frames, encode m = .ok frames → ∃ head, frames = ⟨head.toArray⟩ :: contentFrames m.body ∧
      HeadForm (contentFrames m.body) m head := by
  refine ⟨?_, reports_encode m, ?_⟩
  · simp only [encode_eq_ok, exists_and_left, exists_eq, and_true]
  · intro frames h
    obtain ⟨hlimits, rfl⟩ := encode_eq_ok.mp h
    exact ⟨_, rfl, headForm_iff.mpr ⟨fun _ => rfl, _, hlimits, m.body.toldBy_entries, rfl⟩⟩

/-- Of four things that stand against a HELLO the group is reported. -/
theorem encode_decided_overlong :
    let long := String.ofList (List.replicate 256 'z')
    let greeting : Message := ⟨1, .hello ⟨"", ["a", long], 0, long, .ofList [("k=", long)]⟩⟩
    let joining : Message := ⟨2, .join "chat" 7⟩
    (violations greeting.body).length = 4 ∧ encode greeting = .error (.stringTooLong .groups 256) ∧
      joining.body.WithinLimits joining.body.entries ∧
      ∃ frames head, encode joining = .ok frames ∧ frames = [⟨head.toArray⟩] ∧ HeadForm [] joining head := by
  intro long greeting joining
  have hlimits : joining.body.WithinLimits joining.body.entries := by
    change "chat".utf8ByteSize ≤ 255
    decide
  obtain ⟨frames, hframes⟩ := (encode_decided joining).1.mpr hlimits
  obtain ⟨head, hhead, hform⟩ := (encode_decided joining).2.2 frames hframes
  exact ⟨by decide +kernel, ((encode_decided greeting).2.1 _).mpr (by decide +kernel), hlimits,
    frames, head, hframes, hhead, hform⟩

end PeerMesh.Wire
