import PeerMesh.Proofs.Station.Mailing
import PeerMesh.Proofs.Station.View
import PeerMesh.Proofs.Wire.RoundTrip
import PeerMesh.Proofs.World.Sequence

/-!
# Keeping account of every mailbox

A ledger stands between an engine and any carriage. It numbers the mailboxes as they are opened and
has one line for each, on which it writes what the mailbox is handed and what it answers. Nothing is
ever struck out, so that the lines tell of mailboxes long closed.
-/

namespace PeerMesh
set_option autoImplicit false

/-- What one mailbox was handed, oldest first, and what it answered. -/
abbrev Line := List (Content × SendResult)

namespace Line
variable {l : Line} {content : Content} {m : Message} {e : SendError}

def taken (l : Line) : List Content := (l.filter (·.2.isOk)).map (·.1)

def said (l : Line) : List Message := l.taken.filterMap fun content => (Wire.decode content).toOption

/-- No HELLO, JOIN or LEAVE was turned away by itself. Where one did not get through, the mailbox
was lost. -/
def Lenient (l : Line) : Prop :=
  ∀ content m e, (content, .error e) ∈ l → Wire.decode content = .ok m → e.isFatal = false →
    m.body.isNeutral = true

theorem taken_append (l l' : Line) : taken (l ++ l') = taken l ++ taken l' := by
  rw [taken, List.filter_append, List.map_append]
  rfl

theorem said_append (l l' : Line) : said (l ++ l') = said l ++ said l' := by
  rw [said, taken_append, List.filterMap_append]
  rfl

theorem taken_refused (l : Line) (content : Content) (e : SendError) :
    taken (l ++ [(content, .error e)]) = taken l := by
  rw [taken_append]
  exact List.append_nil _

theorem said_refused (l : Line) (content : Content) (e : SendError) :
    said (l ++ [(content, .error e)]) = said l := by
  rw [said, taken_refused]
  rfl

theorem taken_took (l : Line) (content : Content) :
    taken (l ++ [(content, .ok ())]) = taken l ++ [content] :=
  taken_append l _

theorem said_took (l : Line) (hm : Wire.decode content = .ok m) :
    said (l ++ [(content, .ok ())]) = said l ++ [m] := by
  rw [said, taken_took, List.filterMap_append]
  congr 1
  apply List.filterMap_cons_some
  rw [hm]
  rfl

theorem Lenient.of_append {l l' : Line} (h : Lenient (l ++ l')) : l.Lenient :=
  fun content m e hmem => h content m e (List.mem_append_left _ hmem)

theorem not_lenient_refused (l : Line) (hm : Wire.decode content = .ok m)
    (hb : m.body.isNeutral = false) (he : e.isFatal = false) :
    ¬ Lenient (l ++ [(content, .error e)]) := by
  intro h
  have hneutral := h content m e (List.mem_append_right _ List.mem_cons_self) hm he
  rw [hb] at hneutral
  cases hneutral

/-- A line as an engine keeps it. -/
structure Orderly (l : Line) : Prop where
  spelled : List.Forall₂ (fun m content => Wire.encode m = .ok content) l.said l.taken
  inSequence : InSequence l.said
  fits : l.Lenient → AllFit none l.said

namespace Orderly

theorem nil : Orderly [] := ⟨.nil, .nil, fun _ => trivial⟩

theorem refused (h : l.Orderly) (content : Content) (e : SendError) :
    Orderly (l ++ [(content, .error e)]) := by
  constructor
  · rw [said_refused, taken_refused]
    exact h.spelled
  · rw [said_refused]
    exact h.inSequence
  · intro hl
    rw [said_refused]
    exact h.fits hl.of_append

theorem took (h : l.Orderly) (hf : Wire.encode m = .ok content)
    (hn : m.sequence = .ofNat (l.said.length + 1)) (hm : m.isHello = true ↔ l.said = [])
    (hfit : l.Lenient → Fits (replay none l.said) m) : Orderly (l ++ [(content, .ok ())]) := by
  have hsaid := said_took l (Wire.decode_of_encode hf)
  constructor
  · rw [hsaid, taken_took]
    exact List.rel_append h.spelled (.cons hf .nil)
  · rw [hsaid]
    exact h.inSequence.snoc hn hm
  · intro hl
    rw [hsaid]
    exact allFit_append.mpr ⟨h.fits hl.of_append, hfit hl.of_append, trivial⟩

end Orderly
end Line

/-! ### Ledgers -/

/-- A mailbox with the number of its line. -/
structure Box (μ : Type) where
  number : Nat
  inner : μ

structure Ledger (κ : Type) where
  inner : κ
  lines : List Line

namespace Ledger
variable {κ μ : Type} [Carriage κ μ] {c c' : Ledger κ}

def connect (c : Ledger κ) (routingId : List UInt8) (endpoint : String) :
    Except ConnectError (Box μ) × Ledger κ :=
  match Carriage.connect c.inner routingId endpoint with
  | (.ok box, inner) => (.ok ⟨c.lines.length, box⟩, ⟨inner, c.lines ++ [[]]⟩)
  | (.error e, inner) => (.error e, { c with inner })

def send (c : Ledger κ) (box : Box μ) (content : Content) : SendResult × Ledger κ :=
  let (result, inner) := Carriage.send c.inner box.inner content
  (result, ⟨inner, c.lines.modify box.number (· ++ [(content, result)])⟩)

instance : Carriage (Ledger κ) (Box μ) := ⟨connect, send⟩

/-- The ledger only watches. -/
theorem mirrors : Mirrors (inner : Ledger κ → κ) (Box.inner : Box μ → μ) where
  connect c routingId endpoint := by
    change Carriage.connect c.inner routingId endpoint = ((connect c routingId endpoint).1.map Box.inner,
      (connect c routingId endpoint).2.inner)
    unfold connect
    rcases Carriage.connect c.inner routingId endpoint with ⟨e | box, inner⟩ <;> rfl
  send _ _ _ := rfl

theorem lines_of_unreached {routingId : List UInt8} {endpoint : String} {e : ConnectError}
    (h : Carriage.connect c routingId endpoint = (.error e, c')) : c'.lines = c.lines := by
  change connect c routingId endpoint = _ at h
  unfold connect at h
  split at h
  · cases h
  · cases h
    rfl

theorem lines_of_opened {routingId : List UInt8} {endpoint : String} {box : Box μ}
    (h : Carriage.connect c routingId endpoint = (.ok box, c')) :
    box.number = c.lines.length ∧ c'.lines = c.lines ++ [[]] := by
  change connect c routingId endpoint = _ at h
  unfold connect at h
  split at h
  · cases h
    exact ⟨rfl, rfl⟩
  · cases h

theorem lines_of_send {box : Box μ} {content : Content} {result : SendResult}
    (h : Carriage.send c box content = (result, c')) :
    c'.lines = c.lines.modify box.number (· ++ [(content, result)]) := by
  cases h
  rfl

theorem lines_of_first {routingId : List UInt8} {endpoint : String} {box : Box μ}
    {content : Content} {result : SendResult} {c'' : Ledger κ}
    (hc : Carriage.connect c routingId endpoint = (.ok box, c'))
    (hs : Carriage.send c' box content = (result, c'')) :
    box.number = c.lines.length ∧ c''.lines = c.lines ++ [[(content, result)]] := by
  obtain ⟨hnumber, hlines⟩ := lines_of_opened hc
  refine ⟨hnumber, ?_⟩
  rw [lines_of_send hs, hlines, hnumber, List.modify_eq_take_drop]
  simp

end Ledger

/-! ### Runs on a ledger -/

namespace Station
variable {κ μ : Type} [Carriage κ μ]

/-- A turn in which the carriage behind the ledger may have changed, but not the lines. -/
def onLedger (s : Station (Ledger κ) (Box μ)) (x : Turn κ) : Turn (Ledger κ) :=
  ⟨x.walk, ⟨x.carriage, s.carriage.lines⟩, x.op⟩

def ledgered (s : Station (Ledger κ) (Box μ)) : List (Turn κ) → List (Turn (Ledger κ))
  | [] => []
  | x :: turns => s.onLedger x :: (s.turn (s.onLedger x)).ledgered turns

def keep (s : Station (Ledger κ) (Box μ)) (turns : List (Turn κ)) : Station (Ledger κ) (Box μ) :=
  s.run (s.ledgered turns)

theorem keep_cons (s : Station (Ledger κ) (Box μ)) (x : Turn κ) (turns : List (Turn κ)) :
    s.keep (x :: turns) = (s.turn (s.onLedger x)).keep turns := rfl

theorem keep_append (s : Station (Ledger κ) (Box μ)) (before after : List (Turn κ)) :
    s.keep (before ++ after) = (s.keep before).keep after := by
  induction before generalizing s with
  | nil => rfl
  | cons x before ih => exact ih (s.turn (s.onLedger x))

/-- The station without its ledger. -/
def plain (s : Station (Ledger κ) (Box μ)) : Station κ μ := s.through Ledger.inner Box.inner

theorem plain_keep (s : Station (Ledger κ) (Box μ)) (turns : List (Turn κ)) :
    (s.keep turns).plain = s.plain.run turns := by
  induction turns generalizing s with
  | nil => rfl
  | cons x turns ih =>
    let u : Station (Ledger κ) (Box μ) := { s with carriage := (s.onLedger x).carriage }
    have hturn : (s.turn (s.onLedger x)).plain = s.plain.turn x :=
      (perform_through Ledger.mirrors x.walk u x.op).symm
    rw [keep_cons, ih, hturn]
    rfl

theorem sound_keep {s : Station (Ledger κ) (Box μ)} (hs : s.engine.Sound) (turns : List (Turn κ)) :
    (s.keep turns).engine.Sound :=
  sound_run hs (s.ledgered turns)

end Station
end PeerMesh
