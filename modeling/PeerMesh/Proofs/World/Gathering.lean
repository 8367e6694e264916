import Mathlib.Data.List.Nodup
import PeerMesh.Proofs.World.Talk
import PeerMesh.Proofs.World.Recorder

/-!
# Nodes that share a network

A gathering is a number of nodes that are new to each other and to a network, told apart by their
identities and by their endpoints. It takes any moves: applications, clocks and discovery act on
the nodes, and waiting messages are delivered, in any order. Endpoints may be bound or not and may
be limited, since a message that no mailbox takes does not set out.
-/

namespace PeerMesh
set_option autoImplicit false

variable {κ μ : Type}

/-- Whether an operation is neither a message nor the discovery of a node. -/
def Op.isLocal : Op → Bool
  | .receive .. | .discover (.found ..) _ => false
  | _ => true

inductive Move
  /-- Something is done to a node that takes nothing from another. -/
  | act (n : Nat) (walk : Walk) (op : Op) (hop : op.isLocal = true)
  /-- Node `n` discovers node `k` at its true endpoint. -/
  | find (n k : Nat) (walk : Walk) (now : Nat)
  /-- The oldest message that waits for node `n` is delivered. -/
  | deliver (n : Nat) (walk : Walk) (now : Nat)

namespace World
variable [Carriage κ μ] [Inboxes κ]

def move (w : World κ μ) : Move → World κ μ
  | .act n walk op _ => (w.perform walk n op).2
  | .find n k walk now =>
    match w.engines[k]? with
    | none => w
    | some e => (w.perform walk n (.discover (.found e.id e.endpoint) now)).2
  | .deliver n walk now => (w.deliver walk n now).2

def run (w : World κ μ) (moves : List Move) : World κ μ := moves.foldl move w

omit [Inboxes κ] in
theorem perform_of_some {w : World κ μ} {n : Nat} {e : Engine μ} (h : w.engines[n]? = some e)
    (walk : Walk) (op : Op) :
    (w.perform walk n op).2 =
      let t := (⟨e, w.carriage, w.journal⟩ : Station κ μ).step walk op
      ⟨w.engines.set n t.engine, t.carriage, t.journal⟩ := by
  rw [perform, visit, h]
  rfl

theorem deliver_of_some {w : World κ μ} {n : Nat} {e : Engine μ} (h : w.engines[n]? = some e)
    {d : Delivery} {c : κ} (hr : Inboxes.receive w.carriage e.endpoint = (some d, c)) (walk : Walk)
    (now : Nat) :
    (w.deliver walk n now).2 =
      let t := (⟨e, c, w.journal⟩ : Station κ μ).step walk (.receive d.routingId d.content now)
      ⟨w.engines.set n t.engine, t.carriage, t.journal⟩ := by
  rw [deliver, h]
  dsimp only
  rw [hr]
  exact perform_of_some (w := { w with carriage := c }) h walk _

omit [Inboxes κ] [Carriage κ μ] in
theorem drain_of_some {w : World κ μ} {n : Nat} {e : Engine μ} (h : w.engines[n]? = some e) :
    (w.drain n).1 = e.events := by
  rw [drain, visit, h]
  rfl

def handed (w : World κ μ) (n : Nat) : Move → List Event
  | .act k _ .drain _ => if k = n then (w.drain n).1 else []
  | _ => []

/-- The events that node `n` reports in many moves: those that its application took on the way, and
then those that are still queued. -/
def reported (n : Nat) : World κ μ → List Move → List Event
  | w, [] => (w.drain n).1
  | w, m :: moves => w.handed n m ++ reported n (w.move m) moves

variable {κ' : Type} [Carriage κ' μ] [Inboxes κ'] {f : κ → κ'}

theorem move_map (hf : IsView f)
    (hr : ∀ c endpoint, Inboxes.receive (f c) endpoint =
      ((Inboxes.receive c endpoint).1, f (Inboxes.receive c endpoint).2))
    (w : World κ μ) (m : Move) : (w.map f).move m = (w.move m).map f := by
  cases m with
  | act n walk op hop => exact perform_map hf walk w n op
  | find n k walk now =>
    have hengines : (w.map f).engines = w.engines := rfl
    rw [move, move, hengines]
    cases w.engines[k]? with
    | none => rfl
    | some e => exact perform_map hf walk w n _
  | deliver n walk now => exact congrArg Prod.snd (deliver_map hf hr walk w n now)

theorem run_map (hf : IsView f)
    (hr : ∀ c endpoint, Inboxes.receive (f c) endpoint =
      ((Inboxes.receive c endpoint).1, f (Inboxes.receive c endpoint).2))
    (w : World κ μ) (moves : List Move) : (w.map f).run moves = (w.run moves).map f := by
  induction moves generalizing w with
  | nil => rfl
  | cons m moves ih =>
    change ((w.map f).move m).run moves = ((w.move m).run moves).map f
    rw [move_map hf hr, ih]

omit [Carriage κ μ] [Carriage κ' μ] [Inboxes κ] [Inboxes κ'] in
theorem drain_map (f : κ → κ') (w : World κ μ) (n : Nat) : ((w.map f).drain n).1 = (w.drain n).1 := by
  have hengines : (w.map f).engines = w.engines := rfl
  rw [drain, drain, visit, visit, hengines]
  cases w.engines[n]? with
  | none => rfl
  | some e => rfl

theorem reported_map (hf : IsView f)
    (hr : ∀ c endpoint, Inboxes.receive (f c) endpoint =
      ((Inboxes.receive c endpoint).1, f (Inboxes.receive c endpoint).2))
    (n : Nat) (w : World κ μ) (moves : List Move) :
    (w.map f).reported n moves = w.reported n moves := by
  induction moves generalizing w with
  | nil => exact drain_map f w n
  | cons m moves ih =>
    have hhanded : (w.map f).handed n m = w.handed n m := by
      unfold handed
      split
      · rw [drain_map]
      · rfl
    rw [reported, reported, hhanded, move_map hf hr, ih]

end World

def Party.engine (who : Party) : Engine μ := .new who.id who.name who.endpoint who.timing

structure Gathering where
  parties : List Party
  network : Network
  ids_apart : (parties.map Party.id).Nodup
  endpoints_apart : (parties.map Party.endpoint).Nodup
  quiet : ∀ who ∈ parties, network.waiting who.endpoint = []

theorem Network.waiting_bind (net : Network) (endpoint place : String) :
    (net.bind endpoint).waiting place = net.waiting place := by
  unfold bind
  split
  · rfl
  · rename_i hnew
    rw [waiting, waiting, SortedMap.get?_insert]
    split
    · rename_i hplace
      cases hold : net.inboxes.get? place with
      | none => rfl
      | some queue =>
        rw [hplace] at hold
        exact absurd (SortedMap.contains_eq_true.mpr ⟨queue, hold⟩) hnew
    · rfl

namespace Gathering

/-- Nodes on a network where the endpoint of each is bound. -/
def bound (parties : List Party) (ids_apart : (parties.map Party.id).Nodup)
    (endpoints_apart : (parties.map Party.endpoint).Nodup) : Gathering where
  parties
  network := parties.foldl (fun net who => net.bind who.endpoint) .empty
  ids_apart
  endpoints_apart
  quiet := by
    have hbind : ∀ (l : List Party) (net : Network) (place : String),
        (l.foldl (fun net who => net.bind who.endpoint) net).waiting place = net.waiting place := by
      intro l net place
      induction l generalizing net with
      | nil => rfl
      | cons who l ih => rw [List.foldl_cons, ih, Network.waiting_bind]
    intro who _
    exact hbind parties .empty who.endpoint

def world (g : Gathering) (carriage : κ) : World κ μ := ⟨g.parties.map Party.engine, carriage, #[]⟩

def after (g : Gathering) (moves : List Move) : World Network Network.Mailbox :=
  World.run (g.world g.network) moves

/-- Like `after`, with a record of what the mailboxes took. -/
def recorded (g : Gathering) (moves : List Move) :
    World (Recorder Network Network.Mailbox) Network.Mailbox :=
  World.run (g.world ⟨g.network, []⟩) moves

def near (g : Gathering) (id : PeerId) (endpoint : String) : Prop :=
  ∃ who ∈ g.parties, who.id = id ∧ who.endpoint = endpoint

theorem after_eq_map_recorded (g : Gathering) (moves : List Move) :
    g.after moves = (g.recorded moves).map Recorder.inner :=
  World.run_map Recorder.isView_inner (fun _ _ => rfl) (g.world ⟨g.network, []⟩) moves

theorem near_of_mem {g : Gathering} {who : Party} (h : who ∈ g.parties) : g.near who.id who.endpoint :=
  ⟨who, h, rfl, rfl⟩

theorem eq_of_id {g : Gathering} {a b : Party} (ha : a ∈ g.parties) (hb : b ∈ g.parties)
    (h : a.id = b.id) : a = b :=
  List.inj_on_of_nodup_map g.ids_apart ha hb h

theorem eq_of_endpoint {g : Gathering} {a b : Party} (ha : a ∈ g.parties) (hb : b ∈ g.parties)
    (h : a.endpoint = b.endpoint) : a = b :=
  List.inj_on_of_nodup_map g.endpoints_apart ha hb h

theorem near_iff {g : Gathering} {whom : Party} (hwhom : whom ∈ g.parties) {id : PeerId}
    {endpoint : String} (h : g.near id endpoint) : id = whom.id ↔ endpoint = whom.endpoint := by
  obtain ⟨who, hwho, rfl, rfl⟩ := h
  constructor
  · intro hid
    rw [eq_of_id hwho hwhom hid]
  · intro hendpoint
    rw [eq_of_endpoint hwho hwhom hendpoint]

end Gathering
end PeerMesh
