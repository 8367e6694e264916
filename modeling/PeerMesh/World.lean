import PeerMesh.Engine.Op
import PeerMesh.Network

/-! Several engines on one network. Each engine reads the inbox at its own endpoint; the world
decides which engine does what, and when a waiting message is delivered. -/

namespace PeerMesh
set_option autoImplicit false

/-- A carriage in one process, whose inboxes can be read where they are. -/
class Inboxes (κ : Type) where
  receive : κ → String → Option Delivery × κ

instance : Inboxes Network := ⟨Network.receive⟩

instance {κ : Type} [Inboxes κ] : Inboxes (Metered κ) where
  receive c endpoint :=
    let (delivery, inner) := Inboxes.receive c.inner endpoint
    (delivery, { c with inner })

/-- Engines that share a carriage, and the notes that they took. -/
structure World (κ μ : Type) where
  engines : List (Engine μ)
  carriage : κ
  journal : Array Note

namespace World
variable {κ μ : Type} [Carriage κ μ]

/-- Lets engine `n` take a step from its station; an engine that is not there does nothing. -/
def visit {α : Type} (w : World κ μ) (n : Nat) (idle : α) (f : Station κ μ → α × Station κ μ) :
    α × World κ μ :=
  match w.engines[n]? with
  | none => (idle, w)
  | some e =>
    let (result, s) := f ⟨e, w.carriage, w.journal⟩
    (result, ⟨w.engines.set n s.engine, s.carriage, s.journal⟩)

def perform (walk : Walk) (w : World κ μ) (n : Nat) (op : Op) : Except CommandError Unit × World κ μ :=
  w.visit n (.ok ()) fun s => s.perform walk op

def drain (w : World κ μ) (n : Nat) : List Event × World κ μ := w.visit n [] (·.drain)

variable [Inboxes κ]

/-- Delivers the oldest message waiting for engine `n`, and says whether there was one. -/
def deliver (walk : Walk) (w : World κ μ) (n : Nat) (now : Nat) : Bool × World κ μ :=
  match w.engines[n]? with
  | none => (false, w)
  | some e =>
    match Inboxes.receive w.carriage e.endpoint with
    | (none, carriage) => (false, { w with carriage })
    | (some d, carriage) =>
      (true, (({ w with carriage }).perform walk n (.receive d.routingId d.content now)).2)

/-- Delivers the messages waiting for engine `n` until its inbox is empty, `budget` of them at
most, and counts them. -/
def deliverAll (walk : Walk) (now n : Nat) : Nat → World κ μ → Nat × World κ μ
  | 0, w => (0, w)
  | budget + 1, w =>
    match w.deliver walk n now with
    | (false, w) => (0, w)
    | (true, w) =>
      let (count, w) := deliverAll walk now n budget w
      (count + 1, w)

/-- Goes once through the given engines, emptying each one's inbox. The answer counts the messages
delivered to each. -/
def deliverRound (walk : Walk) (now : Nat) : List Nat → Nat → World κ μ → List Nat × World κ μ
  | [], _, w => ([], w)
  | n :: ns, budget, w =>
    let (count, w) := deliverAll walk now n budget w
    let (counts, w) := deliverRound walk now ns (budget - count) w
    (count :: counts, w)

/-- Goes round until a round delivers nothing or the budget is used up. A round that delivers
something uses up part of the budget, so there are no more rounds than the budget has messages. -/
def deliverRounds (walk : Walk) (now : Nat) : Nat → Nat → World κ μ → List Nat × World κ μ
  | 0, _, w => (w.engines.map fun _ => 0, w)
  | rounds + 1, budget, w =>
    let (counts, w) := deliverRound walk now (List.range w.engines.length) budget w
    if counts.sum = 0 then (counts, w)
    else
      let (more, w) := deliverRounds walk now rounds (budget - counts.sum) w
      (List.zipWith (· + ·) counts more, w)

/-- Delivers waiting messages, in rounds over the engines, until all inboxes are empty or `most`
messages were delivered. -/
def pump (walk : Walk) (w : World κ μ) (now most : Nat) : List Nat × World κ μ :=
  deliverRounds walk now most most w

end World
end PeerMesh
