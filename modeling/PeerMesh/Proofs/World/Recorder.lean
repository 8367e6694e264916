import PeerMesh.Proofs.Station.View
import PeerMesh.World

/-!
# Writing down what is sent

A recorder passes everything on to another carriage and writes down what the mailboxes took. It
serves to speak of messages that have long been delivered; nothing that an engine does depends on
it. The latter is shown for any view of a carriage that commutes with connecting and sending.
-/

namespace PeerMesh
set_option autoImplicit false

/-- A carriage that writes down what its mailboxes take. -/
structure Recorder (κ μ : Type) where
  inner : κ
  /-- What was taken, oldest first, each with the mailbox that took it. -/
  taken : List (μ × Content)

namespace Recorder
variable {κ μ : Type}

def connect [Carriage κ μ] (c : Recorder κ μ) (routingId : List UInt8) (endpoint : String) :
    Except ConnectError μ × Recorder κ μ :=
  let (result, inner) := Carriage.connect c.inner routingId endpoint
  (result, { c with inner })

def send [Carriage κ μ] (c : Recorder κ μ) (box : μ) (content : Content) :
    SendResult × Recorder κ μ :=
  match Carriage.send c.inner box content with
  | (.ok (), inner) => (.ok (), ⟨inner, c.taken ++ [(box, content)]⟩)
  | (.error e, inner) => (.error e, ⟨inner, c.taken⟩)

instance [Carriage κ μ] : Carriage (Recorder κ μ) μ := ⟨connect, send⟩

instance [Inboxes κ] : Inboxes (Recorder κ μ) where
  receive c endpoint :=
    let (delivery, inner) := Inboxes.receive c.inner endpoint
    (delivery, { c with inner })

end Recorder

variable {κ κ' μ : Type} [Carriage κ μ] [Carriage κ' μ]

/-- Connecting and sending look the same through `f`. -/
structure IsView (f : κ → κ') : Prop where
  connect : ∀ c routingId endpoint, Carriage.connect (f c) routingId endpoint =
    ((Carriage.connect c routingId endpoint).1, f (Carriage.connect c routingId endpoint).2)
  send : ∀ c box content, Carriage.send (f c) box content =
    ((Carriage.send c box content).1, f (Carriage.send c box content).2)

theorem Recorder.isView_inner : IsView (inner : Recorder κ μ → κ) where
  connect _ _ _ := rfl
  send c box content := by
    change Carriage.send c.inner box content = ((Recorder.send c box content).1,
      (Recorder.send c box content).2.inner)
    unfold Recorder.send
    split <;> assumption

variable {f : κ → κ'}

theorem IsView.mirrors (hf : IsView f) : Mirrors f fun box : μ => box where
  connect c routingId endpoint := by
    rw [hf.connect]
    cases (Carriage.connect c routingId endpoint).1 <;> rfl
  send := hf.send

namespace Station

def map (f : κ → κ') (s : Station κ μ) : Station κ' μ := ⟨s.engine, f s.carriage, s.journal⟩

omit [Carriage κ μ] [Carriage κ' μ] in
theorem through_eq_map (f : κ → κ') (s : Station κ μ) : (s.through f fun box => box) = s.map f := by
  rw [through, Engine.through_self]
  rfl

theorem perform_map (hf : IsView f) (walk : Walk) (s : Station κ μ) (op : Op) :
    ((s.map f).perform walk op).2 = (s.perform walk op).2.map f := by
  rw [← through_eq_map, ← through_eq_map]
  exact perform_through hf.mirrors walk s op

end Station

/-! ### Worlds -/

namespace World

omit [Carriage κ μ] [Carriage κ' μ] in
def map (f : κ → κ') (w : World κ μ) : World κ' μ := ⟨w.engines, f w.carriage, w.journal⟩

theorem perform_map (hf : IsView f) (walk : Walk) (w : World κ μ) (n : Nat) (op : Op) :
    ((w.map f).perform walk n op).2 = (w.perform walk n op).2.map f := by
  have hengines : (w.map f).engines = w.engines := rfl
  rw [perform, perform, visit, visit, hengines]
  cases w.engines[n]? with
  | none => rfl
  | some e =>
    have hstep := Station.perform_map hf walk ⟨e, w.carriage, w.journal⟩ op
    dsimp only
    rw [Station.map] at hstep
    dsimp only [map]
    rw [hstep]
    rfl

variable [Inboxes κ] [Inboxes κ']

theorem deliver_map (hf : IsView f)
    (hr : ∀ c endpoint, Inboxes.receive (f c) endpoint =
      ((Inboxes.receive c endpoint).1, f (Inboxes.receive c endpoint).2))
    (walk : Walk) (w : World κ μ) (n now : Nat) :
    (w.map f).deliver walk n now =
      ((w.deliver walk n now).1, (w.deliver walk n now).2.map f) := by
  have hengines : (w.map f).engines = w.engines := rfl
  have hcarriage : (w.map f).carriage = f w.carriage := rfl
  rw [deliver, deliver, hengines, hcarriage]
  cases w.engines[n]? with
  | none => rfl
  | some e =>
    dsimp only
    rw [hr]
    rcases Inboxes.receive w.carriage e.endpoint with ⟨_ | d, c⟩
    · rfl
    · exact congrArg (Prod.mk true) (perform_map hf walk { w with carriage := c } n _)

end World
end PeerMesh
