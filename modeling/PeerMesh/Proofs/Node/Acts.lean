import PeerMesh.Node

/-!
# All or nothing

A call may look at its node, change it, and fail, in any order. Yet no call fails that has changed
something: it first looks at everything that could stand in its way, then it does at most one thing
that may fail, and that changes nothing if it fails, and what is left to do cannot fail.
-/

namespace PeerMesh
set_option autoImplicit false

namespace Node
variable {κ μ : Type}

namespace Act
open MonadExcept (ofExcept)
variable {α β : Type} {act : Act κ μ α} {f : α → Act κ μ β} {n m : Node κ μ}

/-! ### Outcomes -/

theorem outcome_get (n : Node κ μ) : (get : Act κ μ (Node κ μ)).outcome n = (.ok n, n) := rfl

theorem outcome_modify (g : Node κ μ → Node κ μ) (n : Node κ μ) :
    (modify g : Act κ μ Unit).outcome n = (.ok (), g n) := rfl

theorem outcome_ofExcept (x : Except NodeError α) (n : Node κ μ) :
    (ofExcept x : Act κ μ α).outcome n = (x, n) := by
  cases x <;> rfl

theorem outcome_bind (act : Act κ μ α) (f : α → Act κ μ β) (n : Node κ μ) :
    (act >>= f).outcome n =
      match act.outcome n with
      | (.ok a, m) => (f a).outcome m
      | (.error e, m) => (.error e, m) := by
  unfold outcome
  rw [ExceptT.run_bind, StateT.run_bind]
  rcases act.run.run n with ⟨_ | _, m⟩ <;> rfl

theorem outcome_tryCatch (act : Act κ μ α) (handle : NodeError → Act κ μ α) (n : Node κ μ) :
    (tryCatch act handle).outcome n =
      match act.outcome n with
      | (.ok a, m) => (.ok a, m)
      | (.error e, m) => (handle e).outcome m := by
  unfold outcome
  rw [ExceptT.run_tryCatch, StateT.run_bind]
  rcases act.run.run n with ⟨_ | _, m⟩ <;> rfl

theorem bind_eq_ok {b : β} : (act >>= f).outcome n = (.ok b, m) ↔
    ∃ a l, act.outcome n = (.ok a, l) ∧ (f a).outcome l = (.ok b, m) := by
  rw [outcome_bind]
  rcases act.outcome n with ⟨e | a, l⟩
  · refine iff_of_false (fun h => by cases h) ?_
    rintro ⟨_, _, h, -⟩
    cases h
  · refine ⟨fun h => ⟨a, l, rfl, h⟩, ?_⟩
    rintro ⟨_, _, h, hrest⟩
    cases h
    exact hrest

theorem bind_eq_error {e : NodeError} : (act >>= f).outcome n = (.error e, m) ↔
    act.outcome n = (.error e, m) ∨
      ∃ a l, act.outcome n = (.ok a, l) ∧ (f a).outcome l = (.error e, m) := by
  rw [outcome_bind]
  rcases act.outcome n with ⟨e' | a, l⟩
  · refine ⟨fun h => .inl (by cases h; rfl), ?_⟩
    rintro (h | ⟨_, _, h, -⟩)
    · cases h
      rfl
    · cases h
  · refine ⟨fun h => .inr ⟨a, l, rfl, h⟩, ?_⟩
    rintro (h | ⟨_, _, h, hrest⟩)
    · cases h
    · cases h
      exact hrest

theorem outcome_get_bind (f : Node κ μ → Act κ μ β) (n : Node κ μ) :
    (get >>= f).outcome n = (f n).outcome n := by
  rw [outcome_bind, outcome_get]

theorem outcome_modify_bind (g : Node κ μ → Node κ μ) (f : Unit → Act κ μ β) (n : Node κ μ) :
    (modify g >>= f).outcome n = (f ()).outcome (g n) := by
  rw [outcome_bind, outcome_modify]

theorem ofExcept_bind_eq_ok {x : Except NodeError α} {b : β} :
    (ofExcept x >>= f).outcome n = (.ok b, m) ↔ ∃ a, x = .ok a ∧ (f a).outcome n = (.ok b, m) := by
  rw [outcome_bind, outcome_ofExcept]
  cases x <;> simp

/-! ### Failures -/

/-- Only looks at the node. -/
def Reads (act : Act κ μ α) : Prop := ∀ n, (act.outcome n).2 = n

/-- Never fails. -/
def Certain (act : Act κ μ α) : Prop := ∀ n, ∃ a m, act.outcome n = (.ok a, m)

/-- Changes nothing if it fails. -/
def Atomic (act : Act κ μ α) : Prop := ∀ ⦃n e m⦄, act.outcome n = (.error e, m) → m = n

theorem reads_get : Reads (get : Act κ μ (Node κ μ)) := fun _ => rfl

theorem reads_ofExcept (x : Except NodeError α) : Reads (ofExcept x : Act κ μ α) := by
  intro n
  rw [outcome_ofExcept]

theorem certain_pure (a : α) : Certain (pure a : Act κ μ α) := fun n => ⟨a, n, rfl⟩

theorem certain_modify (g : Node κ μ → Node κ μ) : Certain (modify g : Act κ μ Unit) :=
  fun n => ⟨(), g n, rfl⟩

theorem atomic_throw (e : NodeError) : Atomic (throw e : Act κ μ α) :=
  fun _ _ _ h => (congrArg Prod.snd h).symm

theorem Reads.atomic (h : act.Reads) : act.Atomic := by
  intro n e m hfail
  have hsame := h n
  rw [hfail] at hsame
  exact hsame

theorem Certain.atomic (h : act.Certain) : act.Atomic := by
  intro n e m hfail
  obtain ⟨a, l, hok⟩ := h n
  rw [hok] at hfail
  cases hfail

theorem Certain.bind (h : act.Certain) (hf : ∀ a, (f a).Certain) : (act >>= f).Certain := by
  intro n
  obtain ⟨a, l, hok⟩ := h n
  obtain ⟨b, m, hend⟩ := hf a l
  exact ⟨b, m, bind_eq_ok.mpr ⟨a, l, hok, hend⟩⟩

theorem Reads.bind (h : act.Reads) (hf : ∀ a, (f a).Atomic) : (act >>= f).Atomic := by
  intro n e m hfail
  rcases bind_eq_error.mp hfail with hfirst | ⟨a, l, hfirst, hrest⟩
  · exact h.atomic hfirst
  · have hsame := h n
    rw [hfirst] at hsame
    exact (hf a hrest).trans hsame

theorem Atomic.bind (h : act.Atomic) (hf : ∀ a, (f a).Certain) : (act >>= f).Atomic := by
  intro n e m hfail
  rcases bind_eq_error.mp hfail with hfirst | ⟨a, l, -, hrest⟩
  · exact h hfirst
  · obtain ⟨b, k, hok⟩ := hf a l
    rw [hok] at hrest
    cases hrest

/-- Nothing fails where every failure is made up for. -/
theorem certain_tryCatch (act : Act κ μ α) {handle : NodeError → Act κ μ α}
    (hf : ∀ e, (handle e).Certain) : (tryCatch act handle).Certain := by
  intro n
  rw [outcome_tryCatch]
  rcases act.outcome n with ⟨e | a, m⟩
  · exact hf e m
  · exact ⟨a, m, rfl⟩

/-! ### The calls -/

theorem atomic_setName (name : String) : (setName name : Act κ μ Unit).Atomic :=
  reads_get.bind fun _ => (reads_ofExcept _).bind fun _ => (reads_ofExcept _).bind fun _ =>
    (certain_modify _).atomic

theorem atomic_takeOutlet : (takeOutlet : Act κ μ Unit).Atomic := by
  refine reads_get.bind fun n => ?_
  split
  · exact (certain_modify _).atomic
  · exact atomic_throw _

/-- All that can go wrong goes wrong before the outlet is taken. -/
theorem atomic_start [Carriage κ μ] (walk : Walk) (bound : Except Tcp.BindError Tcp.SocketAddress)
    (outward : Option Tcp.IpAddress) (published : Except Tcp.BindError Unit) (carriage : κ) :
    (start walk bound outward published carriage : Act κ μ Unit).Atomic := by
  refine reads_get.bind fun n => (reads_ofExcept _).bind fun _ => (reads_ofExcept _).bind fun _ => ?_
  refine (reads_ofExcept _).bind fun listener => (reads_ofExcept _).bind fun ip => ?_
  refine (reads_ofExcept _).bind fun station => (reads_ofExcept _).bind fun beacon => ?_
  exact atomic_takeOutlet.bind fun _ => certain_modify _

theorem atomic_request (r : Request) : (request r : Act κ μ Unit).Atomic := by
  refine reads_get.bind fun n => ?_
  split
  · exact atomic_throw _
  · split
    · exact atomic_throw _
    · exact (certain_modify _).atomic
  · exact atomic_throw _

theorem atomic_requestIfRunning (r : Request) : (requestIfRunning r : Act κ μ Unit).Atomic := by
  refine reads_get.bind fun n => ?_
  split
  · exact atomic_request r
  · exact (certain_pure _).atomic

theorem atomic_setHeader (key value : String) : (setHeader key value : Act κ μ Unit).Atomic :=
  reads_get.bind fun _ => (reads_ofExcept _).bind fun _ =>
    ((certain_modify _).bind fun _ => certain_tryCatch _ fun _ => certain_pure _).atomic

theorem atomic_join (group : String) : (join group : Act κ μ Unit).Atomic := by
  refine reads_get.bind fun n => (reads_ofExcept _).bind fun _ => ?_
  split
  · exact (certain_pure _).atomic
  · exact (reads_ofExcept _).bind fun _ => (atomic_requestIfRunning _).bind fun _ =>
      certain_modify _

theorem atomic_leave (group : String) : (leave group : Act κ μ Unit).Atomic :=
  reads_get.bind fun _ => (reads_ofExcept _).bind fun _ =>
    (atomic_requestIfRunning _).bind fun _ => certain_modify _

end Act

/-- What an application asks of a node. -/
inductive Call (κ : Type)
  | setName (name : String)
  | setHeader (key value : String)
  | join (group : String)
  | leave (group : String)
  | start (walk : Walk) (bound : Except Tcp.BindError Tcp.SocketAddress)
      (outward : Option Tcp.IpAddress) (published : Except Tcp.BindError Unit) (carriage : κ)
  | whisper (peer : PeerId) (content : Content)
  | shout (group : String) (content : Content)
  | requirePeer (peer : PeerId) (endpoint : String)
  | query (query : Query)

def Call.act [Carriage κ μ] : Call κ → Act κ μ Unit
  | setName name => .setName name
  | setHeader key value => .setHeader key value
  | join group => .join group
  | leave group => .leave group
  | start walk bound outward published carriage => .start walk bound outward published carriage
  | whisper peer content => .request (.whisper peer content)
  | shout group content => .request (.shout group content)
  | requirePeer peer endpoint => .request (.requirePeer peer endpoint)
  | query q => .request (.query q)

/-- A call that fails changes nothing. -/
theorem Call.atomic [Carriage κ μ] (c : Call κ) : (c.act : Act κ μ Unit).Atomic := by
  cases c with
  | setName name => exact Act.atomic_setName name
  | setHeader key value => exact Act.atomic_setHeader key value
  | join group => exact Act.atomic_join group
  | leave group => exact Act.atomic_leave group
  | start walk bound outward published carriage =>
    exact Act.atomic_start walk bound outward published carriage
  | whisper | shout | requirePeer | query => exact Act.atomic_request _

end Node
end PeerMesh
