import PeerMesh.Proofs.Engine.Shift

/-!
# What an engine makes of a message

`greeted` is the engine after a HELLO in sequence, and `heeded` the engine after any other message
in sequence from a peer that has greeted. Answers to the message are not part of either.
-/

namespace PeerMesh
set_option autoImplicit false

variable {μ : Type}

namespace Body

/-- Whether a body leaves the groups and the status of its sender as they were. -/
def isNeutral : Body → Bool
  | .whisper _ | .shout .. | .ping | .pingOk => true
  | .hello _ | .join .. | .leave .. => false

/-- The status of the sender after the message, if it was `old` before. -/
def statusAfter (old : UInt8) : Body → UInt8
  | .join _ status | .leave _ status => status
  | _ => old

/-- Whether the status in the message is the next one after `old`, where it has one. -/
def Follows (old : UInt8) : Body → Prop
  | .join _ status | .leave _ status => status = old + 1
  | _ => True

/-- What is reported of a message that is not a HELLO. -/
def reports (id : PeerId) (name : String) : Body → List Event
  | .whisper content => [.whisper id name content]
  | .shout group content => [.shout id name group content]
  | .join group _ => [.join id name group]
  | .leave group _ => [.leave id name group]
  | _ => []

end Body

theorem Message.isHello_of_ping {m : Message} (h : m.body = .ping) : m.isHello = false := by
  rw [Message.isHello, h]
  rfl

theorem Message.isHello_of_pingOk {m : Message} (h : m.body = .pingOk) : m.isHello = false := by
  rw [Message.isHello, h]
  rfl

namespace Peer

def introduced (p : Peer μ) (h : Hello) : Peer μ :=
  { p with
    ready := true
    want := 1
    declaredName := some h.name
    headers := h.headers
    status := h.status }

def followed (p : Peer μ) (body : Body) : Peer μ :=
  { p with want := p.want + 1, status := body.statusAfter p.status }

end Peer

namespace Engine

def regroup (e : Engine μ) (id : PeerId) : Body → Engine μ
  | .join group _ => e.enrol id group
  | .leave group _ => e.withdraw id group
  | _ => e

/-- The engine after the HELLO of a peer whose entry was `p`. -/
def greeted (e : Engine μ) (id : PeerId) (p : Peer μ) (h : Hello) : Engine μ :=
  { h.groups.foldl (fun e group => e.enrol id group)
      { e with roster := e.roster.insert id (p.introduced h) } with
    events := e.events ++
      .enter id h.name h.headers p.endpoint :: h.groups.map fun group => .join id h.name group }

/-- The engine after another message of a peer whose entry was `p`. -/
def heeded (e : Engine μ) (id : PeerId) (p : Peer μ) (body : Body) : Engine μ :=
  { { e with roster := e.roster.insert id (p.followed body) }.regroup id body with
    events := e.events ++ body.reports id p.name }

/-! ### Enrolling in many groups -/

theorem foldl_enrol (e : Engine μ) (id : PeerId) (groups : List String) :
    groups.foldl (fun e group => e.enrol id group) e =
      { e with peerGroups := (groups.foldl (fun e group => e.enrol id group) e).peerGroups } := by
  induction groups generalizing e with
  | nil => rfl
  | cons group groups ih =>
    rw [List.foldl_cons, ih]
    rfl

theorem peerGroups_foldl_enrol {e e' : Engine μ} (h : e'.peerGroups = e.peerGroups) (id : PeerId)
    (groups : List String) :
    (groups.foldl (fun e group => e.enrol id group) e').peerGroups =
      (groups.foldl (fun e group => e.enrol id group) e).peerGroups := by
  induction groups generalizing e e' with
  | nil => exact h
  | cons group groups ih =>
    refine ih ?_
    dsimp only [enrol]
    rw [h]

theorem isMember_congr {e e' : Engine μ} (h : e'.peerGroups = e.peerGroups) (j : PeerId)
    (group : String) : e'.isMember j group = e.isMember j group := by
  rw [isMember, isMember, h]

theorem isMember_foldl_enrol (e : Engine μ) (id : PeerId) (groups : List String) (j : PeerId)
    (group : String) :
    (groups.foldl (fun e group => e.enrol id group) e).isMember j group =
      ((decide (j = id) && decide (group ∈ groups)) || e.isMember j group) := by
  induction groups generalizing e with
  | nil => simp
  | cons g groups ih =>
    rw [List.foldl_cons, ih, isMember_enrol]
    by_cases hg : group = g
    · cases decide (j = id) <;> simp [hg]
    · simp [hg]

theorem isMember_greeted (e : Engine μ) (id : PeerId) (p : Peer μ) (h : Hello) (j : PeerId)
    (group : String) :
    (e.greeted id p h).isMember j group =
      ((decide (j = id) && decide (group ∈ h.groups)) || e.isMember j group) :=
  isMember_foldl_enrol { e with roster := e.roster.insert id (p.introduced h) } id h.groups j group

theorem isMember_regroup (e : Engine μ) (id : PeerId) (body : Body) {j : PeerId} (hj : j ≠ id)
    (group : String) : (e.regroup id body).isMember j group = e.isMember j group := by
  cases body <;> simp [regroup, isMember_enrol, isMember_withdraw, hj]

theorem roster_greeted (e : Engine μ) (id : PeerId) (p : Peer μ) (h : Hello) :
    (e.greeted id p h).roster = e.roster.insert id (p.introduced h) := by
  rw [greeted, foldl_enrol]

theorem regroup_eq (e : Engine μ) (id : PeerId) (body : Body) :
    e.regroup id body = { e with peerGroups := (e.regroup id body).peerGroups } := by
  cases body <;> rfl

theorem roster_heeded (e : Engine μ) (id : PeerId) (p : Peer μ) (body : Body) :
    (e.heeded id p body).roster = e.roster.insert id (p.followed body) := by
  rw [heeded, regroup_eq]

theorem get?_heeded (e : Engine μ) (id : PeerId) (p : Peer μ) (body : Body) :
    (e.heeded id p body).roster.get? id = some (p.followed body) := by
  rw [roster_heeded, SortedMap.get?_insert, if_pos rfl]

theorem sameSelf_greeted (e : Engine μ) (id : PeerId) (p : Peer μ) (h : Hello) :
    e.SameSelf (e.greeted id p h) := by
  rw [greeted, foldl_enrol]
  exact ⟨rfl, rfl, rfl, rfl, rfl, rfl, rfl, rfl⟩

theorem sameSelf_heeded (e : Engine μ) (id : PeerId) (p : Peer μ) (body : Body) :
    e.SameSelf (e.heeded id p body) := by
  rw [heeded, regroup_eq]
  exact ⟨rfl, rfl, rfl, rfl, rfl, rfl, rfl, rfl⟩

namespace Sound
variable {e : Engine μ} {id : PeerId} {p : Peer μ}

theorem foldl_enrol (h : e.Sound) (hp : e.roster.get? id = some p) (hr : p.ready = true)
    (groups : List String) : (groups.foldl (fun e group => e.enrol id group) e).Sound := by
  induction groups generalizing e with
  | nil => exact h
  | cons group groups ih => exact ih (h.enrol hp hr group) hp

theorem greeted (h : e.Sound) (hp : e.roster.get? id = some p) (hello : Hello) :
    (e.greeted id p hello).Sound := by
  have hentry : p.Continues (p.introduced hello) :=
    ⟨rfl, (h.connected hp :), rfl, rfl, fun _ => rfl⟩
  refine ((h.insert hp hentry).foldl_enrol ?_ (p := p.introduced hello) rfl hello.groups).withEvents _
  rw [SortedMap.get?_insert, if_pos rfl]

theorem heeded (h : e.Sound) (hp : e.roster.get? id = some p) (hr : p.ready = true) (body : Body) :
    (e.heeded id p body).Sound := by
  have hentry : p.Continues (p.followed body) :=
    ⟨rfl, (h.connected hp :), rfl, (h.entered hp :), fun h => h⟩
  have hnow : (e.roster.insert id (p.followed body)).get? id = some (p.followed body) := by
    rw [SortedMap.get?_insert, if_pos rfl]
  refine withEvents ?_ _
  cases body with
  | join group status => exact (h.insert hp hentry).enrol hnow hr group
  | leave group status => exact (h.insert hp hentry).withdraw id group
  | hello | whisper | shout | ping | pingOk => exact h.insert hp hentry

end Sound
end Engine
end PeerMesh
