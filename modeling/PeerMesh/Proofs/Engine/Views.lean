import PeerMesh.Engine.Op
import PeerMesh.Proofs.Sorted

/-!
# What the table edits of an engine show

An engine is looked at through two views: the entry of a peer (`roster.get?`) and whether a peer is
in a group (`isMember`). Each edit is described by what it does to these two and by the fields it
leaves alone. `drop` is the engine that remains when a peer is removed.
-/

namespace PeerMesh.Engine
set_option autoImplicit false

variable {μ : Type}

def isMember (e : Engine μ) (id : PeerId) (group : String) : Bool :=
  match e.peerGroups.get? group with
  | some g => g.contains id
  | none => false

theorem mem_groupsOf {e : Engine μ} {id : PeerId} {group : String} :
    group ∈ e.groupsOf id ↔ e.isMember id group = true := by
  rw [groupsOf, SortedMap.mem_keys, isMember]
  simp only [SortedMap.get?_filter, Option.filter_eq_some_iff]
  cases e.peerGroups.get? group <;> simp

theorem mem_peersInGroup {e : Engine μ} {id : PeerId} {group : String} :
    id ∈ e.peersInGroup group ↔ e.isMember id group = true := by
  rw [peersInGroup, isMember]
  cases e.peerGroups.get? group with
  | none => simp
  | some g => exact SortedSet.mem_toList

theorem mem_peers {e : Engine μ} {id : PeerId} :
    id ∈ e.peers ↔ ∃ p, e.roster.get? id = some p ∧ p.ready = true := by
  rw [peers, SortedMap.mem_keys]
  simp only [SortedMap.get?_filter, Option.filter_eq_some_iff]

theorem readyPeer?_eq_some {e : Engine μ} {id : PeerId} {p : Peer μ} :
    e.readyPeer? id = some p ↔ e.roster.get? id = some p ∧ p.ready = true :=
  Option.filter_eq_some_iff

/-! ### Edits of one entry -/

theorem editPeer_of_some {e : Engine μ} {id : PeerId} {p : Peer μ} (h : e.roster.get? id = some p)
    (f : Peer μ → Peer μ) : e.editPeer id f = { e with roster := e.roster.insert id (f p) } := by
  rw [editPeer, h]

theorem editPeer_of_none {e : Engine μ} {id : PeerId} (h : e.roster.get? id = none)
    (f : Peer μ → Peer μ) : e.editPeer id f = e := by
  rw [editPeer, h]

theorem get?_editPeer {e : Engine μ} {id : PeerId} {p : Peer μ} (h : e.roster.get? id = some p)
    (f : Peer μ → Peer μ) : (e.editPeer id f).roster.get? id = some (f p) := by
  rw [editPeer_of_some h, SortedMap.get?_insert, if_pos rfl]

/-! ### Edits of the groups -/

theorem contains_leave (g : Group) (id j : PeerId) :
    (g.leave id).contains j = (!decide (j = id) && g.contains j) :=
  g.members.contains_erase id j

theorem contains_join (g : Group) (id j : PeerId) :
    (g.join id).contains j = (decide (j = id) || g.contains j) :=
  g.members.contains_insert id j

theorem isEmpty_eq_false {g : Group} : g.isEmpty = false ↔ ∃ id, g.contains id = true :=
  SortedSet.isEmpty_eq_false

/-- A group that lost its last member shows the same members as no group. -/
theorem contains_withoutMember (id j : PeerId) (g : Group) :
    (match withoutMember id g with
      | some g => g.contains j
      | none => false) = (!decide (j = id) && g.contains j) := by
  rw [← contains_leave, withoutMember]
  by_cases hempty : (g.leave id).isEmpty = true
  · rw [if_pos hempty]
    cases hj : (g.leave id).contains j
    · rfl
    · have hfull := isEmpty_eq_false.mpr ⟨j, hj⟩
      rw [hempty] at hfull
      cases hfull
  · rw [if_neg hempty]

theorem isMember_enrol (e : Engine μ) (id : PeerId) (group : String) (j : PeerId) (h : String) :
    (e.enrol id group).isMember j h =
      ((decide (j = id) && decide (h = group)) || e.isMember j h) := by
  simp only [isMember, enrol, SortedMap.get?_insert]
  by_cases hg : h = group
  · subst hg
    simp only [if_true, contains_join, decide_true, Bool.and_true]
    cases e.peerGroups.get? h <;> rfl
  · simp [hg]

theorem isMember_withdraw (e : Engine μ) (id : PeerId) (group : String) (j : PeerId) (h : String) :
    (e.withdraw id group).isMember j h =
      (!(decide (j = id) && decide (h = group)) && e.isMember j h) := by
  simp only [isMember, withdraw, SortedMap.get?_filterMap]
  by_cases hg : h = group
  · subst hg
    simp only [if_true, decide_true, Bool.and_true]
    cases e.peerGroups.get? h with
    | none => simp
    | some g => exact contains_withoutMember id j g
  · cases e.peerGroups.get? h <;> simp [hg]

theorem isMember_forget (e : Engine μ) (id j : PeerId) (h : String) :
    (e.forget id).isMember j h = (!decide (j = id) && e.isMember j h) := by
  simp only [isMember, forget, SortedMap.get?_filterMap]
  cases e.peerGroups.get? h with
  | none => simp
  | some g =>
    simp only [Option.bind_some]
    by_cases hg : g.contains id = true
    · rw [if_pos hg]
      exact contains_withoutMember id j g
    · rw [if_neg hg]
      by_cases hj : j = id
      · subst hj
        simpa using hg
      · simp [hj]

/-! ### Removal -/

/-- The engine without a peer. If the peer had entered, its leaving is reported: first that it is
gone, then each group that it has left by that. -/
def drop (e : Engine μ) (id : PeerId) : Engine μ :=
  match e.roster.get? id with
  | none => e
  | some p =>
    match p.declaredName with
    | none => e.forget id
    | some name =>
      { e.forget id with
        events := e.events ++ .exit id name :: (e.groupsOf id).map fun group => .leave id name group }

theorem drop_of_none {e : Engine μ} {id : PeerId} (h : e.roster.get? id = none) : e.drop id = e := by
  rw [drop, h]

theorem get?_drop (e : Engine μ) (id j : PeerId) :
    (e.drop id).roster.get? j = if j = id then none else e.roster.get? j := by
  unfold drop
  split
  · split <;> simp_all
  · split <;> exact SortedMap.get?_erase e.roster id j

@[simp] theorem drop_rest (e : Engine μ) (id : PeerId) :
    (e.drop id).id = e.id ∧ (e.drop id).name = e.name ∧ (e.drop id).endpoint = e.endpoint ∧
    (e.drop id).timing = e.timing ∧ (e.drop id).headers = e.headers ∧
    (e.drop id).status = e.status ∧ (e.drop id).joined = e.joined ∧
    (e.drop id).stopped = e.stopped := by
  unfold drop forget
  split
  · simp
  · split <;> simp

theorem peerGroups_drop {e : Engine μ} {id : PeerId} {p : Peer μ} (h : e.roster.get? id = some p) :
    (e.drop id).peerGroups = (e.forget id).peerGroups := by
  rw [drop, h]
  dsimp only
  split <;> rfl

theorem roster_drop (e : Engine μ) (id : PeerId) : (e.drop id).roster = e.roster.erase id := by
  apply SortedMap.ext_get?
  intro j
  rw [get?_drop, SortedMap.get?_erase]

theorem readyPeer?_of_insert {e e' : Engine μ} {id : PeerId} {p : Peer μ}
    (h : e'.roster = e.roster.insert id p) (j : PeerId) :
    e'.readyPeer? j = if j = id then (some p).filter (·.ready) else e.readyPeer? j := by
  rw [readyPeer?, h, SortedMap.get?_insert]
  split <;> rfl

theorem eq_of_readyPeer?_insert {e e' : Engine μ} {id : PeerId} {p q : Peer μ}
    (h : e'.roster = e.roster.insert id p) (hq : e'.readyPeer? id = some q) : q = p := by
  rw [readyPeer?_of_insert h, if_pos rfl] at hq
  exact (Option.some.inj (Option.filter_eq_some_iff.mp hq).1).symm

theorem readyPeer?_drop (e : Engine μ) (id j : PeerId) :
    (e.drop id).readyPeer? j = if j = id then none else e.readyPeer? j := by
  rw [readyPeer?, get?_drop]
  split <;> rfl

theorem events_drop_of_unnamed {e : Engine μ} {id : PeerId} {p : Peer μ}
    (h : e.roster.get? id = some p) (hn : p.declaredName = none) :
    (e.drop id).events = e.events := by
  rw [drop, h]
  dsimp only
  rw [hn]
  rfl

theorem events_drop_of_named {e : Engine μ} {id : PeerId} {p : Peer μ} {name : String}
    (h : e.roster.get? id = some p) (hn : p.declaredName = some name) :
    (e.drop id).events = e.events ++
      .exit id name :: (e.groupsOf id).map fun group => .leave id name group := by
  rw [drop, h]
  dsimp only
  rw [hn]

/-- Of the entry of a peer, dropping looks at the declared name only. -/
theorem drop_withRoster {e : Engine μ} {id : PeerId} {p p' : Peer μ} {roster : Roster μ}
    (h : e.roster.get? id = some p) (h' : roster.get? id = some p')
    (hn : p'.declaredName = p.declaredName) :
    { e with roster }.drop id = { e.drop id with roster := roster.erase id } := by
  rw [drop, drop, h, h']
  dsimp only
  rw [hn]
  cases p.declaredName <;> rfl

theorem isMember_drop {e : Engine μ} {id : PeerId} {p : Peer μ} (h : e.roster.get? id = some p)
    (j : PeerId) (group : String) :
    (e.drop id).isMember j group = (!decide (j = id) && e.isMember j group) := by
  rw [← isMember_forget]
  simp only [isMember, peerGroups_drop h]

/-! ### The engine's own groups -/

def enlist (e : Engine μ) (group : String) : Engine μ :=
  { e with joined := e.joined.insert group, status := e.status + 1 }

def delist (e : Engine μ) (group : String) : Engine μ :=
  { e with joined := e.joined.erase group, status := e.status + 1 }

/-- The engine after its shutdown. It knows nobody. -/
def halt (e : Engine μ) : Engine μ :=
  { e with
    roster := .empty
    peerGroups := .empty
    stopped := true
    events := e.events ++ [.stop] }

end PeerMesh.Engine
