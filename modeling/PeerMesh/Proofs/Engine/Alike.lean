import Mathlib.Data.List.Sort
import PeerMesh.Proofs.Station.Picture

/-!
# Engines that agree about a peer

Two engines are alike about a peer if they say the same of themselves, have the same entry for the
peer, see it in the same groups and have reported the same of it. An edit that concerns one peer
leaves an engine alike about all others, and keeps two engines alike about the peer itself. Sound
engines that are alike about everybody differ in the order of their events at most.
-/

namespace PeerMesh
set_option autoImplicit false

namespace Engine
variable {μ : Type} {a b id : PeerId} {e e' e'' : Engine μ}

/-! ### Groups of a peer -/

theorem pairwise_groupsOf (e : Engine μ) (id : PeerId) : (e.groupsOf id).Pairwise (· < ·) :=
  SortedMap.pairwise_keys _

/-- Names in ascending order, of the groups that a peer is in, are the groups of the peer. -/
theorem eq_groupsOf {groups : List String} (hsorted : groups.Pairwise (· < ·))
    (hmem : ∀ group, group ∈ groups ↔ e.isMember id group = true) : groups = e.groupsOf id := by
  have hnodup : ∀ {l : List String}, l.Pairwise (· < ·) → l.Nodup := by
    intro l hl
    refine hl.imp fun {g g'} hlt heq => ?_
    subst heq
    exact Std.lt_irrefl hlt
  have hperm : groups.Perm (e.groupsOf id) :=
    (List.perm_ext_iff_of_nodup (hnodup hsorted) (hnodup (e.pairwise_groupsOf id))).mpr
      fun group => (hmem group).trans mem_groupsOf.symm
  exact hperm.eq_of_pairwise (fun _ _ _ _ hab hba => absurd (Std.lt_trans hab hba) Std.lt_irrefl)
    hsorted (e.pairwise_groupsOf id)

theorem groupsOf_congr (h : ∀ group, e'.isMember id group = e.isMember id group) :
    e'.groupsOf id = e.groupsOf id :=
  eq_groupsOf (e'.pairwise_groupsOf id) fun group => by rw [mem_groupsOf, h]

/-! ### Alike -/

structure Alike (a : PeerId) (e e' : Engine μ) : Prop where
  self : e.SameSelf e'
  entry : e'.roster.get? a = e.roster.get? a
  member : ∀ group, e'.isMember a group = e.isMember a group
  told : Event.concerning a e'.events = Event.concerning a e.events
  /-- Reports that concern nobody. -/
  rest : (e'.events.filter fun ev => ev.peer?.isNone) = e.events.filter fun ev => ev.peer?.isNone

namespace Alike

theorem refl (a : PeerId) (e : Engine μ) : e.Alike a e :=
  ⟨.refl e, rfl, fun _ => rfl, rfl, rfl⟩

theorem symm (h : e.Alike a e') : e'.Alike a e :=
  ⟨h.self.symm, h.entry.symm, fun group => (h.member group).symm, h.told.symm, h.rest.symm⟩

theorem trans (h : e.Alike a e') (h' : e'.Alike a e'') : e.Alike a e'' :=
  ⟨h.self.trans h'.self, h'.entry.trans h.entry, fun group => (h'.member group).trans (h.member group),
    h'.told.trans h.told, h'.rest.trans h.rest⟩

/-! ### The same is done to both -/

theorem insert (h : e.Alike a e') (id : PeerId) (p : Peer μ) :
    Alike a { e with roster := e.roster.insert id p } { e' with roster := e'.roster.insert id p } where
  self := ⟨h.self.id, h.self.name, h.self.endpoint, h.self.timing, h.self.headers, h.self.status,
    h.self.joined, h.self.stopped⟩
  entry := by rw [SortedMap.get?_insert, SortedMap.get?_insert, h.entry]
  member := h.member
  told := h.told
  rest := h.rest

theorem editPeer (h : e.Alike id e') (f : Peer μ → Peer μ) :
    (e.editPeer id f).Alike id (e'.editPeer id f) := by
  cases hp : e.roster.get? id with
  | none =>
    rw [editPeer_of_none hp, editPeer_of_none (h.entry.trans hp)]
    exact h
  | some p =>
    rw [editPeer_of_some hp, editPeer_of_some (h.entry.trans hp)]
    exact h.insert id (f p)

theorem report (h : e.Alike a e') (new : List Event) :
    Alike a { e with events := e.events ++ new } { e' with events := e'.events ++ new } where
  self := ⟨h.self.id, h.self.name, h.self.endpoint, h.self.timing, h.self.headers, h.self.status,
    h.self.joined, h.self.stopped⟩
  entry := h.entry
  member := h.member
  told := by
    rw [Event.concerning_append, Event.concerning_append, h.told]
  rest := by
    rw [List.filter_append, List.filter_append, h.rest]

theorem enrol (h : e.Alike a e') (id : PeerId) (group : String) :
    (e.enrol id group).Alike a (e'.enrol id group) where
  self := ⟨h.self.id, h.self.name, h.self.endpoint, h.self.timing, h.self.headers, h.self.status,
    h.self.joined, h.self.stopped⟩
  entry := h.entry
  member g := by rw [isMember_enrol, isMember_enrol, h.member]
  told := h.told
  rest := h.rest

theorem withdraw (h : e.Alike a e') (id : PeerId) (group : String) :
    (e.withdraw id group).Alike a (e'.withdraw id group) where
  self := ⟨h.self.id, h.self.name, h.self.endpoint, h.self.timing, h.self.headers, h.self.status,
    h.self.joined, h.self.stopped⟩
  entry := h.entry
  member g := by rw [isMember_withdraw, isMember_withdraw, h.member]
  told := h.told
  rest := h.rest

theorem forget (h : e.Alike id e') : (e.forget id).Alike id (e'.forget id) where
  self := ⟨h.self.id, h.self.name, h.self.endpoint, h.self.timing, h.self.headers, h.self.status,
    h.self.joined, h.self.stopped⟩
  entry := by
    rw [Engine.forget, Engine.forget, SortedMap.get?_erase, SortedMap.get?_erase, h.entry]
  member g := by rw [isMember_forget, isMember_forget, h.member]
  told := h.told
  rest := h.rest

theorem drop (h : e.Alike id e') : (e.drop id).Alike id (e'.drop id) := by
  rw [Engine.drop, Engine.drop, h.entry, groupsOf_congr h.member]
  cases e.roster.get? id with
  | none => exact h
  | some p =>
    dsimp only
    cases p.declaredName with
    | none => exact h.forget
    | some name => exact h.forget.report _

end Alike

/-! ### Something is done about another peer -/

theorem alike_insert (e : Engine μ) (hb : b ≠ id) (p : Peer μ) :
    e.Alike b { e with roster := e.roster.insert id p } where
  self := ⟨rfl, rfl, rfl, rfl, rfl, rfl, rfl, rfl⟩
  entry := by rw [SortedMap.get?_insert, if_neg hb]
  member _ := rfl
  told := rfl
  rest := rfl

theorem alike_editPeer (e : Engine μ) (hb : b ≠ id) (f : Peer μ → Peer μ) :
    e.Alike b (e.editPeer id f) := by
  unfold editPeer
  split
  · exact e.alike_insert hb _
  · exact .refl b e

theorem alike_report (e : Engine μ) (hb : b ≠ id) {new : List Event}
    (hnew : ∀ ev ∈ new, ev.peer? = some id) : e.Alike b { e with events := e.events ++ new } where
  self := ⟨rfl, rfl, rfl, rfl, rfl, rfl, rfl, rfl⟩
  entry := rfl
  member _ := rfl
  told := by
    rw [Event.concerning_append, Event.concerning_other hb hnew, List.append_nil]
  rest := by
    have hnone : (new.filter fun ev => ev.peer?.isNone) = [] := by
      apply List.filter_eq_nil_iff.mpr
      intro ev hev
      rw [hnew ev hev]
      exact Bool.false_ne_true
    rw [List.filter_append, hnone, List.append_nil]

theorem alike_enrol (e : Engine μ) (hb : b ≠ id) (group : String) : e.Alike b (e.enrol id group) where
  self := ⟨rfl, rfl, rfl, rfl, rfl, rfl, rfl, rfl⟩
  entry := rfl
  member g := by
    rw [isMember_enrol, decide_eq_false hb]
    rfl
  told := rfl
  rest := rfl

theorem alike_withdraw (e : Engine μ) (hb : b ≠ id) (group : String) :
    e.Alike b (e.withdraw id group) where
  self := ⟨rfl, rfl, rfl, rfl, rfl, rfl, rfl, rfl⟩
  entry := rfl
  member g := by
    rw [isMember_withdraw, decide_eq_false hb]
    rfl
  told := rfl
  rest := rfl

theorem alike_forget (e : Engine μ) (hb : b ≠ id) : e.Alike b (e.forget id) where
  self := ⟨rfl, rfl, rfl, rfl, rfl, rfl, rfl, rfl⟩
  entry := by rw [forget, SortedMap.get?_erase, if_neg hb]
  member g := by
    rw [isMember_forget, decide_eq_false hb]
    rfl
  told := rfl
  rest := rfl

theorem peer?_exits (id : PeerId) (name : String) (groups : List String) :
    ∀ ev ∈ Event.exit id name :: groups.map fun group => Event.leave id name group,
      ev.peer? = some id := by
  refine List.forall_mem_cons.mpr ⟨rfl, fun ev hev => ?_⟩
  obtain ⟨group, -, rfl⟩ := List.mem_map.mp hev
  rfl

theorem alike_drop (e : Engine μ) (hb : b ≠ id) : e.Alike b (e.drop id) := by
  unfold drop
  split
  · exact .refl b e
  · split
    · exact e.alike_forget hb
    · exact (e.alike_forget hb).trans ((e.forget id).alike_report hb (peer?_exits id _ _))

theorem alike_foldl_enrol (e : Engine μ) (hb : b ≠ id) (groups : List String) :
    e.Alike b (groups.foldl (fun e group => e.enrol id group) e) := by
  induction groups generalizing e with
  | nil => exact .refl b e
  | cons group groups ih => exact (e.alike_enrol hb group).trans (ih (e.enrol id group))

theorem alike_greeted (e : Engine μ) (hb : b ≠ id) (p : Peer μ) (h : Hello) :
    e.Alike b (e.greeted id p h) := by
  have hnew : ∀ ev ∈ Event.enter id h.name h.headers p.endpoint ::
      h.groups.map fun group => Event.join id h.name group, ev.peer? = some id := by
    intro ev hev
    rcases List.mem_cons.mp hev with rfl | hev
    · rfl
    · obtain ⟨group, -, rfl⟩ := List.mem_map.mp hev
      rfl
  have hroster := e.alike_insert hb (p.introduced h)
  have hgroups := hroster.trans (alike_foldl_enrol _ hb h.groups)
  have hreport := hgroups.trans (alike_report _ hb hnew)
  rw [foldl_enrol] at hreport
  rw [greeted, foldl_enrol]
  exact hreport

theorem alike_regroup (e : Engine μ) (hb : b ≠ id) (body : Body) :
    e.Alike b (e.regroup id body) := by
  cases body with
  | join group status => exact e.alike_enrol hb group
  | leave group status => exact e.alike_withdraw hb group
  | hello | whisper | shout | ping | pingOk => exact .refl b e

theorem alike_heeded (e : Engine μ) (hb : b ≠ id) (p : Peer μ) (body : Body) :
    e.Alike b (e.heeded id p body) := by
  have hnew : ∀ ev ∈ body.reports id p.name, ev.peer? = some id := by
    intro ev hev
    cases body <;> simp_all [Body.reports, Event.peer?]
  have hroster := e.alike_insert hb (p.followed body)
  have hgroups := hroster.trans (alike_regroup _ hb body)
  have hreport := hgroups.trans (alike_report _ hb hnew)
  rw [regroup_eq] at hreport
  rw [heeded, regroup_eq]
  exact hreport

/-! ### Alike about everybody -/

/-- The engines are the same but for the order in which they reported on different peers. -/
structure Concurs (e e' : Engine μ) : Prop where
  self : e.SameSelf e'
  roster : e'.roster = e.roster
  peerGroups : e'.peerGroups = e.peerGroups
  told : ∀ a, Event.concerning a e'.events = Event.concerning a e.events
  perm : e'.events.Perm e.events

theorem Concurs.refl (e : Engine μ) : e.Concurs e := ⟨.refl e, rfl, rfl, fun _ => rfl, .refl _⟩

theorem isMember_of_get? {group : String} {g : Group} (h : e.peerGroups.get? group = some g)
    (a : PeerId) : e.isMember a group = g.contains a := by
  rw [isMember, h]

theorem exists_get?_of_isMember {group : String} (h : e.isMember a group = true) :
    ∃ g, e.peerGroups.get? group = some g := by
  rw [isMember] at h
  split at h
  · exact ⟨_, ‹_›⟩
  · cases h

/-- A group is its name and its members, and is there as long as it has any. -/
theorem get?_peerGroups_of_member (h : e.Sound) (h' : e'.Sound)
    (hmember : ∀ a group, e'.isMember a group = e.isMember a group) {group : String} {g : Group}
    (hg : e.peerGroups.get? group = some g) : e'.peerGroups.get? group = some g := by
  obtain ⟨a, ha⟩ := isEmpty_eq_false.mp (h.inhabited hg)
  have hthere : e'.isMember a group = true := by rw [hmember, isMember_of_get? hg, ha]
  obtain ⟨g', hg'⟩ := exists_get?_of_isMember hthere
  have hmembers : g'.members = g.members := SortedSet.ext_contains fun b => by
    have hb := hmember b group
    rw [isMember_of_get? hg, isMember_of_get? hg'] at hb
    exact hb
  have hsame : g' = g := by
    have hname := (h'.named hg').trans (h.named hg).symm
    cases g
    cases g'
    exact congr (congrArg Group.mk hname) hmembers
  rw [hg', hsame]

theorem peerGroups_ext (h : e.Sound) (h' : e'.Sound)
    (hmember : ∀ a group, e'.isMember a group = e.isMember a group) :
    e'.peerGroups = e.peerGroups := by
  have hback : ∀ a group, e.isMember a group = e'.isMember a group := fun a group =>
    (hmember a group).symm
  apply SortedMap.ext_get?
  intro group
  cases hg : e.peerGroups.get? group with
  | some g => exact get?_peerGroups_of_member h h' hmember hg
  | none =>
    cases hg' : e'.peerGroups.get? group with
    | none => rfl
    | some g' =>
      rw [get?_peerGroups_of_member h' h hback hg'] at hg
      cases hg

theorem perm_events (htold : ∀ a, Event.concerning a e'.events = Event.concerning a e.events)
    (hrest : (e'.events.filter fun ev => ev.peer?.isNone) = e.events.filter fun ev => ev.peer?.isNone) :
    e'.events.Perm e.events := by
  have hcount : ∀ {p : Event → Bool} {ev : Event}, p ev = true →
      e'.events.filter p = e.events.filter p → e'.events.count ev = e.events.count ev := by
    intro p ev hev hsame
    rw [← List.count_filter hev, hsame, List.count_filter hev]
  rw [List.perm_iff_count]
  intro ev
  cases hpeer : ev.peer? with
  | none => exact hcount (by rw [hpeer]; rfl) hrest
  | some a => exact hcount (decide_eq_true hpeer) (htold a)

theorem concurs_of_alike (h : e.Sound) (h' : e'.Sound) (halike : ∀ a, e.Alike a e') :
    e.Concurs e' where
  self := (halike e.id).self
  roster := SortedMap.ext_get? fun a => (halike a).entry
  peerGroups := peerGroups_ext h h' fun a => (halike a).member
  told a := (halike a).told
  perm := perm_events (fun a => (halike a).told) (halike e.id).rest

end Engine
end PeerMesh
