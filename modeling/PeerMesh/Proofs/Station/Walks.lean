import PeerMesh.Proofs.Station.Locality
import PeerMesh.Proofs.Station.Outlets

/-!
# The order of a walk does not matter

A station goes through its peers when it tells everybody something, when it looks for silent peers,
and when it looks for peers at an endpoint. What it does on the way is about one peer after the
other, because mailboxes of different peers lead to different endpoints; so any two walks come to
the same, but for the order of reports on different peers. When a peer is removed the groups are
gone through, and there any order comes to the very same.
-/

namespace PeerMesh
set_option autoImplicit false

/-! ### Groups in any order -/

/-- The order in which groups are gone through, any rearrangement of their names. Only a removal
goes through them. -/
structure Tour where
  order : List String → List String
  perm_order : ∀ names, (order names).Perm names

namespace Engine
variable {μ : Type} {e : Engine μ} {id : PeerId}

theorem foldl_withdraw (e : Engine μ) (id : PeerId) (groups : List String) :
    groups.foldl (fun e group => e.withdraw id group) e =
      { e with peerGroups := (groups.foldl (fun e group => e.withdraw id group) e).peerGroups } := by
  induction groups generalizing e with
  | nil => rfl
  | cons group groups ih =>
    rw [List.foldl_cons, ih]
    rfl

theorem get?_foldl_withdraw (e : Engine μ) (id : PeerId) {groups : List String} (hn : groups.Nodup)
    (group : String) :
    (groups.foldl (fun e group => e.withdraw id group) e).peerGroups.get? group =
      if group ∈ groups then (e.peerGroups.get? group).bind (withoutMember id)
      else e.peerGroups.get? group := by
  induction groups generalizing e with
  | nil => rfl
  | cons g groups ih =>
    obtain ⟨hg, hn⟩ := List.nodup_cons.mp hn
    rw [List.foldl_cons, ih _ hn, withdraw, SortedMap.get?_filterMap]
    by_cases hsame : group = g
    · subst hsame
      rw [if_neg hg, if_pos List.mem_cons_self]
      simp only [if_true]
    · have hmem : group ∈ g :: groups ↔ group ∈ groups := by simp [hsame]
      have hkept : (e.peerGroups.get? group).bind (fun h =>
          if group = g then withoutMember id h else some h) = e.peerGroups.get? group := by
        simp [hsame]
      simp only [hkept, hmem]

/-- Leaving one after the other the groups that a peer is in comes to forgetting it in all of them. -/
theorem peerGroups_foldl_withdraw (e : Engine μ) (id : PeerId) :
    ((e.groupsOf id).foldl (fun e group => e.withdraw id group) e).peerGroups =
      (e.forget id).peerGroups := by
  apply SortedMap.ext_get?
  intro group
  have hn : (e.groupsOf id).Nodup := SortedMap.nodup_keys _
  rw [get?_foldl_withdraw e id hn, forget, SortedMap.get?_filterMap]
  cases hg : e.peerGroups.get? group with
  | none => simp
  | some g =>
    have hmem : group ∈ e.groupsOf id ↔ g.contains id = true := by
      rw [mem_groupsOf, isMember_of_get? hg]
    by_cases hin : g.contains id = true
    · rw [if_pos (hmem.mpr hin), Option.bind_some, Option.bind_some, if_pos hin]
    · rw [if_neg (mt hmem.mp hin), Option.bind_some, if_neg hin]

/-- The groups that a peer is in, come upon in any order, then by name. -/
def groupsAlong (tour : Tour) (e : Engine μ) (id : PeerId) : List String :=
  ((tour.order e.peerGroups.keys).filter fun group => e.isMember id group).mergeSort
    fun a b => decide (a ≤ b)

/-- Removal as one that goes through the groups: it gathers those that the peer is in, puts their
names in order, and takes the peer out of one after the other. -/
def dropAlong (tour : Tour) (e : Engine μ) (id : PeerId) : Engine μ :=
  match e.roster.get? id with
  | none => e
  | some p =>
    let groups := e.groupsAlong tour id
    let rest := groups.foldl (fun e group => e.withdraw id group)
      { e with roster := e.roster.erase id }
    match p.declaredName with
    | none => rest
    | some name =>
      { rest with
        events := rest.events ++ .exit id name :: groups.map fun group => .leave id name group }

theorem groupsAlong_eq (tour : Tour) (e : Engine μ) (id : PeerId) :
    e.groupsAlong tour id = e.groupsOf id := by
  have hperm := tour.perm_order e.peerGroups.keys
  have hn : (e.groupsAlong tour id).Nodup :=
    (List.mergeSort_perm _ _).nodup_iff.mpr ((hperm.nodup_iff.mpr (SortedMap.nodup_keys _)).filter _)
  have htrans : ∀ a b c : String, decide (a ≤ b) = true → decide (b ≤ c) = true →
      decide (a ≤ c) = true := fun a b c hab hbc =>
    decide_eq_true (String.le_trans (of_decide_eq_true hab) (of_decide_eq_true hbc))
  have htotal : ∀ a b : String, (decide (a ≤ b) || decide (b ≤ a)) = true := fun a b => by
    simpa using String.le_total a b
  have hle : (e.groupsAlong tour id).Pairwise fun a b => decide (a ≤ b) = true :=
    List.pairwise_mergeSort htrans htotal _
  refine eq_groupsOf ((hle.and hn).imp fun ⟨hab, hne⟩ =>
    Std.lt_of_le_of_ne (of_decide_eq_true hab) hne) fun group => ?_
  rw [groupsAlong, List.mem_mergeSort, List.mem_filter, hperm.mem_iff]
  exact ⟨fun hg => hg.2, fun hg => ⟨SortedMap.mem_keys.mpr (exists_get?_of_isMember hg), hg⟩⟩

/-- Whatever the order in which a removal comes upon the groups, it comes to the same. -/
theorem dropAlong_eq (tour : Tour) (e : Engine μ) (id : PeerId) : e.dropAlong tour id = e.drop id := by
  have hrest : (e.groupsOf id).foldl (fun e group => e.withdraw id group)
      { e with roster := e.roster.erase id } = e.forget id := by
    have hgroups := peerGroups_foldl_withdraw { e with roster := e.roster.erase id } id
    rw [foldl_withdraw]
    exact congrArg (fun groups => { e with roster := e.roster.erase id, peerGroups := groups }) hgroups
  rw [dropAlong, drop, groupsAlong_eq]
  cases e.roster.get? id with
  | none => rfl
  | some p =>
    dsimp only
    rw [hrest]
    cases p.declaredName <;> rfl

end Engine

/-- Any two walks come by each peer as often. -/
theorem Walk.filter_order (walk walk' : Walk) (ids : List PeerId) (a : PeerId) :
    ((walk'.order ids).filter fun id => id = a) = (walk.order ids).filter fun id => id = a := by
  rw [List.filter_eq, List.filter_eq, (walk.perm_order ids).count_eq,
    (walk'.perm_order ids).count_eq]

namespace Station

/-! ### Where the mailboxes lead -/

section
variable {s t : Station Network Network.Mailbox}

/-- The mailbox of a peer leads where its entry says. -/
structure Homed (s : Station Network Network.Mailbox) : Prop where
  mailbox : ∀ {id p}, s.engine.roster.get? id = some p →
    ∃ box, p.mailbox = some box ∧ box.endpoint = p.lastEndpoint

theorem Homed.congr (h : s.Homed) (hr : t.engine.roster = s.engine.roster) : t.Homed :=
  ⟨fun hp => h.mailbox (hr ▸ hp)⟩

theorem Homed.of_retains (h : s.Homed)
    (hr : s.engine.Retains (fun _ box endpoint => box.endpoint = endpoint) t.engine) : t.Homed where
  mailbox hq := by
    rcases hr.entry hq with ⟨p, hp, hsame⟩ | hfresh
    · obtain ⟨box, hbox, hend⟩ := h.mailbox hp
      obtain ⟨hmailbox, hlast⟩ := Prod.mk.inj hsame
      exact ⟨box, hmailbox.trans hbox, hend.trans hlast.symm⟩
    · exact hfresh

theorem homed_run (hs : s.engine.Sound) (hh : s.Homed) (turns : List (Turn Network)) :
    (s.run turns).Homed := by
  induction turns generalizing s with
  | nil => exact hh
  | cons x turns ih =>
    have hturn := (performed_turn hs x).retains hs fun _ hc => (Network.of_connect hc).2 rfl
    exact ih (sound_turn hs x) ((hh.congr rfl).of_retains hturn)

theorem homed_run_new (id : PeerId) (name endpoint : String) (timing : Timing) (first : Network)
    (turns : List (Turn Network)) :
    ((new (Engine.new id name endpoint timing) first).run turns).Homed :=
  homed_run (Engine.sound_new id name endpoint timing) ⟨fun hp => by cases hp⟩ turns

/-- Where endpoints belong to one peer at most, there is an owner of each. -/
theorem exists_owner (belongs : String → PeerId → Prop)
    (h : ∀ {endpoint a b}, belongs endpoint a → belongs endpoint b → a = b) :
    ∃ owner : String → PeerId, ∀ {endpoint a}, belongs endpoint a → owner endpoint = a := by
  classical
  refine ⟨fun endpoint => if h : ∃ a, belongs endpoint a then h.choose else default,
    fun {endpoint a} ha => ?_⟩
  have hex : ∃ a, belongs endpoint a := ⟨a, ha⟩
  dsimp only
  rw [dif_pos hex]
  exact h hex.choose_spec ha

theorem Homed.placed (h : s.Homed) (hs : s.engine.Sound) {owner : String → PeerId}
    (howner : ∀ {id p}, s.engine.roster.get? id = some p → owner p.endpoint = id) :
    s.Placed owner := by
  intro id p hp
  have hplace := howner hp
  rw [Peer.endpoint, hs.connected hp, if_pos rfl] at hplace
  exact ⟨hs.filed hp, hplace, h.mailbox hp⟩

/-- No two peers of a sound engine are at one endpoint. -/
theorem exists_placed (hs : s.engine.Sound) (hh : s.Homed) : ∃ owner, s.Placed owner := by
  obtain ⟨owner, howner⟩ := exists_owner
    (fun endpoint id => ∃ p, s.engine.roster.get? id = some p ∧ p.endpoint = endpoint)
    fun ⟨_, hp, hp'⟩ ⟨_, hq, hq'⟩ => hs.apart hp hq (hp'.trans hq'.symm)
  exact ⟨owner, hh.placed hs fun hp => howner ⟨_, hp, rfl⟩⟩

end

/-! ### Peers in any order -/

section
variable {s t t' : Station Network Network.Mailbox} {id : PeerId} {endpoint : String} {now : Nat}

/-- The stations are the same but for the order of reports on different peers, and their notes. -/
structure Concurs (s t : Station Network Network.Mailbox) : Prop where
  engine : s.engine.Concurs t.engine
  carriage : t.carriage = s.carriage

theorem Concurs.refl (s : Station Network Network.Mailbox) : s.Concurs s := ⟨.refl _, rfl⟩

theorem concurs_of_alike (owner : String → PeerId) (h : t.engine.Sound) (h' : t'.engine.Sound)
    (halike : ∀ a, t.Alike owner a t') : t.Concurs t' :=
  ⟨Engine.concurs_of_alike h h' fun a => (halike a).engine,
    Network.ext_alike fun a => (halike a).carriage⟩

theorem purge_walk (hs : s.engine.Sound) (walk walk' : Walk) (endpoint : String) :
    s.purge walk' endpoint = s.purge walk endpoint := by
  obtain ⟨stale, hn, hmem, heq⟩ := s.exists_stale walk endpoint
  obtain ⟨stale', hn', hmem', heq'⟩ := s.exists_stale walk' endpoint
  have hsame : stale' = stale := by
    have hperm : stale'.Perm stale :=
      (List.perm_ext_iff_of_nodup hn' hn).mpr fun id => hmem'.trans hmem.symm
    have hany : ∀ ids : List PeerId, ids.Pairwise fun _ _ => True := fun _ =>
      List.pairwise_of_forall fun _ _ => trivial
    refine hperm.eq_of_pairwise (fun id j hid hj _ _ => ?_) (hany _) (hany _)
    obtain ⟨p, hp, hthere⟩ := hmem'.mp hid
    obtain ⟨q, hq, hthere'⟩ := hmem.mp hj
    exact hs.apart hp hq (hthere.trans hthere'.symm)
  rw [heq, heq', hsame]

theorem require_walk (hs : s.engine.Sound) (walk walk' : Walk) (id : PeerId) (endpoint : String)
    (now : Nat) : s.require walk' id endpoint now = s.require walk id endpoint now := by
  rw [require, require, purge_walk hs walk walk']

theorem found_walk (hs : s.engine.Sound) (walk walk' : Walk) (id : PeerId) (endpoint : String)
    (now : Nat) : s.found walk' id endpoint now = s.found walk id endpoint now := by
  rw [found, found, require_walk hs walk walk']

theorem welcome_walk (hs : s.engine.Sound) (walk walk' : Walk) (id : PeerId) (endpoint : String)
    (now : Nat) : s.welcome walk' id endpoint now = s.welcome walk id endpoint now := by
  have hcleared : (if (s.engine.readyPeer? id).isSome then (s.note [.greetedAgain id]).remove id
      else s).engine.Sound := by
    split
    · rw [engine_remove]
      exact hs.drop id
    · exact hs
  rw [welcome, welcome, require_walk hcleared walk walk']

theorem receive_walk (hs : s.engine.Sound) (walk walk' : Walk) (routingId : List UInt8)
    (frames : Content) (now : Nat) :
    s.receive walk' routingId frames now = s.receive walk routingId frames now := by
  unfold receive
  simp only [welcome_walk hs walk walk']

theorem concurs_broadcast (hs : s.engine.Sound) (hh : s.Homed) (walk walk' : Walk) (body : Body) :
    (s.broadcast walk body).Concurs (s.broadcast walk' body) := by
  obtain ⟨owner, hplaced⟩ := exists_placed hs hh
  have hone := announced_broadcast hs walk body
  have hother := announced_broadcast hs walk' body
  have hposts : ∀ a, (s.posts body (walk.order s.engine.roster.keys)).Alike owner a
      (s.posts body (walk'.order s.engine.roster.keys)) := fun a =>
    alike_foldl (fun id => id) (fun id _ => about_post owner id body)
      (fun id _ => about_post owner id body) hplaced (Walk.filter_order walk walk' _ a)
  refine concurs_of_alike owner ((hone.shifts hs).sound hs) ((hother.shifts hs).sound hs) fun a => ?_
  exact (Alike.of_same hone.engine hone.carriage).symm.trans
    ((hposts a).trans (.of_same hother.engine hother.carriage))

theorem concurs_reap (hs : s.engine.Sound) (hh : s.Homed) (walk walk' : Walk) (now : Nat) :
    (s.reap walk now).Concurs (s.reap walk' now) := by
  obtain ⟨owner, hplaced⟩ := exists_placed hs hh
  have hsound : ∀ walk, (s.reap walk now).engine.Sound := fun walk =>
    sound_step hs walk (.reap now)
  refine concurs_of_alike owner (hsound walk) (hsound walk') fun a => ?_
  unfold reap
  split
  · exact .refl owner a s
  · exact alike_foldl (fun id => id) (fun id _ => about_reapPeer owner id now)
      (fun id _ => about_reapPeer owner id now) hplaced (Walk.filter_order walk walk' _ a)

theorem concurs_join (hs : s.engine.Sound) (hh : s.Homed) (walk walk' : Walk) (group : String) :
    (s.join walk' group).1 = (s.join walk group).1 ∧
      (s.join walk group).2.Concurs (s.join walk' group).2 := by
  unfold join
  split
  · exact ⟨rfl, .refl s⟩
  · split
    · exact ⟨rfl, .refl s⟩
    · rename_i hok
      let u := (s.edit (·.enlist group)).note [.joining s.engine.name group (s.engine.status + 1)]
      have hu : u.Homed := hh.congr rfl
      exact ⟨rfl, concurs_broadcast (s := u) (hs.enlist hok) hu walk walk' _⟩

theorem concurs_leave (hs : s.engine.Sound) (hh : s.Homed) (walk walk' : Walk) (group : String) :
    (s.leave walk group).Concurs (s.leave walk' group) := by
  unfold leave
  split
  · let u := (s.edit (·.delist group)).note [.leaving s.engine.name group (s.engine.status + 1)]
    have hu : u.Homed := hh.congr rfl
    exact concurs_broadcast (s := u) (hs.delist group) hu walk walk' _
  · exact .refl s

theorem concurs_shutdown (s : Station Network Network.Mailbox) (walk walk' : Walk) :
    (s.shutdown walk).Concurs (s.shutdown walk') := by
  unfold shutdown
  split
  · exact .refl s
  · exact ⟨.refl _, rfl⟩

theorem concurs_step (hs : s.engine.Sound) (hh : s.Homed) (walk walk' : Walk) (op : Op) :
    (s.perform walk' op).1 = (s.perform walk op).1 ∧
      (s.perform walk op).2.Concurs (s.perform walk' op).2 := by
  have hsame : s.perform walk' op = s.perform walk op →
      (s.perform walk' op).1 = (s.perform walk op).1 ∧
        (s.perform walk op).2.Concurs (s.perform walk' op).2 := by
    intro h
    rw [h]
    exact ⟨rfl, .refl _⟩
  cases op with
  | setHeader | whisper | shout | drain => exact hsame rfl
  | join group => exact concurs_join hs hh walk walk' group
  | leave group => exact ⟨rfl, concurs_leave hs hh walk walk' group⟩
  | shutdown => exact ⟨rfl, s.concurs_shutdown walk walk'⟩
  | discover sighting now =>
    cases sighting with
    | found id endpoint => exact hsame (congrArg (Prod.mk _) (found_walk hs walk walk' id endpoint now))
    | lost id => exact hsame rfl
  | receive routingId frames now =>
    exact hsame (congrArg (Prod.mk _) (receive_walk hs walk walk' routingId frames now))
  | reap now => exact ⟨rfl, concurs_reap hs hh walk walk' now⟩

end

/-- Whatever was done to an engine that was new, and whatever the network is then. Whichever way an
operation goes through the peers, it comes to the same but for the order of reports on different
peers; and whichever way a removal goes through the groups, it comes to the very same. -/
theorem concurs_perform (id : PeerId) (name endpoint : String) (timing : Timing) (first net : Network)
    (turns : List (Turn Network)) (walk walk' : Walk) (op : Op) :
    let s : Station Network Network.Mailbox :=
      { (new (Engine.new id name endpoint timing) first).run turns with carriage := net }
    ((s.perform walk' op).1 = (s.perform walk op).1 ∧
      (s.perform walk op).2.Concurs (s.perform walk' op).2) ∧
    ∀ (t : Station Network Network.Mailbox) (peer : PeerId) (tour : Tour),
      (t.remove peer).engine = t.engine.dropAlong tour peer := by
  intro s
  have hs : s.engine.Sound := sound_run (Engine.sound_new id name endpoint timing) turns
  have hhomed := homed_run_new id name endpoint timing first turns
  refine ⟨concurs_step (s := s) hs (hhomed.congr rfl) walk walk' op, fun t peer tour => ?_⟩
  rw [engine_remove, Engine.dropAlong_eq]

end Station
end PeerMesh
