import PeerMesh.Proofs.Station.Alike

/-!
# What concerns one peer leaves the others alone

What a station does about one peer changes nothing that concerns another one, and depends on nothing
but what concerns the peer itself: its entry, its groups, the inboxes at its endpoints, and what the
engine says of itself. `About` says so of a function, and is shown for one function after the other.
A row of such functions then acts on each peer as if those about the others were left out.
-/

namespace PeerMesh
set_option autoImplicit false

namespace Station
variable {owner : String → PeerId} {a b id : PeerId} {s s' : Station Network Network.Mailbox}

/-! ### What is about one peer -/

def Placed (owner : String → PeerId) (s : Station Network Network.Mailbox) : Prop :=
  Roster.Placed owner s.engine.roster

theorem Placed.filed (hs : s.Placed owner) : s.engine.roster.Filed := fun hp => (hs hp).filed

/-- What `f` does to a station changes nothing for anybody but one peer, and does to the peer what
it does to it in any other station in which the peer finds the same. -/
structure About (owner : String → PeerId) (id : PeerId)
    (f : Station Network Network.Mailbox → Station Network Network.Mailbox) : Prop where
  placed {s : Station Network Network.Mailbox} : s.Placed owner → (f s).Placed owner
  others {s : Station Network Network.Mailbox} {b} : s.Placed owner → b ≠ id → s.Alike owner b (f s)
  same {s s' : Station Network Network.Mailbox} : s.Placed owner → s'.Placed owner →
    s.Alike owner id s' → (f s).Alike owner id (f s')

theorem same_of_eq {t : Station Network Network.Mailbox} (h : t = s) :
    t.engine = s.engine ∧ t.carriage = s.carriage :=
  h ▸ ⟨rfl, rfl⟩

namespace About
variable {f g : Station Network Network.Mailbox → Station Network Network.Mailbox}

/-- Only the entry of the peer itself has to be looked at to see that all are in their place. -/
theorem of_own
    (hown : ∀ {s p}, s.Placed owner → (f s).engine.roster.get? id = some p → p.Placed owner id)
    (hothers : ∀ {s : Station Network Network.Mailbox} {b}, s.Placed owner → b ≠ id →
      s.Alike owner b (f s))
    (hsame : ∀ {s s' : Station Network Network.Mailbox}, s.Placed owner → s'.Placed owner →
      s.Alike owner id s' → (f s).Alike owner id (f s')) : About owner id f where
  placed {s} hs j p hp := by
    by_cases hj : j = id
    · exact hj ▸ hown hs (hj ▸ hp)
    · exact hs ((hothers hs hj).engine.entry ▸ hp)
  others := hothers
  same := hsame

theorem idle (owner : String → PeerId) (id : PeerId) : About owner id fun s => s where
  placed hs := hs
  others _ _ := .refl owner _ _
  same _ _ h := h

theorem seq (hf : About owner id f) (hg : About owner id g) : About owner id fun s => g (f s) where
  placed hs := hg.placed (hf.placed hs)
  others hs hb := (hf.others hs hb).trans (hg.others (hf.placed hs) hb)
  same hs hs' h := hg.same (hf.placed hs) (hf.placed hs') (hf.same hs hs' h)

/-- What is done may depend on what the peer finds. -/
theorem read {α : Type} (view : Station Network Network.Mailbox → α)
    (hview : ∀ {s s' : Station Network Network.Mailbox}, s.Placed owner → s'.Placed owner →
      s.Alike owner id s' → view s' = view s)
    (h : ∀ x, ∃ g, About owner id g ∧ ∀ {s : Station Network Network.Mailbox}, s.Placed owner →
      view s = x → (f s).engine = (g s).engine ∧ (f s).carriage = (g s).carriage) :
    About owner id f where
  placed {s} hs := by
    obtain ⟨g, hg, hfg⟩ := h (view s)
    rw [Placed, (hfg hs rfl).1]
    exact hg.placed hs
  others {s b} hs hb := by
    obtain ⟨g, hg, hfg⟩ := h (view s)
    exact (hg.others hs hb).trans (.of_same (hfg hs rfl).1 (hfg hs rfl).2)
  same {s s'} hs hs' halike := by
    obtain ⟨g, hg, hfg⟩ := h (view s)
    have hfg' := hfg hs' (hview hs hs' halike)
    exact (Alike.of_same (hfg hs rfl).1 (hfg hs rfl).2).symm.trans
      ((hg.same hs hs' halike).trans (.of_same hfg'.1 hfg'.2))

/-- Notes make no difference. -/
theorem congr (hg : About owner id g) (h : ∀ {s : Station Network Network.Mailbox}, s.Placed owner →
    (f s).engine = (g s).engine ∧ (f s).carriage = (g s).carriage) : About owner id f :=
  .read (fun _ => ()) (fun _ _ _ => rfl) fun _ => ⟨g, hg, fun hs _ => h hs⟩

theorem foldl {α : Type} {f : Station Network Network.Mailbox → α → Station Network Network.Mailbox}
    (hf : ∀ x, About owner id (f · x)) (l : List α) : About owner id (l.foldl f) := by
  induction l with
  | nil => exact idle owner id
  | cons x l ih => exact (hf x).seq ih

end About

/-! ### Edits -/

theorem about_note (owner : String → PeerId) (id : PeerId) (notes : List Note) :
    About owner id (·.note notes) :=
  (About.idle owner id).congr fun _ => ⟨rfl, rfl⟩

theorem about_edit {f : Engine Network.Mailbox → Engine Network.Mailbox}
    (hown : ∀ {e p}, Roster.Placed owner e.roster → (f e).roster.get? id = some p →
      p.Placed owner id)
    (hothers : ∀ (e : Engine Network.Mailbox) {b}, b ≠ id → e.Alike b (f e))
    (hsame : ∀ {e e' : Engine Network.Mailbox}, e.Alike id e' → (f e).Alike id (f e')) :
    About owner id (·.edit f) :=
  .of_own (fun hs hp => hown hs hp) (fun _ hb => ⟨hothers _ hb, .refl owner _ _⟩)
    fun _ _ h => h.edit (hsame h.engine)

theorem about_editPeer (owner : String → PeerId) (id : PeerId)
    (f : Peer Network.Mailbox → Peer Network.Mailbox)
    (hf : ∀ {p}, p.Placed owner id → (f p).Placed owner id) :
    About owner id (·.edit (·.editPeer id f)) := by
  refine about_edit (fun {e q} he hq => ?_) (fun e _ hb => e.alike_editPeer hb f) (·.editPeer f)
  cases hp : e.roster.get? id with
  | none =>
    rw [Engine.editPeer_of_none hp, hp] at hq
    cases hq
  | some p =>
    rw [Engine.get?_editPeer hp] at hq
    exact Option.some.inj hq ▸ hf (he hp)

theorem about_refresh (owner : String → PeerId) (id : PeerId) (now : Nat) :
    About owner id (·.edit (·.refresh id now)) :=
  .read (·.engine.timing) (fun _ _ h => h.engine.self.timing) fun timing =>
    ⟨_, about_editPeer owner id (·.refresh now timing.evasive timing.expired) fun hp =>
      hp.congr rfl rfl rfl, fun _ ht => ht ▸ ⟨rfl, rfl⟩⟩

theorem about_emit (owner : String → PeerId) (events : List Event)
    (h : ∀ ev ∈ events, ev.peer? = some id) : About owner id (·.emit events) :=
  about_edit (fun he hp => he hp) (fun e _ hb => e.alike_report hb h) (·.report events)

theorem about_enrol (owner : String → PeerId) (id : PeerId) (group : String) :
    About owner id (·.edit (·.enrol id group)) :=
  about_edit (fun he hp => he hp) (fun e _ hb => e.alike_enrol hb group) (·.enrol id group)

theorem about_withdraw (owner : String → PeerId) (id : PeerId) (group : String) :
    About owner id (·.edit (·.withdraw id group)) :=
  about_edit (fun he hp => he hp) (fun e _ hb => e.alike_withdraw hb group) (·.withdraw id group)

theorem about_remove (owner : String → PeerId) (id : PeerId) : About owner id (·.remove id) := by
  refine About.congr (g := (·.edit (·.drop id))) (about_edit ?_ ?_ ?_) fun {s} _ =>
    ⟨s.engine_remove id, s.carriage_remove id⟩
  · intro e p _ hp
    rw [Engine.get?_drop, if_pos rfl] at hp
    cases hp
  · exact fun e b hb => e.alike_drop hb
  · exact fun h => h.drop

/-! ### Messages to the peer -/

theorem about_post (owner : String → PeerId) (id : PeerId) (body : Body) :
    About owner id (·.post id body) := by
  refine .of_own (fun {s q} hs hq => ?_) (fun {s b} hs hb => ?_) (fun {s s'} hs hs' h => ?_)
  · have hposted := s.posted_post id body fun _ => hs.filed
    generalize s.post id body = t at hposted hq
    cases hposted with
    | unmoved _ he | rejected _ _ _ _ he => exact hs (he ▸ hq)
    | taken hp _ _ _ he =>
      rw [he, SortedMap.get?_insert, if_pos rfl] at hq
      exact Option.some.inj hq ▸ (hs hp).congr rfl rfl rfl
    | lost _ _ _ _ he =>
      rw [he, Engine.get?_drop, if_pos rfl] at hq
      cases hq
  · have hposted := s.posted_post id body fun _ => hs.filed
    have hsent : ∀ {net : Network} {p box frames result}, s.engine.roster.get? id = some p →
        p.mailbox = some box → Carriage.send s.carriage box frames = (result, net) →
        s.carriage.Alike owner b net := fun hp hbox =>
      Network.alike_of_send ((hs hp).owner_mailbox hbox ▸ hb.symm)
    generalize s.post id body = t at hposted
    cases hposted with
    | unmoved _ he hc => exact .of_same he hc
    | taken hp hbox _ hsend he => exact ⟨he ▸ s.engine.alike_insert hb _, hsent hp hbox hsend⟩
    | rejected hp hbox hsend _ he => exact ⟨he ▸ .refl b _, hsent hp hbox hsend⟩
    | lost hp hbox hsend _ he => exact ⟨he ▸ s.engine.alike_drop hb, hsent hp hbox hsend⟩
  · cases hp : s.engine.roster.get? id with
    | none =>
      rw [post_of_none hp, post_of_none (h.engine.entry.trans hp)]
      exact h
    | some p =>
      obtain ⟨hresult, htold⟩ := h.tell (hs hp) body
      rw [post_of_some hp, post_of_some (h.engine.entry.trans hp), hresult]
      exact htold.removeIfLost _

/-! ### Messages from the peer -/

theorem about_report (owner : String → PeerId) (id : PeerId) (report : String → Event)
    (h : ∀ name, (report name).peer? = some id) :
    About owner id fun s => s.emit [report (s.engine.nameOf id)] :=
  .read (·.engine.nameOf id) (fun _ _ h => h.nameOf) fun name =>
    ⟨_, about_emit owner _ (List.forall_mem_singleton.mpr (h name)), fun _ hname =>
      hname ▸ ⟨rfl, rfl⟩⟩

theorem about_peerJoined (owner : String → PeerId) (id : PeerId) (group : String) :
    About owner id (·.peerJoined id group) :=
  ((about_enrol owner id group).seq (about_report owner id (.join id · group)
    fun _ => rfl)).congr fun _ => ⟨rfl, rfl⟩

theorem about_peerLeft (owner : String → PeerId) (id : PeerId) (group : String) :
    About owner id (·.peerLeft id group) :=
  ((about_withdraw owner id group).seq (about_report owner id (.leave id · group)
    fun _ => rfl)).congr fun _ => ⟨rfl, rfl⟩

theorem about_followStatus (owner : String → PeerId) (id : PeerId) (command : Command)
    (status : UInt8) : About owner id (·.followStatus id command status) := by
  have hcounted := about_editPeer owner id ({ · with status }) fun hp => hp.congr rfl rfl rfl
  refine hcounted.congr fun {s} _ => ?_
  unfold followStatus
  cases hp : s.engine.roster.get? id with
  | none =>
    rw [engine_edit, Engine.editPeer_of_none hp]
    exact ⟨rfl, rfl⟩
  | some p =>
    dsimp only
    split <;> exact ⟨rfl, rfl⟩

theorem about_introduced (owner : String → PeerId) (id : PeerId) (h : Hello) :
    About owner id (·.introduced id h) := by
  refine .read (·.engine.roster.get? id) (fun _ _ h => h.engine.entry) fun entry => ?_
  cases entry with
  | none => exact ⟨_, .idle owner id, fun _ hp => same_of_eq (by rw [introduced, hp])⟩
  | some p =>
    have hnamed := about_editPeer owner id
      ({ · with declaredName := some h.name, headers := h.headers }) fun hp => hp.congr rfl rfl rfl
    have hreported := (hnamed.seq (about_note owner id [.entered id h.name p.endpoint])).seq
      (about_emit owner [.enter id h.name h.headers p.endpoint]
        (List.forall_mem_singleton.mpr rfl))
    have hjoined := hreported.seq (.foldl (about_peerJoined owner id) h.groups)
    have hcounted := hjoined.seq
      (about_editPeer owner id ({ · with status := h.status }) fun hp => hp.congr rfl rfl rfl)
    exact ⟨_, hcounted, fun _ hp => same_of_eq (by rw [introduced, hp])⟩

theorem about_act (owner : String → PeerId) (id : PeerId) (body : Body) :
    About owner id (·.act id body) := by
  cases body with
  | hello h => exact about_introduced owner id h
  | whisper content => exact about_report owner id (.whisper id · content) fun _ => rfl
  | shout group content =>
    exact about_report owner id (.shout id · group content) fun _ => rfl
  | join group status =>
    exact (about_peerJoined owner id group).seq (about_followStatus owner id .join status)
  | leave group status =>
    exact (about_peerLeft owner id group).seq (about_followStatus owner id .leave status)
  | ping => exact about_post owner id .pingOk
  | pingOk => exact .idle owner id

theorem about_accept (owner : String → PeerId) (id : PeerId) (m : Message) (now : Nat) :
    About owner id (·.accept id m now) := by
  refine .read (·.engine.readyPeer? id) (fun _ _ h => h.readyPeer?) fun entry => ?_
  cases entry with
  | none =>
    exact ⟨_, about_note owner id [.unready id m.body.command],
      fun _ hp => same_of_eq (by rw [accept, hp])⟩
  | some p =>
    have hcounted := (about_editPeer owner id (·.advance m)
      fun hp => hp.congr rfl rfl rfl).seq (about_note owner id (p.receiveNotes m))
    cases hloss : p.showsLoss m with
    | true =>
      have hdropped := (hcounted.seq (about_note owner id [.lostMessages id])).seq
        (about_remove owner id)
      refine ⟨_, hdropped, fun _ hp => ?_⟩
      rw [accept, hp]
      simp only [hloss, if_true, and_self]
    | false =>
      have hacted := (hcounted.seq (about_act owner id m.body)).seq (about_refresh owner id now)
      refine ⟨_, hacted, fun _ hp => ?_⟩
      rw [accept, hp]
      simp only [hloss, Bool.false_eq_true, if_false, and_self]

/-! ### Meeting the peer -/

theorem Alike.greet (h : s.Alike owner id s') {p : Peer Network.Mailbox} (hp : p.Placed owner id)
    (endpoint : String) (now : Nat) : (s'.greet p endpoint now).1 = (s.greet p endpoint now).1 ∧
      (s.greet p endpoint now).2.Alike owner id (s'.greet p endpoint now).2 := by
  obtain ⟨hresult, hpeer, hcarriage⟩ := Peer.send_alike h.carriage hp (.hello s.engine.hello)
  unfold Station.greet
  dsimp only
  rw [h.engine.self.hello, hresult, hpeer]
  cases (p.send s.carriage (.hello s.engine.hello)).result with
  | error e => exact ⟨rfl, h.engine, hcarriage⟩
  | ok =>
    refine ⟨rfl, ?_, hcarriage⟩
    rw [engine_edit, engine_edit, engine_note, engine_note, h.engine.self.timing]
    exact h.engine.insert _ _

theorem Alike.meet (h : s.Alike owner id s') {endpoint : String} (hend : owner endpoint = id)
    (now : Nat) : (s'.meet id endpoint now).1 = (s.meet id endpoint now).1 ∧
      (s.meet id endpoint now).2.Alike owner id (s'.meet id endpoint now).2 := by
  have hopen := h.carriage.connect s'.engine.id.routingId hend
  rw [h.engine.self.id] at hopen
  rcases hc : Carriage.connect s.carriage s.engine.id.routingId endpoint with ⟨e | box, c⟩
  · obtain ⟨rfl, -⟩ := Network.of_connect hc
    rw [hc, ← h.engine.self.id] at hopen
    rw [meet_of_error hc, meet_of_error hopen]
    exact ⟨rfl, h.engine, h.carriage⟩
  · obtain ⟨rfl, hbox⟩ := Network.of_connect hc
    rw [hc, ← h.engine.self.id] at hopen
    rw [meet_of_ok hc, meet_of_ok hopen]
    exact (h.note _ _).greet ⟨rfl, hend, box, rfl, hbox rfl⟩ endpoint now

theorem about_meet {endpoint : String} (hend : owner endpoint = id) (now : Nat) :
    About owner id fun s => (s.meet id endpoint now).2 := by
  refine .of_own (fun {s q} hs hq => ?_) (fun {s b} _ hb => ?_) fun _ _ h => (h.meet hend now).2
  · have hmeet := s.meeting_meet id endpoint now
    generalize s.meet id endpoint now = t at hmeet hq
    cases hmeet with
    | unreached _ he | formless _ _ he | shut _ _ he => exact hs (he ▸ hq)
    | met hc _ _ he =>
      rw [he] at hq
      change (s.engine.roster.insert id _).get? id = some q at hq
      rw [SortedMap.get?_insert, if_pos rfl] at hq
      exact Option.some.inj hq ▸ ⟨rfl, hend, _, rfl, (Network.of_connect hc).2 rfl⟩
  · have hmeet := s.meeting_meet id endpoint now
    have hsent : ∀ {c net : Network} {box frames result},
        Carriage.connect s.carriage s.engine.id.routingId endpoint = (.ok box, c) →
        Carriage.send c box frames = (result, net) → s.carriage.Alike owner b net := by
      intro c net box frames result hc hsend
      obtain ⟨rfl, hbox⟩ := Network.of_connect hc
      exact Network.alike_of_send (hbox rfl ▸ hend ▸ hb.symm) hsend
    generalize s.meet id endpoint now = t at hmeet
    cases hmeet with
    | unreached hc he | formless hc _ he => exact .of_same he (Network.of_connect hc).1
    | shut hc hsend he => exact ⟨he ▸ .refl b _, hsent hc hsend⟩
    | met hc _ hsend he => exact ⟨he ▸ s.engine.alike_insert hb _, hsent hc hsend⟩

/-- Nobody else is where an endpoint of the peer leads, so nobody is purged there. -/
theorem purge_of_placed (hs : s.Placed owner) {endpoint : String} (hend : owner endpoint = id)
    (hnew : s.engine.roster.contains id = false) (walk : Walk) : s.purge walk endpoint = s := by
  obtain ⟨stale, -, hmem, heq⟩ := s.exists_stale walk endpoint
  rw [heq]
  cases stale with
  | nil => rfl
  | cons j _ =>
    obtain ⟨p, hp, hthere⟩ := hmem.mp List.mem_cons_self
    have hj : j = id := by rw [← (hs hp).owned, ← (hs hp).endpoint, hthere, hend]
    rw [SortedMap.contains, ← hj, hp] at hnew
    cases hnew

/-- Where the peer is required, it is known already, or it may not be met, or it is met. -/
theorem require_of_placed (hs : s.Placed owner) {endpoint : String} (hend : owner endpoint = id)
    (walk : Walk) (now : Nat) : s.require walk id endpoint now =
      if id = s.engine.id || endpoint = s.engine.endpoint then (false, s)
      else if s.engine.roster.contains id then (true, s) else s.meet id endpoint now := by
  unfold require
  split
  · rfl
  · split
    · rfl
    · rw [purge_of_placed hs hend (Bool.eq_false_iff.mpr ‹_›)]

theorem Alike.require (h : s.Alike owner id s') (hs : s.Placed owner) (hs' : s'.Placed owner)
    {endpoint : String} (hend : owner endpoint = id) (walk : Walk) (now : Nat) :
    (s'.require walk id endpoint now).1 = (s.require walk id endpoint now).1 ∧
      (s.require walk id endpoint now).2.Alike owner id (s'.require walk id endpoint now).2 := by
  rw [require_of_placed hs hend, require_of_placed hs' hend, h.engine.self.id,
    h.engine.self.endpoint, SortedMap.contains, SortedMap.contains, h.engine.entry]
  split
  · exact ⟨rfl, h⟩
  · split
    · exact ⟨rfl, h⟩
    · exact h.meet hend now

theorem about_require {endpoint : String} (hend : owner endpoint = id) (walk : Walk) (now : Nat) :
    About owner id fun s => (s.require walk id endpoint now).2 := by
  have hmeet := about_meet hend now
  have hcases : ∀ {s : Station Network Network.Mailbox}, s.Placed owner →
      (s.require walk id endpoint now).2 = s ∨
        (s.require walk id endpoint now).2 = (s.meet id endpoint now).2 := by
    intro s hs
    rw [require_of_placed hs hend]
    split
    · exact .inl rfl
    · split
      · exact .inl rfl
      · exact .inr rfl
  refine ⟨fun {s} hs => ?_, fun {s b} hs hb => ?_, fun hs hs' h =>
    (h.require hs hs' hend walk now).2⟩
  · rcases hcases hs with h | h
    · rw [h]
      exact hs
    · rw [h]
      exact hmeet.placed hs
  · rcases hcases hs with h | h
    · rw [h]
      exact .refl owner b s
    · rw [h]
      exact hmeet.others hs hb

/-- What is done after the peer was required depends on whether it is there. -/
theorem About.afterRequire
    {f : Bool × Station Network Network.Mailbox → Station Network Network.Mailbox} {endpoint : String}
    (hend : owner endpoint = id) (walk : Walk) (now : Nat)
    (hf : ∀ granted, About owner id fun s => f (granted, s)) :
    About owner id fun s => f (s.require walk id endpoint now) :=
  .read (fun s => (s.require walk id endpoint now).1)
    (fun hs hs' h => (h.require hs hs' hend walk now).1) fun granted =>
      ⟨_, (about_require hend walk now).seq (hf granted), fun _ hgranted => by
        rw [← hgranted]; exact ⟨rfl, rfl⟩⟩

theorem about_found {endpoint : String} (hend : owner endpoint = id) (walk : Walk) (now : Nat) :
    About owner id (·.found walk id endpoint now) := by
  refine .read (·.engine.stopped) (fun _ _ h => h.engine.self.stopped) fun stopped => ?_
  cases stopped with
  | true => exact ⟨_, .idle owner id, fun _ hs => same_of_eq (by rw [found, hs, if_pos rfl])⟩
  | false =>
    refine ⟨_, .afterRequire hend walk now (f := fun
      | (true, s) => s.edit (·.refresh id now)
      | (false, s) => s) fun granted => ?_, fun _ hs => ?_⟩
    · cases granted with
      | true => exact about_refresh owner id now
      | false => exact .idle owner id
    · rw [found, hs, if_neg Bool.false_ne_true]
      rcases Station.require walk _ id endpoint now with ⟨_ | _, t⟩ <;> exact ⟨rfl, rfl⟩

theorem about_lost (owner : String → PeerId) (id : PeerId) : About owner id (·.lost id) := by
  have hdropped := (about_note owner id [.discoveryLost id]).seq (about_remove owner id)
  refine .read (fun s => s.engine.stopped || !s.engine.roster.contains id) (fun _ _ h => ?_)
    fun idle => ?_
  · rw [h.engine.self.stopped, SortedMap.contains, SortedMap.contains, h.engine.entry]
  · cases idle with
    | true => exact ⟨_, .idle owner id, fun _ hs => same_of_eq (by rw [lost, hs, if_pos rfl])⟩
    | false =>
      refine ⟨_, hdropped, fun _ hs => ?_⟩
      rw [lost, hs, if_neg Bool.false_ne_true]
      exact ⟨rfl, rfl⟩

/-- A greeting is answered, and then counts as any other message. -/
theorem about_greeting {h : Hello} (hend : owner h.endpoint = id) (m : Message) (walk : Walk)
    (now : Nat) : About owner id fun s =>
      match s.welcome walk id h.endpoint now with
      | (true, s) => s.accept id m now
      | (false, s) => s := by
  have hcleared : About owner id fun s =>
      if (s.engine.readyPeer? id).isSome then (s.note [.greetedAgain id]).remove id else s := by
    refine .read (fun s => (s.engine.readyPeer? id).isSome) (fun _ _ h => ?_) fun ready => ?_
    · rw [h.readyPeer?]
    · cases ready with
      | true =>
        exact ⟨_, (about_note owner id [.greetedAgain id]).seq (about_remove owner id),
          fun _ hp => same_of_eq (by rw [hp, if_pos rfl])⟩
      | false =>
        exact ⟨_, .idle owner id, fun _ hp => same_of_eq (by rw [hp, if_neg Bool.false_ne_true])⟩
  have hheard := (about_editPeer owner id ({ · with ready := true }) fun hp =>
    hp.congr rfl rfl rfl).seq (about_accept owner id m now)
  have hanswered := hcleared.seq (.afterRequire hend walk now (f := fun
    | (true, s) => (s.edit (·.editPeer id ({ · with ready := true }))).accept id m now
    | (false, s) => s) fun granted => by
      cases granted with
      | true => exact hheard
      | false => exact .idle owner id)
  refine hanswered.congr fun _ => ?_
  unfold welcome
  dsimp only
  rcases Station.require walk _ id h.endpoint now with ⟨_ | _, t⟩ <;> exact ⟨rfl, rfl⟩

theorem about_receive {routingId : List UInt8} {frames : Content}
    (hid : PeerId.ofRoutingId? routingId = some id)
    (hend : ∀ {m h}, Wire.decode frames = .ok m → m.body = .hello h → owner h.endpoint = id)
    (walk : Walk) (now : Nat) : About owner id (·.receive walk routingId frames now) := by
  refine .read (·.engine.stopped) (fun _ _ h => h.engine.self.stopped) fun stopped => ?_
  cases stopped with
  | true => exact ⟨_, .idle owner id, fun _ hs => same_of_eq (receive_of_stopped hs _ _ _ _)⟩
  | false =>
    cases hm : Wire.decode frames with
    | error e =>
      refine ⟨_, about_note owner id [.malformed e], fun _ hs => ?_⟩
      rw [receive, hs, if_neg Bool.false_ne_true, hm]
      exact ⟨rfl, rfl⟩
    | ok m =>
      cases hb : m.body with
      | hello h =>
        refine ⟨_, about_greeting (hend hm hb) m walk now, fun _ hs => ?_⟩
        rw [receive, hs, if_neg Bool.false_ne_true, hm, hid]
        simp only [hb]
        rcases Station.welcome walk _ id h.endpoint now with ⟨_ | _, t⟩ <;> exact ⟨rfl, rfl⟩
      | _ =>
        refine ⟨_, about_accept owner id m now, fun _ hs => ?_⟩
        rw [receive_of_not_hello hs hm hid (by rw [Message.isHello, hb]; rfl)]
        exact ⟨rfl, rfl⟩

/-! ### Looking at the peer -/

theorem about_evade (owner : String → PeerId) (id : PeerId) : About owner id (·.evade id) := by
  refine .read (·.engine.roster.get? id) (fun _ _ h => h.engine.entry) fun entry => ?_
  cases entry with
  | none => exact ⟨_, .idle owner id, fun _ hp => same_of_eq (evade_of_none hp)⟩
  | some p =>
    have hmarked := about_editPeer owner id ({ · with evasive := true })
      fun hp => hp.congr rfl rfl rfl
    have hreported := hmarked.seq
      (about_emit owner _ (Event.peer?_evasive id p.declaredName))
    refine ⟨_, hreported, fun {s} _ hp => ⟨?_, s.carriage_evade id⟩⟩
    rw [engine_evade hp, engine_emit, engine_edit, Engine.editPeer_of_some hp]

theorem about_reapPeer (owner : String → PeerId) (id : PeerId) (now : Nat) :
    About owner id (·.reapPeer now id) := by
  refine .read (·.engine.roster.get? id) (fun _ _ h => h.engine.entry) fun entry => ?_
  cases entry with
  | none => exact ⟨_, .idle owner id, fun _ hp => same_of_eq (by rw [reapPeer, hp])⟩
  | some p =>
    by_cases hexpired : p.expiredAt ≤ now
    · have hdropped := (about_note owner id [.expired id p.name]).seq (about_remove owner id)
      refine ⟨_, hdropped, fun _ hp => ?_⟩
      rw [reapPeer, hp]
      dsimp only
      rw [if_pos hexpired]
      exact ⟨rfl, rfl⟩
    · cases hevasive : p.evasiveAt ≤ now && !p.evasive with
      | true =>
        refine ⟨_, (about_evade owner id).seq (about_post owner id .ping), fun hs hp => ?_⟩
        obtain ⟨hengine, hcarriage, -⟩ := ping_eq hp (hs hp).filed
        rw [reapPeer, hp]
        dsimp only
        rw [if_neg hexpired, hevasive, if_pos rfl]
        exact ⟨hengine, hcarriage⟩
      | false =>
        refine ⟨_, .idle owner id, fun _ hp => ?_⟩
        rw [reapPeer, hp]
        dsimp only
        rw [if_neg hexpired, hevasive, if_neg Bool.false_ne_true]
        exact ⟨rfl, rfl⟩

/-! ### One after the other -/

section
variable {α : Type} {f : Station Network Network.Mailbox → α → Station Network Network.Mailbox}
  {about : α → PeerId} {l l' : List α}

/-- For one peer, what was done about the others might as well be left out. The induction carries
two stations, of which one skips what does not concern the peer. -/
theorem alike_foldl_filter (hf : ∀ x ∈ l, About owner (about x) (f · x)) (hs : s.Placed owner)
    (hs' : s'.Placed owner) (h : s.Alike owner a s') :
    (l.foldl f s).Alike owner a ((l.filter fun x => about x = a).foldl f s') := by
  induction l generalizing s s' with
  | nil => exact h
  | cons x l ih =>
    obtain ⟨hx, hl⟩ := List.forall_mem_cons.mp hf
    by_cases ha : about x = a
    · rw [List.filter_cons_of_pos (by simpa using ha)]
      exact ih hl (hx.placed hs) (hx.placed hs') (ha ▸ hx.same hs hs' (ha ▸ h))
    · rw [List.filter_cons_of_neg (by simpa using ha)]
      exact ih hl (hx.placed hs) hs' ((hx.others hs (Ne.symm ha)).symm.trans h)

theorem alike_foldl (about : α → PeerId) (hf : ∀ x ∈ l, About owner (about x) (f · x))
    (hf' : ∀ x ∈ l', About owner (about x) (f · x)) (hs : s.Placed owner)
    (hl : (l'.filter fun x => about x = a) = l.filter fun x => about x = a) :
    (l.foldl f s).Alike owner a (l'.foldl f s) := by
  have hone := alike_foldl_filter hf hs hs (.refl owner a s)
  have hother := alike_foldl_filter hf' hs hs (.refl owner a s)
  rw [hl] at hother
  exact hone.trans hother.symm

end

end Station
end PeerMesh
