import Mathlib.Data.List.Induction
import PeerMesh.Proofs.Station.Admission
import PeerMesh.Proofs.Station.Outlets

/-!
# Where a peer enters

A peer is greeted once, on the mailbox that it gets when it is met, and this mailbox is kept. So a peer
enters at the endpoint where it was met. This is the endpoint that its HELLO names, unless the peer
was seen elsewhere before and its HELLO was being waited for: then the mailbox opened for the sighting
is used on, and nothing is sent to the endpoint that the HELLO names.
-/

namespace PeerMesh
set_option autoImplicit false

variable {κ μ : Type}

namespace Engine
variable {fresh : PeerId → μ → String → Prop} {e : Engine μ} {id : PeerId} {p : Peer μ}

theorem retains_foldl_drop (ids : List PeerId) (e : Engine μ) : e.Retains fresh (ids.foldl drop e) := by
  induction ids generalizing e with
  | nil => exact .refl fresh e
  | cons id ids ih => exact (Retains.drop e id).trans (ih (e.drop id))

theorem retains_refresh (e : Engine μ) (id : PeerId) (now : Nat) :
    e.Retains fresh (e.refresh id now) := by
  rw [refresh]
  cases hp : e.roster.get? id with
  | none =>
    rw [editPeer_of_none hp]
    exact .refl fresh e
  | some p =>
    rw [editPeer_of_some hp]
    refine .insert hp ?_ rfl
    rfl

theorem retains_settle (hp : e.roster.get? id = some p) (n : UInt16) (h : Hello) (now : Nat) :
    e.Retains fresh (e.settle id p n h now) := by
  unfold settle
  split
  · refine Retains.trans (.insert hp ?_ (e.roster_greeted id p h)) (retains_refresh _ id now)
    rfl
  · exact .drop e id

end Engine

namespace Station
variable [Carriage κ μ] {s t u : Station κ μ} {fresh : PeerId → μ → String → Prop} {id : PeerId}
  {walk : Walk} {now : Nat} {endpoint : String} {h : Hello} {n : UInt16}

/-! ### Opening a mailbox -/

/-- Connecting to an endpoint gives this mailbox, and it takes the greeting of the engine. -/
def Opens (s : Station κ μ) (endpoint : String) (box : μ) : Prop :=
  ∃ (c : κ) (frames : Content) (c' : κ),
    Carriage.connect s.carriage s.engine.id.routingId endpoint = (.ok box, c) ∧
    Wire.encode ⟨1, .hello s.engine.hello⟩ = .ok frames ∧ Carriage.send c box frames = (.ok (), c')

theorem opens_congr (hself : s.engine.SameSelf t.engine) (hc : t.carriage = s.carriage)
    {box : μ} : t.Opens endpoint box ↔ s.Opens endpoint box := by
  unfold Opens
  rw [hc, hself.id, hself.hello]

/-- Of what is new the mailbox was opened to the endpoint of the peer that was met. -/
def Met (s : Station κ μ) (id : PeerId) (endpoint : String) (j : PeerId) (box : μ) (place : String) :
    Prop :=
  j = id ∧ place = endpoint ∧ s.Opens endpoint box

theorem Meeting.retains_met {granted : Bool} (h : s.Meeting id endpoint now (granted, t)) :
    s.engine.Retains (s.Met id endpoint) t.engine := by
  cases h with
  | unreached _ he | formless _ _ he | shut _ _ he => exact .of_roster (congrArg Engine.roster he)
  | met hc hf hs he => exact he ▸ .putPeer rfl ⟨rfl, rfl, _, _, _, hc, hf, hs⟩

omit [Carriage κ μ] in
theorem retains_purge (s : Station κ μ) (walk : Walk) (endpoint : String) :
    s.engine.Retains fresh (s.purge walk endpoint).engine := by
  obtain ⟨stale, -, -, heq⟩ := s.exists_stale walk endpoint
  rw [heq, engine_foldl_purge]
  exact Engine.retains_foldl_drop stale s.engine

omit [Carriage κ μ] in
theorem retains_reset (s : Station κ μ) (id : PeerId) : s.engine.Retains fresh (s.reset id).engine := by
  rw [engine_reset]
  split
  · exact .drop s.engine id
  · exact .refl fresh s.engine

theorem retains_require (s : Station κ μ) (walk : Walk) (id : PeerId) (endpoint : String) (now : Nat) :
    s.engine.Retains (s.Met id endpoint) (s.require walk id endpoint now).2.engine := by
  unfold require
  split
  · exact .refl _ s.engine
  · split
    · exact .refl _ s.engine
    · have hmeet := (s.purge walk endpoint).meeting_meet id endpoint now
      have hself : s.engine.SameSelf (s.purge walk endpoint).engine := by
        have hcalm : s.engine.Calm (fun _ => True) (s.purge walk endpoint).engine :=
          s.calm_purge walk endpoint
        exact hcalm.self
      refine (s.retains_purge walk endpoint).trans (hmeet.retains_met.mono ?_)
      rintro j box place ⟨rfl, rfl, hopens⟩
      exact ⟨rfl, rfl, (opens_congr hself (carriage_purge s walk place)).mp hopens⟩

theorem retains_found (s : Station κ μ) (walk : Walk) (id : PeerId) (endpoint : String) (now : Nat) :
    s.engine.Retains (s.Met id endpoint) (s.found walk id endpoint now).engine := by
  have hrequire := s.retains_require walk id endpoint now
  unfold found
  split
  · exact .refl _ s.engine
  · split
    · rename_i u hu
      rw [hu] at hrequire
      exact hrequire.trans (u.engine.retains_refresh id now)
    · rename_i u hu
      rw [hu] at hrequire
      exact hrequire

theorem Introduction.retains (hi : s.Introduction walk id n h now t) :
    s.engine.Retains (s.Met id h.endpoint) t.engine := by
  have hroom : s.engine.Retains (s.Met id h.endpoint) ((s.reset id).purge walk h.endpoint).engine :=
    (s.retains_reset id).trans ((s.reset id).retains_purge walk h.endpoint)
  have hself := s.self_room id walk h.endpoint
  have hc := (carriage_purge (s.reset id) walk h.endpoint).trans (s.carriage_reset id)
  have hmet : ∀ {granted u}, ((s.reset id).purge walk h.endpoint).Meeting id h.endpoint now (granted, u) →
      s.engine.Retains (s.Met id h.endpoint) u.engine := by
    intro granted u hmeet
    refine hroom.trans (hmeet.retains_met.mono ?_)
    rintro j box place ⟨rfl, rfl, hopens⟩
    exact ⟨rfl, rfl, (opens_congr hself hc).mp hopens⟩
  cases hi with
  | shunned _ he => exact he ▸ s.retains_reset id
  | expected _ _ hp _ he => exact he ▸ Engine.retains_settle hp n h now
  | unmet _ _ _ hmeet => exact hmet hmeet
  | met _ _ _ hmeet hp _ he => exact he ▸ (hmet hmeet).trans (Engine.retains_settle hp n h now)

theorem retains_step (hs : s.engine.Sound) (walk : Walk) (op : Op) :
    s.engine.Retains (fun id box endpoint => op.Names id endpoint ∧ s.Opens endpoint box)
      (s.step walk op).engine := by
  by_cases hnames : ∃ id endpoint, op.Names id endpoint
  · obtain ⟨id, endpoint, hnames⟩ := hnames
    suffices hmet : s.engine.Retains (s.Met id endpoint) (s.step walk op).engine by
      refine hmet.mono ?_
      rintro j box place ⟨rfl, rfl, hopens⟩
      exact ⟨hnames, hopens⟩
    cases op with
    | discover sighting now =>
      cases sighting with
      | found peer place =>
        obtain ⟨rfl, rfl⟩ := hnames
        exact s.retains_found walk peer place now
      | lost => cases hnames
    | receive routingId frames now =>
      obtain ⟨hid, ⟨n, _⟩, h, hm, rfl, rfl⟩ := hnames
      cases hrun : s.engine.stopped with
      | true =>
        change s.engine.Retains _ (s.receive walk routingId frames now).engine
        rw [receive_of_stopped hrun]
        exact .refl _ s.engine
      | false => exact (introduction_receive hrun hm hid walk now).retains
    | _ => cases hnames
  · -- Nobody is met, so nothing is said of new mailboxes.
    have hperformed : s.Performed (fun _ _ => False) op (s.step walk op) :=
      performed_step hs walk op fun {id endpoint} h => hnames ⟨id, endpoint, h⟩
    exact hperformed.retains hs fun hnobody => hnobody.elim

/-! ### How a peer came by its mailbox -/

/-- In one of the turns the peer was met at the endpoint: it had been named there, the mailbox was
opened to it, and it took the greeting of the engine. -/
def Acquainted (s : Station κ μ) (turns : List (Turn κ)) (id : PeerId) (box : μ) (endpoint : String) :
    Prop :=
  ∃ before x after, turns = before ++ x :: after ∧ x.op.Names id endpoint ∧
    ({ s.run before with carriage := x.carriage } : Station κ μ).Opens endpoint box

theorem run_append_singleton (s : Station κ μ) (turns : List (Turn κ)) (x : Turn κ) :
    s.run (turns ++ [x]) = (s.run turns).turn x := by
  rw [run, List.foldl_append]
  rfl

theorem retains_run (hs : s.engine.Sound) (turns : List (Turn κ)) :
    s.engine.Retains (s.Acquainted turns) (s.run turns).engine := by
  induction turns using List.reverseRecOn with
  | nil => exact .refl _ s.engine
  | append_singleton turns x ih =>
    have hturn := retains_step (s := { s.run turns with carriage := x.carriage }) (sound_run hs turns)
      x.walk x.op
    rw [run_append_singleton]
    refine (ih.mono ?_).trans (hturn.mono ?_)
    · rintro id box endpoint ⟨before, y, after, rfl, hmet⟩
      exact ⟨before, y, after ++ [x], by simp, hmet⟩
    · rintro id box endpoint hmet
      exact ⟨turns, x, [], rfl, hmet⟩

/-- Every peer of an engine that was new has been met where its entry says. -/
theorem acquainted_run_new (self : PeerId) (name endpoint : String) (timing : Timing) (first : κ)
    (turns : List (Turn κ)) :
    let s : Station κ μ := new (Engine.new self name endpoint timing) first
    ∀ {id p}, (s.run turns).engine.roster.get? id = some p →
      ∃ box, p.mailbox = some box ∧ s.Acquainted turns id box p.lastEndpoint := by
  intro s id p hp
  have hs : s.engine.Sound := Engine.sound_new self name endpoint timing
  rcases (retains_run hs turns).entry hp with ⟨q, hq, -⟩ | hmet
  · cases hq
  · exact hmet

/-! ### Where a peer enters -/

theorem Meeting.entry_of_met {p : Peer μ} (hmeet : s.Meeting id endpoint now (true, u))
    (hp : u.engine.roster.get? id = some p) :
    u.engine.events = s.engine.events ∧ p.endpoint = endpoint := by
  cases hmeet with
  | met _ _ _ he =>
    rw [he, Engine.putPeer, SortedMap.get?_insert] at hp
    split at hp
    · obtain rfl := Option.some.inj hp
      rw [he]
      exact ⟨rfl, rfl⟩
    · rename_i hother
      exact absurd rfl hother

omit [Carriage κ μ] in
theorem settled {p : Peer μ} (hp : u.engine.roster.get? id = some p) (hn : p.declaredName = none)
    (he : t.engine = u.engine.settle id p 1 h now) :
    t.engine.events = u.engine.events ++ Event.entrance id p.endpoint h ∧
      ∃ q, t.engine.roster.get? id = some q ∧ q.ready = true ∧ q.endpoint = p.endpoint := by
  have hentry := u.engine.get?_settle id p 1 h now
  rw [if_pos rfl] at hentry
  obtain ⟨q, hq, hr⟩ := hentry
  have hretains : u.engine.Retains (fun _ _ _ => False) (u.engine.settle id p 1 h now) :=
    Engine.retains_settle hp 1 h now
  refine ⟨he ▸ Engine.events_settle hp hn 1 h now, q, he ▸ hq, hr, ?_⟩
  rcases hretains.entry hq with ⟨p', hp', hsame⟩ | ⟨_, -, hnew⟩
  · obtain rfl := Option.some.inj (hp.symm.trans hp')
    exact Peer.endpoint_of_outlet hsame
  · exact hnew.elim

/-- A peer enters where its entry says: where it was waited for, or else where its HELLO says. -/
theorem Introduction.enters (hi : s.Introduction walk id n h now t) (hs : s.engine.Sound)
    (ha : s.Admits id n h) : ∃ q, t.engine.roster.get? id = some q ∧ q.ready = true ∧
      Event.enter id h.name h.headers q.endpoint ∈ s.news t ∧
      ((∃ p, s.engine.roster.get? id = some p ∧ p.ready = false ∧ q.endpoint = p.endpoint ∧
          t.carriage = s.carriage) ∨
        (∀ {p}, s.engine.roster.get? id = some p → p.ready = true) ∧ q.endpoint = h.endpoint) := by
  have hfirst := ha.first
  subst hfirst
  have hreported : ∀ {u : Station κ μ} {p q : Peer μ} {before : List Event},
      u.engine.events = s.engine.events ++ before → q.endpoint = p.endpoint →
      t.engine.events = u.engine.events ++ Event.entrance id p.endpoint h →
      Event.enter id h.name h.headers q.endpoint ∈ s.news t := by
    intro u p q before hbefore hend hevents
    rw [hbefore, List.append_assoc] at hevents
    rw [news_of_append hevents, hend]
    exact List.mem_append_right _ List.mem_cons_self
  cases hi with
  | shunned hself => exact (hself.elim ha.other ha.elsewhere).elim
  | @expected p _ _ hp hr he hc =>
    have hunnamed : p.declaredName = none := by
      have hentered := hs.entered hp
      rw [hr] at hentered
      exact Option.isNone_iff_eq_none.mp (by simpa [Peer.hasEntered] using hentered.symm)
    obtain ⟨hevents, q, hq, hready, hend⟩ := settled hp hunnamed he
    exact ⟨q, hq, hready, hreported (List.append_nil _).symm hend hevents, .inl ⟨p, hp, hr, hend, hc⟩⟩
  | unmet _ _ hnew hmeet =>
    have hvain := hmeet.of_vain.2
    rw [reaches_room] at hvain
    rcases ha.reached with ⟨p, hp, hr⟩ | hreach
    · rw [not_unready hnew hp] at hr
      cases hr
    · exact absurd hreach hvain
  | @met u p _ _ hnew hmeet hp hunnamed he =>
    obtain ⟨between, hroom, -⟩ := events_room hs hnew walk h.endpoint
    obtain ⟨hevents, q, hq, hready, hend⟩ := settled hp hunnamed he
    obtain ⟨hquiet, hplace⟩ := hmeet.entry_of_met hp
    exact ⟨q, hq, hready, hreported (hquiet.trans hroom) hend hevents,
      .inr ⟨fun {p} hp => not_unready hnew hp, hend.trans hplace⟩⟩

theorem Admission.place_unique (ha : s.Admission id n h t) {name name' : String}
    {headers headers' : Headers} {place place' : String}
    (henter : Event.enter id name headers place ∈ s.news t)
    (henter' : Event.enter id name' headers' place' ∈ s.news t) : place = place' := by
  obtain ⟨endpoint, htold⟩ := ha.admitted (ha.entered.mp ⟨_, _, _, henter⟩)
  have hthere : ∀ {name headers place}, Event.enter id name headers place ∈ s.news t →
      place = endpoint := by
    intro name headers place henter
    have hconcerns : Event.enter id name headers place ∈ Event.concerning id (s.news t) :=
      List.mem_filter.mpr ⟨henter, decide_eq_true rfl⟩
    rw [htold, List.mem_append, Event.entrance, List.mem_cons] at hconcerns
    rcases hconcerns with hparting | hsame | hjoin
    · exact absurd hparting (s.engine.enter_notMem_parting id id name headers place)
    · exact (Event.enter.inj hsame).2.2.2
    · obtain ⟨group, -, hjoin⟩ := List.mem_map.mp hjoin
      cases hjoin
  exact (hthere henter).trans (hthere henter').symm

/-- What is known of a peer that entered at `place` in the last of the turns. -/
structure EntersAt (first : Station κ μ) (turns : List (Turn κ)) (s t : Station κ μ) (id : PeerId)
    (place : String) : Prop where
  reported : ∀ {name headers endpoint}, Event.enter id name headers endpoint ∈ s.news t →
    endpoint = place
  told : t.engine.peerEndpoint? id = some place
  greeted : ∃ p box, t.engine.roster.get? id = some p ∧ p.mailbox = some box ∧
    first.Acquainted turns id box place

/-- A peer whose HELLO is accepted enters at the endpoint where it was met and greeted. This is the
endpoint that the HELLO names, unless the peer had been met elsewhere and its HELLO was being waited
for: then it enters there, and nothing at all is sent. -/
theorem enters_run_new (self : PeerId) (name endpoint : String) (timing : Timing) (net c : κ)
    (turns : List (Turn κ)) {routingId : List UInt8} {frames : Content}
    (hm : Wire.decode frames = .ok ⟨n, .hello h⟩) (hd : PeerId.ofRoutingId? routingId = some id)
    (walk : Walk) (now : Nat) :
    let first : Station κ μ := new (Engine.new self name endpoint timing) net
    let s : Station κ μ := { first.run turns with carriage := c }
    let t := s.receive walk routingId frames now
    (∃ name headers place, Event.enter id name headers place ∈ s.news t) → ∃ place,
      first.EntersAt (turns ++ [⟨walk, c, .receive routingId frames now⟩]) s t id place ∧
      (place = h.endpoint ↔ ∀ p, s.engine.roster.get? id = some p → p.ready = false →
        p.endpoint = h.endpoint) ∧
      ∀ p, s.engine.roster.get? id = some p → p.ready = false →
        place = p.endpoint ∧ t.carriage = s.carriage := by
  intro first s t hentered
  have hs : s.engine.Sound := sound_run (Engine.sound_new self name endpoint timing) turns
  have ht : t.engine.Sound := sound_step hs walk (.receive routingId frames now)
  have hadmission : s.Admission id n h t := admission_receive hs hm hd walk now
  have hadmits := hadmission.entered.mp hentered
  obtain ⟨q, hq, hready, hreported, hwhere⟩ :=
    (introduction_receive hadmits.running hm hd walk now).enters hs hadmits
  have hentry : (first.run (turns ++ [⟨walk, c, .receive routingId frames now⟩])).engine.roster.get? id =
      some q := by
    rw [run_append_singleton]
    exact hq
  obtain ⟨box, hbox, hmet⟩ := acquainted_run_new self name endpoint timing net _ hentry
  have hlast : q.endpoint = q.lastEndpoint := by
    rw [Peer.endpoint, ht.connected hq, if_pos rfl]
  refine ⟨q.endpoint, ⟨fun henter => hadmission.place_unique henter hreported, ?_, q, box, hq, hbox,
    hlast ▸ hmet⟩, ?_⟩
  · rw [Engine.peerEndpoint?, Engine.readyPeer?_eq_some.mpr ⟨hq, hready⟩]
    rfl
  rcases hwhere with ⟨p, hp, hr, hend, hc⟩ | ⟨hnone, hend⟩
  · have hsame : ∀ {p'}, s.engine.roster.get? id = some p' → p' = p := fun hp' =>
      Option.some.inj (hp'.symm.trans hp)
    refine ⟨⟨fun hplace p' hp' _ => ?_, fun hall => hend.trans (hall p hp hr)⟩, fun p' hp' _ => ?_⟩
    · rw [hsame hp', ← hend]
      exact hplace
    · rw [hsame hp']
      exact ⟨hend, hc⟩
  · have hnobody : ∀ {p}, s.engine.roster.get? id = some p → p.ready ≠ false := fun hp hr => by
      rw [hnone hp] at hr
      cases hr
    exact ⟨iff_of_true hend fun p hp hr => absurd hr (hnobody hp),
      fun p hp hr => absurd hr (hnobody hp)⟩

/-- Bob was seen at one place and greets from another: he enters where he was seen, and no greeting
waits where he says that he is. -/
theorem enters_run_elsewhere :
    let ann : PeerId := ⟨.replicate 16 1, rfl⟩
    let bob : PeerId := ⟨.replicate 16 2, rfl⟩
    let net := (Network.empty.bind "old").bind "new"
    let frames : Content := (Wire.encode ⟨1, .hello ⟨"new", [], 0, "bob", .empty⟩⟩).toOption.getD []
    let turns : List (Turn Network) := [⟨.ascending, net, .discover (.found bob "old") 0⟩]
    let first : Station Network Network.Mailbox := new (.new ann "ann" "a" .usual) net
    let c := (first.run turns).carriage
    let s : Station Network Network.Mailbox := { first.run turns with carriage := c }
    let t := s.receive .ascending bob.routingId frames 1
    Wire.decode frames = .ok ⟨1, .hello ⟨"new", [], 0, "bob", .empty⟩⟩ ∧
      PeerId.ofRoutingId? bob.routingId = some bob ∧ s.news t = [.enter bob "bob" .empty "old"] ∧
      t.engine.peerEndpoint? bob = some "old" ∧ t.carriage.pending "old" = 1 ∧
      t.carriage.pending "new" = 0 ∧
      ∃ place, first.EntersAt (turns ++ [⟨.ascending, c, .receive bob.routingId frames 1⟩]) s t bob place ∧
        place ≠ "new" := by
  intro ann bob net frames turns first c s t
  have hm : Wire.decode frames = .ok ⟨1, .hello ⟨"new", [], 0, "bob", .empty⟩⟩ := by decide +kernel
  have hd : PeerId.ofRoutingId? bob.routingId = some bob := by decide +kernel
  have hnews : s.news t = [.enter bob "bob" .empty "old"] := by decide +kernel
  have htold : t.engine.peerEndpoint? bob = some "old" := by decide +kernel
  obtain ⟨place, henters, -⟩ := enters_run_new ann "ann" "a" .usual net c turns hm hd .ascending 1
    ⟨"bob", .empty, "old", hnews ▸ List.mem_singleton_self _⟩
  have hplace : some place = some "old" := henters.told.symm.trans htold
  refine ⟨hm, hd, hnews, htold, by decide +kernel, by decide +kernel, place, henters, ?_⟩
  rw [Option.some.inj hplace]
  decide

end Station
end PeerMesh
