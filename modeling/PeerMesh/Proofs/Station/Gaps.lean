import PeerMesh.Network
import PeerMesh.Proofs.Station.Hearing

/-!
# Lost and repeated messages

A session that arrives whole and in order is applied message by message. The first message that is
not the next of the session does not have the next number either, because less than a whole round of
numbers was lost. It costs its sender the place among the peers, and from then on nothing is listened
to but another HELLO.
-/

namespace PeerMesh
set_option autoImplicit false

namespace Station
variable {κ μ : Type} [Carriage κ μ] {s t : Station κ μ} {id : PeerId} {p q : Peer μ} {box : μ}
  {m : Message} {name : String}

/-! ### One message -/

/-- A message of a peer whose entry was `p` was applied, and nothing else was done: a PING was
answered by a PING_OK, and nothing was sent otherwise. -/
inductive Applied (s : Station κ μ) (id : PeerId) (p : Peer μ) (m : Message) (now : Nat)
    (t : Station κ μ) : Prop
  | heeded (hm : m.body ≠ .ping) (he : t.engine = (s.engine.heeded id p m.body).refresh id now)
    (hc : t.carriage = s.carriage)
  | answered {box frames} (hm : m.body = .ping) (hbox : p.mailbox = some box)
    (hf : Wire.encode ⟨p.sent + 1, .pingOk⟩ = .ok frames)
    (hs : Carriage.send s.carriage box frames = (.ok (), t.carriage))
    (he : t.engine = ((s.engine.heeded id p m.body).editPeer id
      ({ · with sent := p.sent + 1 })).refresh id now)

theorem applied_accept (hs : s.engine.Sound) (hp : s.engine.readyPeer? id = some p)
    (hm : m.isHello = false) (hn : m.sequence = p.want + 1) (hbox : p.mailbox = some box)
    (hsend : ∀ frames, (Carriage.send s.carriage box frames).1 = .ok ()) (now : Nat) :
    s.Applied id p m now (s.accept id m now) := by
  by_cases hb : m.body = .ping
  · obtain ⟨frames, result, hf, hresult, htaken⟩ := accept_ping hs hp hb hn hbox now
    obtain rfl : result = .ok () := (congrArg Prod.fst hresult).symm.trans (hsend frames)
    exact .answered hb hbox hf hresult (htaken rfl)
  · have hentry := (Engine.readyPeer?_eq_some.mp hp).1
    have hl : p.showsLoss m = false := (Peer.showsLoss_eq_false hm).mpr hn
    rw [accept_of_ready hp hl]
    refine .heeded hb ?_ (carriage_act _ id hb)
    rw [engine_edit, engine_act hentry hm hb]

theorem applied_turn (hs : s.engine.Sound) (hp : s.engine.readyPeer? id = some p) {x : Turn κ}
    (hx : x.op.message? id = some m) (hm : m.isHello = false) (hn : m.sequence = p.want + 1)
    (hbox : p.mailbox = some box)
    (hsend : ∀ frames, (Carriage.send x.carriage box frames).1 = .ok ()) :
    ∃ routingId frames now, x.op = .receive routingId frames now ∧
      ({ s with carriage := x.carriage } : Station κ μ).Applied id p m now (s.turn x) := by
  obtain ⟨routingId, frames, now, hop, hid, hdecode⟩ := Op.exists_of_message? hx
  have hrun := hs.running (Engine.readyPeer?_eq_some.mp hp).1
  let u : Station κ μ := { s with carriage := x.carriage }
  have hturn : s.turn x = u.accept id m now := by
    rw [turn, hop]
    exact receive_of_not_hello (s := u) hrun hdecode hid hm x.walk now
  refine ⟨routingId, frames, now, hop, ?_⟩
  rw [hturn]
  exact applied_accept (s := u) hs hp hm hn hbox hsend now

omit [Carriage κ μ] in
theorem readyPeer?_refresh {e : Engine μ} (he : e.roster.get? id = some p) (hr : p.ready = true)
    (now : Nat) : ∃ q, (e.refresh id now).readyPeer? id = some q ∧ p.Remains q ∧ q.want = p.want :=
  ⟨_, Engine.readyPeer?_eq_some.mpr ⟨Engine.get?_editPeer he _, hr⟩, ⟨rfl, rfl, rfl, rfl⟩, rfl⟩

theorem Applied.remains {now : Nat} (h : s.Applied id p m now t)
    (hp : s.engine.readyPeer? id = some p) :
    ∃ q, t.engine.readyPeer? id = some q ∧ p.Remains q ∧ q.want = p.want + 1 := by
  have hready := (Engine.readyPeer?_eq_some.mp hp).2
  have hheeded := s.engine.get?_heeded id p m.body
  cases h with
  | heeded _ he =>
    have hfirst : p.Remains (p.followed m.body) := ⟨rfl, rfl, rfl, rfl⟩
    rw [he]
    obtain ⟨q, hq, hremains, hwant⟩ := readyPeer?_refresh hheeded hready now
    exact ⟨q, hq, hfirst.trans hremains, hwant⟩
  | answered _ _ _ _ he =>
    let answered : Peer μ := { p.followed m.body with sent := p.sent + 1 }
    have hfirst : p.Remains answered := ⟨rfl, rfl, rfl, rfl⟩
    have hnow := Engine.get?_editPeer hheeded ({ · with sent := p.sent + 1 })
    rw [he]
    obtain ⟨q, hq, hremains, hwant⟩ := readyPeer?_refresh (p := answered) hnow hready now
    exact ⟨q, hq, hfirst.trans hremains, hwant⟩

/-! ### Many messages -/

/-- The turns bring messages of a peer that is ready, and each of them is applied. -/
inductive Applies (id : PeerId) : Station κ μ → List (Turn κ) → Prop
  | nil (s : Station κ μ) : Applies id s []
  | cons {s : Station κ μ} {x : Turn κ} {routingId frames now m p turns}
    (hop : x.op = .receive routingId frames now) (hm : x.op.message? id = some m)
    (hp : s.engine.readyPeer? id = some p)
    (h : ({ s with carriage := x.carriage } : Station κ μ).Applied id p m now (s.turn x))
    (hrest : Applies id (s.turn x) turns) : Applies id s (x :: turns)

/-- The turns change nothing: the engine stays as it is and does not touch the carriage. -/
inductive Ignores : Station κ μ → List (Turn κ) → Prop
  | nil (s : Station κ μ) : Ignores s []
  | cons {s : Station κ μ} {x : Turn κ} {turns} (he : (s.turn x).engine = s.engine)
    (hc : (s.turn x).carriage = x.carriage) (hrest : Ignores (s.turn x) turns) :
    Ignores s (x :: turns)

/-- A peer was removed, and the application was told that it is gone and of each group that it was in. -/
structure Removes (s : Station κ μ) (id : PeerId) (name : String) (t : Station κ μ) : Prop where
  engine : t.engine = s.engine.drop id
  gone : t.engine.roster.get? id = none
  events : t.engine.events = s.engine.events ++
    .exit id name :: (s.engine.groupsOf id).map fun group => .leave id name group
  ascending : (s.engine.groupsOf id).Pairwise (· < ·)

/-- What comes of `front` and then `back`, if the peer has still to say `ms`: as much of it as came
whole and in order is applied, the next message costs the peer its place, and the others nothing. -/
structure Notices (s : Station κ μ) (id : PeerId) (name : String) (ms : List Message)
    (front back : List (Turn κ)) : Prop where
  leading : brought id front <+: ms
  longest : ∀ {x rest m}, back = x :: rest → x.op.message? id = some m →
    ¬ brought id front ++ [m] <+: ms
  applies : s.Applies id front
  removes : ∀ {x rest}, back = x :: rest → (s.run front).Removes id name ((s.run front).turn x)
  /-- The removal is not told to the peer, nor to anybody else. -/
  silent : ∀ {x rest}, back = x :: rest → ((s.run front).turn x).carriage = x.carriage
  ignores : ∀ {x rest}, back = x :: rest → ((s.run front).turn x).Ignores rest

theorem notices_nil (s : Station κ μ) (id : PeerId) (name : String) (ms : List Message) :
    s.Notices id name ms [] [] where
  leading := List.nil_prefix
  longest h := by cases h
  applies := .nil s
  removes h := by cases h
  silent h := by cases h
  ignores h := by cases h

theorem ignores_unready (hs : s.engine.Sound) (hout : s.engine.readyPeer? id = none)
    {turns : List (Turn κ)} (hm : ∀ x ∈ turns, ∃ m, x.op.message? id = some m ∧ m.isHello = false) :
    s.Ignores turns := by
  induction turns generalizing s with
  | nil => exact .nil s
  | cons x turns ih =>
    obtain ⟨hhead, hrest⟩ := List.forall_mem_cons.mp hm
    obtain ⟨m, hmessage, hhello⟩ := hhead
    have hsame : (s.turn x).engine = s.engine ∧ (s.turn x).carriage = x.carriage := by
      let u : Station κ μ := { s with carriage := x.carriage }
      change (u.step x.walk x.op).engine = u.engine ∧ (u.step x.walk x.op).carriage = u.carriage
      cases hrun : u.engine.stopped with
      | true =>
        rw [step_of_stopped hrun x.walk hmessage]
        exact ⟨rfl, rfl⟩
      | false =>
        obtain ⟨now, haccept⟩ := accept_of_message hrun x.walk hmessage hhello
        rw [haccept, accept_unready (s := u) hout]
        exact ⟨rfl, rfl⟩
    exact .cons hsame.1 hsame.2 (ih (sound_turn hs x) (hsame.1 ▸ hout) hrest)

theorem notices_lost (hs : s.engine.Sound) (hp : s.engine.readyPeer? id = some p)
    (hname : p.declaredName = some name) {ms : List Message}
    (hdue : ∀ m' ∈ ms.head?, m'.sequence = p.want + 1) {x : Turn κ} {turns : List (Turn κ)}
    (hx : x.op.message? id = some m) (hm : m.isHello = false) (hn : m.sequence ≠ p.want + 1)
    (hrest : ∀ x ∈ turns, ∃ m, x.op.message? id = some m ∧ m.isHello = false) :
    s.Notices id name ms [] (x :: turns) := by
  have hentry := (Engine.readyPeer?_eq_some.mp hp).1
  let u : Station κ μ := { s with carriage := x.carriage }
  obtain ⟨now, haccept⟩ := accept_of_message (s := u) (hs.running hentry) x.walk hx hm
  have hturn : s.turn x = u.accept id m now := haccept
  have hl : p.showsLoss m = true := (Peer.showsLoss_eq_true hm).mpr hn
  have hengine : (s.turn x).engine = s.engine.drop id := by
    rw [hturn, engine_accept_lost (s := u) hp hl]
  have hgone : (s.turn x).engine.roster.get? id = none := by
    rw [hengine, Engine.get?_drop, if_pos rfl]
  constructor
  case leading => exact List.nil_prefix
  case longest =>
    rintro y rest m' ⟨⟩ hy ⟨after, hms⟩
    obtain rfl := Option.some.inj (hx.symm.trans hy)
    exact hn (hdue m (by rw [← hms]; rfl))
  case applies => exact .nil s
  case removes =>
    rintro y rest ⟨⟩
    refine ⟨hengine, hgone, ?_, SortedMap.pairwise_keys _⟩
    change (s.turn x).engine.events = _
    rw [hengine, Engine.events_drop_of_named hentry hname]
    rfl
  case silent =>
    rintro y rest ⟨⟩
    change (s.turn x).carriage = _
    rw [hturn, carriage_accept_lost (s := u) hp hl]
  case ignores =>
    rintro y rest ⟨⟩
    have hout : (s.turn x).engine.readyPeer? id = none := by
      rw [Engine.readyPeer?, hgone]
      rfl
    exact ignores_unready (sound_turn hs x) hout hrest

theorem Notices.cons {ms : List Message} {x : Turn κ} {front back : List (Turn κ)}
    {routingId : List UInt8} {frames : Content} {now : Nat}
    (h : (s.turn x).Notices id name ms front back) (hop : x.op = .receive routingId frames now)
    (hx : x.op.message? id = some m) (hp : s.engine.readyPeer? id = some p)
    (happlied : ({ s with carriage := x.carriage } : Station κ μ).Applied id p m now (s.turn x)) :
    s.Notices id name (m :: ms) (x :: front) back := by
  have hbrought : brought id (x :: front) = m :: brought id front := by
    rw [brought_cons, hx]
    rfl
  constructor
  case leading =>
    rw [hbrought]
    exact (List.prefix_cons_inj m).mpr h.leading
  case longest =>
    intro y rest m' hback hy hlong
    rw [hbrought] at hlong
    exact h.longest hback hy ((List.prefix_cons_inj m).mp hlong)
  case applies => exact .cons hop hx hp happlied h.applies
  case removes => exact h.removes
  case silent => exact h.silent
  case ignores => exact h.ignores

omit [Carriage κ μ] in
theorem forall_message {turns : List (Turn κ)} {d : List Message}
    (h : turns.map (·.op.message? id) = d.map some) (hd : ∀ m ∈ d, m.isHello = false) :
    ∀ x ∈ turns, ∃ m, x.op.message? id = some m ∧ m.isHello = false := by
  intro x hx
  have hmem : x.op.message? id ∈ d.map some := by
    rw [← h]
    exact List.mem_map_of_mem hx
  obtain ⟨m, hm, hsame⟩ := List.mem_map.mp hmem
  exact ⟨m, hsame.symm, hd m hm⟩

theorem notices_garbled {seen ms d : List Message} {last : Option Message}
    (hg : Garbled last ms d) (hs : s.engine.Sound) (hp : s.engine.readyPeer? id = some p)
    (hname : p.declaredName = some name) (hbox : p.mailbox = some box)
    (hwant : p.want = .ofNat seen.length) (hseq : InSequence (seen ++ ms))
    (hlast : ∀ m ∈ last, m.sequence = .ofNat seen.length) (hd : ∀ m ∈ d, m.isHello = false)
    {turns : List (Turn κ)} (hturns : turns.map (·.op.message? id) = d.map some)
    (hsend : ∀ x ∈ turns, ∀ frames, (Carriage.send x.carriage box frames).1 = .ok ()) :
    ∃ front back, turns = front ++ back ∧ s.Notices id name ms front back := by
  -- So far the peer said `seen`, and all of it was applied.
  induction hg generalizing s p seen turns with
  | stop last gap =>
    obtain rfl := List.map_eq_nil_iff.mp hturns
    exact ⟨[], [], rfl, s.notices_nil id name gap⟩
  | @again m ms d h ih =>
    obtain ⟨x, turns, rfl, hx, hmap⟩ := List.map_eq_cons_iff.mp hturns
    obtain ⟨hm, hrest⟩ := List.forall_mem_cons.mp hd
    have hn : m.sequence ≠ p.want + 1 := by
      rw [hlast m rfl, hwant]
      exact fun h => absurd (UInt16.left_eq_add.mp h) (by decide)
    exact ⟨[], x :: turns, rfl,
      notices_lost hs hp hname (hwant ▸ hseq.due) hx hm hn (forall_message hmap hrest)⟩
  | @next last m ms d gap hgap h ih =>
    obtain ⟨x, turns, rfl, hx, hmap⟩ := List.map_eq_cons_iff.mp hturns
    obtain ⟨hm, hrest⟩ := List.forall_mem_cons.mp hd
    have hnext : m.sequence = p.want + 1 ↔ gap = [] := by
      rw [hwant]
      exact hseq.due_iff hgap
    by_cases hwhole : gap = []
    · -- Nothing was lost before `m`, which is applied.
      subst hwhole
      have hn := hnext.mpr rfl
      obtain ⟨routingId, frames, now, hop, happlied⟩ :=
        applied_turn hs hp hx hm hn hbox (hsend x List.mem_cons_self)
      obtain ⟨q, hq, hremains, hqwant⟩ := happlied.remains hp
      have hcount : p.want + 1 = .ofNat (seen ++ [m]).length := by
        rw [hwant, List.length_append, UInt16.ofNat_add]
        rfl
      obtain ⟨front, back, rfl, hnotices⟩ := ih (sound_turn hs x) hq
        (hremains.declaredName.trans hname) (hremains.mailbox.trans hbox) (hqwant.trans hcount)
        (by rwa [List.append_assoc]) (by rintro _ ⟨⟩; exact hn.trans hcount) hrest hmap
        (fun y hy => hsend y (List.mem_cons_of_mem x hy))
      exact ⟨x :: front, back, rfl, hnotices.cons hop hx hp happlied⟩
    · have hn : m.sequence ≠ p.want + 1 := fun h => hwhole (hnext.mp h)
      exact ⟨[], x :: turns, rfl,
        notices_lost hs hp hname (hwant ▸ hseq.due) hx hm hn (forall_message hmap hrest)⟩

/-- Whatever was done to an engine that was new. If it accepts a HELLO, and its sends to the sender
succeed, then it applies what follows as far as it is whole, and no message after that. -/
theorem notices_run_new (id : PeerId) (name endpoint : String) (timing : Timing) (carriage : κ)
    (before turns : List (Turn κ)) (x : Turn κ) {peer : PeerId} {h : Hello} {ms d : List Message}
    {p : Peer μ} {box : μ} (hseq : InSequence (⟨1, .hello h⟩ :: ms)) (hg : Garbled none ms d)
    (hx : x.op.message? peer = some ⟨1, .hello h⟩)
    (hturns : turns.map (·.op.message? peer) = d.map some)
    (hp : ((new (Engine.new id name endpoint timing : Engine μ) carriage).run
      (before ++ [x])).engine.readyPeer? peer = some p) (hbox : p.mailbox = some box)
    (hsend : ∀ y ∈ turns, ∀ frames, (Carriage.send y.carriage box frames).1 = .ok ()) :
    ({ (new (Engine.new id name endpoint timing : Engine μ) carriage).run before with
        carriage := x.carriage } : Station κ μ).Welcomes peer h
      ((new (Engine.new id name endpoint timing : Engine μ) carriage).run (before ++ [x])) p ∧
    ∃ front back, turns = front ++ back ∧
      ((new (Engine.new id name endpoint timing : Engine μ) carriage).run (before ++ [x])).Notices peer
        h.name ms front back := by
  let s : Station κ μ := (new (Engine.new id name endpoint timing) carriage).run before
  have hs : s.engine.Sound := sound_run (Engine.sound_new id name endpoint timing) before
  have hlast : (new (Engine.new id name endpoint timing) carriage : Station κ μ).run (before ++ [x]) =
      s.turn x := List.foldl_append
  rw [hlast] at hp ⊢
  have hw : ({ s with carriage := x.carriage } : Station κ μ).Welcomes peer h (s.turn x) p :=
    welcomes_step (s := { s with carriage := x.carriage }) hs x.walk hx hp
  have hwant : p.want = .ofNat [(⟨1, .hello h⟩ : Message)].length := by
    have hheard := (Engine.heard_of_ready hp).symm.trans hw.heard
    exact congrArg Heard.want (Option.some.inj hheard)
  have hd : ∀ m ∈ d, m.isHello = false := by
    intro m hm
    rcases hg.mem m hm with hnone | hm
    · cases hnone
    · exact hseq.tail m hm
  exact ⟨hw, notices_garbled hg (sound_turn hs x) hp hw.declaredName hbox
    hwant hseq (by rintro _ ⟨⟩) hd hturns hsend⟩

/-- Message 3 is lost, and message 4 comes twice. -/
theorem notices_run_lost :
    let ann : PeerId := ⟨.replicate 16 1, rfl⟩
    let bob : PeerId := ⟨.replicate 16 2, rfl⟩
    let net := Network.empty.bind "b"
    let hello : Message := ⟨1, .hello ⟨"b", ["g"], 1, "bob", .empty⟩⟩
    let ms : List Message := [⟨2, .ping⟩, ⟨3, .join "f" 2⟩, ⟨4, .leave "g" 3⟩, ⟨5, .pingOk⟩]
    let d : List Message := [⟨2, .ping⟩, ⟨4, .leave "g" 3⟩, ⟨4, .leave "g" 3⟩, ⟨5, .pingOk⟩]
    let hear (m : Message) : Turn Network :=
      ⟨.ascending, net, .receive bob.routingId ((Wire.encode m).toOption.getD []) 0⟩
    let s : Station Network Network.Mailbox := new (.new ann "ann" "a" .usual) net
    InSequence (hello :: ms) ∧ Garbled none ms d ∧ ∃ front back, d.map hear = front ++ back ∧
      (s.run [hear hello]).Notices bob "bob" ms front back := by
  intro ann bob net hello ms d hear s
  have hseq : InSequence (hello :: ms) :=
    ((((InSequence.nil.snoc rfl (by decide)).snoc rfl (by decide)).snoc rfl (by decide)).snoc rfl
      (by decide)).snoc rfl (by decide)
  have hg : Garbled none ms d :=
    .next [] (by decide) (.next [⟨3, .join "f" 2⟩] (by decide) (.again (.next [] (by decide)
      (.stop _ []))))
  have hturns : (d.map hear).map (·.op.message? bob) = d.map some := by decide +kernel
  have hready : ((s.run ([] ++ [hear hello])).engine.readyPeer? bob).map (·.mailbox) =
      some (some ⟨"b", ann.routingId⟩) := by decide +kernel
  obtain ⟨p, hp, hbox⟩ := Option.map_eq_some_iff.mp hready
  have hsend : ∀ y ∈ d.map hear, ∀ frames,
      (Carriage.send y.carriage (⟨"b", ann.routingId⟩ : Network.Mailbox) frames).1 = .ok () := by
    intro y hy frames
    obtain ⟨m, -, rfl⟩ := List.mem_map.mp hy
    rfl
  exact ⟨hseq, hg, (notices_run_new ann "ann" "a" .usual net [] (d.map hear) (hear hello) hseq hg
    (by decide +kernel) hturns hp hbox hsend).2⟩

end Station
end PeerMesh
