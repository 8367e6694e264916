import PeerMesh.Proofs.Station.Walks

/-!
# Tidings of different peers commute

A tiding is something that an engine learns of one peer: that it was found or lost, or a message
from it. As long as the endpoints that are named for one peer belong to no other, it does not matter
in which order tidings of different peers come in. Only the order of those of one peer does.
-/

namespace PeerMesh
set_option autoImplicit false

inductive News
  | found (endpoint : String)
  | lost
  | message (frames : Content)
  deriving DecidableEq

/-- Something learned of one peer, and when. -/
structure Tiding where
  peer : PeerId
  news : News
  now : Nat
  deriving DecidableEq

namespace Tiding

def op (x : Tiding) : Op :=
  match x.news with
  | .found endpoint => .discover (.found x.peer endpoint) x.now
  | .lost => .discover (.lost x.peer) x.now
  | .message frames => .receive x.peer.routingId frames x.now

/-- The endpoint that a tiding names for its peer, if it does. -/
def endpoint? (x : Tiding) : Option String :=
  match x.news with
  | .found endpoint => some endpoint
  | .lost => none
  | .message frames =>
    match Wire.decode frames with
    | .ok ⟨_, .hello h⟩ => some h.endpoint
    | _ => none

/-- The same tidings, of each peer in the same order. -/
def Reorders (l l' : List Tiding) : Prop :=
  ∀ a, (l'.filter fun x => x.peer = a) = l.filter fun x => x.peer = a

/-- No endpoint that is named for a peer is named for another one or that of another one's entry. -/
structure Apart {μ : Type} (roster : Roster μ) (l : List Tiding) : Prop where
  named : ∀ x ∈ l, ∀ y ∈ l, x.endpoint?.isSome → x.endpoint? = y.endpoint? → x.peer = y.peer
  filed : ∀ x ∈ l, ∀ entry ∈ roster.entries, x.endpoint? = some entry.2.endpoint → x.peer = entry.1

theorem Reorders.mem {l l' : List Tiding} (h : Reorders l l') {x : Tiding} (hx : x ∈ l') : x ∈ l := by
  have hown : x ∈ l'.filter fun y => y.peer = x.peer := List.mem_filter.mpr ⟨hx, decide_eq_true rfl⟩
  rw [h x.peer] at hown
  exact (List.mem_filter.mp hown).1

end Tiding

namespace Station
variable {s : Station Network Network.Mailbox} {owner : String → PeerId}

/-- Learns something of a peer. -/
def learn (s : Station Network Network.Mailbox) (x : Walk × Tiding) : Station Network Network.Mailbox :=
  s.step x.1 x.2.op

def learnAll (s : Station Network Network.Mailbox) (l : List (Walk × Tiding)) :
    Station Network Network.Mailbox :=
  l.foldl learn s

theorem learn_walk (hs : s.engine.Sound) (walk walk' : Walk) (x : Tiding) :
    s.learn (walk', x) = s.learn (walk, x) := by
  obtain ⟨peer, news, now⟩ := x
  cases news with
  | found endpoint => exact found_walk hs walk walk' peer endpoint now
  | lost => rfl
  | message frames => exact receive_walk hs walk walk' peer.routingId frames now

theorem sound_learn (hs : s.engine.Sound) (x : Walk × Tiding) : (s.learn x).engine.Sound :=
  sound_step hs x.1 x.2.op

/-- Which way the peers are gone through does not matter. -/
theorem learnAll_eq (hs : s.engine.Sound) (l : List (Walk × Tiding)) :
    s.learnAll l = (l.map Prod.snd).foldl (fun s x => s.learn (.ascending, x)) s := by
  induction l generalizing s with
  | nil => rfl
  | cons x l ih =>
    obtain ⟨walk, x⟩ := x
    have hfirst := learn_walk hs .ascending walk x
    rw [learnAll, List.foldl_cons, List.map_cons, List.foldl_cons, hfirst]
    exact ih (sound_learn hs (.ascending, x))

theorem sound_learnAll (hs : s.engine.Sound) (l : List (Walk × Tiding)) :
    (s.learnAll l).engine.Sound := by
  induction l generalizing s with
  | nil => exact hs
  | cons x l ih => exact ih (sound_learn hs x)

/-- A tiding is about its peer, if the endpoint it names is the peer's own. -/
theorem about_learn (walk : Walk) {x : Tiding}
    (hend : ∀ {endpoint}, x.endpoint? = some endpoint → owner endpoint = x.peer) :
    About owner x.peer fun s => s.learn (walk, x) := by
  obtain ⟨peer, news, now⟩ := x
  cases news with
  | found endpoint => exact about_found (hend rfl) walk now
  | lost => exact about_lost owner peer
  | message frames =>
    refine about_receive (PeerId.ofRoutingId?_routingId peer) (fun {m h} hm hb => hend ?_) walk now
    obtain ⟨sequence, body⟩ := m
    rw [Tiding.endpoint?]
    dsimp only
    rw [hm]
    cases hb
    rfl

/-- Each endpoint has an owner, of those who are known there and those for whom it is named. -/
theorem exists_owner_of_apart (hs : s.engine.Sound) (hh : s.Homed) {l : List Tiding}
    (h : Tiding.Apart s.engine.roster l) : ∃ owner, s.Placed owner ∧
      ∀ x ∈ l, ∀ {endpoint}, x.endpoint? = some endpoint → owner endpoint = x.peer := by
  have hfiled : ∀ {id p x}, s.engine.roster.get? id = some p → x ∈ l →
      x.endpoint? = some p.endpoint → x.peer = id := fun {id p x} hp hx hend =>
    h.filed x hx (id, p) (SortedMap.mem_entries.mpr hp) hend
  obtain ⟨owner, howner⟩ := exists_owner
    (fun endpoint id => (∃ p, s.engine.roster.get? id = some p ∧ p.endpoint = endpoint) ∨
      ∃ x ∈ l, x.peer = id ∧ x.endpoint? = some endpoint) fun {endpoint a b} ha hb => by
    rcases ha with ⟨p, hp, rfl⟩ | ⟨x, hx, rfl, hend⟩
    · rcases hb with ⟨q, hq, hsame⟩ | ⟨y, hy, rfl, hend⟩
      · exact hs.apart hp hq hsame.symm
      · exact (hfiled hp hy hend).symm
    · rcases hb with ⟨q, hq, rfl⟩ | ⟨y, hy, rfl, hend'⟩
      · exact hfiled hq hx hend
      · exact h.named x hx y hy (by rw [hend]; rfl) (hend.trans hend'.symm)
  exact ⟨owner, hh.placed hs fun hp => howner (.inl ⟨_, hp, rfl⟩),
    fun x hx _ hend => howner (.inr ⟨x, hx, rfl, hend⟩)⟩

theorem concurs_learnAll (hs : s.engine.Sound) (hh : s.Homed) {l l' : List (Walk × Tiding)}
    (hapart : Tiding.Apart s.engine.roster (l.map Prod.snd))
    (horder : Tiding.Reorders (l.map Prod.snd) (l'.map Prod.snd)) :
    (s.learnAll l).Concurs (s.learnAll l') := by
  obtain ⟨owner, hplaced, howner⟩ := exists_owner_of_apart hs hh hapart
  refine concurs_of_alike owner (sound_learnAll hs l) (sound_learnAll hs l') fun a => ?_
  rw [learnAll_eq hs l, learnAll_eq hs l']
  exact alike_foldl Tiding.peer (fun x hx => about_learn .ascending (howner x hx))
    (fun x hx => about_learn .ascending (howner x (horder.mem hx))) hplaced (horder a)

/-- Whatever was done to an engine that was new, and whatever the network is then. Tidings that come
in another order leave the same behind everywhere, if they are in order for each peer; even the
reports on each peer are the same. -/
theorem concurs_learnAll_new (id : PeerId) (name endpoint : String) (timing : Timing)
    (first net : Network) (turns : List (Turn Network)) {l l' : List (Walk × Tiding)}
    (hapart : Tiding.Apart ((new (Engine.new id name endpoint timing) first).run turns).engine.roster
      (l.map Prod.snd))
    (horder : Tiding.Reorders (l.map Prod.snd) (l'.map Prod.snd)) :
    let s : Station Network Network.Mailbox :=
      { (new (Engine.new id name endpoint timing) first).run turns with carriage := net }
    (s.learnAll l).Concurs (s.learnAll l') := by
  intro s
  have hs : s.engine.Sound := sound_run (Engine.sound_new id name endpoint timing) turns
  have hhomed := homed_run_new id name endpoint timing first turns
  exact concurs_learnAll (s := s) hs (hhomed.congr rfl) hapart horder

/-- Bob is known and greets while cat is met, says a word too early, and is lost again. -/
theorem concurs_learnAll_greeted :
    let ann : PeerId := ⟨.replicate 16 1, rfl⟩
    let bob : PeerId := ⟨.replicate 16 2, rfl⟩
    let cat : PeerId := ⟨.replicate 16 3, rfl⟩
    let net := ((Network.empty.bind "b").bind "c").setCapacity "c" 1
    let frames (m : Message) : Content := (Wire.encode m).toOption.getD []
    let greeted : Tiding := ⟨bob, .message (frames ⟨1, .hello ⟨"b", ["g"], 1, "bob", .empty⟩⟩), 1⟩
    let pinged : Tiding := ⟨bob, .message (frames ⟨2, .ping⟩), 2⟩
    let met : Tiding := ⟨cat, .found "c", 1⟩
    let called : Tiding := ⟨cat, .message (frames ⟨1, .ping⟩), 1⟩
    let gone : Tiding := ⟨cat, .lost, 2⟩
    let l := [greeted, met, pinged, called, gone]
    let l' := [met, called, gone, greeted, pinged]
    let turns : List (Turn Network) := [⟨.ascending, net, .discover (.found bob "b") 0⟩]
    let s := (new (.new ann "ann" "a" .usual) net).run turns
    let walked := fun x : Tiding => (Walk.ascending, x)
    (Tiding.Apart s.engine.roster l ∧ Tiding.Reorders l l') ∧ s.engine.roster.keys = [bob] ∧
      (s.learnAll (l.map walked)).engine.peersInGroup "g" = [bob] ∧
      ({ s with carriage := net }.learnAll (l.map walked)).Concurs
        ({ s with carriage := net }.learnAll (l'.map walked)) := by
  intro ann bob cat net frames greeted pinged met called gone l l' turns s walked
  have hapart : Tiding.Apart s.engine.roster l := ⟨by decide +kernel, by decide +kernel⟩
  have horder : Tiding.Reorders l l' := by
    intro a
    by_cases hbob : bob = a
    · subst hbob
      decide +kernel
    · by_cases hcat : cat = a
      · subst hcat
        decide +kernel
      · simp [l, l', greeted, pinged, met, called, gone, hbob, hcat]
  have hapart' : Tiding.Apart s.engine.roster ((l.map walked).map Prod.snd) := hapart
  have horder' : Tiding.Reorders ((l.map walked).map Prod.snd) ((l'.map walked).map Prod.snd) :=
    horder
  exact ⟨⟨hapart, horder⟩, by decide +kernel, by decide +kernel,
    concurs_learnAll_new ann "ann" "a" .usual net net turns hapart' horder'⟩

end Station
end PeerMesh
