import PeerMesh.Proofs.Station.Mailing
import PeerMesh.Proofs.Tcp.Links
import PeerMesh.Proofs.Wire.RoundTrip

/-!
# Every stream is numbered

Each mailbox over TCP is a stream of its own. Whatever its owner does, and however far the writers
have come, its messages are numbered from one on, and the first of them is the only HELLO.
-/

namespace PeerMesh
set_option autoImplicit false

/-- The messages are numbered from one on, and only the first is a HELLO. -/
def Numbered (contents : List Content) : Prop :=
  ∀ k content, contents[k]? = some content → ∃ m, Wire.decode content = .ok m ∧
    m.sequence = .ofNat (k + 1) ∧ (m.isHello = true ↔ k = 0)

namespace Numbered
variable {contents more : List Content} {content : Content}

theorem nil : Numbered [] := by
  intro k content h
  cases h

theorem of_append (h : Numbered (contents ++ more)) : Numbered contents := by
  intro k content hk
  have hlt := (List.getElem?_eq_some_iff.mp hk).1
  exact h k content ((List.getElem?_append_left hlt).trans hk)

theorem of_isPrefix (h : Numbered more) (hp : contents <+: more) : Numbered contents := by
  obtain ⟨rest, rfl⟩ := hp
  exact h.of_append

theorem snoc (h : Numbered contents) {m : Message} (hm : Wire.decode content = .ok m)
    (hn : m.sequence = .ofNat (contents.length + 1))
    (hhello : m.isHello = true ↔ contents.length = 0) : Numbered (contents ++ [content]) := by
  intro k content' hk
  by_cases hlt : k < contents.length
  · rw [List.getElem?_append_left hlt] at hk
    exact h k content' hk
  · have hlast : k = contents.length := by
      have hbound := (List.getElem?_eq_some_iff.mp hk).1
      rw [List.length_append, List.length_singleton] at hbound
      omega
    subst hlast
    rw [List.getElem?_concat_length] at hk
    obtain rfl := Option.some.inj hk
    exact ⟨m, hm, hn, hhello⟩

end Numbered

namespace Station
open Tcp (Exchange Link Mailbox)
variable {s t : Station Exchange Mailbox}

/-- All streams of a node are numbered, and it knows how far each of its mailboxes has come. -/
structure Enumerates (s : Station Exchange Mailbox) : Prop where
  owner : ∀ {i : Nat} {l : Link}, s.carriage.links[i]? = some l → l.routingId = s.engine.id.routingId
  numbered : ∀ {i : Nat} {l : Link}, s.carriage.links[i]? = some l → Numbered l.accepted
  sent : ∀ {id p} {box : Mailbox}, s.engine.roster.get? id = some p → p.mailbox = some box →
    ∃ l : Link, s.carriage.links[box.number]? = some l ∧
      (l.writer = .ended ∨ l.accepted ≠ [] ∧ p.sent = .ofNat l.accepted.length)
  apart : ∀ {id j p q} {box : Mailbox}, s.engine.roster.get? id = some p → s.engine.roster.get? j = some q →
    p.mailbox = some box → q.mailbox = some box → id = j

namespace Enumerates

/-- Entries may go, and the others stay as used as they were. -/
theorem idle (h : s.Enumerates) (hid : t.engine.id = s.engine.id)
    (hlinks : t.carriage.links = s.carriage.links)
    (hentry : ∀ {id q}, t.engine.roster.get? id = some q →
      ∃ p, s.engine.roster.get? id = some p ∧ q.sent = p.sent ∧ q.mailbox = p.mailbox) :
    t.Enumerates where
  owner hl := hid ▸ h.owner (hlinks ▸ hl)
  numbered hl := h.numbered (hlinks ▸ hl)
  sent := by
    intro id q box hq hbox
    obtain ⟨p, hp, hsent, hsame⟩ := hentry hq
    rw [hlinks, hsent]
    exact h.sent hp (hsame ▸ hbox)
  apart := by
    intro id j q q' box hq hq' hbox hbox'
    obtain ⟨p, hp, -, hsame⟩ := hentry hq
    obtain ⟨p', hp', -, hsame'⟩ := hentry hq'
    exact h.apart hp hp' (hsame ▸ hbox) (hsame' ▸ hbox')

theorem of_same (h : s.Enumerates) (he : t.engine = s.engine)
    (hlinks : t.carriage.links = s.carriage.links) : t.Enumerates :=
  h.idle (he ▸ rfl) hlinks fun hq => ⟨_, he ▸ hq, rfl, rfl⟩

/-- One link changes, and all entries know how far their links have come by then. -/
theorem set (h : s.Enumerates) {i : Nat} {l l' : Link} (hl : s.carriage.links[i]? = some l)
    (hrouting : l'.routingId = l.routingId) (hnumbered : Numbered l'.accepted)
    (hid : t.engine.id = s.engine.id) (hlinks : t.carriage.links = s.carriage.links.set i l')
    (hentry : ∀ {id q}, t.engine.roster.get? id = some q →
      ∃ p, s.engine.roster.get? id = some p ∧ q.mailbox = p.mailbox ∧
        ∀ {box}, p.mailbox = some box → if box.number = i then
          l'.writer = .ended ∨ l'.accepted ≠ [] ∧ q.sent = .ofNat l'.accepted.length
          else q.sent = p.sent) : t.Enumerates := by
  have hi := (List.getElem?_eq_some_iff.mp hl).1
  have hnow : ∀ {j : Nat} {l₀ : Link}, t.carriage.links[j]? = some l₀ →
      l₀ = l' ∨ s.carriage.links[j]? = some l₀ := by
    intro j l₀ hj
    rw [hlinks] at hj
    by_cases hji : i = j
    · rw [hji, List.getElem?_set_self (hji ▸ hi)] at hj
      exact .inl (Option.some.inj hj).symm
    · rw [List.getElem?_set_ne hji] at hj
      exact .inr hj
  constructor
  case owner =>
    intro j l₀ hj
    rw [hid]
    rcases hnow hj with rfl | hj
    · exact hrouting.trans (h.owner hl)
    · exact h.owner hj
  case numbered =>
    intro j l₀ hj
    rcases hnow hj with rfl | hj
    · exact hnumbered
    · exact h.numbered hj
  case sent =>
    intro id q box hq hbox
    obtain ⟨p, hp, hsame, hcount⟩ := hentry hq
    have hbox' : p.mailbox = some box := hsame ▸ hbox
    have hcount := hcount hbox'
    rw [hlinks]
    by_cases hji : box.number = i
    · rw [if_pos hji] at hcount
      rw [hji]
      exact ⟨l', List.getElem?_set_self hi, hcount⟩
    · rw [if_neg hji] at hcount
      rw [List.getElem?_set_ne (Ne.symm hji), hcount]
      exact h.sent hp hbox'
  case apart =>
    intro id j q q' box hq hq' hbox hbox'
    obtain ⟨p, hp, hsame, -⟩ := hentry hq
    obtain ⟨p', hp', hsame', -⟩ := hentry hq'
    exact h.apart hp hp' (hsame ▸ hbox) (hsame' ▸ hbox')

/-- The writer of one mailbox does something. -/
theorem advance (h : s.Enumerates) {i : Nat} {l l' : Link} (hl : s.carriage.links[i]? = some l)
    (ha : l.Advances l') (he : t.engine = s.engine)
    (hlinks : t.carriage.links = s.carriage.links.set i l') : t.Enumerates := by
  refine h.set hl ha.routingId ((h.numbered hl).of_isPrefix ha.accepted) (he ▸ rfl) hlinks
    fun {id p} hp => ⟨p, he ▸ hp, rfl, fun {box} hbox => ?_⟩
  split
  · rename_i hi
    obtain ⟨l₀, hl₀, hsent⟩ := h.sent (he ▸ hp) hbox
    rw [hi] at hl₀
    obtain rfl := Option.some.inj (hl.symm.trans hl₀)
    rcases ha.running with hended | ⟨hrun, hsame⟩
    · exact .inl hended
    · rw [hsame]
      exact .inr (hsent.resolve_left hrun)
  · rfl

theorem post (h : s.Enumerates) {id : PeerId} {body : Body} (hb : body.command ≠ .hello)
    (hposted : s.Posted id body t) : t.Enumerates := by
  cases hposted with
  | unmoved _ he hc => exact h.of_same he (congrArg Exchange.links hc)
  | rejected _ _ hs _ he => exact h.of_same he (Exchange.links_of_rejected hs)
  | lost _ _ hs _ he =>
    refine h.idle ?_ (Exchange.links_of_rejected hs) fun {j q} hq => ?_
    · rw [he]
      exact (s.engine.drop_rest id).1
    · rw [he, Engine.get?_drop] at hq
      split at hq
      · cases hq
      · exact ⟨q, hq, rfl, rfl⟩
  | @taken p box frames hp hbox hf hs he =>
    obtain ⟨l, l', hl, hopen, hrouting, -, haccepted, hlinks⟩ := Exchange.links_of_taken hs
    obtain ⟨l₀, hl₀, hsent⟩ := h.sent hp hbox
    obtain rfl := Option.some.inj (hl.symm.trans hl₀)
    obtain ⟨hsome, hcount⟩ := hsent.resolve_left hopen
    have hnext : p.sent + 1 = .ofNat (l.accepted.length + 1) := by
      rw [hcount, UInt16.ofNat_add]
      rfl
    have hnumbered : Numbered l'.accepted := by
      rw [haccepted]
      refine (h.numbered hl).snoc (Wire.decode_of_encode hf) hnext ?_
      simp [Message.isHello, hb, hsome]
    refine h.set hl hrouting hnumbered (he ▸ rfl) hlinks fun {j q} hq => ?_
    rw [he, SortedMap.get?_insert] at hq
    split at hq
    · rename_i hj
      obtain rfl := Option.some.inj hq
      refine ⟨p, hj ▸ hp, rfl, fun {box'} hbox' => ?_⟩
      obtain rfl := Option.some.inj (hbox.symm.trans hbox')
      rw [if_pos rfl, haccepted]
      exact .inr ⟨by simp, by simpa using hnext⟩
    · rename_i hj
      refine ⟨q, hq, rfl, fun {box'} hbox' => ?_⟩
      rw [if_neg]
      intro hsame
      rw [Mailbox.eq_of_number hsame] at hbox'
      exact hj (h.apart hq hp hbox' hbox)

/-- A mailbox is opened that nothing was put into yet. -/
theorem opened (h : s.Enumerates) {l : Link} (hrouting : l.routingId = s.engine.id.routingId)
    (haccepted : l.accepted = []) (he : t.engine = s.engine)
    (hlinks : t.carriage.links = s.carriage.links ++ [l]) : t.Enumerates := by
  have hnow : ∀ {j : Nat} {l₀ : Link}, t.carriage.links[j]? = some l₀ →
      l₀ = l ∨ s.carriage.links[j]? = some l₀ := by
    intro j l₀ hj
    rw [hlinks, List.getElem?_append] at hj
    split at hj
    · exact .inr hj
    · exact .inl (List.mem_singleton.mp (List.mem_of_getElem? hj))
  constructor
  case owner =>
    intro j l₀ hj
    rw [he]
    rcases hnow hj with rfl | hj
    · exact hrouting
    · exact h.owner hj
  case numbered =>
    intro j l₀ hj
    rcases hnow hj with rfl | hj
    · exact haccepted ▸ .nil
    · exact h.numbered hj
  case sent =>
    intro id p box hp hbox
    obtain ⟨l₀, hl₀, hsent⟩ := h.sent (he ▸ hp) hbox
    refine ⟨l₀, ?_, hsent⟩
    rw [hlinks, List.getElem?_append_left (List.getElem?_eq_some_iff.mp hl₀).1, hl₀]
  case apart =>
    intro id j p q box hp hq
    rw [he] at hp hq
    exact h.apart hp hq

/-- A peer gets an entry, with a mailbox that no other peer has. -/
theorem insert (h : s.Enumerates) {id : PeerId} {p : Peer Mailbox} {box : Mailbox} {l : Link}
    (hroster : t.engine.roster = s.engine.roster.insert id p) (hid : t.engine.id = s.engine.id)
    (hlinks : t.carriage.links = s.carriage.links) (hbox : p.mailbox = some box)
    (hl : s.carriage.links[box.number]? = some l) (hsome : l.accepted ≠ [])
    (hsent : p.sent = .ofNat l.accepted.length)
    (hfree : ∀ {j q}, s.engine.roster.get? j = some q → q.mailbox ≠ some box) : t.Enumerates := by
  have hentry : ∀ {j q}, t.engine.roster.get? j = some q →
      j = id ∧ q = p ∨ s.engine.roster.get? j = some q := by
    intro j q hq
    rw [hroster, SortedMap.get?_insert] at hq
    split at hq
    · rename_i hj
      exact .inl ⟨hj, (Option.some.inj hq).symm⟩
    · exact .inr hq
  constructor
  case owner =>
    intro i l₀ hl₀
    rw [hid]
    exact h.owner (hlinks ▸ hl₀)
  case numbered => exact fun hl₀ => h.numbered (hlinks ▸ hl₀)
  case sent =>
    intro j q box' hq hbox'
    rw [hlinks]
    rcases hentry hq with ⟨-, rfl⟩ | hq
    · obtain rfl := Option.some.inj (hbox.symm.trans hbox')
      exact ⟨l, hl, .inr ⟨hsome, hsent⟩⟩
    · exact h.sent hq hbox'
  case apart =>
    intro j j' q q' box' hq hq' hbox' hbox''
    rcases hentry hq with ⟨rfl, rfl⟩ | hq
    · obtain rfl := Option.some.inj (hbox.symm.trans hbox')
      rcases hentry hq' with ⟨rfl, -⟩ | hq'
      · rfl
      · exact absurd hbox'' (hfree hq')
    · rcases hentry hq' with ⟨rfl, rfl⟩ | hq'
      · obtain rfl := Option.some.inj (hbox.symm.trans hbox'')
        exact absurd hbox' (hfree hq)
      · exact h.apart hq hq' hbox' hbox''

theorem meet (h : s.Enumerates) {id : PeerId} {endpoint : String} {now : Nat} {result : Bool}
    (hmeet : s.Meeting id endpoint now (result, t)) : t.Enumerates := by
  cases hmeet with
  | unreached hc he => exact h.of_same he (Exchange.links_of_unreached hc)
  | formless hc _ he =>
    obtain ⟨l, hrouting, haccepted, -, hlinks⟩ := Exchange.links_of_opened hc
    exact h.opened hrouting haccepted he hlinks
  | shut hc hs he =>
    obtain ⟨l, hrouting, haccepted, -, hlinks⟩ := Exchange.links_of_opened hc
    exact h.opened hrouting haccepted he ((Exchange.links_of_rejected hs).trans hlinks)
  | @met box c frames _ hc hf hs he =>
    obtain ⟨l, hrouting, haccepted, hbox, hopened⟩ := Exchange.links_of_opened hc
    obtain ⟨l₀, l', hl, -, hrouting', -, haccepted', hlinks⟩ := Exchange.links_of_taken hs
    let u : Station Exchange Mailbox := ⟨s.engine, c, s.journal⟩
    let v : Station Exchange Mailbox := ⟨s.engine, t.carriage, s.journal⟩
    have hu : u.Enumerates := h.opened hrouting haccepted rfl hopened
    have hfree : ∀ {j q}, s.engine.roster.get? j = some q → q.mailbox ≠ some box := by
      intro j q hq hsame
      obtain ⟨l₁, hl₁, -⟩ := h.sent hq hsame
      have hlt := (List.getElem?_eq_some_iff.mp hl₁).1
      rw [hbox] at hlt
      exact Nat.lt_irrefl _ hlt
    obtain rfl : l = l₀ := by
      rw [hopened, hbox, List.getElem?_concat_length] at hl
      exact Option.some.inj hl
    rw [haccepted] at haccepted'
    have hnumbered : Numbered l'.accepted := by
      rw [haccepted']
      exact Numbered.nil.snoc (Wire.decode_of_encode hf) rfl (iff_of_true rfl rfl)
    have hv : v.Enumerates := by
      refine hu.set hl hrouting' hnumbered rfl hlinks fun {j q} hq => ⟨q, hq, rfl, fun {box'} hbox' => ?_⟩
      rw [if_neg]
      intro hsame
      exact hfree hq (Mailbox.eq_of_number hsame ▸ hbox')
    have hnow : v.carriage.links[box.number]? = some l' := by
      change t.carriage.links[box.number]? = _
      rw [hlinks, List.getElem?_set_self (List.getElem?_eq_some_iff.mp hl).1]
    have hroster : t.engine.roster = v.engine.roster.insert id
        (.met id box endpoint now s.engine.timing) := congrArg Engine.roster he
    have hid : t.engine.id = s.engine.id := he ▸ rfl
    refine hv.insert hroster hid rfl rfl hnow ?_ ?_ hfree
    · simp [haccepted']
    · rw [haccepted']
      rfl

/-- Whatever a node does, its streams stay numbered. -/
theorem mailed (h : s.Enumerates) (hm : s.Mailed t) : t.Enumerates := by
  induction hm with
  | refl => exact h
  | tail _ hstep ih =>
    cases hstep with
    | idle hid hc hentry => exact ih.idle hid (congrArg Exchange.links hc) hentry
    | post hb hposted => exact ih.post hb hposted
    | meet hmeet => exact ih.meet hmeet

theorem new (e : Engine Mailbox) (capacity : Nat) (he : e.roster = .empty) :
    (Station.new e (Exchange.new capacity)).Enumerates where
  owner hl := by cases hl
  numbered hl := by cases hl
  sent := by
    intro id p box hp
    change e.roster.get? id = _ at hp
    rw [he] at hp
    cases hp
  apart := by
    intro id j p q box hp
    change e.roster.get? id = _ at hp
    rw [he] at hp
    cases hp

end Enumerates

/-! ### Nothing is taken back -/

theorem Posted.grows {id : PeerId} {body : Body} (h : s.Posted id body t) :
    s.carriage.Grows t.carriage := by
  cases h with
  | unmoved _ _ hc => exact .of_same (congrArg Exchange.links hc)
  | rejected _ _ hs | lost _ _ hs => exact .of_same (Exchange.links_of_rejected hs)
  | taken _ _ _ hs =>
    obtain ⟨l, l', hl, -, -, hwritten, -, hlinks⟩ := Exchange.links_of_taken hs
    exact .of_set hl (hwritten ▸ List.prefix_rfl) hlinks

theorem Meeting.grows {id : PeerId} {endpoint : String} {now : Nat} {result : Bool}
    (h : s.Meeting id endpoint now (result, t)) : s.carriage.Grows t.carriage := by
  cases h with
  | unreached hc => exact .of_same (Exchange.links_of_unreached hc)
  | formless hc =>
    obtain ⟨l, -, -, -, hlinks⟩ := Exchange.links_of_opened hc
    exact .of_append hlinks
  | shut hc hs =>
    obtain ⟨l, -, -, -, hlinks⟩ := Exchange.links_of_opened hc
    exact .of_append ((Exchange.links_of_rejected hs).trans hlinks)
  | met hc _ hs =>
    obtain ⟨l, -, -, -, hopened⟩ := Exchange.links_of_opened hc
    obtain ⟨l₀, l', hl, -, -, hwritten, -, hlinks⟩ := Exchange.links_of_taken hs
    exact (Exchange.Grows.of_append hopened).trans (.of_set hl (hwritten ▸ List.prefix_rfl) hlinks)

theorem Mailed.grows (h : s.Mailed t) : s.carriage.Grows t.carriage := by
  induction h with
  | refl => exact .of_same rfl
  | tail _ hstep ih =>
    cases hstep with
    | idle _ hc => exact ih.trans (.of_same (congrArg Exchange.links hc))
    | post _ hposted => exact ih.trans hposted.grows
    | meet hmeet => exact ih.trans hmeet.grows

end Station
end PeerMesh
