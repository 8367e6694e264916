import PeerMesh.Proofs.World.Listening
import PeerMesh.Proofs.World.Sessions

/-!
# Orderly worlds

The invariant of a gathering: every engine is settled, every message is genuine, no alarm was
raised, and every talk between two nodes is coherent and recounts what was said. A move lets one
node act. The talks from it take the steps of a speaker, the talks to it those of a listener, and
all others stay as they are.
-/

namespace PeerMesh
set_option autoImplicit false

namespace Op

theorem ne_receive_of_isLocal {op : Op} (h : op.isLocal = true) (routingId : List UInt8)
    (frames : Content) (now : Nat) : op ≠ .receive routingId frames now := by
  rintro rfl
  cases h

theorem not_names_of_isLocal {op : Op} (h : op.isLocal = true) {id : PeerId} {endpoint : String} :
    ¬ op.Names id endpoint := by
  intro hnames
  cases op with
  | discover sighting =>
    cases sighting with
    | found => cases h
    | lost => cases hnames
  | receive => cases h
  | _ => cases hnames

end Op

structure Talk.Holds (who : Party) (l : Talk) : Prop where
  coherent : l.Coherent who
  recounts : l.Recounts who

theorem Talk.Holds.steps {who : Party} {l l' : Talk} (h : l.Holds who) (hs : l.Steps who l') :
    l'.Holds who :=
  ⟨hs.coherent h.coherent, h.recounts.steps hs⟩

/-- The invariant of a gathering. The applications took the events in `past`. -/
structure Orderly (g : Gathering) (past : Nat → List Event)
    (w : World Recorded Network.Mailbox) : Prop where
  length : w.engines.length = g.parties.length
  settled : ∀ {n : Nat} {who : Party} {e : Engine Network.Mailbox}, g.parties[n]? = some who →
    w.engines[n]? = some e → e.Settled g.near who
  genuine : w.carriage.Genuine g
  quiet : w.journal.toList.filter Note.isAlarm = []
  talks : ∀ {i j : Nat} {a b : Party} {e f : Engine Network.Mailbox}, g.parties[i]? = some a →
    g.parties[j]? = some b → a.id ≠ b.id → w.engines[i]? = some e → w.engines[j]? = some f →
    (w.carriage.talk a b (e.voice b.id) (f.heard a.id)
      (Event.concerning a.id (past j ++ f.events))).Holds a

namespace Orderly
variable {g : Gathering} {past past' : Nat → List Event} {w : World Recorded Network.Mailbox}
  {n : Nat} {me : Party} {e : Engine Network.Mailbox}

theorem party (h : Orderly g past w) (he : w.engines[n]? = some e) :
    ∃ me, g.parties[n]? = some me := by
  obtain ⟨hn, -⟩ := List.getElem?_eq_some_iff.mp he
  rw [h.length] at hn
  exact ⟨_, List.getElem?_eq_getElem hn⟩

theorem engine (h : Orderly g past w) (hme : g.parties[n]? = some me) :
    ∃ e, w.engines[n]? = some e := by
  obtain ⟨hn, -⟩ := List.getElem?_eq_some_iff.mp hme
  rw [← h.length] at hn
  exact ⟨_, List.getElem?_eq_getElem hn⟩

theorem eq_of_index {i j : Nat} {a b : Party} (ha : g.parties[i]? = some a)
    (hb : g.parties[j]? = some b) (hid : a.id = b.id) : i = j := by
  have hmap : ∀ {k : Nat} {who : Party}, g.parties[k]? = some who →
      (g.parties.map Party.id)[k]? = some who.id := by
    intro k who hwho
    rw [List.getElem?_map, hwho]
    rfl
  have hi : i < (g.parties.map Party.id).length := (List.getElem?_eq_some_iff.mp (hmap ha)).1
  exact (List.getElem?_inj hi g.ids_apart).mp (by rw [hmap ha, hmap hb, hid])

/-- After a step an engine is the one that took the step, or an old one. -/
theorem of_set {engines : List (Engine Network.Mailbox)} (hn : n < engines.length)
    (hme : g.parties[n]? = some me) {i : Nat} {a : Party} {f : Engine Network.Mailbox}
    (ha : g.parties[i]? = some a) (hf : (engines.set n e)[i]? = some f) :
    (i = n ∧ a = me ∧ f = e) ∨ (i ≠ n ∧ a.id ≠ me.id ∧ engines[i]? = some f) := by
  by_cases hi : i = n
  · left
    subst hi
    rw [List.getElem?_set_self hn] at hf
    exact ⟨rfl, Option.some.inj (ha.symm.trans hme), (Option.some.inj hf).symm⟩
  · right
    rw [List.getElem?_set_ne (Ne.symm hi)] at hf
    exact ⟨hi, fun hid => hi (eq_of_index ha hme hid), hf⟩

theorem update (h : Orderly g past w) (hme : g.parties[n]? = some me)
    (he : w.engines[n]? = some e) {e' : Engine Network.Mailbox} {c' : Recorded} {journal : Array Note}
    (hsettled : e'.Settled g.near me) (hgenuine : c'.Genuine g)
    (hquiet : journal.toList.filter Note.isAlarm = [])
    (hpast : ∀ {k}, k ≠ n → past' k = past k)
    (hspeak : ∀ {whom}, whom ∈ g.parties → whom.id ≠ me.id → ∀ heard told,
      (w.carriage.talk me whom (e.voice whom.id) heard told).Steps me
        (c'.talk me whom (e'.voice whom.id) heard told))
    (hlisten : ∀ {who}, who ∈ g.parties → who.id ≠ me.id → ∀ voice,
      (w.carriage.talk who me voice (e.heard who.id)
          (Event.concerning who.id (past n ++ e.events))).Holds who →
        (c'.talk who me voice (e'.heard who.id)
          (Event.concerning who.id (past' n ++ e'.events))).Holds who)
    (hframe : ∀ {who whom}, who.id ≠ me.id → whom ∈ g.parties → whom.id ≠ me.id →
      ∀ voice heard told,
      c'.talk who whom voice heard told = w.carriage.talk who whom voice heard told) :
    Orderly g past' ⟨w.engines.set n e', c', journal⟩ := by
  have hn : n < w.engines.length := (List.getElem?_eq_some_iff.mp he).1
  have hnow : ∀ {i a f}, g.parties[i]? = some a → (w.engines.set n e')[i]? = some f →
      (i = n ∧ a = me ∧ f = e') ∨ (i ≠ n ∧ a.id ≠ me.id ∧ w.engines[i]? = some f) :=
    fun ha hf => of_set hn hme ha hf
  constructor
  case length => rw [List.length_set, h.length]
  case settled =>
    intro i who f hwho hf
    rcases hnow hwho hf with ⟨-, rfl, rfl⟩ | ⟨-, -, hf⟩
    · exact hsettled
    · exact h.settled hwho hf
  case genuine => exact hgenuine
  case quiet => exact hquiet
  case talks =>
    intro i j a b ea eb ha hb hab hea heb
    have hamem := List.mem_of_getElem? ha
    have hbmem := List.mem_of_getElem? hb
    rcases hnow ha hea with ⟨rfl, rfl, rfl⟩ | ⟨-, haid, hspeaker⟩
    · rcases hnow hb heb with ⟨-, rfl, -⟩ | ⟨hj, hbid, hlistener⟩
      · exact absurd rfl hab
      · rw [hpast hj]
        exact (h.talks ha hb hab he hlistener).steps (hspeak hbmem hbid _ _)
    · rcases hnow hb heb with ⟨rfl, rfl, rfl⟩ | ⟨hj, hbid, hlistener⟩
      · exact hlisten hamem haid _ (h.talks ha hb hab hspeaker he)
      · rw [hpast hj, hframe haid hbmem hbid]
        exact h.talks ha hb hab hspeaker hlistener

/-! ### Moves -/

theorem apart {whom : Party} (h : whom ∈ g.parties) : whom.Apart g.near :=
  fun {_ _} hnear => Gathering.near_iff h hnear

theorem perform (h : Orderly g past w) (walk : Walk) (n : Nat) {op : Op}
    (hr : ∀ routingId frames now, op ≠ .receive routingId frames now)
    (hnear : ∀ {id endpoint}, op.Names id endpoint → g.near id endpoint)
    (hpast : ∀ k, past' k = past k ++ if k = n ∧ op = .drain then (w.drain n).1 else []) :
    Orderly g past' (w.perform walk n op).2 := by
  cases he : w.engines[n]? with
  | none =>
    have hsame : past' = past := by
      funext k
      rw [hpast, World.drain, World.visit, he]
      split <;> exact List.append_nil _
    rw [hsame, World.perform, World.visit, he]
    exact h
  | some e =>
    obtain ⟨me, hme⟩ := h.party he
    have hs := h.settled hme he
    have hmem := List.mem_of_getElem? hme
    let s : Station Recorded Network.Mailbox := ⟨e, w.carriage, w.journal⟩
    have hperformed : s.Performed g.near op (s.step walk op) :=
      Station.performed_step hs.sound walk op hnear
    have hspeaks := hperformed.speaks hs
    rw [World.perform_of_some he]
    refine h.update hme he hspeaks.settled (h.genuine.spread hmem hspeaks.spreads)
      ((hperformed.alarms hr).trans h.quiet) ?_ ?_ ?_ ?_
    · intro k hk
      rw [hpast, if_neg (fun hand => hk hand.1), List.append_nil]
    · intro whom hwhom _ heard told
      exact hspeaks.steps (apart hwhom) heard told
    · intro who hwho hid voice hold
      rw [hspeaks.spreads.talk_other hid]
      rw [hpast, World.drain_of_some he]
      by_cases hop : op = .drain
      · subst hop
        rw [if_pos ⟨rfl, rfl⟩]
        have hdrained : (s.step walk .drain).engine = { e with events := [] } := rfl
        rw [hdrained, List.append_nil]
        exact hold
      · rw [if_neg (fun hand => hop hand.2), List.append_nil]
        obtain ⟨new, hnew, hmurmur, hheard⟩ := hperformed.murmurs hs.sound hr hop who.id
        rw [hnew, ← List.append_assoc, Event.concerning_append]
        exact hold.steps (.single (.idle hheard hmurmur))
    · intro who whom hid _ _ voice heard told
      exact hspeaks.spreads.talk_other hid whom voice heard told

theorem near_found (h : Orderly g past w) (he : w.engines[n]? = some e) {now : Nat} {id : PeerId}
    {endpoint : String} (hnames : (Op.discover (.found e.id e.endpoint) now).Names id endpoint) :
    g.near id endpoint := by
  obtain ⟨rfl, rfl⟩ := hnames
  obtain ⟨who, hwho⟩ := h.party he
  have hs := h.settled hwho he
  rw [hs.id, hs.endpoint]
  exact Gathering.near_of_mem (List.mem_of_getElem? hwho)

theorem endpoint_ne {whom : Party} (hme : me ∈ g.parties) (hwhom : whom ∈ g.parties)
    (hne : whom.id ≠ me.id) : whom.endpoint ≠ me.endpoint := by
  intro hep
  exact hne ((apart hme (Gathering.near_of_mem hwhom)).mpr hep)

/-- The oldest message at an endpoint fits what its receiver knows of the sender. -/
theorem fits (h : Orderly g past w) (hme : g.parties[n]? = some me) (he : w.engines[n]? = some e)
    {who : Party} (hwho : who ∈ g.parties) (hid : who.id ≠ me.id) {d : Delivery} {c : Recorded}
    (hpop : w.carriage.Popped me.endpoint d c) (hd : d.routingId = who.id.routingId) {m : Message}
    (hm : Wire.decode d.content = .ok m) : Fits (e.heard who.id) m := by
  obtain ⟨i, hi⟩ := List.mem_iff_getElem?.mp hwho
  obtain ⟨f, hf⟩ := h.engine hi
  have htalk := h.talks hi hme hid hf he
  rw [hpop.talk_self rfl hd hm] at htalk
  exact htalk.coherent.fits.1

/-- A message of `who` is taken from the inbox of `me`. -/
structure Arrival (g : Gathering) (me : Party) (e : Engine Network.Mailbox) (c : Recorded)
    (d : Delivery) (c' : Recorded) (who : Party) (m : Message) : Prop where
  popped : c.Popped me.endpoint d c'
  sender : who ∈ g.parties
  other : who.id ≠ me.id
  routingId : d.routingId = who.id.routingId
  decoded : Wire.decode d.content = .ok m
  truthful : ∀ h, m.body = .hello h → h.endpoint = who.endpoint
  fits : Fits (e.heard who.id) m

/-- Whatever waits for a node was said by another one, and fits. -/
theorem arrival (h : Orderly g past w) (hme : g.parties[n]? = some me) (he : w.engines[n]? = some e)
    {d : Delivery} {c : Recorded} (hrec : Inboxes.receive w.carriage e.endpoint = (some d, c)) :
    ∃ who m, Arrival g me e w.carriage d c who m := by
  have hpop := Recorded.popped_of_receive hrec
  rw [(h.settled hme he).endpoint] at hpop
  have hwaits : d ∈ w.carriage.inner.waiting me.endpoint := by
    rw [hpop.waiting, if_pos rfl]
    exact List.mem_append_left _ (List.mem_singleton_self d)
  obtain ⟨who, hwho, hid, hwrote⟩ := h.genuine.waiting (List.mem_of_getElem? hme) d hwaits
  obtain ⟨m, hf, hhello⟩ := hwrote.message
  have hm := Wire.decode_of_encode hf
  exact ⟨who, m, hpop, hwho, hid, hwrote.routingId, hm, fun hello hb => (hhello hello hb).2,
    h.fits hme he hwho hid hpop hwrote.routingId hm⟩

/-- A HELLO names the identity and the endpoint of the node that said it. -/
theorem Arrival.near {c c' : Recorded} {d : Delivery} {who : Party} {m : Message}
    (ha : Arrival g me e c d c' who m) (now : Nat) {id : PeerId} {endpoint : String}
    (hnames : (Op.receive d.routingId d.content now).Names id endpoint) : g.near id endpoint := by
  obtain ⟨hsender, m', h, hm', hb, rfl⟩ := hnames
  rw [ha.routingId, PeerId.ofRoutingId?_routingId] at hsender
  obtain rfl := Option.some.inj hsender
  obtain rfl := Except.ok.inj (ha.decoded.symm.trans hm')
  rw [ha.truthful h hb]
  exact Gathering.near_of_mem ha.sender

theorem update_receive (h : Orderly g past w) (hme : g.parties[n]? = some me)
    (he : w.engines[n]? = some e) {d : Delivery} {c : Recorded} {who : Party} {m : Message}
    (ha : Arrival g me e w.carriage d c who m) (walk : Walk) (now : Nat) :
    let t := (⟨e, c, w.journal⟩ : Station Recorded Network.Mailbox).step walk
      (.receive d.routingId d.content now)
    Orderly g past ⟨w.engines.set n t.engine, t.carriage, t.journal⟩ := by
  have hs := h.settled hme he
  have hmem := List.mem_of_getElem? hme
  let s : Station Recorded Network.Mailbox := ⟨e, c, w.journal⟩
  let op : Op := .receive d.routingId d.content now
  have hspeaks : s.Speaks g.near me (s.step walk op) :=
    (Station.performed_step hs.sound walk op (ha.near now)).speaks hs
  have htakes : Station.Takes who m s (s.step walk op) := Station.takes_receive hs (apart ha.sender)
    (Gathering.near_of_mem ha.sender) ha.routingId ha.decoded ha.truthful walk now
  refine h.update hme he hspeaks.settled ((h.genuine.pop ha.popped).spread hmem hspeaks.spreads)
    ((htakes.alarms ha.fits).trans h.quiet) (fun _ => rfl) ?_ ?_ ?_
  · intro whom hwhom hne heard told
    rw [← ha.popped.talk_other fun hep => absurd hep (endpoint_ne hmem hwhom hne)]
    exact hspeaks.steps (apart hwhom) heard told
  · intro a hmem' hne voice hold
    rw [hspeaks.spreads.talk_other hne]
    by_cases haid : a.id = who.id
    · obtain rfl := Gathering.eq_of_id hmem' ha.sender haid
      obtain ⟨new, hnew, htaken⟩ := htakes.sender
      rw [ha.popped.talk_self rfl ha.routingId ha.decoded] at hold
      rw [hnew, ← List.append_assoc, Event.concerning_append]
      exact hold.steps (.single (.take rfl htaken))
    · obtain ⟨new, hnew, hmurmur, hheard⟩ := htakes.others haid
      rw [hnew, ← List.append_assoc, Event.concerning_append, ha.popped.talk_other]
      · exact hold.steps (.single (.idle hheard hmurmur))
      · intro _ hrouting
        rw [ha.routingId] at hrouting
        exact haid (PeerId.routingId_inj hrouting).symm
  · intro a whom hne hwhom hwne voice heard told
    rw [hspeaks.spreads.talk_other hne]
    exact ha.popped.talk_other (fun hep => absurd hep (endpoint_ne hmem hwhom hwne)) voice heard told

theorem deliver (h : Orderly g past w) (walk : Walk) (n now : Nat) :
    Orderly g past (w.deliver walk n now).2 := by
  cases he : w.engines[n]? with
  | none =>
    rw [World.deliver, he]
    exact h
  | some e =>
    obtain ⟨me, hme⟩ := h.party he
    rcases hrec : Inboxes.receive w.carriage e.endpoint with ⟨_ | d, c⟩
    · rw [World.deliver, he]
      dsimp only
      rw [hrec, Recorded.eq_of_receive_none hrec]
      exact h
    · obtain ⟨who, m, ha⟩ := h.arrival hme he hrec
      rw [World.deliver_of_some he hrec]
      exact h.update_receive hme he ha walk now

theorem move (h : Orderly g past w) (m : Move) :
    Orderly g (fun k => past k ++ w.handed k m) (w.move m) := by
  cases m with
  | act n walk op hop =>
    refine h.perform walk n (Op.ne_receive_of_isLocal hop)
      (fun hnames => absurd hnames (Op.not_names_of_isLocal hop)) ?_
    intro k
    by_cases hk : k = n
    · subst hk
      cases op <;> simp [World.handed]
    · cases op <;> simp [World.handed, hk, Ne.symm hk]
  | find n k walk now =>
    have hhanded : (fun j => past j ++ w.handed j (.find n k walk now)) = past := by
      funext j
      exact List.append_nil _
    rw [hhanded, World.move]
    cases he : w.engines[k]? with
    | none => exact h
    | some e =>
      refine h.perform walk n (fun _ _ _ heq => by cases heq) (h.near_found he) ?_
      intro j
      simp
  | deliver n walk now =>
    have hhanded : (fun j => past j ++ w.handed j (.deliver n walk now)) = past := by
      funext j
      exact List.append_nil _
    rw [hhanded]
    exact h.deliver walk n now

/-! ### Runs -/

theorem start (g : Gathering) : Orderly g (fun _ => []) (g.world ⟨g.network, []⟩) where
  length := List.length_map _
  settled := by
    intro n who e hwho he
    have hmap : (g.parties.map Party.engine)[n]? = some e := he
    rw [List.getElem?_map, hwho] at hmap
    cases hmap
    exact ⟨rfl, rfl, rfl, Engine.sound_new _ _ _ _, fun hp => by cases hp⟩
  genuine := by
    constructor
    · intro whom hwhom d hd
      change d ∈ g.network.waiting whom.endpoint at hd
      rw [g.quiet whom hwhom] at hd
      cases hd
    · intro e he
      cases he
  quiet := rfl
  talks := by
    intro i j a b e f ha hb _ he hf
    have hspeaker : (g.parties.map Party.engine)[i]? = some e := he
    have hlistener : (g.parties.map Party.engine)[j]? = some f := hf
    rw [List.getElem?_map, ha] at hspeaker
    rw [List.getElem?_map, hb] at hlistener
    cases hspeaker
    cases hlistener
    have hwaiting : g.network.waiting b.endpoint = [] := g.quiet b (List.mem_of_getElem? hb)
    constructor
    · constructor
      · change AllFit none ((g.network.waiting b.endpoint).filterMap _)
        rw [hwaiting]
        trivial
      · intro x k _ hk
        cases hk
    · constructor
      · refine ⟨[], ?_, fun _ => .nil a, fun hne => absurd rfl hne⟩
        change [] = [] ++ (g.network.waiting b.endpoint).filterMap _
        rw [hwaiting]
        rfl
      · intro m rest hm
        cases hm
      · intro k hk
        cases hk

/-- Moves keep a world orderly, and account for all events that are reported. -/
theorem run (h : Orderly g past w) (moves : List Move) :
    ∃ past', Orderly g past' (w.run moves) ∧
      ∀ n, past n ++ w.reported n moves = past' n ++ ((w.run moves).drain n).1 := by
  induction moves generalizing past w with
  | nil => exact ⟨past, h, fun _ => rfl⟩
  | cons m moves ih =>
    obtain ⟨past', horderly, hreported⟩ := ih (h.move m)
    refine ⟨past', horderly, fun n => ?_⟩
    rw [World.reported, ← List.append_assoc]
    exact hreported n

theorem recorded (g : Gathering) (moves : List Move) :
    ∃ past, Orderly g past (g.recorded moves) ∧
      ∀ n, (g.world ⟨g.network, []⟩ : World Recorded Network.Mailbox).reported n moves =
        past n ++ ((g.recorded moves).drain n).1 :=
  (start g).run moves

end Orderly
end PeerMesh
