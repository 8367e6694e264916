import PeerMesh.Proofs.Network.Queues
import PeerMesh.Proofs.Station.Containment
import PeerMesh.Proofs.Station.Walks

/-!
# What becomes of one peer

Whatever an engine does on its own account, a peer is lost by it or upheld. One that is lost is out of
the table and out of every group, and its leaving is reported if its entering was. One that is upheld
has an entry still and is in the same groups. Either may come after something else was reported of the
peer, and either is told by what concerns the peer alone.

On a network it can be told beforehand which of the two it is. Mailboxes of different peers lead to
different endpoints, so in a row of messages to different peers each meets the fate that it would meet
alone.
-/

namespace PeerMesh
set_option autoImplicit false

namespace Engine
variable {μ : Type} {e e' e'' : Engine μ} {id : PeerId} {p q r : Peer μ} {new new' : List Event}

/-- The peer has the entry `q` and the groups that it had, and `new` was reported of it. -/
structure Upholds (e : Engine μ) (id : PeerId) (q : Peer μ) (new : List Event) (e' : Engine μ) :
    Prop where
  entry : e'.roster.get? id = some q
  member : ∀ group, e'.isMember id group = e.isMember id group
  told : Event.concerning id e'.events = Event.concerning id e.events ++ new

theorem upholds_insert (e : Engine μ) (id : PeerId) (q : Peer μ) :
    e.Upholds id q [] { e with roster := e.roster.insert id q } where
  entry := by rw [SortedMap.get?_insert, if_pos rfl]
  member _ := rfl
  told := (List.append_nil _).symm

/-- What is reported of the peer changes nothing else. -/
theorem Upholds.report (h : e.Upholds id q new e') (hnew : ∀ ev ∈ new', ev.peer? = some id) :
    e.Upholds id q (new ++ new') { e' with events := e'.events ++ new' } where
  entry := h.entry
  member := h.member
  told := by
    rw [Event.concerning_append, Event.concerning_self hnew, h.told, List.append_assoc]

theorem Alike.upholds (h : e.Alike id e') (hp : e.roster.get? id = some p) :
    e.Upholds id p [] e' where
  entry := h.entry.trans hp
  member := h.member
  told := h.told.trans (List.append_nil _).symm

theorem Upholds.trans (h : e.Upholds id q new e') (h' : e'.Upholds id r new' e'') :
    e.Upholds id r (new ++ new') e'' where
  entry := h'.entry
  member group := (h'.member group).trans (h.member group)
  told := by rw [h'.told, h.told, List.append_assoc]

theorem Upholds.alike (h : e.Upholds id q new e') (h' : e'.Alike id e'') :
    e.Upholds id q new e'' where
  entry := h'.entry.trans h.entry
  member group := (h'.member group).trans (h.member group)
  told := h'.told.trans h.told

theorem Departs.alike (h : e.Departs id e') (h' : e'.Alike id e'') : e.Departs id e'' where
  gone := h'.entry.trans h.gone
  unpaired group := (h'.member group).trans (h.unpaired group)
  told := h'.told.trans h.told

theorem parting_of_some (hp : e.roster.get? id = some p) :
    e.parting id = if p.ready then Event.farewell id p.name (e.groupsOf id) else [] := by
  rw [parting, readyPeer?, hp, Option.filter_some]
  cases p.ready <;> rfl

/-- A peer that is lost after all was upheld before, under the name that it had. -/
theorem Upholds.departs (h : e.Upholds id q new e') (hp : e.roster.get? id = some p)
    (hready : q.ready = p.ready) (hname : q.declaredName = p.declaredName)
    (hnew : ∀ ev ∈ new, ev.peer? = some id) (h' : e'.Departs id e'') :
    Departs { e with events := e.events ++ new } id e'' where
  gone := h'.gone
  unpaired := h'.unpaired
  told := by
    have hparting : e'.parting id = e.parting id := by
      rw [parting_of_some h.entry, parting_of_some hp, hready, Peer.name, Peer.name, hname,
        groupsOf_congr h.member]
    rw [h'.told, h.told, Event.concerning_append, Event.concerning_self hnew, hparting]
    rfl

end Engine

namespace Station
variable {κ μ : Type} [Carriage κ μ] {s t : Station κ μ} {id : PeerId} {body : Body} {p : Peer μ}

/-- What becomes of a peer that a message is posted to, by what its mailbox answers. -/
theorem Posted.fate {box : μ} {frames : Content} (h : s.Posted id body t) (hs : s.engine.Sound)
    (hp : s.engine.roster.get? id = some p) (hbox : p.mailbox = some box)
    (hf : Wire.encode ⟨p.sent + 1, body⟩ = .ok frames) :
    ∃ result, Carriage.send s.carriage box frames = (result, t.carriage) ∧
      (result = .ok () → s.engine.Upholds id { p with sent := p.sent + 1 } [] t.engine) ∧
      (result.isFatal = true → s.engine.Departs id t.engine) := by
  obtain ⟨result, hsend, htaken, hlost⟩ := h.sends hp hbox hf
  exact ⟨result, hsend, fun hok => htaken hok ▸ s.engine.upholds_insert id _,
    fun hfatal => Engine.departs_of_alike hs (hlost hfatal ▸ .refl id _)⟩

end Station

/-! ### On a network -/

theorem Network.Alike.untouched {owner : String → PeerId} {a : PeerId} {net net' : Network}
    {endpoint : String} (h : net.Alike owner a net') (ha : owner endpoint = a) :
    Untouched endpoint net net' :=
  ⟨h.inbox ha, congrArg (SortedMap.get? · endpoint) h.capacities⟩

namespace Station
variable {owner : String → PeerId} {s t u : Station Network Network.Mailbox} {id a : PeerId}
  {p : Peer Network.Mailbox} {body : Body} {ids : List PeerId} {endpoint : String}
  {f : Station Network Network.Mailbox → PeerId → Station Network Network.Mailbox}

/-- What becomes of a peer with the entry `p` that is sent a message. Either one message with its next
number has come to its endpoint, after all that waited there, or its mailbox failed. -/
inductive Addressed (s : Station Network Network.Mailbox) (id : PeerId) (p : Peer Network.Mailbox)
    (body : Body) (t : Station Network Network.Mailbox) : Prop
  | reached {box frames} (hbox : p.mailbox = some box) (hend : box.endpoint = p.endpoint)
    (hf : Wire.encode ⟨p.sent + 1, body⟩ = .ok frames)
    (hsend : (s.carriage.send box frames).1 = .ok ())
    (hinbox : t.carriage.inboxes.get? p.endpoint =
      some (s.carriage.waiting p.endpoint ++ [⟨box.routingId, frames⟩]))
    (h : s.engine.Upholds id { p with sent := p.sent + 1 } [] t.engine)
  | lost {box frames} (hbox : p.mailbox = some box) (hend : box.endpoint = p.endpoint)
    (hf : Wire.encode ⟨p.sent + 1, body⟩ = .ok frames)
    (hsend : (s.carriage.send box frames).1.isFatal = true)
    (hinbox : t.carriage.inboxes.get? p.endpoint = s.carriage.inboxes.get? p.endpoint)
    (h : s.engine.Departs id t.engine)

theorem Posted.addressed (h : s.Posted id body t) (hs : s.engine.Sound) (hplaced : s.Placed owner)
    (hp : s.engine.roster.get? id = some p)
    (hform : ∀ n, ∃ frames, Wire.encode ⟨n, body⟩ = .ok frames) : s.Addressed id p body t := by
  obtain ⟨box, hbox, hlast⟩ := (hplaced hp).mailbox
  have hend : box.endpoint = p.endpoint := hlast.trans (hplaced hp).endpoint.symm
  obtain ⟨frames, hf⟩ := hform (p.sent + 1)
  obtain ⟨result, hsend, hupholds, hdeparts⟩ := h.fate hs hp hbox hf
  obtain ⟨hresult, hnet⟩ : (s.carriage.send box frames).1 = result ∧
      (s.carriage.send box frames).2 = t.carriage := Prod.mk.inj hsend
  rcases s.carriage.send_taken_or_failed box frames with ⟨hok, hinbox⟩ | ⟨hfatal, hsame⟩
  · rw [hnet, hend] at hinbox
    exact .reached hbox hend hf hok hinbox (hupholds (hresult.symm.trans hok))
  · refine .lost hbox hend hf hfatal ?_ (hdeparts (hresult ▸ hfatal))
    rw [← hnet, hsame]

theorem Addressed.alike (h : s.Addressed id p body t) (ha : t.Alike owner id u)
    (hown : owner p.endpoint = id) : s.Addressed id p body u := by
  have hinbox' := ha.carriage.inbox hown
  cases h with
  | reached hbox hend hf hsend hinbox h =>
    exact .reached hbox hend hf hsend (hinbox'.trans hinbox) (h.alike ha.engine)
  | lost hbox hend hf hsend hinbox h =>
    exact .lost hbox hend hf hsend (hinbox'.trans hinbox) (h.alike ha.engine)

/-! ### One of many -/

/-- Of what is done about one peer after the other, only the part about the peer itself counts. -/
theorem alike_foldl_of_mem (hf : ∀ id, About owner id (f · id)) (hs : s.Placed owner)
    (hn : ids.Nodup) (ha : a ∈ ids) : (f s a).Alike owner a (ids.foldl f s) := by
  have halike := alike_foldl_filter (l := ids) (a := a) (fun id _ => hf id) hs hs (.refl owner a s)
  rw [List.filter_eq, List.count_eq_one_of_mem hn ha] at halike
  exact halike.symm

theorem alike_foldl_of_not_mem (hf : ∀ id, About owner id (f · id)) (hs : s.Placed owner)
    (ha : a ∉ ids) : s.Alike owner a (ids.foldl f s) := by
  have halike := alike_foldl_filter (l := ids) (a := a) (fun id _ => hf id) hs hs (.refl owner a s)
  rw [List.filter_eq, List.count_eq_zero_of_not_mem ha] at halike
  exact halike.symm

theorem Placed.owner_endpoint (hs : s.Placed owner) (hp : s.engine.roster.get? id = some p) :
    owner p.endpoint = id :=
  (hs hp).endpoint ▸ (hs hp).owned

/-- An endpoint that nobody is at may be taken for anybody's, so it is touched only if the node does
something about whoever that is. -/
theorem untouched_of_free (hs : s.Placed owner)
    (hfree : ∀ {id p}, s.engine.roster.get? id = some p → p.endpoint ≠ endpoint) (a : PeerId)
    (h : ∀ {owner}, s.Placed owner → s.Alike owner a t) :
    Network.Untouched endpoint s.carriage t.carriage := by
  have hplaced : s.Placed (Function.update owner endpoint a) := by
    intro id p hp
    refine ⟨(hs hp).filed, ?_, (hs hp).mailbox⟩
    rw [Function.update_of_ne ((hs hp).endpoint ▸ hfree hp), (hs hp).owned]
  exact (h hplaced).carriage.untouched (Function.update_self ..)

end Station
end PeerMesh
