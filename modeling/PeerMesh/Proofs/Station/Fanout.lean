import PeerMesh.Proofs.Station.Fates
import PeerMesh.Proofs.Station.Utterance

/-!
# Sending to many

Whoever is among those that a message goes to finds it at its inbox once, with its own next number,
or has a mailbox that failed, and is lost. Which of the two it is can be told beforehand from its
mailbox alone: mailboxes of different peers lead to different endpoints, so nobody notices what
becomes of the others. In a roster of any other kind mailboxes may get in each other's way. There the
peers are tried one after the other, and those whose mailbox failed are reported in that order.
-/

namespace PeerMesh
set_option autoImplicit false

theorem Wire.encode_shout {group : String} (h : group.utf8ByteSize ≤ limit) (sequence : UInt16)
    (content : Content) : ∃ frames, encode ⟨sequence, .shout group content⟩ = .ok frames :=
  ⟨_, encode_eq_ok.mpr ⟨h, rfl⟩⟩

/-! ### Any roster -/

namespace Roster
variable {κ μ : Type} [Carriage κ μ]

/-- The peers of a list that a roster holds, each with what its mailbox answers to a message, if they
are tried one after the other. -/
def attempts (body : Body) : List PeerId → Roster μ → κ → List (PeerId × SendResult)
  | [], _, _ => []
  | id :: ids, roster, c =>
    match roster.get? id with
    | none => attempts body ids roster c
    | some p => (id, (p.send c body).result) :: attempts body ids roster (p.send c body).carriage

variable (body : Body)

/-- Only the entries of those that are tried matter. -/
theorem attempts_insert {id : PeerId} {ids : List PeerId} (h : id ∉ ids) (roster : Roster μ)
    (p : Peer μ) (c : κ) : attempts body ids (roster.insert id p) c = attempts body ids roster c := by
  induction ids generalizing c with
  | nil => rfl
  | cons a ids ih =>
    obtain ⟨ha, hids⟩ := not_or.mp (mt List.mem_cons.mpr h)
    have hget : (roster.insert id p).get? a = roster.get? a := by
      rw [SortedMap.get?_insert, if_neg (Ne.symm ha)]
    rw [attempts, attempts, hget]
    cases roster.get? a with
    | none => exact ih hids c
    | some q => exact congrArg (List.cons _) (ih hids _)

theorem map_fst_attempts (ids : List PeerId) (roster : Roster μ) (c : κ) :
    (attempts body ids roster c).map Prod.fst = ids.filter roster.contains := by
  induction ids generalizing c with
  | nil => rfl
  | cons a ids ih =>
    rw [attempts, List.filter_cons, SortedMap.contains]
    cases roster.get? a with
    | none => exact ih c
    | some p => exact congrArg (List.cons a) (ih _)

theorem failed_sendEach (onError : PeerId → SendError → List Note) {ids : List PeerId}
    (hn : ids.Nodup) (roster : Roster μ) (c : κ) : (sendEach onError body ids roster c).failed =
      ((attempts body ids roster c).filter fun a => SendResult.isFatal a.2).map Prod.fst := by
  induction ids generalizing roster c with
  | nil => rfl
  | cons a ids ih =>
    obtain ⟨ha, hn⟩ := List.nodup_cons.mp hn
    rw [sendEach, attempts]
    cases roster.get? a with
    | none => exact ih hn roster c
    | some p =>
      have hrest := ih hn (roster.insert a (p.send c body).peer) (p.send c body).carriage
      rw [attempts_insert body ha] at hrest
      dsimp only
      cases hresult : (p.send c body).result with
      | ok => exact hrest
      | error e =>
        rw [List.filter_cons]
        cases hfatal : SendResult.isFatal (.error e) with
        | true =>
          have he : e.isFatal = true := hfatal
          rw [if_pos rfl, List.map_cons, ← hrest]
          simp only [he, if_true]
        | false =>
          have he : e.isFatal = false := hfatal
          rw [if_neg Bool.false_ne_true, ← hrest]
          simp only [he, Bool.false_eq_true, if_false]

end Roster

namespace Group
variable {κ μ : Type} [Carriage κ μ]

/-- The members that have an entry are tried in order, and those whose mailbox failed are reported. -/
structure Reports (g : Group) (roster : Roster μ) (c : κ) (body : Body) : Prop where
  tried : (Roster.attempts body g.members.toList roster c).map Prod.fst =
    g.members.toList.filter roster.contains
  failed : (g.send roster c body).failed =
    ((Roster.attempts body g.members.toList roster c).filter fun a => SendResult.isFatal a.2).map
      Prod.fst
  ascending : (g.send roster c body).failed.Pairwise (· < ·)

theorem reports_send (g : Group) (roster : Roster μ) (c : κ) (body : Body) :
    g.Reports roster c body := by
  have htried := Roster.map_fst_attempts body g.members.toList roster c
  have hfailed := Roster.failed_sendEach body (fun id e => [.memberUnreached g.name id e])
    g.members.nodup_toList roster c
  refine ⟨htried, hfailed, ?_⟩
  have hsorted : g.members.toList.Pairwise (· < ·) := SortedMap.pairwise_keys _
  have hsub := (List.filter_sublist (p := fun a => SendResult.isFatal a.2)
    (l := Roster.attempts body g.members.toList roster c)).map Prod.fst
  rw [htried] at hsub
  rw [send, hfailed]
  exact hsorted.sublist (hsub.trans List.filter_sublist)

/-- A group goes on past a member whose inbox is gone, and past one that has no entry. -/
example :
    let id (n : UInt8) : PeerId := ⟨List.replicate 16 n, rfl⟩
    let peer (n : UInt8) (endpoint : String) : Peer Network.Mailbox :=
      { (Peer.new (id n) 0 : Peer Network.Mailbox) with mailbox := some ⟨endpoint, []⟩ }
    let roster : Roster Network.Mailbox := .ofList [(id 1, peer 1 "gone"), (id 3, peer 3 "here")]
    let g : Group := ⟨"chat", .ofList [id 1, id 2, id 3]⟩
    let sent := g.send roster (Network.empty.bind "here") (.shout "chat" [])
    sent.failed = [id 1] ∧ sent.carriage.pending "here" = 1 := by
  decide +kernel

end Group

/-! ### A roster on a network -/

namespace Station
variable {s t : Station Network Network.Mailbox} {id : PeerId} {p : Peer Network.Mailbox}
  {body : Body} {ids : List PeerId}

theorem Addressed.of_note {notes : List Note} (h : (s.note notes).Addressed id p body t) :
    s.Addressed id p body t := by
  cases h with
  | reached hbox hend hf hsend hinbox h => exact .reached hbox hend hf hsend hinbox h
  | lost hbox hend hf hsend hinbox h => exact .lost hbox hend hf hsend hinbox h

/-- A peer is gone afterwards exactly if its mailbox failed. -/
theorem Addressed.lost_iff (h : s.Addressed id p body t) : t.engine.roster.get? id = none ↔
    ∃ box frames, p.mailbox = some box ∧ Wire.encode ⟨p.sent + 1, body⟩ = .ok frames ∧
      (s.carriage.send box frames).1.isFatal = true := by
  cases h with
  | lost hbox _ hf hsend _ h => exact iff_of_true h.gone ⟨_, _, hbox, hf, hsend⟩
  | reached hbox _ hf hsend _ h =>
    refine iff_of_false (fun hgone => ?_) ?_
    · cases hgone.symm.trans h.entry
    · rintro ⟨box', frames', hbox', hf', hfatal⟩
      obtain rfl := Option.some.inj (hbox.symm.trans hbox')
      obtain rfl := Except.ok.inj (hf.symm.trans hf')
      rw [hsend] at hfatal
      cases hfatal

/-- What is left of sending a message to the peers of a list. -/
structure Fanned (s : Station Network Network.Mailbox) (body : Body) (ids : List PeerId)
    (t : Station Network Network.Mailbox) : Prop where
  told : ∀ {id}, id ∈ ids → ∃ p, s.engine.roster.get? id = some p ∧ s.Addressed id p body t
  spared : ∀ {id}, id ∉ ids → s.engine.Alike id t.engine ∧
    ∀ {p}, s.engine.roster.get? id = some p → Network.Untouched p.endpoint s.carriage t.carriage
  /-- Endpoints that nobody in the list is at, whether there is a peer or not. -/
  elsewhere : ∀ {endpoint}, (∀ {id p}, id ∈ ids → s.engine.roster.get? id = some p →
    p.endpoint ≠ endpoint) → Network.Untouched endpoint s.carriage t.carriage
  removed : ∀ {id p}, s.engine.roster.get? id = some p → (t.engine.roster.get? id = none ↔
    id ∈ ids ∧ ∃ box frames, p.mailbox = some box ∧ Wire.encode ⟨p.sent + 1, body⟩ = .ok frames ∧
      (s.carriage.send box frames).1.isFatal = true)

theorem Fanned.of_note {notes : List Note} (h : (s.note notes).Fanned body ids t) :
    s.Fanned body ids t where
  told hid := by
    obtain ⟨p, hp, htold⟩ := h.told hid
    exact ⟨p, hp, htold.of_note⟩
  spared := h.spared
  elsewhere := h.elsewhere
  removed := h.removed

theorem fanned_of_posts (hs : s.engine.Sound) (hh : s.Homed) (hn : ids.Nodup)
    (hknown : ∀ id ∈ ids, ∃ p, s.engine.roster.get? id = some p)
    (hform : ∀ id ∈ ids, ∀ n, ∃ frames, Wire.encode ⟨n, body⟩ = .ok frames)
    (he : t.engine = (s.posts body ids).engine) (hc : t.carriage = (s.posts body ids).carriage) :
    s.Fanned body ids t := by
  obtain ⟨owner, hplaced⟩ := exists_placed hs hh
  have hsame : ∀ {owner a}, (s.posts body ids).Alike owner a t := .of_same he hc
  have hspared : ∀ {owner id}, s.Placed owner → id ∉ ids → s.Alike owner id t := fun hplaced hid =>
    (alike_foldl_of_not_mem (fun id => about_post _ id body) hplaced hid).trans hsame
  have htold : ∀ {id p}, id ∈ ids → s.engine.roster.get? id = some p → s.Addressed id p body t := by
    intro id p hid hp
    have hposted := s.posted_post id body fun _ => hs.filed
    have hposts := alike_foldl_of_mem (fun id => about_post owner id body) hplaced hn hid
    exact (hposted.addressed hs hplaced hp (hform id hid)).alike (hposts.trans hsame)
      (hplaced.owner_endpoint hp)
  constructor
  case told =>
    intro id hid
    obtain ⟨p, hp⟩ := hknown id hid
    exact ⟨p, hp, htold hid hp⟩
  case spared =>
    exact fun hid => ⟨(hspared hplaced hid).engine, fun hp =>
      (hspared hplaced hid).carriage.untouched (hplaced.owner_endpoint hp)⟩
  case removed =>
    intro id p hp
    by_cases hid : id ∈ ids
    · exact (htold hid hp).lost_iff.trans (and_iff_right hid).symm
    · refine iff_of_false (fun hgone => ?_) fun h => hid h.1
      cases hgone.symm.trans ((hspared hplaced hid).engine.entry.trans hp)
  case elsewhere =>
    intro endpoint hnobody
    by_cases hthere : ∃ id p, s.engine.roster.get? id = some p ∧ p.endpoint = endpoint
    · obtain ⟨id, p, hp, rfl⟩ := hthere
      have hid : id ∉ ids := fun hid => hnobody hid hp rfl
      exact (hspared hplaced hid).carriage.untouched (hplaced.owner_endpoint hp)
    · have hself : s.engine.id ∉ ids := fun hid => by
        obtain ⟨p, hp⟩ := hknown _ hid
        exact hs.foreign_id hp rfl
      exact untouched_of_free hplaced (fun hp hend => hthere ⟨_, _, hp, hend⟩) s.engine.id
        fun hplaced => hspared hplaced hself

theorem fanned_shout (hs : s.engine.Sound) (hh : s.Homed) (hu : s.engine.Utterable) (group : String)
    (content : Content) : s.Fanned (.shout group content) (s.engine.peersInGroup group)
      (s.shout group content) := by
  cases hg : s.engine.peerGroups.get? group with
  | none =>
    have hids : s.engine.peersInGroup group = [] := by rw [Engine.peersInGroup, hg]
    have hshout : s.shout group content = s.note [.shoutDropped group] := by rw [shout, hg]
    rw [hids, hshout]
    exact fanned_of_posts hs hh .nil (List.forall_mem_nil _) (List.forall_mem_nil _) rfl rfl
  | some g =>
    have hids : s.engine.peersInGroup group = g.members.toList := by rw [Engine.peersInGroup, hg]
    have hmember : ∀ id ∈ g.members.toList, s.engine.isMember id group = true := fun id hid =>
      (Engine.isMember_of_get? hg id).trans (SortedSet.mem_toList.mp hid)
    obtain ⟨hengine, hcarriage⟩ := shout_eq_posts hs hg content
    rw [hids]
    refine fanned_of_posts hs hh g.members.nodup_toList (fun id hid => ?_) (fun id hid n => ?_)
      hengine hcarriage
    · obtain ⟨p, hp, -⟩ := hs.members (hmember id hid)
      exact ⟨p, hp⟩
    · exact Wire.encode_shout (hu id group (hmember id hid)) n content

theorem fanned_broadcast (hs : s.engine.Sound) (hh : s.Homed)
    (hform : ∀ n, ∃ frames, Wire.encode ⟨n, body⟩ = .ok frames) (walk : Walk) :
    s.Fanned body s.engine.roster.keys (s.broadcast walk body) := by
  have hannounced := announced_broadcast hs walk body
  have hmem : ∀ {id}, id ∈ walk.order s.engine.roster.keys ↔ id ∈ s.engine.roster.keys :=
    hannounced.everybody.mem_iff
  have hfanned : s.Fanned body (walk.order s.engine.roster.keys) (s.broadcast walk body) :=
    fanned_of_posts hs hh (hannounced.everybody.nodup_iff.mpr (SortedMap.nodup_keys _))
      (fun _ hid => SortedMap.mem_keys.mp (hmem.mp hid)) (fun _ _ => hform) hannounced.engine
      hannounced.carriage
  obtain ⟨htold, hspared, helsewhere, hremoved⟩ := hfanned
  simp only [hmem] at htold hspared helsewhere hremoved
  exact ⟨htold, hspared, helsewhere, hremoved⟩

/-- Whatever an engine sends to many reaches all of them that can be reached. -/
structure FansOut (s : Station Network Network.Mailbox) : Prop where
  shout : ∀ group content, s.Fanned (.shout group content) (s.engine.peersInGroup group)
    (s.shout group content)
  join : ∀ {walk group}, s.engine.joined.contains group = false →
    (s.join walk group).1 = .ok () → (s.edit (·.enlist group)).Fanned
      (.join group (s.engine.status + 1)) s.engine.roster.keys (s.join walk group).2
  leave : ∀ {walk group}, s.engine.joined.contains group = true → (s.edit (·.delist group)).Fanned
    (.leave group (s.engine.status + 1)) s.engine.roster.keys (s.leave walk group)

theorem fansOut (hs : s.engine.Sound) (hh : s.Homed) (hu : s.engine.Utterable) : s.FansOut := by
  constructor
  case shout => exact fanned_shout hs hh hu
  case join =>
    intro walk group hnew hok
    have hchecked : checkGroup s.engine.joined.size group = .ok () := by
      rw [join, hnew, if_neg Bool.false_ne_true] at hok
      split at hok
      · cases hok
      · assumption
    have hlisted := hs.enlist hchecked
    have hform := Wire.encode_join (hlisted.presentable.joined_bytes
      ((SortedSet.contains_insert _ _ _).trans (by rw [decide_eq_true rfl, Bool.true_or])))
    let u := (s.edit (·.enlist group)).note [.joining s.engine.name group (s.engine.status + 1)]
    have hu : u.Homed := hh.congr rfl
    have hfanned := fanned_broadcast (s := u) hlisted hu (fun n => hform n (s.engine.status + 1)) walk
    rw [join, hnew, if_neg Bool.false_ne_true, hchecked]
    exact hfanned.of_note
  case leave =>
    intro walk group hold
    have hform := fun n => Wire.encode_leave (hs.presentable.joined_bytes hold) n (s.engine.status + 1)
    let u := (s.edit (·.delist group)).note [.leaving s.engine.name group (s.engine.status + 1)]
    have hu : u.Homed := hh.congr rfl
    have hfanned := fanned_broadcast (s := u) (hs.delist group) hu hform walk
    rw [leave, hold, if_pos rfl]
    exact hfanned.of_note

/-- Whatever was done to an engine that was new, and whatever has become of the network. -/
theorem fansOut_run_new (id : PeerId) (name endpoint : String) (timing : Timing) (first : Network)
    (turns : List (Turn Network)) (net : Network) :
    FansOut { (new (Engine.new id name endpoint timing) first).run turns with carriage := net } ∧
      ∀ {κ μ : Type} [Carriage κ μ] (g : Group) (roster : Roster μ) (c : κ) (body : Body),
        g.Reports roster c body :=
  ⟨fansOut (sound_run (Engine.sound_new id name endpoint timing) turns)
    ((homed_run_new id name endpoint timing first turns).congr rfl)
    (utterable_run_new id name endpoint timing first turns), Group.reports_send⟩

end Station
end PeerMesh
