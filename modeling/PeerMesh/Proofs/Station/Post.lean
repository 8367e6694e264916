import PeerMesh.Proofs.Engine.Sound

/-!
# Sending to one peer, and to many

`post` hands one message to one peer and drops the peer if it was lost. `Posted` lists all that can
come of it. A broadcast sends first and drops the lost peers afterwards; `posts_eq` shows that
this ends in the same engine and carriage as posting to one peer after the other. Notes are only
followed as far as they are alarms.
-/

namespace PeerMesh
set_option autoImplicit false

/-- The notes by which a node says that a peer's messages do not fit together. -/
def Note.isAlarm : Note → Bool
  | .sequenceError .. | .lostMessages _ | .statusMismatch .. => true
  | _ => false

/-! ### Sending on a mailbox -/

namespace Peer
variable {κ μ : Type} [Carriage κ μ]

/-- All that can come of sending. Only a closed mailbox, a message without a wire form and a
message that the mailbox took leave no doubt about the carriage. -/
inductive Sending (p : Peer μ) (c : κ) (body : Body) : Step SendError κ μ → Prop
  | closed {notes} (hb : p.mailbox = none) : Sending p c body ⟨.ok (), p, c, notes⟩
  | formless {notes e} (hf : Wire.encode ⟨p.sent + 1, body⟩ = .error e) :
    Sending p c body ⟨.error (.encode e), p, c, notes⟩
  | taken {notes box frames c'} (hb : p.mailbox = some box)
    (hf : Wire.encode ⟨p.sent + 1, body⟩ = .ok frames)
    (hs : Carriage.send c box frames = (.ok (), c')) :
    Sending p c body ⟨.ok (), { p with sent := p.sent + 1 }, c', notes⟩
  | rejected {notes box frames e c'} (hb : p.mailbox = some box)
    (hs : Carriage.send c box frames = (.error e, c')) (he : e.isFatal = false)
    (hf : Wire.encode ⟨p.sent + 1, body⟩ = .ok frames) : Sending p c body ⟨.error e, p, c', notes⟩
  | lost {notes box frames e c'} (hb : p.mailbox = some box)
    (hs : Carriage.send c box frames = (.error e, c')) (he : e.isFatal = true)
    (hf : Wire.encode ⟨p.sent + 1, body⟩ = .ok frames) :
    Sending p c body ⟨.error e, p.disconnect, c', notes⟩

theorem sending_send (p : Peer μ) (c : κ) (body : Body) : p.Sending c body (p.send c body) := by
  unfold send
  split
  · exact .closed ‹_›
  · rename_i box hb
    dsimp only
    split
    · exact .formless ‹_›
    · rename_i frames hf
      split
      · exact .taken hb hf ‹_›
      · rename_i e c' hs
        split
        · exact .lost hb hs ‹_› hf
        · exact .rejected hb hs (by simpa using ‹¬ e.isFatal = true›) hf

theorem id_send (p : Peer μ) (c : κ) (body : Body) : (p.send c body).peer.id = p.id := by
  have h := p.sending_send c body
  generalize p.send c body = step at h ⊢
  cases h <;> rfl

theorem declaredName_send (p : Peer μ) (c : κ) (body : Body) :
    (p.send c body).peer.declaredName = p.declaredName := by
  have h := p.sending_send c body
  generalize p.send c body = step at h ⊢
  cases h <;> rfl

theorem not_alarm_disconnectNotes (p : Peer μ) : p.disconnectNotes.filter Note.isAlarm = [] := by
  unfold disconnectNotes
  split <;> rfl

theorem not_alarm_send (p : Peer μ) (c : κ) (body : Body) :
    (p.send c body).notes.filter Note.isAlarm = [] := by
  have hclose := p.not_alarm_disconnectNotes
  unfold send
  split
  · rfl
  · dsimp only
    split
    · rfl
    · split
      · rfl
      · split
        · simpa [Note.isAlarm] using hclose
        · rfl

end Peer

namespace Station
variable {κ μ : Type}

def alarms (s : Station κ μ) : List Note := s.journal.toList.filter Note.isAlarm

theorem alarms_note (s : Station κ μ) (notes : List Note) :
    (s.note notes).alarms = s.alarms ++ notes.filter Note.isAlarm := by
  simp [alarms, note]

@[simp] theorem engine_edit (s : Station κ μ) (f : Engine μ → Engine μ) :
    (s.edit f).engine = f s.engine := rfl

@[simp] theorem alarms_edit (s : Station κ μ) (f : Engine μ → Engine μ) :
    (s.edit f).alarms = s.alarms := rfl

@[simp] theorem engine_note (s : Station κ μ) (notes : List Note) :
    (s.note notes).engine = s.engine := rfl

@[simp] theorem carriage_note (s : Station κ μ) (notes : List Note) :
    (s.note notes).carriage = s.carriage := rfl

@[simp] theorem engine_emit (s : Station κ μ) (events : List Event) :
    (s.emit events).engine = { s.engine with events := s.engine.events ++ events } := rfl

@[simp] theorem alarms_emit (s : Station κ μ) (events : List Event) :
    (s.emit events).alarms = s.alarms := rfl

/-! ### Removing -/

@[simp] theorem engine_remove (s : Station κ μ) (id : PeerId) :
    (s.remove id).engine = s.engine.drop id := by
  rw [remove, Engine.drop]
  cases s.engine.roster.get? id with
  | none => rfl
  | some p =>
    dsimp only
    cases p.declaredName <;> rfl

@[simp] theorem carriage_remove (s : Station κ μ) (id : PeerId) :
    (s.remove id).carriage = s.carriage := by
  unfold remove
  split
  · rfl
  · dsimp only
    split <;> rfl

@[simp] theorem alarms_remove (s : Station κ μ) (id : PeerId) : (s.remove id).alarms = s.alarms := by
  unfold remove
  split
  · rfl
  · dsimp only
    split <;> simp [alarms_note, Peer.not_alarm_disconnectNotes, Note.isAlarm]

theorem engine_foldl_remove (s : Station κ μ) (ids : List PeerId) :
    (ids.foldl remove s).engine = ids.foldl Engine.drop s.engine := by
  induction ids generalizing s with
  | nil => rfl
  | cons id ids ih => rw [List.foldl_cons, ih, engine_remove, List.foldl_cons]

theorem carriage_foldl_remove (s : Station κ μ) (ids : List PeerId) :
    (ids.foldl remove s).carriage = s.carriage := by
  induction ids generalizing s with
  | nil => rfl
  | cons id ids ih => rw [List.foldl_cons, ih, carriage_remove]

theorem alarms_foldl_remove (s : Station κ μ) (ids : List PeerId) :
    (ids.foldl remove s).alarms = s.alarms := by
  induction ids generalizing s with
  | nil => rfl
  | cons id ids ih => rw [List.foldl_cons, ih, alarms_remove]

theorem removeIfLost_of_kept (s : Station κ μ) (id : PeerId) {result : SendResult}
    (h : result.isFatal = false) : s.removeIfLost id result = s := by
  rw [removeIfLost, h, if_neg Bool.false_ne_true]

theorem removeIfLost_of_lost (s : Station κ μ) (id : PeerId) {result : SendResult}
    (h : result.isFatal = true) : s.removeIfLost id result = s.remove id := by
  rw [removeIfLost, if_pos h]

theorem engine_removeIfLost (s : Station κ μ) (id : PeerId) (result : SendResult) :
    (s.removeIfLost id result).engine = if result.isFatal then s.engine.drop id else s.engine := by
  unfold removeIfLost
  split
  · exact s.engine_remove id
  · rfl

theorem carriage_removeIfLost (s : Station κ μ) (id : PeerId) (result : SendResult) :
    (s.removeIfLost id result).carriage = s.carriage := by
  unfold removeIfLost
  split
  · exact s.carriage_remove id
  · rfl

theorem alarms_removeIfLost (s : Station κ μ) (id : PeerId) (result : SendResult) :
    (s.removeIfLost id result).alarms = s.alarms := by
  cases h : result.isFatal
  · rw [removeIfLost_of_kept s id h]
  · rw [removeIfLost_of_lost s id h, alarms_remove]

/-! ### Posting -/

section
variable [Carriage κ μ]

/-- Sends a message to a peer that has an entry and drops the peer if it was lost. -/
def post (s : Station κ μ) (id : PeerId) (body : Body) : Station κ μ :=
  match s.engine.roster.get? id with
  | none => s
  | some p =>
    let (result, s) := s.tell p body
    s.removeIfLost id result

def posts (s : Station κ μ) (body : Body) (ids : List PeerId) : Station κ μ :=
  ids.foldl (fun s id => s.post id body) s

inductive Posted (s : Station κ μ) (id : PeerId) (body : Body) (t : Station κ μ) : Prop
  | unmoved (h : ∀ p, s.engine.roster.get? id = some p →
      p.mailbox = none ∨ ∃ e, Wire.encode ⟨p.sent + 1, body⟩ = .error e)
    (he : t.engine = s.engine) (hc : t.carriage = s.carriage)
  | taken {p box frames} (hp : s.engine.roster.get? id = some p) (hb : p.mailbox = some box)
    (hf : Wire.encode ⟨p.sent + 1, body⟩ = .ok frames)
    (hs : Carriage.send s.carriage box frames = (.ok (), t.carriage))
    (he : t.engine =
      { s.engine with roster := s.engine.roster.insert id { p with sent := p.sent + 1 } })
  | rejected {p box frames e} (hp : s.engine.roster.get? id = some p) (hb : p.mailbox = some box)
    (hs : Carriage.send s.carriage box frames = (.error e, t.carriage)) (hn : e.isFatal = false)
    (he : t.engine = s.engine) (hf : Wire.encode ⟨p.sent + 1, body⟩ = .ok frames)
  | lost {p box frames e} (hp : s.engine.roster.get? id = some p) (hb : p.mailbox = some box)
    (hs : Carriage.send s.carriage box frames = (.error e, t.carriage)) (hn : e.isFatal = true)
    (he : t.engine = s.engine.drop id) (hf : Wire.encode ⟨p.sent + 1, body⟩ = .ok frames)

/-- What has a form is put into the mailbox. It is counted if the mailbox takes it, and the peer is
dropped if the mailbox fails. -/
theorem Posted.sends {s t : Station κ μ} {id : PeerId} {body : Body} {p : Peer μ} {box : μ}
    {frames : Content} (h : s.Posted id body t) (hp : s.engine.roster.get? id = some p)
    (hbox : p.mailbox = some box) (hf : Wire.encode ⟨p.sent + 1, body⟩ = .ok frames) :
    ∃ result, Carriage.send s.carriage box frames = (result, t.carriage) ∧
      (result = .ok () → t.engine =
        { s.engine with roster := s.engine.roster.insert id { p with sent := p.sent + 1 } }) ∧
      (result.isFatal = true → t.engine = s.engine.drop id) := by
  cases h with
  | unmoved hnone =>
    exfalso
    rcases hnone p hp with hclosed | ⟨e, herror⟩
    · rw [hbox] at hclosed
      cases hclosed
    · rw [hf] at herror
      cases herror
  | taken hp' hbox' hf' hs he =>
    obtain rfl := Option.some.inj (hp.symm.trans hp')
    obtain rfl := Option.some.inj (hbox.symm.trans hbox')
    obtain rfl := Except.ok.inj (hf.symm.trans hf')
    exact ⟨_, hs, fun _ => he, fun hfatal => by cases hfatal⟩
  | rejected hp' hbox' hs hn _ hf' =>
    obtain rfl := Option.some.inj (hp.symm.trans hp')
    obtain rfl := Option.some.inj (hbox.symm.trans hbox')
    obtain rfl := Except.ok.inj (hf.symm.trans hf')
    exact ⟨_, hs, fun hok => (by cases hok), fun hfatal =>
      absurd (hn.symm.trans hfatal) Bool.false_ne_true⟩
  | lost hp' hbox' hs _ he hf' =>
    obtain rfl := Option.some.inj (hp.symm.trans hp')
    obtain rfl := Option.some.inj (hbox.symm.trans hbox')
    obtain rfl := Except.ok.inj (hf.symm.trans hf')
    exact ⟨_, hs, fun hok => (by cases hok), fun _ => he⟩

/-- What has no form changes nothing. -/
theorem Posted.same_of_formless {s t : Station κ μ} {id : PeerId} {body : Body} {p : Peer μ}
    {e : Wire.EncodeError} (h : s.Posted id body t) (hp : s.engine.roster.get? id = some p)
    (hf : Wire.encode ⟨p.sent + 1, body⟩ = .error e) :
    t.engine = s.engine ∧ t.carriage = s.carriage := by
  cases h with
  | unmoved _ he hc => exact ⟨he, hc⟩
  | taken hp' _ hf' | rejected hp' _ _ _ _ hf' | lost hp' _ _ _ _ hf' =>
    obtain rfl := Option.some.inj (hp.symm.trans hp')
    rw [hf] at hf'
    cases hf'

theorem post_of_none {s : Station κ μ} {id : PeerId} (h : s.engine.roster.get? id = none)
    (body : Body) : s.post id body = s := by
  rw [post, h]

theorem post_of_some {s : Station κ μ} {id : PeerId} {p : Peer μ}
    (h : s.engine.roster.get? id = some p) (body : Body) :
    s.post id body = (s.tell p body).2.removeIfLost id (s.tell p body).1 := by
  rw [post, h]

theorem alarms_tell (s : Station κ μ) (p : Peer μ) (body : Body) :
    (s.tell p body).2.alarms = s.alarms := by
  rw [tell, alarms_note, Peer.not_alarm_send, List.append_nil]
  rfl

theorem alarms_post (s : Station κ μ) (id : PeerId) (body : Body) :
    (s.post id body).alarms = s.alarms := by
  cases h : s.engine.roster.get? id with
  | none => rw [post_of_none h]
  | some p => rw [post_of_some h, alarms_removeIfLost, alarms_tell]

theorem alarms_posts (s : Station κ μ) (body : Body) (ids : List PeerId) :
    (s.posts body ids).alarms = s.alarms := by
  induction ids generalizing s with
  | nil => rfl
  | cons id ids ih => exact (ih (s.post id body)).trans (s.alarms_post id body)

theorem posted_post (s : Station κ μ) (id : PeerId) (body : Body)
    (hf : ∀ p, s.engine.roster.get? id = some p → p.id = id) : s.Posted id body (s.post id body) := by
  cases hp : s.engine.roster.get? id with
  | none =>
    rw [post_of_none hp]
    exact .unmoved (fun p h => by rw [hp] at h; cases h) rfl rfl
  | some p =>
    have hid := hf p hp
    have same : { s.engine with roster := s.engine.roster.insert p.id p } = s.engine := by
      rw [hid, SortedMap.insert_of_get? hp]
    have hsend := p.sending_send s.carriage body
    rw [post_of_some hp, tell]
    generalize p.send s.carriage body = step at hsend ⊢
    cases hsend with
    | closed hb =>
      refine .unmoved (fun q hq => ?_) same rfl
      obtain rfl := Option.some.inj (hp.symm.trans hq)
      exact .inl hb
    | formless hf =>
      refine .unmoved (fun q hq => ?_) same rfl
      obtain rfl := Option.some.inj (hp.symm.trans hq)
      exact .inr ⟨_, hf⟩
    | taken hb hf hs =>
      refine .taken hp hb hf hs ?_
      rw [← hid]
      rfl
    | rejected hb hs hn hf =>
      rw [removeIfLost_of_kept _ id (show SendResult.isFatal (.error _) = false from hn)]
      exact .rejected hp hb hs hn same hf
    | lost hb hs hn hf =>
      rw [removeIfLost_of_lost _ id (show SendResult.isFatal (.error _) = true from hn)]
      refine .lost hp hb (hs.trans ?_) hn ?_ hf
      · rw [carriage_remove]
        rfl
      · rw [engine_remove]
        change ({ s.engine with roster := s.engine.roster.insert p.id p.disconnect }).drop id = _
        have hget : (s.engine.roster.insert p.id p.disconnect).get? id = some p.disconnect := by
          rw [SortedMap.get?_insert, if_pos hid.symm]
        rw [Engine.drop_withRoster hp hget rfl, hid, SortedMap.erase_insert, ← Engine.roster_drop]

/-! ### Posting to many -/

end

end Station

namespace Roster
variable {κ μ : Type} [Carriage κ μ] (onError : PeerId → SendError → List Note) (body : Body)

def Filed (roster : Roster μ) : Prop := ∀ {id p}, roster.get? id = some p → p.id = id

theorem sendEach_of_none {id : PeerId} {ids : List PeerId} {roster : Roster μ}
    (h : roster.get? id = none) (c : κ) :
    sendEach onError body (id :: ids) roster c = sendEach onError body ids roster c := by
  rw [sendEach, h]

theorem get?_sendEach {id : PeerId} {ids : List PeerId} (h : id ∉ ids) (roster : Roster μ) (c : κ) :
    (sendEach onError body ids roster c).roster.get? id = roster.get? id := by
  induction ids generalizing roster c with
  | nil => rfl
  | cons a ids ih =>
    obtain ⟨ha, hids⟩ := not_or.mp (mt List.mem_cons.mpr h)
    rw [sendEach]
    split
    · exact ih hids roster c
    · rename_i p hp
      have hrest := ih hids (roster.insert a (p.send c body).peer) (p.send c body).carriage
      rw [SortedMap.get?_insert, if_neg ha] at hrest
      dsimp only
      split <;> exact hrest

/-- Sending to others does not depend on the entry of a peer. -/
theorem sendEach_erase {id : PeerId} {ids : List PeerId} (h : id ∉ ids) (roster : Roster μ) (c : κ) :
    sendEach onError body ids (roster.erase id) c =
      { sendEach onError body ids roster c with
        roster := (sendEach onError body ids roster c).roster.erase id } := by
  induction ids generalizing roster c with
  | nil => rfl
  | cons a ids ih =>
    obtain ⟨ha, hids⟩ := not_or.mp (mt List.mem_cons.mpr h)
    have hget : (roster.erase id).get? a = roster.get? a := by
      rw [SortedMap.get?_erase, if_neg (Ne.symm ha)]
    rw [sendEach, sendEach, hget]
    cases hp : roster.get? a with
    | none => exact ih hids roster c
    | some p =>
      have hrest := ih hids (roster.insert a (p.send c body).peer) (p.send c body).carriage
      dsimp only
      rw [SortedMap.insert_erase_comm roster (Ne.symm ha), hrest]
      cases (p.send c body).result <;> rfl

theorem not_alarm_sendEach (hquiet : ∀ id e, (onError id e).filter Note.isAlarm = [])
    (ids : List PeerId) (roster : Roster μ) (c : κ) :
    (sendEach onError body ids roster c).notes.filter Note.isAlarm = [] := by
  induction ids generalizing roster c with
  | nil => rfl
  | cons a ids ih =>
    rw [sendEach]
    split
    · exact ih roster c
    · rename_i p hp
      have hrest := ih (roster.insert a (p.send c body).peer) (p.send c body).carriage
      dsimp only
      split <;> simp [Peer.not_alarm_send, hrest, hquiet]

omit [Carriage κ μ] in
theorem Filed.insert {roster : Roster μ} (h : roster.Filed) {id : PeerId} {p : Peer μ}
    (hp : p.id = id) : Filed (SortedMap.insert roster id p) := by
  intro j q hq
  rw [SortedMap.get?_insert] at hq
  split at hq
  · obtain rfl := Option.some.inj hq
    rw [hp, ‹j = id›]
  · exact h hq

omit [Carriage κ μ] in
theorem Filed.erase {roster : Roster μ} (h : roster.Filed) (id : PeerId) :
    Filed (SortedMap.erase roster id) := by
  intro j q hq
  rw [SortedMap.get?_erase] at hq
  split at hq
  · cases hq
  · exact h hq

end Roster

namespace Station
variable {κ μ : Type} [Carriage κ μ]

/-- Sending to all and then dropping the lost ones comes to the same as posting to each. The
induction is on the list; once a peer is dropped, the rest of it is sent with a smaller roster,
which no other peer notices. -/
theorem posts_eq (onError : PeerId → SendError → List Note) (body : Body) {ids : List PeerId}
    (hn : ids.Nodup) (s : Station κ μ) (hf : s.engine.roster.Filed) :
    let sent := Roster.sendEach onError body ids s.engine.roster s.carriage
    (s.posts body ids).engine =
        sent.failed.foldl Engine.drop { s.engine with roster := sent.roster } ∧
      (s.posts body ids).carriage = sent.carriage := by
  induction ids generalizing s with
  | nil => exact ⟨rfl, rfl⟩
  | cons a ids ih =>
    obtain ⟨ha, hn⟩ := List.nodup_cons.mp hn
    rw [posts, List.foldl_cons]
    cases hp : s.engine.roster.get? a with
    | none =>
      rw [post_of_none hp, Roster.sendEach_of_none onError body hp]
      exact ih hn s hf
    | some p =>
      have hid : p.id = a := hf hp
      have hpeer : (p.send s.carriage body).peer.id = a := (p.id_send s.carriage body).trans hid
      have htell : (s.tell p body).2.engine =
          { s.engine with roster := s.engine.roster.insert a (p.send s.carriage body).peer } := by
        rw [← hid]
        rfl
      rw [post_of_some hp, Roster.sendEach, hp]
      dsimp only
      cases hlost : SendResult.isFatal (s.tell p body).1 with
      | false =>
        have hrest := ih hn (s.tell p body).2 (htell ▸ hf.insert hpeer)
        rw [htell] at hrest
        rw [removeIfLost_of_kept _ a hlost]
        change SendResult.isFatal (p.send s.carriage body).result = false at hlost
        cases hres : (p.send s.carriage body).result with
        | ok => exact hrest
        | error e =>
          have he : e.isFatal = false := by rwa [hres] at hlost
          simp only [he, Bool.false_eq_true, if_false]
          exact hrest
      | true =>
        have hrest := ih hn ((s.tell p body).2.remove a) (by
          rw [engine_remove, Engine.roster_drop, htell]
          exact Roster.Filed.erase (hf.insert hpeer) a)
        rw [removeIfLost_of_lost _ a hlost]
        change SendResult.isFatal (p.send s.carriage body).result = true at hlost
        cases hres : (p.send s.carriage body).result with
        | ok =>
          rw [hres] at hlost
          cases hlost
        | error e =>
          have he : e.isFatal = true := by rwa [hres] at hlost
          rw [engine_remove, carriage_remove, Engine.roster_drop, htell, Roster.sendEach_erase _ _ ha]
            at hrest
          simp only [he, if_true, List.foldl_cons]
          have hnow : (s.engine.roster.insert a (p.send s.carriage body).peer).get? a =
              some (p.send s.carriage body).peer := by
            rw [SortedMap.get?_insert, if_pos rfl]
          have hlater := (Roster.get?_sendEach onError body ha _ (p.send s.carriage body).carriage).trans
            hnow
          have hname := p.declaredName_send s.carriage body
          refine ⟨hrest.1.trans ?_, hrest.2⟩
          rw [Engine.drop_withRoster hp hnow hname, Engine.drop_withRoster hp hlater hname]
          rfl

end Station
end PeerMesh
