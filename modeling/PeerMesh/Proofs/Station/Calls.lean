import PeerMesh.Proofs.Station.Abiding
import PeerMesh.Proofs.Station.Outbound

/-!
# Answers to PINGs

An operation uses the carriage by calls: it opens mailboxes, and puts messages into them. Which
bodies those messages may have depends on the operation; a PING_OK is among them for one operation
only, the arrival of a PING, and then it is the only one.
-/

namespace PeerMesh
set_option autoImplicit false

variable {κ μ : Type} [Carriage κ μ]

/-- One call of a carriage that puts in no body but those of `may`. -/
inductive Call (may : Body → Prop) (c : κ) : κ → Prop
  | connect (routingId : List UInt8) (endpoint : String) :
    Call may c (Carriage.connect c routingId endpoint).2
  | send {n : UInt16} {body : Body} {frames : Content} (box : μ) (hmay : may body)
    (hf : Wire.encode ⟨n, body⟩ = .ok frames) : Call may c (Carriage.send c box frames).2

def Calls (may : Body → Prop) : κ → κ → Prop := Relation.ReflTransGen (Call may)

namespace Calls
variable {may : Body → Prop} {c c' c'' : κ}

theorem refl : Calls may c c := Relation.ReflTransGen.refl

theorem of_eq (h : c' = c) : Calls may c c' := by
  rw [h]
  exact .refl

theorem trans (h : Calls may c c') (h' : Calls may c' c'') : Calls may c c'' :=
  Relation.ReflTransGen.trans h h'

theorem foldl {α : Type} {s : Station κ μ} {f : Station κ μ → α → Station κ μ}
    (hf : ∀ s a, Calls may s.carriage (f s a).carriage) (l : List α) :
    Calls may s.carriage (l.foldl f s).carriage := by
  induction l generalizing s with
  | nil => exact .refl
  | cons a l ih => exact (hf s a).trans ih

end Calls

variable {may : Body → Prop} {body : Body}

theorem Peer.calls_send (p : Peer μ) (c : κ) (hmay : may body) :
    Calls may c (p.send c body).carriage := by
  have hsend := p.sending_send c body
  generalize p.send c body = step at hsend ⊢
  have call : ∀ {box : μ} {frames result c'}, Wire.encode ⟨p.sent + 1, body⟩ = .ok frames →
      Carriage.send c box frames = (result, c') → Calls may c c' := by
    intro box frames result c' hf hs
    have hone : Call may c (Carriage.send c box frames).2 := .send box hmay hf
    rw [hs] at hone
    exact Relation.ReflTransGen.single hone
  cases hsend with
  | closed | formless => exact .refl
  | taken _ hf hs => exact call hf hs
  | rejected _ hs _ hf | lost _ hs _ hf => exact call hf hs

theorem Roster.calls_sendEach (onError : PeerId → SendError → List Note) (hmay : may body)
    (ids : List PeerId) (roster : Roster μ) (c : κ) :
    Calls may c (Roster.sendEach onError body ids roster c).carriage := by
  induction ids generalizing roster c with
  | nil => exact .refl
  | cons id ids ih =>
    rw [sendEach]
    split
    · exact ih roster c
    · rename_i p hp
      have hrest := ih (roster.insert id (p.send c body).peer) (p.send c body).carriage
      dsimp only
      split <;> exact (p.calls_send c hmay).trans hrest

namespace Station
variable {s t : Station κ μ} {op : Op}

theorem calls_tell (s : Station κ μ) (p : Peer μ) (hmay : may body) :
    Calls may s.carriage (s.tell p body).2.carriage :=
  p.calls_send s.carriage hmay

theorem calls_broadcast (walk : Walk) (s : Station κ μ) (hmay : may body) :
    Calls may s.carriage (s.broadcast walk body).carriage := by
  rw [broadcast, carriage_foldl_remove]
  exact Roster.calls_sendEach _ hmay _ _ _

theorem calls_join (walk : Walk) (s : Station κ μ) (group : String)
    (hmay : ∀ status, may (.join group status)) :
    Calls may s.carriage (s.join walk group).2.carriage := by
  unfold join
  split
  · exact .refl
  · split
    · exact .refl
    · exact calls_broadcast walk ((s.edit _).note _) (hmay _)

theorem calls_leave (walk : Walk) (s : Station κ μ) (group : String)
    (hmay : ∀ status, may (.leave group status)) :
    Calls may s.carriage (s.leave walk group).carriage := by
  unfold leave
  split
  · exact calls_broadcast walk ((s.edit _).note _) (hmay _)
  · exact .refl

theorem calls_whisper (s : Station κ μ) (id : PeerId) (content : Content)
    (hmay : may (.whisper content)) : Calls may s.carriage (s.whisper id content).carriage := by
  unfold whisper
  split
  · exact .refl
  · dsimp only
    rw [carriage_removeIfLost]
    exact s.calls_tell _ hmay

theorem calls_shout (s : Station κ μ) (group : String) (content : Content)
    (hmay : may (.shout group content)) :
    Calls may s.carriage (s.shout group content).carriage := by
  unfold shout
  split
  · exact .refl
  · dsimp only
    rw [carriage_foldl_remove]
    exact Roster.calls_sendEach _ hmay _ _ _

theorem calls_meet (s : Station κ μ) (id : PeerId) (endpoint : String) (now : Nat)
    (hmay : ∀ h, may (.hello h)) : Calls may s.carriage (s.meet id endpoint now).2.carriage := by
  have hopened : Calls may s.carriage
      (Carriage.connect s.carriage s.engine.id.routingId endpoint).2 :=
    Relation.ReflTransGen.single (.connect _ _)
  rcases hc : Carriage.connect s.carriage s.engine.id.routingId endpoint with ⟨e | box, c⟩
  · rw [meet_of_error hc]
    rw [hc] at hopened
    exact hopened
  · rw [hc] at hopened
    rw [meet_of_ok hc]
    have hgreet := (Peer.reached id box endpoint now).calls_send c (hmay s.engine.hello)
    unfold greet
    dsimp only
    split <;> exact hopened.trans hgreet

theorem calls_require (walk : Walk) (s : Station κ μ) (id : PeerId) (endpoint : String) (now : Nat)
    (hmay : ∀ h, may (.hello h)) :
    Calls may s.carriage (s.require walk id endpoint now).2.carriage := by
  unfold require
  split
  · exact .refl
  · split
    · exact .refl
    · rw [← carriage_purge s walk endpoint]
      exact calls_meet _ id endpoint now hmay

theorem calls_found (walk : Walk) (s : Station κ μ) (id : PeerId) (endpoint : String) (now : Nat)
    (hmay : ∀ h, may (.hello h)) :
    Calls may s.carriage (s.found walk id endpoint now).carriage := by
  have hreq := calls_require walk s id endpoint now hmay
  unfold found
  split
  · exact .refl
  · split <;> rename_i u hu <;> rw [hu] at hreq <;> exact hreq

omit [Carriage κ μ] in
theorem carriage_lost (s : Station κ μ) (id : PeerId) : (s.lost id).carriage = s.carriage := by
  unfold lost
  split
  · rfl
  · exact carriage_remove _ id

theorem calls_welcome (walk : Walk) (s : Station κ μ) (id : PeerId) (endpoint : String) (now : Nat)
    (hmay : ∀ h, may (.hello h)) :
    Calls may s.carriage (s.welcome walk id endpoint now).2.carriage := by
  have hfirst : (if (s.engine.readyPeer? id).isSome then (s.note [.greetedAgain id]).remove id
      else s).carriage = s.carriage := by
    split
    · exact carriage_remove _ id
    · rfl
  unfold welcome
  dsimp only
  generalize (if (s.engine.readyPeer? id).isSome then (s.note [.greetedAgain id]).remove id
    else s) = u at hfirst ⊢
  have hreq := calls_require walk u id endpoint now hmay
  rw [hfirst] at hreq
  split <;> rename_i v hv <;> rw [hv] at hreq <;> exact hreq

theorem carriage_accept (s : Station κ μ) (id : PeerId) {m : Message} (hm : m.body ≠ .ping)
    (now : Nat) : (s.accept id m now).carriage = s.carriage := by
  cases hp : s.engine.readyPeer? id with
  | none => rw [accept_unready hp, carriage_note]
  | some p =>
    cases hl : p.showsLoss m with
    | true => exact carriage_accept_lost hp hl now
    | false =>
      rw [accept_of_ready hp hl]
      exact carriage_act (s.counted id p m) id hm

theorem calls_post (s : Station κ μ) (id : PeerId) (hmay : may body) :
    Calls may s.carriage (s.post id body).carriage := by
  unfold post
  split
  · exact .refl
  · dsimp only
    rw [carriage_removeIfLost]
    exact s.calls_tell _ hmay

/-- Of all messages, only a PING is answered. -/
theorem calls_accept (s : Station κ μ) (id : PeerId) {m : Message}
    (hm : m.body = .ping → may .pingOk) (now : Nat) :
    Calls may s.carriage (s.accept id m now).carriage := by
  by_cases hb : m.body = .ping
  · cases hp : s.engine.readyPeer? id with
    | none =>
      rw [accept_unready hp]
      exact .refl
    | some p =>
      cases hl : p.showsLoss m with
      | true => exact .of_eq (carriage_accept_lost hp hl now)
      | false =>
        rw [accept_of_ready hp hl, act_ping (Engine.readyPeer?_eq_some.mp hp).1 hb]
        exact calls_post (s.counted id p m) id (hm hb)
  · exact .of_eq (carriage_accept s id hb now)

theorem calls_receive (walk : Walk) (s : Station κ μ) (routingId : List UInt8) (frames : Content)
    (now : Nat) (hmay : ∀ h, may (.hello h))
    (hm : ∀ {id m}, (Op.receive routingId frames now).message? id = some m → m.body = .ping →
      may .pingOk) :
    Calls may s.carriage (s.receive walk routingId frames now).carriage := by
  unfold receive
  split
  · exact .refl
  · cases hdecode : Wire.decode frames with
    | error e => exact .refl
    | ok m =>
      cases hid : PeerId.ofRoutingId? routingId with
      | none => exact .refl
      | some id =>
        have hping : m.body = .ping → may .pingOk := by
          refine @hm id m ?_
          rw [Op.message?_receive hid hdecode, if_pos rfl]
        dsimp only
        split
        · rename_i h _
          have hwelcome := calls_welcome walk s id h.endpoint now hmay
          split
          · rename_i u hu
            rw [hu] at hwelcome
            exact hwelcome.trans (calls_accept u id hping now)
          · rename_i u hu
            rw [hu] at hwelcome
            exact hwelcome
        · exact calls_accept s id hping now

theorem calls_reapPeer (now : Nat) (s : Station κ μ) (id : PeerId) (hmay : may .ping) :
    Calls may s.carriage (s.reapPeer now id).carriage := by
  unfold reapPeer
  split
  · exact .refl
  · split
    · exact .of_eq (carriage_remove _ id)
    · split
      · dsimp only
        rw [carriage_removeIfLost]
        split <;> exact s.calls_tell _ hmay
      · exact .refl

/-- Only the watch over silent peers sends PINGs, and only the arrival of a PING is answered. -/
theorem calls_perform (walk : Walk) (s : Station κ μ) (op : Op)
    (hmay : ∀ {body}, body ≠ .ping → body ≠ .pingOk → may body)
    (hreap : ∀ {now}, op = .reap now → may .ping)
    (hm : ∀ {id m}, op.message? id = some m → m.body = .ping → may .pingOk) :
    Calls may s.carriage (s.step walk op).carriage := by
  have hhello : ∀ h, may (.hello h) := fun _ => hmay Body.noConfusion Body.noConfusion
  cases op with
  | setHeader key value =>
    rw [step, perform, setHeader]
    split <;> exact .refl
  | join group =>
    exact calls_join walk s group fun _ => hmay Body.noConfusion Body.noConfusion
  | leave group =>
    exact calls_leave walk s group fun _ => hmay Body.noConfusion Body.noConfusion
  | whisper id content =>
    exact calls_whisper s id content (hmay Body.noConfusion Body.noConfusion)
  | shout group content =>
    exact calls_shout s group content (hmay Body.noConfusion Body.noConfusion)
  | shutdown =>
    rw [step, perform, shutdown]
    split <;> exact .refl
  | discover sighting now =>
    cases sighting with
    | found id endpoint => exact calls_found walk s id endpoint now hhello
    | lost id => exact .of_eq (carriage_lost s id)
  | receive routingId frames now => exact calls_receive walk s routingId frames now hhello hm
  | reap now =>
    rw [step, perform, reap]
    split
    · exact .refl
    · exact Calls.foldl (fun s id => calls_reapPeer now s id (hreap rfl)) _
  | drain => exact .refl

/-- An operation that brings no PING sends no PING_OK. -/
theorem calls_step (walk : Walk) (s : Station κ μ)
    (hm : ∀ {id m}, op.message? id = some m → m.body ≠ .ping) :
    Calls (· ≠ .pingOk) s.carriage (s.step walk op).carriage :=
  calls_perform walk s op (fun _ h => h) (fun _ => Body.noConfusion) fun hmessage hb =>
    absurd hb (hm hmessage)

/-- An operation that does not watch over the silent peers sends no PING. -/
theorem calls_step_of_not_reap (walk : Walk) (s : Station κ μ) (hop : ∀ now, op ≠ .reap now) :
    Calls (· ≠ .ping) s.carriage (s.step walk op).carriage :=
  calls_perform walk s op (fun h _ => h) (fun h => absurd h (hop _)) fun _ _ => Body.noConfusion

end Station
end PeerMesh
