import PeerMesh.Proofs.Station.Soundness
import PeerMesh.Proofs.Wire.Grammar

/-!
# A node is never at a loss for words

Whatever a node has to say has a wire form, as long as its own name and endpoint fit into a HELLO. The
names of groups are checked where the application brings them, and those that peers bring were read
from a message, in which no longer name can stand. So the only failures that are noted are answers of
mailboxes.
-/

namespace PeerMesh
set_option autoImplicit false

/-! ### What was read is short -/

namespace Wire

theorem StringForm.le_limit {s : String} {bytes : List UInt8} (h : StringForm s bytes) :
    s.utf8ByteSize ≤ limit := by
  obtain ⟨n, hn, -⟩ := h
  have hlt : n.toNat < 256 := n.toNat_lt
  rw [length_utf8] at hn
  change s.utf8ByteSize ≤ 255
  omega

theorem EachForm.le_limit {list : List String} {bytes : List UInt8} (h : EachForm list bytes) :
    ∀ s ∈ list, s.utf8ByteSize ≤ limit := by
  induction h with
  | nil => exact List.forall_mem_nil _
  | cons hs _ ih => exact List.forall_mem_cons.mpr ⟨hs.le_limit, ih⟩

end Wire

namespace Body

/-- The groups that the sender says it is in, or was in. -/
def groups : Body → List String
  | .hello h => h.groups
  | .join group _ | .leave group _ => [group]
  | _ => []

/-- Whatever its number, the message can be encoded. -/
def HasForm (body : Body) : Prop := ∀ n, ∃ frames, Wire.encode ⟨n, body⟩ = .ok frames

end Body

theorem Wire.groups_le_of_decode {frames : Content} {m : Message} (h : decode frames = .ok m) :
    ∀ group ∈ m.body.groups, group.utf8ByteSize ≤ limit := by
  cases frames with
  | nil => cases h
  | cons head content =>
    obtain ⟨front, trailing, -, hi, lo, fields, -, hfields, -⟩ := decodeHead_eq_ok.mp h
    cases hb : m.body <;> rw [hb] at hfields <;> cases hfields
    case hello hello hform =>
      obtain ⟨_, _, _, _, -, ⟨_, items, -, -, hitems⟩, -⟩ := hform
      exact hitems.le_limit
    case join hform => exact List.forall_mem_singleton.mpr hform.le_limit
    case leave hform => exact List.forall_mem_singleton.mpr hform.le_limit
    all_goals exact List.forall_mem_nil _

/-! ### Failures -/

section
variable {κ μ : Type} [Carriage κ μ]

/-- A mailbox turns a message of the command away that has a wire form. -/
def Refuses (κ : Type) {μ : Type} [Carriage κ μ] (command : Command) (e : SendError) : Prop :=
  ∃ (c : κ) (box : μ) (m : Message) (frames : Content), m.body.command = command ∧
    Wire.encode m = .ok frames ∧ (Carriage.send c box frames).1 = .error e

/-- If the note is about a failure, then a mailbox answered so. -/
def Note.IsGrounded (κ : Type) {μ : Type} [Carriage κ μ] : Note → Prop
  | .cannotEncode .. => False
  | .rejected _ command e => Refuses κ command e ∧ e.isFatal = false
  | .sendFailed _ _ e => e.isFatal = true
  | .cannotGreet _ _ e => Refuses κ .hello e
  | .memberUnreached _ _ e => Refuses κ .shout e
  | _ => True

variable {body : Body}

theorem Peer.refuses_send (p : Peer μ) (c : κ) (hb : body.HasForm) {e : SendError}
    (h : (p.send c body).result = .error e) : Refuses κ body.command e := by
  have hsend := p.sending_send c body
  generalize p.send c body = step at h hsend
  cases hsend with
  | closed | taken => cases h
  | formless hf =>
    obtain ⟨frames, hframes⟩ := hb (p.sent + 1)
    rw [hframes] at hf
    cases hf
  | @rejected _ box frames e' _ _ hs _ hf | @lost _ box frames e' _ _ hs _ hf =>
    cases h
    exact ⟨c, box, _, frames, rfl, hf, congrArg Prod.fst hs⟩

theorem Peer.grounded_disconnectNotes (p : Peer μ) :
    ∀ note ∈ p.disconnectNotes, note.IsGrounded κ := by
  unfold disconnectNotes
  split
  · exact List.forall_mem_singleton.mpr trivial
  · exact List.forall_mem_nil _

theorem Peer.grounded_send (p : Peer μ) (c : κ) (hb : body.HasForm) :
    ∀ note ∈ (p.send c body).notes, note.IsGrounded κ := by
  obtain ⟨frames, hframes⟩ := hb (p.sent + 1)
  unfold send
  split
  · exact List.forall_mem_nil _
  · rename_i box hbox
    dsimp only
    rw [hframes]
    dsimp only
    split
    · exact List.forall_mem_singleton.mpr trivial
    · rename_i e c' hs
      split
      · rename_i hfatal
        refine List.forall_mem_cons.mpr ⟨trivial, List.forall_mem_cons.mpr ⟨hfatal, ?_⟩⟩
        exact p.grounded_disconnectNotes
      · rename_i hkept
        refine List.forall_mem_cons.mpr ⟨trivial, List.forall_mem_singleton.mpr ⟨?_, ?_⟩⟩
        · exact ⟨c, box, _, frames, rfl, hframes, congrArg Prod.fst hs⟩
        · exact Bool.eq_false_iff.mpr hkept

/-- The one note that no mailbox answers for stands for a message without a wire form. -/
theorem Peer.cannotEncode_mem_send (p : Peer μ) (c : κ) (body : Body) (e : Wire.EncodeError) :
    .cannotEncode p.id body.command e ∈ (p.send c body).notes ↔
      p.isConnected = true ∧ Wire.encode ⟨p.sent + 1, body⟩ = .error e := by
  unfold send isConnected
  cases p.mailbox with
  | none => simp
  | some box =>
    dsimp only
    cases Wire.encode ⟨p.sent + 1, body⟩ with
    | error e' => simp [eq_comm]
    | ok frames =>
      dsimp only
      split
      · simp
      · split
        · simp [disconnectNotes]
        · simp

theorem Roster.grounded_sendEach {onError : PeerId → SendError → List Note} (hb : body.HasForm)
    (hnotes : ∀ id e, Refuses κ body.command e → ∀ note ∈ onError id e, note.IsGrounded κ)
    (ids : List PeerId) (roster : Roster μ) (c : κ) :
    ∀ note ∈ (sendEach onError body ids roster c).notes, note.IsGrounded κ := by
  induction ids generalizing roster c with
  | nil => exact List.forall_mem_nil _
  | cons id ids ih =>
    rw [sendEach]
    split
    · exact ih roster c
    · rename_i p hp
      have hrest := ih (roster.insert id (p.send c body).peer) (p.send c body).carriage
      have hsend := p.grounded_send c hb
      dsimp only
      split
      · exact List.forall_mem_append.mpr ⟨hsend, hrest⟩
      · rename_i e he
        have herror := hnotes id e (p.refuses_send c hb he)
        exact List.forall_mem_append.mpr ⟨List.forall_mem_append.mpr ⟨hsend, herror⟩, hrest⟩

end

/-! ### Fluent stations -/

namespace Engine
variable {μ : Type}

/-- What the engine may have to say next. -/
inductive Utters (e : Engine μ) : Body → Prop
  | hello : Utters e (.hello e.hello)
  | whisper (content : Content) : Utters e (.whisper content)
  | shout {group} (content : Content) (h : e.peerGroups.contains group = true) :
    Utters e (.shout group content)
  | join {group} (status : UInt8) (h : checkGroup e.joined.size group = .ok ()) :
    Utters e (.join group status)
  | leave {group} (status : UInt8) (h : e.joined.contains group = true) :
    Utters e (.leave group status)
  | ping : Utters e .ping
  | pingOk : Utters e .pingOk

/-- Every name that goes out with a message is short enough. -/
structure Eloquent (e : Engine μ) : Prop where
  name : e.name.utf8ByteSize ≤ Wire.limit
  endpoint : e.endpoint.utf8ByteSize ≤ Wire.limit
  presentable : e.Presentable
  groups : ∀ {group}, e.peerGroups.contains group = true → group.utf8ByteSize ≤ Wire.limit

namespace Eloquent
variable {e e' : Engine μ}

theorem congr (h : e.Eloquent) (hn : e'.name = e.name) (hep : e'.endpoint = e.endpoint)
    (hj : e'.joined = e.joined) (hh : e'.headers = e.headers)
    (hg : ∀ {group}, e'.peerGroups.contains group = true → e.peerGroups.contains group = true) :
    e'.Eloquent where
  name := hn ▸ h.name
  endpoint := hep ▸ h.endpoint
  presentable := h.presentable.congr hj hh
  groups hgroup := h.groups (hg hgroup)

theorem hasForm (h : e.Eloquent) {body : Body} (hb : e.Utters body) : body.HasForm := by
  intro n
  cases hb with
  | hello =>
    refine Wire.encode_hello h.endpoint h.name ?_ ?_ h.presentable.headers_size
      h.presentable.headers_fit n
    · rw [Engine.hello, SortedSet.toList, SortedMap.keys, List.length_map]
      exact h.presentable.joined_size
    · exact fun group hmem => h.presentable.joined_bytes (SortedSet.mem_toList.mp hmem)
  | join status hok => exact Wire.encode_join (checkGroup_eq_ok.mp hok).1 n status
  | leave status hold => exact Wire.encode_leave (h.presentable.joined_bytes hold) n status
  | shout content hgroup =>
    simp only [Wire.encode, Wire.encodeHead, Wire.ofFields,
      Wire.ofString_of_le .group (h.groups hgroup)]
    exact ⟨_, rfl⟩
  | whisper | ping | pingOk => exact ⟨_, rfl⟩

theorem editPeer (h : e.Eloquent) (id : PeerId) (f : Peer μ → Peer μ) :
    (e.editPeer id f).Eloquent := by
  unfold Engine.editPeer
  split
  · exact h.congr rfl rfl rfl rfl fun hg => hg
  · exact h

theorem contains_of_filterMap {groups : SortedMap String Group} {f : String → Group → Option Group}
    {group : String} (h : (groups.filterMap f).contains group = true) :
    groups.contains group = true := by
  obtain ⟨g, hg⟩ := SortedMap.contains_eq_true.mp h
  rw [SortedMap.get?_filterMap, Option.bind_eq_some_iff] at hg
  obtain ⟨old, hold, -⟩ := hg
  exact SortedMap.contains_eq_true.mpr ⟨old, hold⟩

theorem forget (h : e.Eloquent) (id : PeerId) : (e.forget id).Eloquent :=
  h.congr rfl rfl rfl rfl contains_of_filterMap

theorem withdraw (h : e.Eloquent) (id : PeerId) (group : String) : (e.withdraw id group).Eloquent :=
  h.congr rfl rfl rfl rfl contains_of_filterMap

theorem enrol (h : e.Eloquent) (id : PeerId) {group : String}
    (hgroup : group.utf8ByteSize ≤ Wire.limit) : (e.enrol id group).Eloquent where
  name := h.name
  endpoint := h.endpoint
  presentable := h.presentable.congr rfl rfl
  groups {other} hother := by
    rw [Engine.enrol, SortedMap.contains, SortedMap.get?_insert] at hother
    split at hother
    · rename_i heq
      rw [heq]
      exact hgroup
    · exact h.groups hother

theorem new (id : PeerId) {name endpoint : String} (hname : name.utf8ByteSize ≤ Wire.limit)
    (hendpoint : endpoint.utf8ByteSize ≤ Wire.limit) (timing : Timing) :
    (Engine.new id name endpoint timing : Engine μ).Eloquent where
  name := hname
  endpoint := hendpoint
  presentable := (Engine.sound_new id name endpoint timing).presentable
  groups h := by cases h

end Eloquent
end Engine

namespace Station

/-- The engine never lacks words, and no failure was noted but those of mailboxes. -/
structure Fluent {κ μ : Type} [Carriage κ μ] (s : Station κ μ) : Prop where
  engine : s.engine.Eloquent
  journal : ∀ note ∈ s.journal.toList, note.IsGrounded κ

namespace Fluent
variable {κ μ : Type} [Carriage κ μ] {s : Station κ μ} {id : PeerId} {p : Peer μ} {body : Body}

theorem note (h : s.Fluent) {notes : List Note} (hn : ∀ note ∈ notes, note.IsGrounded κ) :
    (s.note notes).Fluent := by
  refine ⟨h.engine, ?_⟩
  have hjournal : (s.note notes).journal.toList = s.journal.toList ++ notes := by
    simp [Station.note]
  rw [hjournal, List.forall_mem_append]
  exact ⟨h.journal, hn⟩

/-- A note about no failure. -/
theorem jot (h : s.Fluent) {note : Note} (hn : note.IsGrounded κ) : (s.note [note]).Fluent :=
  h.note (List.forall_mem_singleton.mpr hn)

theorem edit (h : s.Fluent) {f : Engine μ → Engine μ} (hf : (f s.engine).Eloquent) :
    (s.edit f).Fluent :=
  ⟨hf, h.journal⟩

theorem withCarriage (h : s.Fluent) (c : κ) : Fluent { s with carriage := c } := ⟨h.engine, h.journal⟩

theorem emit (h : s.Fluent) (events : List Event) : (s.emit events).Fluent :=
  h.edit (h.engine.congr rfl rfl rfl rfl fun hg => hg)

theorem editPeer (h : s.Fluent) (id : PeerId) (f : Peer μ → Peer μ) :
    (s.edit (·.editPeer id f)).Fluent :=
  h.edit (h.engine.editPeer id f)

theorem foldl {α : Type} {f : Station κ μ → α → Station κ μ} {l : List α} (h : s.Fluent)
    (hf : ∀ {s : Station κ μ}, s.Fluent → ∀ a ∈ l, (f s a).Fluent) : (l.foldl f s).Fluent := by
  induction l generalizing s with
  | nil => exact h
  | cons a l ih =>
    exact ih (hf h a List.mem_cons_self) fun h b hb => hf h b (List.mem_cons_of_mem a hb)

theorem remove (h : s.Fluent) (id : PeerId) : (s.remove id).Fluent := by
  unfold Station.remove
  split
  · exact h
  · rename_i p hp
    have hgone := (h.edit (f := (·.forget id)) (h.engine.forget id)).note p.grounded_disconnectNotes
    dsimp only
    split
    · exact hgone
    · exact (hgone.jot (by trivial)).emit _

theorem removeIfLost (h : s.Fluent) (id : PeerId) (result : SendResult) :
    (s.removeIfLost id result).Fluent := by
  unfold Station.removeIfLost
  split
  · exact h.remove id
  · exact h

theorem tell (h : s.Fluent) (p : Peer μ) (hb : body.HasForm) : (s.tell p body).2.Fluent := by
  refine note (edit (h.withCarriage _) ?_) (p.grounded_send s.carriage hb)
  exact h.engine.congr rfl rfl rfl rfl fun hg => hg

/-- Sending to many and dropping those that were lost. -/
theorem sendEach (h : s.Fluent) {onError : PeerId → SendError → List Note} (hb : body.HasForm)
    (hnotes : ∀ id e, Refuses κ body.command e → ∀ note ∈ onError id e, note.IsGrounded κ)
    (ids : List PeerId) :
    let sent := Roster.sendEach onError body ids s.engine.roster s.carriage
    Fluent (sent.failed.foldl Station.remove
      ({ s with carriage := sent.carriage }.edit (fun e => { e with roster := sent.roster })
        |>.note sent.notes)) := by
  refine foldl (note (edit (h.withCarriage _) ?_) ?_) fun h id _ => h.remove id
  · exact h.engine.congr rfl rfl rfl rfl fun hg => hg
  · exact Roster.grounded_sendEach hb hnotes ids _ _

theorem broadcast (h : s.Fluent) (walk : Walk) (hb : body.HasForm) : (s.broadcast walk body).Fluent :=
  h.sendEach hb (fun _ _ _ => List.forall_mem_nil _) _

/-! ### Commands -/

theorem setHeader (h : s.Fluent) (key value : String) : (s.setHeader key value).2.Fluent := by
  unfold Station.setHeader
  split <;> dsimp only
  · exact h
  · rename_i hok
    refine h.edit ?_
    exact ⟨h.engine.name, h.engine.endpoint, h.engine.presentable.dress hok, h.engine.groups⟩

theorem join (h : s.Fluent) (walk : Walk) (group : String) : (s.join walk group).2.Fluent := by
  unfold Station.join
  split
  · exact h
  · split
    · exact h
    · rename_i hok
      refine broadcast (jot (h.edit ?_) (by trivial)) walk (h.engine.hasForm (.join _ hok))
      exact ⟨h.engine.name, h.engine.endpoint, h.engine.presentable.enlist hok, h.engine.groups⟩

theorem leave (h : s.Fluent) (walk : Walk) (group : String) : (s.leave walk group).Fluent := by
  unfold Station.leave
  split
  · rename_i hold
    refine broadcast (jot (h.edit ?_) (by trivial)) walk (h.engine.hasForm (.leave _ hold))
    exact ⟨h.engine.name, h.engine.endpoint, h.engine.presentable.delist group, h.engine.groups⟩
  · exact h

theorem whisper (h : s.Fluent) (id : PeerId) (content : Content) : (s.whisper id content).Fluent := by
  unfold Station.whisper
  split
  · exact h.jot (by trivial)
  · exact (h.tell _ (h.engine.hasForm (.whisper content))).removeIfLost id _

theorem shout (h : s.Fluent) (group : String) (content : Content) :
    (s.shout group content).Fluent := by
  unfold Station.shout
  split
  · exact h.jot (by trivial)
  · rename_i g hg
    have hknown := SortedMap.contains_eq_true.mpr ⟨g, hg⟩
    exact h.sendEach (h.engine.hasForm (.shout content hknown))
      (fun _ _ hrefused => List.forall_mem_singleton.mpr (by exact hrefused)) _

theorem shutdown (h : s.Fluent) (walk : Walk) : (s.shutdown walk).Fluent := by
  unfold Station.shutdown
  split
  · exact h
  · refine emit (edit (h.note (List.forall_mem_cons.mpr ⟨by trivial, fun note hnote => ?_⟩)) ?_) _
    · obtain ⟨id, -, hnote⟩ := List.mem_flatMap.mp hnote
      split at hnote
      · exact Peer.grounded_disconnectNotes _ note hnote
      · cases hnote
    · exact h.engine.congr rfl rfl rfl rfl fun hg => by cases hg

/-! ### Meeting peers -/

theorem purge (h : s.Fluent) (walk : Walk) (endpoint : String) : (s.purge walk endpoint).Fluent :=
  h.foldl fun h id _ => (h.jot (by trivial)).remove id

theorem meet (h : s.Fluent) (id : PeerId) (endpoint : String) (now : Nat) :
    (s.meet id endpoint now).2.Fluent := by
  rcases hc : Carriage.connect s.carriage s.engine.id.routingId endpoint with ⟨e | box, c⟩
  · rw [meet_of_error hc]
    exact ((h.withCarriage c).note (List.forall_mem_nil _)).jot (by trivial)
  · rw [meet_of_ok hc]
    have hopened : Fluent ({ s with carriage := c }.note [.mailboxOpened id endpoint]) :=
      (h.withCarriage c).jot (by trivial)
    have hgreeted := (Peer.reached id box endpoint now).grounded_send c (h.engine.hasForm .hello)
    unfold greet
    dsimp only
    split <;> dsimp only
    · rename_i e he
      have hrefused := (Peer.reached id box endpoint now).refuses_send c (h.engine.hasForm .hello) he
      exact ((hopened.withCarriage _).note hgreeted).jot hrefused
    · refine edit ((hopened.withCarriage _).note hgreeted) ?_
      exact h.engine.congr rfl rfl rfl rfl fun hg => hg

theorem require (h : s.Fluent) (walk : Walk) (id : PeerId) (endpoint : String) (now : Nat) :
    (s.require walk id endpoint now).2.Fluent := by
  unfold Station.require
  split
  · exact h
  · split
    · exact h
    · exact (h.purge walk endpoint).meet id endpoint now

theorem found (h : s.Fluent) (walk : Walk) (id : PeerId) (endpoint : String) (now : Nat) :
    (s.found walk id endpoint now).Fluent := by
  have hreq := h.require walk id endpoint now
  unfold Station.found
  split
  · exact h
  · split <;> rename_i u hu <;> rw [hu] at hreq
    · exact hreq.editPeer id _
    · exact hreq

theorem lost (h : s.Fluent) (id : PeerId) : (s.lost id).Fluent := by
  unfold Station.lost
  split
  · exact h
  · exact (h.jot (by trivial)).remove id

/-! ### Messages from peers -/

theorem peerJoined (h : s.Fluent) (id : PeerId) {group : String}
    (hgroup : group.utf8ByteSize ≤ Wire.limit) : (s.peerJoined id group).Fluent :=
  ((h.edit (h.engine.enrol id hgroup)).jot (by trivial)).emit _

theorem peerLeft (h : s.Fluent) (id : PeerId) (group : String) : (s.peerLeft id group).Fluent :=
  ((h.edit (h.engine.withdraw id group)).jot (by trivial)).emit _

theorem followStatus (h : s.Fluent) (id : PeerId) (command : Command) (status : UInt8) :
    (s.followStatus id command status).Fluent := by
  unfold Station.followStatus
  split
  · exact h
  · dsimp only
    split
    · exact h.editPeer id _
    · exact (h.jot (by trivial)).editPeer id _

theorem introduced (h : s.Fluent) (id : PeerId) {hello : Hello}
    (hgroups : ∀ group ∈ hello.groups, group.utf8ByteSize ≤ Wire.limit) :
    (s.introduced id hello).Fluent := by
  unfold Station.introduced
  split
  · exact h
  · refine editPeer (foldl (emit (jot (h.editPeer id _) (by trivial)) _) fun h group hmem => ?_) id _
    exact h.peerJoined id (hgroups group hmem)

theorem act (h : s.Fluent) (id : PeerId)
    (hgroups : ∀ group ∈ body.groups, group.utf8ByteSize ≤ Wire.limit) : (s.act id body).Fluent := by
  cases body with
  | hello hello => exact h.introduced id hgroups
  | whisper content => exact h.emit _
  | shout group content => exact h.emit _
  | join group status =>
    exact (h.peerJoined id (hgroups group List.mem_cons_self)).followStatus id .join status
  | leave group status => exact (h.peerLeft id group).followStatus id .leave status
  | ping =>
    rw [Station.act]
    split
    · exact h
    · exact (h.tell _ (h.engine.hasForm .pingOk)).removeIfLost id _
  | pingOk => exact h

theorem accept (h : s.Fluent) (id : PeerId) {m : Message}
    (hgroups : ∀ group ∈ m.body.groups, group.utf8ByteSize ≤ Wire.limit) (now : Nat) :
    (s.accept id m now).Fluent := by
  unfold Station.accept
  split
  · exact h.jot (by trivial)
  · rename_i p hp
    have hnotes : ∀ note ∈ p.receiveNotes m, note.IsGrounded κ := by
      refine List.forall_mem_cons.mpr ⟨trivial, ?_⟩
      split
      · exact List.forall_mem_singleton.mpr trivial
      · exact List.forall_mem_nil _
    have hcounted := (h.editPeer id (·.advance m)).note hnotes
    dsimp only
    split
    · exact (hcounted.jot (by trivial)).remove id
    · exact (hcounted.act id hgroups).editPeer id _

theorem welcome (h : s.Fluent) (walk : Walk) (id : PeerId) (endpoint : String) (now : Nat) :
    (s.welcome walk id endpoint now).2.Fluent := by
  have hfirst : (if (s.engine.readyPeer? id).isSome then (s.note [.greetedAgain id]).remove id
      else s).Fluent := by
    split
    · exact (h.jot (by trivial)).remove id
    · exact h
  unfold Station.welcome
  dsimp only
  generalize (if (s.engine.readyPeer? id).isSome then (s.note [.greetedAgain id]).remove id
    else s) = u at hfirst ⊢
  have hreq := hfirst.require walk id endpoint now
  split <;> rename_i v hv <;> rw [hv] at hreq
  · exact hreq.editPeer id _
  · exact hreq

theorem receive (h : s.Fluent) (walk : Walk) (routingId : List UInt8) (frames : Content) (now : Nat) :
    (s.receive walk routingId frames now).Fluent := by
  unfold Station.receive
  split
  · exact h
  · split
    · exact h.jot (by trivial)
    · rename_i m hm
      have hgroups := Wire.groups_le_of_decode hm
      split
      · exact h.jot (by trivial)
      · rename_i id hid
        split
        · rename_i hello hb
          have hwelcome := h.welcome walk id hello.endpoint now
          split <;> rename_i v hv <;> rw [hv] at hwelcome
          · exact hwelcome.accept id hgroups now
          · exact hwelcome
        · exact h.accept id hgroups now

/-! ### Silence -/

theorem reapPeer (h : s.Fluent) (now : Nat) (id : PeerId) : (s.reapPeer now id).Fluent := by
  unfold Station.reapPeer
  split
  · exact h
  · rename_i p hp
    split
    · exact (h.jot (by trivial)).remove id
    · split
      · have hpinged := h.tell { p with evasive := true } (h.engine.hasForm .ping)
        dsimp only
        split
        · exact ((hpinged.jot (by trivial)).emit _).removeIfLost id _
        · exact hpinged.removeIfLost id _
      · exact h

theorem reap (h : s.Fluent) (walk : Walk) (now : Nat) : (s.reap walk now).Fluent := by
  unfold Station.reap
  split
  · exact h
  · exact h.foldl fun h id _ => h.reapPeer now id

/-! ### Runs -/

theorem step (h : s.Fluent) (walk : Walk) (op : Op) : (s.step walk op).Fluent := by
  cases op with
  | setHeader key value => exact h.setHeader key value
  | join group => exact h.join walk group
  | leave group => exact h.leave walk group
  | whisper id content => exact h.whisper id content
  | shout group content => exact h.shout group content
  | shutdown => exact h.shutdown walk
  | discover sighting now =>
    cases sighting with
    | found id endpoint => exact h.found walk id endpoint now
    | lost id => exact h.lost id
  | receive routingId frames now => exact h.receive walk routingId frames now
  | reap now => exact h.reap walk now
  | drain => exact ⟨h.engine.congr rfl rfl rfl rfl fun hg => hg, h.journal⟩

theorem run (h : s.Fluent) (turns : List (Turn κ)) : (s.run turns).Fluent := by
  induction turns generalizing s with
  | nil => exact h
  | cons x turns ih => exact ih ((h.withCarriage x.carriage).step x.walk x.op)

theorem new (id : PeerId) {name endpoint : String} (hname : name.utf8ByteSize ≤ Wire.limit)
    (hendpoint : endpoint.utf8ByteSize ≤ Wire.limit) (timing : Timing) (carriage : κ) :
    (Station.new (Engine.new id name endpoint timing : Engine μ) carriage).Fluent :=
  ⟨.new id hname hendpoint timing, List.forall_mem_nil _⟩

end Fluent
end Station
end PeerMesh
