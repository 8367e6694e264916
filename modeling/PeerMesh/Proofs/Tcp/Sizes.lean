import PeerMesh.Proofs.Station.Fluent
import PeerMesh.Proofs.Tcp.Streams

/-!
# What is too large for a stream

A mailbox over TCP turns a message away that has too many frames or too long a frame. The head frame
is never the reason, so only content is, and only WHISPER and SHOUT have some. Turning a message away
changes nothing else: the peer stays, and the next message has the number that this one would have had.
-/

namespace PeerMesh
set_option autoImplicit false

/-! ### Head frames are short -/

namespace Wire

theorem length_ofString_le (field : Field) {s : String} (h : s.utf8ByteSize ≤ limit) :
    (Segment.ofString field s).bytes.length ≤ 256 := by
  rw [Segment.ofString, List.length_cons, length_utf8]
  exact Nat.succ_le_succ h

theorem length_ofEach_le (field : Field) {list : List String}
    (h : ∀ s ∈ list, s.utf8ByteSize ≤ limit) :
    (Layout.bytes (list.map (.ofString field))).length ≤ 256 * list.length := by
  induction list with
  | nil => exact Nat.le_refl 0
  | cons s list ih =>
    obtain ⟨hs, hlist⟩ := List.forall_mem_cons.mp h
    have hfirst := length_ofString_le field hs
    have hrest := ih hlist
    rw [List.map_cons, Layout.bytes_cons, List.length_append, List.length_cons]
    omega

theorem length_ofStrings_le (field : Field) {list : List String} (hn : list.length ≤ limit)
    (h : ∀ s ∈ list, s.utf8ByteSize ≤ limit) :
    (Layout.ofStrings field list).bytes.length ≤ 65281 := by
  have hlength := length_ofEach_le field h
  change list.length ≤ 255 at hn
  rw [Layout.bytes_ofStrings, List.length_cons]
  omega

/-- A HELLO of 255 groups and 255 headers of full length is the longest. -/
theorem length_ofBody_le {body : Body} {entries : List (String × String)}
    (h : body.WithinLimits entries) : (Layout.ofBody entries body).bytes.length ≤ 131075 := by
  cases body with
  | hello hello =>
    have h₁ := length_ofString_le .endpoint h.endpoint
    have h₂ := length_ofStrings_le .groups h.groups h.group
    have h₃ := length_ofString_le .name h.name
    have h₄ := length_ofStrings_le .headers (by rw [List.length_map]; exact h.headers)
      (List.forall_mem_map.mpr h.header)
    simp only [Layout.ofBody, Layout.bytes_cons, Layout.bytes_append, List.length_append,
      List.length_singleton]
    omega
  | shout group content | join group status | leave group status =>
    have hlength := length_ofString_le .group h
    simp only [Layout.ofBody, Layout.bytes_cons, List.length_append, List.length_singleton]
    exact Nat.le_trans (Nat.add_le_add_right hlength _) (by decide)
  | whisper content | ping | pingOk => exact Nat.zero_le _

theorem length_ofMessage_le {m : Message} {entries : List (String × String)}
    (h : m.body.WithinLimits entries) : (Layout.ofMessage m entries).bytes.length ≤ 131081 := by
  have hlength := length_ofBody_le h
  have hpreamble : (preamble m).length = 6 := rfl
  rw [Layout.bytes_ofMessage, List.length_append, hpreamble]
  omega

end Wire

/-! ### The size test -/

/-- Content that is too much for a stream: beside the head frame there is room for 1023 frames, of
16 MiB each. -/
def IsOversized (content : Content) : Prop :=
  1023 < content.length ∨ ∃ frame ∈ content, 16777216 < frame.size

namespace Tcp

/-- Only content makes a message too large. -/
theorem isSome_sizeError?_encode {m : Message} {frames : Content} (h : Wire.encode m = .ok frames) :
    (sizeError? frames).isSome = true ↔ IsOversized (Wire.contentFrames m.body) := by
  obtain ⟨hlimits, rfl⟩ := Wire.encode_eq_ok.mp h
  have hlength := Wire.length_ofMessage_le hlimits
  generalize (Wire.Layout.ofMessage m m.body.entries).bytes = head at hlength
  have hsize : (⟨head.toArray⟩ : ByteArray).size = head.length := List.size_toArray
  rw [isSome_sizeError?, IsOversized, List.length_cons, Nat.succ_lt_succ_iff]
  refine or_congr_right ?_
  simp only [List.mem_cons, exists_eq_or_imp]
  refine or_iff_right ?_
  omega

theorem not_isOversized_nil : ¬ IsOversized [] := by
  rintro (h | ⟨_, h, -⟩)
  · cases h
  · cases h

theorem contentFrames_eq_nil {body : Body} (hw : body.command ≠ .whisper)
    (hs : body.command ≠ .shout) : Wire.contentFrames body = [] := by
  cases body with
  | whisper => exact absurd rfl hw
  | shout => exact absurd rfl hs
  | _ => rfl

/-- All messages but WHISPER and SHOUT pass the size test. -/
theorem sizeError?_encode {m : Message} {frames : Content} (h : Wire.encode m = .ok frames)
    (hw : m.body.command ≠ .whisper) (hs : m.body.command ≠ .shout) : sizeError? frames = none := by
  rw [← Option.not_isSome_iff_eq_none, isSome_sizeError?_encode h, contentFrames_eq_nil hw hs]
  exact not_isOversized_nil

theorem Link.send_of_oversized (l : Link) {frames : Content}
    (h : (sizeError? frames).isSome = true) : l.send frames = (.error .oversized, l) := by
  rw [Link.send, if_pos h]

theorem Link.error_send {l : Link} {frames : Content} {e : SendError}
    (h : (l.send frames).1 = .error e) :
    e = .oversized ∧ (sizeError? frames).isSome = true ∨ e.isFatal = true := by
  have hsend := l.sending frames
  generalize l.send frames = r at hsend h
  cases hsend with
  | oversized hsize =>
    cases h
    exact .inl ⟨rfl, isSome_sizeError?_iff_not_framable.mpr hsize⟩
  | refused hsize he =>
    cases h
    exact .inr he
  | taken => cases h

namespace Exchange
variable {x : Exchange} {box : Mailbox} {l : Link} {frames : Content} {e : SendError}

theorem send_of_oversized (hl : x.links[box.number]? = some l)
    (h : (sizeError? frames).isSome = true) :
    Carriage.send x box frames = (.error .oversized, x) := by
  have hsame : x.edit box (fun _ => l) = x := by
    obtain ⟨hlt, hget⟩ := List.getElem?_eq_some_iff.mp hl
    have hlinks : (x.edit box fun _ => l).links = x.links := by
      rw [links_edit hl, ← hget, List.set_getElem_self hlt]
    exact congrArg (fun links => { x with links }) hlinks
  change x.send box frames = _
  rw [send, hl]
  dsimp only
  rw [l.send_of_oversized h, hsame]

theorem error_send (h : (Carriage.send x box frames).1 = .error e) :
    e = .oversized ∧ (sizeError? frames).isSome = true ∨ e.isFatal = true := by
  change (x.send box frames).1 = _ at h
  unfold send at h
  split at h
  · cases h
    exact .inr rfl
  · exact Link.error_send h

end Exchange
end Tcp

open Tcp (Exchange Link Mailbox)

theorem Refuses.oversized_or_fatal {command : Command} {e : SendError}
    (h : Refuses Exchange command e) :
    e = .oversized ∧ (command = .whisper ∨ command = .shout) ∨ e.isFatal = true := by
  obtain ⟨x, box, m, frames, rfl, hf, hs⟩ := h
  rcases Exchange.error_send hs with ⟨rfl, hsize⟩ | hfatal
  · refine .inl ⟨rfl, ?_⟩
    by_contra hother
    obtain ⟨hw, hs⟩ := not_or.mp hother
    rw [Tcp.sizeError?_encode hf hw hs] at hsize
    cases hsize
  · exact .inr hfatal

/-- Of failures there are two kinds: a peer is out of reach, or content is too large. -/
def Note.IsOverTcp : Note → Prop
  | .cannotEncode .. => False
  | .rejected _ command e => e = .oversized ∧ (command = .whisper ∨ command = .shout)
  | .sendFailed _ _ e | .cannotGreet _ _ e => e.isFatal = true
  | .memberUnreached _ _ e => e = .oversized ∨ e.isFatal = true
  | _ => True

theorem Note.IsGrounded.overTcp {note : Note} (h : note.IsGrounded Exchange) : note.IsOverTcp := by
  cases note with
  | cannotEncode => exact h
  | rejected peer command e =>
    rcases h.1.oversized_or_fatal with hsize | hfatal
    · exact hsize
    · rw [h.2] at hfatal
      cases hfatal
  | sendFailed => exact h
  | cannotGreet peer endpoint e =>
    rcases Refuses.oversized_or_fatal h with ⟨-, hw | hs⟩ | hfatal
    · cases hw
    · cases hs
    · exact hfatal
  | memberUnreached group peer e => exact (Refuses.oversized_or_fatal h).imp And.left id
  | _ => trivial

/-! ### Sending over TCP -/

namespace Peer
variable {p : Peer Mailbox} {x : Exchange} {box : Mailbox} {l : Link} {body : Body}

theorem send_eq_oversized (hb : p.mailbox = some box) (hl : x.links[box.number]? = some l)
    (hform : body.HasForm) : (p.send x body).result = .error .oversized ↔
      IsOversized (Wire.contentFrames body) := by
  obtain ⟨frames, hframes⟩ := hform (p.sent + 1)
  have hsize := Tcp.isSome_sizeError?_encode hframes
  have hsend := p.sending_send x body
  generalize p.send x body = step at hsend ⊢
  cases hsend with
  | closed hnone =>
    rw [hb] at hnone
    cases hnone
  | formless hf =>
    rw [hframes] at hf
    cases hf
  | @taken _ box' frames' x' hb' hf hs =>
    obtain rfl := Option.some.inj (hb.symm.trans hb')
    obtain rfl := Except.ok.inj (hframes.symm.trans hf)
    refine iff_of_false (fun h => by cases h) fun hover => ?_
    rw [Exchange.send_of_oversized hl (hsize.mpr hover)] at hs
    cases hs
  | @rejected _ box' frames' e x' hb' hs he hf | @lost _ box' frames' e x' hb' hs he hf =>
    obtain rfl := Option.some.inj (hb.symm.trans hb')
    obtain rfl := Except.ok.inj (hframes.symm.trans hf)
    constructor
    · intro h
      obtain rfl := Except.error.inj h
      rcases Exchange.error_send (congrArg Prod.fst hs) with ⟨-, hover⟩ | hfatal
      · exact hsize.mp hover
      · cases hfatal
    · intro hover
      rw [Exchange.send_of_oversized hl (hsize.mpr hover)] at hs
      cases hs
      rfl

end Peer

namespace Station
variable {s : Station Exchange Mailbox} {body : Body}

/-- Content that is too large is as good as not sent. -/
theorem Enumerates.post_of_oversized (h : s.Enumerates) (hs : s.engine.Sound) (id : PeerId)
    (hover : IsOversized (Wire.contentFrames body)) :
    (s.post id body).engine = s.engine ∧ (s.post id body).carriage = s.carriage := by
  have hposted := s.posted_post id body fun _ => hs.filed
  generalize s.post id body = t at hposted ⊢
  have hrefused : ∀ {p box frames answer}, s.engine.roster.get? id = some p → p.mailbox = some box →
      Wire.encode ⟨p.sent + 1, body⟩ = .ok frames →
      Carriage.send s.carriage box frames = (answer, t.carriage) →
      answer = .error .oversized ∧ t.carriage = s.carriage := by
    intro p box frames answer hp hb hf hsend
    obtain ⟨l, hl, -⟩ := h.sent hp hb
    rw [Exchange.send_of_oversized hl ((Tcp.isSome_sizeError?_encode hf).mpr hover)] at hsend
    obtain ⟨hanswer, hsame⟩ := Prod.mk.inj hsend
    exact ⟨hanswer.symm, hsame.symm⟩
  cases hposted with
  | unmoved _ he hc => exact ⟨he, hc⟩
  | taken hp hb hf hsend => cases (hrefused hp hb hf hsend).1
  | rejected hp hb hsend _ he hf => exact ⟨he, (hrefused hp hb hf hsend).2⟩
  | lost hp hb hsend hfatal _ hf =>
    cases (hrefused hp hb hf hsend).1
    cases hfatal

theorem Enumerates.posts_of_oversized (h : s.Enumerates) (hs : s.engine.Sound) (ids : List PeerId)
    (hover : IsOversized (Wire.contentFrames body)) :
    (s.posts body ids).engine = s.engine ∧ (s.posts body ids).carriage = s.carriage := by
  induction ids generalizing s with
  | nil => exact ⟨rfl, rfl⟩
  | cons id ids ih =>
    obtain ⟨he, hc⟩ := h.post_of_oversized hs id hover
    have hrest := ih (h.of_same he (congrArg Exchange.links hc)) (he ▸ hs)
    exact ⟨hrest.1.trans he, hrest.2.trans hc⟩

theorem Enumerates.whisper_of_oversized (h : s.Enumerates) (hs : s.engine.Sound) (id : PeerId)
    {content : Content} (hover : IsOversized content) :
    (s.whisper id content).engine = s.engine ∧ (s.whisper id content).carriage = s.carriage := by
  cases hp : s.engine.roster.get? id with
  | none =>
    rw [whisper, hp]
    exact ⟨rfl, rfl⟩
  | some p =>
    rw [whisper_eq_post hp]
    exact h.post_of_oversized hs id hover

theorem Enumerates.shout_of_oversized (h : s.Enumerates) (hs : s.engine.Sound) (group : String)
    {content : Content} (hover : IsOversized content) :
    (s.shout group content).engine = s.engine ∧ (s.shout group content).carriage = s.carriage := by
  cases hg : s.engine.peerGroups.get? group with
  | none =>
    rw [shout, hg]
    exact ⟨rfl, rfl⟩
  | some g =>
    obtain ⟨hengine, hcarriage⟩ := shout_eq_posts hs hg content
    have hover' : IsOversized (Wire.contentFrames (.shout group content)) := hover
    obtain ⟨he, hc⟩ := h.posts_of_oversized hs g.members.toList hover'
    exact ⟨hengine.trans he, hcarriage.trans hc⟩

/-! ### Runs over TCP -/

/-- The node does something, or the writer of one of its mailboxes does. -/
inductive Deed
  | perform (walk : Walk) (op : Op)
  | write (i : Nat) (act : Link.Act)

def deed (s : Station Exchange Mailbox) : Deed → Station Exchange Mailbox
  | .perform walk op => s.step walk op
  | .write i act => { s with carriage := s.carriage.edit ⟨i⟩ (·.act act) }

def deeds (s : Station Exchange Mailbox) (l : List Deed) : Station Exchange Mailbox := l.foldl deed s

structure Streaming (s : Station Exchange Mailbox) : Prop where
  sound : s.engine.Sound
  enumerates : s.Enumerates
  fluent : s.Fluent

namespace Streaming

theorem deed (h : s.Streaming) (d : Deed) : (s.deed d).Streaming := by
  cases d with
  | perform walk op =>
    exact ⟨sound_step h.sound walk op, h.enumerates.mailed (mailed_step h.sound walk op),
      h.fluent.step walk op⟩
  | write i act =>
    refine ⟨h.sound, ?_, h.fluent.withCarriage _⟩
    cases hl : s.carriage.links[i]? with
    | none =>
      have hlinks : (s.carriage.edit ⟨i⟩ (·.act act)).links = s.carriage.links :=
        Exchange.links_edit_of_none hl (·.act act)
      exact h.enumerates.of_same rfl hlinks
    | some l =>
      have hlinks : (s.carriage.edit ⟨i⟩ (·.act act)).links =
          s.carriage.links.set i (l.act act) := Exchange.links_edit hl (·.act act)
      exact h.enumerates.advance hl (l.advances_act act) rfl hlinks

theorem deeds (h : s.Streaming) (l : List Deed) : (s.deeds l).Streaming := by
  induction l generalizing s with
  | nil => exact h
  | cons d l ih => exact ih (h.deed d)

end Streaming

/-- A message is turned away for its size exactly if its content is too large, and that is all that
comes of it. -/
structure Conveys (s : Station Exchange Mailbox) : Prop where
  noted : ∀ note ∈ s.journal.toList, note.IsOverTcp
  refused : ∀ {id p body}, s.engine.roster.get? id = some p → s.engine.Utters body →
    ((p.send s.carriage body).result = .error .oversized ↔ IsOversized (Wire.contentFrames body))
  unharmed : ∀ {content}, IsOversized content → ∀ walk op,
    (∃ id, op = .whisper id content) ∨ (∃ group, op = .shout group content) →
      (s.step walk op).engine = s.engine ∧ (s.step walk op).carriage = s.carriage

theorem Streaming.conveys (h : s.Streaming) : s.Conveys where
  noted note hnote := (h.fluent.journal note hnote).overTcp
  refused := by
    intro id p body hp hb
    obtain ⟨box, hbox⟩ := Option.isSome_iff_exists.mp (h.sound.connected hp)
    obtain ⟨l, hl, -⟩ := h.enumerates.sent hp hbox
    exact Peer.send_eq_oversized hbox hl (h.fluent.engine.hasForm hb)
  unharmed := by
    rintro content hover walk op (⟨id, rfl⟩ | ⟨group, rfl⟩)
    · exact h.enumerates.whisper_of_oversized h.sound id hover
    · exact h.enumerates.shout_of_oversized h.sound group hover

/-- Whatever an engine may have to say can be encoded, and no other failures are noted than those of
its mailboxes; a message that could not be encoded would be noted. Over TCP a mailbox fails where it is
out of reach, or where the content of a WHISPER or a SHOUT is too large for it, which costs neither a
peer nor a number. -/
theorem carried_run_new (id : PeerId) {name endpoint : String} (timing : Timing)
    (hname : name.utf8ByteSize ≤ Wire.limit) (hendpoint : endpoint.utf8ByteSize ≤ Wire.limit) :
    (∀ {κ μ : Type} [Carriage κ μ] (p : Peer μ) (carriage : κ) (body : Body) (e : Wire.EncodeError),
      .cannotEncode p.id body.command e ∈ (p.send carriage body).notes ↔
        p.isConnected = true ∧ Wire.encode ⟨p.sent + 1, body⟩ = .error e) ∧
    (∀ {κ μ : Type} [Carriage κ μ] (carriage : κ) (turns : List (Turn κ)),
      let s := (new (Engine.new id name endpoint timing : Engine μ) carriage).run turns
      (∀ note ∈ s.journal.toList, note.IsGrounded κ) ∧ ∀ body, s.engine.Utters body → body.HasForm) ∧
    ∀ (capacity : Nat) (l : List Deed),
      ((new (Engine.new id name endpoint timing) (Exchange.new capacity)).deeds l).Conveys := by
  refine ⟨Peer.cannotEncode_mem_send, ?_, ?_⟩
  · intro κ μ _ carriage turns
    have hrun := (Fluent.new (κ := κ) (μ := μ) id hname hendpoint timing carriage).run turns
    exact ⟨hrun.journal, fun body => hrun.engine.hasForm⟩
  · intro capacity l
    have hnew : (new (Engine.new id name endpoint timing : Engine Mailbox)
        (Exchange.new capacity)).Streaming :=
      ⟨Engine.sound_new id name endpoint timing, Enumerates.new _ capacity rfl,
        Fluent.new id hname hendpoint timing _⟩
    exact (hnew.deeds l).conveys

theorem carried_run_whispered :
    let bob : PeerId := ⟨.replicate 16 2, rfl⟩
    let s := (new (Engine.new default "ann" "tcp://127.0.0.1:5670" .usual) (Exchange.new 8)).deeds
      [.perform .ascending (.discover (.found bob "tcp://127.0.0.1:5671") 0)]
    let content : Content := List.replicate 1024 .empty
    ("ann".utf8ByteSize ≤ Wire.limit ∧ "tcp://127.0.0.1:5670".utf8ByteSize ≤ Wire.limit) ∧
      s.engine.roster.keys = [bob] ∧
        (s.step .ascending (.whisper bob content)).engine = s.engine := by
  intro bob s content
  have hname : "ann".utf8ByteSize ≤ Wire.limit := by decide
  have hendpoint : "tcp://127.0.0.1:5670".utf8ByteSize ≤ Wire.limit := by decide
  obtain ⟨-, -, hconveys⟩ := carried_run_new default .usual hname hendpoint
  have hover : IsOversized content := .inl (by rw [List.length_replicate]; omega)
  exact ⟨⟨hname, hendpoint⟩, by decide +kernel,
    ((hconveys 8 _).unharmed hover .ascending _ (.inl ⟨bob, rfl⟩)).1⟩

end Station
end PeerMesh
