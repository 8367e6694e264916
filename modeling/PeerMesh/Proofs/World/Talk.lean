import PeerMesh.Proofs.Engine.Heard

/-!
# One direction between two nodes

A talk is all that matters of what one node says to another: what the speaker says of itself, the
messages on their way, and what the listener has heard. Nothing on the way is lost or overtaken.

The invariant is found by looking ahead. The messages on their way are played to the listener as it
is now; each one must fit, and if the listener is ready after the last of them, it must then know
what the speaker says of itself. That the listener may forget the speaker at any moment is no harm:
whatever was said before the next HELLO is then not listened to.
-/

namespace PeerMesh
set_option autoImplicit false

structure Party where
  id : PeerId
  name : String
  /-- Where the node's inbox listens. -/
  endpoint : String
  timing : Timing

/-- What a node says of itself to another node. -/
structure Voice where
  groups : SortedSet String
  status : UInt8
  /-- The number of the newest message, if there is a session. -/
  sent : Option UInt16

/-- What a node has heard from a node that has greeted it. -/
structure Heard where
  want : UInt16
  status : UInt8
  name : String
  isIn : String → Bool

namespace Body

def groupsAfter (isIn : String → Bool) : Body → String → Bool
  | .join group _ => fun g => decide (g = group) || isIn g
  | .leave group _ => fun g => !decide (g = group) && isIn g
  | _ => isIn

end Body

/-- What a listener must know that is ready and has heard everything of a session. -/
def Voice.toHeard (v : Voice) (who : Party) (k : UInt16) : Heard :=
  ⟨k, v.status, who.name, v.groups.contains⟩

namespace Heard

def greeting (h : Hello) : Heard := ⟨1, h.status, h.name, fun g => decide (g ∈ h.groups)⟩

def heed (x : Heard) (body : Body) : Heard :=
  ⟨x.want + 1, body.statusAfter x.status, x.name, body.groupsAfter x.isIn⟩

end Heard

/-- What a listener makes of a message. Only a HELLO is heard from a node that has not greeted. -/
def hear (r : Option Heard) (m : Message) : Option Heard :=
  match m.body with
  | .hello h => some (.greeting h)
  | body => r.map (·.heed body)

def replay (r : Option Heard) (q : List Message) : Option Heard := q.foldl hear r

/-- Whether a message raises no alarm with a listener. -/
def Fits (r : Option Heard) (m : Message) : Prop :=
  match m.body with
  | .hello _ => m.sequence = 1
  | body => ∀ {x}, r = some x → m.sequence = x.want + 1 ∧ body.Follows x.status

def AllFit : Option Heard → List Message → Prop
  | _, [] => True
  | r, m :: q => Fits r m ∧ AllFit (hear r m) q

theorem hear_hello (r : Option Heard) (n : UInt16) (h : Hello) :
    hear r ⟨n, .hello h⟩ = some (.greeting h) := rfl

theorem hear_of_not_hello {m : Message} (hm : m.isHello = false) (r : Option Heard) :
    hear r m = r.map (·.heed m.body) := by
  unfold hear
  split
  · rename_i h hb
    rw [Message.isHello, hb] at hm
    cases hm
  · rfl

theorem fits_of_not_hello {m : Message} (hm : m.isHello = false) (r : Option Heard) :
    Fits r m ↔ ∀ {x}, r = some x → m.sequence = x.want + 1 ∧ m.body.Follows x.status := by
  unfold Fits
  split
  · rename_i h hb
    rw [Message.isHello, hb] at hm
    cases hm
  · rfl

theorem replay_append (r : Option Heard) (q q' : List Message) :
    replay r (q ++ q') = replay (replay r q) q' :=
  List.foldl_append

theorem allFit_append {r : Option Heard} {q q' : List Message} :
    AllFit r (q ++ q') ↔ AllFit r q ∧ AllFit (replay r q) q' := by
  induction q generalizing r with
  | nil =>
    simp only [List.nil_append, AllFit, true_and]
    rfl
  | cons m q ih =>
    rw [List.cons_append, AllFit, AllFit, ih, and_assoc]
    rfl

/-! ### A listener that knows less -/

/-- A listener that forgot the speaker finds fitting whatever it found fitting before. -/
theorem allFit_none {r : Option Heard} {q : List Message} (h : AllFit r q) : AllFit none q := by
  induction q generalizing r with
  | nil => trivial
  | cons m q ih =>
    obtain ⟨hm, hq⟩ := h
    cases hb : m.isHello with
    | true =>
      obtain ⟨n, body⟩ := m
      cases body with
      | hello hello => exact ⟨hm, hq⟩
      | _ => cases hb
    | false =>
      constructor
      · rw [fits_of_not_hello hb]
        intro x hx
        cases hx
      · rw [hear_of_not_hello hb]
        exact ih hq

/-- A listener that forgot the speaker ends up knowing it as before, or not at all. -/
theorem replay_none {q : List Message} {x : Heard} (h : replay none q = some x)
    (r : Option Heard) : replay r q = some x := by
  induction q generalizing r with
  | nil => cases h
  | cons m q ih =>
    cases hb : m.isHello with
    | true =>
      obtain ⟨n, body⟩ := m
      cases body with
      | hello hello => exact h
      | _ => cases hb
    | false =>
      have hnone : replay none q = some x := by
        rw [replay, List.foldl_cons, hear_of_not_hello hb] at h
        exact h
      exact ih hnone (hear r m)

/-! ### Talks -/

/-- All that matters of what one node says to another. -/
structure Talk where
  voice : Voice
  /-- The messages on their way, oldest first. -/
  waiting : List Message
  heard : Option Heard
  /-- The messages that set out so far, oldest first. -/
  accepted : List Message
  /-- The events of the listener that concern the speaker, oldest first. -/
  told : List Event

namespace Talk

def push (l : Talk) (voice : Voice) (m : Message) : Talk :=
  { l with voice, waiting := l.waiting ++ [m], accepted := l.accepted ++ [m] }

end Talk

/-- Whether an event neither opens a period nor carries content. -/
def Event.isQuiet : Event → Bool
  | .enter .. | .whisper .. | .shout .. => false
  | _ => true

/-- What a listener may report on its own account: nothing of a node that has not greeted. -/
structure Murmur (r : Option Heard) (new : List Event) : Prop where
  quiet : ∀ ev ∈ new, ev.isQuiet = true
  silent : r = none → new = []

/-- What may come of one message: what is known afterwards, and what was reported. A listener may
always end up knowing nothing. -/
inductive Taken (who : Party) (r : Option Heard) (m : Message) : Option Heard → List Event → Prop
  | missed {new} (hn : Murmur r new) : Taken who r m none new
  | greeted {h r' before after} (hm : m = ⟨1, .hello h⟩) (hb : Murmur r before)
    (ha : ∀ ev ∈ after, ev.isQuiet = true) (hr : r' = none ∨ r' = hear r m) :
    Taken who r m r'
      (before ++ .enter who.id h.name h.headers who.endpoint :: after)
  | heeded {x r' after} (hx : r = some x) (hm : m.isHello = false)
    (ha : ∀ ev ∈ after, ev.isQuiet = true) (hr : r' = none ∨ r' = hear r m) :
    Taken who r m r' (m.body.reports who.id x.name ++ after)

theorem Taken.heard_eq {who : Party} {r r' : Option Heard} {m : Message} {new : List Event}
    (h : Taken who r m r' new) : r' = none ∨ r' = hear r m := by
  cases h with
  | missed => exact .inl rfl
  | greeted _ _ _ hr => exact hr
  | heeded _ _ _ hr => exact hr

namespace Talk

/-- One step of a talk that starts at `who`. -/
inductive Step (who : Party) (l : Talk) : Talk → Prop
  /-- The speaker changes while there is no session. -/
  | change {voice : Voice} (hs : l.voice.sent = none) (hv : voice.sent = none) :
    Step who l { l with voice }
  /-- The session ends. -/
  | close : Step who l { l with voice := { l.voice with sent := none } }
  /-- A session begins. -/
  | greet (headers : Headers) :
    Step who l (l.push { l.voice with sent := some 1 } ⟨1, .hello
      ⟨who.endpoint, l.voice.groups.toList, l.voice.status, who.name, headers⟩⟩)
  | say {k body} (hs : l.voice.sent = some k) (hb : body.isNeutral = true) :
    Step who l (l.push { l.voice with sent := some (k + 1) } ⟨k + 1, body⟩)
  | join {k} (group) (hs : l.voice.sent = some k) :
    Step who l (l.push ⟨l.voice.groups.insert group, l.voice.status + 1, some (k + 1)⟩
      ⟨k + 1, .join group (l.voice.status + 1)⟩)
  | leave {k} (group) (hs : l.voice.sent = some k) :
    Step who l (l.push ⟨l.voice.groups.erase group, l.voice.status + 1, some (k + 1)⟩
      ⟨k + 1, .leave group (l.voice.status + 1)⟩)
  /-- The listener acts on its own account. -/
  | idle {heard new} (hr : heard = none ∨ heard = l.heard) (hn : Murmur l.heard new) :
    Step who l { l with heard, told := l.told ++ new }
  /-- The oldest message arrives. -/
  | take {m rest heard new} (hw : l.waiting = m :: rest) (ht : Taken who l.heard m heard new) :
    Step who l { l with waiting := rest, heard, told := l.told ++ new }

def Steps (who : Party) : Talk → Talk → Prop := Relation.ReflTransGen (Step who)

/-! ### Looking ahead -/

/-- The invariant of a talk. -/
structure Coherent (who : Party) (l : Talk) : Prop where
  fits : AllFit l.heard l.waiting
  agrees : ∀ {x k}, replay l.heard l.waiting = some x → l.voice.sent = some k →
    x = l.voice.toHeard who k

namespace Coherent
variable {who : Party} {l l' : Talk}

/-- A message sets out that fits and tells what changed. -/
theorem push (h : l.Coherent who) {voice : Voice} {m : Message}
    (hf : Fits (replay l.heard l.waiting) m)
    (ha : ∀ {x k}, hear (replay l.heard l.waiting) m = some x → voice.sent = some k →
      x = voice.toHeard who k) : (l.push voice m).Coherent who := by
  constructor
  · apply allFit_append.mpr
    exact ⟨h.fits, hf, trivial⟩
  · intro x k hx hk
    change replay l.heard (l.waiting ++ [m]) = some x at hx
    rw [replay_append] at hx
    exact ha hx hk

/-- What the next message of a session does, if it is one that fits. -/
theorem follow (h : l.Coherent who) {k : UInt16} (hk : l.voice.sent = some k) {body : Body}
    {voice : Voice} (hv : voice.sent = some (k + 1)) (hb : body.command ≠ .hello)
    (hf : body.Follows l.voice.status) (hst : voice.status = body.statusAfter l.voice.status)
    (hg : voice.groups.contains = body.groupsAfter l.voice.groups.contains) :
    (l.push voice ⟨k + 1, body⟩).Coherent who := by
  have hm : (⟨k + 1, body⟩ : Message).isHello = false := decide_eq_false hb
  apply h.push
  · rw [fits_of_not_hello hm]
    intro x hx
    rw [h.agrees hx hk]
    exact ⟨rfl, hf⟩
  · intro x k' hx hk'
    rw [hear_of_not_hello hm, Option.map_eq_some_iff] at hx
    obtain ⟨y, hy, rfl⟩ := hx
    obtain rfl := Option.some.inj (hv.symm.trans hk')
    rw [h.agrees hy hk]
    simp only [Heard.heed, Voice.toHeard, hst, hg]

theorem forget (h : l.Coherent who) (told : List Event) :
    ({ l with heard := none, told } : Talk).Coherent who where
  fits := allFit_none h.fits
  agrees hx hk := h.agrees (replay_none hx _) hk

end Coherent

theorem Step.coherent {who : Party} {l l' : Talk} (h : l.Step who l') (hc : l.Coherent who) :
    l'.Coherent who := by
  cases h with
  | change _ hv =>
    refine ⟨hc.fits, fun _ hk => ?_⟩
    rw [hv] at hk
    cases hk
  | close => exact ⟨hc.fits, fun _ hk => by cases hk⟩
  | greet headers =>
    apply hc.push
    · rfl
    · intro x k hx hk
      obtain rfl := Option.some.inj hx
      obtain rfl := Option.some.inj hk
      rw [Heard.greeting, Voice.toHeard]
      congr 1
      funext g
      exact Bool.eq_iff_iff.mpr (decide_eq_true_iff.trans SortedSet.mem_toList)
  | @say k body hs hb =>
    cases body with
    | hello | join | leave => cases hb
    | whisper | shout | ping | pingOk =>
      exact hc.follow hs rfl (fun h => by cases h) trivial rfl rfl
  | join group hs =>
    refine hc.follow hs rfl (fun h => by cases h) rfl rfl ?_
    funext g
    exact SortedSet.contains_insert _ _ _
  | leave group hs =>
    refine hc.follow hs rfl (fun h => by cases h) rfl rfl ?_
    funext g
    exact SortedSet.contains_erase _ _ _
  | idle hr hn =>
    rcases hr with rfl | rfl
    · exact hc.forget _
    · exact ⟨hc.fits, hc.agrees⟩
  | @take m rest heard new hw ht =>
    have hfits := hc.fits
    have hagrees : ∀ {x k}, replay (hear l.heard m) rest = some x → l.voice.sent = some k →
        x = l.voice.toHeard who k := by
      intro x k hx hk
      apply hc.agrees _ hk
      rw [hw]
      exact hx
    rw [hw] at hfits
    have hheard : ({ l with waiting := rest, heard := hear l.heard m } : Talk).Coherent who :=
      ⟨hfits.2, hagrees⟩
    rcases ht.heard_eq with rfl | rfl
    · exact hheard.forget _
    · exact ⟨hheard.fits, hheard.agrees⟩

theorem Steps.coherent {who : Party} {l l' : Talk} (h : l.Steps who l') (hc : l.Coherent who) :
    l'.Coherent who := by
  induction h with
  | refl => exact hc
  | tail _ h ih => exact h.coherent ih

end Talk
end PeerMesh
