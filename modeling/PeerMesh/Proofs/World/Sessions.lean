import Mathlib.Data.List.Forall2
import PeerMesh.Proofs.World.Talk

/-!
# Sessions and periods

What a node sends to another is cut into sessions, each of which begins with a HELLO; what the other
reports of it is cut into periods, each of which begins with an ENTER. `Retold` says that every
period goes back to a session of its own and tells the beginning of what was said in it.

The newest period matters most. As long as the listener listens, it tells everything of the newest
session that has arrived, and only then can the next message be added on both sides (`Current`).
-/

namespace PeerMesh
set_option autoImplicit false

/-- The pieces of a list, each of which begins with a head and has no other. -/
structure IsCut {α : Type} (isHead : α → Bool) (l : List α) (pieces : List (List α)) : Prop where
  flatten : pieces.flatten = l
  headed : ∀ piece ∈ pieces, ∃ a rest, piece = a :: rest ∧ isHead a = true ∧
    ∀ b ∈ rest, isHead b = false

namespace IsCut
variable {α : Type} {isHead : α → Bool} {l : List α} {pieces : List (List α)}

theorem nil (isHead : α → Bool) : IsCut isHead [] [] := by
  constructor
  · rfl
  · intro piece h
    cases h

theorem snoc (h : IsCut isHead l pieces) {a : α} {rest : List α} (ha : isHead a = true)
    (hrest : ∀ b ∈ rest, isHead b = false) :
    IsCut isHead (l ++ a :: rest) (pieces ++ [a :: rest]) := by
  constructor
  · simp [h.flatten]
  · intro piece hp
    rcases List.mem_append.mp hp with hp | hp
    · exact h.headed piece hp
    · exact ⟨a, rest, List.mem_singleton.mp hp, ha, hrest⟩

theorem extend {piece : List α} (h : IsCut isHead l (pieces ++ [piece])) {new : List α}
    (hnew : ∀ b ∈ new, isHead b = false) :
    IsCut isHead (l ++ new) (pieces ++ [piece ++ new]) := by
  constructor
  · rw [← h.flatten]
    simp
  · intro p hp
    rcases List.mem_append.mp hp with hp | hp
    · exact h.headed p (List.mem_append_left _ hp)
    · obtain rfl := List.mem_singleton.mp hp
      obtain ⟨a, rest, hpiece, ha, hrest⟩ := h.headed piece (by simp)
      refine ⟨a, rest ++ new, by rw [hpiece]; rfl, ha, ?_⟩
      intro b hb
      rcases List.mem_append.mp hb with hb | hb
      · exact hrest b hb
      · exact hnew b hb

end IsCut

/-! ### Matching a list with part of another -/

section
variable {α β : Type} {R : α → β → Prop} {l : List α} {l' : List β}

theorem sublistForall₂_snoc_right (h : List.SublistForall₂ R l l') (b : β) :
    List.SublistForall₂ R l (l' ++ [b]) := by
  induction h with
  | nil => exact .nil
  | cons hab _ ih => exact .cons hab ih
  | cons_right _ ih => exact .cons_right ih

theorem sublistForall₂_snoc (h : List.SublistForall₂ R l l') {a : α} {b : β} (hab : R a b) :
    List.SublistForall₂ R (l ++ [a]) (l' ++ [b]) := by
  induction h with
  | @nil l' =>
    induction l' with
    | nil => exact .cons hab .nil
    | cons c l' ih => exact .cons_right ih
  | cons hcd _ ih => exact .cons hcd ih
  | cons_right _ ih => exact .cons_right ih

/-- The last element of the longer list may change if it still matches what it matched. -/
theorem sublistForall₂_replace_last {b b' : β} (h : List.SublistForall₂ R l (l' ++ [b]))
    (hb : ∀ a, R a b → R a b') : List.SublistForall₂ R l (l' ++ [b']) := by
  induction l' generalizing l with
  | nil =>
    cases h with
    | nil => exact .nil
    | cons hab h =>
      cases h
      exact .cons (hb _ hab) .nil
    | cons_right h =>
      cases h
      exact .nil
  | cons c l' ih =>
    cases h with
    | nil => exact .nil
    | cons hac h => exact .cons hac (ih h)
    | cons_right h => exact .cons_right (ih h)

end

/-! ### Content -/

def Event.isEnter : Event → Bool
  | .enter .. => true
  | _ => false

/-- The content that a message carries, and the group it is for. -/
def Message.content? (m : Message) : Option (Option String × Content) :=
  match m.body with
  | .whisper content => some (none, content)
  | .shout group content => some (some group, content)
  | _ => none

def Event.spoken? : Event → Option (Option String × Content)
  | .whisper _ _ content => some (none, content)
  | .shout _ _ group content => some (some group, content)
  | _ => none

theorem Event.isEnter_of_isQuiet {ev : Event} (h : ev.isQuiet = true) : ev.isEnter = false := by
  cases ev <;> first | rfl | cases h

theorem Event.spoken?_of_isQuiet {ev : Event} (h : ev.isQuiet = true) : ev.spoken? = none := by
  cases ev <;> first | rfl | cases h

theorem filterMap_spoken?_of_quiet {new : List Event} (h : ∀ ev ∈ new, ev.isQuiet = true) :
    new.filterMap Event.spoken? = [] :=
  List.filterMap_eq_nil_iff.mpr fun ev hev => Event.spoken?_of_isQuiet (h ev hev)

/-- A message that is reported at all is reported with its content. -/
theorem filterMap_spoken?_reports {m : Message} (hm : m.isHello = false) (id : PeerId)
    (name : String) :
    (m.body.reports id name).filterMap Event.spoken? = [m].filterMap Message.content? := by
  obtain ⟨n, body⟩ := m
  cases body with
  | hello => cases hm
  | whisper | shout | join | leave | ping | pingOk => rfl

theorem isEnter_reports (body : Body) (id : PeerId) (name : String) :
    ∀ ev ∈ body.reports id name, ev.isEnter = false := by
  intro ev hev
  cases body <;> simp_all [Body.reports, Event.isEnter]

/-- The period was opened by the HELLO of the session, and its content is the beginning of the
content of the session. -/
def Follows (who : Party) (period : List Event) (session : List Message) : Prop :=
  ∃ h said told, session = ⟨1, .hello h⟩ :: said ∧
    period = .enter who.id h.name h.headers who.endpoint :: told ∧
    told.filterMap Event.spoken? <+: said.filterMap Message.content?

/-- What was told goes back to what was said, each period to a session of its own. -/
def Retold (who : Party) (said : List Message) (told : List Event) : Prop :=
  ∃ sessions periods, IsCut Message.isHello said sessions ∧ IsCut Event.isEnter told periods ∧
    List.SublistForall₂ (Follows who) periods sessions

/-- What was told goes back to what was said, and the newest period tells all of the newest
session. -/
def Current (who : Party) (said : List Message) (told : List Event) : Prop :=
  ∃ said₀ told₀ h said₁ told₁, Retold who said₀ told₀ ∧
    said = said₀ ++ ⟨1, .hello h⟩ :: said₁ ∧ (∀ m ∈ said₁, m.isHello = false) ∧
    told = told₀ ++ .enter who.id h.name h.headers who.endpoint :: told₁ ∧
    (∀ ev ∈ told₁, ev.isEnter = false) ∧
    told₁.filterMap Event.spoken? = said₁.filterMap Message.content?

namespace Retold
variable {who : Party} {said : List Message} {told : List Event}

theorem nil (who : Party) : Retold who [] [] :=
  ⟨[], [], .nil _, .nil _, .nil⟩

/-- A HELLO that is not listened to begins a session of its own. -/
theorem skip_hello (h : Retold who said told) {m : Message} (hm : m.isHello = true) :
    Retold who (said ++ [m]) told := by
  obtain ⟨sessions, periods, hs, hp, hf⟩ := h
  refine ⟨sessions ++ [[m]], periods, hs.snoc hm ?_, hp, sublistForall₂_snoc_right hf _⟩
  intro b hb
  cases hb

/-- Any other message that is not listened to belongs to the newest session. -/
theorem skip_other (h : Retold who said told) {m : Message} (hm : m.isHello = false)
    (hsaid : said ≠ []) : Retold who (said ++ [m]) told := by
  obtain ⟨sessions, periods, hs, hp, hf⟩ := h
  rcases List.eq_nil_or_concat sessions with rfl | ⟨earlier, session, rfl⟩
  · exact absurd hs.flatten.symm hsaid
  · rw [List.concat_eq_append] at hs hf
    refine ⟨earlier ++ [session ++ [m]], periods, hs.extend ?_, hp, sublistForall₂_replace_last hf ?_⟩
    · intro b hb
      rwa [List.mem_singleton.mp hb]
    · rintro period ⟨hello, said, told, rfl, hperiod, hprefix⟩
      refine ⟨hello, said ++ [m], told, rfl, hperiod, ?_⟩
      rw [List.filterMap_append]
      exact hprefix.trans (List.prefix_append _ _)

/-- A HELLO that is listened to begins a session and a period. -/
theorem greet (h : Retold who said told) (hello : Hello) {after : List Event}
    (hq : ∀ ev ∈ after, ev.isQuiet = true) :
    Current who (said ++ [⟨1, .hello hello⟩])
      (told ++ .enter who.id hello.name hello.headers who.endpoint :: after) := by
  refine ⟨said, told, hello, [], after, h, rfl, ?_, rfl, ?_, filterMap_spoken?_of_quiet hq⟩
  · intro m hm
    cases hm
  · intro ev hev
    exact Event.isEnter_of_isQuiet (hq ev hev)

end Retold

namespace Current
variable {who : Party} {said : List Message} {told : List Event}

theorem retold (h : Current who said told) : Retold who said told := by
  obtain ⟨said₀, told₀, hello, said₁, told₁, ⟨sessions, periods, hs, hp, hf⟩, rfl, hsaid, rfl,
    htold, hcontent⟩ := h
  refine ⟨_, _, hs.snoc rfl hsaid, hp.snoc rfl htold, sublistForall₂_snoc hf ?_⟩
  exact ⟨hello, said₁, told₁, rfl, rfl, hcontent ▸ List.prefix_rfl⟩

theorem murmur (h : Current who said told) {new : List Event} (hq : ∀ ev ∈ new, ev.isQuiet = true) :
    Current who said (told ++ new) := by
  obtain ⟨said₀, told₀, hello, said₁, told₁, hr, hsaid, hs, rfl, htold, hcontent⟩ := h
  refine ⟨said₀, told₀, hello, said₁, told₁ ++ new, hr, hsaid, hs, by simp, ?_, ?_⟩
  · intro ev hev
    rcases List.mem_append.mp hev with hev | hev
    · exact htold ev hev
    · exact Event.isEnter_of_isQuiet (hq ev hev)
  · rw [List.filterMap_append, filterMap_spoken?_of_quiet hq, List.append_nil, hcontent]

theorem heed (h : Current who said told) {m : Message} (hm : m.isHello = false) (name : String) :
    Current who (said ++ [m]) (told ++ m.body.reports who.id name) := by
  obtain ⟨said₀, told₀, hello, said₁, told₁, hr, rfl, hs, rfl, htold, hcontent⟩ := h
  refine ⟨said₀, told₀, hello, said₁ ++ [m], told₁ ++ m.body.reports who.id name, hr, by simp, ?_,
    by simp, ?_, ?_⟩
  · intro m' hm'
    rcases List.mem_append.mp hm' with hm' | hm'
    · exact hs m' hm'
    · rwa [List.mem_singleton.mp hm']
  · intro ev hev
    rcases List.mem_append.mp hev with hev | hev
    · exact htold ev hev
    · exact isEnter_reports m.body who.id name ev hev
  · rw [List.filterMap_append, List.filterMap_append, filterMap_spoken?_reports hm, hcontent]

end Current

/-! ### The invariant of a talk -/

/-- What was told goes back to the messages that have arrived. -/
structure Talk.Recounts (who : Party) (l : Talk) : Prop where
  arrived : ∃ arrived, l.accepted = arrived ++ l.waiting ∧
    (l.heard = none → Retold who arrived l.told) ∧ (l.heard ≠ none → Current who arrived l.told)
  opened : ∀ {m rest}, l.accepted = m :: rest → m.isHello = true
  begun : ∀ {k}, l.voice.sent = some k → l.accepted ≠ []

namespace Talk.Recounts
variable {who : Party} {l l' : Talk}

theorem push (h : l.Recounts who) {m : Message} (hm : l.accepted = [] → m.isHello = true)
    (voice : Voice) : (l.push voice m).Recounts who := by
  obtain ⟨arrived, haccepted, hnone, hsome⟩ := h.arrived
  refine ⟨⟨arrived, ?_, hnone, hsome⟩, ?_, ?_⟩
  · change l.accepted ++ [m] = arrived ++ (l.waiting ++ [m])
    rw [haccepted, List.append_assoc]
  · intro m' rest hm'
    change l.accepted ++ [m] = m' :: rest at hm'
    cases hl : l.accepted with
    | nil =>
      rw [hl] at hm'
      cases hm'
      exact hm hl
    | cons first others =>
      rw [hl] at hm'
      cases hm'
      exact h.opened hl
  · intro k _ hnil
    exact List.append_ne_nil_of_right_ne_nil l.accepted (List.cons_ne_nil m []) hnil

/-- What a listener murmurs adds nothing to what was told. -/
theorem retold_murmur {r : Option Heard} {arrived : List Message} {told new : List Event}
    (hnone : r = none → Retold who arrived told) (hsome : r ≠ none → Current who arrived told)
    (hn : Murmur r new) : Retold who arrived (told ++ new) := by
  cases hr : r with
  | none =>
    rw [hn.silent hr, List.append_nil]
    exact hnone hr
  | some x =>
    have hlive : r ≠ none := by simp [hr]
    exact ((hsome hlive).murmur hn.quiet).retold

/-- A message that is not listened to counts as arrived all the same. -/
theorem skip {arrived : List Message} {m : Message} {told : List Event}
    (hm : arrived = [] → m.isHello = true) (h : Retold who arrived told) :
    Retold who (arrived ++ [m]) told := by
  cases hb : m.isHello with
  | true => exact h.skip_hello hb
  | false =>
    apply h.skip_other hb
    intro hnil
    rw [hm hnil] at hb
    cases hb

theorem idle (h : l.Recounts who) {heard : Option Heard} {new : List Event}
    (hr : heard = none ∨ heard = l.heard) (hn : Murmur l.heard new) :
    ({ l with heard, told := l.told ++ new } : Talk).Recounts who := by
  obtain ⟨arrived, haccepted, hnone, hsome⟩ := h.arrived
  refine ⟨⟨arrived, haccepted, ?_, ?_⟩, h.opened, h.begun⟩
  · intro _
    exact retold_murmur hnone hsome hn
  · intro hheard
    rcases hr with rfl | rfl
    · exact absurd rfl hheard
    · exact (hsome hheard).murmur hn.quiet

theorem take (h : l.Recounts who) {m : Message} {rest : List Message} {heard : Option Heard}
    {new : List Event} (hw : l.waiting = m :: rest) (ht : Taken who l.heard m heard new) :
    ({ l with waiting := rest, heard, told := l.told ++ new } : Talk).Recounts who := by
  obtain ⟨arrived, haccepted, hnone, hsome⟩ := h.arrived
  rw [hw] at haccepted
  have hfirst : arrived = [] → m.isHello = true := by
    intro hnil
    rw [hnil] at haccepted
    exact h.opened haccepted
  -- it is enough to tell the story with the message among those that arrived
  suffices hstory : (heard = none → Retold who (arrived ++ [m]) (l.told ++ new)) ∧
      (heard ≠ none → Current who (arrived ++ [m]) (l.told ++ new)) by
    refine ⟨⟨arrived ++ [m], ?_, hstory⟩, h.opened, h.begun⟩
    rw [haccepted, List.append_assoc]
    rfl
  cases ht with
  | missed hn =>
    constructor
    · intro _
      exact skip hfirst (retold_murmur hnone hsome hn)
    · intro hheard
      exact absurd rfl hheard
  | @greeted hello _ before after hm hb ha =>
    have hnow : Current who (arrived ++ [m])
        (l.told ++ (before ++ .enter who.id hello.name hello.headers who.endpoint :: after)) := by
      rw [hm, ← List.append_assoc]
      exact (retold_murmur hnone hsome hb).greet hello ha
    exact ⟨fun _ => hnow.retold, fun _ => hnow⟩
  | @heeded x _ after hx hm ha =>
    have hlive : l.heard ≠ none := by simp [hx]
    have hnow : Current who (arrived ++ [m]) (l.told ++ (m.body.reports who.id x.name ++ after)) := by
      rw [← List.append_assoc]
      exact ((hsome hlive).heed hm x.name).murmur ha
    exact ⟨fun _ => hnow.retold, fun _ => hnow⟩

theorem step (h : l.Recounts who) (hs : l.Step who l') : l'.Recounts who := by
  cases hs with
  | change _ hv =>
    refine ⟨h.arrived, h.opened, fun hk => ?_⟩
    rw [hv] at hk
    cases hk
  | close => exact ⟨h.arrived, h.opened, fun hk => by cases hk⟩
  | greet headers => exact h.push (fun _ => rfl) _
  | say hs _ => exact h.push (fun hnil => absurd hnil (h.begun hs)) _
  | join group hs => exact h.push (fun hnil => absurd hnil (h.begun hs)) _
  | leave group hs => exact h.push (fun hnil => absurd hnil (h.begun hs)) _
  | idle hr hn => exact h.idle hr hn
  | take hw ht => exact h.take hw ht

theorem steps (h : l.Recounts who) (hs : l.Steps who l') : l'.Recounts who := by
  induction hs with
  | refl => exact h
  | tail _ hs ih => exact ih.step hs

/-- What was told also goes back to all that was said, whether it has arrived or not. -/
theorem retold (h : l.Recounts who) : Retold who l.accepted l.told := by
  obtain ⟨arrived, haccepted, hnone, hsome⟩ := h.arrived
  have hstart : Retold who arrived l.told := by
    by_cases hheard : l.heard = none
    · exact hnone hheard
    · exact (hsome hheard).retold
  have hopened : ∀ {m rest}, arrived ++ l.waiting = m :: rest → m.isHello = true := by
    rw [← haccepted]
    exact h.opened
  rw [haccepted]
  clear haccepted hnone hsome
  generalize l.waiting = waiting at hopened ⊢
  induction waiting generalizing arrived with
  | nil => rwa [List.append_nil]
  | cons m rest ih =>
    have hfirst : arrived = [] → m.isHello = true := by
      intro hnil
      rw [hnil] at hopened
      exact hopened rfl
    rw [List.append_cons] at hopened ⊢
    exact ih _ (skip hfirst hstart) hopened

end Talk.Recounts
end PeerMesh
