import PeerMesh.Proofs.Station.Picture

/-!
# The grammar of what is reported

What an engine reports is told in strokes. A peer enters; something happens to a peer that is there,
under the name it entered with; or a peer is gone, and in the same stroke it has left its groups.
`Story` is the grammar of the whole stream, and `Periods` is what the grammar says of one peer.

Which strokes are open depends on what was told before, so the picture that the events give is the
state of the grammar. That the picture shows the tables of the engine is what lets an engine tell
nothing else.
-/

namespace PeerMesh
set_option autoImplicit false

variable {κ μ : Type}

namespace Event

/-- Whether an event is one that comes between the entering and the exit of a peer. -/
def isWithin : Event → Bool
  | .evasive .. | .join .. | .leave .. | .whisper .. | .shout .. => true
  | .enter .. | .exit .. | .stop => false

/-- A peer is gone, and by that it has left its groups. -/
def farewell (id : PeerId) (name : String) (groups : List String) : List Event :=
  .exit id name :: groups.map fun group => .leave id name group

theorem peer?_farewell {id : PeerId} {name : String} {groups : List String} :
    ∀ ev ∈ farewell id name groups, ev.peer? = some id := by
  intro ev hev
  rcases List.mem_cons.mp hev with rfl | hev
  · rfl
  · obtain ⟨group, -, rfl⟩ := List.mem_map.mp hev
    rfl

end Event

namespace Picture

theorem of_append (l new : List Event) : of (l ++ new) = new.foldl see (of l) := List.foldl_append

/-! ### What a picture says of one peer -/

structure Alike (id : PeerId) (v v' : Picture) : Prop where
  profile : v'.profile id = v.profile id
  paired : v'.paired id = v.paired id

theorem alike_see {id : PeerId} {v v' : Picture} (h : Alike id v v') (ev : Event) :
    Alike id (v.see ev) (v'.see ev) := by
  obtain ⟨hprofile, hpaired⟩ := h
  constructor
  · cases ev <;> simp only [see, hprofile]
  · cases ev <;> simp only [see, hpaired]

theorem alike_see_other {id : PeerId} {ev : Event} (h : ev.peer? ≠ some id) (v : Picture) :
    Alike id v (v.see ev) := by
  constructor
  · cases ev with
    | enter j | exit j =>
      have hj : id ≠ j := fun hid => h (congrArg some hid.symm)
      exact if_neg hj
    | _ => rfl
  · cases ev with
    | join j _ group | leave j _ group =>
      have hj : id ≠ j := fun hid => h (congrArg some hid.symm)
      funext g
      simp [see, hj]
    | _ => rfl

/-- What is told of other peers does not matter. -/
theorem alike_concerning {id : PeerId} {v v' : Picture} (h : Alike id v v') (l : List Event) :
    Alike id ((Event.concerning id l).foldl see v) (l.foldl see v') := by
  induction l generalizing v v' with
  | nil => exact h
  | cons ev l ih =>
    by_cases hev : ev.peer? = some id
    · have hkept : Event.concerning id (ev :: l) = ev :: Event.concerning id l :=
        List.filter_cons_of_pos (decide_eq_true hev)
      rw [hkept]
      exact ih (alike_see h ev)
    · have hleft : Event.concerning id (ev :: l) = Event.concerning id l :=
        List.filter_cons_of_neg (by simpa using hev)
      rw [hleft]
      have hsee := alike_see_other hev v'
      exact ih ⟨hsee.profile.trans h.profile, hsee.paired.trans h.paired⟩

theorem alike_of_concerning (id : PeerId) (l : List Event) :
    Alike id (of (Event.concerning id l)) (of l) :=
  alike_concerning ⟨rfl, rfl⟩ l

theorem foldl_farewell (v : Picture) (id : PeerId) (name : String) (groups : List String) :
    ((Event.farewell id name groups).foldl see v).profile =
      fun j => if j = id then none else v.profile j := by
  rw [Event.farewell, List.foldl_cons, foldl_leave]
  rfl

theorem profile_see_of_isWithin {ev : Event} (h : ev.isWithin = true) (v : Picture) :
    (v.see ev).profile = v.profile := by
  cases ev <;> first | rfl | cases h

end Picture

/-! ### The grammar -/

/-- What may be told next. -/
inductive Stroke (v : Picture) : List Event → Prop
  | enter {id} (name headers endpoint) (hout : v.profile id = none) :
    Stroke v [.enter id name headers endpoint]
  | within {ev : Event} {id x} (hid : ev.peer? = some id) (hx : v.profile id = some x)
    (hw : ev.isWithin = true) (hn : ev.name? = some x.name) : Stroke v [ev]
  | farewell {id x groups} (hx : v.profile id = some x) (ha : groups.Pairwise (· < ·))
    (hg : ∀ group, group ∈ groups ↔ v.paired id group = true) :
    Stroke v (Event.farewell id x.name groups)

inductive Story : List Event → Prop
  | nil : Story []
  | snoc {l new} (h : Story l) (hnew : Stroke (.of l) new) : Story (l ++ new)

/-- What is told of one peer: periods, the last of which is still open if there is a profile. The
groups that an exit leaves are those that the period had joined and not left. -/
inductive Periods (id : PeerId) : Option Profile → List Event → Prop
  | nil : Periods id none []
  | enter {l} (x : Profile) (h : Periods id none l) :
    Periods id (some x) (l ++ [.enter id x.name x.headers x.endpoint])
  | within {l x ev} (h : Periods id (some x) l) (hid : ev.peer? = some id)
    (hw : ev.isWithin = true) (hn : ev.name? = some x.name) : Periods id (some x) (l ++ [ev])
  | exit {l x groups} (h : Periods id (some x) l) (ha : groups.Pairwise (· < ·))
    (hg : ∀ group, group ∈ groups ↔ (Picture.of l).paired id group = true) :
    Periods id none (l ++ Event.farewell id x.name groups)

namespace Stroke
variable {v : Picture} {new : List Event}

theorem peer? (h : Stroke v new) : ∃ id, ∀ ev ∈ new, ev.peer? = some id := by
  cases h with
  | @enter id => exact ⟨id, by simp [Event.peer?]⟩
  | @within ev id x hid => exact ⟨id, by simpa using hid⟩
  | @farewell id => exact ⟨id, Event.peer?_farewell⟩

/-- An exit begins a stroke, and the groups that are left by it are the rest of the stroke. -/
theorem of_exit {front after : List Event} {id : PeerId} {name : String}
    (h : Stroke v (front ++ .exit id name :: after)) :
    front = [] ∧ ∃ groups : List String, after = (groups.map fun group => .leave id name group) ∧
      groups.Pairwise (· < ·) ∧ ∀ group, group ∈ groups ↔ v.paired id group = true := by
  generalize hnew : front ++ .exit id name :: after = new at h
  have hmem : Event.exit id name ∈ new := by
    rw [← hnew]
    exact List.mem_append_right _ List.mem_cons_self
  cases h with
  | enter => cases List.mem_singleton.mp hmem
  | within _ _ hw =>
    rw [← List.mem_singleton.mp hmem] at hw
    cases hw
  | @farewell j x groups _ ha hg =>
    rcases List.append_eq_cons_iff.mp hnew with ⟨hfront, hexit⟩ | ⟨front', -, hleaves⟩
    · obtain ⟨hhead, rfl⟩ := List.cons.inj hexit
      cases hhead
      exact ⟨hfront, groups, rfl, ha, hg⟩
    · have hlater : Event.exit id name ∈ groups.map fun group => Event.leave j x.name group := by
        rw [hleaves]
        exact List.mem_append_right _ List.mem_cons_self
      obtain ⟨_, -, hexit⟩ := List.mem_map.mp hlater
      cases hexit

end Stroke

namespace Story
variable {l : List Event} {id : PeerId} {x : Profile}

theorem periods (h : Story l) (j : PeerId) :
    Periods j ((Picture.of l).profile j) (Event.concerning j l) := by
  induction h with
  | nil => exact .nil
  | @snoc l new h hnew ih =>
    rw [Event.concerning_append, Picture.of_append]
    cases hnew with
    | @enter id name headers endpoint hout =>
      have hpeer : ∀ ev ∈ [Event.enter id name headers endpoint], ev.peer? = some id := by simp [Event.peer?]
      by_cases hj : j = id
      · subst hj
        rw [Event.concerning_self hpeer, List.foldl_cons, List.foldl_nil, Picture.see]
        dsimp only
        rw [if_pos rfl]
        rw [hout] at ih
        exact .enter ⟨name, headers, endpoint⟩ ih
      · rw [Event.concerning_other hj hpeer, List.append_nil, List.foldl_cons, List.foldl_nil,
          Picture.see]
        dsimp only
        rw [if_neg hj]
        exact ih
    | @within ev id x hid hx hw hn =>
      have hpeer : ∀ ev' ∈ [ev], ev'.peer? = some id := by simpa using hid
      rw [List.foldl_cons, List.foldl_nil, Picture.profile_see_of_isWithin hw]
      by_cases hj : j = id
      · subst hj
        rw [hx] at ih ⊢
        rw [Event.concerning_self hpeer]
        exact ih.within hid hw hn
      · rw [Event.concerning_other hj hpeer, List.append_nil]
        exact ih
    | @farewell id x groups hx ha hg =>
      rw [Picture.foldl_farewell]
      dsimp only
      by_cases hj : j = id
      · subst hj
        rw [if_pos rfl, Event.concerning_self Event.peer?_farewell]
        rw [hx] at ih
        rw [(Picture.alike_of_concerning j l).paired] at hg
        exact ih.exit ha hg
      · rw [if_neg hj, Event.concerning_other hj Event.peer?_farewell, List.append_nil]
        exact ih

/-- An exit and the groups that are left by it stand together. -/
theorem together (h : Story l) {before after : List Event} {name : String}
    (hl : l = before ++ .exit id name :: after) :
    ∃ (groups : List String) (rest : List Event), after = (groups.map fun group => .leave id name group) ++ rest ∧
      groups.Pairwise (· < ·) ∧
      ∀ group, group ∈ groups ↔ (Picture.of before).paired id group = true := by
  induction h generalizing after with
  | nil => simp at hl
  | @snoc l new h hnew ih =>
    rcases List.append_eq_append_iff.mp hl with ⟨front, hbefore, hfront⟩ | ⟨tail, hl', htail⟩
    · rw [hfront] at hnew
      obtain ⟨rfl, groups, hafter, ha, hg⟩ := hnew.of_exit
      rw [List.append_nil] at hbefore
      rw [hbefore]
      exact ⟨groups, [], hafter.trans (List.append_nil _).symm, ha, hg⟩
    · cases tail with
      | nil =>
        rw [List.nil_append] at htail
        rw [← htail] at hnew
        have hstroke : Stroke (Picture.of l) ([] ++ .exit id name :: after) := hnew
        obtain ⟨-, groups, hafter, ha, hg⟩ := hstroke.of_exit
        rw [List.append_nil] at hl'
        rw [← hl']
        exact ⟨groups, [], hafter.trans (List.append_nil _).symm, ha, hg⟩
      | cons ev tail =>
        obtain ⟨rfl, hafter⟩ := List.cons.inj htail
        obtain ⟨groups, rest, htail, ha, hg⟩ := ih hl'
        refine ⟨groups, rest ++ new, hafter.trans ?_, ha, hg⟩
        rw [htail]
        exact List.append_assoc ..

theorem stop_not_mem (h : Story l) : Event.stop ∉ l := by
  induction h with
  | nil => exact List.not_mem_nil
  | snoc h hnew ih =>
    intro hstop
    rcases List.mem_append.mp hstop with hstop | hstop
    · exact ih hstop
    · obtain ⟨id, hpeer⟩ := hnew.peer?
      cases hpeer _ hstop

theorem joins (h : Story l) (hx : (Picture.of l).profile id = some x) (groups : List String) :
    Story (l ++ groups.map fun group => .join id x.name group) := by
  induction groups generalizing l with
  | nil => simpa using h
  | cons group groups ih =>
    have hjoin : Story (l ++ [.join id x.name group]) := h.snoc (.within rfl hx rfl rfl)
    have hstay : (Picture.of (l ++ [.join id x.name group])).profile id = some x := by
      rw [Picture.of_append]
      exact hx
    rw [List.map_cons, List.append_cons]
    exact ih hjoin hstay

end Story

/-! ### Engines tell stories -/

namespace Engine

/-- The events queued between `e` and `e'` go on with every story that has the tables right. -/
def Narrates (e e' : Engine μ) : Prop :=
  ∃ new, e'.events = e.events ++ new ∧ ∀ {l}, Story l → (Picture.of l).Shows e →
    Story (l ++ new) ∧ (Picture.of (l ++ new)).Shows e'

namespace Narrates
variable {e e' e'' : Engine μ}

theorem of_explains (h : e.Explains e') {new : List Event} (hnew : e'.events = e.events ++ new)
    (hs : ∀ {l}, Story l → (Picture.of l).Shows e → Story (l ++ new)) : e.Narrates e' := by
  obtain ⟨new', hnew', hshow⟩ := h
  obtain rfl : new' = new := List.append_cancel_left (hnew'.symm.trans hnew)
  refine ⟨new', hnew, fun hl hv => ⟨hs hl hv, ?_⟩⟩
  rw [Picture.of_append]
  exact hshow hv

theorem of_silent (h : e.Explains e') (hv : e'.events = e.events) : e.Narrates e' := by
  refine of_explains h (hv.trans (List.append_nil _).symm) fun hl _ => ?_
  rwa [List.append_nil]

theorem refl (e : Engine μ) : e.Narrates e := of_silent (.refl e) rfl

theorem trans (h : e.Narrates e') (h' : e'.Narrates e'') : e.Narrates e'' := by
  obtain ⟨new, hnew, hstory⟩ := h
  obtain ⟨new', hnew', hstory'⟩ := h'
  refine ⟨new ++ new', by rw [hnew', hnew, List.append_assoc], fun hl hv => ?_⟩
  rw [← List.append_assoc]
  exact hstory' (hstory hl hv).1 (hstory hl hv).2

end Narrates

variable {e e' : Engine μ} {id : PeerId} {p : Peer μ}

/-- A peer that entered has a profile under its name. -/
theorem profile_of_named {v : Picture} (hv : v.Shows e) (hs : e.Sound)
    (hp : e.roster.get? id = some p) {name : String} (hn : p.declaredName = some name) :
    ∃ x, v.profile id = some x ∧ x.name = name := by
  have hready : p.ready = true := by
    rw [hs.entered hp, Peer.hasEntered, hn]
    rfl
  refine ⟨⟨p.name, p.headers, p.endpoint⟩, ?_, ?_⟩
  · rw [hv.profile, readyPeer?_eq_some.mpr ⟨hp, hready⟩]
    rfl
  · exact congrArg (Option.getD · "") hn

theorem narrates_drop (hs : e.Sound) (id : PeerId) : e.Narrates (e.drop id) := by
  cases hp : e.roster.get? id with
  | none =>
    rw [drop_of_none hp]
    exact .refl e
  | some p =>
    cases hn : p.declaredName with
    | none => exact .of_silent (explains_drop hs id) (events_drop_of_unnamed hp hn)
    | some name =>
      refine .of_explains (explains_drop hs id) (events_drop_of_named hp hn) fun hl hv => ?_
      obtain ⟨x, hx, rfl⟩ := profile_of_named hv hs hp hn
      refine hl.snoc (.farewell hx (SortedMap.pairwise_keys _) fun group => ?_)
      rw [mem_groupsOf, hv.paired]

theorem Shift.narrates (h : e.Shift e') (hs : e.Sound) : e.Narrates e' := by
  have hexplains := h.explains hs
  cases h with
  | touch | acquaint => exact .of_silent hexplains rfl
  | report hp hn =>
    refine .of_explains hexplains rfl fun hl hv => ?_
    obtain ⟨x, hx, rfl⟩ := profile_of_named hv hs hp hn
    exact hl.snoc (.within rfl hx rfl rfl)
  | drop id => exact narrates_drop hs id

theorem Shifts.narrates (h : e.Shifts e') (hs : e.Sound) : e.Narrates e' := by
  induction h with
  | refl => exact .refl e
  | tail hh h ih => exact ih.trans (h.narrates (Shifts.sound hh hs))

/-- A greeting is told as an entering and the groups that came with it. -/
theorem narrates_greeted (hp : e.readyPeer? id = none) (p : Peer μ) (h : Hello) :
    e.Narrates (e.greeted id p h) := by
  refine .of_explains (explains_greeted p h) rfl fun {l} hl hv => ?_
  have hout : (Picture.of l).profile id = none := by
    rw [hv.profile, hp]
    rfl
  have henter : Story (l ++ [.enter id h.name h.headers p.endpoint]) := hl.snoc (.enter _ _ _ hout)
  have hin : (Picture.of (l ++ [.enter id h.name h.headers p.endpoint])).profile id =
      some ⟨h.name, h.headers, p.endpoint⟩ := by
    rw [Picture.of_append]
    exact if_pos rfl
  rw [List.append_cons]
  exact henter.joins hin h.groups

theorem narrates_heeded (hp : e.readyPeer? id = some p) (body : Body) :
    e.Narrates (e.heeded id p body) := by
  refine .of_explains (explains_heeded hp body) rfl fun {l} hl hv => ?_
  have hin : (Picture.of l).profile id = some ⟨p.name, p.headers, p.endpoint⟩ := by
    rw [hv.profile, hp]
    rfl
  cases body with
  | whisper | shout | join | leave => exact hl.snoc (.within rfl hin rfl rfl)
  | hello | ping | pingOk => exact (List.append_nil l).symm ▸ hl

end Engine

namespace Station
variable [Carriage κ μ] {near : PeerId → String → Prop} {s t : Station κ μ}

theorem Received.narrates {id : PeerId} {m : Message} (h : s.Received near id m t)
    (hs : s.engine.Sound) : s.engine.Narrates t.engine := by
  cases h with
  | unheard _ _ he => exact he ▸ .refl _
  | refused _ h => exact (h.shifts hs).narrates hs
  | lost h _ he => exact he ▸ (h.shifts hs).narrates hs
  | @greeted u v p h _ hu hp hr he _ _ hv =>
    have hsound := hu.sound hs
    have hout : u.engine.readyPeer? id = none := by
      rw [Engine.readyPeer?, hp, Option.filter_some, hr]
      rfl
    have hv' := (hv.shifts (he ▸ hsound.greeted hp h)).narrates (he ▸ hsound.greeted hp h)
    rw [he] at hv'
    exact (((hu.shifts hs).narrates hs).trans (Engine.narrates_greeted hout p h)).trans hv'
  | heeded _ hp _ he _ _ hv =>
    obtain ⟨hentry, hready⟩ := Engine.readyPeer?_eq_some.mp hp
    have hsound := hs.heeded hentry hready m.body
    rw [← he] at hsound
    have hv' := (hv.shifts hsound).narrates hsound
    rw [he] at hv'
    exact (Engine.narrates_heeded hp m.body).trans hv'

/-- Unless the engine stops, what an operation reports goes on with the story. -/
theorem Performed.narrates {op : Op} (h : s.Performed near op t) (hs : s.engine.Sound)
    (hrun : t.engine.stopped = false) (hop : op ≠ .drain) : s.engine.Narrates t.engine := by
  have hexplains := h.explains hs hrun hop
  cases h with
  | worked h => exact (h.shifts hs).narrates hs
  | dressed hok he => exact .of_silent hexplains (he ▸ rfl)
  | @joined group _ u _ _ hok he _ _ h =>
    have hown : s.engine.Narrates u.engine :=
      .of_silent (.of_same (he ▸ rfl) (he ▸ rfl) (he ▸ rfl)) (he ▸ rfl)
    exact hown.trans ((h.shifts (he ▸ hs.enlist hok)).narrates (he ▸ hs.enlist hok))
  | @left group _ u _ _ he _ _ h =>
    have hown : s.engine.Narrates u.engine :=
      .of_silent (.of_same (he ▸ rfl) (he ▸ rfl) (he ▸ rfl)) (he ▸ rfl)
    exact hown.trans ((h.shifts (he ▸ hs.delist group)).narrates (he ▸ hs.delist group))
  | halted _ he =>
    rw [he] at hrun
    cases hrun
  | drained => exact absurd rfl hop
  | received _ _ _ h => exact h.narrates hs

end Station
end PeerMesh
