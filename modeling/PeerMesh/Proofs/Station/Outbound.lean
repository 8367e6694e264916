import PeerMesh.Proofs.Station.Books

/-!
# All that an engine sends

Whatever is done to an engine, and whatever the mailboxes answer, the books stay in order. So every
mailbox took a HELLO first and then messages in sequence, and who read them all knows what the
engine says of itself.
-/

namespace PeerMesh
set_option autoImplicit false

namespace Station
variable {κ μ : Type} [Carriage κ μ] {near : PeerId → String → Prop}
  {s t u : Station (Ledger κ) (Box μ)} {knows : PeerId → Standing} {id : PeerId} {body : Body}
  {x : Standing} {ids : List PeerId}

/-! ### One message -/

/-- A peer is told something. Afterwards it knows that, or it is gone, or its mailbox is not lenient. -/
theorem Books.post (h : s.Books knows) (hb : body.command ≠ .hello)
    (hform : body.isNeutral = true ∨ ∀ n, ∃ frames, Wire.encode ⟨n, body⟩ = .ok frames)
    (hfollows : body.Follows (knows id).status) (hposted : s.Posted id body t) :
    t.Books (Function.update knows id ((knows id).after body)) := by
  have hother : ∀ {j}, j ≠ id → Function.update knows id ((knows id).after body) j = knows j :=
    fun hj => Function.update_of_ne hj _ _
  cases hposted with
  | unmoved hnone he hc =>
    refine (h.congr fun {j q} hq => ?_).of_silent (.of_same he hc)
    by_cases hj : j = id
    · subst hj
      rw [Function.update_self]
      obtain ⟨box, l, hbox, -⟩ := h.entry hq
      rcases hnone q hq with hclosed | ⟨e, herror⟩
      · rw [hbox] at hclosed
        cases hclosed
      · rcases hform with hneutral | hform
        · exact Standing.after_of_neutral hneutral _
        · obtain ⟨frames, hframes⟩ := hform (q.sent + 1)
          rw [hframes] at herror
          cases herror
    · exact hother hj
  | @taken p box frames hp hbox hf hs he =>
    obtain ⟨box', l, hbox', hl, htells⟩ := h.entry hp
    obtain rfl := Option.some.inj (hbox.symm.trans hbox')
    have horderly := htells.orderly (h.orderly hl) hb hf hfollows
    refine h.write hp hbox hl horderly (he ▸ rfl) (Ledger.lines_of_send hs) fun {j q} hq => ?_
    rw [he, SortedMap.get?_insert] at hq
    split at hq
    · rename_i hj
      obtain rfl := Option.some.inj hq
      rw [Function.update_self]
      exact .inl ⟨hj, hbox, htells.took hb hf⟩
    · rename_i hj
      exact .inr ⟨hj, hq, hother hj⟩
  | @rejected p box frames e hp hbox hs hn he hf =>
    obtain ⟨box', l, hbox', hl, htells⟩ := h.entry hp
    obtain rfl := Option.some.inj (hbox.symm.trans hbox')
    have horderly := (h.orderly hl).refused frames e
    refine h.write hp hbox hl horderly (he ▸ rfl) (Ledger.lines_of_send hs) fun {j q} hq => ?_
    rw [he] at hq
    by_cases hj : j = id
    · subst hj
      obtain rfl := Option.some.inj (hp.symm.trans hq)
      rw [Function.update_self]
      exact .inl ⟨rfl, hbox, htells.refused hf hn⟩
    · exact .inr ⟨hj, hq, hother hj⟩
  | @lost p box frames e hp hbox hs hn he =>
    obtain ⟨box', l, hbox', hl, htells⟩ := h.entry hp
    obtain rfl := Option.some.inj (hbox.symm.trans hbox')
    have horderly := (h.orderly hl).refused frames e
    have hname : t.engine.name = s.engine.name := he ▸ (s.engine.drop_rest id).2.1
    refine h.write hp hbox hl horderly hname (Ledger.lines_of_send hs) fun {j q} hq => ?_
    rw [he, Engine.get?_drop] at hq
    split at hq
    · cases hq
    · rename_i hj
      exact .inr ⟨hj, hq, hother hj⟩

theorem Books.grows_post (h : s.Books knows) (hposted : s.Posted id body t) (hello : Hello) :
    s.carriage.Grows t.carriage hello := by
  cases hposted with
  | unmoved _ _ hc => exact .of_same (congrArg Ledger.lines hc)
  | @taken p box _ hp hbox _ hs | @rejected p box _ _ hp hbox hs | @lost p box _ _ hp hbox hs =>
    obtain ⟨box', l, hbox', hl, htells⟩ := h.entry hp
    obtain rfl := Option.some.inj (hbox.symm.trans hbox')
    exact .of_write hl htells.begun (Ledger.lines_of_send hs)

theorem Books.meet (h : s.Books knows) (hid : knows id = s.engine.standing) {endpoint : String}
    {now : Nat} {granted : Bool} (hmeet : s.Meeting id endpoint now (granted, t)) :
    t.Books knows ∧ s.carriage.Grows t.carriage s.engine.hello := by
  cases hmeet with
  | unreached hc he =>
    have hlines := Ledger.lines_of_unreached hc
    exact ⟨h.idle (he ▸ rfl) hlines fun hq => ⟨_, he ▸ hq, rfl, rfl⟩, .of_same hlines⟩
  | formless hc _ he =>
    obtain ⟨-, hlines⟩ := Ledger.lines_of_opened hc
    exact ⟨h.opened id .nil (he ▸ rfl) hlines fun hq => .inl (he ▸ hq),
      .of_append hlines fun _ hm => by cases hm⟩
  | @shut box c frames e _ hc hs he =>
    obtain ⟨-, hlines⟩ := Ledger.lines_of_first hc hs
    have hsaid := Line.said_refused [] frames e
    refine ⟨h.opened id (Line.Orderly.nil.refused frames e) (he ▸ rfl) hlines
      fun hq => .inl (he ▸ hq), .of_append hlines fun m hm => ?_⟩
    rw [List.nil_append] at hsaid
    rw [hsaid] at hm
    cases hm
  | @met box c frames _ hc hf hs he =>
    obtain ⟨hnumber, hlines⟩ := Ledger.lines_of_first hc hs
    constructor
    · refine h.opened id (Line.orderly_greeting hf) (he ▸ rfl) hlines fun {j q} hq => ?_
      rw [he, Engine.putPeer, SortedMap.get?_insert] at hq
      split at hq
      · rename_i hj
        obtain rfl := Option.some.inj hq
        rw [hid]
        exact .inr ⟨hj, ⟨box, rfl, hnumber⟩, Line.tells_greeting hf⟩
      · exact .inl hq
    · refine .of_append hlines fun m hm => ?_
      rw [Line.said_greeting hf] at hm
      exact (Option.some.inj hm).symm

/-! ### Chores and messages -/

/-- Every peer in the roster was told what the engine says of itself. -/
def Kept (s : Station (Ledger κ) (Box μ)) : Prop := s.Books fun _ => s.engine.standing

/-- The books stay in order, and the engine still says the same of itself. -/
structure Continues (s t : Station (Ledger κ) (Box μ)) : Prop where
  kept : t.Kept
  grows : s.carriage.Grows t.carriage s.engine.hello
  hello : t.engine.hello = s.engine.hello

namespace Continues

omit [Carriage κ μ] in
theorem refl (hk : s.Kept) : s.Continues s := ⟨hk, .of_same rfl, rfl⟩

omit [Carriage κ μ] in
theorem trans (h : s.Continues t) (h' : t.Continues u) : s.Continues u :=
  ⟨h'.kept, h.grows.trans (h.hello ▸ h'.grows), h'.hello.trans h.hello⟩

omit [Carriage κ μ] in
theorem of_books (h : t.Books fun _ => s.engine.standing)
    (hg : s.carriage.Grows t.carriage s.engine.hello) (hself : s.engine.SameSelf t.engine) :
    s.Continues t := by
  refine ⟨?_, hg, hself.hello⟩
  rw [Kept, hself.standing]
  exact h

omit [Carriage κ μ] in
theorem of_silent (hk : s.Kept) (h : s.Silent t) (hself : s.engine.SameSelf t.engine) :
    s.Continues t :=
  of_books (Books.of_silent hk h) (.of_same (congrArg Ledger.lines h.carriage)) hself

end Continues

theorem Chore.continues (h : s.Chore near t) (hs : s.engine.Sound) (hk : s.Kept) :
    s.Continues t := by
  have hself := (h.shifts hs).self
  cases h with
  | jot he hc => exact .of_silent hk (.of_same he hc) hself
  | post id body hb =>
    have hposted := s.posted_post id body fun _ => hs.filed
    have hhello : body.command ≠ .hello := fun hhello => by cases body <;> cases hb <;> cases hhello
    have hfollows : body.Follows s.engine.standing.status := by
      cases body with
      | hello | join | leave => cases hb
      | whisper | shout | ping | pingOk => trivial
    have hbooks := Books.post hk hhello (.inl hb) hfollows hposted
    rw [Standing.after_of_neutral hb, Function.update_eq_self] at hbooks
    exact .of_books hbooks (Books.grows_post hk hposted _) hself
  | evade id => exact .of_silent hk (s.silent_evade id) hself
  | remove id => exact .of_silent hk (s.silent_remove id) hself
  | meet now =>
    obtain ⟨hbooks, hgrows⟩ := Books.meet hk rfl (s.meeting_meet _ _ now)
    exact .of_books hbooks hgrows hself
  | refresh id now => exact .of_silent hk (s.silent_refresh id now) hself

theorem Chores.continues (h : s.Chores near t) (hs : s.engine.Sound) (hk : s.Kept) :
    s.Continues t := by
  induction h with
  | refl => exact .refl hk
  | tail h' h ih => exact ih.trans (h.continues (Chores.sound h' hs) ih.kept)

theorem Received.continues {m : Message} (h : s.Received near id m t) (hs : s.engine.Sound)
    (hk : s.Kept) : s.Continues t := by
  cases h with
  | unheard _ _ he hc => exact .of_silent hk (.of_same he hc) (he ▸ .refl _)
  | refused _ h => exact h.continues hs hk
  | lost h _ he hc =>
    have hu := h.continues hs hk
    exact hu.trans (.of_silent hu.kept (.of_same he hc) (he ▸ .refl _))
  | @greeted u v p hello _ hu hp _ he hc _ hv =>
    have hbefore := hu.continues hs hk
    have hself := he ▸ u.engine.sameSelf_greeted id p hello
    have hgreet : u.Continues v := .of_silent hbefore.kept (.of_greeted hp he hc) hself
    have hsound : v.engine.Sound := he ▸ (hu.sound hs).greeted hp hello
    exact (hbefore.trans hgreet).trans (hv.continues hsound hgreet.kept)
  | @heeded v p _ hp _ he hc _ hv =>
    obtain ⟨hentry, hready⟩ := Engine.readyPeer?_eq_some.mp hp
    have hself := he ▸ s.engine.sameSelf_heeded id p m.body
    have hheed : s.Continues v := .of_silent hk (.of_heeded hentry he hc) hself
    have hsound : v.engine.Sound := he ▸ hs.heeded hentry hready m.body
    exact hheed.trans (hv.continues hsound hheed.kept)

/-! ### Telling everybody -/

theorem Posted.known (h : s.Posted id body t) {j : PeerId} {q : Peer (Box μ)}
    (hq : t.engine.roster.get? j = some q) : ∃ p, s.engine.roster.get? j = some p := by
  cases h with
  | unmoved _ he | rejected _ _ _ _ he => exact ⟨q, he ▸ hq⟩
  | taken hp _ _ _ he =>
    rw [he, SortedMap.get?_insert] at hq
    split at hq
    · rename_i hj
      exact ⟨_, hj ▸ hp⟩
    · exact ⟨q, hq⟩
  | lost _ _ _ _ he =>
    rw [he, Engine.get?_drop] at hq
    split at hq
    · cases hq
    · exact ⟨q, hq⟩

theorem known_posts (hs : s.engine.Sound) (body : Body) (ids : List PeerId) {j : PeerId}
    {q : Peer (Box μ)} (hq : (s.posts body ids).engine.roster.get? j = some q) :
    ∃ p, s.engine.roster.get? j = some p := by
  induction ids generalizing s with
  | nil => exact ⟨q, hq⟩
  | cons id ids ih =>
    have hposted := s.posted_post id body fun _ => hs.filed
    obtain ⟨p, hp⟩ := ih (hposted.shifts.sound hs) hq
    exact hposted.known hp

theorem Books.posts (hs : s.engine.Sound) (hb : body.command ≠ .hello)
    (hform : body.isNeutral = true ∨ ∀ n, ∃ frames, Wire.encode ⟨n, body⟩ = .ok frames)
    (hfollows : body.Follows x.status) (hn : ids.Nodup) (h : s.Books knows)
    (hk : ∀ id ∈ ids, knows id = x) (hello : Hello) :
    (s.posts body ids).Books (fun id => if id ∈ ids then x.after body else knows id) ∧
      s.carriage.Grows (s.posts body ids).carriage hello := by
  -- The induction is on the peers still to be told; `knows` follows how far it has come.
  induction ids generalizing s knows with
  | nil => exact ⟨h, .of_same rfl⟩
  | cons id ids ih =>
    obtain ⟨hid, hn⟩ := List.nodup_cons.mp hn
    have hposted := s.posted_post id body fun _ => hs.filed
    have hx := hk id List.mem_cons_self
    have hone := h.post hb hform (hx.symm ▸ hfollows) hposted
    rw [hx] at hone
    have hrest : ∀ j ∈ ids, Function.update knows id (x.after body) j = x := by
      intro j hj
      have hne : j ≠ id := fun heq => hid (heq ▸ hj)
      rw [Function.update_of_ne hne]
      exact hk j (List.mem_cons_of_mem _ hj)
    obtain ⟨hbooks, hgrows⟩ := ih (hposted.shifts.sound hs) hn hone hrest
    refine ⟨hbooks.congr fun {j q} _ => ?_, (h.grows_post hposted hello).trans hgrows⟩
    by_cases hj : j = id
    · rw [if_pos (List.mem_cons.mpr (.inl hj)), hj, if_neg hid, Function.update_self]
    · simp [hj]

theorem Announced.books (h : u.Announced body ids t) (hu : u.engine.Sound)
    (hb : body.command ≠ .hello)
    (hform : ∀ n, ∃ frames, Wire.encode ⟨n, body⟩ = .ok frames) (hfollows : body.Follows x.status)
    (hbooks : u.Books fun _ => x) (hello : Hello) :
    (t.Books fun _ => x.after body) ∧ u.carriage.Grows t.carriage hello := by
  have hn : ids.Nodup := h.everybody.nodup_iff.mpr (SortedMap.nodup_keys _)
  obtain ⟨hposts, hgrows⟩ := hbooks.posts hu hb (.inr hform) hfollows hn (fun _ _ => rfl) hello
  constructor
  · refine (hposts.of_silent (.of_same h.engine h.carriage)).congr fun {j q} hq => ?_
    rw [h.engine] at hq
    obtain ⟨p, hp⟩ := known_posts hu body ids hq
    rw [if_pos (h.everybody.mem_iff.mpr (SortedMap.mem_keys.mpr ⟨p, hp⟩))]
  · exact h.carriage ▸ hgrows

theorem Performed.kept {op : Op} (h : s.Performed near op t) (hs : s.engine.Sound) (hk : s.Kept) :
    t.Kept ∧ s.carriage.Grows t.carriage s.engine.hello := by
  cases h with
  | worked h =>
    have hcont := h.continues hs hk
    exact ⟨hcont.kept, hcont.grows⟩
  | dressed _ he hc | drained he hc =>
    have hlines := congrArg Ledger.lines hc
    have hstanding : t.engine.standing = s.engine.standing := Engine.standing_congr (he ▸ rfl) (he ▸ rfl)
    refine ⟨?_, .of_same hlines⟩
    rw [Kept, hstanding]
    exact Books.own hk (he ▸ rfl) (he ▸ rfl) hlines
  | @joined group ids u _ hnew hok he hc _ h =>
    have hlines := congrArg Ledger.lines hc
    have hu : u.engine.Sound := he ▸ hs.enlist hok
    have hbooks : u.Books fun _ => s.engine.standing := Books.own hk (he ▸ rfl) (he ▸ rfl) hlines
    have hform := fun n => Wire.encode_join (Engine.checkGroup_eq_ok.mp hok).1 n (s.engine.status + 1)
    have hfollows : Body.Follows s.engine.standing.status (.join group (s.engine.status + 1)) := rfl
    obtain ⟨hkept, hgrows⟩ :=
      h.books hu (fun hb => by cases hb) hform hfollows hbooks s.engine.hello
    refine ⟨?_, (Ledger.Grows.of_same hlines).trans hgrows⟩
    have hself : t.engine.standing = u.engine.standing := (h.shifts hu).self.standing
    rw [Kept, hself, he, Engine.standing_enlist]
    exact hkept
  | @left group ids u _ hold he hc _ h =>
    have hlines := congrArg Ledger.lines hc
    have hu : u.engine.Sound := he ▸ hs.delist group
    have hbooks : u.Books fun _ => s.engine.standing := Books.own hk (he ▸ rfl) (he ▸ rfl) hlines
    have hform := fun n => Wire.encode_leave (hs.presentable.joined_bytes hold) n (s.engine.status + 1)
    have hfollows : Body.Follows s.engine.standing.status (.leave group (s.engine.status + 1)) := rfl
    obtain ⟨hkept, hgrows⟩ :=
      h.books hu (fun hb => by cases hb) hform hfollows hbooks s.engine.hello
    refine ⟨?_, (Ledger.Grows.of_same hlines).trans hgrows⟩
    have hself : t.engine.standing = u.engine.standing := (h.shifts hu).self.standing
    rw [Kept, hself, he, Engine.standing_delist]
    exact hkept
  | halted _ he hc =>
    have hlines := congrArg Ledger.lines hc
    have hstanding : t.engine.standing = s.engine.standing := Engine.standing_congr (he ▸ rfl) (he ▸ rfl)
    refine ⟨?_, .of_same hlines⟩
    rw [Kept, hstanding]
    refine Books.idle hk (he ▸ rfl) hlines fun hq => ?_
    rw [he] at hq
    cases hq
  | received _ _ _ h =>
    have hcont := h.continues hs hk
    exact ⟨hcont.kept, hcont.grows⟩

/-! ### Runs -/

theorem kept_turn (hs : s.engine.Sound) (hk : s.Kept) (x : Turn κ) :
    (s.turn (s.onLedger x)).Kept ∧
      s.carriage.Grows (s.turn (s.onLedger x)).carriage s.engine.hello := by
  obtain ⟨hkept, hgrows⟩ := (performed_turn hs (s.onLedger x)).kept hs (Books.own hk rfl rfl rfl)
  have hsame : s.carriage.Grows (s.onLedger x).carriage s.engine.hello := .of_same rfl
  exact ⟨hkept, hsame.trans hgrows⟩

theorem kept_keep (hs : s.engine.Sound) (hk : s.Kept) (turns : List (Turn κ)) :
    (s.keep turns).Kept := by
  induction turns generalizing s with
  | nil => exact hk
  | cons x turns ih => exact ih (sound_turn hs _) (kept_turn hs hk x).1

/-- What a mailbox took first is the HELLO of the moment in which it was opened. -/
def Greets (s : Station (Ledger κ) (Box μ)) (turns : List (Turn κ)) (i : Nat) (m : Message) : Prop :=
  ∃ before x after, turns = before ++ x :: after ∧ (s.keep before).carriage.lines[i]? = none ∧
    (∃ l, (s.keep (before ++ [x])).carriage.lines[i]? = some l) ∧
    m = ⟨1, .hello (s.keep before).engine.hello⟩

theorem greets_keep (hs : s.engine.Sound) (hk : s.Kept) (hblank : s.carriage.lines = [])
    (turns : List (Turn κ)) {i : Nat} {l : Line} {m : Message}
    (hl : (s.keep turns).carriage.lines[i]? = some l) (hm : l.said.head? = some m) :
    s.Greets turns i m := by
  -- A line is there before the last turn or is opened in it.
  induction turns using List.reverseRecOn generalizing l with
  | nil =>
    change s.carriage.lines[i]? = some l at hl
    rw [hblank] at hl
    cases hl
  | append_singleton turns x ih =>
    have hgrows := (kept_turn (sound_keep hs turns) (kept_keep hs hk turns) x).2
    have hlast : s.keep (turns ++ [x]) = (s.keep turns).turn ((s.keep turns).onLedger x) :=
      keep_append s turns [x]
    cases hold : (s.keep turns).carriage.lines[i]? with
    | none =>
      refine ⟨turns, x, [], rfl, hold, ⟨l, hl⟩, ?_⟩
      rw [hlast] at hl
      exact hgrows.opened hold hl hm
    | some l₀ =>
      obtain ⟨l', hl', hhead⟩ := hgrows.kept hold
      rw [← hlast] at hl'
      obtain rfl := Option.some.inj (hl.symm.trans hl')
      obtain ⟨before, y, after, rfl, hopened⟩ := ih hold (hhead.symm.trans hm)
      exact ⟨before, y, after ++ [x], List.append_assoc .., hopened⟩

/-- What is known of all that an engine sends in a run that starts at `s`. -/
structure Outbound (s : Station (Ledger κ) (Box μ)) (turns : List (Turn κ)) : Prop where
  /-- All that is the run of an engine without a ledger. -/
  plain : (s.keep turns).plain = s.plain.run turns
  spelled : ∀ {i : Nat} {l : Line}, (s.keep turns).carriage.lines[i]? = some l →
    List.Forall₂ (fun m content => Wire.encode m = .ok content) l.said l.taken
  inSequence : ∀ {i : Nat} {l : Line}, (s.keep turns).carriage.lines[i]? = some l →
    InSequence l.said
  greets : ∀ {i : Nat} {l : Line} {m}, (s.keep turns).carriage.lines[i]? = some l →
    l.said.head? = some m → s.Greets turns i m
  counts : ∀ {i : Nat} {l : Line}, (s.keep turns).carriage.lines[i]? = some l → l.Lenient →
    (statuses l.said).IsChain fun a b => b = a + 1
  /-- Every entry has a line of its own, and who read all of it knows the engine's groups and status. -/
  current : ∀ {id p}, (s.keep turns).engine.roster.get? id = some p →
    ∃ (box : Box μ) (l : Line), p.mailbox = some box ∧
      (s.keep turns).carriage.lines[box.number]? = some l ∧ l.said ≠ [] ∧
      p.sent = .ofNat l.said.length ∧
      (l.Lenient → (statuses l.said).getLast? = some (s.keep turns).engine.status ∧
        replay none l.said = some ⟨p.sent, (s.keep turns).engine.status, (s.keep turns).engine.name,
          (s.keep turns).engine.joined.contains⟩)
  apart : ∀ {id j p q} {box box' : Box μ}, (s.keep turns).engine.roster.get? id = some p →
    (s.keep turns).engine.roster.get? j = some q → p.mailbox = some box →
    q.mailbox = some box' → box.number = box'.number → id = j
  rejoin : ∀ walk group, (s.keep turns).engine.joined.contains group = true →
    (s.keep turns).perform walk (.join group) = (.ok (), s.keep turns)
  releave : ∀ walk group, (s.keep turns).engine.joined.contains group = false →
    (s.keep turns).perform walk (.leave group) = (.ok (), s.keep turns)

/-- Whatever is done to an engine that is new, and whatever its mailboxes answer. -/
theorem outbound_run_new (id : PeerId) (name endpoint : String) (timing : Timing) (carriage : κ)
    (turns : List (Turn κ)) :
    (new (Engine.new id name endpoint timing : Engine (Box μ)) ⟨carriage, []⟩).Outbound turns := by
  let s : Station (Ledger κ) (Box μ) := new (Engine.new id name endpoint timing) ⟨carriage, []⟩
  have hs : s.engine.Sound := Engine.sound_new id name endpoint timing
  have hk : s.Kept := Books.new _ carriage rfl _
  have hkept := kept_keep hs hk turns
  constructor
  case plain => exact s.plain_keep turns
  case spelled => exact fun hl => (hkept.orderly hl).spelled
  case inSequence => exact fun hl => (hkept.orderly hl).inSequence
  case greets => exact fun hl hm => greets_keep hs hk rfl turns hl hm
  case counts =>
    intro i l hl hlenient
    have horderly := hkept.orderly hl
    exact horderly.inSequence.isChain (horderly.fits hlenient)
  case current =>
    intro id p hp
    obtain ⟨box, l, hbox, hl, htells⟩ := hkept.entry hp
    refine ⟨box, l, hbox, hl, htells.begun, htells.count, fun hlenient => ?_⟩
    have hreplay := htells.replay hlenient
    exact ⟨(hkept.orderly hl).inSequence.getLast? hreplay, hreplay⟩
  case apart => exact hkept.apart
  case rejoin =>
    intro walk group hjoined
    rw [perform, join, if_pos hjoined]
  case releave =>
    intro walk group hjoined
    rw [perform, leave, if_neg (Bool.eq_false_iff.mp hjoined)]

end Station
end PeerMesh
