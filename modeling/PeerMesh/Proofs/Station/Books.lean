import PeerMesh.Proofs.Station.Ledger

/-!
# Books in order

The books of an engine are its ledger together with what it remembers of each peer. They are in
order if every line is orderly and every entry is at the end of its line. A JOIN or a LEAVE reaches
the peers one after the other, so that for a while they know different things of the engine; the
invariant is therefore stated for any account of who knows what.
-/

namespace PeerMesh
set_option autoImplicit false

/-- What a node says of itself in JOINs and LEAVEs. -/
structure Standing where
  status : UInt8
  isIn : String → Bool

namespace Standing

def after (x : Standing) (body : Body) : Standing :=
  ⟨body.statusAfter x.status, body.groupsAfter x.isIn⟩

theorem after_of_neutral {body : Body} (h : body.isNeutral = true) (x : Standing) :
    x.after body = x := by
  cases body with
  | whisper | shout | ping | pingOk => rfl
  | hello | join | leave => cases h

end Standing

namespace Engine
variable {μ : Type} {e e' : Engine μ}

def standing (e : Engine μ) : Standing := ⟨e.status, e.joined.contains⟩

theorem standing_congr (hs : e'.status = e.status) (hj : e'.joined = e.joined) :
    e'.standing = e.standing := by
  rw [standing, hs, hj]
  rfl

theorem SameSelf.standing (h : e.SameSelf e') : e'.standing = e.standing :=
  standing_congr h.status h.joined

theorem standing_enlist (e : Engine μ) (group : String) :
    (e.enlist group).standing = e.standing.after (.join group (e.status + 1)) := by
  have hgroups : (e.joined.insert group).contains =
      Body.groupsAfter e.joined.contains (.join group (e.status + 1)) := by
    funext g
    exact SortedSet.contains_insert _ _ _
  rw [Standing.after, standing, enlist, hgroups]
  rfl

theorem standing_delist (e : Engine μ) (group : String) :
    (e.delist group).standing = e.standing.after (.leave group (e.status + 1)) := by
  have hgroups : (e.joined.erase group).contains =
      Body.groupsAfter e.joined.contains (.leave group (e.status + 1)) := by
    funext g
    exact SortedSet.contains_erase _ _ _
  rw [Standing.after, standing, delist, hgroups]
  rfl

end Engine

namespace Line
variable {l : Line} {content : Content} {sent : UInt16} {name : String} {x : Standing} {body : Body}
  {e : SendError}

/-- The line ends where an entry is that sent message `sent` last. Who read all of it knows what the
node says of itself. -/
structure Tells (l : Line) (sent : UInt16) (name : String) (x : Standing) : Prop where
  begun : l.said ≠ []
  count : sent = .ofNat l.said.length
  replay : l.Lenient → replay none l.said = some ⟨sent, x.status, name, x.isIn⟩

namespace Tells

theorem next (h : l.Tells sent name x) : sent + 1 = .ofNat (l.said.length + 1) := by
  rw [h.count, UInt16.ofNat_add]
  rfl

theorem orderly (h : l.Tells sent name x) (hl : l.Orderly) (hb : body.command ≠ .hello)
    (hf : Wire.encode ⟨sent + 1, body⟩ = .ok content) (hfollows : body.Follows x.status) :
    Orderly (l ++ [(content, .ok ())]) := by
  have hm : (⟨sent + 1, body⟩ : Message).isHello = false := decide_eq_false hb
  refine hl.took hf h.next ?_ fun hlenient => ?_
  · rw [hm]
    exact iff_of_false Bool.false_ne_true h.begun
  · rw [fits_of_not_hello hm, h.replay hlenient]
    rintro y ⟨⟩
    exact ⟨rfl, hfollows⟩

theorem took (h : l.Tells sent name x) (hb : body.command ≠ .hello)
    (hf : Wire.encode ⟨sent + 1, body⟩ = .ok content) :
    Tells (l ++ [(content, .ok ())]) (sent + 1) name (x.after body) := by
  have hm : (⟨sent + 1, body⟩ : Message).isHello = false := decide_eq_false hb
  have hsaid := said_took l (Wire.decode_of_encode hf)
  constructor
  · rw [hsaid]
    exact List.append_ne_nil_of_right_ne_nil _ (List.cons_ne_nil _ _)
  · rw [hsaid, List.length_append, List.length_singleton]
    exact h.next
  · intro hlenient
    rw [hsaid, replay_append, h.replay hlenient.of_append]
    exact hear_some hm _

theorem refused (h : l.Tells sent name x) (hf : Wire.encode ⟨sent + 1, body⟩ = .ok content)
    (he : e.isFatal = false) : Tells (l ++ [(content, .error e)]) sent name (x.after body) := by
  have hsaid := said_refused l content e
  refine ⟨hsaid ▸ h.begun, hsaid ▸ h.count, fun hlenient => ?_⟩
  cases hb : body.isNeutral with
  | true =>
    rw [hsaid, Standing.after_of_neutral hb]
    exact h.replay hlenient.of_append
  | false =>
    -- A lenient mailbox does not turn away a JOIN or a LEAVE by itself.
    exact absurd hlenient (not_lenient_refused l (Wire.decode_of_encode hf) hb he)

end Tells

theorem orderly_greeting {h : Hello} (hf : Wire.encode ⟨1, .hello h⟩ = .ok content) :
    Orderly [(content, .ok ())] :=
  Orderly.nil.took hf rfl (iff_of_true rfl rfl) fun _ => rfl

theorem said_greeting {h : Hello} (hf : Wire.encode ⟨1, .hello h⟩ = .ok content) :
    said [(content, .ok ())] = [⟨1, .hello h⟩] :=
  said_took [] (Wire.decode_of_encode hf)

theorem tells_greeting {μ : Type} {e : Engine μ}
    (hf : Wire.encode ⟨1, .hello e.hello⟩ = .ok content) :
    Tells [(content, .ok ())] 1 e.name e.standing := by
  have hsaid := said_greeting hf
  have hgroups : (fun g => decide (g ∈ e.joined.toList)) = e.joined.contains := by
    funext g
    exact Bool.eq_iff_iff.mpr (decide_eq_true_iff.trans SortedSet.mem_toList)
  constructor
  · rw [hsaid]
    exact List.cons_ne_nil _ _
  · rw [hsaid]
    rfl
  · intro _
    rw [hsaid, Engine.standing, ← hgroups]
    rfl

end Line

namespace Ledger
variable {κ : Type} {c c' c'' : Ledger κ} {h : Hello}

/-- No line changes its first message, and whoever is greeted on a new line is greeted with `h`. -/
structure Grows (c c' : Ledger κ) (h : Hello) : Prop where
  kept : ∀ {i : Nat} {l : Line}, c.lines[i]? = some l →
    ∃ l' : Line, c'.lines[i]? = some l' ∧ l'.said.head? = l.said.head?
  opened : ∀ {i : Nat} {l : Line} {m}, c.lines[i]? = none → c'.lines[i]? = some l → l.said.head? = some m →
    m = ⟨1, .hello h⟩

namespace Grows

theorem of_same (hc : c'.lines = c.lines) : c.Grows c' h where
  kept hl := ⟨_, hc ▸ hl, rfl⟩
  opened hl hl' := by
    rw [hc, hl] at hl'
    cases hl'

theorem trans (h₁ : c.Grows c' h) (h₂ : c'.Grows c'' h) : c.Grows c'' h where
  kept hl := by
    obtain ⟨l', hl', hhead⟩ := h₁.kept hl
    obtain ⟨l'', hl'', hhead'⟩ := h₂.kept hl'
    exact ⟨l'', hl'', hhead'.trans hhead⟩
  opened := by
    intro i l m hnone hl hm
    cases hmid : c'.lines[i]? with
    | none => exact h₂.opened hmid hl hm
    | some l' =>
      obtain ⟨l'', hl'', hhead⟩ := h₂.kept hmid
      obtain rfl := Option.some.inj (hl.symm.trans hl'')
      exact h₁.opened hnone hmid (hhead.symm.trans hm)

theorem of_write {i : Nat} {l : Line} {entry : Content × SendResult} (hl : c.lines[i]? = some l)
    (hsome : l.said ≠ []) (hc : c'.lines = c.lines.modify i (· ++ [entry])) : c.Grows c' h where
  kept := by
    intro j l₀ hj
    by_cases hij : i = j
    · subst hij
      obtain rfl := Option.some.inj (hl.symm.trans hj)
      refine ⟨l ++ [entry], ?_, ?_⟩
      · rw [hc, List.getElem?_modify_eq, hl]
        rfl
      · rw [Line.said_append, List.head?_append_of_ne_nil _ hsome]
    · exact ⟨l₀, by rw [hc, List.getElem?_modify_ne _ _ hij, hj], rfl⟩
  opened := by
    intro j l₀ m hnone hj
    have hlt := (List.getElem?_eq_some_iff.mp hj).1
    rw [hc, List.length_modify] at hlt
    rw [List.getElem?_eq_getElem hlt] at hnone
    cases hnone

theorem of_append {l : Line} (hc : c'.lines = c.lines ++ [l])
    (hhead : ∀ m, l.said.head? = some m → m = ⟨1, .hello h⟩) : c.Grows c' h where
  kept hl := ⟨_, by rw [hc, List.getElem?_append_left (List.getElem?_eq_some_iff.mp hl).1, hl], rfl⟩
  opened := by
    intro i l₀ m hnone hl hm
    rw [hc, List.getElem?_append_right (List.getElem?_eq_none_iff.mp hnone)] at hl
    obtain rfl := List.mem_singleton.mp (List.mem_of_getElem? hl)
    exact hhead m hm

end Grows
end Ledger

namespace Station
variable {κ μ : Type} {s t : Station (Ledger κ) (Box μ)} {knows knows' : PeerId → Standing}
  {id : PeerId} {p : Peer (Box μ)} {box : Box μ} {l : Line}

/-- The books are in order, when each peer has been told what `knows` says. -/
structure Books (s : Station (Ledger κ) (Box μ)) (knows : PeerId → Standing) : Prop where
  orderly : ∀ {i : Nat} {l}, s.carriage.lines[i]? = some l → l.Orderly
  entry : ∀ {id p}, s.engine.roster.get? id = some p → ∃ (box : Box μ) (l : Line),
    p.mailbox = some box ∧ s.carriage.lines[box.number]? = some l ∧
    l.Tells p.sent s.engine.name (knows id)
  apart : ∀ {id j p q} {box box' : Box μ}, s.engine.roster.get? id = some p →
    s.engine.roster.get? j = some q → p.mailbox = some box → q.mailbox = some box' →
    box.number = box'.number → id = j

namespace Books

theorem new (e : Engine (Box μ)) (c : κ) (he : e.roster = .empty) (knows : PeerId → Standing) :
    (Station.new e ⟨c, []⟩).Books knows where
  orderly hl := by cases hl
  entry := by
    intro id p hp
    change e.roster.get? id = _ at hp
    rw [he] at hp
    cases hp
  apart := by
    intro id j p q box box' hp
    change e.roster.get? id = _ at hp
    rw [he] at hp
    cases hp

/-- Only of a peer that has an entry does it matter what it knows. -/
theorem congr (h : s.Books knows)
    (hk : ∀ {id p}, s.engine.roster.get? id = some p → knows' id = knows id) : s.Books knows' where
  orderly := h.orderly
  entry hp := by
    rw [hk hp]
    exact h.entry hp
  apart := h.apart

/-- Nothing is sent. Entries may go, and the others stay as used as they were. -/
theorem idle (h : s.Books knows) (hname : t.engine.name = s.engine.name)
    (hlines : t.carriage.lines = s.carriage.lines)
    (hentry : ∀ {id q}, t.engine.roster.get? id = some q →
      ∃ p, s.engine.roster.get? id = some p ∧ q.sent = p.sent ∧ q.mailbox = p.mailbox) :
    t.Books knows where
  orderly hl := h.orderly (hlines ▸ hl)
  entry := by
    intro id q hq
    obtain ⟨p, hp, hsent, hsame⟩ := hentry hq
    rw [hsame, hlines, hsent, hname]
    exact h.entry hp
  apart := by
    intro id j q q' box box' hq hq' hbox hbox'
    obtain ⟨p, hp, -, hsame⟩ := hentry hq
    obtain ⟨p', hp', -, hsame'⟩ := hentry hq'
    exact h.apart hp hp' (hsame ▸ hbox) (hsame' ▸ hbox')

theorem own (h : s.Books knows) (hname : t.engine.name = s.engine.name)
    (hroster : t.engine.roster = s.engine.roster)
    (hlines : t.carriage.lines = s.carriage.lines) : t.Books knows :=
  h.idle hname hlines fun hq => ⟨_, hroster ▸ hq, rfl, rfl⟩

theorem of_silent (h : s.Books knows) (hsilent : s.Silent t) : t.Books knows := by
  refine h.idle hsilent.name (congrArg Ledger.lines hsilent.carriage) fun hq => ?_
  obtain ⟨p, hp, hsent, hbox, -⟩ := hsilent.entry hq
  exact ⟨p, hp, hsent, hbox⟩

/-- One peer's mailbox is handed something. That peer may know more by then, or be gone. -/
theorem write (h : s.Books knows) (hp : s.engine.roster.get? id = some p)
    (hbox : p.mailbox = some box) (hl : s.carriage.lines[box.number]? = some l)
    {call : Content × SendResult} (horderly : Line.Orderly (l ++ [call]))
    (hname : t.engine.name = s.engine.name)
    (hlines : t.carriage.lines = s.carriage.lines.modify box.number (· ++ [call]))
    (hentry : ∀ {j q}, t.engine.roster.get? j = some q →
      j = id ∧ q.mailbox = some box ∧ Line.Tells (l ++ [call]) q.sent s.engine.name (knows' id) ∨
      j ≠ id ∧ s.engine.roster.get? j = some q ∧ knows' j = knows j) : t.Books knows' := by
  have hnow : t.carriage.lines[box.number]? = some (l ++ [call]) := by
    rw [hlines, List.getElem?_modify_eq, hl]
    rfl
  have hold : ∀ {j q}, t.engine.roster.get? j = some q →
      ∃ q₀, s.engine.roster.get? j = some q₀ ∧ q.mailbox = q₀.mailbox := by
    intro j q hq
    rcases hentry hq with ⟨rfl, hsame, -⟩ | ⟨-, hq, -⟩
    · exact ⟨p, hp, hsame.trans hbox.symm⟩
    · exact ⟨q, hq, rfl⟩
  constructor
  case orderly =>
    intro j l₀ hj
    by_cases hij : box.number = j
    · subst hij
      obtain rfl := Option.some.inj (hnow.symm.trans hj)
      exact horderly
    · rw [hlines, List.getElem?_modify_ne _ _ hij] at hj
      exact h.orderly hj
  case entry =>
    intro j q hq
    rw [hname]
    rcases hentry hq with ⟨rfl, hsame, htells⟩ | ⟨hj, hq, hknows⟩
    · exact ⟨box, l ++ [call], hsame, hnow, htells⟩
    · obtain ⟨box', l', hbox', hl', htells⟩ := h.entry hq
      have hapart : box.number ≠ box'.number := fun hsame => hj (h.apart hq hp hbox' hbox hsame.symm)
      refine ⟨box', l', hbox', ?_, hknows ▸ htells⟩
      rw [hlines, List.getElem?_modify_ne _ _ hapart, hl']
  case apart =>
    intro j k q q' box₁ box₂ hq hq' hbox₁ hbox₂
    obtain ⟨q₀, hq₀, hsame⟩ := hold hq
    obtain ⟨q₁, hq₁, hsame'⟩ := hold hq'
    exact h.apart hq₀ hq₁ (hsame ▸ hbox₁) (hsame' ▸ hbox₂)

/-- A new line is begun, perhaps for a new entry. -/
theorem opened (h : s.Books knows) (id : PeerId) {l : Line} (horderly : l.Orderly)
    (hname : t.engine.name = s.engine.name) (hlines : t.carriage.lines = s.carriage.lines ++ [l])
    (hentry : ∀ {j q}, t.engine.roster.get? j = some q → s.engine.roster.get? j = some q ∨
      j = id ∧ (∃ box, q.mailbox = some box ∧ box.number = s.carriage.lines.length) ∧
        l.Tells q.sent s.engine.name (knows id)) : t.Books knows := by
  have hnow : t.carriage.lines[s.carriage.lines.length]? = some l := by
    rw [hlines, List.getElem?_concat_length]
  have hnew : ∀ {j q} {box : Box μ}, s.engine.roster.get? j = some q → q.mailbox = some box →
      box.number < s.carriage.lines.length := by
    intro j q box hq hbox
    obtain ⟨box', l', hbox', hl', -⟩ := h.entry hq
    obtain rfl := Option.some.inj (hbox.symm.trans hbox')
    exact (List.getElem?_eq_some_iff.mp hl').1
  constructor
  case orderly =>
    intro j l₀ hj
    rw [hlines, List.getElem?_append] at hj
    split at hj
    · exact h.orderly hj
    · obtain rfl := List.mem_singleton.mp (List.mem_of_getElem? hj)
      exact horderly
  case entry =>
    intro j q hq
    rw [hname]
    rcases hentry hq with hq | ⟨rfl, ⟨box, hbox, hnumber⟩, htells⟩
    · obtain ⟨box', l', hbox', hl', htells⟩ := h.entry hq
      refine ⟨box', l', hbox', ?_, htells⟩
      rw [hlines, List.getElem?_append_left (List.getElem?_eq_some_iff.mp hl').1, hl']
    · exact ⟨box, l, hbox, hnumber ▸ hnow, htells⟩
  case apart =>
    intro j k q q' box box' hq hq' hbox hbox' hsame
    rcases hentry hq with hq | ⟨rfl, ⟨box₁, hbox₁, hnumber⟩, -⟩
    · rcases hentry hq' with hq' | ⟨rfl, ⟨box₂, hbox₂, hnumber⟩, -⟩
      · exact h.apart hq hq' hbox hbox' hsame
      · obtain rfl := Option.some.inj (hbox'.symm.trans hbox₂)
        have hlt := hnew hq hbox
        omega
    · obtain rfl := Option.some.inj (hbox.symm.trans hbox₁)
      rcases hentry hq' with hq' | ⟨rfl, -⟩
      · have hlt := hnew hq' hbox'
        omega
      · rfl

end Books
end Station
end PeerMesh
