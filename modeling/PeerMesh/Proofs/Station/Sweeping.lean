import PeerMesh.Proofs.Station.Fates
import PeerMesh.Proofs.Station.Liveness

/-!
# A sweep, peer by peer

A sweep does to each peer what a look at this peer alone would do, whatever it finds the others to be
and whatever their mailboxes answer. Afterwards there is nothing left for another sweep at the same
time. How often a mailbox was tried cannot be read off a network, which keeps no trace of a message
that it refused. So that is said of a ledger, which watches an engine and changes nothing.
-/

namespace PeerMesh
set_option autoImplicit false

variable {κ μ : Type}

/-- A look at `now` finds that the peer is silent, and did not find so before. -/
structure Peer.Pingable (p : Peer μ) (now : Nat) : Prop where
  alive : now < p.expiredAt
  silent : p.evasiveAt ≤ now
  first : p.evasive = false

theorem Wire.encode_ping (sequence : UInt16) : ∃ frames, encode ⟨sequence, .ping⟩ = .ok frames :=
  ⟨_, encode_eq_ok.mpr ⟨trivial, rfl⟩⟩

namespace Station

/-! ### One look -/

section
variable {s : Station κ μ} {id : PeerId} {p : Peer μ}

theorem upholds_evade (hp : s.engine.roster.get? id = some p) :
    s.engine.Upholds id { p with evasive := true } (p.declaredName.map (Event.evasive id)).toList
      (s.evade id).engine := by
  rw [engine_evade hp]
  exact (s.engine.upholds_insert id _).report (Event.peer?_evasive id p.declaredName)

end

section
variable {owner : String → PeerId} {s t u : Station Network Network.Mailbox} {id : PeerId}
  {p : Peer Network.Mailbox} {now : Nat}

/-- What a look at `now` makes of a peer with the entry `p`. A peer whose time is up is removed. One
that falls silent is flagged, reported if it has entered, and sent a PING with its next number; it is
lost if its mailbox fails. Any other peer is left alone. -/
inductive Looked (now : Nat) (s : Station Network Network.Mailbox) (id : PeerId)
    (p : Peer Network.Mailbox) (t : Station Network Network.Mailbox) : Prop
  | expired (hnow : p.expiredAt ≤ now)
    (hinbox : Network.Untouched p.endpoint s.carriage t.carriage) (h : s.engine.Departs id t.engine)
  | reached {box frames} (hdue : p.Pingable now) (hbox : p.mailbox = some box)
    (hend : box.endpoint = p.endpoint) (hf : Wire.encode ⟨p.sent + 1, .ping⟩ = .ok frames)
    (hsend : (s.carriage.send box frames).1 = .ok ())
    (hinbox : t.carriage.inboxes.get? p.endpoint =
      some (s.carriage.waiting p.endpoint ++ [⟨box.routingId, frames⟩]))
    (h : s.engine.Upholds id { p with evasive := true, sent := p.sent + 1 }
      (p.declaredName.map (Event.evasive id)).toList t.engine)
  | lost {box frames} (hdue : p.Pingable now) (hbox : p.mailbox = some box)
    (hend : box.endpoint = p.endpoint) (hf : Wire.encode ⟨p.sent + 1, .ping⟩ = .ok frames)
    (hsend : (s.carriage.send box frames).1.isFatal = true)
    (hinbox : t.carriage.inboxes.get? p.endpoint = s.carriage.inboxes.get? p.endpoint)
    (h : Engine.Departs { s.engine with
      events := s.engine.events ++ (p.declaredName.map (Event.evasive id)).toList } id t.engine)
  | left (hnow : now < p.expiredAt) (hquiet : p.evasiveAt ≤ now → p.evasive = true)
    (hinbox : Network.Untouched p.endpoint s.carriage t.carriage)
    (h : s.engine.Upholds id p [] t.engine)

theorem Reaped.looked (h : s.Reaped now id t) (hs : s.engine.Sound) (hplaced : s.Placed owner)
    (hp : s.engine.roster.get? id = some p) : s.Looked now id p t := by
  cases h with
  | absent hnone => cases hp.symm.trans hnone
  | expired hp' hnow he hc =>
    obtain rfl := Option.some.inj (hp.symm.trans hp')
    exact .expired hnow (hc ▸ .refl _ _) (Engine.departs_of_alike hs (he ▸ .refl id _))
  | left hp' hnow hquiet ht =>
    obtain rfl := Option.some.inj (hp.symm.trans hp')
    rw [ht]
    exact .left hnow hquiet (.refl _ _) ((Engine.Alike.refl id s.engine).upholds hp)
  | pinged hp' hnow hsilent hfirst h =>
    obtain rfl := Option.some.inj (hp.symm.trans hp')
    have hdue : p.Pingable now := ⟨hnow, hsilent, hfirst⟩
    have hsound : (s.evade id).engine.Sound := (s.shifts_evade id).sound hs
    have hevaded : (s.evade id).Placed owner := (about_evade owner id).placed hplaced
    have hupholds := upholds_evade hp
    cases h.addressed hsound hevaded (get?_evade hp) Wire.encode_ping with
    | reached hbox hend hf hsend hinbox h =>
      rw [carriage_evade] at hsend hinbox
      have htold := hupholds.trans h
      rw [List.append_nil] at htold
      exact .reached hdue hbox hend hf hsend hinbox htold
    | lost hbox hend hf hsend hinbox h =>
      rw [carriage_evade] at hsend hinbox
      exact .lost hdue hbox hend hf hsend hinbox
        (hupholds.departs hp rfl rfl (Event.peer?_evasive id p.declaredName) h)

theorem Looked.alike (h : s.Looked now id p t) (ha : t.Alike owner id u)
    (hown : owner p.endpoint = id) : s.Looked now id p u := by
  have huntouched := ha.carriage.untouched hown
  cases h with
  | expired hnow hinbox h => exact .expired hnow (hinbox.trans huntouched) (h.alike ha.engine)
  | reached hdue hbox hend hf hsend hinbox h =>
    exact .reached hdue hbox hend hf hsend (huntouched.inbox.trans hinbox) (h.alike ha.engine)
  | lost hdue hbox hend hf hsend hinbox h =>
    exact .lost hdue hbox hend hf hsend (huntouched.inbox.trans hinbox) (h.alike ha.engine)
  | left hnow hquiet hinbox h =>
    exact .left hnow hquiet (hinbox.trans huntouched) (h.alike ha.engine)

end

/-! ### One sweep -/

section
variable [Carriage κ μ] {s : Station κ μ} {now : Nat}

theorem reap_eq_foldl (hs : s.engine.Sound) (walk : Walk) (now : Nat) :
    s.reap walk now = (walk.order s.engine.roster.keys).foldl (reapPeer now) s := by
  unfold reap
  split
  · rename_i hstopped
    have hnobody : s.engine.roster.keys = [] := by
      rw [(hs.halted hstopped).1]
      rfl
    rw [hnobody, (walk.perm_order []).eq_nil]
    rfl
  · rfl

/-- A sweep at `now` has nothing to do. -/
def Tidy (now : Nat) (s : Station κ μ) : Prop :=
  ∀ {id p}, s.engine.roster.get? id = some p → now < p.expiredAt ∧ ¬ p.Pingable now

theorem reapPeer_of_tidy (h : s.Tidy now) (id : PeerId) : s.reapPeer now id = s := by
  unfold reapPeer
  split
  · rfl
  · rename_i p hp
    obtain ⟨halive, hquiet⟩ := h hp
    have hkept : (decide (p.evasiveAt ≤ now) && !p.evasive) = false := by
      rw [Bool.eq_false_iff]
      intro hsilent
      obtain ⟨hlate, hfirst⟩ : p.evasiveAt ≤ now ∧ p.evasive = false := by simpa using hsilent
      exact hquiet ⟨halive, hlate, hfirst⟩
    rw [if_neg (Nat.not_le_of_lt halive), hkept, if_neg Bool.false_ne_true]

theorem reap_of_tidy (h : s.Tidy now) (walk : Walk) : s.reap walk now = s := by
  unfold reap
  split
  · rfl
  · induction walk.order s.engine.roster.keys with
    | nil => rfl
    | cons id ids ih => rw [List.foldl_cons, reapPeer_of_tidy h, ih]

end

section
variable {s t : Station Network Network.Mailbox} {now : Nat}

/-- What a sweep at `now` comes to. -/
structure Sweeps (now : Nat) (s t : Station Network Network.Mailbox) : Prop where
  looked : ∀ {id p}, s.engine.roster.get? id = some p → s.Looked now id p t
  unknown : ∀ {id}, s.engine.roster.get? id = none → s.engine.Alike id t.engine
  /-- Endpoints that no peer is at. -/
  elsewhere : ∀ {endpoint}, (∀ {id p}, s.engine.roster.get? id = some p → p.endpoint ≠ endpoint) →
    Network.Untouched endpoint s.carriage t.carriage
  deadlines : ∀ {id q}, t.engine.roster.get? id = some q → ∃ p,
    s.engine.roster.get? id = some p ∧ q.evasiveAt = p.evasiveAt ∧ q.expiredAt = p.expiredAt

theorem sweeps_reap (hs : s.engine.Sound) (hh : s.Homed) (walk : Walk) (now : Nat) :
    s.Sweeps now (s.reap walk now) := by
  obtain ⟨owner, hplaced⟩ := exists_placed hs hh
  have hperm := walk.perm_order s.engine.roster.keys
  have hmem : ∀ {id}, id ∈ walk.order s.engine.roster.keys ↔
      ∃ p, s.engine.roster.get? id = some p := fun {_} => hperm.mem_iff.trans SortedMap.mem_keys
  have hunknown : ∀ {owner id}, s.Placed owner → s.engine.roster.get? id = none →
      s.Alike owner id (s.reap walk now) := by
    intro owner id hplaced hnone
    rw [reap_eq_foldl hs]
    refine alike_foldl_of_not_mem (fun id => about_reapPeer owner id now) hplaced fun hid => ?_
    obtain ⟨p, hp⟩ := hmem.mp hid
    cases hp.symm.trans hnone
  constructor
  case looked =>
    intro id p hp
    have halike := alike_foldl_of_mem (fun id => about_reapPeer owner id now) hplaced
      (hperm.nodup_iff.mpr (SortedMap.nodup_keys _)) (hmem.mpr ⟨p, hp⟩)
    rw [← reap_eq_foldl hs] at halike
    have hreaped := reaped_reapPeer (s := s) (fun {_ _} => hs.filed) now id
    exact (hreaped.looked hs hplaced hp).alike halike (hplaced.owner_endpoint hp)
  case unknown => exact fun hnone => (hunknown hplaced hnone).engine
  case elsewhere =>
    intro endpoint hfree
    have hself : s.engine.roster.get? s.engine.id = none := by
      rw [Option.eq_none_iff_forall_not_mem]
      exact fun p hp => hs.foreign_id hp rfl
    exact untouched_of_free hplaced hfree s.engine.id fun hplaced => hunknown hplaced hself
  case deadlines => exact (undelayed_reap hs walk now).entry

theorem Sweeps.tidy (h : s.Sweeps now t) : t.Tidy now := by
  intro id q hq
  cases hp : s.engine.roster.get? id with
  | none => cases hq.symm.trans ((h.unknown hp).entry.trans hp)
  | some p =>
    cases h.looked hp with
    | expired _ _ h | lost _ _ _ _ _ _ h => cases hq.symm.trans h.gone
    | reached hdue _ _ _ _ _ h =>
      obtain rfl := Option.some.inj (hq.symm.trans h.entry)
      exact ⟨hdue.alive, fun hagain => by cases hagain.first⟩
    | left hnow hquiet _ h =>
      obtain rfl := Option.some.inj (hq.symm.trans h.entry)
      refine ⟨hnow, fun hagain => ?_⟩
      cases hagain.first.symm.trans (hquiet hagain.silent)

end

/-! ### What was tried -/

section
variable [Carriage κ μ] {s t : Station (Ledger κ) (Box μ)} {id : PeerId} {p : Peer (Box μ)}
  {now i : Nat}

/-- What a sweep at `now` wrote on the lines of a ledger: one PING on the line of each peer that was
due, and nothing else. -/
structure Tries (now : Nat) (s t : Station (Ledger κ) (Box μ)) : Prop where
  pinged : ∀ {id p} {box : Box μ}, s.engine.roster.get? id = some p → p.mailbox = some box →
    p.Pingable now → ∃ l frames result, s.carriage.lines[box.number]? = some l ∧
      Wire.encode ⟨p.sent + 1, .ping⟩ = .ok frames ∧
      t.carriage.lines[box.number]? = some (l ++ [(frames, result)])
  spared : ∀ {id p} {box : Box μ}, s.engine.roster.get? id = some p → p.mailbox = some box →
    ¬ p.Pingable now → t.carriage.lines[box.number]? = s.carriage.lines[box.number]?
  elsewhere : ∀ {i : Nat}, (∀ {id p} {box : Box μ}, s.engine.roster.get? id = some p →
    p.mailbox = some box → box.number ≠ i) → t.carriage.lines[i]? = s.carriage.lines[i]?

theorem Reaped.lines_of_pingable (h : s.Reaped now id t) (hp : s.engine.roster.get? id = some p)
    {box : Box μ} (hbox : p.mailbox = some box) (ho : s.Owns id box.number)
    (hdue : p.Pingable now) : ∃ l frames result, s.carriage.lines[box.number]? = some l ∧
      Wire.encode ⟨p.sent + 1, .ping⟩ = .ok frames ∧
      t.carriage.lines[box.number]? = some (l ++ [(frames, result)]) := by
  cases h with
  | absent hnone => cases hp.symm.trans hnone
  | expired hp' hnow =>
    obtain rfl := Option.some.inj (hp.symm.trans hp')
    exact absurd hnow (Nat.not_le_of_lt hdue.alive)
  | left hp' _ hquiet =>
    obtain rfl := Option.some.inj (hp.symm.trans hp')
    cases hdue.first.symm.trans (hquiet hdue.silent)
  | pinged _ _ _ _ h =>
    obtain ⟨frames, hf⟩ := Wire.encode_ping (p.sent + 1)
    obtain ⟨result, hsend, -⟩ := h.sends (get?_evade hp) hbox hf
    rw [carriage_evade] at hsend
    have hline := List.getElem?_eq_getElem ho.opened
    refine ⟨_, frames, result, hline, hf, ?_⟩
    rw [Ledger.lines_of_send hsend, List.getElem?_modify_eq, hline]
    rfl

theorem Reaped.carriage_of_not_pingable (h : s.Reaped now id t)
    (hp : s.engine.roster.get? id = some p) (hdue : ¬ p.Pingable now) : t.carriage = s.carriage := by
  cases h with
  | absent _ ht | left _ _ _ ht => rw [ht]
  | expired _ _ _ hc => exact hc
  | pinged hp' hnow hsilent hfirst =>
    obtain rfl := Option.some.inj (hp.symm.trans hp')
    exact absurd ⟨hnow, hsilent, hfirst⟩ hdue

theorem Reaped.length_lines (h : s.Reaped now id t) :
    t.carriage.lines.length = s.carriage.lines.length := by
  cases h with
  | absent _ ht | left _ _ _ ht => rw [ht]
  | expired _ _ _ hc => rw [hc]
  | pinged _ _ _ _ h =>
    rcases h.sent_or_not with hc | ⟨_, _, _, _, _, _, _, hsend⟩
    · rw [hc, carriage_evade]
    · rw [carriage_evade] at hsend
      rw [Ledger.lines_of_send hsend, List.length_modify]

theorem length_lines_reap (hs : s.engine.Sound) (walk : Walk) (now : Nat) :
    (s.reap walk now).carriage.lines.length = s.carriage.lines.length :=
  reap_induction (R := fun s t : Station (Ledger κ) (Box μ) =>
      t.carriage.lines.length = s.carriage.lines.length)
    (fun _ => rfl) (fun h h' => h'.trans h) (fun _ h => h.length_lines) hs walk

theorem tries_reap (hs : s.engine.Sound) (hk : s.Kept) (walk : Walk) (now : Nat) :
    s.Tries now (s.reap walk now) := by
  constructor
  case pinged =>
    intro id p box hp hbox hdue
    obtain ⟨u, v, hsu, hou, hlu, hreaped, -, hlt⟩ :=
      exists_look hs hp (Owns.of_kept hk hp hbox) walk now
    obtain ⟨l, frames, result, hl, hf, hl'⟩ :=
      hreaped.lines_of_pingable (hsu.engine.entry.trans hp) hbox hou hdue
    exact ⟨l, frames, result, hlu.symm.trans hl, hf, hlt.trans hl'⟩
  case spared =>
    intro id p box hp hbox hdue
    obtain ⟨u, v, hsu, -, hlu, hreaped, -, hlt⟩ :=
      exists_look hs hp (Owns.of_kept hk hp hbox) walk now
    rw [hlt, hreaped.carriage_of_not_pingable (hsu.engine.entry.trans hp) hdue, hlu]
  case elsewhere =>
    intro i hunused
    by_cases hi : i < s.carriage.lines.length
    · -- nobody uses the line, so it may as well be that of the node itself, which is not looked at
      have ho : s.Owns s.engine.id i :=
        ⟨hi, fun hq hbox hnumber => absurd hnumber (hunused hq hbox)⟩
      have hself : s.engine.id ∉ walk.order s.engine.roster.keys := fun hid => by
        obtain ⟨p, hp⟩ := SortedMap.mem_keys.mp ((walk.perm_order _).mem_iff.mp hid)
        exact hs.foreign_id hp rfl
      rw [reap_eq_foldl hs]
      exact (lines_of_others now hs hself ho).2
    · have hlength := length_lines_reap hs walk now
      rw [List.getElem?_eq_none (by omega), List.getElem?_eq_none (by omega)]

end

/-! ### After any run -/

/-- Whatever was done to an engine that was new, whatever has become of the network, and whatever it
becomes before the next sweep. -/
theorem sweeps_run_new (id : PeerId) (name endpoint : String) (timing : Timing) (first : Network)
    (turns : List (Turn Network)) (net : Network) (walk : Walk) (now : Nat) :
    let s : Station Network Network.Mailbox :=
      { (new (Engine.new id name endpoint timing) first).run turns with carriage := net }
    let k := (new (Engine.new id name endpoint timing) ⟨first, []⟩).keep turns
    let t := k.keep [⟨walk, net, .reap now⟩]
    k.plain = (new (Engine.new id name endpoint timing) first).run turns ∧
      t.plain = s.reap walk now ∧ s.Sweeps now t.plain ∧ k.Tries now t ∧
      ∀ (walk : Walk) (c : Ledger Network),
        reap walk { t with carriage := c } now = { t with carriage := c } := by
  intro s k t
  have hs : s.engine.Sound := sound_run (Engine.sound_new id name endpoint timing) turns
  have hh : s.Homed := (homed_run_new id name endpoint timing first turns).congr rfl
  have hkept : k.Kept := kept_keep (Engine.sound_new id name endpoint timing)
    (Books.new _ first rfl _) turns
  have hsame : k.plain = (new (Engine.new id name endpoint timing) first).run turns :=
    plain_keep _ turns
  have ht : t.plain = s.reap walk now := by
    refine (k.plain_keep _).trans ?_
    rw [hsame]
    rfl
  have hsweeps : s.Sweeps now t.plain := ht ▸ sweeps_reap hs hh walk now
  let u : Station (Ledger Network) (Box Network.Mailbox) :=
    { k with carriage := ⟨net, k.carriage.lines⟩ }
  have hu : u.engine.Sound := sound_keep (Engine.sound_new id name endpoint timing) turns
  have htries : u.Tries now (u.reap walk now) := tries_reap hu (Books.own hkept rfl rfl rfl) walk now
  refine ⟨hsame, ht, hsweeps, ⟨htries.pinged, htries.spared, htries.elsewhere⟩, fun walk c => ?_⟩
  refine reap_of_tidy (fun {id q} hq => ?_) walk
  have hentry : t.plain.engine.roster.get? id = some (q.through Box.inner) := by
    change (t.engine.through Box.inner).roster.get? id = _
    rw [Engine.get?_through, hq]
    rfl
  obtain ⟨halive, hquiet⟩ := hsweeps.tidy hentry
  exact ⟨halive, fun hagain => hquiet ⟨hagain.alive, hagain.silent, hagain.first⟩⟩

end Station
end PeerMesh
