import PeerMesh.Proofs.Engine.Alike
import PeerMesh.Proofs.Station.Signs

/-!
# The watch over silent peers

`Reaped` lists what can come of looking at one peer. Looking at the others does not concern that peer,
so a sweep over all of them comes down to the one look at it. Of the notes, only those are followed
that say that a peer expired.
-/

namespace PeerMesh
set_option autoImplicit false

variable {κ μ : Type}

/-! ### Notes of expiry -/

/-- Whether a note says that a certain peer expired. -/
def Note.expires (id : PeerId) : Note → Bool
  | .expired peer _ => decide (peer = id)
  | _ => false

theorem Peer.not_expires_disconnectNotes (p : Peer μ) (id : PeerId) :
    p.disconnectNotes.countP (Note.expires id) = 0 := by
  unfold disconnectNotes
  split <;> rfl

theorem Peer.not_expires_send [Carriage κ μ] (p : Peer μ) (c : κ) (body : Body) (id : PeerId) :
    (p.send c body).notes.countP (Note.expires id) = 0 := by
  have hclose := p.not_expires_disconnectNotes id
  unfold send
  split
  · rfl
  · dsimp only
    split
    · rfl
    · split
      · rfl
      · split
        · simpa [Note.expires] using hclose
        · rfl

namespace Station

/-- How often a peer was noted to have expired. -/
def expiries (s : Station κ μ) (id : PeerId) : Nat := s.journal.toList.countP (Note.expires id)

theorem expiries_note (s : Station κ μ) (notes : List Note) (id : PeerId) :
    (s.note notes).expiries id = s.expiries id + notes.countP (Note.expires id) := by
  simp [expiries, note]

@[simp] theorem expiries_emit (s : Station κ μ) (events : List Event) (id : PeerId) :
    (s.emit events).expiries id = s.expiries id := rfl

theorem expiries_remove (s : Station κ μ) (id j : PeerId) :
    (s.remove id).expiries j = s.expiries j := by
  unfold remove
  split
  · rfl
  · dsimp only
    split <;> simp [expiries_note, Peer.not_expires_disconnectNotes, Note.expires] <;> rfl

theorem expiries_removeIfLost (s : Station κ μ) (id j : PeerId) (result : SendResult) :
    (s.removeIfLost id result).expiries j = s.expiries j := by
  unfold removeIfLost
  split
  · exact s.expiries_remove id j
  · rfl

theorem expiries_tell [Carriage κ μ] (s : Station κ μ) (p : Peer μ) (body : Body) (j : PeerId) :
    (s.tell p body).2.expiries j = s.expiries j := by
  rw [tell, expiries_note, Peer.not_expires_send]
  rfl

/-! ### One peer -/

section
variable [Carriage κ μ] {now : Nat} {s t u : Station κ μ} {id j : PeerId} {p q : Peer μ}

theorem Posted.of_same {body : Body} (h : s.Posted id body t) (he : u.engine = t.engine)
    (hc : u.carriage = t.carriage) : s.Posted id body u := by
  cases h with
  | unmoved h he' hc' => exact .unmoved h (he.trans he') (hc.trans hc')
  | taken hp hb hf hs he' => exact .taken hp hb hf (hc ▸ hs) (he.trans he')
  | rejected hp hb hs hn he' hf => exact .rejected hp hb (hc ▸ hs) hn (he.trans he') hf
  | lost hp hb hs hn he' hf => exact .lost hp hb (hc ▸ hs) hn (he.trans he') hf

/-- All that can come of looking at one peer. -/
inductive Reaped (now : Nat) (s : Station κ μ) (id : PeerId) (t : Station κ μ) : Prop
  | absent (hp : s.engine.roster.get? id = none) (ht : t = s)
  | expired {p : Peer μ} (hp : s.engine.roster.get? id = some p) (hnow : p.expiredAt ≤ now)
    (he : t.engine = s.engine.drop id) (hc : t.carriage = s.carriage)
    (hx : ∀ j, t.expiries j = s.expiries j + if id = j then 1 else 0)
  | pinged {p : Peer μ} (hp : s.engine.roster.get? id = some p) (hnow : now < p.expiredAt)
    (hsilent : p.evasiveAt ≤ now) (hfirst : p.evasive = false)
    (h : (s.evade id).Posted id .ping t) (hx : ∀ j, t.expiries j = s.expiries j)
  | left {p : Peer μ} (hp : s.engine.roster.get? id = some p) (hnow : now < p.expiredAt)
    (h : p.evasiveAt ≤ now → p.evasive = true) (ht : t = s)

omit [Carriage κ μ] in
theorem filed_evade (hf : s.engine.roster.Filed) (id : PeerId) :
    ∀ p, (s.evade id).engine.roster.get? id = some p → p.id = id := by
  intro q hq
  cases hp : s.engine.roster.get? id with
  | none =>
    rw [evade_of_none hp, hp] at hq
    cases hq
  | some p =>
    rw [get?_evade hp] at hq
    obtain rfl := Option.some.inj hq
    exact (hf hp :)

theorem reaped_reapPeer (hf : s.engine.roster.Filed) (now : Nat) (id : PeerId) :
    s.Reaped now id (s.reapPeer now id) := by
  cases hp : s.engine.roster.get? id with
  | none =>
    rw [reapPeer, hp]
    exact .absent hp rfl
  | some p =>
    rw [reapPeer, hp]
    dsimp only
    split
    · rename_i hnow
      refine .expired hp hnow (engine_remove _ id) (carriage_remove _ id) fun j => ?_
      rw [expiries_remove, expiries_note, List.countP_singleton, Note.expires]
      simp
    · rename_i hnow
      split
      · rename_i hsilent
        obtain ⟨hlate, hfirst⟩ : p.evasiveAt ≤ now ∧ p.evasive = false := by simpa using hsilent
        obtain ⟨hengine, hcarriage, -⟩ := ping_eq hp (hf hp)
        have hposted := (s.evade id).posted_post id .ping (filed_evade hf id)
        refine .pinged hp (Nat.lt_of_not_le hnow) hlate hfirst
          (hposted.of_same hengine hcarriage) fun j => ?_
        rw [expiries_removeIfLost]
        refine Eq.trans ?_ (expiries_tell s { p with evasive := true } .ping j)
        cases p.declaredName with
        | none => rfl
        | some name => exact expiries_note _ _ j
      · rename_i hquiet
        refine .left hp (Nat.lt_of_not_le hnow) (fun hlate => ?_) rfl
        simpa [hlate] using hquiet

/-! ### The other peers -/

/-- What was done has nothing to do with a peer. -/
structure Aside (id : PeerId) (s t : Station κ μ) : Prop where
  engine : s.engine.Alike id t.engine
  expiries : t.expiries id = s.expiries id

omit [Carriage κ μ] in
theorem Aside.refl (id : PeerId) (s : Station κ μ) : s.Aside id s := ⟨.refl id s.engine, rfl⟩

omit [Carriage κ μ] in
theorem Aside.trans (h : s.Aside id t) (h' : t.Aside id u) : s.Aside id u :=
  ⟨h.engine.trans h'.engine, h'.expiries.trans h.expiries⟩

theorem Posted.alike {body : Body} (h : s.Posted id body t) (hj : j ≠ id) :
    s.engine.Alike j t.engine := by
  cases h with
  | unmoved _ he | rejected _ _ _ _ he =>
    rw [he]
    exact .refl j s.engine
  | taken _ _ _ _ he =>
    rw [he]
    exact s.engine.alike_insert hj _
  | lost _ _ _ _ he =>
    rw [he]
    exact s.engine.alike_drop hj

omit [Carriage κ μ] in
theorem alike_evade (s : Station κ μ) (hj : j ≠ id) : s.engine.Alike j (s.evade id).engine := by
  cases hp : s.engine.roster.get? id with
  | none =>
    rw [evade_of_none hp]
    exact .refl j s.engine
  | some p =>
    rw [engine_evade hp]
    exact (s.engine.alike_insert hj { p with evasive := true }).trans
      (Engine.alike_report _ hj (Event.peer?_evasive id p.declaredName))

theorem Reaped.aside (h : s.Reaped now id t) (hj : j ≠ id) : s.Aside j t := by
  cases h with
  | absent _ ht | left _ _ _ ht =>
    rw [ht]
    exact .refl j s
  | expired _ _ he _ hx =>
    refine ⟨he ▸ s.engine.alike_drop hj, ?_⟩
    rw [hx, if_neg (Ne.symm hj)]
    rfl
  | pinged _ _ _ _ h hx => exact ⟨(s.alike_evade hj).trans (h.alike hj), hx j⟩

theorem Reaped.shifts (h : s.Reaped now id t) : s.engine.Shifts t.engine := by
  cases h with
  | absent _ ht | left _ _ _ ht =>
    rw [ht]
    exact .refl _
  | expired _ _ he =>
    rw [he]
    exact .single (.drop id)
  | pinged _ _ _ _ h => exact (s.shifts_evade id).trans h.shifts

/-! ### All peers -/

/-- What one look preserves, many looks preserve. -/
theorem foldl_reapPeer (now : Nat) {R : Station κ μ → Station κ μ → Prop} (hrefl : ∀ s, R s s)
    (htrans : ∀ {s t u}, R s t → R t u → R s u) {ids : List PeerId}
    (hstep : ∀ {s t : Station κ μ} {j}, j ∈ ids → s.engine.Sound → s.Reaped now j t → R s t)
    (hs : s.engine.Sound) : R s (ids.foldl (reapPeer now) s) := by
  induction ids generalizing s with
  | nil => exact hrefl s
  | cons j ids ih =>
    have hreaped := reaped_reapPeer (s := s) (fun {_ _} => hs.filed) now j
    have hrest := ih (fun hmem => hstep (List.mem_cons_of_mem j hmem)) (hreaped.shifts.sound hs)
    exact htrans (hstep List.mem_cons_self hs hreaped) hrest

theorem reap_induction {R : Station κ μ → Station κ μ → Prop} (hrefl : ∀ s, R s s)
    (htrans : ∀ {s t u}, R s t → R t u → R s u)
    (hstep : ∀ {s t : Station κ μ} {j}, s.engine.Sound → s.Reaped now j t → R s t)
    (hs : s.engine.Sound) (walk : Walk) : R s (s.reap walk now) := by
  unfold reap
  split
  · exact hrefl s
  · exact foldl_reapPeer now hrefl htrans (fun _ => hstep) hs

theorem sound_foldl_reapPeer (hs : s.engine.Sound) (ids : List PeerId) :
    (ids.foldl (reapPeer now) s).engine.Sound := by
  induction ids generalizing s with
  | nil => exact hs
  | cons j ids ih =>
    exact ih ((reaped_reapPeer (fun {_ _} => hs.filed) now j).shifts.sound hs)

/-- A sweep looks at a peer once, between looks at others. -/
theorem exists_reap_eq (hp : s.engine.roster.get? id = some p) (hrun : s.engine.stopped = false)
    (walk : Walk) (now : Nat) : ∃ before after : List PeerId, id ∉ before ∧ id ∉ after ∧
      s.reap walk now =
        after.foldl (reapPeer now) ((before.foldl (reapPeer now) s).reapPeer now id) := by
  have hperm := walk.perm_order s.engine.roster.keys
  have hmem : id ∈ walk.order s.engine.roster.keys :=
    hperm.mem_iff.mpr (SortedMap.mem_keys.mpr ⟨p, hp⟩)
  obtain ⟨before, after, heq⟩ := List.append_of_mem hmem
  have hnodup : (before ++ id :: after).Nodup :=
    heq ▸ hperm.nodup_iff.mpr (SortedMap.nodup_keys _)
  have hothers := (List.nodup_cons.mp (List.nodup_middle.mp hnodup)).1
  refine ⟨before, after, fun h => hothers (List.mem_append_left _ h),
    fun h => hothers (List.mem_append_right _ h), ?_⟩
  rw [reap, if_neg (Bool.eq_false_iff.mp hrun), heq, List.foldl_append, List.foldl_cons]

end
end Station
end PeerMesh
