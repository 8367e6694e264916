import Mathlib.Data.List.Chain
import PeerMesh.Proofs.World.Talk

/-!
# Messages in sequence

What one node says on one connection begins with a HELLO, holds no other, and is numbered from one
on. If it also fits, then the statuses in it count up from that of the HELLO.
-/

namespace PeerMesh
set_option autoImplicit false

/-- The messages are numbered from one on, starting over after 65535, and the first is the only
HELLO. -/
structure InSequence (ms : List Message) : Prop where
  number : ∀ {k : Nat} {m : Message}, ms[k]? = some m → m.sequence = .ofNat (k + 1)
  hello : ∀ {k : Nat} {m : Message}, ms[k]? = some m → (m.isHello = true ↔ k = 0)

theorem ofNat_eq_iff (n k : Nat) : UInt16.ofNat n = .ofNat k ↔ n % 65536 = k % 65536 := by
  rw [← UInt16.toNat_inj]
  rfl

theorem Message.exists_of_isHello {m : Message} (h : m.isHello = true) :
    ∃ hello, m = ⟨m.sequence, .hello hello⟩ := by
  obtain ⟨n, body⟩ := m
  cases body with
  | hello hello => exact ⟨hello, rfl⟩
  | _ => cases h

namespace InSequence
variable {ms rest : List Message} {m : Message}

theorem nil : InSequence [] where
  number h := by cases h
  hello h := by cases h

theorem snoc (h : InSequence ms) (hn : m.sequence = .ofNat (ms.length + 1))
    (hm : m.isHello = true ↔ ms = []) : InSequence (ms ++ [m]) := by
  have hlast : ∀ {k : Nat} {m' : Message}, (ms ++ [m])[k]? = some m' →
      ms[k]? = some m' ∨ k = ms.length ∧ m' = m := by
    intro k m' hk
    rcases Nat.lt_trichotomy k ms.length with hlt | rfl | hgt
    · rw [List.getElem?_append_left hlt] at hk
      exact .inl hk
    · rw [List.getElem?_concat_length] at hk
      exact .inr ⟨rfl, (Option.some.inj hk).symm⟩
    · rw [List.getElem?_eq_none (by rw [List.length_append, List.length_singleton]; omega)] at hk
      cases hk
  constructor
  · intro k m' hk
    rcases hlast hk with hk | ⟨rfl, rfl⟩
    · exact h.number hk
    · exact hn
  · intro k m' hk
    rcases hlast hk with hk | ⟨rfl, rfl⟩
    · exact h.hello hk
    · rw [hm, List.length_eq_zero_iff]

theorem head (h : InSequence (m :: rest)) : ∃ hello, m = ⟨1, .hello hello⟩ := by
  have hm : m.isHello = true := (h.hello (k := 0) rfl).mpr rfl
  obtain ⟨hello, hm⟩ := Message.exists_of_isHello hm
  rw [hm, h.number (k := 0) rfl]
  exact ⟨hello, rfl⟩

theorem tail (h : InSequence (m :: rest)) : ∀ m' ∈ rest, m'.isHello = false := by
  intro m' hm'
  obtain ⟨k, hk⟩ := List.mem_iff_getElem?.mp hm'
  have hm : m'.isHello = true ↔ k + 1 = 0 := h.hello (k := k + 1) hk
  cases hhello : m'.isHello with
  | false => rfl
  | true => cases hm.mp hhello

/-- After `seen` and a gap, a message has the number that follows `seen` only if there is no gap. -/
theorem due_iff {seen gap : List Message} (h : InSequence (seen ++ (gap ++ m :: rest)))
    (hgap : gap.length < 65536) : m.sequence = .ofNat seen.length + 1 ↔ gap = [] := by
  have hm : (seen ++ (gap ++ m :: rest))[seen.length + gap.length]? = some m := by
    rw [List.getElem?_append_right (Nat.le_add_right ..), Nat.add_sub_cancel_left,
      List.getElem?_append_right (Nat.le_refl _), Nat.sub_self]
    rfl
  rw [h.number hm, UInt16.ofNat_add (seen.length + gap.length) 1]
  refine (UInt16.add_left_inj 1).trans ?_
  rw [ofNat_eq_iff, ← List.length_eq_zero_iff]
  omega

theorem due {seen : List Message} (h : InSequence (seen ++ ms)) :
    ∀ m ∈ ms.head?, m.sequence = .ofNat seen.length + 1 := by
  intro m hm
  obtain ⟨rest, rfl⟩ := List.head?_eq_some_iff.mp hm
  exact (@due_iff rest m seen [] h (by decide)).mpr rfl

end InSequence

/-! ### Losses and repetitions -/

/-- What arrives of `ms` if some messages are lost, fewer than 65536 in a row, and others come
several times in a row. The message that came before is `last`, if it may come again. -/
inductive Garbled : Option Message → List Message → List Message → Prop
  | stop (last : Option Message) (gap : List Message) : Garbled last gap []
  | again {m : Message} {ms d : List Message} (h : Garbled (some m) ms d) :
    Garbled (some m) ms (m :: d)
  | next {last : Option Message} {m : Message} {ms d : List Message} (gap : List Message)
    (hgap : gap.length < 65536) (h : Garbled (some m) ms d) : Garbled last (gap ++ m :: ms) (m :: d)

theorem Garbled.mem {last : Option Message} {ms d : List Message} (h : Garbled last ms d) :
    ∀ m ∈ d, last = some m ∨ m ∈ ms := by
  induction h with
  | stop =>
    intro m hm
    cases hm
  | again h ih =>
    intro m' hm'
    rcases List.mem_cons.mp hm' with rfl | hm'
    · exact .inl rfl
    · exact ih m' hm'
  | @next last m ms d gap hgap h ih =>
    intro m' hm'
    have hmem : m' ∈ m :: ms := by
      rcases List.mem_cons.mp hm' with rfl | hm'
      · exact List.mem_cons_self
      · rcases ih m' hm' with hm | hm
        · rw [Option.some.inj hm]
          exact List.mem_cons_self
        · exact List.mem_cons_of_mem m hm
    exact .inr (List.mem_append_right gap hmem)

/-! ### Statuses -/

namespace Body

/-- The status of its sender, if the body tells it. -/
def status? : Body → Option UInt8
  | .hello h => some h.status
  | .join _ status | .leave _ status => some status
  | .whisper _ | .shout .. | .ping | .pingOk => none

theorem statusAfter_eq {body : Body} (h : body.command ≠ .hello) (old : UInt8) :
    body.statusAfter old = body.status?.getD old := by
  cases body with
  | hello => exact absurd rfl h
  | _ => rfl

theorem eq_of_follows {body : Body} (h : body.command ≠ .hello) {old status : UInt8}
    (hf : body.Follows old) (hs : body.status? = some status) : status = old + 1 := by
  cases body with
  | hello => exact absurd rfl h
  | join | leave =>
    obtain rfl := Option.some.inj hs
    exact hf
  | whisper | shout | ping | pingOk => cases hs

end Body

def statuses (ms : List Message) : List UInt8 := ms.filterMap (·.body.status?)

theorem statuses_cons (m : Message) (ms : List Message) :
    statuses (m :: ms) = m.body.status?.toList ++ statuses ms := by
  rw [statuses]
  cases h : m.body.status? with
  | none => exact List.filterMap_cons_none h
  | some status => exact List.filterMap_cons_some h

theorem Message.command_ne_hello {m : Message} (h : m.isHello = false) : m.body.command ≠ .hello :=
  of_decide_eq_false h

theorem hear_some {m : Message} (h : m.isHello = false) (x : Heard) :
    hear (some x) m = some (x.heed m.body) := hear_of_not_hello h (some x)

theorem isChain_statuses {ms : List Message} (hm : ∀ m ∈ ms, m.isHello = false) {x : Heard}
    (h : AllFit (some x) ms) : (x.status :: statuses ms).IsChain fun a b => b = a + 1 := by
  -- What was heard so far carries the last status.
  induction ms generalizing x with
  | nil => exact .singleton _
  | cons m ms ih =>
    obtain ⟨hhead, hrest⟩ := List.forall_mem_cons.mp hm
    obtain ⟨hfit, hfits⟩ := h
    rw [hear_some hhead] at hfits
    obtain ⟨-, hfollows⟩ := (fits_of_not_hello hhead _).mp hfit rfl
    have hchain := ih hrest hfits
    have hafter : (x.heed m.body).status = m.body.status?.getD x.status :=
      Body.statusAfter_eq (Message.command_ne_hello hhead) x.status
    rw [hafter] at hchain
    rw [statuses_cons]
    cases hs : m.body.status? with
    | none => rwa [hs] at hchain
    | some status =>
      rw [hs] at hchain
      have hnext := Body.eq_of_follows (Message.command_ne_hello hhead) hfollows hs
      exact List.isChain_cons_cons.mpr ⟨hnext, hchain⟩

theorem status_replay {ms : List Message} (hm : ∀ m ∈ ms, m.isHello = false) {x y : Heard}
    (h : replay (some x) ms = some y) : (x.status :: statuses ms).getLast? = some y.status := by
  induction ms generalizing x with
  | nil =>
    obtain rfl := Option.some.inj h
    rfl
  | cons m ms ih =>
    obtain ⟨hhead, hrest⟩ := List.forall_mem_cons.mp hm
    rw [replay, List.foldl_cons, hear_some hhead] at h
    have hlast := ih hrest h
    have hafter : (x.heed m.body).status = m.body.status?.getD x.status :=
      Body.statusAfter_eq (Message.command_ne_hello hhead) x.status
    rw [hafter] at hlast
    rw [statuses_cons]
    cases hs : m.body.status? with
    | none => rwa [hs] at hlast
    | some status =>
      rw [hs] at hlast
      exact (List.getLast?_cons_cons ..).trans hlast

theorem replay_some {ms : List Message} (hm : ∀ m ∈ ms, m.isHello = false) (x : Heard) :
    replay (some x) ms = some (ms.foldl (fun x m => x.heed m.body) x) := by
  induction ms generalizing x with
  | nil => rfl
  | cons m ms ih =>
    obtain ⟨hhead, hrest⟩ := List.forall_mem_cons.mp hm
    rw [replay, List.foldl_cons, hear_some hhead]
    exact ih hrest (x.heed m.body)

theorem isIn_foldl_heed (ms : List Message) (x : Heard) :
    (ms.foldl (fun x m => x.heed m.body) x).isIn =
      ms.foldl (fun isIn m => m.body.groupsAfter isIn) x.isIn := by
  induction ms generalizing x with
  | nil => rfl
  | cons m ms ih => exact ih (x.heed m.body)

namespace InSequence
variable {ms : List Message} {x : Heard}

theorem isChain (h : InSequence ms) (hf : AllFit none ms) :
    (statuses ms).IsChain fun a b => b = a + 1 := by
  cases ms with
  | nil => exact .nil
  | cons m rest =>
    obtain ⟨hello, rfl⟩ := h.head
    exact isChain_statuses h.tail hf.2

theorem getLast? (h : InSequence ms) (hx : replay none ms = some x) :
    (statuses ms).getLast? = some x.status := by
  cases ms with
  | nil => cases hx
  | cons m rest =>
    obtain ⟨hello, rfl⟩ := h.head
    exact status_replay h.tail hx

end InSequence
end PeerMesh
