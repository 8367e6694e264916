import PeerMesh.Proofs.Tcp.Framing
import PeerMesh.Tcp.Exchange

/-!
# What a link has accepted

A message that a mailbox over TCP took waits in its queue, is in the hands of the writer, or is on
the stream. Sending adds to it at the end, the writer moves it on, and a writer that ends loses what
is not on the stream. Nothing that is on a stream is ever taken back.
-/

namespace PeerMesh
set_option autoImplicit false

namespace Tcp

namespace Link
variable {l : Link}

/-- What the writer has taken and not written yet. -/
def held (l : Link) : List Content :=
  match l.writer with
  | .writing content => [content]
  | _ => []

/-- All messages that the mailbox took and did not lose. -/
def accepted (l : Link) : List Content := l.written ++ (l.held ++ l.queue)

/-- What comes of a message that is put into a mailbox. -/
inductive Sending (l : Link) (content : Content) : SendResult × Link → Prop
  | oversized (hsize : ¬ Framable content) : Sending l content (.error .oversized, l)
  | refused {e : SendError} (hsize : Framable content) (he : e.isFatal = true)
      (hshut : l.writer = .ended ∨ l.capacity ≤ l.queue.length) : Sending l content (.error e, l)
  | taken (hsize : Framable content) (hopen : l.writer ≠ .ended)
      (hroom : l.queue.length < l.capacity) :
      Sending l content (.ok (), { l with queue := l.queue ++ [content] })

theorem sending (l : Link) (content : Content) : l.Sending content (l.send content) := by
  unfold send
  split
  · rename_i hsize
    exact .oversized (isSome_sizeError?_iff_not_framable.mp hsize)
  · rename_i hsize
    rw [isSome_sizeError?_iff_not_framable, not_not] at hsize
    split
    · rename_i hended
      exact .refused hsize rfl (.inl hended)
    · rename_i hopen
      split
      · rename_i hfull
        exact .refused hsize rfl (.inr hfull)
      · rename_i hroom
        exact .taken hsize hopen (Nat.lt_of_not_le hroom)

theorem send_eq_oversized (l : Link) {content : Content} :
    (l.send content).1 = .error .oversized ↔ ¬ Framable content := by
  have hsend := l.sending content
  generalize l.send content = r at hsend ⊢
  cases hsend with
  | oversized hsize => exact iff_of_true rfl hsize
  | refused hsize he =>
    refine iff_of_false (fun h => ?_) (not_not_intro hsize)
    cases h
    cases he
  | taken hsize => exact iff_of_false (fun h => by cases h) (not_not_intro hsize)

theorem send_eq_ok (l : Link) {content : Content} : (l.send content).1 = .ok () ↔
    Framable content ∧ l.writer ≠ .ended ∧ l.queue.length < l.capacity := by
  have hsend := l.sending content
  generalize l.send content = r at hsend ⊢
  cases hsend with
  | oversized hsize => exact iff_of_false (fun h => by cases h) fun h => hsize h.1
  | refused hsize he hshut =>
    refine iff_of_false (fun h => by cases h) ?_
    rintro ⟨-, hopen, hroom⟩
    rcases hshut with hended | hfull
    · exact hopen hended
    · exact Nat.not_le_of_lt hroom hfull
  | taken hsize hopen hroom => exact iff_of_true rfl ⟨hsize, hopen, hroom⟩

theorem accepted_send {content : Content} {result : SendResult} {l' : Link}
    (h : l.send content = (result, l')) :
    (∃ e, result = .error e ∧ l' = l) ∨
      result = .ok () ∧ l.writer ≠ .ended ∧ l'.writer = l.writer ∧ l'.routingId = l.routingId ∧
        l'.written = l.written ∧ l'.accepted = l.accepted ++ [content] := by
  have hsend := l.sending content
  rw [h] at hsend
  cases hsend with
  | oversized | refused => exact .inl ⟨_, rfl, rfl⟩
  | taken hsize hopen =>
    refine .inr ⟨rfl, hopen, rfl, rfl, rfl, ?_⟩
    simp [accepted, held]

/-- The message that the writer begins with, which comes into its empty hands. -/
def begins (l : Link) (a : Act) : List Content := if l.held = [] then (l.act a).held else []

theorem begins_drop (l : Link) : l.begins .drop = [] := by
  unfold begins
  split
  · assumption
  · rfl

/-- What an act can do to a link, beside the message that is begun with. -/
inductive Moves (l : Link) : List Content → Link → Prop
  | still : Moves l [] l
  | connected (hw : l.writer = .connecting) : Moves l [] { l with writer := .idle }
  | begun {m : Content} {rest : List Content} (hw : l.writer = .idle) (hd : l.dropped = false)
      (hq : l.queue = m :: rest) : Moves l [m] { l with writer := .writing m, queue := rest }
  | written {m : Content} (hw : l.writer = .writing m) :
      Moves l [] { l with writer := .idle, written := l.written ++ [m] }
  | ended : Moves l [] l.finish
  | dropped : Moves l [] { l with dropped := true }

theorem moves_of_act {a : Act} {l' : Link} {begun : List Content} (hmoves : l.Moves begun l')
    (h : l.act a = l') (hbegun : (if l.held = [] then l'.held else []) = begun) :
    l.Moves (l.begins a) (l.act a) := by
  rw [begins, h, hbegun]
  exact hmoves

theorem moves_act (l : Link) (a : Act) : l.Moves (l.begins a) (l.act a) := by
  have still (h : l.act a = l) : l.Moves (l.begins a) (l.act a) := by
    refine moves_of_act .still h ?_
    split
    · assumption
    · rfl
  cases a with
  | connect made =>
    cases hw : l.writer
    case connecting =>
      have hnone : l.held = [] := by rw [held, hw]
      cases made
      · exact moves_of_act .ended (by simp only [act, hw]; rfl) (if_pos hnone)
      · exact moves_of_act (.connected hw) (by simp only [act, hw]; rfl) (if_pos hnone)
    all_goals exact still (by simp only [act, hw])
  | take =>
    cases hw : l.writer
    case idle =>
      have hnone : l.held = [] := by rw [held, hw]
      cases hd : l.dropped
      · cases hq : l.queue with
        | nil => exact still (by simp [act, hw, hd, hq])
        | cons m rest =>
          exact moves_of_act (.begun hw hd hq) (by simp only [act, hw, hd, hq]; rfl) (if_pos hnone)
      · exact moves_of_act .ended (by simp only [act, hw, hd]; rfl) (if_pos hnone)
    all_goals exact still (by simp only [act, hw])
  | write done =>
    cases hw : l.writer
    case writing m =>
      have hone : l.held ≠ [] := by rw [held, hw]; exact List.cons_ne_nil m []
      cases hm : writeMessage m with
      | error e => exact moves_of_act .ended (by simp only [act, hw, hm]) (if_neg hone)
      | ok bytes =>
        cases done
        · exact moves_of_act .ended (by simp only [act, hw, hm]) (if_neg hone)
        · exact moves_of_act (.written hw) (by simp only [act, hw, hm]) (if_neg hone)
    all_goals exact still (by simp only [act, hw])
  | drop =>
    rw [begins_drop]
    exact .dropped

/-- How a writer changes its link: it keeps all that was accepted, or ends and loses what is not
written. -/
structure Advances (l l' : Link) : Prop where
  routingId : l'.routingId = l.routingId
  written : l.written <+: l'.written
  accepted : l'.accepted <+: l.accepted
  running : l'.writer = .ended ∨ l.writer ≠ .ended ∧ l'.accepted = l.accepted

namespace Advances
variable {l' : Link}

theorem of_same (hid : l'.routingId = l.routingId) (hw : l.written <+: l'.written)
    (ha : l'.accepted = l.accepted) (hrun : l.writer = .ended → l'.writer = .ended) :
    l.Advances l' := by
  refine ⟨hid, hw, ha ▸ List.prefix_rfl, ?_⟩
  by_cases hended : l.writer = .ended
  · exact .inl (hrun hended)
  · exact .inr ⟨hended, ha⟩

theorem refl (l : Link) : l.Advances l := of_same rfl List.prefix_rfl rfl id

theorem finish (l : Link) : l.Advances l.finish := by
  refine ⟨rfl, List.prefix_rfl, ?_, .inl rfl⟩
  have haccepted : l.finish.accepted = l.written := by simp [Link.finish, Link.accepted, held]
  exact haccepted ▸ List.prefix_append _ _

end Advances

theorem advances_act (l : Link) (a : Act) : l.Advances (l.act a) := by
  have hmoves := l.moves_act a
  generalize l.act a = l' at hmoves ⊢
  generalize l.begins a = begun at hmoves
  cases hmoves with
  | still => exact .refl l
  | connected hw =>
    exact .of_same rfl List.prefix_rfl (by simp [accepted, held, hw]) fun h => by simp [hw] at h
  | begun hw hd hq =>
    exact .of_same rfl List.prefix_rfl (by simp [accepted, held, hw, hq]) fun h => by simp [hw] at h
  | written hw =>
    exact .of_same rfl (List.prefix_append _ _) (by simp [accepted, held, hw])
      fun h => by simp [hw] at h
  | ended => exact .finish l
  | dropped => exact .of_same rfl List.prefix_rfl rfl id

end Link

theorem Mailbox.eq_of_number {box box' : Mailbox} (h : box.number = box'.number) : box = box' := by
  cases box
  cases box'
  exact congrArg Mailbox.mk h

namespace Exchange
variable {x x' : Exchange} {box : Mailbox} {routingId : List UInt8} {endpoint : String}
  {content : Content}

theorem links_edit {l : Link} (hl : x.links[box.number]? = some l) (f : Link → Link) :
    (x.edit box f).links = x.links.set box.number (f l) := by
  change x.links.modify box.number f = _
  rw [List.modify_eq_set_getElem?, hl]
  rfl

theorem links_edit_of_none (h : x.links[box.number]? = none) (f : Link → Link) :
    (x.edit box f).links = x.links := by
  change x.links.modify box.number f = _
  rw [List.modify_eq_set_getElem?, h]
  rfl

theorem links_of_rejected {e : SendError} (h : Carriage.send x box content = (.error e, x')) :
    x'.links = x.links := by
  change x.send box content = _ at h
  unfold send at h
  split at h
  · cases h
    rfl
  · rename_i l hl
    rcases hsend : l.send content with ⟨result, l'⟩
    rw [hsend] at h
    obtain ⟨rfl, rfl⟩ := Prod.mk.inj h
    rcases Link.accepted_send hsend with ⟨_, -, rfl⟩ | ⟨hok, -⟩
    · rw [links_edit hl]
      obtain ⟨hlt, rfl⟩ := List.getElem?_eq_some_iff.mp hl
      exact List.set_getElem_self hlt
    · cases hok

theorem links_of_taken (h : Carriage.send x box content = (.ok (), x')) :
    ∃ l l', x.links[box.number]? = some l ∧ l.writer ≠ .ended ∧ l'.routingId = l.routingId ∧
      l'.written = l.written ∧ l'.accepted = l.accepted ++ [content] ∧
      x'.links = x.links.set box.number l' := by
  change x.send box content = _ at h
  unfold send at h
  split at h
  · cases h
  · rename_i l hl
    rcases hsend : l.send content with ⟨result, l'⟩
    rw [hsend] at h
    obtain ⟨rfl, rfl⟩ := Prod.mk.inj h
    rcases Link.accepted_send hsend with ⟨_, hok, -⟩ | ⟨-, hopen, -, hid, hwritten, haccepted⟩
    · cases hok
    · exact ⟨l, l', hl, hopen, hid, hwritten, haccepted, links_edit hl _⟩

theorem links_of_unreached {e : ConnectError}
    (h : Carriage.connect x routingId endpoint = (.error e, x')) : x'.links = x.links := by
  change x.connect routingId endpoint = _ at h
  unfold connect at h
  split at h
  · split at h
    · cases h
      rfl
    · cases h
  · cases h
    rfl

theorem links_of_opened (h : Carriage.connect x routingId endpoint = (.ok box, x')) :
    ∃ l, l.routingId = routingId ∧ l.accepted = [] ∧ box = ⟨x.links.length⟩ ∧
      x'.links = x.links ++ [l] := by
  change x.connect routingId endpoint = _ at h
  unfold connect at h
  split at h
  · rename_i l hl
    split at h
    · cases h
    · cases h
      unfold Link.open? at hl
      split at hl
      · cases hl
        exact ⟨_, rfl, rfl, rfl, rfl⟩
      · cases hl
  · cases h

/-- No stream is cut back. -/
def Grows (x x' : Exchange) : Prop :=
  ∀ (i : Nat) (l : Link), x.links[i]? = some l →
    ∃ l', x'.links[i]? = some l' ∧ l.written <+: l'.written

namespace Grows
variable {x'' : Exchange}

theorem of_same (h : x'.links = x.links) : x.Grows x' := by
  intro i l hl
  exact ⟨l, h ▸ hl, List.prefix_rfl⟩

theorem trans (h : x.Grows x') (h' : x'.Grows x'') : x.Grows x'' := by
  intro i l hl
  obtain ⟨l', hl', hp⟩ := h i l hl
  obtain ⟨l'', hl'', hp'⟩ := h' i l' hl'
  exact ⟨l'', hl'', hp.trans hp'⟩

theorem of_append {more : List Link} (h : x'.links = x.links ++ more) : x.Grows x' := by
  intro i l hl
  refine ⟨l, ?_, List.prefix_rfl⟩
  rw [h, List.getElem?_append_left (List.getElem?_eq_some_iff.mp hl).1, hl]

theorem of_set {i : Nat} {l l' : Link} (hl : x.links[i]? = some l) (hp : l.written <+: l'.written)
    (h : x'.links = x.links.set i l') : x.Grows x' := by
  intro j l₀ hl₀
  by_cases hj : i = j
  · subst hj
    obtain rfl := Option.some.inj (hl.symm.trans hl₀)
    refine ⟨l', ?_, hp⟩
    rw [h, List.getElem?_set_self (List.getElem?_eq_some_iff.mp hl).1]
  · refine ⟨l₀, ?_, List.prefix_rfl⟩
    rw [h, List.getElem?_set_ne hj, hl₀]

end Grows
end Exchange
end Tcp

end PeerMesh
