import PeerMesh.Network
import PeerMesh.Proofs.Station.Ledger

/-!
# Numbers from connection to connection

A peer by itself can be connected, disconnected and connected again. Its messages are numbered
through: the first one on a later connection has the number after that of the last one that was
taken before. So a connection is numbered from one exactly if the connections before it took a
multiple of 65536 messages.
-/

namespace PeerMesh
set_option autoImplicit false

/-! ### Numbers in a row -/

/-- The numbers of `count` messages that follow `before` others. They start over after 65535. -/
def numbersAfter (before count : Nat) : List UInt16 :=
  (List.range' (before + 1) count).map .ofNat

theorem length_numbersAfter (before count : Nat) : (numbersAfter before count).length = count := by
  rw [numbersAfter, List.length_map, List.length_range']

theorem numbersAfter_add (before m n : Nat) :
    numbersAfter before (m + n) = numbersAfter before m ++ numbersAfter (before + m) n := by
  have hstart : before + m + 1 = before + 1 + m := by omega
  rw [numbersAfter, numbersAfter, numbersAfter, hstart, ← List.map_append, List.range'_append_1]

/-- Numbers in a row start as they would without anything before them exactly if they have just
started over. -/
theorem numbersAfter_eq_iff {before count : Nat} (hcount : 0 < count) :
    numbersAfter before count = numbersAfter 0 count ↔ 65536 ∣ before := by
  constructor
  · intro h
    obtain ⟨n, rfl⟩ := Nat.exists_eq_succ_of_ne_zero hcount.ne'
    have hfirst : UInt16.ofNat (before + 1) = .ofNat (0 + 1) := (List.cons.inj h).1
    rw [ofNat_eq_iff] at hfirst
    omega
  · intro h
    have hshift : List.range' (before + 1) count = (List.range' (0 + 1) count).map (before + ·) := by
      rw [List.map_add_range', Nat.zero_add]
    rw [numbersAfter, numbersAfter, hshift, List.map_map]
    refine List.map_congr_left fun k _ => ?_
    rw [Function.comp_apply, ofNat_eq_iff]
    omega

/-- Every message that a mailbox took is there in its wire form. -/
def Line.Spelled (l : Line) : Prop :=
  List.Forall₂ (fun m content => Wire.encode m = .ok content) l.said l.taken

/-! ### What a peer can be asked for -/

namespace Peer
variable {κ κ' μ μ' : Type}

/-- An engine connects a peer once. A peer that is connected while it has a mailbox loses the old
one. -/
inductive Act
  | connect (self : PeerId) (endpoint : String)
  | disconnect
  | send (body : Body)
  | check (m : Message)
  | refresh (now evasiveTimeout expiredTimeout : Nat)
  | setName (name : String)
  | setHeaders (headers : Headers)
  | setStatus (status : UInt8)
  | setReady (ready : Bool)
  | setEvasive

def act [Carriage κ μ] (p : Peer μ) (carriage : κ) : Act → Peer μ × κ
  | .connect self endpoint =>
    let step := p.connect carriage self endpoint
    (step.peer, step.carriage)
  | .disconnect => (p.disconnect, carriage)
  | .send body =>
    let step := p.send carriage body
    (step.peer, step.carriage)
  | .check m => (p.advance m, carriage)
  | .refresh now evasiveTimeout expiredTimeout =>
    (p.refresh now evasiveTimeout expiredTimeout, carriage)
  | .setName name => ({ p with declaredName := some name }, carriage)
  | .setHeaders headers => ({ p with headers }, carriage)
  | .setStatus status => ({ p with status }, carriage)
  | .setReady ready => ({ p with ready }, carriage)
  | .setEvasive => ({ p with evasive := true }, carriage)

/-- One act after the other, each on the carriage of its moment. -/
def run [Carriage κ μ] (p : Peer μ) (acts : List (κ × Act)) : Peer μ :=
  acts.foldl (fun p x => (p.act x.1 x.2).1) p

/-- The same with a ledger, in which every connection has its line. -/
def keep [Carriage κ μ] (p : Peer (Box μ)) (lines : List Line) :
    List (κ × Act) → Peer (Box μ) × List Line
  | [] => (p, lines)
  | (carriage, a) :: acts =>
    let (p, ledger) := p.act (⟨carriage, lines⟩ : Ledger κ) a
    p.keep ledger.lines acts

theorem act_through [Carriage κ μ] [Carriage κ' μ'] {f : κ → κ'} {g : μ → μ'} (h : Mirrors f g)
    (p : Peer μ) (c : κ) (a : Act) :
    (p.through g).act (f c) a = ((p.act c a).1.through g, f (p.act c a).2) := by
  cases a with
  | connect self endpoint =>
    dsimp only [act, connect]
    rw [h.connect]
    rcases Carriage.connect c self.routingId endpoint with ⟨e | box, c'⟩ <;> rfl
  | send body =>
    dsimp only [act]
    rw [send_through h]
    rfl
  | disconnect | check | refresh | setName | setHeaders | setStatus | setReady | setEvasive => rfl

theorem keep_through [Carriage κ μ] (p : Peer (Box μ)) (lines : List Line)
    (acts : List (κ × Act)) :
    (p.keep lines acts).1.through Box.inner = (p.through Box.inner).run acts := by
  induction acts generalizing p lines with
  | nil => rfl
  | cons x acts ih =>
    obtain ⟨carriage, a⟩ := x
    have hact := act_through Ledger.mirrors p (⟨carriage, lines⟩ : Ledger κ) a
    have hrun := ih (p.act (⟨carriage, lines⟩ : Ledger κ) a).1
      (p.act (⟨carriage, lines⟩ : Ledger κ) a).2.lines
    exact hrun.trans (congrArg (fun q => run q.1 acts) hact.symm)

/-! ### What the lines say -/

/-- The lines of a peer. The last one is that of its open mailbox, if any. -/
structure Counted (p : Peer (Box μ)) (lines : List Line) : Prop where
  spelled : ∀ l ∈ lines, l.Spelled
  number : (lines.flatMap Line.said).map Message.sequence =
    numbersAfter 0 (lines.flatMap Line.said).length
  sent : p.sent = .ofNat (lines.flatMap Line.said).length
  last : ∀ box, p.mailbox = some box → ∃ earlier l, lines = earlier ++ [l] ∧
    box.number = earlier.length

namespace Counted
variable {p p' : Peer (Box μ)} {lines earlier later : List Line} {l : Line} {box : Box μ}
  {m : Message} {content : Content} {e : SendError}

theorem new (id : PeerId) (now : Nat) : Counted (Peer.new id now : Peer (Box μ)) [] where
  spelled _ hl := by cases hl
  number := rfl
  sent := rfl
  last _ hbox := by cases hbox

/-- Nothing is sent, and no mailbox is opened. -/
theorem idle (h : p.Counted lines) (hsent : p'.sent = p.sent)
    (hbox : p'.mailbox = p.mailbox ∨ p'.mailbox = none) : p'.Counted lines := by
  refine ⟨h.spelled, h.number, hsent.trans h.sent, fun box hopen => ?_⟩
  rcases hbox with hsame | hnone
  · exact h.last box (hsame.symm.trans hopen)
  · rw [hnone] at hopen
    cases hopen

theorem opened (h : p.Counted lines) (hsent : p'.sent = p.sent) (hbox : p'.mailbox = some box)
    (hnumber : box.number = lines.length) : p'.Counted (lines ++ [[]]) := by
  have hsaid : (lines ++ [[]]).flatMap Line.said = lines.flatMap Line.said := by
    rw [List.flatMap_append]
    exact List.append_nil _
  constructor
  · intro l hl
    rcases List.mem_append.mp hl with hl | hl
    · exact h.spelled l hl
    · rw [List.mem_singleton.mp hl]
      exact .nil
  · rw [hsaid]
    exact h.number
  · rw [hsaid, hsent]
    exact h.sent
  · intro box' hopen
    obtain rfl := Option.some.inj (hbox.symm.trans hopen)
    exact ⟨lines, [], rfl, hnumber⟩

/-- What is written on the line of the open mailbox goes to the end of all lines. -/
theorem write (h : p.Counted lines) (hbox : p.mailbox = some box) (ms : List Message)
    {entry : Content × SendResult}
    (hspelled : ∀ l : Line, l.Spelled → Line.Spelled (l ++ [entry]))
    (hsaid : ∀ l : Line, Line.said (l ++ [entry]) = l.said ++ ms)
    (hms : ∀ n, p.sent = .ofNat n →
      ms.map Message.sequence = numbersAfter n ms.length ∧ p'.sent = .ofNat (n + ms.length))
    (hbox' : p'.mailbox = p.mailbox ∨ p'.mailbox = none) :
    p'.Counted (lines.modify box.number (· ++ [entry])) := by
  obtain ⟨earlier, l, rfl, hlast⟩ := h.last box hbox
  have hlines : (earlier ++ [l]).modify box.number (· ++ [entry]) = earlier ++ [l ++ [entry]] := by
    rw [hlast, List.modify_eq_take_drop]
    simp
  have hall : (earlier ++ [l ++ [entry]]).flatMap Line.said =
      (earlier ++ [l]).flatMap Line.said ++ ms := by
    rw [List.flatMap_append, List.flatMap_append, List.flatMap_singleton, List.flatMap_singleton,
      hsaid, List.append_assoc]
  obtain ⟨hnumber, hsent⟩ := hms _ h.sent
  rw [hlines]
  constructor
  · intro l' hl'
    rcases List.mem_append.mp hl' with hl' | hl'
    · exact h.spelled l' (List.mem_append_left _ hl')
    · rw [List.mem_singleton.mp hl']
      exact hspelled l (h.spelled l (List.mem_append_right _ List.mem_cons_self))
  · rw [hall, List.map_append, h.number, hnumber, List.length_append, numbersAfter_add,
      Nat.zero_add]
  · rw [hall, List.length_append]
    exact hsent
  · intro box' hopen
    rcases hbox' with hsame | hnone
    · obtain rfl := Option.some.inj (hbox.symm.trans (hsame.symm.trans hopen))
      exact ⟨earlier, _, rfl, hlast⟩
    · rw [hnone] at hopen
      cases hopen

theorem refused (h : p.Counted lines) (hbox : p.mailbox = some box) (hsent : p'.sent = p.sent)
    (hbox' : p'.mailbox = p.mailbox ∨ p'.mailbox = none) :
    p'.Counted (lines.modify box.number (· ++ [(content, Except.error e)])) := by
  refine h.write hbox [] (fun l hl => ?_) (fun l => ?_) (fun n hn => ?_) hbox'
  · rw [Line.Spelled, Line.said_refused, Line.taken_refused]
    exact hl
  · rw [Line.said_refused, List.append_nil]
  · exact ⟨rfl, hsent.trans hn⟩

theorem took (h : p.Counted lines) (hbox : p.mailbox = some box)
    (hcontent : Wire.encode m = .ok content) (hm : m.sequence = p.sent + 1) :
    Counted { p with sent := p.sent + 1 }
      (lines.modify box.number (· ++ [(content, Except.ok ())])) := by
  have hsaid := fun l => Line.said_took l (Wire.decode_of_encode hcontent)
  refine h.write hbox [m] (fun l hl => ?_) hsaid (fun n hn => ?_) (.inl rfl)
  · rw [Line.Spelled, hsaid, Line.taken_took]
    exact List.rel_append hl (.cons hcontent .nil)
  · have hnext : p.sent + 1 = .ofNat (n + 1) := by
      rw [hn, UInt16.ofNat_add]
      rfl
    rw [List.map_singleton, hm, hnext]
    exact ⟨rfl, rfl⟩

theorem length_flatMap (h : p.Counted lines) (hsub : ∀ l ∈ earlier, l ∈ lines) :
    (earlier.flatMap Line.said).length = (earlier.flatMap Line.taken).length := by
  rw [List.length_flatMap, List.length_flatMap]
  congr 1
  exact List.map_congr_left fun l hl => List.Forall₂.length_eq (h.spelled l (hsub l hl))

/-- The numbers on one line. -/
theorem line (h : p.Counted (earlier ++ l :: later)) :
    l.said.map Message.sequence =
      numbersAfter (earlier.flatMap Line.taken).length l.said.length := by
  have hnumber := h.number
  simp only [List.flatMap_append, List.flatMap_cons, List.map_append, List.length_append,
    numbersAfter_add, Nat.zero_add] at hnumber
  have hbefore : (earlier.flatMap Line.said).length = (earlier.flatMap Line.taken).length :=
    h.length_flatMap fun l' hl' => List.mem_append_left _ hl'
  -- All numbers in a row are cut where the line begins and where it ends.
  obtain ⟨-, hrest⟩ := List.append_inj hnumber (by rw [List.length_map, length_numbersAfter])
  obtain ⟨hline, -⟩ := List.append_inj hrest (by rw [List.length_map, length_numbersAfter])
  rw [hline, hbefore]

end Counted

section
variable [Carriage κ μ] {p : Peer (Box μ)} {lines : List Line}

theorem counted_act (h : p.Counted lines) (carriage : κ) (a : Act) :
    (p.act (⟨carriage, lines⟩ : Ledger κ) a).1.Counted
      (p.act (⟨carriage, lines⟩ : Ledger κ) a).2.lines := by
  cases a with
  | connect self endpoint =>
    dsimp only [act, connect]
    rcases hc : Carriage.connect (⟨carriage, lines⟩ : Ledger κ) self.routingId endpoint with
      ⟨e | box, ledger⟩
    · rw [Ledger.lines_of_unreached hc]
      exact h
    · obtain ⟨hnumber, hlines⟩ := Ledger.lines_of_opened hc
      rw [hlines]
      exact h.opened rfl rfl hnumber
  | send body =>
    dsimp only [act]
    have hsending := p.sending_send (⟨carriage, lines⟩ : Ledger κ) body
    generalize p.send (⟨carriage, lines⟩ : Ledger κ) body = step at hsending ⊢
    cases hsending with
    | closed | formless => exact h
    | taken hbox hf hs =>
      rw [Ledger.lines_of_send hs]
      exact h.took hbox hf rfl
    | rejected hbox hs =>
      rw [Ledger.lines_of_send hs]
      exact h.refused hbox rfl (.inl rfl)
    | lost hbox hs =>
      rw [Ledger.lines_of_send hs]
      exact h.refused hbox rfl (.inr rfl)
  | disconnect => exact h.idle rfl (.inr rfl)
  | check | refresh | setName | setHeaders | setStatus | setReady | setEvasive =>
    exact h.idle rfl (.inl rfl)

theorem counted_keep (h : p.Counted lines) (acts : List (κ × Act)) :
    (p.keep lines acts).1.Counted (p.keep lines acts).2 := by
  induction acts generalizing p lines with
  | nil => exact h
  | cons x acts ih => exact ih (counted_act h x.1 x.2)

end

/-! ### What becomes of a message -/

/-- What sending does to the peer, by what it answers. -/
structure Settles [Carriage κ μ] (p : Peer μ) (carriage : κ) (body : Body) : Prop where
  closed : p.isConnected = false → p.send carriage body = ⟨.ok (), p, carriage, []⟩
  taken : p.isConnected = true → (p.send carriage body).result = .ok () →
    (p.send carriage body).peer = { p with sent := p.sent + 1 }
  /-- The mailbox never sees what has no wire form. -/
  formless : ∀ e, p.isConnected = true → Wire.encode ⟨p.sent + 1, body⟩ = .error e →
    (p.send carriage body).result = .error (.encode e) ∧ (p.send carriage body).carriage = carriage
  refused : ∀ e, (p.send carriage body).result = .error e → e.isFatal = false →
    (p.send carriage body).peer = p ∧ p.isConnected = true
  lost : ∀ e, (p.send carriage body).result = .error e → e.isFatal = true →
    (p.send carriage body).peer = { p with mailbox := none, ready := false }

theorem send_of_closed [Carriage κ μ] {p : Peer μ} (h : p.isConnected = false) (carriage : κ)
    (body : Body) : p.send carriage body = ⟨.ok (), p, carriage, []⟩ := by
  rw [send, Option.not_isSome_iff_eq_none.mp (Bool.eq_false_iff.mp h)]

theorem settles_send [Carriage κ μ] (p : Peer μ) (carriage : κ) (body : Body) :
    p.Settles carriage body := by
  have hsending := p.sending_send carriage body
  constructor
  case closed => exact fun h => send_of_closed h carriage body
  case taken =>
    intro hopen hok
    generalize p.send carriage body = step at hsending hok
    cases hsending with
    | closed hnone =>
      rw [isConnected, hnone] at hopen
      cases hopen
    | taken => rfl
    | formless | rejected | lost => cases hok
  case formless =>
    intro e hopen he
    generalize p.send carriage body = step at hsending ⊢
    cases hsending with
    | closed hnone =>
      rw [isConnected, hnone] at hopen
      cases hopen
    | formless hf =>
      obtain rfl := Except.error.inj (he.symm.trans hf)
      exact ⟨rfl, rfl⟩
    | taken _ hf | rejected _ _ _ hf | lost _ _ _ hf =>
      rw [he] at hf
      cases hf
  case refused =>
    intro e hresult he
    have hopen : p.isConnected = true := by
      by_contra hclosed
      rw [send_of_closed (Bool.eq_false_iff.mpr hclosed)] at hresult
      cases hresult
    refine ⟨?_, hopen⟩
    generalize p.send carriage body = step at hsending hresult ⊢
    cases hsending with
    | closed | taken => cases hresult
    | formless | rejected => rfl
    | lost _ _ hfatal =>
      obtain rfl := Except.error.inj hresult
      rw [he] at hfatal
      cases hfatal
  case lost =>
    intro e hresult he
    generalize p.send carriage body = step at hsending hresult ⊢
    cases hsending with
    | closed | taken => cases hresult
    | formless =>
      obtain rfl := Except.error.inj hresult
      cases he
    | rejected _ _ hfatal =>
      obtain rfl := Except.error.inj hresult
      rw [he] at hfatal
      cases hfatal
    | lost => rfl

/-! ### Runs -/

/-- A new peer after `acts`, and the lines of its connections in the order in which they were
opened. -/
def history [Carriage κ μ] (id : PeerId) (now : Nat) (acts : List (κ × Act)) :
    Peer (Box μ) × List Line :=
  (new id now).keep [] acts

/-- What is known of a peer that was asked for `acts`, and of the messages that it sent. -/
structure Numbering [Carriage κ μ] (id : PeerId) (now : Nat) (acts : List (κ × Act)) : Prop where
  plain : (history id now acts).1.through Box.inner = (new id now : Peer μ).run acts
  spelled : ∀ l ∈ (history id now acts).2, l.Spelled
  number : ∀ {earlier l later}, (history id now acts).2 = earlier ++ l :: later →
    l.said.map Message.sequence =
      numbersAfter (earlier.flatMap Line.taken).length l.said.length
  fromOne : ∀ {earlier l later}, (history id now acts).2 = earlier ++ l :: later → l.taken ≠ [] →
    (l.said.map Message.sequence = numbersAfter 0 l.said.length ↔
      65536 ∣ (earlier.flatMap Line.taken).length)
  sent : (history id now acts).1.sent = .ofNat ((history id now acts).2.flatMap Line.taken).length
  /-- An open mailbox is that of the last connection. -/
  newest : ∀ {box}, (history id now acts).1.mailbox = some box →
    box.number + 1 = (history id now acts).2.length
  settles : ∀ (carriage : κ) (body : Body), ((new id now : Peer μ).run acts).Settles carriage body

/-- Whatever a peer is asked for, and whatever its mailboxes answer, its messages are numbered
through, from one connection to the next. They are numbered from one on the first connection, and
on a later one exactly if a multiple of 65536 was taken before it. -/
theorem numbering_of_acts [Carriage κ μ] (id : PeerId) (now : Nat) (acts : List (κ × Act)) :
    Numbering id now acts := by
  have hcounted : (history id now acts).1.Counted (history id now acts).2 :=
    counted_keep (Counted.new id now) acts
  have hline : ∀ {earlier l later}, (history id now acts).2 = earlier ++ l :: later →
      l.said.map Message.sequence =
        numbersAfter (earlier.flatMap Line.taken).length l.said.length :=
    fun h => Counted.line (h ▸ hcounted)
  constructor
  case plain => exact keep_through _ [] acts
  case spelled => exact hcounted.spelled
  case number => exact hline
  case fromOne =>
    intro earlier l later hlines htaken
    have hl : l.Spelled := hcounted.spelled l (hlines ▸ List.mem_append_right _ List.mem_cons_self)
    have hsaid : 0 < l.said.length := by
      rw [List.Forall₂.length_eq hl]
      exact List.length_pos_iff.mpr htaken
    rw [hline hlines, numbersAfter_eq_iff hsaid]
  case sent =>
    rw [← hcounted.length_flatMap fun _ hl => hl]
    exact hcounted.sent
  case newest =>
    intro box hbox
    obtain ⟨earlier, l, hlines, hnumber⟩ := hcounted.last box hbox
    rw [hlines, hnumber, List.length_append, List.length_singleton]
  case settles => exact fun carriage body => settles_send _ carriage body

/-- The first message on a connection that is opened again. -/
theorem numbering_connected_again :
    let net := Network.empty.bind "inproc://bob"
    let id : PeerId := ⟨.replicate 16 1, rfl⟩
    let dial := [(net, Act.connect id "inproc://bob"), (net, .send .ping)]
    let lines := (history id 0 (dial ++ (net, .disconnect) :: dial)).2
    lines.map Line.said = [[⟨1, .ping⟩], [⟨2, .ping⟩]] ∧
      ∀ l, lines[1]? = some l → l.said.map Message.sequence ≠ numbersAfter 0 l.said.length := by
  intro net id dial lines
  have hlines : lines.length = 2 := by decide +kernel
  have hsaid : lines.map Line.said = [[⟨1, .ping⟩], [⟨2, .ping⟩]] := by decide +kernel
  have htaken : lines.map (fun l => l.taken.length) = [1, 1] := by decide +kernel
  refine ⟨hsaid, fun l hl hone => ?_⟩
  obtain ⟨first, second, hlines⟩ := List.length_eq_two.mp hlines
  rw [hlines] at hl htaken
  obtain rfl := Option.some.inj hl
  have hfirst : first.taken.length = 1 := (List.cons.inj htaken).1
  have hsecond : second.taken.length = 1 := (List.cons.inj (List.cons.inj htaken).2).1
  have hnumbering := numbering_of_acts id 0 (dial ++ (net, .disconnect) :: dial)
  have hsome : second.taken ≠ [] := fun h => by
    rw [h] at hsecond
    cases hsecond
  have hparts : lines = [first] ++ second :: [] := hlines
  have hfresh := (hnumbering.fromOne hparts hsome).mp hone
  rw [List.flatMap_singleton, hfirst] at hfresh
  omega

end Peer
end PeerMesh
