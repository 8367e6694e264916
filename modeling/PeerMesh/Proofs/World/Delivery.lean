import PeerMesh.Proofs.World.Orderly

/-!
# Delivery

No node ever finds that messages of another were lost or do not fit together. What it reports of
another node goes back to what the other one sent, session by session and in order, and each
WHISPER and SHOUT is reported at most once.
-/

namespace PeerMesh
set_option autoImplicit false

namespace Gathering

/-- What the mailboxes of `who` to `whom` took, oldest first. -/
def sent (g : Gathering) (moves : List Move) (who whom : Party) : List Content :=
  ((g.recorded moves).carriage.taken.filter fun e =>
    decide (e.1 = ⟨whom.endpoint, who.id.routingId⟩)).map (·.2)

/-- The events that node `n` reports of another node, oldest first. -/
def told (g : Gathering) (moves : List Move) (n : Nat) (who : Party) : List Event :=
  Event.concerning who.id
    ((g.world g.network : World Network Network.Mailbox).reported n moves)

end Gathering

namespace Recorded

theorem Genuine.decode_taken {g : Gathering} {c : Recorded} (h : c.Genuine g) (id : PeerId)
    (endpoint : String) :
    (((c.taken.filter fun e => decide (e.1 = ⟨endpoint, id.routingId⟩)).map (·.2)).map
      Wire.decode) = (c.takenFrom id endpoint).map .ok := by
  have htaken := h.taken
  rw [takenFrom]
  generalize c.taken = taken at htaken ⊢
  induction taken with
  | nil => rfl
  | cons e taken ih =>
    obtain ⟨who, -, hwrote⟩ := htaken e (List.mem_cons_self ..)
    obtain ⟨m, hf, -⟩ := hwrote.message
    have hm := Wire.decode_of_encode hf
    have hrest := ih fun e he => htaken e (List.mem_cons_of_mem _ he)
    by_cases hbox : e.1 = ⟨endpoint, id.routingId⟩
    · simp only [List.filter_cons, hbox, decide_true, if_true, List.map_cons, List.filterMap_cons, hm,
        Except.toOption, hrest]
    · simp only [List.filter_cons, hbox, decide_false, Bool.false_eq_true, if_false,
        List.filterMap_cons, hrest]

end Recorded

namespace Gathering

/-- Whatever moves were made, no alarm was raised, and all that one node was told of another goes
back to what the other one said. -/
theorem retold_after (g : Gathering) (moves : List Move) :
    (∀ note ∈ (g.after moves).journal, note.isAlarm = false) ∧
      ∀ {i j : Nat} {who whom : Party}, g.parties[i]? = some who → g.parties[j]? = some whom →
        i ≠ j → ∃ said, (g.sent moves who whom).map Wire.decode = said.map .ok ∧
          Retold who said (g.told moves j who) := by
  obtain ⟨past, horderly, hreported⟩ := Orderly.recorded g moves
  constructor
  · intro note hnote
    rw [after_eq_map_recorded] at hnote
    have hquiet := List.filter_eq_nil_iff.mp horderly.quiet note (Array.mem_toList_iff.mpr hnote)
    exact Bool.eq_false_iff.mpr hquiet
  · intro i j who whom hwho hwhom hij
    have hid : who.id ≠ whom.id := fun hid => hij (Orderly.eq_of_index hwho hwhom hid)
    refine ⟨_, horderly.genuine.decode_taken who.id whom.endpoint, ?_⟩
    obtain ⟨e, he⟩ := horderly.engine hwho
    obtain ⟨f, hf⟩ := horderly.engine hwhom
    have htold : g.told moves j who = Event.concerning who.id (past j ++ f.events) := by
      have hsame := World.reported_map Recorder.isView_inner (fun _ _ => rfl) j
        (g.world ⟨g.network, []⟩ : World Recorded Network.Mailbox) moves
      rw [told, ← World.drain_of_some hf, ← hreported j, ← hsame]
      rfl
    rw [htold]
    exact (horderly.talks hwho hwhom hid he hf).recounts.retold

/-- Two nodes meet, and the first whispers to the second. -/
theorem retold_after_whispered :
    let ann : Party := ⟨⟨.replicate 16 1, rfl⟩, "ann", "a", .usual⟩
    let bob : Party := ⟨⟨.replicate 16 2, rfl⟩, "bob", "b", .usual⟩
    let g : Gathering := .bound [ann, bob] (by decide) (by decide)
    let moves : List Move := [.find 0 1 .ascending 0, .deliver 1 .ascending 0,
      .act 0 .ascending (.whisper bob.id ["hi".toUTF8]) rfl, .deliver 1 .ascending 0]
    (g.told moves 1 ann).filterMap Event.spoken? = [(none, ["hi".toUTF8])] ∧
      ∃ said, (g.sent moves ann bob).map Wire.decode = said.map .ok ∧
        Retold ann said (g.told moves 1 ann) := by
  intro ann bob g moves
  have hann : g.parties[0]? = some ann := rfl
  have hbob : g.parties[1]? = some bob := rfl
  exact ⟨by decide +kernel, (retold_after g moves).2 hann hbob (by decide)⟩

end Gathering
end PeerMesh
