import PeerMesh.Proofs.Station.Calls

/-!
# Counting what a mailbox was handed

The ledger tells how many messages of a certain body a mailbox was handed. Calls that put in no such
body add to no line.
-/

namespace PeerMesh
set_option autoImplicit false

namespace Line
variable {body : Body}

/-- How many messages with a certain body the mailbox was handed, whatever it answered. -/
def times (body : Body) (l : Line) : Nat :=
  l.countP fun call => decide ((Wire.decode call.1).toOption.map (·.body) = some body)

theorem times_append (l l' : Line) : times body (l ++ l') = times body l + times body l' :=
  List.countP_append

theorem times_call {n : UInt16} {body' : Body} {content : Content}
    (hf : Wire.encode ⟨n, body'⟩ = .ok content) (result : SendResult) :
    times body [(content, result)] = if body' = body then 1 else 0 := by
  rw [times, List.countP_singleton, Wire.decode_of_encode hf]
  simp [Except.toOption]

end Line

namespace Ledger
variable {κ μ : Type} {c c' : Ledger κ} {body : Body}

def times (c : Ledger κ) (body : Body) (i : Nat) : Nat := (c.lines[i]?.map (Line.times body)).getD 0

theorem times_congr (h : c'.lines = c.lines) (body : Body) (i : Nat) :
    c'.times body i = c.times body i := by
  rw [times, h, times]

theorem times_of_none {i : Nat} (h : c.lines[i]? = none) (body : Body) : c.times body i = 0 := by
  rw [times, h]
  rfl

theorem times_of_write {k : Nat} {l : Line} {call : Content × SendResult}
    (hl : c.lines[k]? = some l) (h : c'.lines = c.lines.modify k (· ++ [call])) (i : Nat) :
    c'.times body i = c.times body i + if i = k then Line.times body [call] else 0 := by
  by_cases hi : i = k
  · subst hi
    rw [if_pos rfl, times, h, List.getElem?_modify_eq, hl, times, hl]
    exact Line.times_append l [call]
  · rw [if_neg hi, times, h, List.getElem?_modify_ne _ _ (Ne.symm hi), times]
    rfl

theorem times_of_quiet {k : Nat} {call : Content × SendResult}
    (h : c'.lines = c.lines.modify k (· ++ [call])) (hcall : Line.times body [call] = 0) (i : Nat) :
    c'.times body i = c.times body i := by
  cases hl : c.lines[k]? with
  | some l =>
    rw [times_of_write hl h, hcall]
    split <;> rfl
  | none =>
    refine times_congr (h.trans ?_) body i
    rw [List.modify_eq_self (List.getElem?_eq_none_iff.mp hl)]

theorem times_of_opened (h : c'.lines = c.lines ++ [[]]) (i : Nat) :
    c'.times body i = c.times body i := by
  cases hl : c.lines[i]? with
  | some l =>
    rw [times, h, List.getElem?_append_left (List.getElem?_eq_some_iff.mp hl).1, times]
  | none =>
    rw [times_of_none hl, times, h, List.getElem?_append_right (List.getElem?_eq_none_iff.mp hl)]
    cases hnew : ([[]] : List Line)[i - c.lines.length]? with
    | none => rfl
    | some l =>
      rw [List.mem_singleton.mp (List.mem_of_getElem? hnew)]
      rfl

/-- One call of a mailbox adds one message to its line at most, and to no other line. -/
theorem times_of_send_le [Carriage κ μ] {box : Box μ} {n : UInt16} {body' : Body} {content : Content}
    {result : SendResult} (hs : Carriage.send c box content = (result, c'))
    (hf : Wire.encode ⟨n, body'⟩ = .ok content) (i : Nat) :
    c'.times body i ≤ c.times body i + if i = box.number then 1 else 0 := by
  have hlines := lines_of_send hs
  cases hl : c.lines[box.number]? with
  | none =>
    rw [List.modify_eq_self (List.getElem?_eq_none_iff.mp hl)] at hlines
    rw [times_congr hlines]
    exact Nat.le_add_right ..
  | some l =>
    rw [times_of_write hl hlines, Line.times_call hf]
    by_cases hi : i = box.number
    · rw [if_pos hi, if_pos hi]
      split <;> omega
    · rw [if_neg hi, if_neg hi]

variable [Carriage κ μ]

theorem times_of_call (h : Call (· ≠ body) c c') (i : Nat) : c'.times body i = c.times body i := by
  cases h with
  | connect routingId endpoint =>
    rcases hc : Carriage.connect c routingId endpoint with ⟨e | box, c'⟩
    · exact times_congr (lines_of_unreached hc) body i
    · exact times_of_opened (lines_of_opened hc).2 i
  | @send n body' frames box hmay hf =>
    have hlines := lines_of_send (show Carriage.send c box frames = (_, _) from rfl)
    refine times_of_quiet hlines ?_ i
    rw [Line.times_call hf, if_neg hmay]

theorem times_of_calls (h : Calls (· ≠ body) c c') (i : Nat) : c'.times body i = c.times body i := by
  induction h with
  | refl => rfl
  | tail _ h ih => exact (times_of_call h i).trans ih

end Ledger
end PeerMesh
