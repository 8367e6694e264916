import Mathlib.Data.List.Perm.Subperm
import PeerMesh.Proofs.Node.Acts
import PeerMesh.Proofs.Node.Traits

/-!
# What a node records

A node records what it was told, and passes it on to the task of its engine as a request. The two
check it each on its own, one against a list of groups, in which a group may stand more than once,
and the other against the set of groups that are joined. `InStep` says that they come to the same:
once the requests that wait are done, the engine is as the node recorded, and none of them is
refused.
-/

namespace PeerMesh
set_option autoImplicit false

namespace Node

/-- What a node was told about itself. -/
structure Record where
  name : String
  headers : Headers
  /-- Perhaps with repetitions. -/
  groups : List String

namespace Record
variable {κ : Type}

/-- The record after a call to which the answer was yes. -/
def told (r : Record) : Call κ → Record
  | .setName name => { r with name }
  | .setHeader key value => { r with headers := r.headers.insert key value }
  | .join group => if r.groups.contains group then r else { r with groups := r.groups ++ [group] }
  | .leave group => { r with groups := r.groups.filter (· ≠ group) }
  | _ => r

/-- The record says what the engine is like. -/
structure Depicts (r : Record) (t : Traits) : Prop where
  name : t.name = r.name
  headers : t.headers = r.headers
  joined : ∀ group, t.joined.contains group = true ↔ group ∈ r.groups

namespace Depicts
variable {r : Record} {t : Traits}

theorem size_le (h : r.Depicts t) : t.joined.size ≤ r.groups.length := by
  have hsub : t.joined.toList ⊆ r.groups := fun group hgroup =>
    (h.joined group).mp (SortedSet.mem_toList.mp hgroup)
  have hlen := (t.joined.nodup_toList.subperm hsub).length_le
  rwa [SortedSet.toList, SortedMap.keys, List.length_map] at hlen

theorem check_setHeader (h : r.Depicts t) {key value : String}
    (hok : checkHeader r.headers key value = .ok ()) : t.check (.setHeader key value) = .ok () := by
  rw [Traits.check, h.headers, hok]

/-- The list of the node is at least as long as the set of the engine is large. -/
theorem check_join (h : r.Depicts t) {group : String}
    (hok : checkGroup r.groups.length group = .ok ()) : t.check (.join group) = .ok () := by
  obtain ⟨hbytes, hroom⟩ := Engine.checkGroup_eq_ok.mp hok
  have hfree : t.joined.size < Wire.limit := Nat.lt_of_le_of_lt h.size_le hroom
  rw [Traits.check, Engine.checkGroup_eq_ok.mpr ⟨hbytes, hfree⟩, ite_self]

theorem setHeader (h : r.Depicts t) (key value : String) :
    (r.told (.setHeader key value : Call κ)).Depicts (t.after (.setHeader key value)) where
  name := h.name
  headers := congrArg (·.insert key value) h.headers
  joined := h.joined

/-- It does not matter whether the group is in the list already. -/
theorem append (h : r.Depicts t) (group : String) :
    ({ r with groups := r.groups ++ [group] } : Record).Depicts (t.after (.join group)) := by
  refine ⟨h.name, h.headers, fun g => ?_⟩
  change (t.joined.insert group).contains g = true ↔ g ∈ r.groups ++ [group]
  rw [SortedSet.contains_insert, Bool.or_eq_true, decide_eq_true_eq, h.joined, List.mem_append,
    List.mem_singleton, or_comm]

theorem leave (h : r.Depicts t) (group : String) :
    (r.told (.leave group : Call κ)).Depicts (t.after (.leave group)) := by
  refine ⟨h.name, h.headers, fun g => ?_⟩
  change (t.joined.erase group).contains g = true ↔ g ∈ r.groups.filter (· ≠ group)
  rw [SortedSet.contains_erase, Bool.and_eq_true, Bool.not_eq_true', decide_eq_false_iff_not,
    h.joined, List.mem_filter, decide_eq_true_eq, and_comm]

end Depicts
end Record

section
variable {κ μ : Type}

def record (n : Node κ μ) : Record := ⟨n.name, n.headers, n.groups⟩

/-- Once the requests that wait for a task are done, its engine is as the record says, and none of
them is refused. -/
structure InStep (r : Record) (a : Actor κ μ) : Prop where
  sound : a.station.engine.Sound
  grants : a.station.engine.traits.Grants a.requests
  depicts : r.Depicts (a.requests.foldl Traits.after a.station.engine.traits)

variable {r r' : Record} {a b : Actor κ μ}

theorem InStep.congr (h : InStep r a) (hengine : b.station.engine = a.station.engine)
    (hrequests : b.requests = a.requests) : InStep r b :=
  ⟨hengine ▸ h.sound, by rw [hengine, hrequests]; exact h.grants,
    by rw [hengine, hrequests]; exact h.depicts⟩

theorem InStep.post (h : InStep r a) (hopen : a.closed = false) {q : Request}
    (hcheck : ∀ t, r.Depicts t → t.check q = .ok ())
    (hafter : ∀ t, r.Depicts t → r'.Depicts (t.after q)) : InStep r' (a.post q) := by
  have hpost : a.post q = { a with requests := a.requests ++ [q] } := by
    rw [Actor.post, if_neg (Bool.eq_false_iff.mp hopen)]
  rw [hpost]
  refine ⟨h.sound, Traits.grants_snoc.mpr ⟨h.grants, hcheck _ h.depicts⟩, ?_⟩
  dsimp only
  rw [List.foldl_append]
  exact hafter _ h.depicts

end
end Node
end PeerMesh
