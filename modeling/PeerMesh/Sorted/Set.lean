import PeerMesh.Sorted.Map

/-! Finite sets as ascending lists: sorted maps whose entries carry nothing but their key. -/

namespace PeerMesh
set_option autoImplicit false
set_option linter.unusedSectionVars false

universe u

/-- A finite set, its elements in strictly ascending order. -/
structure SortedSet (α : Type u) [LT α] where
  marks : SortedMap α Unit

namespace SortedSet

section
variable {α : Type u} [LT α]

def empty : SortedSet α := ⟨.empty⟩

instance : Inhabited (SortedSet α) := ⟨empty⟩

def toList (s : SortedSet α) : List α := s.marks.keys

def size (s : SortedSet α) : Nat := s.marks.size

def isEmpty (s : SortedSet α) : Bool := s.marks.isEmpty

variable [DecidableEq α]

instance : DecidableEq (SortedSet α) := fun a b =>
  decidable_of_iff (a.marks = b.marks) ⟨fun h => by cases a; cases b; simp_all, fun h => h ▸ rfl⟩

def contains (s : SortedSet α) (a : α) : Bool := s.marks.contains a

def erase (s : SortedSet α) (a : α) : SortedSet α := ⟨s.marks.erase a⟩

end

section
variable {α : Type u} [LE α] [LT α] [DecidableLT α] [Std.IsLinearOrder α] [Std.LawfulOrderLT α]

def insert (s : SortedSet α) (a : α) : SortedSet α := ⟨s.marks.insert a ()⟩

def ofList (l : List α) : SortedSet α := l.foldl insert empty

variable [DecidableEq α]

theorem contains_insert (s : SortedSet α) (a b : α) :
    (s.insert a).contains b = (decide (b = a) || s.contains b) := by
  simp only [contains, insert, SortedMap.contains, SortedMap.get?_insert]
  split <;> simp_all

theorem contains_erase (s : SortedSet α) (a b : α) :
    (s.erase a).contains b = (!decide (b = a) && s.contains b) := by
  simp only [contains, erase, SortedMap.contains, SortedMap.get?_erase]
  split <;> simp_all

theorem mem_toList {s : SortedSet α} {a : α} : a ∈ s.toList ↔ s.contains a = true := by
  simp only [toList, SortedMap.keys, contains, SortedMap.contains, Option.isSome_iff_exists,
    List.mem_map]
  constructor
  · rintro ⟨⟨b, u⟩, hm, rfl⟩
    exact ⟨u, SortedMap.mem_entries.mp hm⟩
  · rintro ⟨u, h⟩
    exact ⟨(a, u), SortedMap.mem_entries.mpr h, rfl⟩

end

end SortedSet
end PeerMesh
