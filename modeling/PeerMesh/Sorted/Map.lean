/-! Finite maps kept as a list of entries in strictly ascending order of key.

The order is part of the type, so walking a map, printing it or comparing two maps never
depends on how it was built. The view of a map is `get?`; each operation below says what it
does to that view. -/

namespace PeerMesh
set_option autoImplicit false
set_option linter.unusedSectionVars false

universe u v w

/-- A finite map, its entries in strictly ascending order of key. -/
structure SortedMap (κ : Type u) (ν : Type v) [LT κ] where
  entries : List (κ × ν)
  ascending : entries.Pairwise (fun a b => a.1 < b.1)

namespace SortedMap

section
variable {κ : Type u} {ν : Type v} [LT κ]

def empty : SortedMap κ ν := ⟨[], .nil⟩

instance : Inhabited (SortedMap κ ν) := ⟨empty⟩

def keys (m : SortedMap κ ν) : List κ := m.entries.map (·.1)

def size (m : SortedMap κ ν) : Nat := m.entries.length

def isEmpty (m : SortedMap κ ν) : Bool := m.entries.isEmpty

instance [DecidableEq κ] [DecidableEq ν] : DecidableEq (SortedMap κ ν) := fun a b =>
  decidable_of_iff (a.entries = b.entries) ⟨fun h => by cases a; cases b; simp_all, fun h => h ▸ rfl⟩

theorem ext_entries {a b : SortedMap κ ν} (h : a.entries = b.entries) : a = b := by
  cases a; cases b; simp_all

/-- Replaces every value by its image, or drops the entry where the image is `none`. -/
def filterMap {μ : Type w} (f : κ → ν → Option μ) (m : SortedMap κ ν) : SortedMap κ μ where
  entries := m.entries.filterMap fun e => (f e.1 e.2).map fun x => (e.1, x)
  ascending := by
    refine List.Pairwise.filterMap (R := fun a b : κ × ν => a.1 < b.1) _ ?_ m.ascending
    intro a b hab x hx y hy
    obtain ⟨_, _, rfl⟩ := Option.map_eq_some_iff.mp hx
    obtain ⟨_, _, rfl⟩ := Option.map_eq_some_iff.mp hy
    exact hab

def filter (p : κ → ν → Bool) (m : SortedMap κ ν) : SortedMap κ ν where
  entries := m.entries.filter fun e => p e.1 e.2
  ascending := m.ascending.filter _

end

section
variable {κ : Type u} {ν : Type v} [LT κ] [DecidableEq κ]

def get? (m : SortedMap κ ν) (k : κ) : Option ν :=
  (m.entries.find? fun e => decide (e.1 = k)).map (·.2)

def contains (m : SortedMap κ ν) (k : κ) : Bool := (m.get? k).isSome

def erase (m : SortedMap κ ν) (k : κ) : SortedMap κ ν := m.filter fun j _ => decide (j ≠ k)

end

section
variable {κ : Type u} {ν : Type v} [LT κ] [DecidableLT κ]

/-- Puts an entry before the first one with a greater key, in place of one with an equal key. -/
def insertEntry (k : κ) (x : ν) : List (κ × ν) → List (κ × ν)
  | [] => [(k, x)]
  | e :: r =>
    if k < e.1 then (k, x) :: e :: r
    else if e.1 < k then e :: insertEntry k x r
    else (k, x) :: r

theorem mem_insertEntry {k : κ} {x : ν} {l : List (κ × ν)} {e : κ × ν}
    (h : e ∈ insertEntry k x l) : e = (k, x) ∨ e ∈ l := by
  induction l with
  | nil => simpa [insertEntry] using h
  | cons a r ih =>
    unfold insertEntry at h
    split at h
    · simpa using h
    · split at h
      · rcases List.mem_cons.mp h with h | h
        · exact .inr (by simp [h])
        · exact (ih h).imp id (List.mem_cons_of_mem _)
      · rcases List.mem_cons.mp h with h | h
        · exact .inl h
        · exact .inr (List.mem_cons_of_mem _ h)

end

section
variable {κ : Type u} {ν : Type v} [LE κ] [LT κ] [DecidableLT κ] [Std.IsLinearOrder κ]
  [Std.LawfulOrderLT κ]

theorem pairwise_insertEntry (k : κ) (x : ν) {l : List (κ × ν)}
    (h : l.Pairwise (fun a b => a.1 < b.1)) :
    (insertEntry k x l).Pairwise (fun a b => a.1 < b.1) := by
  induction l with
  | nil => exact List.pairwise_singleton _ _
  | cons a r ih =>
    obtain ⟨ha, hr⟩ := List.pairwise_cons.mp h
    unfold insertEntry
    split
    · rename_i hk
      refine List.pairwise_cons.mpr ⟨?_, h⟩
      intro b hb
      rcases List.mem_cons.mp hb with rfl | hb
      · exact hk
      · exact Std.lt_trans hk (ha b hb)
    · split
      · rename_i hk
        refine List.pairwise_cons.mpr ⟨?_, ih hr⟩
        intro b hb
        rcases mem_insertEntry hb with rfl | hb
        · exact hk
        · exact ha b hb
      · rename_i hk hk'
        have hka : k = a.1 := by
          rcases Std.lt_trichotomy k a.1 with h | h | h
          · exact absurd h hk
          · exact h
          · exact absurd h hk'
        exact List.pairwise_cons.mpr ⟨fun b hb => hka ▸ ha b hb, hr⟩

/-- Stores `x` under `k`, in place of what was there. -/
def insert (m : SortedMap κ ν) (k : κ) (x : ν) : SortedMap κ ν :=
  ⟨insertEntry k x m.entries, pairwise_insertEntry k x m.ascending⟩

/-- Stores the pairs one after the other; a later pair replaces an earlier one of equal key. -/
def ofList (l : List (κ × ν)) : SortedMap κ ν := l.foldl (fun m e => m.insert e.1 e.2) empty

end

section
variable {κ : Type u} {ν : Type v} [LE κ] [LT κ] [DecidableEq κ] [Std.IsLinearOrder κ]
  [Std.LawfulOrderLT κ]

theorem mem_entries {m : SortedMap κ ν} {k : κ} {x : ν} :
    (k, x) ∈ m.entries ↔ m.get? k = some x := by
  obtain ⟨l, hl⟩ := m
  simp only [get?]
  induction l with
  | nil => simp
  | cons a r ih =>
    obtain ⟨ha, hr⟩ := List.pairwise_cons.mp hl
    rw [List.find?_cons, List.mem_cons]
    by_cases hk : a.1 = k
    · simp only [hk, decide_true, Option.map_some, Option.some.injEq]
      constructor
      · rintro (h | h)
        · rw [← h]
        · exact absurd (hk ▸ ha _ h) Std.lt_irrefl
      · rintro rfl
        exact .inl (by rw [← hk])
    · simp only [hk, decide_false]
      rw [← ih hr]
      exact ⟨fun h => h.resolve_left fun h => hk (by rw [← h]), .inr⟩

@[simp] theorem get?_empty (k : κ) : (empty : SortedMap κ ν).get? k = none := rfl

theorem get?_erase (m : SortedMap κ ν) (k j : κ) :
    (m.erase k).get? j = if j = k then none else m.get? j := by
  apply Option.ext
  intro x
  rw [← mem_entries]
  simp only [erase, filter, List.mem_filter, mem_entries, ne_eq, decide_eq_true_eq]
  split <;> simp_all

theorem get?_filterMap {μ : Type w} (f : κ → ν → Option μ) (m : SortedMap κ ν) (k : κ) :
    (m.filterMap f).get? k = (m.get? k).bind (f k) := by
  apply Option.ext
  intro y
  rw [← mem_entries]
  simp only [filterMap, List.mem_filterMap, Option.map_eq_some_iff, Prod.mk.injEq,
    Option.bind_eq_some_iff]
  constructor
  · rintro ⟨⟨j, x⟩, hm, z, hz, rfl, rfl⟩
    exact ⟨x, mem_entries.mp hm, hz⟩
  · rintro ⟨x, hx, hy⟩
    exact ⟨(k, x), mem_entries.mpr hx, y, hy, rfl, rfl⟩

theorem ext_get? {a b : SortedMap κ ν} (h : ∀ k, a.get? k = b.get? k) : a = b := by
  have hmem : ∀ e, e ∈ a.entries ↔ e ∈ b.entries := fun ⟨k, x⟩ => by
    rw [mem_entries, mem_entries, h]
  have nodup : ∀ m : SortedMap κ ν, m.entries.Nodup := fun m =>
    m.ascending.imp (S := fun a b => a ≠ b) fun {a b} (hab : a.1 < b.1) (heq : a = b) =>
      Std.lt_irrefl (heq ▸ hab)
  exact ext_entries (((List.perm_ext_iff_of_nodup (nodup a) (nodup b)).mpr hmem).eq_of_pairwise
    (fun _ _ _ _ h₁ h₂ => absurd (Std.lt_trans h₁ h₂) Std.lt_irrefl) a.ascending b.ascending)

variable [DecidableLT κ]

theorem get?_insert (m : SortedMap κ ν) (k j : κ) (x : ν) :
    (m.insert k x).get? j = if j = k then some x else m.get? j := by
  obtain ⟨l, hl⟩ := m
  simp only [get?, insert]
  induction l with
  | nil => by_cases h : k = j <;> simp [insertEntry, h, eq_comm]
  | cons a r ih =>
    obtain ⟨ha, hr⟩ := List.pairwise_cons.mp hl
    unfold insertEntry
    split
    · by_cases h : k = j
      · simp [h]
      · simp [h, Ne.symm h]
    · split
      · rename_i hk
        rw [List.find?_cons]
        by_cases haj : a.1 = j
        · have hjk : j ≠ k := fun h => Std.lt_irrefl (haj ▸ h ▸ hk)
          simp [haj, hjk]
        · simp only [haj, decide_false]
          rw [ih hr, List.find?_cons]
          simp [haj]
      · rename_i hk hk'
        have hka : k = a.1 := by
          rcases Std.lt_trichotomy k a.1 with h | h | h
          · exact absurd h hk
          · exact h
          · exact absurd h hk'
        by_cases h : k = j
        · simp [h]
        · simp [h, Ne.symm h, ← hka]

end

end SortedMap
end PeerMesh
