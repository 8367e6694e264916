import PeerMesh.Sorted.Set

/-! Counting and comparing sorted containers. A map gains at most one entry by an insertion, two
sets with the same elements are the same set, and a map is what its own entries insert. -/

namespace PeerMesh
set_option autoImplicit false
set_option linter.unusedSectionVars false

universe u v w

namespace SortedMap

section
variable {κ : Type u} {ν : Type v} [LE κ] [LT κ] [DecidableEq κ] [Std.IsLinearOrder κ]
  [Std.LawfulOrderLT κ]

theorem mem_keys {m : SortedMap κ ν} {k : κ} : k ∈ m.keys ↔ ∃ x, m.get? k = some x := by
  simp only [keys, List.mem_map]
  constructor
  · rintro ⟨⟨j, x⟩, hm, rfl⟩
    exact ⟨x, mem_entries.mp hm⟩
  · rintro ⟨x, hx⟩
    exact ⟨(k, x), mem_entries.mpr hx, rfl⟩

theorem pairwise_keys (m : SortedMap κ ν) : m.keys.Pairwise (· < ·) :=
  List.pairwise_map.mpr m.ascending

theorem nodup_keys (m : SortedMap κ ν) : m.keys.Nodup := by
  apply m.pairwise_keys.imp
  intro a b hab heq
  subst b
  exact Std.lt_irrefl hab

theorem contains_eq_true {m : SortedMap κ ν} {k : κ} :
    m.contains k = true ↔ ∃ x, m.get? k = some x := by
  simp only [contains, Option.isSome_iff_exists]

theorem get?_filter (p : κ → ν → Bool) (m : SortedMap κ ν) (k : κ) :
    (m.filter p).get? k = (m.get? k).filter (p k) := by
  apply Option.ext
  intro x
  rw [← mem_entries, Option.filter_eq_some_iff, ← mem_entries]
  simp only [filter, List.mem_filter]

variable [DecidableLT κ]

theorem length_insertEntry (k : κ) (x : ν) (l : List (κ × ν)) :
    (insertEntry k x l).length ≤ l.length + 1 := by
  induction l with
  | nil => simp [insertEntry]
  | cons a r ih =>
    unfold insertEntry
    split
    · simp
    · split
      · simp only [List.length_cons]
        omega
      · simp

/-- Replacing an entry does not lengthen the list: the first key that is not smaller is the key. -/
theorem length_insertEntry_of_mem {k : κ} {x y : ν} {l : List (κ × ν)}
    (hl : l.Pairwise (fun a b => a.1 < b.1)) (h : (k, y) ∈ l) :
    (insertEntry k x l).length = l.length := by
  induction l with
  | nil => cases h
  | cons a r ih =>
    obtain ⟨ha, hr⟩ := List.pairwise_cons.mp hl
    unfold insertEntry
    rcases List.mem_cons.mp h with rfl | h
    · simp [Std.lt_irrefl]
    · have hak : a.1 < k := ha _ h
      have hka : ¬ k < a.1 := fun hka => Std.lt_irrefl (Std.lt_trans hak hka)
      rw [if_neg hka, if_pos hak, List.length_cons, ih hr h, List.length_cons]

theorem size_insert_le (m : SortedMap κ ν) (k : κ) (x : ν) : (m.insert k x).size ≤ m.size + 1 :=
  length_insertEntry k x m.entries

theorem size_insert_of_contains {m : SortedMap κ ν} {k : κ} (x : ν) (h : m.contains k = true) :
    (m.insert k x).size = m.size := by
  obtain ⟨y, hy⟩ := contains_eq_true.mp h
  exact length_insertEntry_of_mem m.ascending (mem_entries.mpr hy)

theorem length_insertEntry_of_not_mem {k : κ} {l : List (κ × ν)} (h : ∀ y, (k, y) ∉ l) (x : ν) :
    (insertEntry k x l).length = l.length + 1 := by
  induction l with
  | nil => rfl
  | cons a r ih =>
    unfold insertEntry
    split
    · rfl
    · split
      · rw [List.length_cons, ih fun y hy => h y (List.mem_cons_of_mem a hy), List.length_cons]
      · rename_i hka hak
        rcases Std.lt_trichotomy k a.1 with hlt | heq | hlt
        · exact absurd hlt hka
        · exact absurd (heq ▸ List.mem_cons_self) (h a.2)
        · exact absurd hlt hak

theorem size_insert_of_not_contains {m : SortedMap κ ν} {k : κ} (h : m.contains k = false) (x : ν) :
    (m.insert k x).size = m.size + 1 := by
  refine length_insertEntry_of_not_mem (fun y hy => ?_) x
  rw [contains_eq_true.mpr ⟨y, mem_entries.mp hy⟩] at h
  cases h

theorem insert_of_get? {m : SortedMap κ ν} {k : κ} {x : ν} (h : m.get? k = some x) :
    m.insert k x = m := by
  apply ext_get?
  intro j
  rw [get?_insert]
  split
  · rename_i hj
    rw [hj, h]
  · rfl

theorem erase_insert (m : SortedMap κ ν) (k : κ) (x : ν) : (m.insert k x).erase k = m.erase k := by
  apply ext_get?
  intro j
  rw [get?_erase, get?_erase, get?_insert]
  split <;> rfl

theorem insert_insert (m : SortedMap κ ν) (k : κ) (x y : ν) : (m.insert k x).insert k y = m.insert k y := by
  apply ext_get?
  intro i
  simp only [get?_insert]
  split <;> rfl

theorem insert_comm (m : SortedMap κ ν) {j k : κ} (h : j ≠ k) (x y : ν) :
    (m.insert j x).insert k y = (m.insert k y).insert j x := by
  apply ext_get?
  intro i
  simp only [get?_insert]
  by_cases hj : i = j
  · rw [if_neg (hj ▸ h), if_pos hj, if_pos hj]
  · rw [if_neg hj, if_neg hj]

theorem insert_erase_comm (m : SortedMap κ ν) {j k : κ} (h : j ≠ k) (x : ν) :
    (m.erase k).insert j x = (m.insert j x).erase k := by
  apply ext_get?
  intro i
  rw [get?_insert, get?_erase, get?_erase, get?_insert]
  by_cases hj : i = j
  · rw [if_pos hj, if_neg (hj ▸ h), if_pos hj]
  · simp [hj]

theorem get?_foldl_insert (l : List (κ × ν)) (hl : l.Pairwise (fun a b => a.1 < b.1))
    (m : SortedMap κ ν) (k : κ) :
    (l.foldl (fun m e => m.insert e.1 e.2) m).get? k =
      ((⟨l, hl⟩ : SortedMap κ ν).get? k).or (m.get? k) := by
  induction l generalizing m with
  | nil => rfl
  | cons a r ih =>
    obtain ⟨ha, hr⟩ := List.pairwise_cons.mp hl
    rw [List.foldl_cons, ih hr, get?_insert]
    have hcons : (⟨a :: r, hl⟩ : SortedMap κ ν).get? k =
        if a.1 = k then some a.2 else (⟨r, hr⟩ : SortedMap κ ν).get? k := by
      simp only [get?, List.find?_cons]
      by_cases hk : a.1 = k <;> simp [hk]
    rw [hcons]
    by_cases hk : a.1 = k
    · have hnone : (⟨r, hr⟩ : SortedMap κ ν).get? k = none := by
        rw [Option.eq_none_iff_forall_not_mem]
        intro x hx
        exact Std.lt_irrefl (hk ▸ ha _ (mem_entries.mpr hx))
      rw [hnone, if_pos hk, if_pos hk.symm]
      rfl
    · rw [if_neg hk, if_neg (Ne.symm hk)]

/-- Inserting the entries of a map one after the other builds the map. -/
theorem foldl_insert_entries (m : SortedMap κ ν) :
    m.entries.foldl (fun m e => m.insert e.1 e.2) empty = m := by
  apply ext_get?
  intro k
  rw [get?_foldl_insert m.entries m.ascending, get?_empty, Option.or_none]

/-- A map is built from its entries in any order, as no two of them have the same key. -/
theorem foldl_insert_of_perm {m : SortedMap κ ν} {l : List (κ × ν)} (h : l.Perm m.entries) :
    l.foldl (fun m e => m.insert e.1 e.2) empty = m := by
  refine (h.foldl_eq' ?_ empty).trans m.foldl_insert_entries
  intro a ha b hb n
  by_cases hkey : b.1 = a.1
  · have hget : ∀ e ∈ l, m.get? e.1 = some e.2 := fun e he => mem_entries.mp (h.mem_iff.mp he)
    have hsame : some b.2 = some a.2 := (hget b hb).symm.trans ((congrArg m.get? hkey).trans (hget a ha))
    rw [show b = a from Prod.ext hkey (Option.some.inj hsame)]
  · exact n.insert_comm (Ne.symm hkey) a.2 b.2

end

/-! ### Images of maps -/

section
variable {κ : Type u} {ν : Type v} {μ : Type w} [LE κ] [LT κ] [DecidableEq κ] [Std.IsLinearOrder κ]
  [Std.LawfulOrderLT κ]

def mapValues (f : ν → μ) (m : SortedMap κ ν) : SortedMap κ μ := m.filterMap fun _ x => some (f x)

theorem entries_mapValues (f : ν → μ) (m : SortedMap κ ν) :
    (m.mapValues f).entries = m.entries.map fun e => (e.1, f e.2) :=
  congrFun List.filterMap_eq_map' m.entries

theorem get?_mapValues (f : ν → μ) (m : SortedMap κ ν) (k : κ) :
    (m.mapValues f).get? k = (m.get? k).map f := by
  rw [mapValues, get?_filterMap, Option.map_eq_bind]
  rfl

theorem keys_mapValues (f : ν → μ) (m : SortedMap κ ν) : (m.mapValues f).keys = m.keys := by
  rw [keys, entries_mapValues, List.map_map]
  rfl

theorem size_mapValues (f : ν → μ) (m : SortedMap κ ν) : (m.mapValues f).size = m.size := by
  rw [size, entries_mapValues, List.length_map]
  rfl

theorem contains_mapValues (f : ν → μ) (m : SortedMap κ ν) (k : κ) :
    (m.mapValues f).contains k = m.contains k := by
  rw [contains, get?_mapValues, Option.isSome_map]
  rfl

theorem mapValues_self (m : SortedMap κ ν) : (m.mapValues fun x => x) = m := by
  apply ext_get?
  intro k
  rw [get?_mapValues, Option.map_id']

theorem erase_mapValues (f : ν → μ) (m : SortedMap κ ν) (k : κ) :
    (m.mapValues f).erase k = (m.erase k).mapValues f := by
  apply ext_get?
  intro j
  rw [get?_erase, get?_mapValues, get?_mapValues, get?_erase]
  split <;> rfl

theorem insert_mapValues [DecidableLT κ] (f : ν → μ) (m : SortedMap κ ν) (k : κ) (x : ν) :
    (m.mapValues f).insert k (f x) = (m.insert k x).mapValues f := by
  apply ext_get?
  intro j
  rw [get?_insert, get?_mapValues, get?_mapValues, get?_insert]
  split <;> rfl

end

end SortedMap

namespace SortedSet
variable {α : Type u} [LE α] [LT α] [DecidableEq α] [DecidableLT α] [Std.IsLinearOrder α]
  [Std.LawfulOrderLT α]

theorem nodup_toList (s : SortedSet α) : s.toList.Nodup := s.marks.nodup_keys

theorem ext_contains {s t : SortedSet α} (h : ∀ a, s.contains a = t.contains a) : s = t := by
  have hmarks : s.marks = t.marks := by
    apply SortedMap.ext_get?
    intro a
    have ha : (s.marks.get? a).isSome = (t.marks.get? a).isSome := h a
    cases hs : s.marks.get? a <;> cases ht : t.marks.get? a <;> simp_all
  exact congrArg mk hmarks

theorem size_insert_le (s : SortedSet α) (a : α) : (s.insert a).size ≤ s.size + 1 :=
  s.marks.size_insert_le a ()

theorem size_erase_le (s : SortedSet α) (a : α) : (s.erase a).size ≤ s.size :=
  List.length_filter_le _ _

theorem insert_of_contains {s : SortedSet α} {a : α} (h : s.contains a = true) :
    s.insert a = s := by
  apply ext_contains
  intro b
  rw [contains_insert]
  by_cases hb : b = a
  · rw [hb, h, Bool.or_true]
  · rw [decide_eq_false hb, Bool.false_or]

theorem contains_foldl_insert (l : List α) (s : SortedSet α) (a : α) :
    (l.foldl insert s).contains a = true ↔ a ∈ l ∨ s.contains a = true := by
  induction l generalizing s with
  | nil => simp
  | cons b l ih =>
    rw [List.foldl_cons, ih, contains_insert, List.mem_cons, Bool.or_eq_true, decide_eq_true_eq]
    exact or_left_comm.trans or_assoc.symm

theorem foldl_insert_of_perm {s : SortedSet α} {l : List α} (h : l.Perm s.toList) :
    l.foldl insert empty = s := by
  apply ext_contains
  intro a
  rw [Bool.eq_iff_iff, contains_foldl_insert, h.mem_iff, mem_toList]
  exact or_iff_left Bool.false_ne_true

theorem erase_of_not_contains {s : SortedSet α} {a : α} (h : s.contains a = false) :
    s.erase a = s := by
  apply ext_contains
  intro b
  rw [contains_erase]
  by_cases hb : b = a
  · rw [hb, h, Bool.and_false]
  · rw [decide_eq_false hb, Bool.not_false, Bool.true_and]

theorem isEmpty_eq_false {s : SortedSet α} : s.isEmpty = false ↔ ∃ a, s.contains a = true := by
  have hlist : s.isEmpty = s.toList.isEmpty := by
    simp only [isEmpty, SortedMap.isEmpty, toList, SortedMap.keys, List.isEmpty_map]
  rw [hlist, List.isEmpty_eq_false_iff_exists_mem]
  simp only [mem_toList]

end SortedSet
end PeerMesh
