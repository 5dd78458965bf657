import Mathlib.Algebra.GroupWithZero.Nat
import Mathlib.Data.Finset.Card
import Mathlib.Data.List.Perm.Basic
import Mathlib.Data.List.Nodup
import Std.Data.ExtTreeMap
import Std.Data.ExtTreeSet

namespace TreeMaps

open Std

variable {K V : Type} [Ord K] [TransOrd K] [LawfulEqOrd K]

/-- Apply `f` to the values stored under the given keys, in order; absent keys stay absent. -/
def modifyEach (m : ExtTreeMap K V) (ks : List K) (f : K → V → V) : ExtTreeMap K V :=
  ks.foldl (fun m k => m.modify k (f k)) m

theorem getElem?_insert_of_ne {m : ExtTreeMap K V} {k j : K} {v : V} (h : j ≠ k) :
    (m.insert k v)[j]? = m[j]? := by
  rw [ExtTreeMap.getElem?_insert, if_neg (fun he => h (LawfulEqOrd.eq_of_compare he).symm)]

theorem getElem?_erase_of_ne {m : ExtTreeMap K V} {k j : K} (h : j ≠ k) :
    (m.erase k)[j]? = m[j]? := by
  rw [ExtTreeMap.getElem?_erase, if_neg (fun he => h (LawfulEqOrd.eq_of_compare he).symm)]

theorem getElem?_modify_of_ne {m : ExtTreeMap K V} {k j : K} {f : V → V} (h : j ≠ k) :
    (m.modify k f)[j]? = m[j]? := by
  rw [ExtTreeMap.getElem?_modify, if_neg (fun he => h (LawfulEqOrd.eq_of_compare he).symm)]

theorem getElem?_insert_some {m : ExtTreeMap K V} {k j : K} {v w : V}
    (h : (m.insert k v)[j]? = some w) : (j = k ∧ w = v) ∨ (j ≠ k ∧ m[j]? = some w) := by
  by_cases hj : j = k
  · subst hj
    rw [ExtTreeMap.getElem?_insert_self] at h
    exact Or.inl ⟨rfl, (Option.some.inj h).symm⟩
  · exact Or.inr ⟨hj, getElem?_insert_of_ne hj ▸ h⟩

theorem insert_same {m : ExtTreeMap K V} {k : K} {v : V} (h : m[k]? = some v) :
    m.insert k v = m := by
  apply ExtTreeMap.ext_getElem?
  intro j
  rw [ExtTreeMap.getElem?_insert]
  split
  next same => rw [← LawfulEqOrd.eq_of_compare same, h]
  next => rfl

theorem getElem?_erase_some {m : ExtTreeMap K V} {k j : K} {w : V}
    (h : (m.erase k)[j]? = some w) : j ≠ k ∧ m[j]? = some w := by
  by_cases hj : j = k
  · subst hj
    rw [ExtTreeMap.getElem?_erase_self] at h
    cases h
  · exact ⟨hj, getElem?_erase_of_ne hj ▸ h⟩

theorem keys_nodup_toList (m : ExtTreeMap K V) : (m.toList.map Prod.fst).Nodup := by
  have h := ExtTreeMap.distinct_keys_toList (t := m)
  rw [List.Nodup, List.pairwise_map]
  exact h.imp fun hne he => hne (compare_eq_iff_eq.mpr he)

theorem nodup_toList (m : ExtTreeMap K V) : m.toList.Nodup :=
  (keys_nodup_toList m).of_map _

theorem nodup_set_toList (s : ExtTreeSet K) : s.toList.Nodup := by
  have h := ExtTreeSet.distinct_toList (t := s)
  exact h.imp fun hne he => hne (compare_eq_iff_eq.mpr he)

/-- The entries after a fresh insertion are the old ones and the new one. -/
theorem toList_insert_perm {m : ExtTreeMap K V} {k : K} {v : V} (h : m[k]? = none) :
    (m.insert k v).toList.Perm ((k, v) :: m.toList) := by
  have fresh : (k, v) ∉ m.toList := by
    rw [ExtTreeMap.mem_toList_iff_getElem?_eq_some, h]
    simp
  apply (List.perm_ext_iff_of_nodup (nodup_toList _)
    (List.nodup_cons.mpr ⟨fresh, nodup_toList m⟩)).mpr
  rintro ⟨j, w⟩
  rw [ExtTreeMap.mem_toList_iff_getElem?_eq_some, List.mem_cons,
    ExtTreeMap.mem_toList_iff_getElem?_eq_some]
  constructor
  · intro hj
    rcases getElem?_insert_some hj with ⟨rfl, rfl⟩ | ⟨_, hj⟩
    · exact Or.inl rfl
    · exact Or.inr hj
  · rintro (he | hj)
    · cases he
      exact ExtTreeMap.getElem?_insert_self
    · have hne : j ≠ k := by
        rintro rfl
        rw [h] at hj
        cases hj
      rw [getElem?_insert_of_ne hne]
      exact hj

theorem toList_erase_perm {m : ExtTreeMap K V} {k : K} {v : V} (h : m[k]? = some v) :
    m.toList.Perm ((k, v) :: (m.erase k).toList) := by
  have gone : (k, v) ∉ (m.erase k).toList := by
    rw [ExtTreeMap.mem_toList_iff_getElem?_eq_some, ExtTreeMap.getElem?_erase_self]
    simp
  apply (List.perm_ext_iff_of_nodup (nodup_toList m)
    (List.nodup_cons.mpr ⟨gone, nodup_toList _⟩)).mpr
  rintro ⟨j, w⟩
  rw [ExtTreeMap.mem_toList_iff_getElem?_eq_some, List.mem_cons,
    ExtTreeMap.mem_toList_iff_getElem?_eq_some]
  by_cases hj : j = k
  · subst hj
    rw [h, ExtTreeMap.getElem?_erase_self]
    simp [eq_comm]
  · rw [getElem?_erase_of_ne hj]
    simp [hj]

theorem size_erase_of_some {m : ExtTreeMap K V} {k : K} {v : V} (h : m[k]? = some v) :
    (m.erase k).size + 1 = m.size := by
  have hp := (toList_erase_perm h).length_eq
  simpa using hp.symm

theorem size_eq_card [DecidableEq K] {m : ExtTreeMap K V} {s : Finset K}
    (h : ∀ k, m[k]?.isSome = true ↔ k ∈ s) : m.size = s.card := by
  have keys : (m.toList.map Prod.fst).toFinset = s := by
    ext k
    rw [List.mem_toFinset, ← h k, List.mem_map]
    constructor
    · rintro ⟨⟨_, v⟩, hm, rfl⟩
      rw [ExtTreeMap.mem_toList_iff_getElem?_eq_some.mp hm]
      rfl
    · intro some
      obtain ⟨v, hv⟩ := Option.isSome_iff_exists.mp some
      exact ⟨(k, v), ExtTreeMap.mem_toList_iff_getElem?_eq_some.mpr hv, rfl⟩
  rw [← keys, List.toFinset_card_of_nodup (keys_nodup_toList m), List.length_map,
    ExtTreeMap.length_toList]

theorem size_insert_of_none {m : ExtTreeMap K V} {k : K} {v : V} (h : m[k]? = none) :
    (m.insert k v).size = m.size + 1 := by
  have hp := (toList_insert_perm (v := v) h).length_eq
  simpa using hp

def sumValues (m : ExtTreeMap K V) (f : V → Nat) : Nat := (m.toList.map fun e => f e.2).sum

theorem sumValues_insert {m : ExtTreeMap K V} {k : K} {v : V} (h : m[k]? = none) (f : V → Nat) :
    sumValues (m.insert k v) f = f v + sumValues m f := by
  have same := ((toList_insert_perm (v := v) h).map fun e => f e.2).sum_nat
  rwa [List.map_cons, List.sum_cons] at same

theorem sumValues_erase {m : ExtTreeMap K V} {k : K} {v : V} (h : m[k]? = some v) (f : V → Nat) :
    sumValues m f = f v + sumValues (m.erase k) f := by
  have same := ((toList_erase_perm h).map fun e => f e.2).sum_nat
  rwa [List.map_cons, List.sum_cons] at same

theorem isEmpty_iff_getElem? {m : ExtTreeMap K V} :
    m.isEmpty = true ↔ ∀ k : K, m[k]? = none := by
  constructor
  · intro h k
    rw [ExtTreeMap.isEmpty_iff.mp h]
    exact ExtTreeMap.getElem?_empty
  · intro h
    apply ExtTreeMap.isEmpty_iff.mpr
    apply ExtTreeMap.ext_getElem?
    intro k
    rw [h k]
    exact ExtTreeMap.getElem?_empty.symm

theorem getElem?_modifyEach_of_notMem {ks : List K} {f : K → V → V} {j : K} (h : j ∉ ks)
    (m : ExtTreeMap K V) : (modifyEach m ks f)[j]? = m[j]? := by
  induction ks generalizing m with
  | nil => rfl
  | cons k ks ih =>
    have hj := List.ne_and_not_mem_of_not_mem_cons h
    exact (ih hj.2 (m.modify k (f k))).trans (getElem?_modify_of_ne hj.1)

theorem getElem?_modifyEach_of_mem {ks : List K} {f : K → V → V} {j : K} (hn : ks.Nodup)
    (h : j ∈ ks) (m : ExtTreeMap K V) : (modifyEach m ks f)[j]? = m[j]?.map (f j) := by
  induction ks generalizing m with
  | nil => cases h
  | cons k ks ih =>
    have hk := List.nodup_cons.mp hn
    rcases List.mem_cons.mp h with rfl | hj
    · exact (getElem?_modifyEach_of_notMem hk.1 (m.modify j (f j))).trans
        ExtTreeMap.getElem?_modify_self
    · have hne : j ≠ k := fun he => hk.1 (he ▸ hj)
      exact (ih hk.2 hj (m.modify k (f k))).trans
        (congrArg (Option.map (f j)) (getElem?_modify_of_ne hne))

theorem modifyEach_eq_self_iff {ks : List K} {f : K → V → V} {m : ExtTreeMap K V} (hn : ks.Nodup) :
    modifyEach m ks f = m ↔ ∀ k ∈ ks, ∀ v, m[k]? = some v → f k v = v := by
  constructor
  · intro same k hk v entry
    have changed := getElem?_modifyEach_of_mem (f := f) hn hk m
    rw [same, entry] at changed
    exact (Option.some.inj changed).symm
  · intro kept
    apply ExtTreeMap.ext_getElem?
    intro k
    by_cases hk : k ∈ ks
    · rw [getElem?_modifyEach_of_mem hn hk]
      cases entry : m[k]? with
      | none => rfl
      | some v => exact congrArg some (kept k hk v entry)
    · exact getElem?_modifyEach_of_notMem hk m

theorem getElem?_foldl_insert_of_notMem {α : Type} {key : α → K} {val : α → V} {xs : List α} {j : K}
    (h : j ∉ xs.map key) (m : ExtTreeMap K V) :
    (xs.foldl (fun m x => m.insert (key x) (val x)) m)[j]? = m[j]? := by
  induction xs generalizing m with
  | nil => rfl
  | cons x xs ih =>
    have hj := List.ne_and_not_mem_of_not_mem_cons h
    exact (ih hj.2 (m.insert (key x) (val x))).trans (getElem?_insert_of_ne hj.1)

theorem getElem?_foldl_insert_of_mem {α : Type} {key : α → K} {val : α → V} {xs : List α}
    (distinct : (xs.map key).Nodup) {x : α} (h : x ∈ xs) (m : ExtTreeMap K V) :
    (xs.foldl (fun m x => m.insert (key x) (val x)) m)[key x]? = some (val x) := by
  induction xs generalizing m with
  | nil => cases h
  | cons y xs ih =>
    have hy := List.nodup_cons.mp distinct
    rcases List.mem_cons.mp h with rfl | hx
    · exact (getElem?_foldl_insert_of_notMem hy.1 (m.insert (key x) (val x))).trans
        ExtTreeMap.getElem?_insert_self
    · exact ih hy.2 hx (m.insert (key y) (val y))

end TreeMaps
