import Mathlib

/-! Totals over finite ordered maps. A total is a sum over the map's entries, and the only
facts later proofs need are how it reacts to inserting a new key or replacing an old one.
-/

namespace Foundation.FiniteMap

open Std ExtTreeMap

variable {K V M : Type} [Ord K] [TransOrd K] [LawfulEqOrd K] {map : ExtTreeMap K V} {key : K}
  {value : V}

/-- The values of a map, in the order of their keys. -/
def values (map : ExtTreeMap K V) : List V :=
  map.toList.map Prod.snd

theorem mem_values_of_getElem? (stored : map[key]? = some value) : value ∈ values map :=
  List.mem_map.mpr ⟨(key, value), mem_toList_iff_getElem?_eq_some.mpr stored, rfl⟩

/-- Sum of `weight` over the entries of a map. -/
def total [AddCommMonoid M] (weight : K → V → M) (map : ExtTreeMap K V) : M :=
  (map.toList.map (fun entry => weight entry.1 entry.2)).sum

/-- The entry list of a map has no repeated entry, since its keys are distinct. -/
theorem nodup_toList (map : ExtTreeMap K V) : map.toList.Nodup := by
  apply List.Pairwise.imp _ map.distinct_keys_toList
  intro left right distinct same
  subst same
  exact distinct ReflCmp.compare_self

/-- A stored entry can be listed first, followed by the entries of the other keys. -/
theorem toList_perm_cons_erase (found : map[key]? = some value)
    : map.toList.Perm ((key, value) :: (map.erase key).toList) := by
  have absent : (key, value) ∉ (map.erase key).toList := by
    rw [mem_toList_iff_getElem?_eq_some, getElem?_erase_self]
    simp
  rw [List.perm_ext_iff_of_nodup (nodup_toList map)
    (List.nodup_cons.mpr ⟨absent, nodup_toList _⟩)]
  rintro ⟨other, stored⟩
  rw [List.mem_cons, mem_toList_iff_getElem?_eq_some,
    mem_toList_iff_getElem?_eq_some]
  grind

section Updates

variable {map : ExtTreeMap K V} {key : K} {value : V}

theorem erase_insert_of_absent (absent : map[key]? = none)
    : (map.insert key value).erase key = map := by
  apply ext_getElem?
  grind

/-- Undoing an in-place update restores the map. -/
theorem modify_modify_restore (f back : V → V) (found : map[key]? = some value)
    (restores : back (f value) = value)
    : (map.modify key f).modify key back = map := by
  apply ext_getElem?
  intro other
  by_cases same : key = other
  · subst same
    simp [found, restores]
  · simp [getElem?_modify, same]

/-- Undoing two in-place updates, newest first, restores the map; the keys may coincide. -/
theorem modify_pair_restore {left right : K} {l r : V} (f g f' g' : V → V)
    (leftFound : map[left]? = some l) (rightFound : map[right]? = some r) (leftBack : f' (f l) = l)
    (rightBack : g' (g r) = r) (bothBack : left = right → f' (g' (g (f l))) = l)
    : (((map.modify left f).modify right g).modify right g').modify left f' = map := by
  by_cases same : left = right
  · subst same
    apply ext_getElem?
    intro other
    by_cases here : left = other
    · subst here
      simp [leftFound, bothBack rfl]
    · simp [getElem?_modify, here]
  · have kept : (map.modify left f)[right]? = some r := by
      simp [getElem?_modify, same, rightFound]
    rw [modify_modify_restore g g' kept rightBack, modify_modify_restore f f' leftFound leftBack]

end Updates

section Totals

variable [AddCommMonoid M] (weight : K → V → M) {map : ExtTreeMap K V} {key : K} {value : V}
  {keys : List K}

/-- A total splits at any stored key, by listing that key's entry first. -/
theorem total_eq_add_erase (found : map[key]? = some value)
    : total weight map = weight key value + total weight (map.erase key) := by
  have listed := (toList_perm_cons_erase found).map (fun entry => weight entry.1 entry.2)
  simpa [total] using listed.sum_eq

/-- Inserting at an unused key adds exactly the new entry's weight. -/
theorem total_insert_new (absent : map[key]? = none)
    : total weight (map.insert key value) = weight key value + total weight map := by
  rw [total_eq_add_erase weight (getElem?_insert_self)]
  congr 2
  apply ext_getElem?
  grind

/-- Rewriting an entry trades its old weight for the new one; stated additively, so that it
holds in any commutative monoid.
-/
theorem total_modify {f : V → V} (found : map[key]? = some value)
    : total weight (map.modify key f) + weight key value
      = total weight map + weight key (f value) := by
  have rewritten : (map.modify key f)[key]? = some (f value) := by simp [found]
  have same : (map.modify key f).erase key = map.erase key := by
    apply ext_getElem?
    intro other
    by_cases here : key = other
    · subst here
      simp
    · simp [getElem?_modify, getElem?_erase, here]
  rw [total_eq_add_erase weight rewritten, same, total_eq_add_erase weight found]
  abel

/-- Storing a value trades the weight of the one it replaces, if any, for its own. -/
theorem total_insert (value : V)
    : total weight (map.insert key value) + (map[key]?.map (weight key)).getD 0
      = total weight map + weight key value := by
  have erased : (map.insert key value).erase key = map.erase key := by
    apply ext_getElem?
    grind
  rw [total_eq_add_erase weight (getElem?_insert_self), erased]
  cases found : map[key]? with
  | none =>
      have same : map.erase key = map := by
        apply ext_getElem?
        grind
      rw [same, Option.map_none, Option.getD_none, add_zero, add_comm]
  | some old =>
      rw [total_eq_add_erase weight found, Option.map_some, Option.getD_some]
      abel

/-- Inserting over an entry without weight adds the new entry's. -/
theorem total_insert_weightless (value : V)
    (weightless : ∀ old, map[key]? = some old → weight key old = 0)
    : total weight (map.insert key value) = total weight map + weight key value := by
  have old : (map[key]?.map (weight key)).getD 0 = 0 := by
    cases found : map[key]? with
    | none => rfl
    | some old => exact weightless old found
  have traded : total weight (map.insert key value) + (map[key]?.map (weight key)).getD 0
      = total weight map + weight key value :=
    total_insert weight value
  rwa [old, add_zero] at traded

/-- Rewriting every value gives the total of what the stored values weigh rewritten. -/
theorem total_map {f : K → V → V} {weight' : K → V → M}
    (same : ∀ key value, map[key]? = some value → weight' key (f key value) = weight key value)
    : total weight' (map.map f) = total weight map := by
  simp only [total, toList_map, List.map_map]
  refine congrArg List.sum (List.map_congr_left fun entry listed => ?_)
  exact same entry.1 entry.2 (mem_toList_iff_getElem?_eq_some.mp listed)

omit [LawfulEqOrd K] in
theorem total_add (weight' : K → V → M)
    : total (fun key value => weight key value + weight' key value) map
      = total weight map + total weight' map :=
  List.sum_map_add

theorem total_eq_zero (weightless : ∀ key value, map[key]? = some value → weight key value = 0)
    : total weight map = 0 := by
  apply List.sum_eq_zero
  intro summand listed
  obtain ⟨⟨key, value⟩, stored, rfl⟩ := List.mem_map.mp listed
  exact weightless key value (mem_toList_iff_getElem?_eq_some.mp stored)

/-- A total over a map is the sum over any listing of its keys. -/
theorem total_eq_sum_keys (distinct : keys.Nodup)
    (listed : ∀ key, (∃ value, map[key]? = some value) ↔ key ∈ keys)
    : total weight map = (keys.map fun key => (map[key]?.map (weight key)).getD 0).sum := by
  induction keys generalizing map with
  | nil =>
      rw [List.map_nil, List.sum_nil]
      refine total_eq_zero weight fun key value found => ?_
      cases (listed key).mp ⟨value, found⟩
  | cons first rest ih =>
      obtain ⟨notLater, distinct⟩ := List.nodup_cons.mp distinct
      obtain ⟨value, found⟩ := (listed first).mpr List.mem_cons_self
      have others {key : K} (later : key ∈ rest) : (map.erase first)[key]? = map[key]? := by
        have differs : first ≠ key := fun same => notLater (same ▸ later)
        simp [getElem?_erase, differs]
      have remaining : total weight (map.erase first)
          = (rest.map fun key => ((map.erase first)[key]?.map (weight key)).getD 0).sum := by
        refine ih distinct fun key => ⟨fun ⟨value, there⟩ => ?_, fun later => ?_⟩
        · by_cases here : first = key
          · subst here
            simp at there
          · rw [getElem?_erase, if_neg (by simpa using here)] at there
            exact (List.mem_cons.mp ((listed key).mp ⟨value, there⟩)).resolve_left (Ne.symm here)
        · rw [others later]
          exact (listed key).mpr (List.mem_cons_of_mem _ later)
      rw [total_eq_add_erase weight found, remaining, List.map_cons, List.sum_cons, found]
      congr 2
      exact List.map_congr_left fun key later => by rw [others later]

/-- The values at listed keys, each of which is stored, add up key by key. -/
theorem sum_values_filter (distinct : keys.Nodup) (amount : V → M)
    (stored : ∀ key ∈ keys, ∃ value, map[key]? = some value) {select : V → Bool}
    (selects : ∀ key value, map[key]? = some value → (select value ↔ key ∈ keys))
    : (((values map).filter select).map amount).sum
      = (keys.map fun key => (map[key]?.map amount).getD 0).sum := by
  have chosen (key : K) (value : V)
      : (map.filter fun _ value => select value)[key]? = some value
        ↔ map[key]? = some value ∧ key ∈ keys := by
    rw [getElem?_filter]
    cases found : map[key]? with
    | none => simp
    | some other =>
        have picks := selects key other found
        simp only [Option.pfilter_eq_filter, Option.filter_eq_some_iff, Option.some.injEq]
        grind
  have picked : total (fun _ value => amount value) (map.filter fun _ value => select value)
      = (keys.map fun key =>
          ((map.filter fun _ value => select value)[key]?.map amount).getD 0).sum := by
    refine total_eq_sum_keys _ distinct fun key => ⟨fun ⟨value, there⟩ => ?_, fun listed => ?_⟩
    · exact ((chosen key value).mp there).2
    · obtain ⟨value, found⟩ := stored key listed
      exact ⟨value, (chosen key value).mpr ⟨found, listed⟩⟩
  have entries : ((values map).filter select).map amount
      = (map.filter fun _ value => select value).toList.map fun entry => amount entry.2 := by
    simp [values, List.filter_map, toList_filter, Function.comp_def]
  rw [entries]
  refine picked.trans (congrArg List.sum (List.map_congr_left fun key listed => ?_))
  obtain ⟨value, found⟩ := stored key listed
  rw [(chosen key value).mpr ⟨found, listed⟩, found]

end Totals

end Foundation.FiniteMap
