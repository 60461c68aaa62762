import Mathlib.Algebra.BigOperators.Group.List.Basic
import Mathlib.Algebra.GroupWithZero.Nat

/-!
# Dictionaries

Association lists with one entry for each key, in the order in which the keys were first set.

* `Dict.get?`, `Dict.set`, and what setting one key does to every lookup.
* `Dict.ofItems`: a dictionary from its items.
* `Dict.erase`: removing keys, one at a time or from the front.
* `Dict.tally`: how often each key occurs in a list, with its two counting laws.
-/

namespace Lib

/-- A dictionary, as its items in insertion order. -/
abbrev Dict (κ ν : Type) := List (κ × ν)

namespace Dict

variable {κ ν : Type} [DecidableEq κ]

def get? : Dict κ ν → κ → Option ν
  | [], _ => none
  | (k', v) :: d, k => if k = k' then some v else get? d k

/-- A known key keeps its place. -/
def set (d : Dict κ ν) (k : κ) (v : ν) : Dict κ ν :=
  match d with
  | [] => [(k, v)]
  | (k', v') :: d => if k = k' then (k, v) :: d else (k', v') :: set d k v

@[simp] theorem get?_nil (k : κ) : get? ([] : Dict κ ν) k = none := rfl

theorem get?_set (d : Dict κ ν) (k j : κ) (v : ν) :
    get? (set d k v) j = if j = k then some v else get? d j := by
  induction d with
  | nil => simp [set, get?]
  | cons x d ih =>
    obtain ⟨k', v'⟩ := x
    by_cases hk : k = k'
    · subst hk
      by_cases hj : j = k <;> simp [set, get?, hj]
    · by_cases hj : j = k'
      · subst hj
        simp [set, get?, hk, Ne.symm hk]
      · simp [set, get?, hk, hj, ih]

@[simp] theorem get?_set_self (d : Dict κ ν) (k : κ) (v : ν) : get? (set d k v) k = some v := by
  simp [get?_set]

theorem get?_set_of_ne {k j : κ} (d : Dict κ ν) (v : ν) (h : j ≠ k) :
    get? (set d k v) j = get? d j := by
  simp [get?_set, h]

/-- Setting a key to the value that it has. -/
theorem set_of_get? {d : Dict κ ν} {k : κ} {v : ν} (h : get? d k = some v) : set d k v = d := by
  induction d with
  | nil => cases h
  | cons x d ih =>
    obtain ⟨k', v'⟩ := x
    by_cases hk : k = k'
    · subst hk
      obtain rfl : v' = v := by simpa [get?] using h
      simp [set]
    · rw [get?, if_neg hk] at h
      rw [set, if_neg hk, ih h]

/-- The keys of a dictionary after an item was set. -/
theorem mem_set {d : Dict κ ν} {k : κ} {v : ν} {x : κ × ν} (h : x ∈ set d k v) :
    x = (k, v) ∨ x ∈ d := by
  induction d with
  | nil => simpa [set] using h
  | cons y d ih =>
    simp only [set] at h
    split at h
    · rcases List.mem_cons.1 h with h | h
      · exact .inl h
      · exact .inr (List.mem_cons_of_mem _ h)
    · rcases List.mem_cons.1 h with h | h
      · exact .inr (h ▸ List.mem_cons_self ..)
      · exact (ih h).imp_right (List.mem_cons_of_mem _)

/-- Keys stay distinct. -/
theorem nodup_set {d : Dict κ ν} (k : κ) (v : ν) (hd : (d.map Prod.fst).Nodup) :
    ((set d k v).map Prod.fst).Nodup := by
  induction d with
  | nil => simp [set]
  | cons x d ih =>
    obtain ⟨k', v'⟩ := x
    rw [List.map_cons, List.nodup_cons] at hd
    by_cases hk : k = k'
    · subst hk
      rw [set, if_pos rfl, List.map_cons, List.nodup_cons]
      exact hd
    · rw [set, if_neg hk, List.map_cons, List.nodup_cons]
      refine ⟨fun hmem => ?_, ih hd.2⟩
      obtain ⟨y, hy, hyk⟩ := List.mem_map.1 hmem
      rcases mem_set hy with rfl | hy
      · exact hk hyk
      · exact hd.1 (List.mem_map.2 ⟨y, hy, hyk⟩)

theorem set_new {d : Dict κ ν} {k : κ} {v : ν} (h : k ∉ d.map Prod.fst) :
    set d k v = d ++ [(k, v)] := by
  induction d with
  | nil => rfl
  | cons x d ih =>
    simp only [List.map_cons, List.mem_cons, not_or] at h
    simp [set, h.1, ih h.2]

/-- The dictionary of some items; the last one of a key stays. -/
def ofItems (items : List (κ × ν)) : Dict κ ν := items.foldl (fun d x => d.set x.1 x.2) []

/-- Items with different keys are their own dictionary. -/
theorem ofItems_of_nodup {items : List (κ × ν)} (h : (items.map Prod.fst).Nodup) :
    ofItems items = items := by
  have hset : ∀ d : Dict κ ν, ((d ++ items).map Prod.fst).Nodup →
      items.foldl (fun d x => d.set x.1 x.2) d = d ++ items := by
    clear h
    induction items with
    | nil => simp
    | cons x items ih =>
      intro d hd
      have hnew : d.set x.1 x.2 = d ++ [x] := set_new fun h => by
        rw [List.map_append, List.nodup_append] at hd
        exact hd.2.2 _ h _ (List.mem_cons_self ..) rfl
      rw [List.foldl_cons, hnew, ih _ (by simpa using hd), List.append_assoc, List.singleton_append]
  exact hset [] h

/-- A dictionary has the keys of its items. -/
theorem isSome_get?_ofItems (items : List (κ × ν)) (k : κ) :
    (get? (ofItems items) k).isSome ↔ k ∈ items.map Prod.fst := by
  have hset : ∀ d : Dict κ ν, (get? (items.foldl (fun d x => d.set x.1 x.2) d) k).isSome ↔
      (get? d k).isSome ∨ k ∈ items.map Prod.fst := by
    induction items with
    | nil => simp
    | cons x items ih =>
      intro d
      rw [List.foldl_cons, ih, get?_set, List.map_cons, List.mem_cons]
      by_cases hk : k = x.1 <;> simp [hk]
  simpa [ofItems] using hset []

/-! ## Removing -/

/-- Removes the item of a key, if there is one. -/
def erase (d : Dict κ ν) (k : κ) : Dict κ ν := d.filter fun x => x.1 ≠ k

/-- A lookup in the items whose keys are kept. -/
theorem get?_filter (d : Dict κ ν) (p : κ → Bool) (j : κ) :
    get? (d.filter fun x => p x.1) j = if p j then get? d j else none := by
  induction d with
  | nil => simp
  | cons x d ih =>
    obtain ⟨k, v⟩ := x
    by_cases hk : p k = true
    · have hcons : ((k, v) :: d).filter (fun x => p x.1) = (k, v) :: d.filter fun x => p x.1 :=
        List.filter_cons_of_pos hk
      rw [hcons, get?, get?, ih]
      by_cases hj : j = k
      · simp [hj, hk]
      · simp [hj]
    · have hcons : ((k, v) :: d).filter (fun x => p x.1) = d.filter fun x => p x.1 :=
        List.filter_cons_of_neg hk
      rw [hcons, get?, ih]
      by_cases hj : j = k
      · simp [hj, hk]
      · simp [hj]

theorem get?_erase (d : Dict κ ν) (k j : κ) :
    get? (erase d k) j = if j = k then none else get? d j := by
  rw [erase, get?_filter d (fun i => i ≠ k)]
  by_cases hj : j = k <;> simp [hj]

theorem get?_foldl_erase (d : Dict κ ν) (ks : List κ) (j : κ) :
    get? (ks.foldl erase d) j = if j ∈ ks then none else get? d j := by
  induction ks generalizing d with
  | nil => simp
  | cons k ks ih =>
    rw [List.foldl_cons, ih, get?_erase]
    by_cases hj : j = k <;> simp [hj]

theorem get?_of_mem {d : Dict κ ν} {k : κ} {v : ν} (hd : (d.map Prod.fst).Nodup)
    (h : (k, v) ∈ d) : get? d k = some v := by
  induction d with
  | nil => exact nomatch h
  | cons x d ih =>
    obtain ⟨k', v'⟩ := x
    rw [List.map_cons, List.nodup_cons] at hd
    rcases List.mem_cons.1 h with hx | hx
    · cases hx
      simp [get?]
    · have hne : k ≠ k' := by
        rintro rfl
        exact hd.1 (List.mem_map.2 ⟨_, hx, rfl⟩)
      rw [get?, if_neg hne]
      exact ih hd.2 hx

theorem mem_of_get? {d : Dict κ ν} {k : κ} {v : ν} (h : get? d k = some v) : (k, v) ∈ d := by
  induction d with
  | nil => cases h
  | cons x d ih =>
    obtain ⟨k', v'⟩ := x
    by_cases hk : k = k'
    · subst hk
      obtain rfl : v' = v := by simpa [get?] using h
      exact .head _
    · rw [get?, if_neg hk] at h
      exact .tail _ (ih h)

/-- Removing a key takes out its one item. -/
theorem perm_erase {d : Dict κ ν} {k : κ} {v : ν} (hd : (d.map Prod.fst).Nodup)
    (h : get? d k = some v) : d.Perm ((k, v) :: erase d k) := by
  induction d with
  | nil => exact nomatch h
  | cons x d ih =>
    obtain ⟨k', v'⟩ := x
    rw [List.map_cons, List.nodup_cons] at hd
    by_cases hk : k = k'
    · subst hk
      obtain rfl : v' = v := by simpa [get?] using h
      have herase : erase ((k, v') :: d) k = d := by
        rw [erase, List.filter_cons_of_neg (by simp)]
        apply List.filter_eq_self.2
        intro y hy
        have : y.1 ≠ k := fun hyk => hd.1 (List.mem_map.2 ⟨y, hy, hyk⟩)
        simpa using this
      rw [herase]
    · have herase : erase ((k', v') :: d) k = (k', v') :: erase d k := by
        rw [erase, List.filter_cons_of_pos (by simpa using Ne.symm hk)]
        rfl
      rw [get?, if_neg hk] at h
      rw [herase]
      exact ((ih hd.2 h).cons _).trans (.swap ..)

/-- Removing keys one after the other. -/
theorem foldl_erase (d : Dict κ ν) (ks : List κ) :
    ks.foldl erase d = d.filter fun x => x.1 ∉ ks := by
  induction ks generalizing d with
  | nil => simp
  | cons k ks ih =>
    rw [List.foldl_cons, ih, erase, List.filter_filter]
    apply List.filter_congr
    intro x _
    simp [not_or, Bool.and_comm]

omit [DecidableEq κ] in
/-- Where `p` holds of all items before one of which it holds, a scan of the front finds all. -/
theorem takeWhile_eq_filter {d : Dict κ ν} {p : κ × ν → Bool}
    (h : d.Pairwise fun x y => p y = true → p x = true) : d.takeWhile p = d.filter p := by
  induction d with
  | nil => rfl
  | cons x d ih =>
    rw [List.pairwise_cons] at h
    by_cases hx : p x = true
    · rw [List.takeWhile_cons_of_pos hx, List.filter_cons_of_pos hx, ih h.2]
    · have hnone : d.filter p = [] := by
        refine List.filter_eq_nil_iff.2 fun y hy hp => hx (h.1 y hy hp)
      rw [List.takeWhile_cons_of_neg hx, List.filter_cons_of_neg hx, hnone]

/-! ## Counting -/

/-- One more for a key. -/
def bump (d : Dict κ Nat) (k : κ) : Dict κ Nat := d.set k ((d.get? k).getD 0 + 1)

/-- How often each key occurs. -/
def tally (ks : List κ) : Dict κ Nat := ks.foldl bump []

/-- The sum of all counts. -/
def total (d : Dict κ Nat) : Nat := (d.map Prod.snd).sum

omit [DecidableEq κ] in
@[simp] theorem total_nil : total ([] : Dict κ Nat) = 0 := rfl

theorem total_set (d : Dict κ Nat) (k : κ) (v : Nat) :
    total (set d k v) + (get? d k).getD 0 = total d + v := by
  induction d with
  | nil => simp [set, total]
  | cons x d ih =>
    obtain ⟨k', v'⟩ := x
    by_cases hk : k = k'
    · simp [set, get?, hk, total]
      omega
    · simp only [total] at ih
      simp [set, get?, hk, total]
      omega

theorem total_bump (d : Dict κ Nat) (k : κ) : total (bump d k) = total d + 1 := by
  have := total_set d k ((d.get? k).getD 0 + 1)
  simp only [bump]
  omega

/-- A tally holds the count of every key. -/
theorem getD_tally (ks : List κ) (k : κ) :
    ((tally ks).get? k).getD 0 = ks.countP fun j => j = k := by
  have hfold : ∀ d : Dict κ Nat,
      ((ks.foldl bump d).get? k).getD 0 = (d.get? k).getD 0 + ks.countP fun j => j = k := by
    induction ks with
    | nil => simp
    | cons j ks ih =>
      intro d
      rw [List.foldl_cons, ih, List.countP_cons, bump, get?_set]
      by_cases h : j = k
      · subst h
        simp
        omega
      · simp [h, Ne.symm h]
  simpa [tally] using hfold []

/-- The counts of a tally add up to the number of its occurrences. -/
theorem total_tally (ks : List κ) : total (tally ks) = ks.length := by
  have hfold : ∀ d : Dict κ Nat, total (ks.foldl bump d) = total d + ks.length := by
    induction ks with
    | nil => simp
    | cons j ks ih =>
      intro d
      rw [List.foldl_cons, ih, total_bump, List.length_cons]
      omega
  simpa [tally] using hfold []

end Dict

end Lib
