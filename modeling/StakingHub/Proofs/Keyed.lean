import StakingHub.Store.Basic

/-!
# Tables kept in key order are maps

The store keeps its tables as lists in ascending key order. Addresses and validator keys are
compared byte by byte and vault keys by deployment name, then by vault address; each of these is
a total order in which only equal keys compare equal. Under such an order:

* `put` keeps a table sorted, holds the entry it placed, and keeps every entry of another key;
* `get?` after `put` or `modify` answers as a map would;
* `modify` with a change that keeps keys leaves the keys, and so the order, as they were.

A sorted table holds each key at most once, so its entries are exactly the map's.
-/

namespace StakingHub

open Std

/-! ### Lawful key orders -/

theorem Bytes.compareLex_eq_compare (a b : List UInt8) : Bytes.compareLex a b = compare a b := by
  induction a generalizing b with
  | nil => cases b <;> rfl
  | cons x xs ih =>
    cases b with
    | nil => rfl
    | cons y ys =>
      rw [List.compare_cons_cons, ← ih ys]
      by_cases below : x < y
      · simp [Bytes.compareLex, below, compare, compareOfLessAndEq]
      · by_cases above : y < x
        · have hne : x ≠ y := fun h => by subst h; exact below above
          simp [Bytes.compareLex, below, above, compare, compareOfLessAndEq, hne]
        · have same : x = y :=
            UInt8.le_antisymm (UInt8.not_lt.mp above) (UInt8.not_lt.mp below)
          subst same
          simp [Bytes.compareLex, compare, compareOfLessAndEq]

theorem Address.compare_eq_compareOn : Address.compare = compareOn Address.bytes := by
  funext a b
  exact Bytes.compareLex_eq_compare a.bytes b.bytes

instance : TransOrd Address :=
  show TransCmp Address.compare from Address.compare_eq_compareOn ▸ inferInstance

instance : LawfulEqOrd Address where
  eq_of_compare {a b} h := by
    change Address.compare a b = .eq at h
    rw [Address.compare_eq_compareOn, compareOn, LawfulEqCmp.compare_eq_iff_eq] at h
    cases a
    cases b
    simp_all

theorem ValidatorPubkey.compare_eq_compareOn :
    ValidatorPubkey.compare = compareOn ValidatorPubkey.bytes := by
  funext a b
  exact Bytes.compareLex_eq_compare a.bytes b.bytes

instance : TransOrd ValidatorPubkey :=
  show TransCmp ValidatorPubkey.compare from ValidatorPubkey.compare_eq_compareOn ▸ inferInstance

instance : LawfulEqOrd ValidatorPubkey where
  eq_of_compare {a b} h := by
    change ValidatorPubkey.compare a b = .eq at h
    rw [ValidatorPubkey.compare_eq_compareOn, compareOn, LawfulEqCmp.compare_eq_iff_eq] at h
    cases a
    cases b
    simp_all

instance : TransOrd VaultKey :=
  inferInstanceAs (TransCmp (compareLex (compareOn VaultKey.deployment) (compareOn VaultKey.vault)))

instance : LawfulEqOrd VaultKey where
  eq_of_compare {a b} h := by
    change (compare a.deployment b.deployment).then (compare a.vault b.vault) = .eq at h
    rw [Ordering.then_eq_eq, LawfulEqCmp.compare_eq_iff_eq, LawfulEqCmp.compare_eq_iff_eq] at h
    cases a
    cases b
    simp_all

namespace Keyed

variable {α β κ : Type}

/-- A table in strictly ascending key order. -/
def Sorted [Ord κ] (key : α → κ) (xs : List α) : Prop :=
  xs.Pairwise fun x y => compare (key x) (key y) = .lt

/-! ### Placing an entry -/

theorem mem_put [Ord κ] {key : α → κ} {x y : α} {xs : List α} (h : y ∈ put key x xs) :
    y = x ∨ y ∈ xs := by
  induction xs with
  | nil => simpa [put] using h
  | cons z zs ih =>
    unfold put at h
    split at h
    · simpa using h
    · rcases List.mem_cons.mp h with rfl | hz
      · exact .inl rfl
      · exact .inr (List.mem_cons_of_mem _ hz)
    · rcases List.mem_cons.mp h with rfl | hz
      · exact .inr List.mem_cons_self
      · rcases ih hz with rfl | hz
        · exact .inl rfl
        · exact .inr (List.mem_cons_of_mem _ hz)

theorem mem_put_self [Ord κ] (key : α → κ) (x : α) (xs : List α) : x ∈ put key x xs := by
  induction xs with
  | nil => simp [put]
  | cons y ys ih =>
    unfold put
    split
    · exact List.mem_cons_self
    · exact List.mem_cons_self
    · exact List.mem_cons_of_mem _ ih

theorem mem_put_of_ne [Ord κ] [LawfulEqOrd κ] {key : α → κ} {x y : α} {xs : List α}
    (hy : y ∈ xs) (hne : key y ≠ key x) : y ∈ put key x xs := by
  induction xs with
  | nil => simp at hy
  | cons z zs ih =>
    unfold put
    split
    · exact List.mem_cons_of_mem _ hy
    · rename_i same
      rcases List.mem_cons.mp hy with rfl | hz
      · exact absurd (LawfulEqCmp.eq_of_compare same).symm hne
      · exact List.mem_cons_of_mem _ hz
    · rcases List.mem_cons.mp hy with rfl | hz
      · exact List.mem_cons_self
      · exact List.mem_cons_of_mem _ (ih hz)

theorem key_ne_of_contains_eq_false [DecidableEq κ] {key : α → κ} {k : κ} {xs : List α}
    (fresh : contains key k xs = false) {x : α} (hx : x ∈ xs) : key x ≠ k := by
  simp only [contains, List.any_eq_false, decide_eq_true_eq] at fresh
  exact fresh x hx

theorem mem_put_of_not_contains [Ord κ] [LawfulEqOrd κ] [DecidableEq κ] {key : α → κ}
    {x y : α} {xs : List α} (fresh : contains key (key x) xs = false) :
    y ∈ put key x xs ↔ y = x ∨ y ∈ xs := by
  refine ⟨mem_put, ?_⟩
  rintro (rfl | hy)
  · exact mem_put_self key y xs
  · exact mem_put_of_ne hy (key_ne_of_contains_eq_false fresh hy)

theorem mem_put_id [Ord κ] [LawfulEqOrd κ] {x y : κ} {xs : List κ} :
    y ∈ put id x xs ↔ y = x ∨ y ∈ xs := by
  refine ⟨mem_put, ?_⟩
  rintro (rfl | hy)
  · exact mem_put_self id y xs
  · by_cases same : y = x
    · subst same
      exact mem_put_self id y xs
    · exact mem_put_of_ne hy same

theorem sorted_put [Ord κ] [TransOrd κ] [LawfulEqOrd κ] {key : α → κ} {x : α} {xs : List α}
    (h : Sorted key xs) : Sorted key (put key x xs) := by
  induction xs with
  | nil => simp [Sorted, put]
  | cons y ys ih =>
    obtain ⟨below, rest⟩ := List.pairwise_cons.mp h
    unfold put
    split
    · rename_i lt
      refine List.Pairwise.cons ?_ h
      intro z hz
      rcases List.mem_cons.mp hz with rfl | hz
      · exact lt
      · exact TransCmp.lt_trans lt (below z hz)
    · rename_i same
      exact List.Pairwise.cons (fun z hz => TransCmp.lt_of_eq_of_lt same (below z hz)) rest
    · rename_i gt
      refine List.Pairwise.cons ?_ (ih rest)
      intro z hz
      rcases mem_put hz with rfl | hz
      · exact OrientedCmp.lt_of_gt gt
      · exact below z hz

theorem get?_put [Ord κ] [LawfulEqOrd κ] [DecidableEq κ] (key : α → κ) (x : α) (xs : List α)
    (k : κ) : get? key k (put key x xs) = if key x = k then some x else get? key k xs := by
  induction xs with
  | nil => by_cases h : key x = k <;> simp [put, get?, h]
  | cons y ys ih =>
    unfold put
    split
    · by_cases h : key x = k <;> simp [get?, h]
    · rename_i same
      have hy : key x = key y := LawfulEqCmp.eq_of_compare same
      by_cases h : key x = k <;> simp [get?, h, ← hy]
    · rename_i gt
      have hy : key y ≠ key x := fun e => by simp [e, ReflCmp.compare_self] at gt
      simp only [get?, List.find?_cons] at ih ⊢
      by_cases h : key x = k
      · subst h
        simp [hy, ih]
      · by_cases hk : key y = k <;> simp [hk, ih, h]

/-! ### Changing an entry in place -/

theorem map_modifyFirst (p : α → Bool) (f : α → α) (g : α → β) (xs : List α)
    (hf : ∀ y, xs.find? p = some y → g (f y) = g y) : (modifyFirst p f xs).map g = xs.map g := by
  induction xs with
  | nil => rfl
  | cons y ys ih =>
    by_cases h : p y
    · simp [modifyFirst, h, hf y (by simp [h])]
    · simp only [modifyFirst, h, Bool.false_eq_true, if_false, List.map_cons]
      rw [ih fun z found => hf z (by simp [h, found])]

theorem modifyFirst_append_cons {p : α → Bool} {f : α → α} {pre post : List α} {x : α}
    (passed : ∀ y ∈ pre, p y = false) (hx : p x = true) :
    modifyFirst p f (pre ++ x :: post) = pre ++ f x :: post := by
  induction pre with
  | nil => simp [modifyFirst, hx]
  | cons y ys ih =>
    have hy := passed y List.mem_cons_self
    simp [modifyFirst, hy, ih fun z hz => passed z (List.mem_cons_of_mem _ hz)]

theorem modify_append_cons [DecidableEq κ] {key : α → κ} {k : κ} (f : α → α) {pre : List α}
    (passed : ∀ y ∈ pre, key y ≠ k) {x : α} (hx : key x = k) (post : List α) :
    modify key k f (pre ++ x :: post) = pre ++ f x :: post :=
  modifyFirst_append_cons (by simpa using passed) (by simpa using hx)

theorem map_key_modify [DecidableEq κ] {key : α → κ} {k : κ} {f : α → α}
    (keeps : ∀ y, key y = k → key (f y) = k) (xs : List α) :
    (modify key k f xs).map key = xs.map key :=
  map_modifyFirst _ _ _ _ fun y found => by
    have hy : key y = k := by simpa using List.find?_some found
    rw [hy, keeps y hy]

theorem mem_modifyFirst {p : α → Bool} {f : α → α} {xs : List α} {y : α}
    (h : y ∈ modifyFirst p f xs) : y ∈ xs ∨ ∃ z ∈ xs, p z ∧ y = f z := by
  induction xs with
  | nil => simp [modifyFirst] at h
  | cons z zs ih =>
    by_cases hz : p z
    · simp only [modifyFirst, hz, if_true, List.mem_cons] at h
      rcases h with rfl | h
      · exact .inr ⟨z, List.mem_cons_self, hz, rfl⟩
      · exact .inl (List.mem_cons_of_mem _ h)
    · simp only [modifyFirst, hz, Bool.false_eq_true, if_false, List.mem_cons] at h
      rcases h with rfl | h
      · exact .inl List.mem_cons_self
      · rcases ih h with h | ⟨w, hw, hpw, rfl⟩
        · exact .inl (List.mem_cons_of_mem _ h)
        · exact .inr ⟨w, List.mem_cons_of_mem _ hw, hpw, rfl⟩

theorem get?_modify [DecidableEq κ] (key : α → κ) (k k' : κ) (f : α → α)
    (keeps : ∀ y, key (f y) = key y) (xs : List α) :
    get? key k' (modify key k f xs) =
      if k = k' then (get? key k xs).map f else get? key k' xs := by
  induction xs with
  | nil => by_cases h : k = k' <;> simp [modify, modifyFirst, get?, h]
  | cons y ys ih =>
    simp only [modify, get?] at ih ⊢
    by_cases hy : key y = k
    · by_cases h : k = k' <;> simp_all [modifyFirst]
    · by_cases h : k = k' <;> by_cases hy' : key y = k' <;> simp_all [modifyFirst]

theorem sorted_modify [Ord κ] [DecidableEq κ] {key : α → κ} {k : κ} {f : α → α}
    (keeps : ∀ y, key (f y) = key y) {xs : List α} (h : Sorted key xs) :
    Sorted key (modify key k f xs) := by
  have same := map_modifyFirst (fun x => decide (key x = k)) f key xs fun y _ => keeps y
  have keys : (xs.map key).Pairwise fun a b => compare a b = .lt := List.pairwise_map.mpr h
  rw [← same] at keys
  exact List.pairwise_map.mp keys

theorem flatMap_modifyFirst_perm {γ : Type} (p : α → Bool) (f : α → α) (g : α → List γ)
    (extra : List γ) {xs : List α} {x : α} (first : xs.find? p = some x)
    (hf : (g (f x)).Perm (g x ++ extra)) :
    ((modifyFirst p f xs).flatMap g).Perm (xs.flatMap g ++ extra) := by
  obtain ⟨hx, pre, post, rfl, passed⟩ := List.find?_eq_some_iff_append.mp first
  rw [modifyFirst_append_cons (fun y hy => by simpa using passed y hy) hx]
  simp only [List.flatMap_append, List.flatMap_cons, List.append_assoc]
  refine List.Perm.append_left _ ((hf.append_right _).trans ?_)
  rw [List.append_assoc]
  exact List.Perm.append_left _ List.perm_append_comm

theorem put_perm [Ord κ] [LawfulEqOrd κ] [DecidableEq κ] {key : α → κ} {x : α} {xs : List α}
    (fresh : contains key (key x) xs = false) : (put key x xs).Perm (x :: xs) := by
  induction xs with
  | nil => simp [put]
  | cons y ys ih =>
    have hy : key x ≠ key y := by
      intro same
      simp [contains, same] at fresh
    have rest : contains key (key x) ys = false := by
      simp only [contains, List.any_cons, Bool.or_eq_false_iff] at fresh
      exact fresh.2
    unfold put
    split
    · exact List.Perm.refl _
    · rename_i same
      exact absurd (LawfulEqCmp.eq_of_compare same) hy
    · exact ((ih rest).cons y).trans (List.Perm.swap x y ys)

/-! ### Looking up a sorted table -/

theorem get?_eq_some [DecidableEq κ] {key : α → κ} {k : κ} {xs : List α} {x : α}
    (h : get? key k xs = some x) : x ∈ xs ∧ key x = k := by
  unfold get? at h
  exact ⟨List.mem_of_find?_eq_some h, by simpa using List.find?_some h⟩

theorem get?_eq_some_iff_append [DecidableEq κ] {key : α → κ} {k : κ} {xs : List α} {x : α} :
    get? key k xs = some x ↔
      key x = k ∧ ∃ pre post, xs = pre ++ x :: post ∧ ∀ y ∈ pre, key y ≠ k := by
  simp [get?, List.find?_eq_some_iff_append]

theorem get?_eq_some_of_mem [Ord κ] [LawfulEqOrd κ] [DecidableEq κ] {key : α → κ} {xs : List α}
    {x : α} (sorted : Sorted key xs) (hx : x ∈ xs) : get? key (key x) xs = some x := by
  induction xs with
  | nil => simp at hx
  | cons y ys ih =>
    obtain ⟨below, rest⟩ := List.pairwise_cons.mp sorted
    rcases List.mem_cons.mp hx with rfl | hx
    · simp [get?]
    · -- `y` comes before `x`, so its key is smaller and the search passes it
      have hne : key y ≠ key x := by
        intro e
        have lt := below x hx
        rw [e, compare_self] at lt
        cases lt
      simpa [get?, List.find?_cons, hne] using ih rest hx

theorem nodup_of_sorted [Ord κ] [TransOrd κ] {key : α → κ} {xs : List α}
    (sorted : Sorted key xs) : (xs.map key).Nodup := by
  have keys : (xs.map key).Pairwise fun a b => compare a b = .lt := List.pairwise_map.mpr sorted
  refine keys.imp fun {a b} lt same => ?_
  rw [same, compare_self] at lt
  cases lt

theorem sorted_congr [Ord κ] {key : α → κ} {xs ys : List α} (h : xs.map key = ys.map key)
    (sorted : Sorted key xs) : Sorted key ys := by
  have keys : (xs.map key).Pairwise fun a b => compare a b = .lt := List.pairwise_map.mpr sorted
  rw [h] at keys
  exact List.pairwise_map.mp keys

theorem mem_modify_iff [DecidableEq κ] {key : α → κ} {k : κ} {f : α → α} {xs : List α}
    (nodup : (xs.map key).Nodup) {y : α} :
    y ∈ modify key k f xs ↔ (y ∈ xs ∧ key y ≠ k) ∨ ∃ z ∈ xs, key z = k ∧ y = f z := by
  induction xs with
  | nil => simp [modify, modifyFirst]
  | cons z zs ih =>
    obtain ⟨fresh, nodup⟩ := List.nodup_cons.mp nodup
    have others : ∀ w ∈ zs, key w ≠ key z := fun w hw same =>
      fresh (List.mem_map.mpr ⟨w, hw, same⟩)
    by_cases hz : key z = k
    · subst hz
      simp only [modify, modifyFirst, decide_true, if_true, List.mem_cons]
      constructor
      · rintro (rfl | hy)
        · exact .inr ⟨z, .inl rfl, rfl, rfl⟩
        · exact .inl ⟨.inr hy, others y hy⟩
      · rintro (⟨rfl | hy, hk⟩ | ⟨w, rfl | hw, hk, rfl⟩)
        · exact absurd rfl hk
        · exact .inr hy
        · exact .inl rfl
        · exact absurd hk (others w hw)
    · have step := ih nodup
      simp only [modify] at step
      simp only [modify, modifyFirst, hz, decide_false, Bool.false_eq_true, if_false,
        List.mem_cons, step]
      constructor
      · rintro (rfl | (⟨hy, hk⟩ | ⟨w, hw, hk, rfl⟩))
        · exact .inl ⟨.inl rfl, hz⟩
        · exact .inl ⟨.inr hy, hk⟩
        · exact .inr ⟨w, .inr hw, hk, rfl⟩
      · rintro (⟨rfl | hy, hk⟩ | ⟨w, rfl | hw, hk, rfl⟩)
        · exact .inl rfl
        · exact .inr (.inl ⟨hy, hk⟩)
        · exact absurd hk hz
        · exact .inr (.inr ⟨w, hw, hk, rfl⟩)

theorem modify_modify [DecidableEq κ] {key : α → κ} {k : κ} {f g : α → α} {xs : List α} {x : α}
    (found : get? key k xs = some x) (keeps : key (f x) = k) :
    modify key k g (modify key k f xs) = modify key k (g ∘ f) xs := by
  obtain ⟨hx, pre, post, rfl, passed⟩ := get?_eq_some_iff_append.mp found
  rw [modify_append_cons f passed hx, modify_append_cons g passed keeps,
    modify_append_cons _ passed hx]
  rfl

theorem modify_congr [DecidableEq κ] {key : α → κ} {k : κ} {f g : α → α} {xs : List α} {x : α}
    (found : get? key k xs = some x) (same : f x = g x) : modify key k f xs = modify key k g xs := by
  obtain ⟨hx, pre, post, rfl, passed⟩ := get?_eq_some_iff_append.mp found
  rw [modify_append_cons f passed hx, modify_append_cons g passed hx, same]

theorem get?_modify_const [DecidableEq κ] {key : α → κ} {k : κ} {xs : List α} {x z : α}
    (found : get? key k xs = some x) (key_z : key z = k) (k' : κ) :
    get? key k' (modify key k (fun _ => z) xs) = if k = k' then some z else get? key k' xs := by
  let g (y : α) : α := if key y = k then z else y
  have keeps : ∀ y, key (g y) = key y := fun y => by
    by_cases hy : key y = k <;> simp [g, hy, key_z]
  have same : (fun _ => z) x = g x := by simp [g, (get?_eq_some found).2]
  rw [modify_congr found same, get?_modify key k k' g keeps, found]
  by_cases h : k = k' <;> simp [h, g, (get?_eq_some found).2]

theorem filter_put [Ord κ] [LawfulEqOrd κ] [DecidableEq κ] {key : α → κ} {k : κ} {x : α}
    (hx : key x = k) (xs : List α) :
    (put key x xs).filter (fun y => key y ≠ k) = xs.filter fun y => key y ≠ k := by
  induction xs with
  | nil => simp [put, hx]
  | cons y ys ih =>
    unfold put
    split
    · simp [hx]
    · rename_i same
      have hy : key y = k := (LawfulEqCmp.eq_of_compare same).symm.trans hx
      simp [hx, hy]
    · simp only [List.filter_cons, ih]

theorem mem_modify_const_iff [DecidableEq κ] {key : α → κ} {k : κ} {xs : List α} {x z y : α}
    (nodup : (xs.map key).Nodup) (hx : x ∈ xs) (key_x : key x = k) :
    y ∈ modify key k (fun _ => z) xs ↔ (y ∈ xs ∧ key y ≠ k) ∨ y = z := by
  rw [mem_modify_iff nodup]
  refine or_congr Iff.rfl ⟨?_, fun same => ⟨x, hx, key_x, same⟩⟩
  rintro ⟨_, -, -, same⟩
  exact same

theorem contains_eq_true [DecidableEq κ] {key : α → κ} {k : κ} {xs : List α} :
    contains key k xs = true ↔ ∃ x ∈ xs, key x = k := by
  simp [contains]

theorem get?_erase [DecidableEq κ] (key : α → κ) (k k' : κ) (xs : List α) :
    get? key k' (erase key k xs) = if k = k' then none else get? key k' xs := by
  unfold get? erase
  rw [List.find?_filter]
  by_cases same : k = k'
  · subst same
    simp
  · -- an entry of key `k'` is not of key `k`, so the filter keeps it
    simp only [same, if_false]
    congr 1
    funext x
    by_cases hx : key x = k' <;> simp [hx, Ne.symm same]

/-! ### Searching a table after a change -/

theorem map_find?_modifyFirst (p q : α → Bool) (f : α → α) (g : α → β) (xs : List α)
    (hf : ∀ y, xs.find? q = some y → p (f y) = p y ∧ g (f y) = g y) :
    ((modifyFirst q f xs).find? p).map g = (xs.find? p).map g := by
  induction xs with
  | nil => rfl
  | cons y ys ih =>
    by_cases hq : q y
    · obtain ⟨same_p, same_g⟩ := hf y (by simp [hq])
      by_cases hp : p y <;> simp [modifyFirst, hq, hp, same_p, same_g]
    · have rest := ih fun z found => hf z (by simp [hq, found])
      by_cases hp : p y <;> simp [modifyFirst, hq, hp, rest]

theorem find?_put_of_fresh [Ord κ] [LawfulEqOrd κ] {key : α → κ} (p : α → Bool) {x : α}
    {xs : List α} (fresh : ∀ y ∈ xs, key y ≠ key x) (passed : p x = false) :
    (put key x xs).find? p = xs.find? p := by
  induction xs with
  | nil => simp [put, passed]
  | cons y ys ih =>
    have rest := ih fun z hz => fresh z (List.mem_cons_of_mem _ hz)
    unfold put
    split
    · simp [passed]
    · rename_i same
      exact absurd (LawfulEqCmp.eq_of_compare same).symm (fresh y List.mem_cons_self)
    · by_cases hp : p y <;> simp [hp, rest]

end Keyed

end StakingHub
