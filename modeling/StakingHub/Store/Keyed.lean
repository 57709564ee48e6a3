/-!
# Tables kept in key order

The store keeps each table as a list in ascending key order, every key at most once, so that a
table read front to back is the order in which the service lists it. `put` places an entry
where its key belongs and replaces an entry of the same key; `get?` finds the entry of a key;
`modify` changes the first entry of a key in place and keeps every other entry.

They stand for the `BTreeMap` tables of `Database` (`crates/ns-mock/src/store/database.rs:12-22`).
-/

namespace StakingHub.Keyed

variable {α κ : Type}

/-- The first entry of key `k`. -/
def get? [DecidableEq κ] (key : α → κ) (k : κ) (xs : List α) : Option α :=
  xs.find? fun x => key x = k

/-- Whether key `k` has an entry. -/
def contains [DecidableEq κ] (key : α → κ) (k : κ) (xs : List α) : Bool :=
  xs.any fun x => key x = k

/-- Places `x` where its key belongs in ascending order, replacing an entry of the same key. -/
def put [Ord κ] (key : α → κ) (x : α) : List α → List α
  | [] => [x]
  | y :: ys =>
    match compare (key x) (key y) with
    | .lt => x :: y :: ys
    | .eq => x :: ys
    | .gt => y :: put key x ys

/-- Changes the first entry that satisfies `p` by `f`; every other entry stays. -/
def modifyFirst (p : α → Bool) (f : α → α) : List α → List α
  | [] => []
  | y :: ys => if p y then f y :: ys else y :: modifyFirst p f ys

/-- Changes the first entry of key `k` by `f`. -/
def modify [DecidableEq κ] (key : α → κ) (k : κ) (f : α → α) (xs : List α) : List α :=
  modifyFirst (fun x => key x = k) f xs

/-- Removes every entry of key `k`. -/
def erase [DecidableEq κ] (key : α → κ) (k : κ) (xs : List α) : List α :=
  xs.filter fun x => key x ≠ k

theorem length_modifyFirst (p : α → Bool) (f : α → α) (xs : List α) :
    (modifyFirst p f xs).length = xs.length := by
  induction xs with
  | nil => rfl
  | cons y ys ih => by_cases h : p y <;> simp [modifyFirst, h, ih]

theorem modifyFirst_of_forall (p : α → Bool) (f : α → α) (xs : List α)
    (none_match : ∀ x ∈ xs, p x = false) : modifyFirst p f xs = xs := by
  induction xs with
  | nil => rfl
  | cons y ys ih =>
    have hy := none_match y (List.mem_cons_self ..)
    simp [modifyFirst, hy, ih (fun x hx => none_match x (List.mem_cons_of_mem _ hx))]

theorem contains_put [Ord κ] [DecidableEq κ] (key : α → κ) (x : α) (xs : List α) :
    contains key (key x) (put key x xs) = true := by
  induction xs with
  | nil => simp [put, contains]
  | cons y ys ih =>
    unfold put
    split <;> simp_all [contains]

end StakingHub.Keyed
