import StakingHub.Service.Basic

/-!
# Operations that fail before they change anything

The service's operations change the store in place and keep what they changed when a later step
fails. `Atomic m` says that this never happens for `m`: whenever it fails, the state is the one it
started from. This module gives the laws that decide it for the building blocks.

* A lookup (`StoreM.read`, `Service.read`) changes nothing.
* An entry held for change (`StoreM.borrow`) is written back only when the look at it succeeded.
* A sequence is atomic when its first step is, and what follows either starts from the state the
  first step found or cannot fail.

Each law comes with the peeling lemma that later proofs open a run with: what a step gave and
where the rest started.
-/

namespace StakingHub

variable {ε σ α β X : Type}

/-! ### Sequencing -/

theorem run_bind_eq_ok {x : EStateM ε σ α} {f : α → EStateM ε σ β} {s s'' : σ} {b : β} :
    (x >>= f).run s = .ok b s'' ↔ ∃ a s', x.run s = .ok a s' ∧ (f a).run s' = .ok b s'' := by
  rw [EStateM.run_bind]
  cases x.run s with
  | ok a s' =>
    refine ⟨fun h => ⟨a, s', rfl, h⟩, ?_⟩
    rintro ⟨a', s'', same, h⟩
    cases same
    exact h
  | error e s' => simp

theorem run_bind_eq_error {x : EStateM ε σ α} {f : α → EStateM ε σ β} {s s'' : σ} {e : ε} :
    (x >>= f).run s = .error e s'' ↔
      x.run s = .error e s'' ∨ ∃ a s', x.run s = .ok a s' ∧ (f a).run s' = .error e s'' := by
  rw [EStateM.run_bind]
  cases x.run s with
  | ok a s' =>
    refine ⟨fun h => .inr ⟨a, s', rfl, h⟩, ?_⟩
    rintro (h | ⟨a', s'', same, h⟩)
    · cases h
    · cases same
      exact h
  | error e s' => simp

theorem run_bind_of_ok {x : EStateM ε σ α} {f : α → EStateM ε σ β} {s s' : σ} {a : α}
    (h : x.run s = .ok a s') : (x >>= f).run s = (f a).run s' := by
  rw [EStateM.run_bind, h]

theorem run_get_bind {f : σ → EStateM ε σ β} {s : σ} : (get >>= f).run s = (f s).run s := rfl

theorem run_check_eq_ok {c : Prop} [Decidable c] {e : ε} {k : Unit → EStateM ε σ β} {s s' : σ}
    {b : β} : (if c then throw e >>= k else k ()).run s = .ok b s' ↔ ¬c ∧ (k ()).run s = .ok b s' := by
  by_cases hc : c <;> simp [hc]

theorem run_pure_eq_ok {a b : α} {s s' : σ} :
    (pure a : EStateM ε σ α).run s = .ok b s' ↔ b = a ∧ s' = s := by
  simp [eq_comm]

theorem run_modify_eq_ok {f : σ → σ} {s s' : σ} {u : PUnit} :
    (modify f : EStateM ε σ PUnit).run s = .ok u s' ↔ s' = f s := by
  simp [eq_comm]

theorem eq_ok_of_toOption {ε α : Type} {e : Except ε α} {a : α} (h : e.toOption = some a) :
    e = .ok a := by
  cases e <;> simp_all [Except.toOption]

theorem eq_ok_of_mapError {ε ε' α : Type} {f : ε → ε'} {e : Except ε α} {a : α}
    (h : e.mapError f = .ok a) : e = .ok a := by
  cases e <;> cases h
  rfl

theorem except_check_eq_ok {c : Prop} [Decidable c] {e : ε} {k : Unit → Except ε β} {b : β} :
    (if c then throw e >>= k else k ()) = Except.ok b ↔ ¬c ∧ k () = .ok b := by
  by_cases hc : c <;> simp [hc, throw, throwThe, MonadExceptOf.throw, bind, Except.bind]

/-! ### Atomic operations -/

/-- From `s`, `m` either succeeds or fails leaving `s` as it was. -/
def AtomicAt (m : EStateM ε σ α) (s : σ) : Prop :=
  ∀ e s', m.run s = .error e s' → s' = s

/-- `m` fails only before it changes anything. -/
def Atomic (m : EStateM ε σ α) : Prop :=
  ∀ s, AtomicAt m s

theorem atomic_pure (a : α) : Atomic (pure a : EStateM ε σ α) := by
  intro s e s' h
  cases h

theorem atomic_throw (e : ε) : Atomic (throw e : EStateM ε σ α) := by
  intro s e' s' h
  cases h
  rfl

theorem AtomicAt.bind_of_keeps {x : EStateM ε σ α} {g : α → EStateM ε σ β} {s : σ}
    (hx : AtomicAt x s) (keeps : ∀ a s', x.run s = .ok a s' → s' = s ∧ AtomicAt (g a) s) :
    AtomicAt (x >>= g) s := by
  intro e s'' h
  rcases run_bind_eq_error.mp h with h | ⟨a, s', first, rest⟩
  · exact hx e s'' h
  · obtain ⟨rfl, hg⟩ := keeps a s' first
    exact hg e s'' rest

theorem AtomicAt.bind_of_succeeds {x : EStateM ε σ α} {g : α → EStateM ε σ β} {s : σ}
    (hx : AtomicAt x s)
    (succeeds : ∀ a s', x.run s = .ok a s' → ∀ e s'', (g a).run s' ≠ .error e s'') :
    AtomicAt (x >>= g) s := by
  intro e s'' h
  rcases run_bind_eq_error.mp h with h | ⟨a, s', first, rest⟩
  · exact hx e s'' h
  · exact absurd rest (succeeds a s' first e s'')

theorem atomic_modify (f : σ → σ) : Atomic (modify f : EStateM ε σ PUnit) := by
  intro s e s' h
  cases h

theorem atomicAt_of_ok {m : EStateM ε σ α} {s : σ} (ran : ∃ a s', m.run s = .ok a s') :
    AtomicAt m s := by
  obtain ⟨a, s', ok⟩ := ran
  intro e s'' h
  rw [ok] at h
  cases h

theorem run_pure_ne_error (a : α) (s : σ) (e : ε) (s' : σ) :
    (pure a : EStateM ε σ α).run s ≠ .error e s' := nofun

theorem run_modify_ne_error (f : σ → σ) (s : σ) (e : ε) (s' : σ) :
    (modify f : EStateM ε σ PUnit).run s ≠ .error e s' := nofun

theorem atomicAt_get_bind {f : σ → EStateM ε σ β} {s : σ} (h : AtomicAt (f s) s) :
    AtomicAt (get >>= f) s := h

theorem atomicAt_check {c : Prop} [Decidable c] {e : ε} {k : Unit → EStateM ε σ β} {s : σ}
    (hk : ¬c → AtomicAt (k ()) s) : AtomicAt (if c then throw e >>= k else k ()) s := by
  split
  · intro e' s' h
    cases h
    rfl
  · rename_i hc
    exact hk hc

/-! ### Loops of steps that change nothing -/

section Loop

variable {γ : Type} {m : γ → EStateM ε σ PUnit}

theorem run_forM_of_keeps (keeps : ∀ x s u s', (m x).run s = .ok u s' → s' = s)
    (xs : List γ) (s s' : σ) (ran : (xs.forM m).run s = .ok ⟨⟩ s') :
    s' = s ∧ ∀ x ∈ xs, ∃ u, (m x).run s = .ok u s := by
  induction xs generalizing s with
  | nil =>
    cases ran
    exact ⟨rfl, by simp⟩
  | cons x xs ih =>
    simp only [List.forM] at ran
    obtain ⟨u, s₁, first, rest⟩ := run_bind_eq_ok.mp ran
    have same := keeps x s u s₁ first
    rw [same] at first rest
    obtain ⟨rfl, each⟩ := ih s rest
    refine ⟨rfl, fun y hy => ?_⟩
    rcases List.mem_cons.mp hy with rfl | hy
    · exact ⟨u, first⟩
    · exact each y hy

theorem atomicAt_forM (atomic : ∀ x, Atomic (m x))
    (keeps : ∀ x s u s', (m x).run s = .ok u s' → s' = s) (xs : List γ) (s : σ) :
    AtomicAt (xs.forM m) s := by
  induction xs with
  | nil => exact atomic_pure _ s
  | cons x xs ih =>
    simp only [List.forM]
    exact (atomic x s).bind_of_keeps fun u s' first => ⟨keeps x s u s' first, keeps x s u s' first ▸ ih⟩

end Loop

/-! ### Lookups and held entries of the store -/

namespace StoreM

theorem run_read_eq_ok {f : Store → Except ServiceFault α} {s s' : Store} {a : α} :
    (read f).run s = .ok a s' ↔ f s = .ok a ∧ s' = s := by
  simp only [EStateM.run, read]
  cases f s <;> simp [eq_comm]

theorem run_read_eq_error {f : Store → Except ServiceFault α} {s s' : Store} {e : ServiceFault} :
    (read f).run s = .error e s' ↔ f s = .error e ∧ s' = s := by
  simp only [EStateM.run, read]
  cases f s <;> simp [eq_comm]

theorem run_read_of_ok {f : Store → Except ServiceFault α} {s : Store} {a : α} (h : f s = .ok a) :
    (read f).run s = .ok a s :=
  run_read_eq_ok.mpr ⟨h, rfl⟩

theorem atomic_read (f : Store → Except ServiceFault α) : Atomic (read f) := by
  intro s e s' h
  exact (run_read_eq_error.mp h).2

theorem run_read_keeps {f : Store → Except ServiceFault α} {s s' : Store} {a : α}
    (h : (read f).run s = .ok a s') : s' = s :=
  (run_read_eq_ok.mp h).2

theorem atomicAt_read_bind {f : Store → Except ServiceFault α} {g : α → StoreM β} {s : Store}
    (hg : ∀ a, f s = .ok a → AtomicAt (g a) s) : AtomicAt (read f >>= g) s := by
  refine AtomicAt.bind_of_keeps (atomic_read f s) ?_
  intro a s' h
  obtain ⟨found, rfl⟩ := run_read_eq_ok.mp h
  exact ⟨rfl, hg a found⟩

theorem run_borrow_eq_ok {find : Store → Except ServiceFault X} {write : X → Store → Store}
    {f : X → Except ServiceFault (β × X)} {s s' : Store} {b : β} :
    (borrow find write f).run s = .ok b s' ↔
      ∃ x x', find s = .ok x ∧ f x = .ok (b, x') ∧ s' = write x' s := by
  simp only [EStateM.run, borrow]
  cases hx : find s with
  | error e => simp [bind, Except.bind]
  | ok x =>
    cases hf : f x with
    | error e => simp [bind, Except.bind, hf]
    | ok p =>
      obtain ⟨b', x'⟩ := p
      simp only [bind, Except.bind, hf, EStateM.Result.ok.injEq]
      constructor
      · rintro ⟨rfl, rfl⟩
        exact ⟨x, x', rfl, hf, rfl⟩
      · rintro ⟨y, y', same, hy, rfl⟩
        cases same
        rw [hf] at hy
        cases hy
        exact ⟨rfl, rfl⟩

theorem run_borrow_of_ok {find : Store → Except ServiceFault X} {write : X → Store → Store}
    {f : X → Except ServiceFault (β × X)} {s : Store} {x x' : X} {b : β}
    (found : find s = .ok x) (changed : f x = .ok (b, x')) :
    (borrow find write f).run s = .ok b (write x' s) :=
  run_borrow_eq_ok.mpr ⟨x, x', found, changed, rfl⟩

theorem atomic_borrow (find : Store → Except ServiceFault X) (write : X → Store → Store)
    (f : X → Except ServiceFault (β × X)) : Atomic (borrow find write f) := by
  intro s e s' h
  simp only [EStateM.run, borrow] at h
  split at h
  · cases h
  · cases h
    rfl

end StoreM

/-! ### What each change of the store leaves alone -/

namespace Store

variable (s : Store)

@[simp] theorem modifyUser_nodes (email : String) (f : User → User) :
    (s.modifyUser email f).nodes = s.nodes := rfl

@[simp] theorem modifyUser_sessions (email : String) (f : User → User) :
    (s.modifyUser email f).sessions = s.sessions := rfl

@[simp] theorem modifyUser_deployments (email : String) (f : User → User) :
    (s.modifyUser email f).deployments = s.deployments := rfl

@[simp] theorem modifyNode_users (a : Address) (f : Node → Node) :
    (s.modifyNode a f).users = s.users := rfl

@[simp] theorem modifyNode_sessions (a : Address) (f : Node → Node) :
    (s.modifyNode a f).sessions = s.sessions := rfl

@[simp] theorem modifyNode_deployments (a : Address) (f : Node → Node) :
    (s.modifyNode a f).deployments = s.deployments := rfl

@[simp] theorem modifyNode_identity (a : Address) (f : Node → Node) :
    (s.modifyNode a f).identity = s.identity := rfl

@[simp] theorem modifyDeployment_users (name : String) (f : Deployment → Deployment) :
    (s.modifyDeployment name f).users = s.users := rfl

@[simp] theorem modifyDeployment_nodes (name : String) (f : Deployment → Deployment) :
    (s.modifyDeployment name f).nodes = s.nodes := rfl

@[simp] theorem modifyDeployment_sessions (name : String) (f : Deployment → Deployment) :
    (s.modifyDeployment name f).sessions = s.sessions := rfl

@[simp] theorem modifyDeployment_identity (name : String) (f : Deployment → Deployment) :
    (s.modifyDeployment name f).identity = s.identity := rfl

@[simp] theorem modifyVault_users (k : VaultKey) (f : Vault → Vault) :
    (s.modifyVault k f).users = s.users := rfl

@[simp] theorem modifyVault_nodes (k : VaultKey) (f : Vault → Vault) :
    (s.modifyVault k f).nodes = s.nodes := rfl

@[simp] theorem modifyVault_sessions (k : VaultKey) (f : Vault → Vault) :
    (s.modifyVault k f).sessions = s.sessions := rfl

@[simp] theorem modifyVault_identity (k : VaultKey) (f : Vault → Vault) :
    (s.modifyVault k f).identity = s.identity := rfl

end Store

/-! ### Lookups and the live store of the service -/

namespace Service

theorem run_read_eq_ok {f : Service → Except ServiceFault α} {svc svc' : Service} {a : α} :
    (read f).run svc = .ok a svc' ↔ f svc = .ok a ∧ svc' = svc := by
  simp only [EStateM.run, read]
  cases f svc <;> simp [eq_comm]

theorem run_read_eq_error {f : Service → Except ServiceFault α} {svc svc' : Service}
    {e : ServiceFault} : (read f).run svc = .error e svc' ↔ f svc = .error e ∧ svc' = svc := by
  simp only [EStateM.run, read]
  cases f svc <;> simp [eq_comm]

theorem atomic_read (f : Service → Except ServiceFault α) : Atomic (read f) := by
  intro svc e svc' h
  exact (run_read_eq_error.mp h).2

theorem atomicAt_read_bind {f : Service → Except ServiceFault α} {g : α → ServiceM β} {svc : Service}
    (hg : ∀ a, f svc = .ok a → AtomicAt (g a) svc) : AtomicAt (read f >>= g) svc := by
  refine AtomicAt.bind_of_keeps (atomic_read f svc) ?_
  intro a svc' h
  obtain ⟨found, rfl⟩ := run_read_eq_ok.mp h
  exact ⟨rfl, hg a found⟩

theorem run_onStore (m : StoreM α) (svc : Service) :
    (onStore m).run svc = match m.run svc.store with
      | .ok a store => .ok a { svc with store }
      | .error e store => .error e { svc with store } := rfl

theorem atomic_onStore {m : StoreM α} (hm : Atomic m) : Atomic (onStore m) := by
  intro svc e svc' h
  rw [run_onStore] at h
  split at h
  · cases h
  · rename_i store failed
    cases h
    rw [hm svc.store _ _ failed]

theorem run_onStore_eq_ok {m : StoreM α} {svc svc' : Service} {a : α} :
    (onStore m).run svc = .ok a svc' ↔ ∃ store, m.run svc.store = .ok a store ∧
      svc' = { svc with store } := by
  rw [run_onStore]
  split
  · rename_i a' store' ran
    simp only [EStateM.Result.ok.injEq]
    constructor
    · rintro ⟨rfl, rfl⟩
      exact ⟨store', ran, rfl⟩
    · rintro ⟨store, again, rfl⟩
      rw [ran] at again
      cases again
      exact ⟨rfl, rfl⟩
  · rename_i e store ran
    simp [ran]

end Service

end StakingHub
