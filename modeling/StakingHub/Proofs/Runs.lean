import Mathlib.Data.List.Chain
import StakingHub.Proofs.Authentication

/-!
# What a run does, step by step

A run applies its operations in order, and an operation that fails leaves the service as it
found it (`Service.exec_atomic`). So a run does what its successful operations do, in their
order, and nothing else:

* `Service.succeeded` lists the operations of a run that succeeded, each judged in the state the
  run had reached;
* `Service.runOps_keeps`: what every allowed step keeps, every run of allowed steps keeps;
* `Service.isChain_states`: what every allowed step relates, consecutive states of such a run
  relate;
* `Service.observe_runOps`: an observation of the service that every successful allowed step
  updates in a known way ends, after a run, as the fold of those updates over the operations
  that succeeded.
-/

namespace StakingHub

namespace Service

/-- Whether an operation succeeds from a state. -/
def succeeds (svc : Service) (op : Op) : Bool :=
  match (exec op).run svc with
  | .ok _ _ => true
  | .error _ _ => false

/-- The operations of a run that succeeded, in order. -/
def succeeded : Service → List Op → List Op
  | _, [] => []
  | svc, op :: ops =>
    let rest := (svc.step op).succeeded ops
    if svc.succeeds op then op :: rest else rest

/-- The states a run passes through, from the first to the last. -/
def states : Service → List Op → List Service
  | svc, [] => [svc]
  | svc, op :: ops => svc :: (svc.step op).states ops

variable {svc svc' : Service} {op : Op}

theorem step_of_ok {u : Unit} (ran : (exec op).run svc = .ok u svc') : svc.step op = svc' := by
  rw [step, ran]

theorem step_of_error {e : ServiceFault} (failed : (exec op).run svc = .error e svc') :
    svc.step op = svc := by
  rw [step, failed, exec_atomic op svc e svc' failed]

theorem succeeds_of_ok {u : Unit} (ran : (exec op).run svc = .ok u svc') : svc.succeeds op = true := by
  rw [succeeds, ran]

theorem succeeds_eq_true : svc.succeeds op = true ↔ ∃ u svc', (exec op).run svc = .ok u svc' := by
  unfold succeeds
  split <;> simp_all

/-- An operation that leads to a state from which it succeeds succeeded: had it failed, the
state it led to would be the one it started from. -/
theorem succeeds_of_step_eq (stepped : svc.step op = svc') (again : svc'.succeeds op = true) :
    svc.succeeds op = true := by
  cases ran : (exec op).run svc with
  | ok u svc'' => exact succeeds_of_ok ran
  | error e svc'' =>
    rw [step_of_error ran] at stepped
    rwa [stepped]

theorem step_keeps {R : Service → Service → Prop} (refl : ∀ svc, R svc svc) (hm : Keeps R (exec op))
    (svc : Service) : R svc (svc.step op) := by
  cases ran : (exec op).run svc with
  | ok u svc' =>
    rw [step_of_ok ran]
    exact hm svc u svc' ran
  | error e svc' =>
    rw [step_of_error ran]
    exact refl svc

/-- What every allowed step keeps, every run of allowed steps keeps. -/
theorem runOps_keeps {Q : Service → Prop} {allowed : Op → Prop}
    (keeps : ∀ svc op, allowed op → Q svc → Q (svc.step op)) {svc : Service} (holds : Q svc)
    {ops : List Op} (all : ∀ op ∈ ops, allowed op) : Q (svc.runOps ops) := by
  induction ops generalizing svc with
  | nil => exact holds
  | cons op ops ih =>
    exact ih (keeps svc op (all op List.mem_cons_self) holds) fun o mem =>
      all o (List.mem_cons_of_mem _ mem)

theorem runOps_inv {svc : Service} (inv : svc.Inv) (ops : List Op) : (svc.runOps ops).Inv :=
  runOps_keeps (Q := Service.Inv) (fun _ op (_ : True) h => step_inv h op) inv fun _ _ => trivial

theorem head?_states (svc : Service) (ops : List Op) : (svc.states ops).head? = some svc := by
  cases ops <;> rfl

/-- What every allowed step relates, while it keeps `Q`, each two consecutive states of a run of
allowed steps from a state satisfying `Q` relate. -/
theorem isChain_states {Q : Service → Prop} {R : Service → Service → Prop} {allowed : Op → Prop}
    (steps : ∀ svc op, allowed op → Q svc → Q (svc.step op) ∧ R svc (svc.step op)) {svc : Service}
    (holds : Q svc) {ops : List Op} (all : ∀ op ∈ ops, allowed op) : (svc.states ops).IsChain R := by
  induction ops generalizing svc with
  | nil => exact List.isChain_singleton svc
  | cons op ops ih =>
    obtain ⟨kept, related⟩ := steps svc op (all op List.mem_cons_self) holds
    have rest := ih kept fun o mem => all o (List.mem_cons_of_mem _ mem)
    refine List.IsChain.cons rest fun y hy => ?_
    rw [head?_states, Option.mem_some_iff] at hy
    exact hy ▸ related

/-- An observation that every successful allowed step updates by `upd` ends, after a run of
allowed steps, as the fold of `upd` over the operations that succeeded: a failed step leaves the
service, and so the observation, as it was. -/
theorem observe_runOps {β : Type} (obs : Service → Except ServiceFault β) (upd : Op → β → β)
    {allowed : Op → Prop}
    (moves : ∀ svc op b u svc', allowed op → obs svc = .ok b → (exec op).run svc = .ok u svc' →
      obs svc' = .ok (upd op b))
    {svc : Service} {b : β} (start : obs svc = .ok b) {ops : List Op}
    (all : ∀ op ∈ ops, allowed op) :
    obs (svc.runOps ops) = .ok ((svc.succeeded ops).foldl (fun b op => upd op b) b) := by
  induction ops generalizing svc b with
  | nil => exact start
  | cons op ops ih =>
    have rest : ∀ o ∈ ops, allowed o := fun o mem => all o (List.mem_cons_of_mem _ mem)
    cases ran : (exec op).run svc with
    | ok u svc' =>
      have moved := moves svc op b u svc' (all op List.mem_cons_self) start ran
      simp only [succeeded, succeeds_of_ok ran, if_true, List.foldl_cons]
      rw [runOps_cons, step_of_ok ran]
      exact ih moved rest
    | error e svc' =>
      have failed : svc.succeeds op = false := by rw [succeeds, ran]
      simp only [succeeded, failed, Bool.false_eq_true, if_false]
      rw [runOps_cons, step_of_error ran]
      exact ih start rest

end Service

end StakingHub
