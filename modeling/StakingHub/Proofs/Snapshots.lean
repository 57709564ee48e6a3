import StakingHub.Proofs.Runs

/-!
# Snapshots and reverting to them

A snapshot is a copy of the live store kept under a name. Every operation but taking and
deleting snapshots changes the live store and nothing else (`Service.exec_changesOnlyStore`), and
taking or deleting a snapshot of another name keeps the entry of this one. So what a name holds
changes only when a snapshot of that name is taken or deleted (`Service.step_snapshotOf`).

Hence the round trip: after a snapshot is taken, any run that neither takes nor deletes it, and
that may revert to it or to other snapshots and take and delete others, ends in a state from
which reverting to it succeeds, brings back the store as it was when the snapshot was taken, and
keeps every snapshot, so the name can be reverted to again.
-/

namespace StakingHub

namespace Service

variable {svc : Service} {name : String}

/-! ### Looking up and reverting -/

theorem step_snapshot (svc : Service) (name : String) :
    svc.step (.snapshot name) = svc.snapshot name := rfl

theorem snapshotOf_snapshot (svc : Service) (name : String) :
    (svc.snapshot name).snapshotOf name = .ok svc.store := by
  simp [snapshotOf, snapshot, Keyed.get?_put]

theorem snapshotOf_snapshot_of_ne (svc : Service) {other : String} (apart : other ≠ name) :
    (svc.snapshot other).snapshotOf name = svc.snapshotOf name := by
  simp [snapshotOf, snapshot, Keyed.get?_put, apart]

theorem snapshotOf_erase_of_ne (svc : Service) {other : String} (apart : other ≠ name) :
    ({ svc with snapshots := Keyed.erase Prod.fst other svc.snapshots } : Service).snapshotOf name =
      svc.snapshotOf name := by
  simp [snapshotOf, Keyed.get?_erase, apart]

theorem snapshotOf_of_not_mem (missing : name ∉ svc.snapshotNames) :
    svc.snapshotOf name = .error (.snapshotNotFound name) := by
  have none : Keyed.get? Prod.fst name svc.snapshots = none := by
    refine List.find?_eq_none.mpr fun p hp same => missing ?_
    exact List.mem_map.mpr ⟨p, hp, by simpa using same⟩
  simp [snapshotOf, none]

theorem run_revert_of_snapshotOf {store : Store} (found : svc.snapshotOf name = .ok store) :
    (revert name).run svc = .ok () { svc with store } := by
  rw [revert, run_bind_of_ok (run_read_eq_ok.mpr ⟨found, rfl⟩)]
  rfl

theorem run_revert_of_not_mem (missing : name ∉ svc.snapshotNames) :
    (revert name).run svc = .error (.snapshotNotFound name) svc := by
  have failed : (read (·.snapshotOf name)).run svc = .error (.snapshotNotFound name) svc :=
    run_read_eq_error.mpr ⟨snapshotOf_of_not_mem missing, rfl⟩
  rw [revert, EStateM.run_bind, failed]

/-! ### What operations keep -/

/-- `svc'` is `svc` with another live store. -/
def StoreOnly (svc svc' : Service) : Prop :=
  svc' = { svc with store := svc'.store }

theorem storeOnly_onStore {α : Type} (m : StoreM α) : Keeps StoreOnly (onStore m) := by
  intro svc a svc' ran
  obtain ⟨store, -, rfl⟩ := run_onStore_eq_ok.mp ran
  rfl

/-- Every operation but taking and deleting a snapshot changes the live store and nothing else:
not the snapshots, the configuration or the source of fresh bytes. -/
theorem exec_changesOnlyStore (op : Op) (not_taken : ∀ n, op ≠ .snapshot n)
    (not_deleted : ∀ n, op ≠ .deleteSnapshot n) : Keeps StoreOnly (exec op) := by
  cases op with
  | setExitIdentity id => exact keeps_modify fun _ => rfl
  | incrementWhitelistNonce name a => exact keeps_discard (storeOnly_onStore _)
  | incrementDepositNonce name a => exact keeps_discard (storeOnly_onStore _)
  | commitDepositDataSet k set => exact keeps_discard (storeOnly_onStore _)
  | snapshot n => exact absurd rfl (not_taken n)
  | revert n => exact keeps_revert fun _ _ _ => rfl
  | deleteSnapshot n => exact absurd rfl (not_deleted n)
  | createSession nonce token => exact keeps_modify fun _ => rfl
  | registerNode email a sig => exact keeps_get_bind fun _ => storeOnly_onStore _
  | login a nonce sig => exact keeps_discard (keeps_get_bind fun _ => storeOnly_onStore _)
  | uploadDepositData token k records =>
    exact keeps_discard (keeps_read_bind fun _ => storeOnly_onStore _)
  | uploadSignedExits token k exits =>
    exact keeps_discard (keeps_read_bind fun _ => storeOnly_onStore _)
  | uploadConstellationExits token name exits =>
    exact keeps_discard (keeps_read_bind fun _ => keeps_get_bind fun _ => storeOnly_onStore _)
  | _ => exact storeOnly_onStore _

theorem exec_keepsSnapshotOf (op : Op) (not_taken : op ≠ .snapshot name)
    (not_deleted : op ≠ .deleteSnapshot name) :
    Keeps (fun svc svc' => svc'.snapshotOf name = svc.snapshotOf name) (exec op) := by
  by_cases taken : ∃ n, op = .snapshot n
  · obtain ⟨other, rfl⟩ := taken
    exact keeps_modify fun svc => snapshotOf_snapshot_of_ne svc fun same => not_taken (same ▸ rfl)
  by_cases deleted : ∃ n, op = .deleteSnapshot n
  · obtain ⟨other, rfl⟩ := deleted
    exact keeps_deleteSnapshot fun svc => snapshotOf_erase_of_ne svc fun same => not_deleted (same ▸ rfl)
  intro svc u svc' ran
  have only := exec_changesOnlyStore op (fun n same => taken ⟨n, same⟩)
    (fun n same => deleted ⟨n, same⟩) svc u svc' ran
  rw [only]
  rfl

theorem step_snapshotOf (svc : Service) (op : Op) (not_taken : op ≠ .snapshot name)
    (not_deleted : op ≠ .deleteSnapshot name) : (svc.step op).snapshotOf name = svc.snapshotOf name :=
  step_keeps (R := fun svc svc' => svc'.snapshotOf name = svc.snapshotOf name) (fun _ => rfl)
    (exec_keepsSnapshotOf op not_taken not_deleted) svc

theorem runOps_snapshotOf {ops : List Op}
    (untouched : ∀ op ∈ ops, op ≠ .snapshot name ∧ op ≠ .deleteSnapshot name) :
    (svc.runOps ops).snapshotOf name = svc.snapshotOf name :=
  runOps_keeps (Q := fun svc' => svc'.snapshotOf name = svc.snapshotOf name)
    (fun svc' op kept held => (step_snapshotOf svc' op kept.1 kept.2).trans held) rfl untouched

end Service

/-- Snapshots round trip. Taking a snapshot never changes the live store. After a snapshot of
`name` is taken, a run that neither takes nor deletes `name` (it may revert to `name` or to other
snapshots, and take and delete others) ends where reverting to `name` succeeds, brings back the
live store as it was when the snapshot was taken, and keeps the snapshots, so `name` can be
reverted to again. Reverting to a name no snapshot has fails with that name and changes
nothing. -/
theorem revert_restores_snapshot (svc : Service) (name : String) (ops : List Op)
    (untouched : ∀ op ∈ ops, op ≠ .snapshot name ∧ op ≠ .deleteSnapshot name) :
    (∀ (other : Service) (n : String), (other.step (.snapshot n)).store = other.store) ∧
      (Service.revert name).run ((svc.step (.snapshot name)).runOps ops) =
        .ok () { (svc.step (.snapshot name)).runOps ops with store := svc.store } ∧
      ∀ other : Service, name ∉ other.snapshotNames →
        (Service.revert name).run other = .error (.snapshotNotFound name) other := by
  have kept : ((svc.step (.snapshot name)).runOps ops).snapshotOf name = .ok svc.store := by
    rw [Service.runOps_snapshotOf untouched, Service.step_snapshot, Service.snapshotOf_snapshot]
  exact ⟨fun _ _ => rfl, Service.run_revert_of_snapshotOf kept,
    fun _ missing => Service.run_revert_of_not_mem missing⟩

theorem sample_revert_restores_base :
    (∀ op ∈ sampleOps.tail, op ≠ .snapshot "base" ∧ op ≠ .deleteSnapshot "base") ∧
      (Service.revert "base").run sampleService = .ok () { sampleService with store := forgedService.store } := by
  have untouched : ∀ op ∈ sampleOps.tail, op ≠ .snapshot "base" ∧ op ≠ .deleteSnapshot "base" := by
    simp [sampleOps]
  have rest : (forgedService.step (.snapshot "base")).runOps sampleOps.tail = sampleService := by
    rw [← runOps_sampleOps]
    simp only [sampleOps, List.tail_cons, Service.runOps, List.foldl_cons]
  have restored := (revert_restores_snapshot forgedService "base" sampleOps.tail untouched).2.1
  rw [rest] at restored
  exact ⟨untouched, restored⟩

end StakingHub
