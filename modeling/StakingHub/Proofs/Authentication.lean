import Mathlib.Data.List.Induction
import Mathlib.Data.List.Nodup
import StakingHub.Proofs.Confinement

/-!
# Who a token logs in as, over whole runs

A token authenticates a node only through the history of the run that reached the state: the
session carrying it was opened, a login by the node on the session's nonce then succeeded and
returned the token, with a signature of the login message from which the verifier recovered the
node while the node was whitelisted and registered, and nobody logged the token out since. A
session bound to a node stays bound to it, and under the single-use policy a nonce serves at
most one login.

The runs are those from a new service that contain no revert (a revert brings back an earlier
store, and with it the sessions of another history) and that open their sessions with
pairwise-distinct nonces and pairwise-distinct tokens, as fresh random values are.

One lemma says what a step does to the sessions (`Service.step_cases`): only opening a session,
logging in and logging out change them. From it, what every live session owes to the run
(`SessionHistory`) holds after every run, and so does a nonce staying bound to its node.
-/

namespace StakingHub

open StoreM

/-! ### The sessions a run opens -/

namespace Op

/-- The nonce and token an operation opens a session with. -/
def opens : Op → List (String × String)
  | .createSession nonce token => [(nonce, token)]
  | _ => []

/-- Whether an operation may change the sessions. -/
def touchesSessions : Op → Bool
  | .createSession .. | .login .. | .logout _ | .revert _ => true
  | _ => false

end Op

/-- The nonces and tokens a run opens sessions with, in order. -/
def sessionsOpened (ops : List Op) : List (String × String) :=
  ops.flatMap Op.opens

/-- A run opens its sessions with pairwise-distinct nonces and pairwise-distinct tokens. -/
def FreshSessions (ops : List Op) : Prop :=
  ((sessionsOpened ops).map Prod.fst).Nodup ∧ ((sessionsOpened ops).map Prod.snd).Nodup

@[simp] theorem sessionsOpened_append (ops ops' : List Op) :
    sessionsOpened (ops ++ ops') = sessionsOpened ops ++ sessionsOpened ops' :=
  List.flatMap_append

theorem FreshSessions.left {ops ops' : List Op} (h : FreshSessions (ops ++ ops')) :
    FreshSessions ops := by
  simp only [FreshSessions, sessionsOpened_append, List.map_append] at h
  exact ⟨h.1.of_append_left, h.2.of_append_left⟩

theorem exists_createSession {ops : List Op} {n t : String} (h : (n, t) ∈ sessionsOpened ops) :
    ∃ pre mid, ops = pre ++ .createSession n t :: mid := by
  obtain ⟨op, mem, opened⟩ := List.mem_flatMap.mp h
  cases op with
  | createSession n' t' =>
    obtain ⟨rfl, rfl⟩ : n' = n ∧ t' = t := by simpa [Op.opens, eq_comm] using opened
    exact List.append_of_mem mem
  | _ => simp [Op.opens] at opened

theorem FreshSessions.not_reopened {pre rest : List Op} (h : FreshSessions (pre ++ rest))
    {n t : String} (opened : (n, t) ∈ sessionsOpened pre) (t' : String) :
    .createSession n t' ∉ rest := by
  intro reopened
  have later : (n, t') ∈ sessionsOpened rest :=
    List.mem_flatMap.mpr ⟨_, reopened, by simp [Op.opens]⟩
  have nodup := h.1
  simp only [sessionsOpened_append, List.map_append] at nodup
  exact List.disjoint_of_nodup_append nodup (List.mem_map.mpr ⟨_, opened, rfl⟩)
    (List.mem_map.mpr ⟨_, later, rfl⟩)

/-! ### Sessions in the store -/

namespace Store

variable {s s' : Store}

theorem authenticate_ok {t : String} {a : Address} (auth : s.authenticate t = .ok a) :
    ∃ x ∈ s.sessions, x.token = t ∧ x.node = some a := by
  unfold authenticate at auth
  cases found : s.sessionByToken? t with
  | none => simp [found] at auth
  | some x =>
    obtain ⟨nonce, token, node⟩ := x
    cases node with
    | none => simp [found] at auth
    | some b =>
      simp only [found, Except.ok.injEq] at auth
      subst auth
      have carried : token = t := by simpa using List.find?_some found
      exact ⟨_, List.mem_of_find?_eq_some found, carried, rfl⟩

theorem sessionOfNonce_ok {n : String} {x : Session} (found : s.sessionOfNonce n = .ok x) :
    s.sessions.find? (fun y => y.nonce = n) = some x := by
  unfold sessionOfNonce sessionByNonce? at found
  split at found
  · rename_i y first
    cases found
    exact first
  · cases found

theorem mem_of_sessionOfNonce {n : String} {x : Session} (found : s.sessionOfNonce n = .ok x) :
    x ∈ s.sessions ∧ x.nonce = n :=
  have first := sessionOfNonce_ok found
  ⟨List.mem_of_find?_eq_some first, by simpa using List.find?_some first⟩

theorem registeredNode_of_node? {a : Address} (registered : (s.node? a).any Node.registered) :
    ∃ n, s.registeredNode a = .ok n := by
  obtain ⟨n, found, yes⟩ := (Option.any_eq_true _ _).mp registered
  refine ⟨n, ?_⟩
  simp [registeredNode, whitelistedNode, found, yes, bind, Except.bind, pure, Except.pure]

theorem logout_error {t : String} {e : ServiceFault} (ran : (logout t).run s = .error e s') :
    ∀ x ∈ s.sessions, x.token ≠ t := by
  simp [logout, removeSession] at ran
  split at ran
  · rename_i none
    intro x hx
    simpa using none x hx
  · simp at ran

/-! ### Operations that leave the sessions alone -/

/-- A store operation that never changes the sessions. -/
def KeepsSessions {α : Type} (m : StoreM α) : Prop :=
  Keeps (fun s s' => s'.sessions = s.sessions) m

theorem keepsSessions_of_nodes {α : Type} {m : StoreM α}
    (ok : ∀ s a s', m.run s = .ok a s' → s' = { s with nodes := s'.nodes }) : KeepsSessions m := by
  intro s a s' ran
  rw [ok s a s' ran]

theorem deploymentMut_keepsSessions {β : Type} {name : String}
    {f : Deployment → Except ServiceFault (β × Deployment)} : KeepsSessions (deploymentMut name f) := by
  intro s b s' ran
  obtain ⟨d, d', -, -, rfl⟩ := run_borrow_eq_ok.mp ran
  rfl

theorem addUser_keepsSessions (email : String) : KeepsSessions (addUser email) := by
  intro s _ s' ran
  obtain ⟨-, rfl⟩ := addUser_ok ran
  rfl

theorem whitelistNode_keepsSessions (email : String) (a : Address) :
    KeepsSessions (whitelistNode email a) := by
  intro s _ s' ran
  obtain ⟨-, -, -, rfl⟩ := whitelistNode_ok ran
  rfl

theorem addDeployment_keepsSessions (d : Deployment) : KeepsSessions (addDeployment d) := by
  intro s _ s' ran
  obtain ⟨-, rfl⟩ := addDeployment_ok ran
  rfl

theorem addVault_keepsSessions (name : String) (a : Address) : KeepsSessions (addVault name a) := by
  intro s _ s' ran
  obtain ⟨-, -, -, rfl⟩ := addVault_ok ran
  rfl

theorem commitDepositDataSet_keepsSessions (k : VaultKey) (set : List DepositRecord) :
    KeepsSessions (commitDepositDataSet k set) := by
  intro s _ s' ran
  obtain ⟨v, s₁, -, -, -, -, only, -, rfl⟩ := commitDepositDataSet_ok ran
  show s₁.sessions = s.sessions
  rw [only]

theorem addMinipool_keepsSessions (name : String) (a minipool : Address) (pk : ValidatorPubkey) :
    KeepsSessions (addMinipool name a minipool pk) := by
  intro s _ s' ran
  obtain ⟨-, -, -, -, rfl⟩ := addMinipool_ok ran
  rfl

theorem register_keepsSessions (templates : Templates) (email : String) (a : Address)
    (sig : Signature) : KeepsSessions (register templates email a sig) := by
  intro s _ s' ran
  obtain ⟨-, -, -, -, -, rfl⟩ := register_ok ran
  rfl

theorem uploadDepositData_keepsSessions (k : VaultKey) (a : Address)
    (records : List DepositRecord) : KeepsSessions (uploadDepositData k a records) := by
  intro s _ s' ran
  obtain ⟨-, -, -, -, -, -, -, -, -, rfl⟩ := uploadDepositData_ok ran
  rfl

theorem uploadSignedExits_keepsSessions (k : VaultKey) (a : Address) (exits : List EncryptedExit) :
    KeepsSessions (uploadSignedExits k a exits) := by
  intro s _ s' ran
  obtain ⟨-, -, -, -, -, -, rfl⟩ := uploadSignedExits_ok ran
  rfl

theorem uploadMinipoolExits_keepsSessions (name : String) (a : Address)
    (exits : List EncryptedExit) (policy : ExitPolicy) :
    KeepsSessions (uploadMinipoolExits name a exits policy) := by
  intro s _ s' ran
  obtain ⟨-, -, -, -, -, -, -, rfl⟩ := uploadMinipoolExits_ok ran
  rfl

end Store

/-! ### What a step does to the sessions -/

namespace Service

variable {svc : Service}

/-- A service operation that never changes the live store's sessions. -/
def KeepsSessions {α : Type} (m : ServiceM α) : Prop :=
  Keeps (fun svc svc' => svc'.store.sessions = svc.store.sessions) m

/-- A service operation that never changes the configuration. -/
def KeepsConfig {α : Type} (m : ServiceM α) : Prop :=
  Keeps (fun svc svc' => svc'.config = svc.config) m

theorem keepsSessions_onStore {α : Type} {m : StoreM α} (hm : Store.KeepsSessions m) :
    KeepsSessions (onStore m) :=
  keeps_onStore (fun _ _ same => same) hm

theorem keepsConfig_onStore {α : Type} (m : StoreM α) : KeepsConfig (onStore m) := by
  intro svc a svc' ran
  obtain ⟨store, -, rfl⟩ := run_onStore_eq_ok.mp ran
  rfl

theorem exec_keepsSessions (op : Op) (untouched : op.touchesSessions = false) :
    KeepsSessions (exec op) := by
  cases op with
  | addUser email => exact keepsSessions_onStore (Store.addUser_keepsSessions email)
  | whitelistNode email a => exact keepsSessions_onStore (Store.whitelistNode_keepsSessions email a)
  | addDeployment name chainId whitelist factory =>
    exact keepsSessions_onStore (Store.addDeployment_keepsSessions _)
  | setAdminKey name key => exact keepsSessions_onStore Store.deploymentMut_keepsSessions
  | setMinipoolLimit name limit => exact keepsSessions_onStore Store.deploymentMut_keepsSessions
  | addVault name vault => exact keepsSessions_onStore (Store.addVault_keepsSessions name vault)
  | setExitIdentity id => exact keeps_modify fun _ => rfl
  | incrementWhitelistNonce name a =>
    exact keeps_discard (keepsSessions_onStore Store.deploymentMut_keepsSessions)
  | incrementDepositNonce name a =>
    exact keeps_discard (keepsSessions_onStore Store.deploymentMut_keepsSessions)
  | commitDepositDataSet k set =>
    exact keeps_discard (keepsSessions_onStore (Store.commitDepositDataSet_keepsSessions k set))
  | markValidatorsRegistered k pks =>
    exact keepsSessions_onStore
      (Store.keepsSessions_of_nodes fun _ _ _ ran => (Store.markValidatorsRegistered_ok ran).2)
  | markValidatorRemoved k pk =>
    exact keepsSessions_onStore
      (Store.keepsSessions_of_nodes fun _ _ _ ran => (Store.markValidatorRemoved_ok ran).2)
  | overrideValidatorStatus k pk status =>
    exact keepsSessions_onStore
      (Store.keepsSessions_of_nodes fun _ _ _ ran => (Store.overrideValidatorStatus_ok ran).2)
  | addMinipool name a minipool pk =>
    exact keepsSessions_onStore (Store.addMinipool_keepsSessions name a minipool pk)
  | snapshot name => exact keeps_modify fun _ => rfl
  | deleteSnapshot name => exact keeps_deleteSnapshot fun _ => rfl
  | registerNode email a sig =>
    exact keeps_get_bind fun _ => keepsSessions_onStore (Store.register_keepsSessions _ email a sig)
  | uploadDepositData token k records =>
    exact keeps_discard (keeps_read_bind fun a =>
      keepsSessions_onStore (Store.uploadDepositData_keepsSessions k a records))
  | uploadSignedExits token k exits =>
    exact keeps_discard (keeps_read_bind fun a =>
      keepsSessions_onStore (Store.uploadSignedExits_keepsSessions k a exits))
  | uploadConstellationExits token name exits =>
    exact keeps_discard (keeps_read_bind fun a => keeps_get_bind fun _ =>
      keepsSessions_onStore (Store.uploadMinipoolExits_keepsSessions name a exits _))
  | _ => cases untouched

theorem exec_keepsConfig (op : Op) : KeepsConfig (exec op) := by
  cases op with
  | setExitIdentity id => exact keeps_modify fun _ => rfl
  | incrementWhitelistNonce name a => exact keeps_discard (keepsConfig_onStore _)
  | incrementDepositNonce name a => exact keeps_discard (keepsConfig_onStore _)
  | commitDepositDataSet k set => exact keeps_discard (keepsConfig_onStore _)
  | snapshot name => exact keeps_modify fun _ => rfl
  | revert name => exact keeps_revert fun _ _ _ => rfl
  | deleteSnapshot name => exact keeps_deleteSnapshot fun _ => rfl
  | createSession nonce token => exact keeps_modify fun _ => rfl
  | registerNode email a sig => exact keeps_get_bind fun _ => keepsConfig_onStore _
  | login a nonce sig => exact keeps_discard (keeps_get_bind fun _ => keepsConfig_onStore _)
  | uploadDepositData token k records =>
    exact keeps_discard (keeps_read_bind fun _ => keepsConfig_onStore _)
  | uploadSignedExits token k exits =>
    exact keeps_discard (keeps_read_bind fun _ => keepsConfig_onStore _)
  | uploadConstellationExits token name exits =>
    exact keeps_discard (keeps_read_bind fun _ => keeps_get_bind fun _ => keepsConfig_onStore _)
  | _ => exact keepsConfig_onStore _

theorem step_config (svc : Service) (op : Op) : (svc.step op).config = svc.config := by
  cases ran : (exec op).run svc with
  | ok u svc' =>
    rw [step, ran]
    exact exec_keepsConfig op svc u svc' ran
  | error e svc' => rw [step, ran, exec_atomic op svc e svc' ran]

theorem runOps_config (svc : Service) (ops : List Op) : (svc.runOps ops).config = svc.config := by
  induction ops generalizing svc with
  | nil => rfl
  | cons op ops ih => exact (ih (svc.step op)).trans (step_config svc op)

theorem login_ok {a : Address} {n : String} {sig : Signature} {t : String} {svc' : Service}
    (ran : (login a n sig).run svc = .ok t svc') :
    recoverSigner (svc.templates.loginMessage n a) sig = .ok a ∧
      (svc.store.node? a).any Node.registered ∧ ∃ x, svc.store.sessionOfNonce n = .ok x ∧
      ¬(x.isVerified ∧ svc.config.noncePolicy = .singleUse) ∧ x.node.all (· = a) ∧ t = x.token ∧
      svc'.store.sessions =
        Keyed.modifyFirst (fun y => y.nonce = n) (fun _ => { x with node := some a })
          svc.store.sessions := by
  rw [login, run_get_bind] at ran
  obtain ⟨store, stored, rfl⟩ := run_onStore_eq_ok.mp ran
  obtain ⟨recovered, registered, x, found, fresh, unbound, rfl, rfl⟩ := Store.login_ok stored
  exact ⟨recovered, registered, x, found, fresh, unbound, rfl, rfl⟩

/-- What one step, other than a revert, does to the sessions: nothing, or it opens one, or a
login succeeded, or it drops those of a token. A logout always drops them: one that fails found
none. -/
theorem step_cases (svc : Service) (op : Op) (not_revert : ∀ name, op ≠ .revert name) :
    ((svc.step op).store.sessions = svc.store.sessions ∧ ∀ t, op ≠ .logout t) ∨
    (∃ n t, op = .createSession n t ∧
      (svc.step op).store.sessions = svc.store.sessions ++ [{ nonce := n, token := t }]) ∨
    (∃ a n sig t, op = .login a n sig ∧ (login a n sig).run svc = .ok t (svc.step op)) ∨
    (∃ t, op = .logout t ∧
      (svc.step op).store.sessions = svc.store.sessions.filter fun x => x.token ≠ t) := by
  cases ran : (exec op).run svc with
  | error e svc' =>
    have same : svc.step op = svc := by rw [step, ran, exec_atomic op svc e svc' ran]
    rw [same]
    cases op with
    | revert name => exact absurd rfl (not_revert name)
    | logout t =>
      refine .inr (.inr (.inr ⟨t, rfl, ?_⟩))
      have ran : (onStore (Store.logout t)).run svc = .error e svc' := ran
      rw [run_onStore] at ran
      split at ran
      · cases ran
      · rename_i failed
        have none := Store.logout_error failed
        exact (List.filter_eq_self.mpr fun x hx => by simpa using none x hx).symm
    | _ => exact .inl ⟨rfl, fun _ same => Op.noConfusion same⟩
  | ok u svc' =>
    have stepped : svc.step op = svc' := by rw [step, ran]
    rw [stepped]
    cases op with
    | revert name => exact absurd rfl (not_revert name)
    | createSession n t => exact .inr (.inl ⟨n, t, rfl, by rw [run_modify_eq_ok.mp ran]; rfl⟩)
    | login a n sig =>
      obtain ⟨t, first⟩ := run_discard_eq_ok ran
      exact .inr (.inr (.inl ⟨a, n, sig, t, rfl, first⟩))
    | logout t =>
      obtain ⟨store, stored, rfl⟩ := run_onStore_eq_ok.mp ran
      exact .inr (.inr (.inr ⟨t, rfl, by rw [(Store.logout_ok stored).2]⟩))
    | _ => exact .inl ⟨exec_keepsSessions _ rfl _ _ _ ran, fun _ same => Op.noConfusion same⟩

theorem step_login {a : Address} {n : String} {sig : Signature} {t : String} {svc' : Service}
    (ran : (login a n sig).run svc = .ok t svc') : svc.step (.login a n sig) = svc' := by
  have stepped : (exec (.login a n sig)).run svc = .ok () svc' := run_bind_of_ok ran
  rw [step, stepped]

/-- A login by `a` on nonce `n` with `sig` succeeds from `svc` and returns `t`; the verifier
recovers `a` from the login message of `n`, and `a` is a whitelisted, registered node. -/
def LoginSucceeds (svc : Service) (a : Address) (n : String) (sig : Signature) (t : String) :
    Prop :=
  (∃ svc', (login a n sig).run svc = .ok t svc') ∧
    recoverSigner (svc.templates.loginMessage n a) sig = .ok a ∧
    ∃ node, svc.store.registeredNode a = .ok node

end Service

/-! ### What a run explains about its sessions -/

/-- In the run `ops` from a new service with `config`, node `a` logged in with the session opened
with nonce `n` and token `t`, and nothing logged `t` out since. -/
def LoggedIn (config : Config) (ops : List Op) (n t : String) (a : Address) : Prop :=
  ∃ sig pre mid post, ops = pre ++ .createSession n t :: mid ++ .login a n sig :: post ∧
    (({ config } : Service).runOps (pre ++ .createSession n t :: mid)).LoginSucceeds a n sig t ∧
    .logout t ∉ post

theorem LoggedIn.extend {config : Config} {ops : List Op} {n t : String} {a : Address}
    (h : LoggedIn config ops n t a) {op : Op} (not_logout : op ≠ .logout t) :
    LoggedIn config (ops ++ [op]) n t a := by
  obtain ⟨sig, pre, mid, post, rfl, succeeded, kept⟩ := h
  refine ⟨sig, pre, mid, post ++ [op], by simp, succeeded, ?_⟩
  simpa [kept] using not_logout.symm

/-- What a run from a new service with `config` explains about the sessions of the state it
reaches: their nonces and tokens were opened by the run, in the run's order, and each session
bound to a node was bound by a login of that node that the run made and did not undo. -/
structure SessionHistory (config : Config) (ops : List Op) (sessions : List Session) : Prop where
  opened : (sessions.map fun x => (x.nonce, x.token)).Sublist (sessionsOpened ops)
  loggedIn : ∀ x ∈ sessions, ∀ a, x.node = some a → LoggedIn config ops x.nonce x.token a

namespace SessionHistory

variable {config : Config} {ops : List Op} {sessions : List Session}

theorem mem_opened (h : SessionHistory config ops sessions) {x : Session} (hx : x ∈ sessions) :
    (x.nonce, x.token) ∈ sessionsOpened ops :=
  h.opened.subset (List.mem_map.mpr ⟨x, hx, rfl⟩)

theorem nonces_nodup (h : SessionHistory config ops sessions) (fresh : FreshSessions ops) :
    (sessions.map Session.nonce).Nodup := by
  have sub := h.opened.map Prod.fst
  rw [List.map_map] at sub
  exact fresh.1.sublist sub

theorem eq_of_nonce_eq (h : SessionHistory config ops sessions) (fresh : FreshSessions ops)
    {x y : Session} (hx : x ∈ sessions) (hy : y ∈ sessions) (same : x.nonce = y.nonce) : x = y :=
  List.inj_on_of_nodup_map (h.nonces_nodup fresh) hx hy same

theorem step (h : SessionHistory config ops (({ config } : Service).runOps ops).store.sessions)
    {op : Op} (not_revert : ∀ name, op ≠ .revert name) (fresh : FreshSessions (ops ++ [op])) :
    SessionHistory config (ops ++ [op])
      (({ config } : Service).runOps (ops ++ [op])).store.sessions := by
  rw [Service.runOps_append]
  generalize before : ({ config } : Service).runOps ops = svc at h
  have grown : (sessionsOpened ops).Sublist (sessionsOpened (ops ++ [op])) := by
    rw [sessionsOpened_append]
    exact List.sublist_append_left _ _
  rcases Service.step_cases svc op not_revert with
    ⟨same, not_logout⟩ | ⟨n, t, rfl, added⟩ | ⟨a, n, sig, t, rfl, ran⟩ | ⟨t, rfl, dropped⟩
  · rw [same]
    exact ⟨h.opened.trans grown, fun x hx a bound => (h.loggedIn x hx a bound).extend
      (not_logout x.token)⟩
  · -- a session opened: it is bound to nobody yet
    rw [added]
    refine ⟨?_, fun x hx a bound => ?_⟩
    · rw [sessionsOpened_append, List.map_append]
      exact h.opened.append (by simp [sessionsOpened, Op.opens])
    · rcases List.mem_append.mp hx with hx | hx
      · exact (h.loggedIn x hx a bound).extend fun same => Op.noConfusion same
      · rw [List.mem_singleton] at hx
        rw [hx] at bound
        cases bound
  · -- a login binds the first session of its nonce, and is the login that explains it
    obtain ⟨recovered, registered, x, found, -, -, rfl, bound⟩ := Service.login_ok ran
    have first := Store.sessionOfNonce_ok found
    obtain ⟨hx, x_nonce⟩ := Store.mem_of_sessionOfNonce found
    rw [Service.step_login ran, bound]
    refine ⟨?_, fun y hy b bound_y => ?_⟩
    · rw [Keyed.map_modifyFirst _ _ _ _ fun y found_y => by rw [first] at found_y; cases found_y; rfl]
      exact h.opened.trans grown
    · have nodup := h.nonces_nodup fresh.left
      rcases (Keyed.mem_modify_const_iff nodup hx x_nonce).mp hy with
        ⟨hy, -⟩ | rfl
      · exact (h.loggedIn y hy b bound_y).extend fun same => Op.noConfusion same
      · cases bound_y
        obtain ⟨pre, mid, split⟩ := exists_createSession (h.mem_opened hx)
        refine ⟨sig, pre, mid, [], by rw [split, x_nonce], ?_, List.not_mem_nil⟩
        rw [← split, before, x_nonce]
        exact ⟨⟨_, ran⟩, recovered, Store.registeredNode_of_node? registered⟩
  · -- a logout drops the sessions of its token and explains nothing new
    rw [dropped]
    refine ⟨((List.filter_sublist).map _).trans (h.opened.trans grown), fun y hy b bound => ?_⟩
    obtain ⟨hy, kept⟩ := List.mem_filter.mp hy
    have other : y.token ≠ t := by simpa using kept
    exact (h.loggedIn y hy b bound).extend fun same => other (Op.logout.inj same).symm

end SessionHistory

theorem sessionHistory_runOps (config : Config) (ops : List Op)
    (no_revert : ∀ name, .revert name ∉ ops) (fresh : FreshSessions ops) :
    SessionHistory config ops (({ config } : Service).runOps ops).store.sessions := by
  induction ops using List.reverseRecOn with
  | nil => exact ⟨by simp [Service.runOps], by simp [Service.runOps]⟩
  | append_singleton ops op ih =>
    have earlier := ih (fun name mem => no_revert name (List.mem_append_left _ mem)) fresh.left
    exact earlier.step (fun name same => no_revert name (by simp [same])) fresh

/-! ### Bound sessions stay bound -/

namespace Store

/-- Every session of nonce `n` is bound to node `a`. -/
def BoundTo (s : Store) (n : String) (a : Address) : Prop :=
  ∀ y ∈ s.sessions, y.nonce = n → y.node = some a

end Store

namespace Service

variable {svc : Service} {n : String} {a : Address}

theorem step_boundTo (bound : svc.store.BoundTo n a) {op : Op}
    (not_revert : ∀ name, op ≠ .revert name) (not_opening : ∀ t, op ≠ .createSession n t) :
    (svc.step op).store.BoundTo n a := by
  intro y hy nonce_eq
  rcases step_cases svc op not_revert with
    ⟨same, -⟩ | ⟨n', t, rfl, added⟩ | ⟨a', n', sig, t, rfl, ran⟩ | ⟨t, rfl, dropped⟩
  · rw [same] at hy
    exact bound y hy nonce_eq
  · rw [added, List.mem_append, List.mem_singleton] at hy
    rcases hy with hy | rfl
    · exact bound y hy nonce_eq
    · exact absurd (by rw [← nonce_eq]) (not_opening t)
  · obtain ⟨-, -, x, found, -, unbound, -, changed⟩ := login_ok ran
    rw [changed] at hy
    rcases Keyed.mem_modifyFirst hy with hy | ⟨z, -, -, rfl⟩
    · exact bound y hy nonce_eq
    · -- the session bound is the first of nonce `n`, already bound to `a`
      have was := bound x (Store.mem_of_sessionOfNonce found).1 nonce_eq
      rw [was] at unbound
      have same : a = a' := by simpa using unbound
      rw [same]
  · rw [dropped] at hy
    exact bound y (List.mem_filter.mp hy).1 nonce_eq

theorem login_boundTo (nodup : (svc.store.sessions.map Session.nonce).Nodup) {sig : Signature}
    {t : String} {svc' : Service} (ran : (login a n sig).run svc = .ok t svc') :
    svc'.store.BoundTo n a := by
  obtain ⟨-, -, x, found, -, -, -, changed⟩ := login_ok ran
  obtain ⟨hx, x_nonce⟩ := Store.mem_of_sessionOfNonce found
  intro y hy same
  rw [changed] at hy
  rcases (Keyed.mem_modify_const_iff nodup hx x_nonce).mp hy with ⟨-, other⟩ | rfl
  · exact absurd same other
  · rfl

theorem runOps_boundTo (bound : svc.store.BoundTo n a) {ops : List Op}
    (no_revert : ∀ name, .revert name ∉ ops) (not_opening : ∀ t, .createSession n t ∉ ops) :
    (svc.runOps ops).store.BoundTo n a := by
  induction ops generalizing svc with
  | nil => exact bound
  | cons op ops ih =>
    have stepped := step_boundTo bound (fun name same => no_revert name (same ▸ List.mem_cons_self))
      (fun t same => not_opening t (same ▸ List.mem_cons_self))
    exact ih stepped (fun name mem => no_revert name (List.mem_cons_of_mem _ mem))
      (fun t mem => not_opening t (List.mem_cons_of_mem _ mem))

end Service

/-! ### Sessions over whole runs -/

section Runs

variable {config : Config}

theorem loggedIn_of_authenticate {ops : List Op} (no_revert : ∀ name, .revert name ∉ ops)
    (fresh : FreshSessions ops) {t : String} {a : Address}
    (auth : (({ config } : Service).runOps ops).store.authenticate t = .ok a) :
    ∃ n, LoggedIn config ops n t a := by
  obtain ⟨x, hx, carried, bound⟩ := Store.authenticate_ok auth
  have logged := (sessionHistory_runOps config ops no_revert fresh).loggedIn x hx a bound
  rw [carried] at logged
  exact ⟨x.nonce, logged⟩

theorem boundTo_of_bound {pre mid : List Op} (no_revert : ∀ name, .revert name ∉ pre ++ mid)
    (fresh : FreshSessions (pre ++ mid)) {x : Session}
    (hx : x ∈ (({ config } : Service).runOps pre).store.sessions) {a : Address}
    (bound : x.node = some a) :
    (({ config } : Service).runOps (pre ++ mid)).store.BoundTo x.nonce a := by
  have hist := sessionHistory_runOps config pre
    (fun name mem => no_revert name (List.mem_append_left _ mem)) fresh.left
  have only : (({ config } : Service).runOps pre).store.BoundTo x.nonce a := by
    intro y hy same
    rw [hist.eq_of_nonce_eq fresh.left hy hx same]
    exact bound
  rw [Service.runOps_runOps]
  exact Service.runOps_boundTo only (fun name mem => no_revert name (List.mem_append_right _ mem))
    (fresh.not_reopened (hist.mem_opened hx))

theorem login_refused_after_login (single : config.noncePolicy = .singleUse) {pre mid : List Op}
    {a a' : Address} {n : String} {sig sig' : Signature}
    (no_revert : ∀ name, .revert name ∉ pre ++ .login a n sig :: mid)
    (fresh : FreshSessions (pre ++ .login a n sig :: mid))
    (first : ∃ t svc', (Service.login a n sig).run (({ config } : Service).runOps pre) = .ok t svc') :
    ¬∃ t svc', (Service.login a' n sig').run
      (({ config } : Service).runOps (pre ++ .login a n sig :: mid)) = .ok t svc' := by
  rintro ⟨t', svc₂, again⟩
  obtain ⟨t, svc₁, ran⟩ := first
  have hist := sessionHistory_runOps config pre
    (fun name mem => no_revert name (List.mem_append_left _ mem)) fresh.left
  obtain ⟨-, -, x, found, -, -, -, -⟩ := Service.login_ok ran
  obtain ⟨hx, x_nonce⟩ := Store.mem_of_sessionOfNonce found
  have bound := Service.login_boundTo (hist.nonces_nodup fresh.left) ran
  have still : (({ config } : Service).runOps (pre ++ .login a n sig :: mid)).store.BoundTo n a := by
    rw [Service.runOps_runOps, Service.runOps_cons, Service.step_login ran]
    refine Service.runOps_boundTo bound (fun name mem => no_revert name (by simp [mem])) ?_
    intro t'' mem
    rw [← x_nonce] at mem
    exact fresh.not_reopened (hist.mem_opened hx) t'' (List.mem_cons_of_mem _ mem)
  obtain ⟨-, -, y, found', spent, -, -, -⟩ := Service.login_ok again
  obtain ⟨hy, y_nonce⟩ := Store.mem_of_sessionOfNonce found'
  have verified : y.node = some a := still y hy y_nonce
  have policy : (({ config } : Service).runOps (pre ++ .login a n sig :: mid)).config.noncePolicy =
      .singleUse := by
    rw [Service.runOps_config]
    exact single
  exact spent ⟨by simp [Session.isVerified, verified], policy⟩

end Runs

/-- What a run from a new service with `config` guarantees about its sessions. -/
structure SessionsSound (config : Config) (ops : List Op) : Prop where
  /-- A token that authenticates a node at the end was logged in by that node during the run. -/
  authenticated : ∀ t a, (({ config } : Service).runOps ops).store.authenticate t = .ok a →
    ∃ n, LoggedIn config ops n t a
  /-- A session bound to a node at some point of the run stays bound to it. -/
  staysBound : ∀ pre mid post, ops = pre ++ mid ++ post →
    ∀ x ∈ (({ config } : Service).runOps pre).store.sessions, ∀ a, x.node = some a →
      (({ config } : Service).runOps (pre ++ mid)).store.BoundTo x.nonce a
  /-- Under the single-use policy, at most one login on a nonce succeeds. -/
  singleUse : config.noncePolicy = .singleUse → ∀ pre mid post a a' n sig sig',
    ops = pre ++ .login a n sig :: mid ++ .login a' n sig' :: post →
    (∃ t svc', (Service.login a n sig).run (({ config } : Service).runOps pre) = .ok t svc') →
    ¬∃ t svc', (Service.login a' n sig').run
      (({ config } : Service).runOps (pre ++ .login a n sig :: mid)) = .ok t svc'

/-- Every run from a new service that contains no revert and opens its sessions with fresh nonces
and tokens keeps its sessions sound. -/
theorem sessions_sound (config : Config) (ops : List Op) (no_revert : ∀ name, .revert name ∉ ops)
    (fresh : FreshSessions ops) : SessionsSound config ops where
  authenticated _ _ auth := loggedIn_of_authenticate no_revert fresh auth
  staysBound pre mid post split x hx a bound := by
    subst split
    exact boundTo_of_bound (fun name mem => no_revert name (List.mem_append_left _ mem))
      fresh.left hx bound
  singleUse single pre mid post a a' n sig sig' split first := by
    subst split
    exact login_refused_after_login single
      (fun name mem => no_revert name (List.mem_append_left _ mem)) fresh.left first

theorem sample_run_sessions_sound :
    (∀ name, Op.revert name ∉ sampleRun) ∧ FreshSessions sampleRun ∧
      SessionsSound helloConfig sampleRun ∧ ∃ n, LoggedIn helloConfig sampleRun n "t2" secondNode := by
  have no_revert : ∀ name, Op.revert name ∉ sampleRun := revert_not_mem_sampleRun
  have fresh : FreshSessions sampleRun := by
    simp [FreshSessions, sampleRun, forgedCommitRun, sampleOps, sessionsOpened, Op.opens]
  have sound := sessions_sound helloConfig sampleRun no_revert fresh
  have auth : (({ config := helloConfig } : Service).runOps sampleRun).store.authenticate "t2" =
      .ok secondNode := by
    rw [runOps_sampleRun]
    rfl
  exact ⟨no_revert, fresh, sound, sound.authenticated "t2" secondNode auth⟩

end StakingHub
