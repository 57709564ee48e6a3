import StakingHub.Proofs.Authentication

/-!
# How a login is decided

A login makes its checks in a fixed order, and the first that fails is its answer: the signer
recovered from the login message must be the node; some session must carry the nonce, and the
first that does must be neither spent under the single-use policy nor bound to another node; the
node must be registered. Only then is that session bound to the node, and its token is the
answer. The registration is read before the session is taken up, yet reported after the nonce's
faults.

`Store.login_run` says this once, in the terms the store is read in. The rest reads it in the
store's own terms: the session is the first of the list that carries the nonce
(`Store.SelectsSession`), and the node is registered when a node of its address is, which the
invariant makes unique (`Store.Inv.node?_registered_iff`).
-/

namespace StakingHub

namespace StoreM

theorem get_apply (s : Store) : (get : StoreM Store) s = .ok s s := rfl

theorem throw_apply {α : Type} (e : ServiceFault) (s : Store) : (throw e : StoreM α) s = .error e s :=
  rfl

end StoreM

namespace Store

variable {s : Store} {n : String} {a : Address}

/-- `x` is the session a nonce selects: the first that carries it, `pre` before it and `post`
after it. -/
structure SelectsSession (s : Store) (n : String) (pre : List Session) (x : Session)
    (post : List Session) : Prop where
  split : s.sessions = pre ++ x :: post
  carries : x.nonce = n
  first : ∀ y ∈ pre, y.nonce ≠ n

theorem sessionByNonce?_eq_none_iff :
    s.sessionByNonce? n = none ↔ ∀ x ∈ s.sessions, x.nonce ≠ n := by
  simp [sessionByNonce?, List.find?_eq_none]

theorem sessionByNonce?_eq_some_iff {x : Session} :
    s.sessionByNonce? n = some x ↔ ∃ pre post, s.SelectsSession n pre x post := by
  simp only [sessionByNonce?, List.find?_eq_some_iff_append, decide_eq_true_eq, Bool.not_eq_true',
    decide_eq_false_iff_not]
  constructor
  · rintro ⟨carries, pre, post, split, first⟩
    exact ⟨pre, post, split, carries, first⟩
  · rintro ⟨pre, post, split, carries, first⟩
    exact ⟨carries, pre, post, split, first⟩

theorem SelectsSession.modifyFirst_eq {pre post : List Session} {x : Session}
    (sel : s.SelectsSession n pre x post) (f : Session → Session) :
    Keyed.modifyFirst (fun y => y.nonce = n) f s.sessions = pre ++ f x :: post := by
  rw [sel.split]
  exact Keyed.modifyFirst_append_cons (fun y hy => by simpa using sel.first y hy)
    (by simpa using sel.carries)

theorem SelectsSession.bind_self {pre post : List Session} {x : Session}
    (sel : s.SelectsSession n pre x post) (mine : x.node = some a) :
    { s with sessions := pre ++ { x with node := some a } :: post } = s := by
  rw [← mine, ← sel.split]

theorem Inv.node?_registered_iff (h : s.Inv) :
    (s.node? a).any Node.registered = true ↔ ∃ m ∈ s.nodes, m.address = a ∧ m.registered = true := by
  constructor
  · intro registered
    obtain ⟨m, found, yes⟩ := (Option.any_eq_true _ _).mp registered
    exact ⟨m, (mem_of_node? found).1, (mem_of_node? found).2, yes⟩
  · rintro ⟨m, hm, rfl, yes⟩
    have found : s.node? m.address = some m := Keyed.get?_eq_some_of_mem h.nodes_sorted hm
    simp [found, yes]

/-! ### The decision, once -/

section Decision

variable (templates : Templates) (policy : NoncePolicy) (a : Address) (n : String) (sig : Signature)

/-- A login, check by check: every refusal leaves the store as it was. -/
theorem login_run :
    (login templates policy a n sig).run s =
      match recoverSigner (templates.loginMessage n a) sig with
      | .error e => .error e s
      | .ok r =>
        if r ≠ a then .error .invalidSignature s
        else match s.sessionByNonce? n with
          | none => .error .invalidNonce s
          | some x =>
            if x.isVerified ∧ policy = .singleUse then .error .invalidNonce s
            else if x.node.any (· ≠ a) then .error .invalidNonce s
            else if ¬(s.node? a).any Node.registered then .error (.unregisteredNode a) s
            else .ok x.token
              { s with
                sessions := Keyed.modifyFirst (fun y => y.nonce = n) (fun _ => { x with node := some a })
                  s.sessions } := by
  cases signed : recoverSigner (templates.loginMessage n a) sig with
  | error e => simp [login, StoreM.read, signed, EStateM.run, bind, EStateM.bind]
  | ok r =>
    by_cases other : r = a
    · subst other
      cases selected : s.sessionByNonce? n with
      | none =>
        simp [login, StoreM.read, signed, selected, EStateM.run, bind, EStateM.bind, sessionMut,
          StoreM.borrow, sessionOfNonce, StoreM.get_apply, Except.bind]
      | some x =>
        simp only [login, StoreM.read, signed, selected, EStateM.run, bind, EStateM.bind, sessionMut,
          StoreM.borrow, sessionOfNonce, StoreM.get_apply, Except.bind,
          ne_eq, not_true_eq_false, if_false]
        by_cases spent : x.isVerified = true ∧ policy = .singleUse
        · simp [spent, throw, throwThe, MonadExceptOf.throw]
        by_cases bound : x.node.any (· ≠ r) = true
        · simp only [ne_eq, decide_not] at bound
          simp [spent, bound, throw, throwThe, MonadExceptOf.throw]
        simp only [ne_eq, decide_not] at bound
        by_cases registered : (s.node? r).any Node.registered = true
        · simp [spent, bound, registered, pure, Except.pure]
        · simp [spent, bound, registered, throw, throwThe, MonadExceptOf.throw]
    · simp [login, StoreM.read, signed, other, EStateM.run, bind, EStateM.bind, StoreM.throw_apply]

theorem login_signer_error {e : ServiceFault}
    (failed : recoverSigner (templates.loginMessage n a) sig = .error e) :
    (login templates policy a n sig).run s = .error e s := by
  rw [login_run, failed]

theorem login_other_signer {r : Address}
    (signed : recoverSigner (templates.loginMessage n a) sig = .ok r) (other : r ≠ a) :
    (login templates policy a n sig).run s = .error .invalidSignature s := by
  rw [login_run, signed]
  exact if_pos other

theorem login_unknown_nonce (signed : recoverSigner (templates.loginMessage n a) sig = .ok a)
    (unknown : ∀ x ∈ s.sessions, x.nonce ≠ n) :
    (login templates policy a n sig).run s = .error .invalidNonce s := by
  simp only [login_run, signed, ne_eq, not_true_eq_false, if_false,
    sessionByNonce?_eq_none_iff.mpr unknown]

theorem login_selected (signed : recoverSigner (templates.loginMessage n a) sig = .ok a)
    {pre post : List Session} {x : Session} (sel : s.SelectsSession n pre x post) :
    (login templates policy a n sig).run s =
      if x.isVerified ∧ policy = .singleUse then .error .invalidNonce s
      else if x.node.any (· ≠ a) then .error .invalidNonce s
      else if ¬(s.node? a).any Node.registered then .error (.unregisteredNode a) s
      else .ok x.token { s with sessions := pre ++ { x with node := some a } :: post } := by
  simp only [login_run, signed, ne_eq, not_true_eq_false, if_false,
    sessionByNonce?_eq_some_iff.mpr ⟨pre, post, sel⟩, sel.modifyFirst_eq]

theorem login_spent_or_taken (signed : recoverSigner (templates.loginMessage n a) sig = .ok a)
    {pre post : List Session} {x : Session} (sel : s.SelectsSession n pre x post)
    (refused : (x.isVerified ∧ policy = .singleUse) ∨ ∃ b, x.node = some b ∧ b ≠ a) :
    (login templates policy a n sig).run s = .error .invalidNonce s := by
  rw [login_selected templates policy a n sig signed sel]
  rcases refused with spent | ⟨b, bound, other⟩
  · simp [spent]
  · by_cases spent : x.isVerified ∧ policy = .singleUse
    · simp [spent]
    · simp [spent, bound, other]

theorem login_unregistered (signed : recoverSigner (templates.loginMessage n a) sig = .ok a)
    {pre post : List Session} {x : Session} (sel : s.SelectsSession n pre x post)
    (fresh : ¬(x.isVerified ∧ policy = .singleUse)) (unbound : x.node = none ∨ x.node = some a)
    (unregistered : (s.node? a).any Node.registered = false) :
    (login templates policy a n sig).run s = .error (.unregisteredNode a) s := by
  rw [login_selected templates policy a n sig signed sel]
  rcases unbound with unbound | unbound <;> simp [fresh, unbound, unregistered]

theorem login_binds (signed : recoverSigner (templates.loginMessage n a) sig = .ok a)
    {pre post : List Session} {x : Session} (sel : s.SelectsSession n pre x post)
    (fresh : ¬(x.isVerified ∧ policy = .singleUse)) (unbound : x.node = none ∨ x.node = some a)
    (registered : (s.node? a).any Node.registered = true) :
    (login templates policy a n sig).run s =
      .ok x.token { s with sessions := pre ++ { x with node := some a } :: post } := by
  rw [login_selected templates policy a n sig signed sel]
  rcases unbound with unbound | unbound <;> simp [fresh, unbound, registered]

theorem login_again (reusable : policy = .reusable) {t : String} {s' : Store}
    (ran : (login templates policy a n sig).run s = .ok t s') :
    (login templates policy a n sig).run s' = .ok t s' := by
  obtain ⟨signed, registered, x, found, -, -, rfl, rfl⟩ := login_ok ran
  obtain ⟨pre, post, sel⟩ := sessionByNonce?_eq_some_iff.mp (sessionOfNonce_ok found)
  rw [sel.modifyFirst_eq]
  have sel' : SelectsSession { s with sessions := pre ++ { x with node := some a } :: post } n pre
      { x with node := some a } post :=
    ⟨rfl, sel.carries, sel.first⟩
  rw [login_selected templates policy a n sig signed sel']
  simp only [node?] at registered
  simp [reusable, Session.isVerified, registered, node?]

end Decision

end Store

/-- Logging in decides exactly as specified. The verifier's fault comes first, then a signer
other than the node; then the nonce: no session carries it, or the first that does is spent
under the single-use policy or bound to another node; then an unregistered node. Otherwise the
selected session is bound to the node and its token answered, which changes nothing when it was
bound to the node already; so under the reusable policy a repeated login answers the same token.
Every refusal leaves the store as it was. -/
theorem login_decisions {s : Store} (h : s.Inv) (templates : Templates) (policy : NoncePolicy)
    (a : Address) (n : String) (sig : Signature) :
    (∀ e, recoverSigner (templates.loginMessage n a) sig = .error e →
      (Store.login templates policy a n sig).run s = .error e s) ∧
    (∀ r, recoverSigner (templates.loginMessage n a) sig = .ok r → r ≠ a →
      (Store.login templates policy a n sig).run s = .error .invalidSignature s) ∧
    (recoverSigner (templates.loginMessage n a) sig = .ok a → (∀ x ∈ s.sessions, x.nonce ≠ n) →
      (Store.login templates policy a n sig).run s = .error .invalidNonce s) ∧
    (∀ pre x post, recoverSigner (templates.loginMessage n a) sig = .ok a →
      s.SelectsSession n pre x post →
      ((x.isVerified ∧ policy = .singleUse) ∨ (∃ b, x.node = some b ∧ b ≠ a) →
        (Store.login templates policy a n sig).run s = .error .invalidNonce s) ∧
      (¬(x.isVerified ∧ policy = .singleUse) → (x.node = none ∨ x.node = some a) →
        (¬∃ m ∈ s.nodes, m.address = a ∧ m.registered) →
        (Store.login templates policy a n sig).run s = .error (.unregisteredNode a) s) ∧
      (¬(x.isVerified ∧ policy = .singleUse) → (x.node = none ∨ x.node = some a) →
        (∃ m ∈ s.nodes, m.address = a ∧ m.registered) →
        (Store.login templates policy a n sig).run s =
          .ok x.token { s with sessions := pre ++ { x with node := some a } :: post } ∧
        (x.node = some a → (Store.login templates policy a n sig).run s = .ok x.token s))) ∧
    (policy = .reusable → ∀ t s', (Store.login templates policy a n sig).run s = .ok t s' →
      (Store.login templates policy a n sig).run s' = .ok t s') := by
  refine ⟨fun e failed => Store.login_signer_error templates policy a n sig failed,
    fun r signed other => Store.login_other_signer templates policy a n sig signed other,
    fun signed unknown => Store.login_unknown_nonce templates policy a n sig signed unknown,
    fun pre x post signed sel => ⟨Store.login_spent_or_taken templates policy a n sig signed sel,
      fun fresh unbound unregistered => ?_, fun fresh unbound registered => ?_⟩,
    fun reusable t s' ran => Store.login_again templates policy a n sig reusable ran⟩
  · -- registration as the store finds it, read through the invariant
    have refused : (s.node? a).any Node.registered = false := by
      simpa using mt h.node?_registered_iff.mp unregistered
    exact Store.login_unregistered templates policy a n sig signed sel fresh unbound refused
  · have bound := Store.login_binds templates policy a n sig signed sel fresh unbound
      (h.node?_registered_iff.mpr registered)
    exact ⟨bound, fun mine => bound.trans (by rw [sel.bind_self mine])⟩

theorem recoverSigner_secondSignature : recoverSigner "hello" secondSignature = .ok secondNode :=
  eq_ok_of_toOption (by decide +kernel)

theorem foreign_nonce_login_refused :
    sampleService.store.Inv ∧
      (Store.login helloConfig.templates helloConfig.noncePolicy secondNode "n" secondSignature).run
        sampleService.store = .error .invalidNonce sampleService.store := by
  have inv := sampleService_inv
  have recovered : recoverSigner (helloConfig.templates.loginMessage "n" secondNode) secondSignature =
      .ok secondNode := recoverSigner_secondSignature
  have selects : sampleService.store.SelectsSession "n" []
      { nonce := "n", token := "t", node := some sampleNode }
      [{ nonce := "n2", token := "t2", node := some secondNode }] :=
    ⟨rfl, rfl, by simp⟩
  have foreign : ∃ b, ({ nonce := "n", token := "t", node := some sampleNode } : Session).node = some b ∧
      b ≠ secondNode := ⟨sampleNode, rfl, by decide⟩
  exact ⟨inv, ((login_decisions inv helloConfig.templates helloConfig.noncePolicy secondNode "n"
    secondSignature).2.2.2.1 _ _ _ recovered selects).1 (.inr foreign)⟩

end StakingHub
