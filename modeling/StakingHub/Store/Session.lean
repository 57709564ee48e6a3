import StakingHub.Store.Basic
import StakingHub.Service.Config

/-!
# Sessions, registration and login

A node proves it holds its key by signing a message rendered from the templates.

* Registration signs the registration message of the owner's email. The node must be
  whitelisted for that email; the signer must be the node; a node registers once.
* Login signs the login message of a session's nonce. The signer must be the node; the nonce
  must belong to a session, which is not reused under the single-use policy and is never moved
  to another node; the node must be registered. The session is then verified for the node and
  its token returned.
* A token authenticates the node of the first session that carries it, if that session is
  verified. Logging out removes every session that carries the token.

A signature that yields no signer is an invalid signature; a signature that cannot even be read
(a recovery byte out of range) is malformed input.

Modelled on `crates/ns-mock/src/auth/session.rs:22-37`, `register`
(`crates/ns-mock/src/auth/registration.rs:12-41`), `login` (`crates/ns-mock/src/auth/login.rs:11-45`)
and `EcrecoverVerifier` (`crates/ns-mock/src/ports/outbound.rs:27-44`).
-/

namespace StakingHub

open Secp256k1

/-- The signer of a message, as the service checks signatures. -/
def recoverSigner (message : String) (sig : Signature) : Except ServiceFault Address :=
  match recoverPersonal message.toUTF8.toList sig with
  | .ok a => .ok a
  | .error .recoveryFailed => .error .invalidSignature
  | .error .invalidSignature => .error .invalidSignature
  | .error f => .error (ServiceFault.ofCrypto f)

namespace Store

/-- Opens a session with a fresh nonce and token; nobody is logged in with it yet. -/
def addSession (s : Store) (nonce token : String) : Store :=
  { s with sessions := s.sessions ++ [{ nonce, token }] }

/-- The first session carrying a token. -/
def sessionByToken? (s : Store) (token : String) : Option Session :=
  s.sessions.find? fun x => x.token = token

/-- The first session carrying a nonce. -/
def sessionByNonce? (s : Store) (nonce : String) : Option Session :=
  s.sessions.find? fun x => x.nonce = nonce

/-- The first session carrying a nonce, which must exist. -/
def sessionOfNonce (s : Store) (nonce : String) : Except ServiceFault Session :=
  match s.sessionByNonce? nonce with
  | some x => .ok x
  | none => .error .invalidNonce

/-- The first session carrying a nonce held for change. -/
def sessionMut (nonce : String) (f : Session → Except ServiceFault (β × Session)) : StoreM β :=
  StoreM.borrow (·.sessionOfNonce nonce)
    (fun x s => { s with sessions := Keyed.modifyFirst (fun y => y.nonce = nonce) (fun _ => x) s.sessions })
    f

/-- The node a token is logged in as. -/
def authenticate (s : Store) (token : String) : Except ServiceFault Address :=
  match s.sessionByToken? token with
  | some { node := some a, .. } => .ok a
  | _ => .error .invalidSession

/-- Removes every session carrying a token; whether there was one. -/
def removeSession (token : String) : StoreM Bool := do
  let before := (← get).sessions.length
  modify fun s => { s with sessions := s.sessions.filter fun x => x.token ≠ token }
  pure ((← get).sessions.length ≠ before)

/-- Ends every session carrying a token; there must be one. -/
def logout (token : String) : StoreM Unit := do
  if !(← removeSession token) then throw .invalidSession

/-- Registers a whitelisted node by its signature of the registration message. -/
def register (templates : Templates) (email : String) (a : Address) (sig : Signature) :
    StoreM Unit := do
  let n ← StoreM.read (·.whitelistedNode a)
  if n.owner ≠ email then throw (.addressMissingWhitelist a)
  let signer ← StoreM.read fun _ => recoverSigner (templates.registerMessage email a) sig
  if signer ≠ a then throw (.signatureMismatch a signer)
  nodeMut a fun n => do
    if n.registered then throw (.alreadyRegistered a)
    pure ((), { n with registered := true })

/-- Logs a node in with its signature of a session's login message; the session's token. The
node's registration is read before the session is taken up. -/
def login (templates : Templates) (policy : NoncePolicy) (a : Address) (nonce : String)
    (sig : Signature) : StoreM String := do
  let signer ← StoreM.read fun _ => recoverSigner (templates.loginMessage nonce a) sig
  if signer ≠ a then throw .invalidSignature
  let registered := ((← get).node? a).any Node.registered
  sessionMut nonce fun session => do
    if session.isVerified && policy = .singleUse then throw .invalidNonce
    if session.node.any (· ≠ a) then throw .invalidNonce
    if !registered then throw (.unregisteredNode a)
    pure (session.token, { session with node := some a })

end Store

end StakingHub
