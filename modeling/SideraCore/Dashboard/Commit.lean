import SideraCore.Dashboard.UserRequests

/-!
Owns how a prepared change of users is committed: the lists are pushed, the store
is saved, and both are undone where one of them fails. `commitMutation` commits a
change of one inbound, `commitInboundBatch` a change of several; the second leaves
the accounts and the tokens to `restoreUserGroupState`.

A save normalizes the store in memory whatever its outcome, so the procedures that
undo a change run on a store that may differ from the one that was prepared.
-/

namespace SideraCore.Dashboard

/-- What the calls of a request meet: updates and a save that may fail, and restoring
ones, whose updates succeed. `rollback` belongs to the procedure that undoes a commit,
`restore` to `restoreUserGroupState`. -/
structure Outcomes where
  update : String → Option Policy
  save : Store → SaveContext
  again : Option Policy
  rollback : String → Policy
  rollbackSave : Store → SaveContext
  restore : String → Policy
  restoreSave : Store → SaveContext

structure Outcomes.Of (outcomes : Outcomes) : Prop where
  save : ∀ store, store.Finite → (outcomes.save store).Of store
  rollbackSave : ∀ store, store.Finite → (outcomes.rollbackSave store).Of store
  restoreSave : ∀ store, store.Finite → (outcomes.restoreSave store).Of store
  rollbackWritten : ∀ store, (outcomes.rollbackSave store).write = .written
  restoreWritten : ∀ store, (outcomes.restoreSave store).write = .written

variable (environment : RequestEnvironment) (store : Store) (outcomes : Outcomes)

def Store.withAccountsOf (before : Store) : Store :=
  { store with
    accounts := before.accounts
    subscriptions := before.subscriptions
    externalSubscriptions := before.externalSubscriptions }

def Store.withInbounds (previous : GoMap InboundRecord) : Store :=
  { store with inbounds := fun tag => (previous tag).or (store.inbounds tag) }

def restoreInbound (managers : GoMap ManagedRuntime) (policy : Policy) (tag : String) (live : Live) :
    Live :=
  (applyInbound managers tag (some policy) live).getD live

def rollbackMutation (tag : String) (previous : InboundRecord) (before : Store) (persist : Bool)
    (live : Live) : Live :=
  let restored := (live.store.withInbounds fun other => if other = tag then some previous else none)
    |>.withAccountsOf before
  let applied := restoreInbound environment.managers (outcomes.rollback tag) tag
    { live with store := restored }
  if persist then (applied.save environment.replace (outcomes.rollbackSave applied.store)).1 else applied

def commitMutation (tag : String) (previous : InboundRecord) (live : Live) : Live × UserReply :=
  match applyInbound environment.managers tag (outcomes.update tag) live with
  | none =>
      (rollbackMutation environment outcomes tag previous live.store false live, .updateFailed)
  | some applied =>
      match applied.save environment.replace (outcomes.save applied.store) with
      | (saved, some error) =>
          (rollbackMutation environment outcomes tag previous live.store true saved, .saveFailed error)
      | (saved, none) =>
          -- The save can reassign the accounts that decide which users are enabled.
          match applyInbound environment.managers tag outcomes.again saved with
          | none =>
              (rollbackMutation environment outcomes tag previous live.store true saved, .updateFailed)
          | some again => (again, .done)

def applyBatch (managers : GoMap ManagedRuntime) (outcomes : String → Option Policy) :
    List String → Live → Live × Bool
  | [], live => (live, true)
  | tag :: rest, live =>
      match applyInbound managers tag (outcomes tag) live with
      | none => (live, false)
      | some applied => applyBatch managers outcomes rest applied

def restoreBatch (managers : GoMap ManagedRuntime) (policies : String → Policy) (tags : List String)
    (live : Live) : Live :=
  tags.foldl (fun live tag => restoreInbound managers (policies tag) tag live) live

def rollbackInboundBatch (tags : List String) (previous : GoMap InboundRecord) (persist : Bool)
    (live : Live) : Live :=
  let applied := restoreBatch environment.managers outcomes.rollback tags
    { live with store := live.store.withInbounds previous }
  if persist then (applied.save environment.replace (outcomes.rollbackSave applied.store)).1 else applied

def commitInboundBatch (tags : List String) (previous : GoMap InboundRecord) (live : Live) :
    Live × UserReply :=
  match applyBatch environment.managers outcomes.update tags live with
  | (applied, false) =>
      (rollbackInboundBatch environment outcomes tags previous false applied, .updateFailed)
  | (applied, true) =>
      match applied.save environment.replace (outcomes.save applied.store) with
      | (saved, some error) =>
          (rollbackInboundBatch environment outcomes tags previous true saved, .saveFailed error)
      | (saved, none) => (saved, .done)

def restoreUserGroupState (tags : List String) (before : Store) (live : Live) : Live :=
  let applied := restoreBatch environment.managers outcomes.restore tags
    { live with store := live.store.withAccountsOf before }
  (applied.save environment.replace (outcomes.restoreSave applied.store)).1

inductive Change where
  | single (mutation : Mutation)
  | group (change : GroupChange)

def Change.tags : Change → List String
  | .single mutation => [mutation.tag]
  | .group change => change.tags

def Change.before : Change → Store
  | .single mutation => mutation.before
  | .group change => change.before

def Change.changed : Change → Store
  | .single mutation => mutation.changed
  | .group change => change.changed

def GroupChange.previous (change : GroupChange) : GoMap InboundRecord :=
  fun tag => if tag ∈ change.tags then change.before.inbounds tag else none

def Change.commit (live : Live) :
    Change → Live × UserReply
  | .single mutation =>
      commitMutation environment outcomes mutation.tag mutation.previous
        { live with store := mutation.changed }
  | .group change =>
      match commitInboundBatch environment outcomes change.tags change.previous
          { live with store := change.changed } with
      | (committed, .done) => (committed, .done)
      | (rolledBack, reply) =>
          (restoreUserGroupState environment outcomes change.tags change.before rolledBack, reply)

inductive UserRequest where
  | createUser (input : UserInput)
  | updateUser (identifier : String) (input : UserInput)
  | deleteUser (identifier : String) (revision : Int)
  | createGroup (input : GroupInput)
  | updateGroup (name : String) (input : GroupInput)
  | deleteGroup (name : String) (accountRevision : Int) (revisions : String → Int)

def UserRequest.prepare :
    UserRequest → Except Refusal Change
  | .createUser input => (prepareCreateUser environment store input).map .single
  | .updateUser identifier input => (prepareUpdateUser environment store identifier input).map .single
  | .deleteUser identifier revision =>
      (prepareDeleteUser environment store identifier revision).map .single
  | .createGroup input => (prepareCreateGroup environment store input).map .group
  | .updateGroup name input => (prepareUpdateGroup environment store name input).map .group
  | .deleteGroup name accountRevision revisions =>
      (prepareDeleteGroup environment store name accountRevision revisions).map .group

def UserRequest.serve (request : UserRequest) (environment : RequestEnvironment) (outcomes : Outcomes)
    (live : Live) : Live × UserReply :=
  match request.prepare environment live.store with
  | .error (reply, store) => ({ live with store := store }, reply)
  | .ok change => change.commit environment outcomes live

end SideraCore.Dashboard
