import SideraCore.Concurrency.Machine

/-!
Owns the users of an SSM user manager: those that `List` and `Get` show, those that the
server has installed, and their traffic counters. The table is changed before the server
is asked, and stays so when the server refuses.
-/

namespace SideraCore.Service

open Concurrency

abbrev UserTable := String → Option String

inductive TrafficCounter where
  | uplink
  | downlink
  | uplinkPackets
  | downlinkPackets
  | tcpSessions
  | udpSessions

structure TrafficManager where
  globals : TrafficCounter → Int
  users : TrafficCounter → String → Option Int

/-- `UserManager`, with the users of its server. -/
structure UserManager where
  usersMap : UserTable
  installed : UserTable
  traffic : TrafficManager

/-- The calls of a manager; a cache that cannot be decoded shows as none. -/
inductive UserCall where
  | add (username password : String)
  | update (username password : String)
  | delete (username : String)
  | decodeCache (cache : Option (UserTable × TrafficManager))

inductive UserError where
  | alreadyExists (username : String)
  | invalidCache
  | refused
deriving DecidableEq

def UserCall.change (users : UserTable) : UserCall → UserTable
  | .add username password | .update username password =>
      Function.update users username (some password)
  | .delete username => Function.update users username none
  | .decodeCache cache => cache.elim users Prod.fst

namespace UserManager

/-- `NewUserManager`, on a managed inbound, which has no users of its own. -/
def new : UserManager := ⟨fun _ => none, fun _ => none, ⟨fun _ => 0, fun _ _ => none⟩⟩

/-- `TrafficManager.UpdateUsers` forgets the counters of other users. -/
def updateUsers (manager : UserManager) : UserManager :=
  { manager with
    traffic.users := fun counter user =>
      if (manager.usersMap user).isSome then manager.traffic.users counter user else none }

/-- `UserManager.postUpdate`, for a server that takes some tables and keeps its users otherwise. -/
def postUpdate (accepts : UserTable → Bool) (manager : UserManager) (updated : Bool) :
    UserManager × Option UserError :=
  if accepts manager.usersMap then
    let installed := { manager with installed := manager.usersMap }
    (if updated then installed.updateUsers else installed, none)
  else (manager, some .refused)

def perform (accepts : UserTable → Bool) (manager : UserManager) (call : UserCall) :
    UserManager × Option UserError :=
  let changed := { manager with usersMap := call.change manager.usersMap }
  match call with
  | .add username _ =>
      if (manager.usersMap username).isSome then (manager, some (.alreadyExists username))
      else changed.postUpdate accepts true
  | .update _ _ | .delete _ => changed.postUpdate accepts true
  | .decodeCache none => (manager, some .invalidCache)
  -- The error of the update is dropped.
  | .decodeCache (some cache) =>
      (({ changed with traffic := cache.2 }.postUpdate accepts false).1, none)

def machine : Machine UserManager (UserCall × (UserTable → Bool)) :=
  ⟨fun manager event => some (manager.perform event.2 event.1).1⟩

def asks (manager : UserManager) : UserCall → Bool
  | .add username _ => (manager.usersMap username).isNone
  | .update _ _ | .delete _ => true
  | .decodeCache cache => cache.isSome

/-- The server takes the table it is given, if it is given one. -/
def Taken (manager : UserManager) (event : UserCall × (UserTable → Bool)) : Prop :=
  manager.asks event.1 = true → event.2 (event.1.change manager.usersMap) = true

/-- What is shown is installed, an error changes nothing, and a change that the server
takes is not refused. -/
structure Served (manager : UserManager) (call : UserCall) (accepts : UserTable → Bool)
    (result : UserManager × Option UserError) : Prop where
  shown : result.1.usersMap = result.1.installed
  unchanged : result.2 ≠ none → result.1 = manager
  valid : accepts (call.change manager.installed) = true → result.2 ≠ some .refused

theorem served {manager : UserManager} {call : UserCall} {accepts : UserTable → Bool}
    (shown : manager.usersMap = manager.installed) (taken : manager.Taken (call, accepts)) :
    manager.Served call accepts (manager.perform accepts call) := by
  have posted (asked : manager.asks call = true) (traffic : TrafficManager) (updated : Bool) :
      let result := postUpdate accepts ⟨call.change manager.usersMap, manager.installed, traffic⟩ updated
      result.1.usersMap = result.1.installed ∧ result.2 = none := by
    have accepted : accepts (call.change manager.usersMap) = true := taken asked
    cases updated <;> simp [postUpdate, accepted, updateUsers]
  cases call with
  | add username password =>
      unfold perform
      dsimp only
      split
      · exact ⟨shown, fun _ => rfl, fun _ => by simp⟩
      · rename_i new
        obtain ⟨same, none⟩ := posted (by simpa [asks] using new) manager.traffic true
        exact ⟨same, fun failed => absurd none failed, fun _ => by simp [none]⟩
  | update username password | delete username =>
      obtain ⟨same, none⟩ := posted rfl manager.traffic true
      exact ⟨same, fun failed => absurd none failed, fun _ => by simp [perform, none]⟩
  | decodeCache cache =>
      cases cache with
      | none => exact ⟨shown, fun _ => rfl, fun _ => by simp [perform]⟩
      | some cache =>
          exact ⟨(posted rfl cache.2 false).1, fun failed => absurd rfl failed, fun _ => by simp [perform]⟩

/-- **The users shown are those installed as long as the server takes every table.** -/
theorem users_installed {events : List (UserCall × (UserTable → Bool))} {manager : UserManager}
    (ran : machine.run new events = some manager) (taken : machine.Meets Taken new events)
    {call : UserCall} {accepts : UserTable → Bool} (next : manager.Taken (call, accepts)) :
    manager.Served call accepts (manager.perform accepts call) := by
  have kept (before : UserManager) (event : UserCall × (UserTable → Bool)) (after : UserManager)
      (stepped : machine.step before event = some after) (taken : before.Taken event)
      (shown : before.usersMap = before.installed) : after.usersMap = after.installed := by
    cases stepped
    exact (served shown taken).shown
  exact served (Machine.run_invariant kept ran taken rfl) next

/-- A user that is added to a server that takes everything, again to one that takes nothing
and is not asked, and changed. -/
theorem users_installed_updated :
    let first := (perform (fun _ => true) new (.add "a" "1")).1
    let second := perform (fun _ => false) first (.add "a" "3")
    second.2 = some (.alreadyExists "a") ∧
      second.1.Served (.update "a" "2") (fun _ => true) (perform (fun _ => true) second.1 (.update "a" "2")) :=
  ⟨rfl, @users_installed [(.add "a" "1", fun _ => true), (.add "a" "3", fun _ => false)] _ rfl
    ⟨fun _ => rfl, fun asked => absurd asked (by decide), trivial⟩ _ _ fun _ => rfl⟩

/-- A server that takes no password `bad` refuses `a`, which stays in the table and makes it
refuse `b` as well. -/
theorem refused_user_stays :
    let accepts (users : UserTable) : Bool := users "a" ≠ some "bad"
    let (first, error) := perform accepts new (.add "a" "bad")
    error = some .refused ∧ first.usersMap "a" = some "bad" ∧ first.installed "a" = none ∧
      accepts (UserCall.change first.installed (.add "b" "good")) = true ∧
      (perform accepts first (.add "b" "good")).2 = some .refused := by
  decide

end UserManager

end SideraCore.Service
