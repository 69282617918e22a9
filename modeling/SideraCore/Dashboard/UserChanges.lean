import SideraCore.Dashboard.Commit

/-!
Owns what the requests for one user change before they commit. A request that is
refused leaves the store as it was; one that passes its checks replaces one record,
and at most one of its users is new.
-/

namespace SideraCore.Dashboard

open Control

section Settle

variable {usage : Usage} {now : Int} {name : String}

theorem settleUsers_core (users : List User) :
    (settleUsers usage now name users).map User.core = users.map User.core := by
  induction users with
  | nil => rfl
  | cons user rest ih =>
      unfold settleUsers
      split_ifs
      · rfl
      · rw [List.map_cons, List.map_cons, ih]

theorem settle_core (store : Store) (tag : String) :
    (store.settle usage now tag name).core = store.core := by
  unfold Store.settle
  split_ifs
  · rfl
  · unfold Store.core
    congr 1
    funext other
    dsimp only
    by_cases same : other = tag
    · subst same
      rw [Function.update_self, Option.map_map]
      congr 1
      funext record
      simp [InboundRecord.core, settleUsers_core]
    · rw [Function.update_of_ne same]

theorem settleMembers_core (store : Store) (environment : RequestEnvironment) (members : GoMap User) :
    (store.settleMembers environment members name).core = store.core := by
  unfold Store.settleMembers
  generalize environment.inbounds.filter (fun tag => (members tag).isSome) = tags
  induction tags generalizing store with
  | nil => rfl
  | cons tag rest ih => rw [List.foldl_cons, ih, settle_core]

end Settle

/-- What a request for one user prepares: one record becomes authoritative and at most
one user is new, without an account or with one that the record has. -/
structure Mutation.Fits (mutation : Mutation) (managers : GoMap ManagedRuntime) (store : Store) :
    Prop where
  core : mutation.before.core = store.core
  managed : managers mutation.tag ≠ none
  previous : mutation.before.inbounds mutation.tag = some mutation.previous
  frame : mutation.updated.frame = (true, mutation.previous.blockUUID, mutation.previous.blockPassword)
  users : ∃ odd : User, ∀ user ∈ mutation.updated.users, user ∈ mutation.previous.users ∨
    (user = odd ∧ odd.name ≠ "" ∧
      (odd.accountID = "" ∨ ∃ known ∈ mutation.previous.users, known.accountID = odd.accountID))

section Single

variable {environment : RequestEnvironment} {store after : Store} {mutation : Mutation}
  {reply : UserReply} {tag identifier : String} {expectedRevision : Int} {input : UserInput}
  {now revision : Int} {mutate : InboundRecord → Except UserReply InboundRecord} {missing : UserReply}
  {tools : TextTools}

theorem mutateInbound_eq_ok
    (prepared : mutateInbound store tag expectedRevision now missing mutate = .ok mutation) :
    ∃ record updated, store.inbounds tag = some record ∧ mutate record = .ok updated ∧
      mutation = ⟨tag, store, record,
        { updated with revision := nextAdminRevision record.revision now }⟩ := by
  unfold mutateInbound at prepared
  split at prepared
  · cases prepared
  rename_i record present
  split_ifs at prepared
  split at prepared
  · cases prepared
  · rename_i updated mutated
    cases prepared
    exact ⟨record, updated, present, mutated, rfl⟩

theorem mutateInbound_refused
    (refused : mutateInbound store tag expectedRevision now missing mutate = .error (reply, after)) :
    after = store := by
  unfold mutateInbound at refused
  split at refused
  · cases refused
    rfl
  split_ifs at refused
  · cases refused
    rfl
  · cases refused
    rfl
  · split at refused
    · cases refused
      rfl
    · cases refused

theorem requireInboundRevision_refused
    (refused : requireInboundRevision store tag expectedRevision = .error (reply, after)) :
    after = store := by
  unfold requireInboundRevision at refused
  split at refused
  · cases refused
    rfl
  split_ifs at refused
  · cases refused
    rfl
  · cases refused
    rfl

theorem normalizeAdminInput_name {schema : ManagedSchema} {normalized : UserInput}
    (checked : normalizeAdminInput tools schema input = .ok normalized) : normalized.name ≠ "" := by
  by_cases empty : tools.trim input.name = ""
  · simp only [normalizeAdminInput, if_pos empty] at checked
    cases checked
  · simp only [normalizeAdminInput, if_neg empty] at checked
    split at checked
    · cases checked
    split at checked
    · cases checked
    · obtain ⟨credentials, -, equal⟩ := bind_eq_ok_iff.1 checked
      cases equal
      exact empty

theorem prepareCreateUser_fits (prepared : prepareCreateUser environment store input = .ok mutation) :
    mutation.Fits environment.managers store ∧ mutation.tag = input.inbound := by
  unfold prepareCreateUser at prepared
  split at prepared
  · cases prepared
  rename_i runtime managed
  split at prepared
  · cases prepared
  rename_i normalized checked
  obtain ⟨record, updated, present, mutated, rfl⟩ := mutateInbound_eq_ok prepared
  split at mutated
  · cases mutated
  cases mutated
  refine ⟨⟨rfl, by simp [managed], present, rfl,
    newUser environment.newID runtime.type normalized environment.now, ?_⟩, rfl⟩
  intro user member
  rcases List.mem_append.1 member with old | new
  · exact .inl old
  · exact .inr ⟨List.mem_singleton.1 new, normalizeAdminInput_name checked, .inl rfl⟩

theorem prepareCreateUser_refused
    (refused : prepareCreateUser environment store input = .error (reply, after)) : after = store := by
  unfold prepareCreateUser at refused
  split at refused
  · cases refused
    rfl
  · split at refused
    · cases refused
      rfl
    · exact mutateInbound_refused refused

theorem findUser_managed {managers : GoMap ManagedRuntime} {user : User} {tags : List String}
    (found : findUser managers store identifier tags = some (tag, user)) : managers tag ≠ none := by
  induction tags with
  | nil => cases found
  | cons first rest ih =>
      unfold findUser at found
      split at found
      · rename_i managed _
        cases found
        simp [managed]
      · exact ih found

theorem updateUsers_users {all users updated : List User}
    (succeeded : updateUsers tools identifier input now all users = .ok updated) :
    ∃ known ∈ users, ∀ user ∈ updated, user ∈ users ∨ user = known.update input now := by
  induction users generalizing updated with
  | nil => cases succeeded
  | cons first rest ih =>
      unfold updateUsers at succeeded
      split_ifs at succeeded
      · split at succeeded
        · cases succeeded
        · cases succeeded
          exact ⟨first, List.mem_cons_self, List.forall_mem_cons.2
            ⟨.inr rfl, fun user later => .inl (List.mem_cons_of_mem _ later)⟩⟩
      · obtain ⟨others, recursive, equal⟩ := bind_eq_ok_iff.1 succeeded
        cases equal
        obtain ⟨known, member, only⟩ := ih recursive
        exact ⟨known, List.mem_cons_of_mem _ member, List.forall_mem_cons.2
          ⟨.inl List.mem_cons_self, fun user later => (only user later).imp_left (List.mem_cons_of_mem _)⟩⟩

theorem prepareUpdateUser_fits
    (prepared : prepareUpdateUser environment store identifier input = .ok mutation) :
    mutation.Fits environment.managers store ∧
      ∃ user, findUser environment.managers store identifier environment.inbounds =
        some (mutation.tag, user) := by
  unfold prepareUpdateUser at prepared
  split at prepared
  · cases prepared
  rename_i tag current found
  split_ifs at prepared
  split at prepared
  · cases prepared
  split at prepared
  · cases prepared
  rename_i normalized checked
  obtain ⟨_, -, continued⟩ := bind_eq_ok_iff.1 prepared
  split at continued
  · cases continued
  obtain ⟨record, updated, present, mutated, rfl⟩ := mutateInbound_eq_ok continued
  obtain ⟨users, succeeded, equal⟩ := bind_eq_ok_iff.1 mutated
  cases equal
  obtain ⟨known, member, only⟩ := updateUsers_users succeeded
  refine ⟨⟨?_, findUser_managed found, present, rfl, known.update normalized environment.now,
    fun user isIn => ?_⟩, current, found⟩
  · split_ifs
    · exact settle_core store tag
    · rfl
  · refine (only user isIn).imp_right fun isNew => ⟨isNew, ?_, .inr ⟨known, member, rfl⟩⟩
    exact normalizeAdminInput_name checked

theorem prepareUpdateUser_refused
    (refused : prepareUpdateUser environment store identifier input = .error (reply, after)) :
    after.core = store.core := by
  unfold prepareUpdateUser at refused
  split at refused
  · cases refused
    rfl
  rename_i tag current found
  split_ifs at refused
  · cases refused
    rfl
  split at refused
  · cases refused
    rfl
  split at refused
  · cases refused
    rfl
  rcases bind_eq_error_iff.1 refused with early | ⟨_, -, continued⟩
  · rw [requireInboundRevision_refused early]
  · split at continued
    · cases continued
      rfl
    · rw [mutateInbound_refused continued]
      split_ifs
      · exact settle_core store tag
      · rfl

theorem removeUser_subset {users removed : List User}
    (succeeded : removeUser identifier users = .ok removed) : removed ⊆ users := by
  induction users generalizing removed with
  | nil => cases succeeded
  | cons first rest ih =>
      unfold removeUser at succeeded
      split_ifs at succeeded
      · cases succeeded
        exact List.subset_cons_self first _
      · obtain ⟨others, recursive, equal⟩ := bind_eq_ok_iff.1 succeeded
        cases equal
        exact List.cons_subset_cons first (ih recursive)

theorem prepareDeleteUser_fits
    (prepared : prepareDeleteUser environment store identifier revision = .ok mutation) :
    mutation.Fits environment.managers store ∧
      ∃ user, findUser environment.managers store identifier environment.inbounds =
        some (mutation.tag, user) := by
  unfold prepareDeleteUser at prepared
  split_ifs at prepared
  split at prepared
  · cases prepared
  rename_i tag current found
  obtain ⟨_, -, continued⟩ := bind_eq_ok_iff.1 prepared
  obtain ⟨record, updated, present, mutated, rfl⟩ := mutateInbound_eq_ok continued
  obtain ⟨users, succeeded, equal⟩ := bind_eq_ok_iff.1 mutated
  cases equal
  have only := removeUser_subset succeeded
  exact ⟨⟨rfl, findUser_managed found, present, rfl, current, fun user isIn => .inl (only isIn)⟩,
    current, found⟩

theorem prepareDeleteUser_refused
    (refused : prepareDeleteUser environment store identifier revision = .error (reply, after)) :
    after = store := by
  unfold prepareDeleteUser at refused
  split_ifs at refused
  · cases refused
    rfl
  split at refused
  · cases refused
    rfl
  · rcases bind_eq_error_iff.1 refused with early | ⟨_, -, continued⟩
    · exact requireInboundRevision_refused early
    · exact mutateInbound_refused continued

end Single

end SideraCore.Dashboard
