import SideraCore.Concurrency.Logic

/-!
Owns pools: any number of threads that share one world. Threads arrive from
outside or are started by an action of another thread, and take their actions
in any order; the environment moves in between.

The reasoning rule is rely and guarantee: `Discipline` names what every action
of a thread promises, and each thread is verified alone, with `wp`, against
threads that only do what they promise. `Sound.reaches` puts the threads
together. A thread is known by its place in the pool, which never changes.
-/

namespace SideraCore.Concurrency

/-- What the actions of a thread do to a shared world, the jobs they start, and the
moves of the environment. -/
structure Shared (S : Signature) (Job World Event : Type) where
  outcomes : (self : Nat) → World → (action : S.Action) → List (S.Answer action × World)
  spawns : (action : S.Action) → S.Answer action → List Job
  interfere : Event → World → Option World

structure Thread (S : Signature) (Job Exit : Type) where
  origin : Job
  process : Process S Exit

def Thread.start {S : Signature} {Job Exit : Type} (body : Job → Process S Exit) (job : Job) :
    Thread S Job Exit := ⟨job, body job⟩

structure Pool (S : Signature) (Job Exit World : Type) where
  threads : List (Thread S Job Exit)
  world : World

section Steps

variable {S : Signature} {Job Exit World Event : Type}

/-- A thread performs its next action, a job arrives, or the environment moves. -/
inductive PoolStep (shared : Shared S Job World Event) (body : Job → Process S Exit)
    (arrives : Job → Prop) : Pool S Job Exit World → Pool S Job Exit World → Prop
  | act {threads : List (Thread S Job Exit)} {world after : World} {self : Nat} {origin : Job}
      {action : S.Action} {next : S.Answer action → Process S Exit} {answer : S.Answer action}
      (running : threads[self]? = some ⟨origin, .act action next⟩)
      (outcome : (answer, after) ∈ shared.outcomes self world action) :
      PoolStep shared body arrives ⟨threads, world⟩
        ⟨threads.set self ⟨origin, next answer⟩ ++
          (shared.spawns action answer).map (Thread.start body), after⟩
  | arrive {threads : List (Thread S Job Exit)} {world : World} {job : Job} (allowed : arrives job) :
      PoolStep shared body arrives ⟨threads, world⟩ ⟨threads ++ [Thread.start body job], world⟩
  | env {threads : List (Thread S Job Exit)} {world after : World} {event : Event}
      (move : shared.interfere event world = some after) :
      PoolStep shared body arrives ⟨threads, world⟩ ⟨threads, after⟩

variable {threads : List (Thread S Job Exit)} {thread : Thread S Job Exit} {jobs : List Job}
  {index : Nat}

theorem getElem?_started {body : Job → Process S Exit}
    (found : (threads ++ jobs.map (Thread.start body))[index]? = some thread) :
    threads[index]? = some thread ∨ threads.length ≤ index ∧
      ∃ job, jobs[index - threads.length]? = some job ∧ thread = Thread.start body job := by
  rcases Nat.lt_or_ge index threads.length with old | new
  · rw [List.getElem?_append_left old] at found
    exact .inl found
  · rw [List.getElem?_append_right new, List.getElem?_map] at found
    obtain ⟨job, member, started⟩ := Option.map_eq_some_iff.1 found
    exact .inr ⟨new, job, member, started.symm⟩

/-- The threads after an action: the others, the thread itself, and those it started. -/
theorem getElem?_act {body : Job → Process S Exit} {self : Nat} {acted : Thread S Job Exit}
    (found : (threads.set self acted ++ jobs.map (Thread.start body))[index]? = some thread) :
    index ≠ self ∧ threads[index]? = some thread ∨ index = self ∧ thread = acted ∨
      threads.length ≤ index ∧
        ∃ job, jobs[index - threads.length]? = some job ∧ thread = Thread.start body job := by
  rcases getElem?_started found with old | new
  · by_cases same : index = self
    · subst same
      have inside := (List.getElem?_eq_some_iff.1 old).1
      rw [List.length_set] at inside
      rw [List.getElem?_set_self inside] at old
      exact .inr (.inl ⟨rfl, (Option.some.inj old).symm⟩)
    · rw [List.getElem?_set_ne (Ne.symm same)] at old
      exact .inl ⟨same, old⟩
  · rw [List.length_set] at new
    exact .inr (.inr new)

def PoolReaches (shared : Shared S Job World Event) (body : Job → Process S Exit)
    (arrives : Job → Prop) (start : World) (pool : Pool S Job Exit World) : Prop :=
  Relation.ReflTransGen (PoolStep shared body arrives) ⟨[], start⟩ pool

/-! ### Executing a chosen interleaving -/

inductive PoolChoice (Job Event : Type) where
  | act (self outcome : Nat)
  | arrive (job : Job)
  | env (event : Event)

def Pool.advance (shared : Shared S Job World Event) (body : Job → Process S Exit)
    (pool : Pool S Job Exit World) : PoolChoice Job Event → Option (Pool S Job Exit World)
  | .act self outcome =>
      match pool.threads[self]? with
      | some ⟨origin, .act action next⟩ =>
          ((shared.outcomes self pool.world action)[outcome]?).map fun chosen =>
            ⟨pool.threads.set self ⟨origin, next chosen.1⟩ ++
              (shared.spawns action chosen.1).map (Thread.start body), chosen.2⟩
      | _ => none
  | .arrive job => some ⟨pool.threads ++ [Thread.start body job], pool.world⟩
  | .env event => (shared.interfere event pool.world).map fun after => ⟨pool.threads, after⟩

def Pool.replay (shared : Shared S Job World Event) (body : Job → Process S Exit) :
    List (PoolChoice Job Event) → Pool S Job Exit World → Option (Pool S Job Exit World)
  | [], pool => some pool
  | choice :: rest, pool =>
      (pool.advance shared body choice).bind (Pool.replay shared body rest)

variable {shared : Shared S Job World Event} {body : Job → Process S Exit} {arrives : Job → Prop}

theorem Pool.advance_step {pool after : Pool S Job Exit World} {choice : PoolChoice Job Event}
    (allowed : ∀ job, choice = .arrive job → arrives job)
    (advanced : pool.advance shared body choice = some after) :
    PoolStep shared body arrives pool after := by
  cases choice with
  | act self outcome =>
      simp only [Pool.advance] at advanced
      split at advanced
      · rename_i origin action next running
        obtain ⟨⟨answer, afterWorld⟩, chosen, rfl⟩ := Option.map_eq_some_iff.1 advanced
        exact .act running (List.mem_of_getElem? chosen)
      · simp at advanced
  | arrive job =>
      cases advanced
      exact .arrive (allowed job rfl)
  | env event =>
      obtain ⟨afterWorld, moved, rfl⟩ := Option.map_eq_some_iff.1 advanced
      exact .env moved

theorem Pool.replay_reaches {choices : List (PoolChoice Job Event)}
    {before after : Pool S Job Exit World}
    (allowed : ∀ job, .arrive job ∈ choices → arrives job)
    (replayed : before.replay shared body choices = some after) :
    Relation.ReflTransGen (PoolStep shared body arrives) before after := by
  induction choices generalizing before with
  | nil =>
      simp only [Pool.replay, Option.some.injEq] at replayed
      exact replayed ▸ .refl
  | cons choice rest ih =>
      obtain ⟨middle, advanced, remaining⟩ := Option.bind_eq_some_iff.1 replayed
      have step := advance_step (fun job same => allowed job (by simp [same])) advanced
      exact .head step (ih (fun job later => allowed job (by simp [later])) remaining)

end Steps

/-! ### Rely and guarantee -/

section Disciplines

variable {S : Signature} {Job Exit World Event : Type}

/-- What the threads of a pool promise each other. -/
structure Discipline (S : Signature) (Job Exit World : Type) where
  /-- Holds of the world at every moment. -/
  invariant : World → Prop
  /-- What one action of the thread `self`, started for the job, does to the world. -/
  guarantee : (self : Nat) → Job → World → World → Prop
  /-- Holds of the world until the thread `self` starts. -/
  unborn : (self : Nat) → World → Prop
  /-- What holds when a thread is started for the job. -/
  starts : Job → World → Prop
  /-- Holds whenever an action of the thread is pending. -/
  requires : (self : Nat) → Job → Requirement S World
  /-- Holds from the end of the thread on. -/
  post : (self : Nat) → Job → Exit → World → Prop

namespace Discipline

variable (discipline : Discipline S Job Exit World) (shared : Shared S Job World Event)

/-- What the others and the environment may do to the world of a thread. -/
def Rely (self : Nat) (before after : World) : Prop :=
  (∃ other job, other ≠ self ∧ discipline.guarantee other job before after) ∨
    ∃ event, shared.interfere event before = some after

open Classical in
/-- The system a thread runs in: the other threads belong to the environment. -/
noncomputable def around (self : Nat) : System S World World where
  outcomes := shared.outcomes self
  interfere := fun after before => if discipline.Rely shared self before after then some after else none

/-- The promise of an action: the guarantee, and the start of the threads it starts. -/
def Promise (self : Nat) (job : Job) : Requirement S World := fun action world =>
  discipline.requires self job action world ∧
    ∀ answer after, (answer, after) ∈ shared.outcomes self world action →
      discipline.guarantee self job world after ∧
        ∀ spawned ∈ shared.spawns action answer, discipline.starts spawned after

/-- A thread keeps the discipline from the world on. -/
def Secured (self : Nat) (job : Job) (process : Process S Exit) (world : World) : Prop :=
  wp (discipline.around shared self) (fun _ _ _ => True) (discipline.Promise shared self job) process
    (discipline.post self job) world

/-- The discipline is sound for the bodies of the jobs. -/
structure Sound (body : Job → Process S Exit) (arrives : Job → Prop) : Prop where
  acts : ∀ self job before after, discipline.guarantee self job before after →
    discipline.invariant before → discipline.invariant after
  moves : ∀ event before after, shared.interfere event before = some after →
    discipline.invariant before → discipline.invariant after
  unborn : ∀ self before after, discipline.Rely shared self before after →
    discipline.invariant before → discipline.unborn self before → discipline.unborn self after
  arrives : ∀ job world, arrives job → discipline.invariant world → discipline.starts job world
  secured : ∀ self job world, discipline.invariant world → discipline.unborn self world →
    discipline.starts job world → discipline.Secured shared self job (body job) world

variable {discipline shared} {self : Nat} {before after start : World} {assertion : World → Prop}

theorem envStep_iff :
    (discipline.around shared self).EnvStep before after ↔ discipline.Rely shared self before after := by
  constructor
  · rintro ⟨event, moved⟩
    simp only [around] at moved
    split at moved
    · rename_i rely
      exact Option.some.inj moved ▸ rely
    · simp at moved
  · intro rely
    exact ⟨after, by simp [around, rely]⟩

theorem stable_of_rely
    (kept : ∀ before after, discipline.Rely shared self before after → assertion before →
      assertion after) :
    (discipline.around shared self).Stable assertion :=
  fun before after move => kept before after (envStep_iff.1 move)

/-- No promise and no move of the environment takes the assertion away. -/
structure Carried (discipline : Discipline S Job Exit World) (shared : Shared S Job World Event)
    (assertion : World → Prop) : Prop where
  acts : ∀ self job before after, discipline.guarantee self job before after → assertion before →
    assertion after
  moves : ∀ event before after, shared.interfere event before = some after → assertion before →
    assertion after

theorem Carried.and {first second : World → Prop} (carriesFirst : Carried discipline shared first)
    (carriesSecond : Carried discipline shared second) :
    Carried discipline shared fun world => first world ∧ second world where
  acts := fun self job before after guarantees holds =>
    ⟨carriesFirst.acts self job before after guarantees holds.1,
      carriesSecond.acts self job before after guarantees holds.2⟩
  moves := fun event before after moved holds =>
    ⟨carriesFirst.moves event before after moved holds.1,
      carriesSecond.moves event before after moved holds.2⟩

theorem Carried.stable (carried : Carried discipline shared assertion) (self : Nat) :
    (discipline.around shared self).Stable assertion := by
  refine stable_of_rely fun before after rely holds => ?_
  rcases rely with ⟨other, job, _, guarantees⟩ | ⟨event, moved⟩
  · exact carried.acts other job before after guarantees holds
  · exact carried.moves event before after moved holds

section Carrying

variable {α : Type} {self : Nat} {job : Job} {assertion : World → Prop} {world : World}
  {allowed : Allowed S World}

theorem wp_action (carried : Carried discipline shared assertion) (holds : assertion world)
    {action : S.Action} {next : S.Answer action → Process S α} {post : α → World → Prop}
    (required : ∀ during, assertion during → discipline.Promise shared self job action during)
    (continues : ∀ during answer after, assertion during → assertion after →
      (answer, after) ∈ shared.outcomes self during action →
        wp (discipline.around shared self) allowed (discipline.Promise shared self job) (next answer)
          post after) :
    wp (discipline.around shared self) allowed (discipline.Promise shared self job) (.act action next)
      post world := by
  refine wp_act assertion (carried.stable self) holds required ?_
  intro during answer after current outcome _
  have promised := ((required during current).2 answer after outcome).1
  exact continues during answer after current (carried.acts self job during after promised current) outcome

/-- A thread that keeps its promises carries an assertion to its end. -/
theorem wp_frame (carried : Carried discipline shared assertion) (holds : assertion world)
    {process : Process S α} {post : α → World → Prop}
    (secured : wp (discipline.around shared self) allowed (discipline.Promise shared self job) process
      post world) :
    wp (discipline.around shared self) allowed (discipline.Promise shared self job) process
      (fun value after => post value after ∧ assertion after) world := by
  induction process generalizing world with
  | done value =>
      intro after moves
      exact ⟨secured after moves, (carried.stable self).interferes moves holds⟩
  | act action next ih =>
      intro during moves
      obtain ⟨promises, continues⟩ := secured during moves
      have current : assertion during := (carried.stable self).interferes moves holds
      refine ⟨promises, fun answer after outcome allows => ?_⟩
      exact ih answer
        (carried.acts self job during after (promises.2 answer after outcome).1 current)
        (continues answer after outcome allows)

end Carrying

structure Kept (discipline : Discipline S Job Exit World) (shared : Shared S Job World Event)
    (pool : Pool S Job Exit World) : Prop where
  invariant : discipline.invariant pool.world
  threads : ∀ self thread, pool.threads[self]? = some thread →
    discipline.Secured shared self thread.origin thread.process pool.world
  unborn : ∀ self, pool.threads.length ≤ self → discipline.unborn self pool.world

variable {body : Job → Process S Exit} {arrives : Job → Prop}

theorem Secured.rely {job : Job} {process : Process S Exit}
    (secured : discipline.Secured shared self job process before)
    (rely : discipline.Rely shared self before after) :
    discipline.Secured shared self job process after :=
  wp_interferes secured (.single (envStep_iff.2 rely))

section

variable (sound : discipline.Sound shared body arrives)
include sound

theorem Kept.append
    {threads : List (Thread S Job Exit)} {world : World} (kept : Kept discipline shared ⟨threads, world⟩)
    {jobs : List Job} (starts : ∀ job ∈ jobs, discipline.starts job world) :
    Kept discipline shared ⟨threads ++ jobs.map (Thread.start body), world⟩ where
  invariant := kept.invariant
  threads := by
    intro self thread found
    rcases getElem?_started found with old | ⟨new, job, member, rfl⟩
    · exact kept.threads self thread old
    · exact sound.secured self job world kept.invariant (kept.unborn self new)
        (starts job (List.mem_of_getElem? member))
  unborn := by
    intro self beyond
    simp only [List.length_append] at beyond
    exact kept.unborn self (by show threads.length ≤ self; omega)

theorem Kept.act
    {threads : List (Thread S Job Exit)} {world after : World}
    (kept : Kept discipline shared ⟨threads, world⟩) {self : Nat} {origin : Job} {action : S.Action}
    {next : S.Answer action → Process S Exit} {answer : S.Answer action}
    (running : threads[self]? = some ⟨origin, .act action next⟩)
    (outcome : (answer, after) ∈ shared.outcomes self world action) :
    Kept discipline shared ⟨threads.set self ⟨origin, next answer⟩, after⟩ ∧
      ∀ job ∈ shared.spawns action answer, discipline.starts job after := by
  obtain ⟨⟨_, promises⟩, continues⟩ := kept.threads self _ running world .refl
  obtain ⟨guarantees, starts⟩ := promises answer after outcome
  have relies : ∀ other, other ≠ self → discipline.Rely shared other world after :=
    fun other different => .inl ⟨self, origin, Ne.symm different, guarantees⟩
  have inside : self < threads.length := (List.getElem?_eq_some_iff.1 running).1
  refine ⟨⟨sound.acts self origin world after guarantees kept.invariant, fun other thread found => ?_,
    fun other beyond => ?_⟩, starts⟩
  · by_cases same : other = self
    · subst same
      simp only [List.getElem?_set_self inside, Option.some.injEq] at found
      subst found
      exact continues answer after outcome trivial
    · simp only [List.getElem?_set_ne (Ne.symm same)] at found
      exact (kept.threads other thread found).rely (relies other same)
  · simp only [List.length_set] at beyond
    have different : other ≠ self := by omega
    exact sound.unborn other world after (relies other different) kept.invariant
      (kept.unborn other beyond)

theorem Kept.step {before after : Pool S Job Exit World}
    (kept : Kept discipline shared before) (step : PoolStep shared body arrives before after) :
    Kept discipline shared after := by
  cases step with
  | act running outcome =>
      obtain ⟨others, starts⟩ := kept.act sound running outcome
      exact others.append sound starts
  | arrive allowed =>
      show Kept discipline shared ⟨_ ++ [_].map (Thread.start body), _⟩
      refine kept.append sound fun job member => ?_
      rw [List.mem_singleton.1 member]
      exact sound.arrives _ _ allowed kept.invariant
  | env move =>
      have relies : ∀ self, discipline.Rely shared self _ _ := fun self => .inr ⟨_, move⟩
      exact ⟨sound.moves _ _ _ move kept.invariant,
        fun self thread found => (kept.threads self thread found).rely (relies self),
        fun self beyond => sound.unborn self _ _ (relies self) kept.invariant (kept.unborn self beyond)⟩

end

variable {pool : Pool S Job Exit World}

/-- Every reachable pool keeps a sound discipline. -/
theorem Sound.reaches (sound : discipline.Sound shared body arrives)
    (initially : discipline.invariant start) (unborn : ∀ self, discipline.unborn self start)
    (run : PoolReaches shared body arrives start pool) : Kept discipline shared pool := by
  induction run with
  | refl => exact ⟨initially, by simp, fun self _ => unborn self⟩
  | tail _ step ih => exact ih.step sound step

theorem Kept.post (kept : Kept discipline shared pool) {origin : Job} {value : Exit}
    (finished : pool.threads[self]? = some ⟨origin, .done value⟩) :
    discipline.post self origin value pool.world :=
  kept.threads self _ finished pool.world .refl

theorem Kept.requires (kept : Kept discipline shared pool) {origin : Job} {action : S.Action}
    {next : S.Answer action → Process S Exit}
    (pending : pool.threads[self]? = some ⟨origin, .act action next⟩) :
    discipline.requires self origin action pool.world :=
  (kept.threads self _ pending pool.world .refl).1.1

/-- What every guarantee keeps of all jobs and the world holds of every reachable pool. -/
theorem Sound.traces (sound : discipline.Sound shared body arrives)
    (initially : discipline.invariant start) (unborn : ∀ self, discipline.unborn self start)
    {property : List Job → World → Prop} (begins : property [] start)
    (acts : ∀ jobs self job before after, jobs[self]? = some job →
      discipline.guarantee self job before after → property jobs before → property jobs after)
    (grows : ∀ jobs more world, property jobs world → property (jobs ++ more) world)
    (moves : ∀ jobs event before after, shared.interfere event before = some after →
      property jobs before → property jobs after) (run : PoolReaches shared body arrives start pool) :
    property (pool.threads.map Thread.origin) pool.world := by
  induction run with
  | refl => exact begins
  | tail earlier step ih =>
      have kept := sound.reaches initially unborn earlier
      cases step with
      | @act threads world after self origin action next answer running outcome =>
          have promised := (kept.threads self _ running world .refl).1.2 answer after outcome
          have same : (threads.set self ⟨origin, next answer⟩).map Thread.origin =
              threads.map Thread.origin := by
            refine List.ext_getElem? fun index => ?_
            by_cases here : index = self
            · subst here
              have inside := (List.getElem?_eq_some_iff.1 running).1
              rw [List.getElem?_map, List.getElem?_map, List.getElem?_set_self inside, running]
              rfl
            · simp [List.getElem?_set_ne (Ne.symm here)]
          have job : (threads.map Thread.origin)[self]? = some origin := by
            simp [running]
          rw [List.map_append, same]
          exact grows _ _ _ (acts _ self origin world after job promised.1 ih)
      | arrive allowed =>
          rw [List.map_append]
          exact grows _ _ _ ih
      | env move => exact moves _ _ _ _ move ih

end Discipline

end Disciplines

end SideraCore.Concurrency
