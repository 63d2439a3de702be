import DatafusionPostgres.Library.Run
import Mathlib.Data.List.Count

/-! `datafusion-postgres/src/lib.rs`: the tasks of the accept loop, and how many of them serve
a connection at a time. -/
namespace DatafusionPostgres.Server
open Library

/-- The semaphore of the runtime. `new` panics above its largest number of permits. -/
structure Semaphores where
  Semaphore : Type
  new : Nat → Option Semaphore
  tryAcquire : Semaphore → Option Semaphore
  dropPermit : Semaphore → Semaphore
  availablePermits : Semaphore → Nat
  new_permits {n : Nat} {semaphore : Semaphore} :
    new n = some semaphore → availablePermits semaphore = n
  tryAcquire_none {semaphore : Semaphore} :
    tryAcquire semaphore = none ↔ availablePermits semaphore = 0
  tryAcquire_some {semaphore semaphore' : Semaphore} :
    tryAcquire semaphore = some semaphore' →
      availablePermits semaphore = availablePermits semaphore' + 1
  dropPermit_permits (semaphore : Semaphore) :
    availablePermits (dropPermit semaphore) = availablePermits semaphore + 1

/-- A spawned task: not polled yet, in `process_socket` with a permit or without a limiter,
turned away, or at its end. -/
inductive Task where
  | spawned
  | serving (permit : Bool)
  | rejected
  | ended
  deriving DecidableEq, Repr

def Task.isServing : Task → Bool
  | .serving _ => true
  | _ => false

/-- What the runtime may do next, in any order. -/
inductive Event where
  | accepted
  | acceptFailed
  | polled (task : Nat)
  | socketClosed (task : Nat)
  deriving DecidableEq, Repr

section Loop
variable (S : Semaphores)

structure ServerState where
  connectionLimiter : Option S.Semaphore
  tasks : List Task

/-- The limiter of `serve_with_handlers`, none for the panic. -/
def connectionLimiter (maxConnCount : Nat) : Option (Option S.Semaphore) :=
  if 0 < maxConnCount then (S.new maxConnCount).map some else some none

def ServerState.started (limiter : Option S.Semaphore) : ServerState S := ⟨limiter, []⟩

/-- The check at the beginning of a task. -/
def acquirePermit (limiter : Option S.Semaphore) : Task × Option S.Semaphore :=
  match limiter with
  | none => (.serving false, none)
  | some semaphore =>
    match S.tryAcquire semaphore with
    | some semaphore => (.serving true, some semaphore)
    | none => (.rejected, some semaphore)

/-- The end of a task drops its permit, if it holds one. -/
def release (permit : Bool) (limiter : Option S.Semaphore) : Option S.Semaphore :=
  if permit then limiter.map S.dropPermit else limiter

def ServerState.step (s : ServerState S) : Event → ServerState S
  | .accepted => { s with tasks := s.tasks ++ [.spawned] }
  | .acceptFailed => s
  | .polled task =>
    match s.tasks[task]? with
    | some .spawned =>
      ⟨(acquirePermit S s.connectionLimiter).2,
        s.tasks.set task (acquirePermit S s.connectionLimiter).1⟩
    | _ => s
  | .socketClosed task =>
    match s.tasks[task]? with
    | some (.serving permit) =>
      ⟨release S permit s.connectionLimiter, s.tasks.set task .ended⟩
    | _ => s

def ServerState.connections (s : ServerState S) : Nat := s.tasks.countP Task.isServing

/-- The permits in use are those of the tasks that serve. -/
def Balanced (maxConnCount : Nat) (s : ServerState S) : Prop :=
  match s.connectionLimiter with
  | none => maxConnCount = 0 ∧ Task.serving true ∉ s.tasks ∧ Task.rejected ∉ s.tasks
  | some semaphore => 0 < maxConnCount ∧ Task.serving false ∉ s.tasks ∧
    S.availablePermits semaphore + s.connections = maxConnCount

end Loop

section Tasks
variable {tasks : List Task} {i : Nat} {task task' : Task}

private theorem countP_set (h : tasks[i]? = some task) (task' : Task) :
    (tasks.set i task').countP Task.isServing + (if task.isServing then 1 else 0) =
      tasks.countP Task.isServing + (if task'.isServing then 1 else 0) := by
  induction tasks generalizing i with
  | nil => cases h
  | cons first tasks ih =>
    cases i with
    | zero =>
      obtain rfl : first = task := Option.some.inj h
      rw [List.set_cons_zero, List.countP_cons, List.countP_cons]
      omega
    | succ i =>
      have := ih h
      rw [List.set_cons_succ, List.countP_cons, List.countP_cons]
      omega

private theorem not_mem_set {kept : Task} (hne : kept ≠ task') (h : kept ∉ tasks) :
    kept ∉ tasks.set i task' := by
  intro hmem
  rcases List.mem_or_eq_of_mem_set hmem with hmem | heq
  · exact h hmem
  · exact hne heq

private theorem not_mem_append (hne : task ≠ .spawned) (h : task ∉ tasks) :
    task ∉ tasks ++ [.spawned] := by
  rw [List.mem_append, List.mem_singleton, not_or]
  exact ⟨h, hne⟩

end Tasks

section Runs
variable {S : Semaphores} {maxConnCount : Nat} {s : ServerState S}

private theorem balanced_started {limiter : Option S.Semaphore}
    (h : connectionLimiter S maxConnCount = some limiter) :
    Balanced S maxConnCount (.started S limiter) := by
  unfold connectionLimiter at h
  split at h
  · rename_i hpos
    obtain ⟨semaphore, hnew, rfl⟩ := Option.map_eq_some_iff.mp h
    exact ⟨hpos, List.not_mem_nil, S.new_permits hnew⟩
  · rename_i hpos
    obtain rfl := Option.some.inj h
    exact ⟨Nat.eq_zero_of_not_pos hpos, List.not_mem_nil, List.not_mem_nil⟩

private theorem balanced_polled (h : Balanced S maxConnCount s) {i : Nat}
    (hi : s.tasks[i]? = some .spawned) :
    Balanced S maxConnCount ⟨(acquirePermit S s.connectionLimiter).2,
      s.tasks.set i (acquirePermit S s.connectionLimiter).1⟩ := by
  obtain ⟨limiter, tasks⟩ := s
  have hset := countP_set hi
  cases limiter with
  | none =>
    obtain ⟨hzero, hpermit, hrejected⟩ := h
    exact ⟨hzero, not_mem_set nofun hpermit, not_mem_set nofun hrejected⟩
  | some semaphore =>
    obtain ⟨hpos, hfree, hsum⟩ := h
    dsimp only [acquirePermit, ServerState.connections] at hi hset hsum ⊢
    cases hacquire : S.tryAcquire semaphore with
    | some semaphore' =>
      have hpermits := S.tryAcquire_some hacquire
      have hserving := hset (.serving true)
      refine ⟨hpos, not_mem_set nofun hfree, ?_⟩
      dsimp only [ServerState.connections]
      simp only [Task.isServing, Bool.false_eq_true, if_true, if_false] at hserving
      omega
    | none =>
      have hserving := hset .rejected
      refine ⟨hpos, not_mem_set nofun hfree, ?_⟩
      dsimp only [ServerState.connections]
      simp only [Task.isServing, Bool.false_eq_true, if_false] at hserving
      omega

private theorem balanced_socketClosed (h : Balanced S maxConnCount s) {i : Nat} {permit : Bool}
    (hi : s.tasks[i]? = some (.serving permit)) :
    Balanced S maxConnCount ⟨release S permit s.connectionLimiter, s.tasks.set i .ended⟩ := by
  obtain ⟨limiter, tasks⟩ := s
  have hserving := countP_set hi .ended
  have hmem : Task.serving permit ∈ tasks := List.mem_of_getElem? hi
  cases limiter with
  | none =>
    obtain ⟨hzero, hpermit, hrejected⟩ := h
    cases permit with
    | true => exact absurd hmem hpermit
    | false => exact ⟨hzero, not_mem_set (by decide) hpermit, not_mem_set (by decide) hrejected⟩
  | some semaphore =>
    obtain ⟨hpos, hfree, hsum⟩ := h
    cases permit with
    | false => exact absurd hmem hfree
    | true =>
      refine ⟨hpos, not_mem_set (by decide) hfree, ?_⟩
      have hpermits := S.dropPermit_permits semaphore
      dsimp only [ServerState.connections] at hi hsum hserving ⊢
      simp only [Task.isServing, Bool.false_eq_true, if_true, if_false] at hserving
      omega

private theorem balanced_step (h : Balanced S maxConnCount s) (event : Event) :
    Balanced S maxConnCount (s.step S event) := by
  cases event with
  | accepted =>
    obtain ⟨_ | semaphore, tasks⟩ := s
    · exact ⟨h.1, not_mem_append (by decide) h.2.1, not_mem_append (by decide) h.2.2⟩
    · refine ⟨h.1, not_mem_append (by decide) h.2.1, ?_⟩
      rw [← h.2.2]
      simp [ServerState.connections, ServerState.step, Task.isServing]
  | acceptFailed => exact h
  | polled i =>
    rw [ServerState.step]
    split
    · exact balanced_polled h ‹_›
    · exact h
  | socketClosed i =>
    rw [ServerState.step]
    split
    · exact balanced_socketClosed h ‹_›
    · exact h

private theorem balanced_run {limiter : Option S.Semaphore}
    (h : connectionLimiter S maxConnCount = some limiter) (events : List Event) :
    Balanced S maxConnCount (run (ServerState.step S) (.started S limiter) events) := by
  have hstep : ∀ s event, Balanced S maxConnCount s → Balanced S maxConnCount (s.step S event) :=
    fun _ event h => balanced_step h event
  exact run_invariant hstep (balanced_started h) events

private theorem rejected_iff (h : Balanced S maxConnCount s) {i : Nat}
    (hi : s.tasks[i]? = some .spawned) :
    (s.step S (.polled i)).tasks[i]? = some .rejected ↔
      0 < maxConnCount ∧ s.connections = maxConnCount := by
  have hlt := (List.getElem?_eq_some_iff.mp hi).1
  obtain ⟨limiter, tasks⟩ := s
  have hstep : (ServerState.step S ⟨limiter, tasks⟩ (.polled i)).tasks[i]? =
      some (acquirePermit S limiter).1 := by
    rw [ServerState.step]
    dsimp only at hi hlt ⊢
    rw [hi]
    exact List.getElem?_set_self hlt
  rw [hstep, Option.some_inj]
  cases limiter with
  | none => exact iff_of_false nofun fun hfull => absurd h.1 (Nat.ne_of_gt hfull.1)
  | some semaphore =>
    obtain ⟨hpos, -, hsum⟩ := h
    cases hacquire : S.tryAcquire semaphore with
    | none =>
      have hnone := S.tryAcquire_none.mp hacquire
      refine iff_of_true (by rw [acquirePermit, hacquire]) ⟨hpos, ?_⟩
      omega
    | some semaphore' =>
      have hsome := S.tryAcquire_some hacquire
      refine iff_of_false (by rw [acquirePermit, hacquire]; exact nofun) fun hfull => ?_
      omega

/-- In every interleaving of the tasks no more connections are served than the limit, and a
connection is turned away exactly while as many are served. -/
theorem connections_limited {limiter : Option S.Semaphore}
    (hlimiter : connectionLimiter S maxConnCount = some limiter) (events : List Event) :
    let s := run (ServerState.step S) (.started S limiter) events
    (0 < maxConnCount → s.connections ≤ maxConnCount) ∧
      (maxConnCount = 0 → .rejected ∉ s.tasks) ∧
      ∀ i, s.tasks[i]? = some .spawned →
        ((s.step S (.polled i)).tasks[i]? = some .rejected ↔
          0 < maxConnCount ∧ s.connections = maxConnCount) := by
  have hbalanced := balanced_run hlimiter events
  intro s
  refine ⟨fun hpos => ?_, fun hzero => ?_, fun i => rejected_iff hbalanced⟩
  · unfold Balanced at hbalanced
    split at hbalanced
    · exact absurd hbalanced.1 (Nat.ne_of_gt hpos)
    · exact hbalanced.2.2 ▸ Nat.le_add_left _ _
  · unfold Balanced at hbalanced
    split at hbalanced
    · exact hbalanced.2.2
    · exact absurd hzero (Nat.ne_of_gt hbalanced.1)

private def newPermits (permits : Nat) : Option Nat :=
  if permits ≤ 2305843009213693951 then some permits else none

private def takePermit (permits : Nat) : Option Nat :=
  if permits = 0 then none else some (permits - 1)

private theorem newPermits_some {n permits : Nat} (h : newPermits n = some permits) :
    permits = n := by
  rw [newPermits] at h
  split at h
  · exact (Option.some.inj h).symm
  · cases h

private theorem takePermit_none {permits : Nat} : takePermit permits = none ↔ permits = 0 := by
  rw [takePermit]
  split
  · exact iff_of_true rfl ‹_›
  · exact iff_of_false nofun ‹_›

private theorem takePermit_some {permits permits' : Nat} (h : takePermit permits = some permits') :
    permits = permits' + 1 := by
  rw [takePermit] at h
  split at h
  · cases h
  · rw [← Option.some.inj h]
    omega

/-- Permits counted by a number. -/
def countedPermits : Semaphores where
  Semaphore := Nat
  new := newPermits
  tryAcquire := takePermit
  dropPermit permits := permits + 1
  availablePermits permits := permits
  new_permits := newPermits_some
  tryAcquire_none := takePermit_none
  tryAcquire_some := takePermit_some
  dropPermit_permits _ := rfl

/-- With one permit the second of two connections is turned away. -/
theorem connections_limited_one :
    ((run (ServerState.step countedPermits) (.started countedPermits (some (1 : Nat)))
        [.accepted, .accepted, .polled 0]).step countedPermits (.polled 1)).tasks[1]? =
      some .rejected := by
  have hlimiter : connectionLimiter countedPermits 1 = some (some (1 : Nat)) := rfl
  obtain ⟨-, -, hrejected⟩ :=
    connections_limited hlimiter [.accepted, .accepted, .polled 0]
  exact (hrejected 1 rfl).mpr ⟨by decide, rfl⟩

end Runs
end DatafusionPostgres.Server
