import Mathlib

/-! # The sequential lock

`seqlock.rs`. A `SeqLock` is a `u64` sequence number and the data it guards; a
`SeqLockWriter::write` makes the number odd, runs its closure on the data and makes it even
again, and a `SeqLockReader::read` copies the data between two loads of the number and keeps
the copy when both loads saw the same even number.

Threads run under a sequentially consistent interleaving: a configuration holds the lock and
one state per thread, and a schedule lists the threads in the order they take steps. Each step
makes at most one access to the lock, so the fences are no-ops. The data is the list of its
words; a closure is the word writes it makes, in order, and copying the data reads one word a
step. A closure that panics is the writes it made before the panic: `catch_unwind` lets the
second `fetch_add` run all the same. -/

namespace FuelCore.Services

/-- `SeqLock`: the sequence number and the words of the data. -/
structure SeqLock (α : Type) where
  sequence : UInt64
  data : List α
  deriving DecidableEq, Repr

variable {α : Type}

/-- `SeqLock::new`. -/
def SeqLock.new (data : List α) : SeqLock α :=
  ⟨0, data⟩

/-- The closure of a `write`, as the word writes it makes: the word's index and its value. -/
abbrev Closure (α : Type) := List (ℕ × α)

/-- The calls a thread makes on its handles, in order. -/
inductive Call (α : Type)
  | write (f : Closure α)
  | read
  deriving DecidableEq, Repr

/-- Where a thread is: between calls, within a `write` after its first `fetch_add` with the
writes of the closure still to make, or within a `read` at the top of its loop or copying the
data after an even first load. -/
inductive Pc (α : Type)
  | idle
  | writing (rest : Closure α)
  | reading
  | copying (start : UInt64) (copied : List α)
  deriving DecidableEq, Repr

def Pc.isWriting : Pc α → Bool
  | .writing _ => true
  | _ => false

def Call.isWrite : Call α → Bool
  | .write _ => true
  | .read => false

/-- A thread: the calls left after the current one, where it is, and what its reads returned,
in order. -/
structure Thread (α : Type) where
  calls : List (Call α)
  pc : Pc α
  returned : List (List α)

def Thread.step (lock : SeqLock α) (thread : Thread α) : Thread α × SeqLock α :=
  match thread.pc, thread.calls with
  | .idle, [] => (thread, lock)
  | .idle, .write f :: calls =>
      -- `lock.sequence.fetch_add(1, AcqRel)`: the write starts
      ({ thread with calls, pc := .writing f }, { lock with sequence := lock.sequence + 1 })
  | .idle, .read :: calls => ({ thread with calls, pc := .reading }, lock)
  | .writing ((i, v) :: rest), _ =>
      ({ thread with pc := .writing rest }, { lock with data := lock.data.set i v })
  | .writing [], _ =>
      -- the closure returned: `lock.sequence.fetch_add(1, Release)`
      ({ thread with pc := .idle }, { lock with sequence := lock.sequence + 1 })
  | .reading, _ =>
      let start := lock.sequence
      -- an odd number is a write in progress: `yield_now` and load again
      if start % 2 = 0 then ({ thread with pc := .copying start [] }, lock)
      else (thread, lock)
  | .copying start copied, _ =>
      if within : copied.length < lock.data.length then
        ({ thread with pc := .copying start (copied ++ [lock.data[copied.length]]) }, lock)
      else
        let last := lock.sequence
        if start = last ∧ start % 2 = 0 then
          ({ thread with pc := .idle, returned := thread.returned ++ [copied] }, lock)
        else ({ thread with pc := .reading }, lock)

abbrev ThreadId := ℕ

structure Config (α : Type) where
  lock : SeqLock α
  threads : ThreadId → Thread α

namespace Config

/-- `SeqLock::new(data)`, with thread `t` to make the calls `programs t`. -/
def new (data : List α) (programs : ThreadId → List (Call α)) : Config α :=
  ⟨SeqLock.new data, fun t => ⟨programs t, .idle, []⟩⟩

def step (config : Config α) (t : ThreadId) : Config α :=
  let next := (config.threads t).step config.lock
  ⟨next.2, Function.update config.threads t next.1⟩

/-- The threads take steps in the order of the schedule. -/
def run (config : Config α) (schedule : List ThreadId) : Config α :=
  schedule.foldl step config

/-- Every configuration the run passes through, the first and the last included. -/
def trace (config : Config α) (schedule : List ThreadId) : List (Config α) :=
  schedule.scanl step config

@[simp] theorem step_lock (config : Config α) (t : ThreadId) :
    (config.step t).lock = ((config.threads t).step config.lock).2 :=
  rfl

@[simp] theorem step_threads_self (config : Config α) (t : ThreadId) :
    (config.step t).threads t = ((config.threads t).step config.lock).1 := by
  simp [step]

@[simp] theorem step_threads_of_ne (config : Config α) {t u : ThreadId} (other : u ≠ t) :
    (config.step t).threads u = config.threads u := by
  simp [step, Function.update_of_ne other]

end Config

/-! ## What one step can do -/

namespace Thread

variable (lock : SeqLock α)

/-- The `fetch_add`s the thread has left: two for each write it has not started, one for the
write it is in. -/
def pendingAdds (thread : Thread α) : ℕ :=
  2 * thread.calls.countP Call.isWrite + if thread.pc.isWriting then 1 else 0

/-- A step leaves the lock as it is, adds one to the sequence number as the thread starts or
ends a write, or writes a word of the data from within a write. -/
theorem step_cases (thread : Thread α) :
    let next := thread.step lock
    (next.2 = lock ∧ next.1.pendingAdds = thread.pendingAdds ∧
        next.1.pc.isWriting = thread.pc.isWriting) ∨
      (next.2.data = lock.data ∧ next.2.sequence = lock.sequence + 1 ∧
        next.1.pendingAdds + 1 = thread.pendingAdds ∧
        next.1.pc.isWriting = !thread.pc.isWriting) ∨
      (next.2.sequence = lock.sequence ∧ thread.pc.isWriting = true ∧
        next.1.pc.isWriting = true ∧ next.1.pendingAdds = thread.pendingAdds) := by
  obtain ⟨calls, pc, returned⟩ := thread
  cases pc with
  | idle =>
      cases calls with
      | nil => exact .inl ⟨rfl, rfl, rfl⟩
      | cons call calls =>
          cases call with
          | write f =>
              refine .inr (.inl ⟨rfl, rfl, ?_, rfl⟩)
              simp [step, pendingAdds, Pc.isWriting, Call.isWrite, List.countP_cons]
              omega
          | read => exact .inl ⟨rfl, by simp [step, pendingAdds, Pc.isWriting, Call.isWrite], rfl⟩
  | writing rest =>
      cases rest with
      | nil => exact .inr (.inl ⟨rfl, rfl, rfl, rfl⟩)
      | cons write rest => exact .inr (.inr ⟨rfl, rfl, rfl, rfl⟩)
  | reading =>
      left
      simp only [step]
      split <;> exact ⟨rfl, rfl, rfl⟩
  | copying start copied =>
      left
      simp only [step]
      split_ifs <;> exact ⟨rfl, rfl, rfl⟩

/-- A thread that only reads: its calls are reads and it is not within a write. -/
def Reader (thread : Thread α) : Prop :=
  (∀ call ∈ thread.calls, call.isWrite = false) ∧ thread.pc.isWriting = false

theorem Reader.step {thread : Thread α} (reader : thread.Reader) :
    (thread.step lock).2 = lock ∧ (thread.step lock).1.Reader := by
  obtain ⟨calls, pc, returned⟩ := thread
  obtain ⟨reads, notWriting⟩ := reader
  cases pc with
  | idle =>
      cases calls with
      | nil => exact ⟨rfl, reads, rfl⟩
      | cons call calls =>
          cases call with
          | write f => simp [Call.isWrite] at reads
          | read => exact ⟨rfl, fun call member => reads call (.tail _ member), rfl⟩
  | writing rest => cases notWriting
  | reading =>
      simp only [Thread.step]
      split <;> exact ⟨rfl, reads, rfl⟩
  | copying start copied =>
      simp only [Thread.step]
      split_ifs <;> exact ⟨rfl, reads, rfl⟩

/-- A read in progress: its first load was even and is no greater than the sequence number,
and while the number still equals it the words copied so far are those of the data. -/
def Snapshot (thread : Thread α) : Prop :=
  ∀ start copied, thread.pc = .copying start copied →
    start.toNat % 2 = 0 ∧ start.toNat ≤ lock.sequence.toNat ∧
      (start = lock.sequence → copied <+: lock.data)

theorem even_iff_toNat (sequence : UInt64) : sequence % 2 = 0 ↔ sequence.toNat % 2 = 0 := by
  rw [← UInt64.toNat_inj, UInt64.toNat_mod]
  rfl

theorem Snapshot.step {thread : Thread α} (snapshot : thread.Snapshot lock) :
    (thread.step lock).1.Snapshot (thread.step lock).2 := by
  obtain ⟨calls, pc, returned⟩ := thread
  cases pc with
  | idle =>
      cases calls with
      | nil => exact snapshot
      | cons call calls => cases call <;> (intro start copied copying; cases copying)
  | writing rest => cases rest <;> (intro start copied copying; cases copying)
  | reading =>
      simp only [Thread.step]
      split
      next even =>
        intro start copied copying
        cases copying
        exact ⟨(even_iff_toNat _).mp even, le_rfl, fun _ => List.nil_prefix⟩
      next => exact snapshot
  | copying start copied =>
      obtain ⟨even, below, copiedPrefix⟩ := snapshot start copied rfl
      simp only [Thread.step]
      split_ifs with within
      · intro start' copied' copying
        cases copying
        exact ⟨even, below, fun unchanged => List.concat_get_prefix (copiedPrefix unchanged) within⟩
      all_goals intro start' copied' copying; cases copying

theorem Snapshot.advance {thread : Thread α} {lock' : SeqLock α} (snapshot : thread.Snapshot lock)
    (advances : lock' = lock ∨ lock'.sequence.toNat = lock.sequence.toNat + 1 ∨
      lock'.sequence = lock.sequence ∧ lock.sequence.toNat % 2 = 1) :
    thread.Snapshot lock' := by
  intro start copied copying
  obtain ⟨even, below, copiedPrefix⟩ := snapshot start copied copying
  rcases advances with same | added | ⟨kept, odd⟩
  · subst same
    exact ⟨even, below, copiedPrefix⟩
  · refine ⟨even, by omega, fun equal => ?_⟩
    have := congrArg UInt64.toNat equal
    omega
  · refine ⟨even, kept ▸ below, fun equal => ?_⟩
    have := congrArg UInt64.toNat (equal.trans kept)
    omega

theorem step_returned (thread : Thread α) :
    (thread.step lock).1.returned = thread.returned ∨
      ∃ start copied, thread.pc = .copying start copied ∧ lock.data.length ≤ copied.length ∧
        start = lock.sequence ∧ start % 2 = 0 ∧
        (thread.step lock).1.returned = thread.returned ++ [copied] := by
  obtain ⟨calls, pc, returned⟩ := thread
  cases pc with
  | idle => cases calls with
    | nil => exact .inl rfl
    | cons call calls => cases call <;> exact .inl rfl
  | writing rest => cases rest <;> exact .inl rfl
  | reading =>
      simp only [Thread.step]
      split <;> exact .inl rfl
  | copying start copied =>
      simp only [Thread.step]
      split_ifs with within returns
      · exact .inl rfl
      · exact .inr ⟨start, copied, rfl, Nat.le_of_not_lt within, returns.1, returns.2, rfl⟩
      · exact .inl rfl

theorem Snapshot.returns {thread : Thread α} {value : List α} (snapshot : thread.Snapshot lock)
    (returns : (thread.step lock).1.returned = thread.returned ++ [value]) :
    value = lock.data ∧ lock.sequence.toNat % 2 = 0 := by
  rcases step_returned lock thread with same | ⟨start, copied, copying, copiedAll, unchanged,
    even, appended⟩
  · rw [same] at returns
    simpa using congrArg List.length returns
  · rw [appended, List.append_cancel_left_eq, List.singleton_inj] at returns
    subst returns unchanged
    have copiedPrefix := (snapshot _ copied copying).2.2 rfl
    exact ⟨copiedPrefix.eq_of_length (le_antisymm copiedPrefix.length_le copiedAll),
      (even_iff_toNat _).mp even⟩

end Thread

/-! ## One writer

The documentation of `SeqLockWriter` asks for a single writer. With every write made by one
thread `w`, the parity of the sequence number says whether `w` is within a write, and a read
that returns saw no write start during its copy. The counter is a `u64`: the calls must make
fewer than `2 ^ 64` `fetch_add`s for it not to wrap. -/

namespace Config

variable {w : ThreadId}

/-- The invariant of the configurations a single writer `w` reaches. -/
structure Consistent (w : ThreadId) (config : Config α) : Prop where
  readers : ∀ t, t ≠ w → (config.threads t).Reader
  fits : config.lock.sequence.toNat + (config.threads w).pendingAdds < 2 ^ 64
  parity : config.lock.sequence.toNat % 2 = 1 ↔ (config.threads w).pc.isWriting = true
  snapshots : ∀ t, (config.threads t).Snapshot config.lock

theorem consistent_new (data : List α) (programs : ThreadId → List (Call α))
    (readsOnly : ∀ t, t ≠ w → ∀ call ∈ programs t, call.isWrite = false)
    (fits : 2 * (programs w).countP Call.isWrite < 2 ^ 64) :
    Consistent w (new data programs) where
  readers t other := ⟨readsOnly t other, rfl⟩
  fits := by simpa [new, SeqLock.new, Thread.pendingAdds, Pc.isWriting] using fits
  parity := by simp [new, SeqLock.new, Pc.isWriting]
  snapshots t start copied copying := by cases copying

theorem Consistent.step_reader {config : Config α} (consistent : Consistent w config)
    {u : ThreadId} (other : u ≠ w) : Consistent w (config.step u) := by
  obtain ⟨unchanged, stillReader⟩ := (consistent.readers u other).step config.lock
  have sameLock : (config.step u).lock = config.lock := unchanged
  have sameWriter : (config.step u).threads w = config.threads w :=
    step_threads_of_ne config other.symm
  refine ⟨fun t notWriter => ?_, ?_, ?_, fun t => ?_⟩
  · by_cases stepped : t = u
    · subst stepped
      simpa using stillReader
    · simpa [step_threads_of_ne config stepped] using consistent.readers t notWriter
  · rw [sameLock, sameWriter]
    exact consistent.fits
  · rw [sameLock, sameWriter]
    exact consistent.parity
  · by_cases stepped : t = u
    · subst stepped
      simpa using (consistent.snapshots t).step config.lock
    · rw [step_threads_of_ne config stepped, sameLock]
      exact consistent.snapshots t

/-- A step of the writer: by `step_cases`, the sequence number moves without wrapping and keeps
its parity in step with the writer, and a word is written only under an odd number. -/
theorem Consistent.step_writer {config : Config α} (consistent : Consistent w config) :
    Consistent w (config.step w) := by
  have fits := consistent.fits
  have parity := consistent.parity
  have writerStep := Thread.step_cases config.lock (config.threads w)
  have advances : (config.step w).lock = config.lock ∨
      (config.step w).lock.sequence.toNat = config.lock.sequence.toNat + 1 ∨
      (config.step w).lock.sequence = config.lock.sequence ∧
        config.lock.sequence.toNat % 2 = 1 := by
    rcases writerStep with ⟨same, -, -⟩ | ⟨-, added, fewer, -⟩ | ⟨kept, writing, -, -⟩
    · exact .inl same
    · refine .inr (.inl ?_)
      rw [step_lock, added, UInt64.toNat_add, UInt64.toNat_one]
      omega
    · exact .inr (.inr ⟨kept, parity.mpr writing⟩)
  refine ⟨fun t notWriter => ?_, ?_, ?_, fun t => ?_⟩
  · simpa [step_threads_of_ne config notWriter] using consistent.readers t notWriter
  · rcases writerStep with ⟨same, pending, -⟩ | ⟨-, added, fewer, -⟩ | ⟨kept, -, -, pending⟩
    · simpa [same, pending] using fits
    · simp only [step_lock, step_threads_self, added, UInt64.toNat_add, UInt64.toNat_one]
      omega
    · simpa [kept, pending] using fits
  · rcases writerStep with ⟨same, -, writing⟩ | ⟨-, added, fewer, flipped⟩ |
      ⟨kept, wasWriting, writing, -⟩
    · simpa [same, writing] using parity
    · simp only [step_lock, step_threads_self, added, UInt64.toNat_add, UInt64.toNat_one,
        flipped]
      have noWrap : config.lock.sequence.toNat + 1 < 2 ^ 64 := by omega
      rw [Nat.mod_eq_of_lt noWrap]
      cases writes : (config.threads w).pc.isWriting <;> simp_all <;> omega
    · rw [step_lock, step_threads_self, kept, writing]
      exact iff_of_true (parity.mpr wasWriting) rfl
  · by_cases stepped : t = w
    · subst stepped
      simpa using (consistent.snapshots t).step config.lock
    · rw [step_threads_of_ne config stepped]
      exact (consistent.snapshots t).advance _ advances

theorem Consistent.step {config : Config α} (consistent : Consistent w config) (u : ThreadId) :
    Consistent w (config.step u) := by
  by_cases writer : u = w
  · subst writer
    exact consistent.step_writer
  · exact consistent.step_reader writer

theorem Consistent.run {config : Config α} (consistent : Consistent w config)
    (schedule : List ThreadId) : Consistent w (config.run schedule) := by
  induction schedule generalizing config with
  | nil => exact consistent
  | cons u schedule induction => exact induction (consistent.step u)

/-- Under one writer, no two threads are ever within a write at once, and a read returns the
data of the instant it ends, under an even number with no write in progress. -/
theorem Consistent.read_returns {config : Config α} (consistent : Consistent w config)
    {t : ThreadId} {value : List α}
    (returns : ((config.step t).threads t).returned = (config.threads t).returned ++ [value]) :
    value = config.lock.data ∧ (config.threads w).pc.isWriting = false := by
  rw [step_threads_self] at returns
  obtain ⟨read, even⟩ := (consistent.snapshots t).returns config.lock returns
  refine ⟨read, ?_⟩
  cases writing : (config.threads w).pc.isWriting
  · rfl
  · have := consistent.parity.mpr writing
    omega

/-- With every write made by thread `w`, and fewer than `2 ^ 63` of them, in every run at most
one thread is within a write and every read returns the data as it is at the step that returns
it, with no write in progress. -/
theorem single_writer_reads_are_snapshots (data : List α) (programs : ThreadId → List (Call α))
    (readsOnly : ∀ t, t ≠ w → ∀ call ∈ programs t, call.isWrite = false)
    (fits : 2 * (programs w).countP Call.isWrite < 2 ^ 64) (schedule : List ThreadId) :
    let config := (new data programs).run schedule
    (∀ t, t ≠ w → (config.threads t).pc.isWriting = false) ∧
      ∀ t value, ((config.step t).threads t).returned = (config.threads t).returned ++ [value] →
        value = config.lock.data ∧ (config.threads w).pc.isWriting = false := by
  have consistent := (consistent_new data programs readsOnly fits).run schedule
  exact ⟨fun t notWriter => (consistent.readers t notWriter).2,
    fun _ _ returns => consistent.read_returns returns⟩

/-- Thread 0 writes ones to both words while every other thread reads. -/
def oneWriter (t : ThreadId) : List (Call ℕ) :=
  if t = 0 then [.write [(0, 1), (1, 1)]] else [.read]

theorem one_writer_reads_are_snapshots :
    (∀ t, t ≠ 0 → ∀ call ∈ oneWriter t, call.isWrite = false) ∧
    2 * (oneWriter 0).countP Call.isWrite < 2 ^ 64 ∧
    (let config := (new [0, 0] oneWriter).run [0, 1, 0, 1, 0, 1, 1]
     (∀ t, t ≠ 0 → (config.threads t).pc.isWriting = false) ∧
       ∀ t value, ((config.step t).threads t).returned = (config.threads t).returned ++ [value] →
         value = config.lock.data ∧ (config.threads 0).pc.isWriting = false) := by
  have readsOnly : ∀ t, t ≠ 0 → ∀ call ∈ oneWriter t, call.isWrite = false := by
    intro t notWriter call member
    simp only [oneWriter, notWriter, if_false, List.mem_singleton] at member
    rw [member]
    rfl
  have fits : 2 * (oneWriter 0).countP Call.isWrite < 2 ^ 64 := by decide
  exact ⟨readsOnly, fits, single_writer_reads_are_snapshots [0, 0] oneWriter readsOnly fits _⟩

end Config

/-! ## Two writers

`write` takes `&self` and `SeqLockWriter` is `Sync`, so two threads can write through one
handle. Each `fetch_add` then moves the number by one whoever makes it, and two writes in
progress leave it even. -/

/-- Two threads write both words of `[0, 0]` through one handle, with ones and with twos, while
a third reads. -/
def twoWriters : Config ℕ :=
  Config.new [0, 0] fun t =>
    match t with
    | 0 => [.write [(0, 1), (1, 1)]]
    | 1 => [.write [(0, 2), (1, 2)]]
    | 2 => [.read]
    | _ => []

/-- Both writes start; the first writes its first word; the read loads 2 and copies the first
word; the second write writes both words and the first its second; the read copies the second
word, loads 2 again and returns; the writes end. -/
def tornSchedule : List ThreadId :=
  [0, 1, 0, 2, 2, 2, 1, 1, 0, 2, 2, 1, 0]

theorem shared_writer_lets_read_return_torn_data :
    (∃ config ∈ twoWriters.trace tornSchedule, (config.threads 0).pc = .writing [(1, 1)] ∧
      (config.threads 1).pc = .writing [(1, 2)] ∧ config.lock.sequence = 2) ∧
    ((twoWriters.run tornSchedule).threads 2).returned = [[1, 1]] ∧
    ∀ config ∈ twoWriters.trace tornSchedule, config.lock.data ≠ [1, 1] := by
  decide

end FuelCore.Services
