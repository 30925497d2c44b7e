import Eris.Foundation.Transition

/-!
# One task at a time for a key

`core/src/realtime/keyedSerial.ts`, `KeyedSerial`.  A task of a key waits for
the tail of the one before it, and the tail of the last one stands in the map
until its clean-up.  What a settled promise runs is a step of its own, and
these steps come in any order, between any calls of `run` and any tasks that
end.
-/

namespace Eris.Flow.SerialTasks

open Foundation.Transition

/-! ## Tasks and their promises -/

/-- A task ends with its `result`, its tail is fulfilled after that, and the
clean-up runs after the tail. -/
inductive Phase where
  | waiting
  | running
  | settled (failed : Bool)
  | passed
  | cleaned
deriving DecidableEq

def Phase.rank : Phase → ℕ
  | .waiting => 0
  | .running => 1
  | .settled _ => 2
  | .passed => 3
  | .cleaned => 4

/-- `previous` is the place of the task whose tail this one waits for, none
where it is `Promise.resolve()`. -/
structure Task where
  previous : Option ℕ
  phase : Phase
deriving DecidableEq

/-- The tasks of one key, and what the map holds for it. -/
structure Chain where
  tasks : List Task
  tail : Option ℕ
deriving DecidableEq

def Chain.run (chain : Chain) : Chain where
  tasks := chain.tasks ++ [⟨chain.tail, .waiting⟩]
  tail := some chain.tasks.length

/-- `Promise.resolve()` is fulfilled from the start. -/
def Chain.fulfilled (chain : Chain) : Option ℕ → Bool
  | none => true
  | some place => chain.tasks[place]?.any (3 ≤ ·.phase.rank)

/-- What befalls a task: it ends, or what waits for a promise of it runs. -/
inductive Move where
  | settle (failed : Bool)
  | start
  | pass
  | clean

/-- The phase a task comes to, where the move is possible. -/
def Chain.advance (chain : Chain) (task : Task) : Move → Option Phase
  | .settle failed =>
      if task.phase = .running then some (.settled failed) else none
  | .start =>
      if task.phase = .waiting ∧ chain.fulfilled task.previous then
        some .running
      else none
  | .pass => if task.phase.rank = 2 then some .passed else none
  | .clean => if task.phase = .passed then some .cleaned else none

/-- The clean-up deletes the tail if it is still the task's own. -/
def Chain.moved (chain : Chain) (place : ℕ) (task : Task) (phase : Phase) :
    Chain where
  tasks := chain.tasks.set place { task with phase }
  tail :=
    if phase = .cleaned ∧ chain.tail = some place then none else chain.tail

def Chain.move (chain : Chain) (place : ℕ) (move : Move) : Option Chain := do
  let task ← chain.tasks[place]?
  let phase ← chain.advance task move
  return chain.moved place task phase

/-- `tails`, with the tasks they came from. -/
abbrev KeyedSerial (Key : Type) := Key → Chain

inductive Label (Key : Type) where
  | run (key : Key)
  | move (key : Key) (place : ℕ) (move : Move)

def perform
    {Key : Type} [DecidableEq Key] (serial : KeyedSerial Key) :
    Label Key → Option (KeyedSerial Key)
  | .run key => some (Function.update serial key (serial key).run)
  | .move key place move =>
      ((serial key).move place move).map (Function.update serial key)

def serials (Key : Type) [DecidableEq Key] :
    System (KeyedSerial Key) (Label Key) where
  initial serial := serial = fun _ => ⟨[], none⟩
  step serial label next := perform serial label = some next

section Chain

variable {chain next : Chain} {task before : Task} {place other : ℕ}
    {move : Move} {phase : Phase} {previous : Option ℕ}

theorem rank_advance (advances : chain.advance task move = some phase) :
    phase.rank = task.phase.rank + 1 := by
  unfold Chain.advance at advances
  split at advances <;> split at advances <;> cases advances
  · next running => rw [running]; rfl
  · next starts => rw [starts.1]; rfl
  · next settled => rw [settled]; rfl
  · next passed => rw [passed]; rfl

theorem fulfilled_of_advance
    (advances : chain.advance task move = some phase)
    (started : task.phase.rank = 0) :
    chain.fulfilled task.previous = true := by
  unfold Chain.advance at advances
  split at advances <;> split at advances
  · next running => rw [running] at started; cases started
  · cases advances
  · next starts => exact starts.2
  · cases advances
  · next settled => rw [settled] at started; cases started
  · cases advances
  · next passed => rw [passed] at started; cases started
  · cases advances

theorem move_eq (found : chain.tasks[place]? = some task) :
    chain.move place move =
      (chain.advance task move).map (chain.moved place task) := by
  simp only [Chain.move, found, Option.bind_eq_bind, Option.bind_some]
  cases chain.advance task move <;> rfl

theorem move_cases (moves : chain.move place move = some next) :
    ∃ task phase, chain.tasks[place]? = some task ∧
      chain.advance task move = some phase ∧
        next = chain.moved place task phase := by
  simp only [Chain.move, Option.bind_eq_bind, Option.bind_eq_some_iff] at moves
  rcases moves with ⟨task, found, phase, advances, moved⟩
  exact ⟨task, phase, found, advances, (Option.some.inj moved).symm⟩

theorem fulfilled_some :
    chain.fulfilled (some place) = true ↔
      ∃ task, chain.tasks[place]? = some task ∧ 3 ≤ task.phase.rank := by
  simp [Chain.fulfilled, Option.any_eq_true]

/-- A task after a move of the one at `place`. -/
theorem tasks_moved
    (found : chain.tasks[place]? = some task) {later : Task}
    (known : (chain.moved place task phase).tasks[other]? = some later) :
    other = place ∧ later = { task with phase } ∨
      other ≠ place ∧ chain.tasks[other]? = some later := by
  rcases List.getElem?_eq_some_iff.1 found with ⟨bound, _⟩
  by_cases same : other = place
  · subst same
    rw [Chain.moved, List.getElem?_set_self bound] at known
    exact .inl ⟨rfl, (Option.some.inj known).symm⟩
  · rw [Chain.moved, List.getElem?_set_ne (Ne.symm same)] at known
    exact .inr ⟨same, known⟩

theorem moved_here (found : chain.tasks[place]? = some task) :
    (chain.moved place task phase).tasks[place]? =
      some { task with phase } := by
  rcases List.getElem?_eq_some_iff.1 found with ⟨bound, _⟩
  exact List.getElem?_set_self bound

theorem moved_elsewhere (different : other ≠ place) :
    (chain.moved place task phase).tasks[other]? = chain.tasks[other]? :=
  List.getElem?_set_ne different.symm

/-- Only the task which has moved lets another one in. -/
theorem fulfilled_moved
    (found : chain.tasks[place]? = some task)
    (rank : phase.rank = task.phase.rank + 1) :
    (chain.moved place task phase).fulfilled previous = true ↔
      chain.fulfilled previous = true ∨
        previous = some place ∧ 2 ≤ task.phase.rank := by
  cases previous with
  | none => simp [Chain.fulfilled]
  | some earlier =>
      by_cases same : earlier = place
      · subst same
        simp [Chain.fulfilled, moved_here found, found, rank]
        omega
      · simp [Chain.fulfilled, moved_elsewhere same, same]

theorem tasks_run (known : chain.run.tasks[place]? = some task) :
    chain.tasks[place]? = some task ∨
      place = chain.tasks.length ∧ task = ⟨chain.tail, .waiting⟩ := by
  rw [Chain.run, List.getElem?_append] at known
  split at known
  · exact .inl known
  · next beyond =>
      rcases List.getElem?_eq_some_iff.1 known with ⟨bound, same⟩
      simp only [List.length_singleton, Nat.lt_one_iff] at bound
      refine .inr ⟨by omega, ?_⟩
      simpa [bound] using same.symm

theorem fulfilled_run :
    chain.run.fulfilled previous = true ↔ chain.fulfilled previous = true := by
  cases previous with
  | none => rfl
  | some earlier =>
      rw [fulfilled_some, fulfilled_some]
      constructor
      · rintro ⟨before, known, passed⟩
        rcases tasks_run known with known | ⟨_, rfl⟩
        · exact ⟨before, known, passed⟩
        · cases passed
      · rintro ⟨before, known, passed⟩
        refine ⟨before, ?_, passed⟩
        rcases List.getElem?_eq_some_iff.1 known with ⟨bound, _⟩
        rw [Chain.run, List.getElem?_append_left bound, known]

/-! ## The invariant of a chain -/

def Chain.At (chain : Chain) (place : ℕ) (task : Task) : Prop :=
  chain.tasks[place]? = some task

structure Chain.Sound (chain : Chain) : Prop where
  linked : ∀ {place earlier task}, chain.At place task →
      task.previous = some earlier → place = earlier + 1
  ordered : ∀ {place earlier task before}, chain.At place task →
      chain.At earlier before → earlier < place →
        chain.fulfilled task.previous → 3 ≤ before.phase.rank
  started : ∀ {place task}, chain.At place task → 1 ≤ task.phase.rank →
      chain.fulfilled task.previous
  last : ∀ {place}, chain.tail = some place → place + 1 = chain.tasks.length ∧
      ∀ task, chain.At place task → task.phase.rank < 4
  done : chain.tail = none → ∀ task ∈ chain.tasks, 3 ≤ task.phase.rank

theorem Chain.Sound.passed_before
    (sound : chain.Sound) (known : chain.tasks[place]? = some task)
    (begun : 1 ≤ task.phase.rank) (sooner : chain.tasks[other]? = some before)
    (earlier : other < place) : 3 ≤ before.phase.rank :=
  sound.ordered known sooner earlier (sound.started known begun)

theorem Chain.Sound.passed_of_tail
    (sound : chain.Sound) (free : chain.fulfilled chain.tail = true) :
    ∀ before ∈ chain.tasks, 3 ≤ before.phase.rank := by
  intro before listed
  cases held : chain.tail with
  | none => exact sound.done held before listed
  | some place =>
      rw [held] at free
      rcases fulfilled_some.1 free with ⟨task, known, passed⟩
      rcases List.getElem?_of_mem listed with ⟨other, sooner⟩
      have bound := (List.getElem?_eq_some_iff.1 sooner).1
      have last := (sound.last held).1
      rcases Nat.lt_or_ge other place with earlier | later
      · exact sound.passed_before known (by omega) sooner earlier
      · have same : other = place := by omega
        subst same
        cases known.symm.trans sooner
        exact passed

theorem Chain.Sound.run (sound : chain.Sound) : chain.run.Sound where
  linked known waits := by
    rcases tasks_run known with old | ⟨rfl, rfl⟩
    · exact sound.linked old waits
    · exact (sound.last waits).1.symm
  ordered := by
    intro place earlier task before known sooner within free
    rw [fulfilled_run] at free
    rcases tasks_run sooner with old | ⟨rfl, _⟩
    · rcases tasks_run known with oldToo | ⟨_, rfl⟩
      · exact sound.ordered oldToo old within free
      · exact sound.passed_of_tail free before (List.mem_of_getElem? old)
    · rcases tasks_run known with oldToo | ⟨rfl, _⟩
      · exact absurd (List.getElem?_eq_some_iff.1 oldToo).1 within.not_gt
      · exact absurd within (lt_irrefl _)
  started := by
    intro place task known begun
    rw [fulfilled_run]
    rcases tasks_run known with old | ⟨_, rfl⟩
    · exact sound.started old begun
    · cases begun
  last := by
    intro place held
    cases held
    refine ⟨by simp [Chain.run], ?_⟩
    intro task known
    rcases tasks_run known with old | ⟨_, rfl⟩
    · exact absurd (List.getElem?_eq_some_iff.1 old).1 (lt_irrefl _)
    · exact Nat.succ_pos 3
  done none := by cases none

theorem Chain.Sound.moved
    (sound : chain.Sound) (found : chain.tasks[place]? = some task)
    (advances : chain.advance task move = some phase) :
    (chain.moved place task phase).Sound := by
  have rank := rank_advance advances
  have begun : ∀ {previous}, chain.fulfilled previous = true →
      (chain.moved place task phase).fulfilled previous = true :=
    fun free => (fulfilled_moved found rank).2 (.inl free)
  constructor
  · intro other earlier later known waits
    rcases tasks_moved found known with ⟨rfl, rfl⟩ | ⟨_, known⟩
    · exact sound.linked found waits
    · exact sound.linked known waits
  · intro other earlier later before known sooner within free
    have old : ∃ held, chain.tasks[other]? = some held ∧
        held.previous = later.previous := by
      rcases tasks_moved found known with ⟨rfl, rfl⟩ | ⟨_, known⟩
      · exact ⟨task, found, rfl⟩
      · exact ⟨later, known, rfl⟩
    rcases old with ⟨held, heldKnown, same⟩
    rw [← same, fulfilled_moved found rank] at free
    rcases tasks_moved found sooner with ⟨rfl, rfl⟩ | ⟨different, sooner⟩
    · change 3 ≤ phase.rank
      rcases free with free | ⟨_, settled⟩
      · have passed := sound.ordered heldKnown found within free
        omega
      · omega
    · rcases free with free | ⟨waits, settled⟩
      · exact sound.ordered heldKnown sooner within free
      · have next := sound.linked heldKnown waits
        exact sound.passed_before found (by omega) sooner (by omega)
  · intro other later known started
    rcases tasks_moved found known with ⟨rfl, rfl⟩ | ⟨_, known⟩
    · change Chain.fulfilled _ task.previous = true
      apply begun
      rcases Nat.eq_zero_or_pos task.phase.rank with waited | running
      · exact fulfilled_of_advance advances waited
      · exact sound.started found running
    · exact begun (sound.started known started)
  · intro other held
    unfold Chain.moved at held
    dsimp only at held
    split at held
    · cases held
    · next kept =>
        rcases sound.last held with ⟨last, unfinished⟩
        refine ⟨by simpa [Chain.moved] using last, ?_⟩
        intro later known
        rcases tasks_moved found known with ⟨rfl, rfl⟩ | ⟨_, known⟩
        · by_contra finished
          refine kept ⟨?_, held⟩
          cases phase <;> simp [Phase.rank] at finished ⊢
        · exact unfinished later known
  · intro none later listed
    rcases List.getElem?_of_mem listed with ⟨other, known⟩
    unfold Chain.moved at none
    dsimp only at none
    split at none
    · next cleaned =>
        have last := (sound.last cleaned.2).1
        have passed : phase.rank = 4 := by rw [cleaned.1]; rfl
        rcases tasks_moved found known with ⟨rfl, rfl⟩ | ⟨different, known⟩
        · exact passed.symm ▸ Nat.le_succ 3
        · have bound := (List.getElem?_eq_some_iff.1 known).1
          exact sound.passed_before found (by omega) known (by omega)
    · have old := sound.done none
      rcases tasks_moved found known with ⟨rfl, rfl⟩ | ⟨_, known⟩
      · have passed := old task (List.mem_of_getElem? found)
        change 3 ≤ phase.rank
        omega
      · exact old later (List.mem_of_getElem? known)

theorem Chain.Sound.fulfilled_iff
    (sound : chain.Sound) (known : chain.At place task) :
    chain.fulfilled task.previous = true ↔
      ∀ earlier before, earlier < place → chain.At earlier before →
        3 ≤ before.phase.rank := by
  constructor
  · intro free earlier before within sooner
    exact sound.ordered known sooner within free
  · intro passed
    cases waits : task.previous with
    | none => rfl
    | some earlier =>
        have next := sound.linked known waits
        have bound := (List.getElem?_eq_some_iff.1 known).1
        have inside : earlier < chain.tasks.length := by omega
        refine fulfilled_some.2 ⟨chain.tasks[earlier], ?_, ?_⟩
        · exact List.getElem?_eq_getElem inside
        · exact passed earlier _ (by omega) (List.getElem?_eq_getElem inside)

/-! ## Where nothing is left to run -/

/-- No promise of the chain has anything left to run. -/
def Chain.Drained (chain : Chain) : Prop :=
  ∀ place, chain.move place .start = none ∧
    chain.move place .pass = none ∧ chain.move place .clean = none

theorem Chain.Drained.cleaned
    (drained : chain.Drained) (known : chain.At place task)
    (ended : 2 ≤ task.phase.rank) : ¬ task.phase.rank < 4 := by
  intro unfinished
  rcases drained place with ⟨_, pass, clean⟩
  rw [move_eq known, Option.map_eq_none_iff] at pass clean
  cases phase : task.phase <;>
    simp [Chain.advance, phase, Phase.rank] at pass clean ended unfinished

theorem Chain.Sound.starts
    (sound : chain.Sound) (known : chain.At place task) :
    (chain.move place .start).isSome ↔ task.phase = .waiting ∧
        ∀ earlier before, earlier < place → chain.At earlier before →
          3 ≤ before.phase.rank := by
  rw [move_eq known, Option.isSome_map, ← sound.fulfilled_iff known,
    Chain.advance]
  split
  · next starts => simp [starts]
  · next blocked => simpa using blocked

theorem Chain.Sound.goesOn
    (sound : chain.Sound) (drained : chain.Drained)
    (known : chain.At place task) (unfinished : task.phase.rank < 2)
    (ended : ∀ earlier before, earlier < place → chain.At earlier before →
        2 ≤ before.phase.rank) :
    task.phase = .running := by
  have passed : ∀ earlier before, earlier < place → chain.At earlier before →
      3 ≤ before.phase.rank := by
    intro earlier before within sooner
    have cleaned := drained.cleaned sooner (ended earlier before within sooner)
    omega
  cases phase : task.phase with
  | waiting =>
      have started := (sound.starts known).2 ⟨phase, passed⟩
      rw [(drained place).1] at started
      cases started
  | running => rfl
  | _ => simp [phase, Phase.rank] at unfinished

/-- How many phases the tasks have still to come to. -/
def Chain.remaining (chain : Chain) : ℕ :=
  (chain.tasks.map (4 - ·.phase.rank)).sum

theorem remaining_move (moves : chain.move place move = some next) :
    next.remaining + 1 = chain.remaining := by
  rcases move_cases moves with ⟨task, phase, found, advances, rfl⟩
  rcases List.getElem?_eq_some_iff.1 found with ⟨bound, same⟩
  have before := List.getElem_cons_eraseIdx_perm bound
  have after := List.set_perm_cons_eraseIdx bound { task with phase }
  have rank := rank_advance advances
  have within : phase.rank ≤ 4 := by cases phase <;> simp [Phase.rank]
  rw [same] at before
  rw [Chain.remaining, Chain.remaining, Chain.moved, (after.map _).sum_eq,
    ← (before.map _).sum_eq]
  simp only [List.map_cons, List.sum_cons]
  omega

/-- A task is queued or in flight. -/
def Chain.Queued (chain : Chain) : Prop :=
  ∃ task ∈ chain.tasks, task.phase.rank < 2

/-- The last task has ended, and its clean-up is still to run. -/
def Chain.CleaningUp (chain : Chain) : Prop :=
  ∃ place task, chain.tail = some place ∧ chain.At place task ∧
    2 ≤ task.phase.rank ∧ task.phase.rank < 4

theorem Chain.Sound.held (sound : chain.Sound) :
    chain.tail ≠ none ↔ chain.Queued ∨ chain.CleaningUp := by
  constructor
  · intro entry
    rcases Option.ne_none_iff_exists'.1 entry with ⟨place, held⟩
    rcases sound.last held with ⟨last, unfinished⟩
    have inside : place < chain.tasks.length := by omega
    have known := List.getElem?_eq_getElem inside
    rcases Nat.lt_or_ge chain.tasks[place].phase.rank 2 with queued | ended
    · exact .inl ⟨_, List.getElem_mem inside, queued⟩
    · exact .inr ⟨place, _, held, known, ended, unfinished _ known⟩
  · rintro (⟨task, listed, queued⟩ | ⟨place, task, held, _⟩) none
    · have passed := sound.done none task listed
      omega
    · rw [none] at held
      cases held

end Chain

section Laws

variable {Key : Type} [DecidableEq Key] {serial : KeyedSerial Key}

theorem sound_of_reachable
    (reachable : (serials Key).Reachable System.anything serial) :
    ∀ key, (serial key).Sound := by
  refine
    @System.Reachable.invariant _ _ _ _ (fun serial => ∀ key, (serial key).Sound)
      _ ?_ ?_ reachable
  · rintro start rfl key
    constructor
    · intro _ _ _ known
      cases known
    · intro _ _ _ _ known
      cases known
    · intro _ _ known
      cases known
    · intro _ held
      cases held
    · intro _ _ listed
      cases listed
  · intro state label next sound _ performed key
    cases label with
    | run added =>
        cases performed
        by_cases same : key = added
        · subst same
          rw [Function.update_self]
          exact (sound key).run
        · rw [Function.update_of_ne same]
          exact sound key
    | move moved place move =>
        rcases Option.map_eq_some_iff.1 performed with ⟨chain, moves, rfl⟩
        by_cases same : key = moved
        · subst same
          rw [Function.update_self]
          rcases move_cases moves with ⟨task, phase, found, advances, rfl⟩
          exact (sound key).moved found advances
        · rw [Function.update_of_ne same]
          exact sound key

/-- What holds of the tasks of each key, whatever those of others do. -/
structure Serially (chain : Chain) : Prop where
  alone : ∀ {place other task another}, chain.At place task →
      chain.At other another → task.phase = .running →
        another.phase = .running → place = other
  inOrder : ∀ {place other task another}, chain.At place task →
      chain.At other another → place < other → 1 ≤ another.phase.rank →
        3 ≤ task.phase.rank
  starts : ∀ {place task}, chain.At place task →
      ((chain.move place .start).isSome ↔ task.phase = .waiting ∧
          ∀ earlier before, earlier < place → chain.At earlier before →
            3 ≤ before.phase.rank)
  goesOn : chain.Drained →
      ∀ {place task}, chain.At place task → task.phase.rank < 2 →
        (∀ earlier before, earlier < place → chain.At earlier before →
          2 ≤ before.phase.rank) →
        task.phase = .running
  drains : ∀ {place move next}, chain.move place move = some next →
      next.remaining + 1 = chain.remaining
  held : chain.tail ≠ none ↔ chain.Queued ∨ chain.CleaningUp
  idle : chain.Drained → (chain.tail ≠ none ↔ chain.Queued)

/-- The tasks of a key run one after another, whatever happens. -/
theorem serially_of_reachable
    (reachable : (serials Key).Reachable System.anything serial) (key : Key) :
    Serially (serial key) := by
  have sound := sound_of_reachable reachable key
  have inOrder : ∀ {place other task another}, (serial key).At place task →
      (serial key).At other another → place < other →
        1 ≤ another.phase.rank → 3 ≤ task.phase.rank := by
    intro place other task another first second earlier begun
    exact sound.passed_before second begun first earlier
  constructor
  · intro place other task another first second runs runsToo
    rcases lt_trichotomy place other with earlier | same | later
    · have passed := inOrder first second earlier (by rw [runsToo]; rfl)
      rw [runs] at passed
      cases Nat.le_of_succ_le_succ passed
    · exact same
    · have passed := inOrder second first later (by rw [runs]; rfl)
      rw [runsToo] at passed
      cases Nat.le_of_succ_le_succ passed
  · exact inOrder
  · exact sound.starts
  · exact fun drained => sound.goesOn drained
  · exact remaining_move
  · exact sound.held
  · intro drained
    rw [sound.held]
    constructor
    · rintro (queued | ⟨place, task, _, known, ended, unfinished⟩)
      · exact queued
      · exact absurd unfinished (drained.cleaned known ended)
    · exact .inl

/-- What is reached where the events which can happen do. -/
def reached (labels : List (Label Key)) : KeyedSerial Key :=
  played perform labels fun _ => ⟨[], none⟩

theorem reachable_reached (labels : List (Label Key)) :
    (serials Key).Reachable System.anything (reached labels) :=
  ⟨_, rfl, played_runs (fun _ _ _ performed => performed) labels _⟩

end Laws

/-- A task fails; the one behind it runs, and so does one of another key. -/
def afterFailure : KeyedSerial String :=
  reached [.run "a", .run "a", .run "b", .move "a" 0 .start, .move "b" 0 .start,
      .move "a" 0 (.settle true), .move "a" 0 .pass, .move "a" 1 .start]

theorem serially_afterFailure :
    Serially (afterFailure "a") ∧
      afterFailure "a" = ⟨[⟨none, .passed⟩, ⟨some 0, .running⟩], some 1⟩ ∧
      afterFailure "b" = ⟨[⟨none, .running⟩], some 0⟩ :=
  ⟨serially_of_reachable (reachable_reached _) "a", by decide⟩

/-- Between the end of a task and its clean-up, the map holds its key. -/
theorem ended_held :
    ¬ ∀ serial : KeyedSerial String,
      (serials String).Reachable System.anything serial →
        ∀ key, (serial key).tail ≠ none → (serial key).Queued := by
  intro law
  have held := law _ (reachable_reached
        [.run "a", .move "a" 0 .start, .move "a" 0 (.settle false)])
      "a" (by decide)
  rcases held with ⟨task, listed, queued⟩
  cases List.mem_singleton.1 listed
  exact absurd queued (by decide)

end Eris.Flow.SerialTasks
