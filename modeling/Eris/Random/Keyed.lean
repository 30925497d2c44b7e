import Eris.Foundation.Pulling

/-!
# The keyed stream

`sdk/src/rng.ts`, `KeyedRng`.  Block `i` of the stream is the digest of a
counter; it is read eight bytes at a time as a fraction of 53 bits.  A
snapshot is the number of draws alone, and restoring moves the stream there
without replaying it.  The other draws are made of `next`.

The digest of key, stream and counter and the arithmetic of floating point
numbers are parameters.
-/

namespace Eris.Random.Keyed

open Foundation.Pulling Foundation.Pulling.Pull

/-! ## The stream -/

structure Block where
  bytes : List UInt8
  length : bytes.length = 32

inductive RngSnapshot where
  | lcg (state : ℕ)
  | keyed (draws : ℤ)

/-- The fields of a keyed stream beside its key and its name. -/
structure KeyedRng where
  block : List UInt8
  offset : ℕ
  counter : ℕ
  draws : ℕ

def TWO_POW_21 : ℕ := 0x200000

def TWO_POW_53 : ℕ := 2 ^ 53

def DRAWS_PER_BLOCK : ℕ := 4

/-- The largest integer below which all are safe. -/
def MAX_SAFE_INTEGER : ℕ := 2 ^ 53 - 1

def fresh : KeyedRng := ⟨[], 0, 0, 0⟩

/-- Four bytes, the most significant one first. -/
def readUInt32BE (block : List UInt8) (offset : ℕ) : ℕ :=
  ((block.drop offset).take 4).foldl
    (fun number byte => number * 256 + byte.toNat) 0

/-- One more; from `2 ^ 53` on the sum is rounded back. -/
def increment (draws : ℕ) : ℕ := if draws < TWO_POW_53 then draws + 1 else draws

/-- The error of a counter which does not fit its bytes. -/
def outOfRange : String := "The value of \"value\" is out of range."

variable (digest : ℕ → Block)

/-- Read the next block; a counter of more than eight bytes throws. -/
def refill (rng : KeyedRng) : Except String KeyedRng :=
  if rng.counter < 2 ^ 64 then
    .ok { rng with
        counter := rng.counter + 1
        block := (digest rng.counter).bytes
        offset := 0 }
  else
    .error outOfRange

/-- The fraction at the offset, and the stream after it. -/
def take (rng : KeyedRng) : ℚ × KeyedRng :=
  let hi := readUInt32BE rng.block rng.offset
  let lo := readUInt32BE rng.block (rng.offset + 4) >>> 11
  ((hi * TWO_POW_21 + lo : ℕ) / TWO_POW_53, { rng with
      offset := rng.offset + 8
      draws := increment rng.draws })

def next (rng : KeyedRng) : Except String (ℚ × KeyedRng) :=
  if rng.offset + 8 > rng.block.length then
    (refill digest rng).map take
  else
    .ok (take rng)

def snapshot (rng : KeyedRng) : RngSnapshot := .keyed rng.draws

def reposition (rng : KeyedRng) (draws : ℕ) : Except String KeyedRng :=
  let start : KeyedRng := { rng with
      counter := draws / DRAWS_PER_BLOCK
      block := []
      offset := 0 }
  let within := draws % DRAWS_PER_BLOCK
  if within > 0 then
    (refill digest start).map fun filled =>
      { filled with offset := within * 8, draws := draws }
  else
    .ok { start with draws := draws }

def restore (rng : KeyedRng) : RngSnapshot → Except String KeyedRng
  | .lcg _ =>
      .error "cannot restore a lcg stream position into a keyed stream"
  | .keyed draws =>
      if draws > MAX_SAFE_INTEGER ∨ draws < 0 then
        .error s!"invalid stream position: {draws}"
      else
        reposition digest rng draws.toNat

/-- The arithmetic of floating point numbers. -/
structure Arithmetic (Number : Type) where
  ofRational : ℚ → Number
  pi : Number
  add : Number → Number → Number
  sub : Number → Number → Number
  mul : Number → Number → Number
  neg : Number → Number
  floor : Number → Number
  max : Number → Number → Number
  sqrt : Number → Number
  log : Number → Number
  exp : Number → Number
  cos : Number → Number
  less : Number → Number → Bool
  atMost : Number → Number → Bool

inductive Kind (Number : Type) where
  | next
  | int (minInclusive maxExclusive : Number)
  | bool
  | gaussian
  | lognormal (mean sigma : Number)
  | poisson (lambda : Number)

inductive Drawn (Number : Type) where
  | number (value : Number)
  | truth (value : Bool)
  | count (value : ℕ)
  | unfinished

variable {Number : Type} (arithmetic : Arithmetic Number)

/-- A draw of `next` as a number. -/
def nextNumber : Pull ℚ Number := do
  let fraction ← pull
  return arithmetic.ofRational fraction

def int (minInclusive maxExclusive : Number) : Pull ℚ Number := do
  let draw ← nextNumber arithmetic
  return arithmetic.add (arithmetic.floor
      (arithmetic.mul draw (arithmetic.sub maxExclusive minInclusive)))
    minInclusive

def bool : Pull ℚ Bool := do
  let draw ← nextNumber arithmetic
  return arithmetic.atMost (arithmetic.ofRational (1 / 2)) draw

def gaussian : Pull ℚ Number := do
  let draw ← nextNumber arithmetic
  let u1 := arithmetic.max draw (arithmetic.ofRational (1 / 10 ^ 12))
  let u2 ← nextNumber arithmetic
  return arithmetic.mul (arithmetic.sqrt
      (arithmetic.mul (arithmetic.ofRational (-2)) (arithmetic.log u1)))
    (arithmetic.cos (arithmetic.mul
        (arithmetic.mul (arithmetic.ofRational 2) arithmetic.pi) u2))

def lognormal (mean sigma : Number) : Pull ℚ Number := do
  if arithmetic.less (arithmetic.ofRational 0) mean then
    let mu := arithmetic.sub (arithmetic.log mean) (arithmetic.mul
          (arithmetic.mul (arithmetic.ofRational (1 / 2)) sigma) sigma)
    let draw ← gaussian arithmetic
    return arithmetic.exp (arithmetic.add mu (arithmetic.mul sigma draw))
  else
    return arithmetic.ofRational 0

/-- The loop of `poisson`, at most so many rounds of it. -/
def poissonLoop (l : Number) : ℕ → ℕ → Number → Pull ℚ (Option ℕ)
  | 0, _, _ => return none
  | rounds + 1, k, p => do
      let draw ← nextNumber arithmetic
      let p := arithmetic.mul p draw
      if arithmetic.less l p then
        poissonLoop l rounds (k + 1) p
      else
        return some k

def poisson (rounds : ℕ) (lambda : Number) : Pull ℚ (Option ℕ) :=
  if arithmetic.less (arithmetic.ofRational 0) lambda then
    poissonLoop arithmetic (arithmetic.exp (arithmetic.neg lambda)) rounds 0
      (arithmetic.ofRational 1)
  else
    return some 0

/-- One draw; of a Poisson sample at most so many rounds are made. -/
def draw (rounds : ℕ) : Kind Number → Pull ℚ (Drawn Number)
  | .next => do return .number (← nextNumber arithmetic)
  | .int minInclusive maxExclusive => do
      return .number (← int arithmetic minInclusive maxExclusive)
  | .bool => do return .truth (← bool arithmetic)
  | .gaussian => do return .number (← gaussian arithmetic)
  | .lognormal mean sigma => do
      return .number (← lognormal arithmetic mean sigma)
  | .poisson lambda => do
      match ← poisson arithmetic rounds lambda with
      | some count => return .count count
      | none => return .unfinished

/-- Draws of some kinds, one after another. -/
def drawAll (rounds : ℕ) : List (Kind Number) → Pull ℚ (List (Drawn Number))
  | [] => return []
  | kind :: rest => do
      let first ← draw arithmetic rounds kind
      let others ← drawAll rounds rest
      return first :: others

/-! ## Positions -/

variable {digest : ℕ → Block} {rng : KeyedRng} {position : ℕ}

/-- The stream after a number of draws of `next`. -/
structure Located
    (digest : ℕ → Block) (position : ℕ) (rng : KeyedRng) : Prop where
  counter : rng.counter = (position + 3) / 4
  draws : rng.draws = min position TWO_POW_53
  exhausted : position % 4 = 0 → rng.block.length < rng.offset + 8
  inside : position % 4 ≠ 0 →
    rng.block = (digest (position / 4)).bytes ∧ rng.offset = position % 4 * 8

theorem located_fresh (digest : ℕ → Block) : Located digest 0 fresh where
  counter := rfl
  draws := rfl
  exhausted _ := by decide
  inside inner := absurd rfl inner

theorem increment_min (position : ℕ) :
    increment (min position TWO_POW_53) = min (position + 1) TWO_POW_53 := by
  rw [increment]
  split_ifs with few
  · rw [min_eq_left (by omega), min_eq_left (by omega)]
  · rw [min_eq_right (by omega), min_eq_right (by omega)]

/-- The state before a fraction is taken out of its block. -/
structure Ready
    (digest : ℕ → Block) (position : ℕ) (rng : KeyedRng) : Prop where
  counter : rng.counter = position / 4 + 1
  draws : rng.draws = min position TWO_POW_53
  block : rng.block = (digest (position / 4)).bytes
  offset : rng.offset = position % 4 * 8

theorem Ready.take_snd (ready : Ready digest position rng) :
    Located digest (position + 1) (take rng).2 where
  counter := by
    rw [take, ready.counter]
    omega
  draws := by
    rw [take, ready.draws, increment_min]
  exhausted last := by
    have whole : rng.block.length = 32 := by
      rw [ready.block, Block.length]
    have offset := ready.offset
    change rng.block.length < rng.offset + 8 + 8
    omega
  inside within := by
    have same : (position + 1) / 4 = position / 4 := by
      omega
    constructor
    · rw [same]
      exact ready.block
    · have offset := ready.offset
      change rng.offset + 8 = (position + 1) % 4 * 8
      omega

def fractionAt (digest : ℕ → Block) (position : ℕ) : ℚ :=
  (take ⟨(digest (position / 4)).bytes, position % 4 * 8, 0, 0⟩).1

theorem Ready.take_fst (ready : Ready digest position rng) :
    (take rng).1 = fractionAt digest position := by
  rw [fractionAt, take, take, ready.block, ready.offset]

theorem Located.refill
    (located : Located digest position rng) (start : position % 4 = 0)
    (room : position / 4 < 2 ^ 64) :
    ∃ filled, refill digest rng = .ok filled ∧
      Ready digest position filled := by
  have counter : rng.counter = position / 4 := by
    have equal := located.counter
    omega
  refine ⟨_, if_pos (counter ▸ room), ?_⟩
  constructor
  · rw [counter]
  · exact located.draws
  · rw [counter]
  · rw [start]

theorem Located.next
    (located : Located digest position rng)
    (room : position % 4 = 0 → position / 4 < 2 ^ 64) :
    ∃ after, next digest rng = .ok (fractionAt digest position, after) ∧
        Located digest (position + 1) after := by
  by_cases start : position % 4 = 0
  · rcases located.refill start (room start) with ⟨filled, refilled, ready⟩
    refine ⟨(take filled).2, ?_, ready.take_snd⟩
    rw [Keyed.next, if_pos (located.exhausted start), refilled,
      ← ready.take_fst]
    rfl
  · rcases located.inside start with ⟨block, offset⟩
    have ready : Ready digest position rng := by
      refine ⟨?_, located.draws, block, offset⟩
      have equal := located.counter
      omega
    have within : ¬ rng.offset + 8 > rng.block.length := by
      rw [block, offset, Block.length]
      omega
    refine ⟨(take rng).2, ?_, ready.take_snd⟩
    rw [Keyed.next, if_neg within, ← ready.take_fst]

theorem Located.next_throws
    (located : Located digest position rng) (start : position % 4 = 0)
    (large : ¬ position / 4 < 2 ^ 64) :
    Keyed.next digest rng = .error outOfRange := by
  have counter : ¬ rng.counter < 2 ^ 64 := by
    have equal := located.counter
    omega
  rw [Keyed.next, if_pos (located.exhausted start), Keyed.refill,
    if_neg counter]
  rfl

theorem positioned_next (digest : ℕ → Block) :
    Positioned (next digest) (Located digest) := by
  intro position
  by_cases room : position % 4 = 0 → position / 4 < 2 ^ 64
  · right
    exact ⟨fractionAt digest position, fun rng located => located.next room⟩
  · left
    rw [Classical.not_imp] at room
    exact ⟨outOfRange, fun rng located => located.next_throws room.1 room.2⟩

theorem reposition_located
    (safe : position ≤ MAX_SAFE_INTEGER) (rng : KeyedRng) :
    ∃ restored, reposition digest rng position = .ok restored ∧
        Located digest position restored := by
  have bound : position ≤ 2 ^ 53 - 1 := safe
  have draws : position = min position TWO_POW_53 :=
    (min_eq_left (safe.trans (Nat.sub_le _ _))).symm
  rw [reposition]
  by_cases within : position % 4 > 0
  · have room : position / 4 < 2 ^ 64 := by
      omega
    refine ⟨⟨(digest (position / 4)).bytes, position % 4 * 8, position / 4 + 1,
      position⟩, ?_, ?_⟩
    · rw [DRAWS_PER_BLOCK, if_pos within, refill, if_pos room]
      rfl
    · refine ⟨?_, draws, ?_, ?_⟩
      · change position / 4 + 1 = (position + 3) / 4
        omega
      · intro start
        omega
      · intro _
        exact ⟨rfl, rfl⟩
  · refine ⟨⟨[], 0, position / 4, position⟩, if_neg within, ?_⟩
    refine ⟨?_, draws, ?_, ?_⟩
    · change position / 4 = (position + 3) / 4
      omega
    · intro _
      exact Nat.zero_lt_succ 7
    · intro inner
      omega

theorem restore_located
    (located : Located digest position rng)
    (safe : position ≤ MAX_SAFE_INTEGER) (other : KeyedRng) :
    ∃ restored, restore digest other (snapshot rng) = .ok restored ∧
        Located digest position restored := by
  have bound : position ≤ 2 ^ 53 - 1 := safe
  have draws : rng.draws = position := by
    rw [located.draws]
    exact min_eq_left (safe.trans (Nat.sub_le _ _))
  have valid : ¬ ((position : ℤ) > MAX_SAFE_INTEGER ∨ (position : ℤ) < 0) := by
    omega
  rw [snapshot, draws, restore, if_neg valid, Int.toNat_natCast]
  exact reposition_located safe other

variable {Number : Type}

theorem run_drawAll_next
    (arithmetic : Arithmetic Number) (rounds : ℕ)
    {rest : List (Kind Number)} {item : ℚ} {after : KeyedRng}
    (yielded : next digest rng = .ok (item, after)) :
    (drawAll arithmetic rounds (.next :: rest)).run (next digest) rng =
      ((drawAll arithmetic rounds rest).run (next digest) after).map
        fun others =>
          (.number (arithmetic.ofRational item) :: others.1, others.2) := by
  have one : draw arithmetic rounds .next =
        .next fun item => .done (.number (arithmetic.ofRational item)) :=
    rfl
  rw [drawAll, run_bind, one, run, yielded]
  dsimp only
  rw [run, Except.bind, run_bind]
  cases (drawAll arithmetic rounds rest).run (next digest) after <;> rfl

theorem drawAll_next
    (arithmetic : Arithmetic Number) (rounds count : ℕ)
    (located : Located digest position rng) (room : position + count ≤ 2 ^ 66) :
    ∃ values after, (drawAll arithmetic rounds (List.replicate count .next)).run
          (next digest) rng =
        .ok (values, after) ∧
      Located digest (position + count) after := by
  induction count generalizing position rng with
  | zero => exact ⟨[], rng, rfl, located⟩
  | succ count ih =>
      rcases located.next (fun _ => by omega) with ⟨after, yielded, moved⟩
      rcases ih moved (by omega) with
        ⟨values, last, ran, lastLocated⟩
      refine ⟨.number
          (arithmetic.ofRational (fractionAt digest position)) :: values,
        last, ?_, ?_⟩
      · rw [List.replicate_succ,
          run_drawAll_next arithmetic rounds yielded, ran]
        rfl
      · rwa [Nat.add_right_comm, Nat.add_assoc] at lastLocated

/-- After draws of any kinds, fewer than `2 ^ 53` of `next` in all, a snapshot
restores a stream whose every later draw is that of the original. -/
theorem restored_draws_continue
    (arithmetic : Arithmetic Number) {rounds : ℕ}
    {kinds : List (Kind Number)} {values : List (Drawn Number)}
    (drawn : (drawAll arithmetic rounds kinds).run (next digest) fresh =
        .ok (values, rng))
    (safe : (drawAll arithmetic rounds kinds).taken (next digest) fresh ≤
        MAX_SAFE_INTEGER)
    (other : KeyedRng) :
    ∃ restored, restore digest other (snapshot rng) = .ok restored ∧
        ∀ (laterRounds : ℕ) (later : List (Kind Number)),
          (drawAll arithmetic laterRounds later).result (next digest) restored =
            (drawAll arithmetic laterRounds later).result (next digest)
              rng := by
  have located := positioned_after_run (positioned_next digest)
      (drawAll arithmetic rounds kinds) (located_fresh digest) drawn
  rw [Nat.zero_add] at located
  rcases restore_located located safe other with
    ⟨restored, equal, here⟩
  refine ⟨restored, equal, fun laterRounds later => ?_⟩
  exact result_eq_of_positioned (positioned_next digest) _ here located

/-- Exact arithmetic, as far as whole numbers and comparisons need it. -/
def exampleArithmetic : Arithmetic ℚ where
  ofRational := id
  pi := 3
  add := (· + ·)
  sub := (· - ·)
  mul := (· * ·)
  neg := (- ·)
  floor number := ⌊number⌋
  max := max
  sqrt := id
  log := id
  exp := id
  cos := id
  less first second := first < second
  atMost first second := first ≤ second

def exampleDigest (counter : ℕ) : Block :=
  ⟨List.replicate 32 (UInt8.ofNat counter), List.length_replicate⟩

/-- Draws which go on into the second block. -/
def exampleKinds : List (Kind ℚ) := [.next, .int 0 10, .bool, .next, .next]

theorem restored_draws_continue_example :
    ∃ rng restored, restore exampleDigest fresh (snapshot rng) = .ok restored ∧
        (drawAll exampleArithmetic 0 exampleKinds).result
            (next exampleDigest) restored =
          (drawAll exampleArithmetic 0 exampleKinds).result
            (next exampleDigest) rng := by
  have runs :
      ((drawAll exampleArithmetic 0 exampleKinds).run (next exampleDigest)
        fresh).toBool = true := by
    decide
  cases ran :
    (drawAll exampleArithmetic 0 exampleKinds).run (next exampleDigest)
      fresh with
  | error error =>
      rw [ran] at runs
      cases runs
  | ok drawn =>
      rcases restored_draws_continue exampleArithmetic ran (by decide)
          fresh with
        ⟨restored, equal, same⟩
      exact ⟨drawn.2, restored, equal, same 0 exampleKinds⟩

/-- After `2 ^ 53` draws of `next` the snapshot is no longer restored. -/
theorem restore_throws_at_limit :
    ∃ values rng,
      (drawAll exampleArithmetic 0 (List.replicate (2 ^ 53) .next)).run
          (next exampleDigest) fresh =
        .ok (values, rng) ∧
      restore exampleDigest fresh (snapshot rng) =
        .error "invalid stream position: 9007199254740992" := by
  rcases drawAll_next exampleArithmetic 0 (2 ^ 53) (located_fresh exampleDigest)
    (by omega) with
    ⟨values, rng, ran, located⟩
  refine ⟨values, rng, ran, ?_⟩
  have draws : rng.draws = 9007199254740992 := by
    rw [located.draws]
    decide
  rw [snapshot, draws, restore, if_pos (by decide)]
  exact congrArg Except.error (by decide)

end Eris.Random.Keyed
