import Eris.Foundation.ArraySort

/-!
# The ranking of a competition

`core/src/scoring/deviationScore.ts`.  The agents of a competition are sorted
by their score, the spread of their deviation scores, their worst epoch and
the time of their final submission, then by their id, and ranked in that
order: an agent which compares equal to the one before it shares its rank.

Numbers are elements of a linear order; the three numbers of an agent which
was scored in some epoch are given together.
-/

namespace Eris.Scoring.Ranking

open Foundation

variable {Number : Type} [LinearOrder Number]

/-- What the ranking of a scored agent is decided on. -/
structure Standing (Number : Type) where
  score : Number
  tStd : Number
  worstT : Number
  deriving DecidableEq

/-- An agent of the competition; without a standing when it was scored in no
epoch. -/
structure AgentResult (Number : Type) where
  id : String
  standing : Option (Standing Number)
  submittedAt : Option Number
  deriving DecidableEq

structure Placed (Number : Type) where
  agent : AgentResult Number
  rank : Nat
  tied : Bool
  deriving DecidableEq

/-- The earlier final submission comes first, when known for both. -/
def compareSubmissions : Option Number → Option Number → Ordering
  | some first, some second => compare first second
  | _, _ => .eq

/-- Negative when the first agent ranks ahead, zero when they are tied. -/
def compareAgents (first second : AgentResult Number) : Ordering :=
  match first.standing, second.standing with
  | none, none => .eq
  | none, some _ => .gt
  | some _, none => .lt
  | some standing, some other =>
      (compare other.score standing.score).then <|
        (compare standing.tStd other.tStd).then <|
          (compare other.worstT standing.worstT).then <|
            compareSubmissions first.submittedAt second.submittedAt

/-- Rank the agents after a placed one; the number counts those placed. -/
def rankFrom :
    Nat → Placed Number → List (AgentResult Number) → List (Placed Number)
  | _, previous, [] => [previous]
  | count, previous, agent :: rest =>
      if compareAgents previous.agent agent = .eq then
        { previous with tied := true } ::
          rankFrom (count + 1) ⟨agent, previous.rank, true⟩ rest
      else
        previous :: rankFrom (count + 1) ⟨agent, count + 1, false⟩ rest

def rankAll : List (AgentResult Number) → List (Placed Number)
  | [] => []
  | agent :: rest => rankFrom 1 ⟨agent, 1, false⟩ rest

/-- Agents are sorted by the ranking, then by their ids. -/
def compareRows (collation : Collation) : Comparison (AgentResult Number) :=
  fun first second =>
    (compareAgents first second).then
      (collation.localeCompare first.id second.id)

def scoreCompetition
    (sorting : ArraySort (AgentResult Number)) (collation : Collation)
    (agents : List (AgentResult Number)) : List (Placed Number) :=
  rankAll (sorting.sort (compareRows collation) agents)

/-! ## The comparison of two agents -/

/-- A standing as an element of a linear order, best first. -/
def key (agent : AgentResult Number) :
    WithTop (Numberᵒᵈ ×ₗ (Number ×ₗ Numberᵒᵈ)) :=
  match agent.standing with
  | none => ⊤
  | some standing =>
      (toLex (OrderDual.toDual standing.score,
        toLex (standing.tStd, OrderDual.toDual standing.worstT)) :
          Numberᵒᵈ ×ₗ (Number ×ₗ Numberᵒᵈ))

/-- Two scored agents submitted at known times, the first earlier. -/
def Earlier (first second : AgentResult Number) : Prop :=
  first.standing ≠ none ∧ ∃ early late, first.submittedAt = some early ∧
      second.submittedAt = some late ∧ early < late

variable {first second third : AgentResult Number}

theorem compareSubmissions_eq_lt {early late : Option Number} :
    compareSubmissions early late = .lt ↔ ∃ before after,
        early = some before ∧ late = some after ∧ before < after := by
  unfold compareSubmissions
  split
  · simp [compare_lt_iff_lt]
  · rename_i unknown
    constructor
    · intro equal
      cases equal
    · rintro ⟨before, after, rfl, rfl, -⟩
      exact (unknown before after rfl rfl).elim

theorem compareAgents_eq_lt :
    compareAgents first second = .lt ↔ key first < key second ∨
        (key first = key second ∧ Earlier first second) := by
  rcases first with ⟨firstId, _ | firstStanding, firstTime⟩ <;>
    rcases second with ⟨secondId, _ | secondStanding, secondTime⟩
  · simp [compareAgents, key, Earlier]
  · simp [compareAgents, key, Earlier]
  · simp [compareAgents, key]
  · simp only [compareAgents, key, Earlier, Ordering.then_eq_lt,
      compare_lt_iff_lt, compare_eq_iff_eq, compareSubmissions_eq_lt,
      WithTop.coe_lt_coe, WithTop.coe_inj, Prod.Lex.toLex_lt_toLex,
      OrderDual.toDual_lt_toDual, OrderDual.toDual_inj, toLex_inj,
      Prod.mk.injEq, ne_eq, reduceCtorEq, not_false_eq_true, true_and]
    rw [eq_comm (a := secondStanding.score),
      eq_comm (a := secondStanding.worstT)]
    tauto

theorem swap_compare (early late : Number) :
    (compare early late).swap = compare late early :=
  Std.OrientedCmp.eq_swap.symm

theorem compareSubmissions_swap (early late : Option Number) :
    compareSubmissions late early = (compareSubmissions early late).swap := by
  cases early <;> cases late <;>
    simp [compareSubmissions, swap_compare]

theorem compareAgents_swap (first second : AgentResult Number) :
    compareAgents second first = (compareAgents first second).swap := by
  rcases first with ⟨firstId, _ | firstStanding, firstTime⟩ <;>
    rcases second with ⟨secondId, _ | secondStanding, secondTime⟩
  · rfl
  · rfl
  · rfl
  · simp only [compareAgents, Ordering.swap_then, swap_compare,
      ← compareSubmissions_swap]

theorem compareAgents_eq_gt :
    compareAgents first second = .gt ↔ compareAgents second first = .lt := by
  rw [compareAgents_swap first second]
  cases compareAgents first second <;> simp

theorem Earlier.not_self : ¬ Earlier first first := by
  rintro ⟨-, early, late, isEarly, isLate, less⟩
  rw [isEarly, Option.some.injEq] at isLate
  exact less.ne isLate

theorem Earlier.trans
    (before : Earlier first second) (after : Earlier second third) :
    Earlier first third := by
  rcases before with ⟨scored, early, middle, isEarly, isMiddle, less⟩
  rcases after with ⟨-, between, late, isBetween, isLate, lessLate⟩
  rw [isMiddle, Option.some.injEq] at isBetween
  subst isBetween
  exact ⟨scored, early, late, isEarly, isLate, less.trans lessLate⟩

theorem ahead_trans
    (before : compareAgents first second = .lt)
    (after : compareAgents second third = .lt) :
    compareAgents first third = .lt := by
  rw [compareAgents_eq_lt] at before after ⊢
  rcases before with less | ⟨same, earlier⟩
  · rcases after with lessLate | ⟨sameLate, -⟩
    · exact Or.inl (less.trans lessLate)
    · exact Or.inl (sameLate ▸ less)
  · rcases after with lessLate | ⟨sameLate, late⟩
    · exact Or.inl (same ▸ lessLate)
    · exact Or.inr ⟨same.trans sameLate, earlier.trans late⟩

theorem ahead_irrefl (first : AgentResult Number) :
    compareAgents first first ≠ .lt := by
  rw [ne_eq, compareAgents_eq_lt, not_or]
  exact ⟨lt_irrefl _, fun both => both.2.not_self⟩

/-- No agent of unknown submission time is tied by its standing with two
agents of different known times. -/
def Comparable (agents : List (AgentResult Number)) : Prop :=
  ∀ unknown ∈ agents, ∀ first ∈ agents, ∀ second ∈ agents,
    unknown.standing ≠ none → key unknown = key first →
        key unknown = key second → unknown.submittedAt = none → ∀ early late,
            first.submittedAt = some early →
              second.submittedAt = some late → early = late

variable {agents : List (AgentResult Number)}
    {rest : List (AgentResult Number)} {placed : Placed Number}

omit [LinearOrder Number] in
theorem scored_of_key
    (same : key first = key second) (scored : first.standing ≠ none) :
    second.standing ≠ none := by
  intro unscored
  unfold key at same
  rw [unscored] at same
  cases standing : first.standing with
  | none => exact scored standing
  | some numbers =>
      rw [standing] at same
      cases same

theorem Comparable.consistent (comparable : Comparable agents) :
    Consistent compareAgents agents := by
  refine ⟨fun first _ second _ => compareAgents_swap first second, ?_⟩
  intro first firstListed second secondListed third thirdListed
    before after greater
  rw [ne_eq, compareAgents_eq_gt, compareAgents_eq_lt, not_or]
    at before after
  rw [compareAgents_eq_gt, compareAgents_eq_lt] at greater
  have left := not_lt.1 before.1
  have right := not_lt.1 after.1
  rcases greater with less | ⟨same, earlier⟩
  · exact (less.trans_le (left.trans right)).false
  · have sameSecond : key second = key third := le_antisymm right (same ▸ left)
    rcases earlier with ⟨scored, early, late, isEarly, isLate, less⟩
    have secondScored := scored_of_key sameSecond.symm scored
    have firstScored := scored_of_key same scored
    cases known : second.submittedAt with
    | none =>
        have equal := comparable second secondListed third thirdListed first
            firstListed secondScored sameSecond
            (sameSecond.trans same) known early late isEarly isLate
        exact less.ne equal
    | some middle =>
        have noLater : ¬ middle < late := by
          intro lessMiddle
          exact before.2 ⟨sameSecond.trans same,
            secondScored, middle, late, known, isLate, lessMiddle⟩
        have noEarlier : ¬ early < middle := by
          intro lessMiddle
          exact after.2 ⟨sameSecond.symm,
            scored, early, middle, isEarly, known, lessMiddle⟩
        exact absurd less
          (not_lt.2 ((not_lt.1 noLater).trans (not_lt.1 noEarlier)))

/-! ## Ranks along a list -/

theorem rankFrom_agents
    (count : Nat) (previous : Placed Number)
    (rest : List (AgentResult Number)) :
    (rankFrom count previous rest).map Placed.agent =
      previous.agent :: rest := by
  induction rest generalizing count previous with
  | nil => rfl
  | cons agent rest ih =>
      rw [rankFrom]
      split
      · rw [List.map_cons, ih]
      · rw [List.map_cons, ih]

theorem rankAll_agents (agents : List (AgentResult Number)) :
    (rankAll agents).map Placed.agent = agents := by
  cases agents with
  | nil => rfl
  | cons agent rest => exact rankFrom_agents 1 _ rest

theorem rankFrom_le
    {count : Nat} {previous : Placed Number} {rest : List (AgentResult Number)}
    (bounded : previous.rank ≤ count) :
    ∀ placed ∈ rankFrom count previous rest, previous.rank ≤ placed.rank := by
  induction rest generalizing count previous with
  | nil =>
      intro placed listed
      rw [List.mem_singleton.1 listed]
  | cons agent rest ih =>
      rw [rankFrom]
      split
      · intro placed listed
        rcases List.mem_cons.1 listed with rfl | later
        · rfl
        · exact @ih (count + 1) ⟨agent, previous.rank, true⟩
            (Nat.le_succ_of_le bounded) placed later
      · intro placed listed
        rcases List.mem_cons.1 listed with rfl | later
        · rfl
        · have ranked := @ih (count + 1) ⟨agent, count + 1, false⟩
              le_rfl placed later
          exact (Nat.le_succ_of_le bounded).trans ranked

theorem rankFrom_pairwise
    {count : Nat} {previous : Placed Number} (bounded : previous.rank ≤ count) :
    (rankFrom count previous rest).Pairwise (·.rank ≤ ·.rank) := by
  induction rest generalizing count previous with
  | nil => exact List.pairwise_singleton _ _
  | cons agent rest ih =>
      rw [rankFrom]
      split
      · exact List.pairwise_cons.2 ⟨rankFrom_le (Nat.le_succ_of_le bounded),
          ih (Nat.le_succ_of_le bounded)⟩
      · refine List.pairwise_cons.2 ⟨?_, ih le_rfl⟩
        intro placed listed
        have ranked :=
          @rankFrom_le Number _ (count + 1) ⟨agent, count + 1, false⟩ rest
            le_rfl placed listed
        exact (Nat.le_succ_of_le bounded).trans ranked

theorem rankFrom_jump
    {count : Nat} {previous : Placed Number}
    {before after : List (Placed Number)}
    (split : rankFrom count previous rest = before ++ placed :: after)
    (behind : ∀ other ∈ before, other.rank < placed.rank) :
    placed.rank =
      if before = [] then previous.rank else count + before.length := by
  induction rest generalizing count previous before with
  | nil =>
      cases before with
      | nil =>
          rw [rankFrom, List.nil_append, List.cons.injEq] at split
          rw [if_pos rfl, ← split.1]
      | cons other before => simp [rankFrom] at split
  | cons agent rest ih =>
      rw [rankFrom] at split
      cases before with
      | nil =>
          rw [if_pos rfl]
          split at split
          · rw [List.nil_append, List.cons.injEq] at split
            rw [← split.1]
          · rw [List.nil_append, List.cons.injEq] at split
            rw [← split.1]
      | cons other before =>
          have behindRest : ∀ member ∈ before, member.rank < placed.rank :=
            fun member listed =>
              behind member (List.mem_cons_of_mem _ listed)
          have first := behind other List.mem_cons_self
          rw [if_neg (List.cons_ne_nil _ _), List.length_cons]
          split at split
          · rw [List.cons_append, List.cons.injEq] at split
            have isRank := ih split.2 behindRest
            rw [← split.1] at first
            by_cases last : before = []
            · rw [if_pos last] at isRank
              exact absurd isRank first.ne'
            · rw [if_neg last] at isRank
              omega
          · rw [List.cons_append, List.cons.injEq] at split
            have isRank := ih split.2 behindRest
            by_cases last : before = []
            · rw [if_pos last] at isRank
              simp [last, isRank]
            · rw [if_neg last] at isRank
              omega

theorem rankAll_pairwise :
    (rankAll agents).Pairwise (·.rank ≤ ·.rank) := by
  cases agents with
  | nil => exact List.Pairwise.nil
  | cons agent rest => exact rankFrom_pairwise le_rfl

theorem rankAll_jump
    {before after : List (Placed Number)}
    (split : rankAll agents = before ++ placed :: after)
    (behind : ∀ other ∈ before, other.rank < placed.rank) :
    placed.rank = before.length + 1 := by
  cases agents with
  | nil => simp [rankAll] at split
  | cons agent rest =>
      have isRank := rankFrom_jump split behind
      by_cases first : before = []
      · rw [if_pos first] at isRank
        rw [isRank, first]
        rfl
      · rw [if_neg first] at isRank
        omega

omit [LinearOrder Number] in
/-- In a list sorted by rank, the first agent of a rank splits those of
smaller ranks from the others. -/
theorem split_at_rank
    {all : List (Placed Number)}
    (listed : placed ∈ all) (sorted : all.Pairwise (·.rank ≤ ·.rank)) :
    ∃ before first after,
      all = before ++ first :: after ∧ first.rank = placed.rank ∧
        (∀ other ∈ before, other.rank < placed.rank) ∧
          ∀ other ∈ after, placed.rank ≤ other.rank := by
  induction all with
  | nil => cases listed
  | cons head rest ih =>
      rcases List.pairwise_cons.1 sorted with ⟨first, later⟩
      by_cases same : head.rank = placed.rank
      · exact ⟨[], head, rest, rfl, same, List.forall_mem_nil _,
          fun other member => same ▸ first other member⟩
      · have inRest : placed ∈ rest := by
          rcases List.mem_cons.1 listed with rfl | inRest
          · exact (same rfl).elim
          · exact inRest
        rcases ih inRest later with
          ⟨before, other, after, isRest, isRank, smaller, greater⟩
        refine
          ⟨head :: before, other, after, by rw [isRest]; rfl, isRank,
            ?_, greater⟩
        intro member listedMember
        rcases List.mem_cons.1 listedMember with rfl | inBefore
        · exact lt_of_le_of_ne (first placed inRest) same
        · exact smaller member inBefore

theorem count_of_rank
    (listed : placed ∈ rankAll agents) :
    placed.rank = (rankAll agents).countP (·.rank < placed.rank) + 1 := by
  rcases split_at_rank listed rankAll_pairwise with
    ⟨before, first, after, split, isRank, smaller, greater⟩
  have jump :=
    rankAll_jump split fun other member => isRank ▸ smaller other member
  have all : before.countP (·.rank < placed.rank) = before.length :=
    List.countP_eq_length.2 (by simpa using smaller)
  have none : (first :: after).countP (·.rank < placed.rank) = 0 := by
    apply List.countP_eq_zero.2
    intro other member
    rcases List.mem_cons.1 member with rfl | later
    · simp [isRank]
    · simpa using greater other later
  rw [split, List.countP_append, all, none, ← isRank, jump]

/-! ## The ranking of comparable agents -/

def ahead
    (agents : List (AgentResult Number)) (agent : AgentResult Number) :
    Nat :=
  agents.countP (compareAgents · agent = .lt)

def Tied
    (agents : List (AgentResult Number)) (agent : AgentResult Number) :
    Prop :=
  ∃ other ∈ agents, other ≠ agent ∧ compareAgents other agent = .eq

/-- An agent has the rank and the mark it should have. -/
def WellPlaced
    (agents : List (AgentResult Number)) (placed : Placed Number) : Prop :=
  placed.rank = 1 + ahead agents placed.agent ∧
    (placed.tied = true ↔ Tied agents placed.agent)

theorem tied_split
    {earlier : List (AgentResult Number)} {agent : AgentResult Number}
    (split : agents = earlier ++ agent :: rest) (distinct : agents.Nodup) :
    Tied agents agent ↔ (∃ other ∈ earlier, compareAgents other agent = .eq) ∨
        ∃ other ∈ rest, compareAgents other agent = .eq := by
  subst split
  have apart := List.nodup_middle.1 distinct
  rw [List.nodup_cons, List.mem_append, not_or] at apart
  constructor
  · rintro ⟨other, listed, different, equal⟩
    rcases List.mem_append.1 listed with before | after
    · exact Or.inl ⟨other, before, equal⟩
    · rcases List.mem_cons.1 after with same | later
      · exact (different same).elim
      · exact Or.inr ⟨other, later, equal⟩
  · rintro (⟨other, before, equal⟩ | ⟨other, later, equal⟩)
    · refine ⟨other, List.mem_append_left _ before, ?_, equal⟩
      rintro rfl
      exact apart.1.1 before
    · refine ⟨other, List.mem_append_right _ (List.mem_cons_of_mem _ later), ?_,
        equal⟩
      rintro rfl
      exact apart.1.2 later

theorem ahead_of_eq
    (consistent : Consistent compareAgents agents)
    {agent other : AgentResult Number}
    (listed : agent ∈ agents) (otherListed : other ∈ agents)
    (equal : compareAgents agent other = .eq) :
    ahead agents agent = ahead agents other := by
  unfold ahead
  apply List.countP_congr
  intro candidate member
  rw [decide_eq_true_eq, decide_eq_true_eq]
  constructor
  · intro less
    exact consistent.lt_of_lt_of_le member listed otherListed less
      (by simp [equal])
  · intro less
    exact consistent.lt_of_lt_of_le member otherListed listed less
      (by simp [consistent.eq_symm listed otherListed equal])

/-- In a sorted list, an agent which is behind the one before it has those
before it ahead. -/
theorem ahead_of_place
    {earlier rest : List (AgentResult Number)} {agent : AgentResult Number}
    (behind : ∀ other ∈ earlier, compareAgents other agent = .lt)
    (noEarlier : ∀ other ∈ rest, compareAgents agent other ≠ .gt) :
    ahead (earlier ++ agent :: rest) agent = earlier.length := by
  unfold ahead
  have all : earlier.countP (compareAgents · agent = .lt) = earlier.length :=
    List.countP_eq_length.2 (by simpa using behind)
  have none : (agent :: rest).countP (compareAgents · agent = .lt) = 0 := by
    apply List.countP_eq_zero.2
    intro other member
    rw [decide_eq_true_eq]
    rcases List.mem_cons.1 member with rfl | later
    · exact ahead_irrefl _
    · rw [← compareAgents_eq_gt]
      exact noEarlier other later
  rw [List.countP_append, all, none, Nat.add_zero]

/-- Along a sorted list every agent is placed well. -/
theorem rankFrom_wellPlaced
    (consistent : Consistent compareAgents agents)
    (sorted : agents.Pairwise (compareAgents · · ≠ .gt))
    (distinct : agents.Nodup) {earlier rest : List (AgentResult Number)}
    {previous : Placed Number}
    (split : agents = earlier ++ previous.agent :: rest)
    (rank : previous.rank = 1 + ahead agents previous.agent)
    (tied : previous.tied = true ↔
        ∃ other ∈ earlier, compareAgents other previous.agent = .eq) :
    ∀ placed ∈ rankFrom (earlier.length + 1) previous rest,
      WellPlaced agents placed := by
  induction rest generalizing earlier previous with
  | nil =>
      intro placed listed
      rw [List.mem_singleton.1 listed]
      refine ⟨rank, tied.trans ?_⟩
      rw [tied_split split distinct]
      simp
  | cons agent rest ih =>
      have previousListed : previous.agent ∈ agents := by
        rw [split]
        exact List.mem_append_right _ List.mem_cons_self
      have agentListed : agent ∈ agents := by
        rw [split]
        exact List.mem_append_right _
          (List.mem_cons_of_mem _ List.mem_cons_self)
      have splitNext :
          agents = (earlier ++ [previous.agent]) ++ agent :: rest := by
        rw [split, List.append_assoc, List.singleton_append]
      have order := sorted
      rw [split, List.pairwise_append, List.pairwise_cons,
        List.pairwise_cons] at order
      rcases order with ⟨-, ⟨afterPrevious, afterAgent, -⟩, across⟩
      have length_next : earlier.length + 1 + 1 =
          (earlier ++ [previous.agent]).length + 1 := by
        rw [List.length_append, List.length_singleton]
      rw [rankFrom, length_next]
      by_cases equal : compareAgents previous.agent agent = .eq
      · rw [if_pos equal]
        intro placed listed
        rcases List.mem_cons.1 listed with rfl | later
        · refine ⟨rank, ?_⟩
          rw [tied_split split distinct]
          simp only [true_iff]
          exact Or.inr ⟨agent, List.mem_cons_self,
            consistent.eq_symm previousListed agentListed equal⟩
        · apply ih splitNext _ _ placed later
          · exact rank.trans
              (by rw [ahead_of_eq consistent previousListed agentListed
                equal])
          · simp only [true_iff]
            exact ⟨previous.agent,
              List.mem_append_right _ List.mem_cons_self, equal⟩
      · have less : compareAgents previous.agent agent = .lt := by
          have noGreater := afterPrevious agent List.mem_cons_self
          cases result : compareAgents previous.agent agent with
          | lt => rfl
          | eq => exact (equal result).elim
          | gt => exact (noGreater result).elim
        have behind : ∀ other ∈ earlier ++ [previous.agent],
            compareAgents other agent = .lt := by
          intro other member
          rcases List.mem_append.1 member with before | same
          · apply consistent.lt_of_le_of_lt _ previousListed agentListed
              (across other before _ List.mem_cons_self) less
            rw [split]
            exact List.mem_append_left _ before
          · rw [List.mem_singleton.1 same]
            exact less
        rw [if_neg equal]
        intro placed listed
        rcases List.mem_cons.1 listed with rfl | later
        · refine ⟨rank, tied.trans ?_⟩
          rw [tied_split split distinct, or_iff_left]
          rintro ⟨other, member, otherEqual⟩
          have otherListed : other ∈ agents := by
            rw [split]
            exact List.mem_append_right _ (List.mem_cons_of_mem _ member)
          have lessOther : compareAgents placed.agent other = .lt := by
            rcases List.mem_cons.1 member with rfl | inRest
            · exact less
            · exact consistent.lt_of_lt_of_le previousListed agentListed
                otherListed less (afterAgent other inRest)
          rw [consistent.lt_iff previousListed otherListed, otherEqual]
            at lessOther
          cases lessOther
        · apply ih splitNext _ _ placed later
          · have place := ahead_of_place behind afterAgent
            rw [← splitNext] at place
            simp only [place]
            omega
          · simp only [Bool.false_eq_true, false_iff]
            rintro ⟨other, member, otherEqual⟩
            rw [behind other member] at otherEqual
            cases otherEqual

theorem rankAll_wellPlaced
    (consistent : Consistent compareAgents agents)
    (sorted : agents.Pairwise (compareAgents · · ≠ .gt))
    (distinct : agents.Nodup) :
    ∀ placed ∈ rankAll agents, WellPlaced agents placed := by
  cases agents with
  | nil =>
      intro placed listed
      cases listed
  | cons agent rest =>
      apply @rankFrom_wellPlaced _ _ _ consistent sorted distinct [] rest
        ⟨agent, 1, false⟩ rfl
      · have place := @ahead_of_place _ _ [] rest agent (List.forall_mem_nil _)
            (List.pairwise_cons.1 sorted).1
        rw [List.nil_append] at place
        simp [place]
      · simp

/-! ## The ranking law -/

variable
  {sorting : ArraySort (AgentResult Number)} {collation : Collation}

/-- No two agents which compare equal have ids which a locale finds equal. -/
def Distinguished
    (collation : Collation) (agents : List (AgentResult Number)) : Prop :=
  ∀ first ∈ agents, ∀ second ∈ agents, compareAgents first second = .eq →
      collation.localeCompare first.id second.id = .eq → first = second

/-- Every agent of a competition has the rank one more than the number of
agents ahead of it and is marked as tied when another one compares equal,
and the result does not depend on the order of the agents. -/
structure RankedFairly
    (sorting : ArraySort (AgentResult Number)) (collation : Collation)
    (agents : List (AgentResult Number)) : Prop where
  all : ((scoreCompetition sorting collation agents).map Placed.agent).Perm
      agents
  placed : ∀ placed ∈ scoreCompetition sorting collation agents,
      WellPlaced agents placed
  independent : ∀ others : List (AgentResult Number), others.Perm agents →
      scoreCompetition sorting collation others =
        scoreCompetition sorting collation agents

theorem ahead_perm
    {others : List (AgentResult Number)} (perm : others.Perm agents)
    (agent : AgentResult Number) : ahead others agent = ahead agents agent :=
  perm.countP_eq _

theorem wellPlaced_perm
    {others : List (AgentResult Number)} (perm : others.Perm agents)
    (placed : Placed Number) :
    WellPlaced others placed ↔ WellPlaced agents placed := by
  unfold WellPlaced Tied
  simp only [ahead_perm perm, perm.mem_iff]

theorem scoreCompetition_agents :
    (scoreCompetition sorting collation agents).map Placed.agent =
      sorting.sort (compareRows collation) agents :=
  rankAll_agents _

theorem Comparable.rows (comparable : Comparable agents) :
    Consistent (compareRows collation) agents :=
  comparable.consistent.lexicographic
    (Consistent.comap (collation.consistent (agents.map AgentResult.id)))

theorem compareAgents_of_rows
    (noGreater : compareRows collation first second ≠ .gt) :
    compareAgents first second ≠ .gt := by
  intro greater
  apply noGreater
  simp [compareRows, greater]

theorem Comparable.rankedFairly
    (comparable : Comparable agents)
    (distinguished : Distinguished collation agents) (distinct : agents.Nodup) :
    RankedFairly sorting collation agents := by
  have perm := sorting.perm (compareRows collation) agents
  refine ⟨?_, ?_, ?_⟩
  · rw [scoreCompetition_agents]
    exact perm
  · intro placed listed
    rw [← wellPlaced_perm perm]
    apply rankAll_wellPlaced _ _ _ placed listed
    · exact comparable.consistent.of_subset perm.subset
    · exact (sorting.sorted _ _ comparable.rows).imp compareAgents_of_rows
    · exact perm.nodup_iff.2 distinct
  · intro others permOthers
    have sameSort : sorting.sort (compareRows collation) others =
        sorting.sort (compareRows collation) agents := by
      apply sorting.eq_of_perm permOthers comparable.rows
      intro first firstIn second secondIn equal
      unfold compareRows at equal
      rw [Ordering.then_eq_eq] at equal
      exact distinguished first firstIn second secondIn equal.1 equal.2
    unfold scoreCompetition
    rw [sameSort]

theorem countP_lt
    {Element : Type} {weak strong : Element → Bool} {list : List Element}
    (implied : ∀ element ∈ list, strong element → weak element)
    {extra : Element} (listed : extra ∈ list)
    (isWeak : weak extra) (notStrong : ¬ strong extra) :
    list.countP strong < list.countP weak := by
  have split := List.countP_eq_countP_filter_add list weak strong
  have kept : (list.filter strong).countP weak = list.countP strong := by
    rw [List.countP_eq_length_filter (p := strong)]
    apply List.countP_eq_length.2
    intro element member
    rcases List.mem_filter.1 member with ⟨inList, isStrong⟩
    exact implied element inList isStrong
  have more : 0 < (list.filter fun element => !strong element).countP weak := by
    apply List.countP_pos_iff.2
    exact ⟨extra, List.mem_filter.2 ⟨listed, by simpa using notStrong⟩, isWeak⟩
  rw [split, kept]
  omega

theorem ahead_lt
    (firstListed : first ∈ agents) (less : compareAgents first second = .lt) :
    ahead agents first < ahead agents second := by
  apply countP_lt _ firstListed
  · simpa using less
  · simpa using ahead_irrefl first
  · intro other member
    simp only [decide_eq_true_eq]
    exact fun otherLess => ahead_trans otherLess less

/-- When every agent is placed well, no agent of unknown submission time is
tied by its standing with agents of two times. -/
theorem not_between
    (placedWell : ∀ placed ∈ rankAll agents, WellPlaced agents placed)
    {unknown : AgentResult Number}
    (unknownListed : unknown ∈ agents) (firstListed : first ∈ agents)
    (secondListed : second ∈ agents) (sameFirst : key unknown = key first)
    (sameSecond : key unknown = key second)
    (time : unknown.submittedAt = none) :
    ¬ Earlier first second := by
  intro earlier
  have less : compareAgents first second = .lt := compareAgents_eq_lt.2
      (Or.inr ⟨sameFirst.symm.trans sameSecond, earlier⟩)
  have aheadUnknown : ahead agents unknown < ahead agents second := by
    apply countP_lt _ firstListed
    · simpa using less
    · rw [decide_eq_true_eq, compareAgents_eq_lt]
      rintro (lessKey | ⟨-, -, early, late, -, isLate, -⟩)
      · exact (sameFirst ▸ lessKey).false
      · rw [time] at isLate
        cases isLate
    · intro other member
      simp only [decide_eq_true_eq]
      rw [compareAgents_eq_lt, compareAgents_eq_lt]
      rintro (lessKey | ⟨-, -, early, late, -, isLate, -⟩)
      · exact Or.inl (sameSecond ▸ lessKey)
      · rw [time] at isLate
        cases isLate
  have exists_placed (agent : AgentResult Number) (listed : agent ∈ agents) :
      ∃ placed ∈ rankAll agents, placed.agent = agent := by
    rw [← rankAll_agents agents] at listed
    rcases List.mem_map.1 listed with ⟨placed, member, same⟩
    exact ⟨placed, member, same⟩
  rcases exists_placed second secondListed with
    ⟨placedSecond, secondMember, rfl⟩
  rcases exists_placed unknown unknownListed with
    ⟨placedUnknown, unknownMember, rfl⟩
  have rankSecond := (placedWell placedSecond secondMember).1
  have counted := count_of_rank secondMember
  have aheadCount : ahead agents placedSecond.agent = (rankAll agents).countP
      (fun placed =>
            decide (compareAgents placed.agent placedSecond.agent = .lt)) := by
    unfold ahead
    conv_lhs => rw [← rankAll_agents agents]
    rw [List.countP_map]
    rfl
  have fewer : (rankAll agents).countP (fun placed =>
            decide (compareAgents placed.agent placedSecond.agent = .lt)) <
        (rankAll agents).countP (·.rank < placedSecond.rank) := by
    apply countP_lt _ unknownMember
    · have rankUnknown := (placedWell placedUnknown unknownMember).1
      rw [decide_eq_true_eq]
      omega
    · rw [decide_eq_true_eq, compareAgents_eq_lt]
      rintro (lessKey | ⟨-, -, early, late, isEarly, -, -⟩)
      · exact (sameSecond ▸ lessKey).false
      · rw [time] at isEarly
        cases isEarly
    · intro placed member
      simp only [decide_eq_true_eq]
      intro lessPlaced
      have listed : placed.agent ∈ agents := by
        rw [← rankAll_agents agents]
        exact List.mem_map_of_mem member
      have smaller := ahead_lt listed lessPlaced
      have rankPlaced := (placedWell placed member).1
      omega
  omega

theorem RankedFairly.comparable
    (fair : RankedFairly sorting collation agents) :
    Comparable agents := by
  have perm := sorting.perm (compareRows collation) agents
  have placedWell :
      ∀ placed ∈ rankAll (sorting.sort (compareRows collation) agents),
        WellPlaced (sorting.sort (compareRows collation) agents) placed := by
    intro placed listed
    rw [wellPlaced_perm perm]
    exact fair.placed placed listed
  intro unknown unknownListed first firstListed second secondListed
    scored sameFirst sameSecond time early late isEarly isLate
  have firstScored := scored_of_key sameFirst scored
  have secondScored := scored_of_key sameSecond scored
  have unknownIn := perm.symm.subset unknownListed
  have firstIn := perm.symm.subset firstListed
  have secondIn := perm.symm.subset secondListed
  rcases lt_trichotomy early late with less | same | greater
  · exact (not_between placedWell unknownIn firstIn secondIn sameFirst
      sameSecond time
      ⟨firstScored, early, late, isEarly, isLate, less⟩).elim
  · exact same
  · exact (not_between placedWell unknownIn secondIn firstIn sameSecond
      sameFirst time
      ⟨secondScored, late, early, isLate, isEarly, greater⟩).elim

/-- A list without duplicates which reads the same backwards has at most one
element. -/
theorem eq_of_reverse
    {Element : Type} {list : List Element} (distinct : list.Nodup)
    (same : list.reverse = list) {one other : Element}
    (oneListed : one ∈ list) (otherListed : other ∈ list) :
    one = other := by
  cases list with
  | nil => cases oneListed
  | cons head rest =>
      cases rest using List.reverseRecOn with
      | nil =>
          rw [List.mem_singleton.1 oneListed, List.mem_singleton.1 otherListed]
      | append_singleton middle last =>
          have ends : last = head := by
            have heads := congrArg List.head? same
            simpa using heads
          rw [List.nodup_cons] at distinct
          exact (distinct.1
            (ends ▸ List.mem_append_right _ List.mem_cons_self)).elim

theorem RankedFairly.distinguished
    (fair : RankedFairly sorting collation agents)
    (distinct : agents.Nodup) : Distinguished collation agents := by
  have rows : Consistent (compareRows collation) agents := fair.comparable.rows
  intro first firstListed second secondListed equal sameId
  have tied : compareRows collation second first = .eq := by
    apply rows.eq_symm firstListed secondListed
    unfold compareRows
    rw [equal]
    exact sameId
  have permReverse := List.reverse_perm agents
  have sameSort : sorting.sort (compareRows collation) agents.reverse =
      sorting.sort (compareRows collation) agents := by
    rw [← scoreCompetition_agents, ← scoreCompetition_agents,
      fair.independent agents.reverse permReverse]
  have sameTies :=
    sorting.filter_eq rows (rows.of_subset permReverse.subset) sameSort
      firstListed (List.mem_reverse.2 firstListed)
  rw [List.filter_reverse] at sameTies
  apply eq_of_reverse (distinct.filter _) sameTies
  · exact List.mem_filter.2 ⟨firstListed, by simpa using rows.refl firstListed⟩
  · exact List.mem_filter.2 ⟨secondListed, by simpa using tied⟩

/-- A competition is ranked fairly exactly when no agent of unknown
submission time is tied by its standing with agents of two different known
times, and ids of tied agents are told apart. -/
theorem rankedFairly_iff
    (sorting : ArraySort (AgentResult Number)) (collation : Collation)
    (agents : List (AgentResult Number))
    (distinct : (agents.map AgentResult.id).Nodup) :
    RankedFairly sorting collation agents ↔
      Comparable agents ∧ Distinguished collation agents := by
  have distinctAgents := distinct.of_map AgentResult.id
  constructor
  · exact fun fair => ⟨fair.comparable, fair.distinguished distinctAgents⟩
  · exact fun both => both.1.rankedFairly both.2 distinctAgents

/-- An agent with the numbers of every agent of an example. -/
def exampleAgent (id : String) (submittedAt : Option Int) :
    AgentResult Int where
  id := id
  standing := some ⟨50, 3, 44⟩
  submittedAt := submittedAt

/-- Of tied agents with known times, the earlier one is ranked ahead. -/
theorem rankedFairly_known :
    RankedFairly (ArraySort.insertion _) Collation.byCharacters
        [exampleAgent "late" (some 2), exampleAgent "early" (some 1)] ↔
      Comparable [exampleAgent "late" (some 2), exampleAgent "early" (some 1)] ∧
        Distinguished Collation.byCharacters
          [exampleAgent "late" (some 2), exampleAgent "early" (some 1)] :=
  rankedFairly_iff (ArraySort.insertion _) Collation.byCharacters
    [exampleAgent "late" (some 2), exampleAgent "early" (some 1)]
    (by decide)

/-- An agent of unknown submission time which is tied with a later and an
earlier one. -/
theorem rankedFairly_unknown :
    ¬ RankedFairly (ArraySort.insertion _) Collation.byCharacters
        [exampleAgent "a" (some 2), exampleAgent "b" none,
          exampleAgent "c" (some 1)] := by
  intro fair
  have equal := fair.comparable (exampleAgent "b" none) (by simp)
      (exampleAgent "a" (some 2)) (by simp)
      (exampleAgent "c" (some 1)) (by simp)
      (by simp [exampleAgent]) rfl rfl rfl 2 1 rfl rfl
  cases equal

end Eris.Scoring.Ranking
