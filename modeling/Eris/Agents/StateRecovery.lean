import Eris.Agents.StateSwap

/-!
# Recovering from a death

Preparing an agent's directory may die anywhere.  Restoring may not: between
the two renames of a swap there is no directory, and the next epoch makes an
empty one.  Whether a death does harm is decided by where it happened.
-/

namespace Eris.Agents.StateRecovery

open Foundation.Crash StateDirs StateSwap

variable {host : Host} {root left : StateRoot} {point : Point Action}
    {agentId runId : String} {tree : Tree} {Result : Type} {place : Place}

/-! ## Preparing -/

/-- The action is none of those which put an agent's directory at risk. -/
def Gentle (action : Action) : Prop :=
  ∀ name, IsAgentDir name →
    action ≠ .rename (.child (restoring name)) (.child name) ∧
      action ≠ .remove (.child name)

/-- The action works in the store of checkpoints. -/
def InStore (action : Action) : Prop :=
  Gentle action ∧ ∀ name, ¬ Touches action (.child name)

theorem takeSnapshot_only (agentId runId : String) :
    (takeSnapshot agentId runId).Only InStore := by
  intro state
  dsimp only
  split
  · trivial
  · refine ⟨?_, ?_, ?_, ?_, trivial⟩
    · exact ⟨fun name _ => ⟨by simp, by simp⟩, fun name touches => touches⟩
    · exact ⟨fun name _ => ⟨by simp, by simp⟩, fun name => by simp [Touches]⟩
    · exact ⟨fun name _ => ⟨by simp, by simp⟩, fun name => by simp [Touches]⟩
    · exact ⟨fun name _ => ⟨by simp, by simp⟩, fun name => by simp [Touches]⟩

theorem pruneSnapshots_only (host : Host) :
    (pruneSnapshots host).Only InStore := by
  intro state
  apply Program.only_forEach
  intro label _
  refine ⟨⟨fun name _ => ⟨by simp, by simp⟩, ?_⟩, trivial⟩
  rintro name ⟨other, same⟩
  cases same

theorem handOver_only
    (host : Host) (agentId runId : String) (usage : TreeUsage)
    (refused : Option (String × String)) :
    (handOver host agentId runId usage refused).Only InStore := by
  apply Program.only_andThen (takeSnapshot_only agentId runId)
  intro _
  apply Program.only_andThen (pruneSnapshots_only host)
  intro _
  trivial

theorem child_of_inStore
    {program : Operation Result} {name : String} (only : program.Only InStore)
    (dies : Program.Dies device program root point left) :
    Unchanged root (.child name) left := by
  refine @Program.Only.dies _ _ _ device _ _ _ _ InStore
    (Unchanged root (.child name)) only ?_ ?_ dies rfl
  · intro action state inStore same
    exact (at?_perform state (inStore.2 name)).trans same
  · intro action state remains inStore cut same
    exact (at?_of_cut cut (inStore.2 name)).trans same

theorem child_finish_inStore
    {program : Operation Result} {name : String} (only : program.Only InStore) :
    Unchanged root (.child name) (program.finish device root).1 := by
  refine @Program.Only.finish _ _ _ device _ _ InStore
    (Unchanged root (.child name)) only ?_ rfl
  intro action state inStore same
  exact (at?_perform state (inStore.2 name)).trans same

theorem unchanged_finish_of_only
    {program : Operation Result}
    (only : program.Only fun action => ¬ Touches action place) :
    Unchanged root place (program.finish device root).1 := by
  refine
    @Program.Only.finish _ _ _ device _ _ _ (Unchanged root place) only ?_ rfl
  intro action state untouched same
  exact (at?_perform state untouched).trans same

theorem unchanged_of_only
    {program : Operation Result}
    (only : program.Only fun action => ¬ Touches action place)
    (dies : Program.Dies device program root point left) :
    Unchanged root place left := by
  refine @Program.Only.dies _ _ _ device _ _ _ _ _ (Unchanged root place) only
    ?_ ?_ dies rfl
  · intro action state untouched same
    exact (at?_perform state untouched).trans same
  · intro action state remains untouched cut same
    exact (at?_of_cut cut untouched).trans same

theorem takeSnapshot_spares
    {place : Place} (saved : Saved place) (known : root.at? place = some tree) :
    ((takeSnapshot agentId runId).finish device root).1.at? place = some tree ∧
      (Program.Dies device (takeSnapshot agentId runId) root point left →
        left.at? place = some tree) := by
  unfold takeSnapshot
  by_cases taken : (root.at? (.copy runId agentId)).isSome
  · simp only [Program.finish, if_pos taken]
    refine ⟨known, ?_⟩
    intro dies
    cases dies with
    | inspect dies =>
    simp only [if_pos taken] at dies
    cases dies
    exact known
  · have notStaged : place ≠ .copy runId (staged agentId) := by
      rintro rfl
      exact saved (endsWith_append agentId ".partial")
    have notTaken : place ≠ .copy runId agentId := by
      rintro rfl
      rw [known] at taken
      exact taken rfl
    have only : ((.act (.makeCheckpoint runId) <|
        .act (.remove (.copy runId (staged agentId))) <|
        .act (.copy (.child agentId) (.copy runId (staged agentId))) <|
        .once (.rename (.copy runId (staged agentId)) (.copy runId agentId)) :
          Operation Unit)).Only
        fun action => ¬ Touches action place := by
      refine ⟨fun touches => touches, notStaged, notStaged, ?_, trivial⟩
      rintro (same | same)
      · exact notStaged same
      · exact notTaken same
    simp only [Program.finish, if_neg taken]
    constructor
    · exact (unchanged_finish_of_only only).trans known
    · intro dies
      cases dies with
      | inspect dies =>
      simp only [if_neg taken] at dies
      exact (unchanged_of_only only dies).trans known

theorem isRunIdSnapshot_of_prunable
    {label : String} (pruned : label ∈ prunable host root) :
    isRunIdSnapshot label = true := by
  unfold prunable at pruned
  dsimp only at pruned
  split at pruned
  · cases pruned
  · have listed := List.mem_of_mem_take pruned
    exact (List.mem_filter.1 ((host.sorts.perm _ _).mem_iff.1 listed)).2

theorem pruneSnapshots_spares
    {place : Place} (known : root.at? place = some tree) :
    (((pruneSnapshots host).finish device root).1.at? place = some tree ∧
        (Program.Dies device (pruneSnapshots host) root point left →
          left.at? place = some tree)) ∨
      (((pruneSnapshots host).finish device root).1.at? place = none ∧
        ∃ label name, place = .copy label name ∧
          isRunIdSnapshot label = true) := by
  by_cases pruned :
      ∃ label ∈ prunable host root, ∃ name, place = .copy label name
  · rcases pruned with ⟨label, listed, name, rfl⟩
    refine Or.inr ⟨?_, label, name, rfl, isRunIdSnapshot_of_prunable listed⟩
    have gone : ∀ (labels : List String) (state : StateRoot), label ∈ labels →
        ((Program.forEach (fun label =>
                (.once (.removeCheckpoint label) : Operation Unit))
              labels).finish device state).1.at? (.copy label name) =
            none := by
      intro labels
      induction labels with
      | nil =>
          intro state member
          cases member
      | cons first rest ih =>
          intro state member
          rw [Program.forEach, Program.finish_andThen]
          by_cases later : label ∈ rest
          · exact ih _ later
          · have same : label = first := by simpa [later] using member
            subst same
            have removed : (perform (.removeCheckpoint label) state).at?
                  (.copy label name) =
                none := by
              simp [perform, StateRoot.at?]
            refine (unchanged_finish_of_only ?_).trans removed
            apply Program.only_forEach
            intro other listed
            refine ⟨?_, trivial⟩
            rintro ⟨same, equal⟩
            exact later ((Place.copy.inj equal).1 ▸ listed)
    exact gone (prunable host root) root listed
  · have only : (Program.forEach
        (fun label => (.once (.removeCheckpoint label) : Operation Unit))
        (prunable host root)).Only
        fun action => ¬ Touches action place := by
      apply Program.only_forEach
      intro label listed
      refine ⟨?_, trivial⟩
      rintro ⟨name, same⟩
      exact pruned ⟨label, listed, name, same⟩
    refine Or.inl ⟨(unchanged_finish_of_only only).trans known, ?_⟩
    intro dies
    cases dies with
    | inspect dies => exact (unchanged_of_only only dies).trans known

theorem handOver_spares
    {place : Place} {usage : TreeUsage} {refused : Option (String × String)}
    (saved : Saved place) (known : root.at? place = some tree) :
    ((((handOver host agentId runId usage refused).finish device root).1.at?
          place =
          some tree ∨
        ∃ label name, place = .copy label name ∧
          isRunIdSnapshot label = true)) ∧
      (((handOver host agentId runId usage refused).finish device root).1.at?
            place =
          some tree →
        Program.Dies device (handOver host agentId runId usage refused) root
            point left →
          left.at? place = some tree) := by
  have taken :=
    @takeSnapshot_spares root left point agentId runId tree place saved known
  have ending :
      ((handOver host agentId runId usage refused).finish device root).1 =
        ((pruneSnapshots host).finish device
          ((takeSnapshot agentId runId).finish device root).1).1 := by
    simp only [handOver, Program.finish_andThen, Program.finish]
  rw [ending]
  rcases @pruneSnapshots_spares host _ left point tree place taken.1 with
    ⟨kept, spared⟩ | ⟨gone, pruned⟩
  · refine ⟨Or.inl kept, fun _ dies => ?_⟩
    rcases Program.Dies.of_andThen dies with ⟨_, dies⟩ | dies
    · exact taken.2 dies
    · rcases Program.Dies.of_andThen dies with ⟨_, dies⟩ | dies
      · exact spared dies
      · cases dies
        exact kept
  · refine ⟨Or.inr pruned, fun kept => ?_⟩
    rw [gone] at kept
    cases kept

theorem prepareAgentState_only
    (host : Host) (agentId runId : String) (limits : StateDirLimits) :
    (prepareAgentState host agentId runId limits).Only Gentle := by
  have handsOver : ∀ usage refused,
        (handOver host agentId runId usage refused).Only Gentle :=
    fun usage refused =>
      (handOver_only host agentId runId usage refused).mono
        fun _ inStore => inStore.1
  have makes : Gentle (.make (.child agentId)) :=
    fun name _ => ⟨by simp, by simp⟩
  unfold prepareAgentState
  split
  · trivial
  · trivial
  · refine ⟨makes, ?_⟩
    intro state
    unfold validateAndHandOver
    dsimp only
    split
    · exact handsOver _ _
    · refine ⟨?_, makes, handsOver _ _⟩
      intro name agent
      refine ⟨?_, by simp⟩
      intro same
      have aside := Place.child.inj (Action.rename.inj same).2
      apply agent.2.2.2
      rw [← aside]
      exact (refusedTo_free state agentId runId).2

theorem leaves_of_gentle
    {program : Operation Result} (gentle : program.Only Gentle)
    (dies : Program.Dies device program root point left)
    (found : ∀ agentId, IsAgentDir agentId →
        finds left agentId = finds root agentId ∨
          finds left agentId = finds (program.finish device root).1 agentId)
    (saved : ∀ place tree, Saved place → root.at? place = some tree →
        (program.finish device root).1.at? place = some tree →
          left.at? place = some tree) :
    Leaves root (program.finish device root).1 left point where
  found agentId agent := (found agentId agent).imp_right Or.inl
  between agentId agent same := by
    rcases gentle.point_eq dies with
      ended | ⟨action, mild, before | during⟩
    · rw [same] at ended
      cases ended
    · rw [same] at before
      exact ((mild agentId agent).1 (Point.before.inj before).symm).elim
    · rw [same] at during
      cases during
  removing agentId agent same := by
    rcases gentle.point_eq dies with
      ended | ⟨action, mild, before | during⟩
    · rw [same] at ended
      cases ended
    · rw [same] at before
      cases before
    · rw [same] at during
      exact ((mild agentId agent).2 (Point.during.inj during).symm).elim
  saved := saved

/-- Everything saved in a root is still there. -/
def Spares (root state : StateRoot) : Prop :=
  ∀ place tree, Saved place → root.at? place = some tree →
    state.at? place = some tree

theorem not_touches_of_saved
    (agent : IsAgentDir agentId) (saved : Saved place) :
    place ≠ .child agentId := by
  rintro rfl
  exact agent.2.2.2 saved

section HandOver

variable {start : StateRoot} {usage : TreeUsage}
    {refused : Option (String × String)}

theorem finds_handOver (name : String) :
    finds ((handOver host agentId runId usage refused).finish device start).1
        name =
      finds start name :=
  finds_congr (child_finish_inStore (handOver_only _ _ _ _ _))

theorem finds_of_handOver
    (dies :
      Program.Dies device (handOver host agentId runId usage refused) start
        point left)
    (name : String) :
    finds left name = finds start name :=
  finds_congr (child_of_inStore (handOver_only _ _ _ _ _) dies)

theorem Spares.keptByHandOver (spares : Spares root start) :
    KeepsSaved root
      ((handOver host agentId runId usage refused).finish device start).1 := by
  intro place tree saved known
  exact (@handOver_spares host start start .ended agentId runId tree place usage
    refused saved (spares place tree saved known)).1

theorem Spares.keptInHandOver
    (spares : Spares root start)
    (dies :
      Program.Dies device (handOver host agentId runId usage refused) start
        point left) :
    ∀ place tree, Saved place → root.at? place = some tree →
      ((handOver host agentId runId usage refused).finish device start).1.at?
          place =
        some tree →
        left.at? place = some tree := by
  intro place tree saved known kept
  exact (handOver_spares saved (spares place tree saved known)).2 kept dies

end HandOver

theorem unchanged_make
    (other : place ≠ .child agentId) :
    Unchanged root place (perform (.make (.child agentId)) root) :=
  @at?_perform (.make (.child agentId)) place root other

theorem spares_make (agent : IsAgentDir agentId) :
    Spares root (perform (.make (.child agentId)) root) :=
  fun _ _ saved known =>
    (unchanged_make (not_touches_of_saved agent saved)).trans known

theorem finds_make (name : String) :
    finds (perform (.make (.child agentId)) root) name = finds root name := by
  by_cases own : name = agentId
  · rw [own, finds, at?_make, Option.getD_some]
  · apply finds_congr
    apply unchanged_make
    intro same
    exact own (Place.child.inj same)

theorem unchanged_setAside
    (other : place ≠ .child agentId)
    (known : place ≠ .child (refusedTo root agentId runId)) :
    Unchanged root place (perform
        (.rename (.child agentId) (.child (refusedTo root agentId runId)))
        root) := by
  apply at?_perform
  rintro (same | same)
  · exact other same
  · exact known same

theorem spares_setAside (agent : IsAgentDir agentId) :
    Spares root (perform
        (.rename (.child agentId) (.child (refusedTo root agentId runId)))
        root) := by
  intro place tree saved known
  refine (unchanged_setAside (not_touches_of_saved agent saved) ?_).trans known
  rintro rfl
  rw [(refusedTo_free root agentId runId).1] at known
  cases known

/-- What a death leaves, between a root and what an operation makes of it. -/
def Recoverable (root completed left : StateRoot) : Prop :=
  (∀ agentId, IsAgentDir agentId → finds left agentId = finds root agentId ∨
      finds left agentId = finds completed agentId) ∧
  ∀ place tree, Saved place → root.at? place = some tree →
    completed.at? place = some tree → left.at? place = some tree

theorem recoverable_of_spares
    {completed : StateRoot}
    (found : ∀ agentId, IsAgentDir agentId →
        finds left agentId = finds root agentId ∨
          finds left agentId = finds completed agentId)
    (spares : Spares root left) :
    Recoverable root completed left :=
  ⟨found, fun place tree saved known _ => spares place tree saved known⟩

theorem recoverable_of_accepted
    {usage : TreeUsage} (agent : IsAgentDir agentId)
    (dies : Program.Dies device (handOver host agentId runId usage none)
        (perform (.make (.child agentId)) root) point left) :
    Recoverable root ((handOver host agentId runId usage none).finish device
        (perform (.make (.child agentId)) root)).1 left := by
  constructor
  · intro name _
    left
    rw [finds_of_handOver dies, finds_make]
  · exact (spares_make agent).keptInHandOver dies

/-- The root after a refused directory was set aside. -/
def asideRoot (root : StateRoot) (agentId runId : String) : StateRoot :=
  perform
    (.rename (.child agentId) (.child (refusedTo root agentId runId))) root

theorem spares_asideRoot (agent : IsAgentDir agentId) :
    Spares root
        (asideRoot (perform (.make (.child agentId)) root) agentId runId) ∧
      Spares root (perform (.make (.child agentId))
          (asideRoot (perform (.make (.child agentId)) root) agentId
            runId)) := by
  have aside : Spares root
        (asideRoot (perform (.make (.child agentId)) root) agentId runId) :=
    fun place tree saved known =>
      spares_setAside agent place tree saved
        (spares_make agent place tree saved known)
  exact ⟨aside, fun place tree saved known =>
      spares_make agent place tree saved (aside place tree saved known)⟩

theorem recoverable_of_refused
    {usage : TreeUsage} {refused : Option (String × String)}
    (agent : IsAgentDir agentId)
    (dies : Program.Dies device (.act (.rename (.child agentId) (.child
                (refusedTo (perform (.make (.child agentId)) root) agentId
                  runId))) <|
          .act (.make (.child agentId)) <|
            handOver host agentId runId usage refused)
        (perform (.make (.child agentId)) root) point left) :
    Recoverable root ((handOver host agentId runId usage refused).finish device
        (perform (.make (.child agentId))
          (asideRoot (perform (.make (.child agentId)) root) agentId
            runId))).1 left := by
  have spares := @spares_asideRoot root agentId runId agent
  cases dies with
  | before =>
      apply recoverable_of_spares _ (spares_make agent)
      intro name _
      exact Or.inl (finds_make name)
  | during cut => exact cut.elim
  | later dies =>
  change Program.Dies device _
    (asideRoot (perform (.make (.child agentId)) root) agentId runId) point
    left at dies
  cases dies with
  | before =>
      apply recoverable_of_spares _ spares.1
      intro name _
      right
      rw [finds_handOver, finds_make]
  | during cut => exact cut.elim
  | later dies =>
      constructor
      · intro name _
        right
        rw [finds_of_handOver dies, finds_handOver]
        rfl
      · exact spares.2.keptInHandOver dies

theorem recoverable_of_validated
    {limits : StateDirLimits} (agent : IsAgentDir agentId) :
    (Program.Dies device (validateAndHandOver host agentId runId limits
          (perform (.make (.child agentId)) root))
        (perform (.make (.child agentId)) root) point left →
      Recoverable root ((validateAndHandOver host agentId runId limits
          (perform (.make (.child agentId)) root)).finish device
          (perform (.make (.child agentId)) root)).1 left) ∧
      KeepsSaved root ((validateAndHandOver host agentId runId limits
          (perform (.make (.child agentId)) root)).finish device
          (perform (.make (.child agentId)) root)).1 := by
  unfold validateAndHandOver
  dsimp only
  split
  · exact ⟨recoverable_of_accepted agent, (spares_make agent).keptByHandOver⟩
  · exact
      ⟨recoverable_of_refused agent, (spares_asideRoot agent).2.keptByHandOver⟩

theorem leaves_of_prepare
    {limits : StateDirLimits} (agent : IsAgentDir agentId)
    (dies :
      Program.Dies device (prepareAgentState host agentId runId limits) root
        point left) :
    Leaves root
        ((prepareAgentState host agentId runId limits).finish device root).1
        left point ∧
      KeepsSaved root
        ((prepareAgentState host agentId runId limits).finish device
          root).1 := by
  have gentle := prepareAgentState_only host agentId runId limits
  suffices Recoverable root
        ((prepareAgentState host agentId runId limits).finish device root).1
        left ∧
      KeepsSaved root
        ((prepareAgentState host agentId runId limits).finish device
          root).1 from
    ⟨leaves_of_gentle gentle dies this.1.1 this.1.2, this.2⟩
  have untouched : ∀ completed, Recoverable root completed root :=
    fun completed =>
      ⟨fun name _ => Or.inl rfl, fun place tree _ known _ => known⟩
  have nothing : KeepsSaved root root := fun place tree _ known => Or.inl known
  unfold prepareAgentState at dies ⊢
  split
  · next reason _ refused =>
      simp only [refused] at dies
      cases dies
      exact ⟨untouched _, nothing⟩
  · next reason accepted refused =>
      simp only [accepted, refused] at dies
      cases dies
      exact ⟨untouched _, nothing⟩
  · next accepted also =>
      simp only [accepted, also] at dies
      have kept :=
        (@recoverable_of_validated host root left point agentId runId limits
          agent).2
      refine ⟨?_, kept⟩
      cases dies with
      | before => exact untouched _
      | during cut => exact cut.elim
      | later dies =>
          cases dies with
          | inspect dies => exact (recoverable_of_validated agent).1 dies

/-! ## The next epoch -/

inductive Command where
  | prepare (agentId : { name // IsAgentDir name }) (runId : String)
      (limits : StateDirLimits)
  | restore (agentId : { name // IsAgentDir name }) (runId : String)
  | restoreAll (label : String)

def Command.program (host : Host) : Command → Operation Unit
  | .prepare agentId runId limits =>
      (prepareAgentState host agentId.val runId limits).andThen fun _ =>
        .done ()
  | .restore agentId runId =>
      (restoreAgentState agentId.val runId).andThen fun _ => .done ()
  | .restoreAll label =>
      (restoreAllAgentState label).andThen fun _ => .done ()

/-- The root after a command which does not die. -/
def Command.completed (host : Host) (command : Command) (root : StateRoot) :
    StateRoot :=
  ((command.program host).finish device root).1

theorem leaves_of_finished
    {program : Operation Result}
    (leaves : ∀ point left, Program.Dies device program root point left →
        Leaves root (program.finish device root).1 left point ∧
          KeepsSaved root (program.finish device root).1)
    (dies : Program.Dies device
        (program.andThen fun _ => (.done () : Operation Unit)) root point
        left) :
    Leaves root
        ((program.andThen fun _ => (.done () : Operation Unit)).finish device
          root).1 left point ∧
      KeepsSaved root
        ((program.andThen fun _ => (.done () : Operation Unit)).finish device
          root).1 := by
  rw [Program.finish_andThen]
  rcases Program.Dies.of_andThen dies with ⟨_, inside⟩ | ended
  · exact leaves point left inside
  · cases ended
    exact ⟨leaves_completed _ _, (leaves .ended _ (Program.dies_finish root)).2⟩

theorem leaves_of_command
    (command : Command)
    (dies : Program.Dies device (command.program host) root point left) :
    Leaves root (command.completed host root) left point ∧
      KeepsSaved root (command.completed host root) := by
  cases command with
  | prepare agentId runId limits =>
      apply leaves_of_finished _ dies
      intro point left inside
      exact leaves_of_prepare agentId.property inside
  | restore agentId runId =>
      apply leaves_of_finished _ dies
      intro point left inside
      exact leaves_of_restore agentId.property runId inside
  | restoreAll label =>
      apply leaves_of_finished _ dies
      intro point left inside
      exact leaves_of_restoreAll label inside

/-- A death does no harm where it happened. -/
def Harmless
    (root completed left : StateRoot) (point : Point Action) : Prop :=
  ∀ agentId, IsAgentDir agentId → (point = betweenRenames agentId →
      finds root agentId = .empty ∨ finds completed agentId = .empty) ∧
    (point = .during (.remove (.child agentId)) →
      finds left agentId = finds root agentId ∨ finds left agentId = .empty)

/-- The next epoch finds the old state or the new one after harmless deaths. -/
theorem recoverable_iff
    (command : Command)
    (dies : Program.Dies device (command.program host) root point left) :
    (∀ agentId, (perform (.make (.child agentId)) left).at? (.child agentId) =
        some (finds left agentId)) ∧
    KeepsSaved root (command.completed host root) ∧
    (Recoverable root (command.completed host root) left ↔
      Harmless root (command.completed host root) left point) := by
  rcases leaves_of_command command dies with ⟨leaves, keeps⟩
  refine ⟨at?_make, keeps, ?_⟩
  constructor
  · intro recoverable agentId agent
    have found := recoverable.1 agentId agent
    constructor
    · intro between
      rw [leaves.between agentId agent between] at found
      exact found.imp Eq.symm Eq.symm
    · intro removing
      rw [leaves.removing agentId agent removing] at found
      exact found
  · intro harmless
    refine ⟨?_, leaves.saved⟩
    intro agentId agent
    rcases leaves.found agentId agent with
      old | new | between | removing
    · exact Or.inl old
    · exact Or.inr new
    · rw [leaves.between agentId agent between]
      exact ((harmless agentId agent).1 between).imp Eq.symm Eq.symm
    · rw [leaves.removing agentId agent removing]
      exact (harmless agentId agent).2 removing

def strategy (bytes : List UInt8) : Tree :=
  ⟨none, [⟨["versions.json"], .file bytes⟩]⟩

/-- An agent which went on from the epoch's snapshot. -/
def improvedRoot : StateRoot where
  children := AList.singleton "venue-arb" (strategy [2])
  checkpoints :=
    AList.singleton "epoch-1" (AList.singleton "venue-arb" (strategy [1]))

def restoreVenueArb : Command := .restore ⟨"venue-arb", by decide⟩ "epoch-1"

/-- The root when the process died between the renames. -/
def abandonedRoot : StateRoot :=
  perform (.rename (.child "venue-arb") (.child (outgoing "venue-arb")))
    (stagedRoot "epoch-1" "venue-arb" improvedRoot)

theorem at?_improvedRoot :
    improvedRoot.at? (.copy "epoch-1" "venue-arb") = some (strategy [1]) ∧
      improvedRoot.at? (.child "venue-arb") = some (strategy [2]) := by
  decide

theorem dies_betweenRenames (host : Host) :
    Program.Dies device (restoreVenueArb.program host) improvedRoot
      (betweenRenames "venue-arb") abandonedRoot := by
  have accepted : assertPathSegment "venue-arb" = .ok () := by
    rw [assertPathSegment, if_neg (by decide)]
  have also : assertPathSegment "epoch-1" = .ok () := by
    rw [assertPathSegment, if_neg (by decide)]
  have present : (improvedRoot.at? (.copy "epoch-1" "venue-arb")).isSome := by
    rw [at?_improvedRoot.1]
    rfl
  have own : ((stagedRoot "epoch-1" "venue-arb" improvedRoot).at?
      (.child "venue-arb")).isSome := by
    rw [(at?_stagedRoot at?_improvedRoot.1).2, at?_improvedRoot.2]
    rfl
  simp only [restoreVenueArb, Command.program, restoreAgentState, accepted,
    also, Program.andThen]
  apply Program.Dies.inspect
  rw [if_pos present]
  simp only [swapIn, Program.andThen]
  refine .later (.later (.later ?_))
  apply Program.Dies.inspect
  change Program.Dies device (Program.andThen _ (Program.andThen _
        (if ((stagedRoot "epoch-1" "venue-arb" improvedRoot).at?
            (.child "venue-arb")).isSome then _ else _)))
    (stagedRoot "epoch-1" "venue-arb" improvedRoot) _ _
  rw [if_pos own]
  exact .later .before

/-- A machine which keeps eight snapshots. -/
def plainHost : Host where
  mtimeMs _ _ := 0
  collation := .byCharacters
  sorts := .insertion String
  snapshotsKept := 8

theorem finds_abandonedRoot :
    finds abandonedRoot "venue-arb" = .empty ∧
      finds improvedRoot "venue-arb" = strategy [2] ∧
        finds (restoreVenueArb.completed plainHost improvedRoot) "venue-arb" =
          strategy [1] := by
  decide

/-- A swap which dies between its renames loses the agent's state. -/
theorem swapIn_not_crashSafe :
    ¬ ∀ (command : Command) (root : StateRoot) (point : Point Action)
        (left : StateRoot),
        Program.Dies device (command.program plainHost) root point left →
          Recoverable root (command.completed plainHost root) left := by
  intro safe
  have recoverable :=
    safe restoreVenueArb improvedRoot (betweenRenames "venue-arb")
      abandonedRoot (dies_betweenRenames plainHost)
  have found := recoverable.1 "venue-arb" (by decide)
  rw [finds_abandonedRoot.1, finds_abandonedRoot.2.1,
    finds_abandonedRoot.2.2] at found
  rcases found with old | new
  · cases old
  · cases new

/-- The death between the renames is not a harmless one. -/
theorem recoverable_iff_betweenRenames :
    (∀ agentId, (perform (.make (.child agentId)) abandonedRoot).at?
          (.child agentId) =
        some (finds abandonedRoot agentId)) ∧
    KeepsSaved improvedRoot (restoreVenueArb.completed plainHost improvedRoot) ∧
    (Recoverable improvedRoot
        (restoreVenueArb.completed plainHost improvedRoot) abandonedRoot ↔
      Harmless improvedRoot
        (restoreVenueArb.completed plainHost improvedRoot) abandonedRoot
        (betweenRenames "venue-arb")) :=
  recoverable_iff restoreVenueArb (dies_betweenRenames plainHost)

end Eris.Agents.StateRecovery
