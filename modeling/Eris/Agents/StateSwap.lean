import Eris.Agents.StateDirs

/-!
# Dying while state is swapped

The next epoch finds an agent's directory to be what it was, or what the
interrupted operation makes of it, unless the operation died between the two
renames of a swap or part of the way through removing a directory.  Saved
copies are never lost.
-/

namespace Eris.Agents.StateSwap

open Foundation.Crash StateDirs

/-! ## Places -/

section Places

variable {root : StateRoot} {tree : Tree} {place other : Place}

@[simp]
theorem at?_put_self : (root.put tree place).at? place = some tree := by
  cases place with
  | child name => simp [StateRoot.put, StateRoot.at?]
  | copy label name => simp [StateRoot.put, StateRoot.at?]

theorem at?_put_of_ne (different : other ≠ place) :
    (root.put tree place).at? other = root.at? other := by
  cases place with
  | child name =>
      cases other with
      | child otherName =>
          have names : otherName ≠ name := fun same => different (same ▸ rfl)
          simp [StateRoot.put, StateRoot.at?, AList.lookup_insert_ne names]
      | copy otherLabel otherName => rfl
  | copy label name =>
      cases other with
      | child otherName => rfl
      | copy otherLabel otherName =>
          by_cases labels : otherLabel = label
          · subst labels
            have names : otherName ≠ name := fun same => different (same ▸ rfl)
            simp only [StateRoot.put, StateRoot.at?, AList.lookup_insert,
              Option.bind_some, AList.lookup_insert_ne names,
              StateRoot.checkpoint]
            cases root.checkpoints.lookup otherLabel with
            | none => rfl
            | some checkpoint => rfl
          · simp [StateRoot.put, StateRoot.at?, AList.lookup_insert_ne labels]

@[simp]
theorem at?_drop_self : (root.drop place).at? place = none := by
  cases place with
  | child name => simp [StateRoot.drop, StateRoot.at?]
  | copy label name =>
      cases found : root.checkpoints.lookup label with
      | none => simp [StateRoot.drop, StateRoot.at?, found]
      | some checkpoint => simp [StateRoot.drop, StateRoot.at?, found]

theorem at?_drop_of_ne (different : other ≠ place) :
    (root.drop place).at? other = root.at? other := by
  cases place with
  | child name =>
      cases other with
      | child otherName =>
          have names : otherName ≠ name := fun same => different (same ▸ rfl)
          simp [StateRoot.drop, StateRoot.at?, AList.lookup_erase_ne names]
      | copy otherLabel otherName => rfl
  | copy label name =>
      cases found : root.checkpoints.lookup label with
      | none => simp [StateRoot.drop, found]
      | some checkpoint =>
          cases other with
          | child otherName => simp [StateRoot.drop, StateRoot.at?, found]
          | copy otherLabel otherName =>
              by_cases labels : otherLabel = label
              · subst labels
                have names : otherName ≠ name :=
                  fun same => different (same ▸ rfl)
                simp [StateRoot.drop, StateRoot.at?, found,
                  AList.lookup_erase_ne names]
              · simp [StateRoot.drop, StateRoot.at?, found,
                  AList.lookup_insert_ne labels]

end Places

/-- The action may change what is at the place. -/
def Touches : Action → Place → Prop
  | .make target, place => place = target
  | .makeCheckpoint _, _ => False
  | .remove target, place => place = target
  | .removeCheckpoint label, place => ∃ name, place = .copy label name
  | .copy _ target, place => place = target
  | .rename source target, place => place = source ∨ place = target

theorem at?_perform
    {action : Action} {place : Place} (root : StateRoot)
    (untouched : ¬ Touches action place) :
    (perform action root).at? place = root.at? place := by
  cases action with
  | make target =>
      simp only [perform]
      split
      · exact at?_put_of_ne untouched
      · rfl
  | makeCheckpoint label =>
      simp only [perform]
      split
      · next missing =>
          cases place with
          | child name => rfl
          | copy otherLabel name =>
              by_cases labels : otherLabel = label
              · subst labels
                simp [StateRoot.at?, missing]
              · simp [StateRoot.at?, AList.lookup_insert_ne labels]
      · rfl
  | remove target => exact at?_drop_of_ne untouched
  | removeCheckpoint label =>
      cases place with
      | child name => rfl
      | copy otherLabel name =>
          have labels : otherLabel ≠ label :=
            fun same => untouched ⟨name, same ▸ rfl⟩
          simp [perform, StateRoot.at?, AList.lookup_erase_ne labels]
  | copy source target =>
      simp only [perform]
      split
      · rfl
      · exact at?_put_of_ne untouched
  | rename source target =>
      simp only [perform]
      split
      · rfl
      · rw [at?_put_of_ne fun same => untouched (Or.inr same),
          at?_drop_of_ne fun same => untouched (Or.inl same)]

theorem at?_of_cut
    {action : Action} {place : Place} {root left : StateRoot}
    (cut : Cut action root left) (untouched : ¬ Touches action place) :
    left.at? place = root.at? place := by
  cases action with
  | remove target =>
      rcases cut with ⟨tree, rest, _, _, rfl⟩
      exact at?_put_of_ne untouched
  | removeCheckpoint label =>
      rcases cut with ⟨rest, _, rfl⟩
      cases place with
      | child name => rfl
      | copy otherLabel name =>
          have labels : otherLabel ≠ label :=
            fun same => untouched ⟨name, same ▸ rfl⟩
          simp [StateRoot.at?, AList.lookup_insert_ne labels]
  | copy source target =>
      rcases cut with ⟨whole, made, _, _, rfl⟩
      exact at?_put_of_ne untouched
  | make target => exact cut.elim
  | makeCheckpoint label => exact cut.elim
  | rename source target => exact cut.elim

theorem endsWith_append (name ending : String) :
    EndsWith (name ++ ending) ending := by
  rw [EndsWith, String.toList_append]
  exact List.suffix_append _ _

theorem ne_restoring
    {name other : String} (agent : IsAgentDir name) :
    name ≠ restoring other := by
  rintro rfl
  exact agent.2.1 (endsWith_append other ".restoring")

theorem ne_outgoing
    {name other : String} (agent : IsAgentDir name) :
    name ≠ outgoing other := by
  rintro rfl
  exact agent.2.2.1 (endsWith_append other ".outgoing")

theorem includes_refusedName (name runId : String) (attempt : ℕ) :
    Includes (refusedName name runId attempt) ".refused-" := by
  unfold refusedName Includes
  split
  · simp only [String.toList_append]
    exact ⟨name.toList, runId.toList, rfl⟩
  · simp only [String.toList_append, List.append_assoc]
    exact ⟨name.toList, _, List.append_assoc _ _ _⟩

theorem infix_of_infix_append
    {Item : Type} {part first second : List Item} {last : Item}
    (within : part ++ [last] <:+: first ++ second) (absent : last ∉ second) :
    part ++ [last] <:+: first := by
  rcases within with ⟨before, after, split⟩
  rw [List.append_eq_append_iff] at split
  rcases split with ⟨middle, rfl, _⟩ | ⟨middle, whole, rfl⟩
  · exact ⟨before, middle, rfl⟩
  · rcases List.eq_nil_or_concat middle with rfl | ⟨front, final, rfl⟩
    · rw [List.append_nil] at whole
      exact ⟨before, [], by rw [List.append_nil, whole]⟩
    · rw [List.concat_eq_append, ← List.append_assoc,
        ← List.append_assoc] at whole
      have same := List.singleton_inj.1 (List.append_inj' whole rfl).2
      simp [same] at absent

theorem includes_of_append
    {name ending : String} (dashless : '-' ∉ ending.toList)
    (includes : Includes (name ++ ending) ".refused-") :
    Includes name ".refused-" := by
  rw [Includes, String.toList_append] at includes
  exact @infix_of_infix_append _ ".refused".toList _ _ '-' includes dashless

theorem refusedName_injective
    {name runId : String} {first second : ℕ}
    (same : refusedName name runId first = refusedName name runId second) :
    first = second := by
  have lengths := congrArg String.length same
  have dash : "-".length = 1 := rfl
  unfold refusedName at same lengths
  split_ifs at same lengths with one two two
  · rw [one, two]
  · simp only [String.length_append] at lengths
    omega
  · simp only [String.length_append] at lengths
    omega
  · exact Nat.repr_injective ((String.append_right_inj _).1 same)

theorem refusedTo_free (root : StateRoot) (name runId : String) :
    root.at? (.child (refusedTo root name runId)) = none ∧
      Includes (refusedTo root name runId) ".refused-" := by
  have some_free : ∃ candidate ∈
        (List.range' 1 (root.children.keys.length + 1)).map
          (refusedName name runId),
      candidate ∉ root.children.keys := by
    by_contra none
    push Not at none
    have distinct : ((List.range' 1 (root.children.keys.length + 1)).map
          (refusedName name runId)).Nodup :=
      (@List.nodup_range' 1 _ 1 Nat.one_pos).map
        fun _ _ => refusedName_injective
    have shorter := (distinct.subperm none).length_le
    simp at shorter
  unfold refusedTo
  dsimp only
  cases found : ((List.range' 1 (root.children.keys.length + 1)).map
    (refusedName name runId)).find? fun candidate =>
          candidate ∉ root.children.keys with
  | none =>
      rcases some_free with ⟨candidate, listed, free⟩
      have missed := List.find?_eq_none.1 found candidate listed
      simp [free] at missed
  | some candidate =>
      have free := List.find?_some found
      have listed := List.mem_of_find?_eq_some found
      rcases List.mem_map.1 listed with ⟨attempt, _, rfl⟩
      refine ⟨?_, includes_refusedName name runId attempt⟩
      rw [decide_eq_true_eq] at free
      exact AList.lookup_eq_none.2 free

/-! ## Swapping one directory -/

variable {host : Host} {root left : StateRoot} {point : Point Action}
    {label name : String} {tree : Tree}
    {names : List String} {start completed : StateRoot}

/-- What the next epoch finds an agent's directory to be. -/
def finds (root : StateRoot) (agentId : String) : Tree :=
  (root.at? (.child agentId)).getD .empty

theorem at?_make (agentId : String) :
    (perform (.make (.child agentId)) root).at? (.child agentId) =
      some (finds root agentId) := by
  unfold finds
  simp only [perform]
  cases known : root.at? (.child agentId) with
  | none => exact at?_put_self
  | some tree => exact known

/-- The directory was moved away, and its replacement is still beside it. -/
def betweenRenames (name : String) : Point Action :=
  .before (.rename (.child (restoring name)) (.child name))

def SwapsAt (name : String) (place : Place) : Prop :=
  place = .child name ∨ place = .child (restoring name) ∨
    place = .child (outgoing name)

def OfSwap (name : String) (action : Action) : Prop :=
  (∀ place, Touches action place → SwapsAt name place) ∧
    action ≠ .remove (.child name) ∧ ∀ other,
        action = .rename (.child (restoring other)) (.child other) →
          other = name

theorem swapIn_only (label name : String) :
    (swapIn (.copy label name) name).Only (OfSwap name) := by
  have removesStaged : OfSwap name (.remove (.child (restoring name))) := by
    refine ⟨fun place same => Or.inr (Or.inl same), ?_, by simp⟩
    simp [restoring, String.ext_iff]
  have removesOld : OfSwap name (.remove (.child (outgoing name))) := by
    refine ⟨fun place same => Or.inr (Or.inr same), ?_, by simp⟩
    simp [outgoing, String.ext_iff]
  have copies :
      OfSwap name (.copy (.copy label name) (.child (restoring name))) := by
    exact ⟨fun place same => Or.inr (Or.inl same), by simp, by simp⟩
  have putsAway :
      OfSwap name (.rename (.child name) (.child (outgoing name))) := by
    refine ⟨?_, by simp, ?_⟩
    · rintro place (same | same)
      · exact Or.inl same
      · exact Or.inr (Or.inr same)
    · intro other same
      simp only [Action.rename.injEq, Place.child.injEq, restoring,
        outgoing] at same
      rcases same with ⟨rfl, same⟩
      have lengths := congrArg String.length same
      have suffix : ".restoring".length = 10 := rfl
      simp only [String.length_append] at lengths
      omega
  have putsBack :
      OfSwap name (.rename (.child (restoring name)) (.child name)) := by
    refine ⟨?_, by simp, ?_⟩
    · rintro place (same | same)
      · exact Or.inr (Or.inl same)
      · exact Or.inl same
    · intro other same
      exact (Place.child.inj (Action.rename.inj same).2).symm
  refine ⟨removesStaged, removesOld, copies, ?_⟩
  intro state
  dsimp only
  split
  · exact ⟨putsAway, putsBack, removesOld, trivial⟩
  · exact ⟨putsBack, removesOld, trivial⟩

def Unchanged (root : StateRoot) (place : Place) (state : StateRoot) : Prop :=
  state.at? place = root.at? place

theorem at?_of_swapIn_dies
    {place : Place}
    (dies :
      Program.Dies device (swapIn (.copy label name) name) root point left)
    (other : ¬ SwapsAt name place) :
    Unchanged root place left := by
  refine @Program.Only.dies _ _ _ device _ _ _ _ (OfSwap name)
    (Unchanged root place) (swapIn_only label name) ?_ ?_ dies rfl
  · intro action state swap same
    exact (at?_perform state fun touches =>
        other (swap.1 place touches)).trans same
  · intro action state remains swap cut same
    exact
      (at?_of_cut cut fun touches => other (swap.1 place touches)).trans same

theorem at?_swapIn_finish
    {place : Place} (other : ¬ SwapsAt name place) :
    Unchanged root place
      ((swapIn (.copy label name) name).finish device root).1 := by
  refine @Program.Only.finish _ _ _ device _ _ (OfSwap name)
    (Unchanged root place) (swapIn_only label name) ?_ rfl
  intro action state swap same
  exact
    (at?_perform state fun touches => other (swap.1 place touches)).trans same

theorem child_ne_restoring (name : String) :
    Place.child name ≠ .child (restoring name) := by
  simp [restoring, String.ext_iff]

theorem child_ne_outgoing (name : String) :
    Place.child name ≠ .child (outgoing name) := by
  simp [outgoing, String.ext_iff]

theorem restoring_ne_outgoing (name : String) :
    Place.child (restoring name) ≠ .child (outgoing name) := by
  simp [restoring, outgoing, String.ext_iff]

theorem perform_copy
    {source target : Place} (known : root.at? source = some tree) :
    perform (.copy source target) root =
      root.put (regularEntriesOnly tree) target := by
  simp [perform, known]

theorem perform_rename
    {source target : Place} (known : root.at? source = some tree) :
    perform (.rename source target) root =
      (root.drop source).put tree target := by
  simp [perform, known]

/-- The root after a swap has staged its copy. -/
def stagedRoot (label name : String) (root : StateRoot) : StateRoot :=
  perform (.copy (.copy label name) (.child (restoring name)))
    (perform (.remove (.child (outgoing name)))
      (perform (.remove (.child (restoring name))) root))

theorem at?_stagedRoot (source : root.at? (.copy label name) = some tree) :
    (stagedRoot label name root).at? (.child (restoring name)) =
        some (regularEntriesOnly tree) ∧
      (stagedRoot label name root).at? (.child name) =
        root.at? (.child name) := by
  have kept : (perform (.remove (.child (outgoing name)))
        (perform (.remove (.child (restoring name))) root)).at?
      (.copy label name) =
      some tree := by
    rw [at?_perform _ (by simp [Touches]), at?_perform _ (by simp [Touches]),
      source]
  rw [stagedRoot, perform_copy kept]
  constructor
  · exact at?_put_self
  · rw [at?_put_of_ne (child_ne_restoring name)]
    exact (at?_drop_of_ne (child_ne_outgoing name)).trans
      (at?_drop_of_ne (child_ne_restoring name))

theorem at?_putBack
    (stagedCopy : root.at? (.child (restoring name)) = some tree) :
    (perform (.rename (.child (restoring name)) (.child name)) root).at?
        (.child name) =
      some tree := by
  rw [perform_rename stagedCopy]
  exact at?_put_self

/-- Where a swap dies, and what is left of its directory. -/
structure SwapLeaves
    (root left : StateRoot) (name : String) (tree : Tree)
    (point : Point Action) :
    Prop where
  directory : left.at? (.child name) = root.at? (.child name) ∨
      left.at? (.child name) = some (regularEntriesOnly tree) ∨
        point = betweenRenames name
  between : point = betweenRenames name → left.at? (.child name) = none

theorem at?_of_cut_remove
    {place other : Place} (cut : Cut (.remove place) root left)
    (different : other ≠ place) :
    left.at? other = root.at? other :=
  @at?_of_cut (.remove place) other root left cut different

theorem at?_of_cut_copy
    {source place other : Place} (cut : Cut (.copy source place) root left)
    (different : other ≠ place) :
    left.at? other = root.at? other :=
  @at?_of_cut (.copy source place) other root left cut different

theorem swapLeaves_of_putBack
    {before : StateRoot}
    (stagedCopy :
      root.at? (.child (restoring name)) = some (regularEntriesOnly tree))
    (away : root.at? (.child name) = none)
    (dies : Program.Dies device
        (.act (.rename (.child (restoring name)) (.child name))
          (.once (.remove (.child (outgoing name)))))
        root point left) :
    SwapLeaves before left name tree point := by
  cases dies with
  | before => exact ⟨Or.inr (Or.inr rfl), fun _ => away⟩
  | during cut => exact cut.elim
  | later dies =>
  have back :
      (perform (.rename (.child (restoring name)) (.child name)) root).at?
          (.child name) =
        some (regularEntriesOnly tree) := by
    exact at?_putBack stagedCopy
  cases dies with
  | before => exact ⟨Or.inr (Or.inl back), by simp [betweenRenames]⟩
  | during cut =>
      have kept := at?_of_cut_remove cut (child_ne_outgoing name)
      exact ⟨Or.inr (Or.inl (kept.trans back)), by simp [betweenRenames]⟩
  | later dies =>
      cases dies
      refine ⟨Or.inr (Or.inl ?_), by simp [betweenRenames]⟩
      exact (at?_drop_of_ne (child_ne_outgoing name)).trans back

theorem swapLeaves_of_dies
    (source : root.at? (.copy label name) = some tree)
    (dies :
      Program.Dies device (swapIn (.copy label name) name) root point left) :
    SwapLeaves root left name tree point := by
  have staging := at?_stagedRoot source
  cases dies with
  | before => exact ⟨Or.inl rfl, by simp [betweenRenames]⟩
  | during cut =>
      have kept := at?_of_cut_remove cut (child_ne_restoring name)
      exact ⟨Or.inl kept, by simp [betweenRenames]⟩
  | later dies =>
  have first :
      (perform (.remove (.child (restoring name))) root).at? (.child name) =
        root.at? (.child name) :=
    at?_drop_of_ne (child_ne_restoring name)
  cases dies with
  | before => exact ⟨Or.inl first, by simp [betweenRenames]⟩
  | during cut =>
      have kept := at?_of_cut_remove cut (child_ne_outgoing name)
      exact ⟨Or.inl (kept.trans first), by simp [betweenRenames]⟩
  | later dies =>
  have second : (perform (.remove (.child (outgoing name)))
          (perform (.remove (.child (restoring name))) root)).at?
        (.child name) =
        root.at? (.child name) :=
    (at?_drop_of_ne (child_ne_outgoing name)).trans first
  cases dies with
  | before => exact ⟨Or.inl second, by simp [betweenRenames]⟩
  | during cut =>
      have kept := at?_of_cut_copy cut (child_ne_restoring name)
      exact ⟨Or.inl (kept.trans second), by simp [betweenRenames]⟩
  | later dies =>
  change Program.Dies device _ (stagedRoot label name root) point left at dies
  cases dies with
  | inspect dies =>
  cases own : (stagedRoot label name root).at? (.child name) with
  | none =>
      simp only [own, Option.isSome_none, Bool.false_eq_true, if_false] at dies
      exact swapLeaves_of_putBack staging.1 own dies
  | some old =>
      simp only [own, Option.isSome_some, if_true] at dies
      cases dies with
      | before =>
          refine ⟨Or.inl staging.2, ?_⟩
          intro same
          have moved := (Action.rename.inj (Point.before.inj same)).1
          exact absurd moved (child_ne_restoring name)
      | during cut => exact cut.elim
      | later dies =>
          have moved := @perform_rename _ _ _ (.child (outgoing name)) own
          apply swapLeaves_of_putBack _ _ dies
          · change (perform _ (stagedRoot label name root)).at?
              (.child (restoring name)) =
              _
            rw [moved, at?_put_of_ne (restoring_ne_outgoing name),
              at?_drop_of_ne (child_ne_restoring name).symm]
            exact staging.1
          · change
              (perform _ (stagedRoot label name root)).at? (.child name) = none
            rw [moved, at?_put_of_ne (child_ne_outgoing name)]
            exact at?_drop_self

theorem at?_swapIn_self
    (source : root.at? (.copy label name) = some tree) :
    ((swapIn (.copy label name) name).finish device root).1.at? (.child name) =
      some (regularEntriesOnly tree) := by
  have staging := at?_stagedRoot source
  change (Program.finish device _ (stagedRoot label name root)).1.at?
      (.child name) =
    _
  unfold Program.finish
  cases own : (stagedRoot label name root).at? (.child name) with
  | none =>
      simp only [own, Option.isSome_none, Bool.false_eq_true, if_false]
      exact (at?_drop_of_ne (child_ne_outgoing name)).trans
        (at?_putBack staging.1)
  | some old =>
      simp only [own, Option.isSome_some, if_true]
      refine (at?_drop_of_ne (child_ne_outgoing name)).trans (at?_putBack ?_)
      change (perform _ (stagedRoot label name root)).at?
          (.child (restoring name)) =
        _
      rw [perform_rename own, at?_put_of_ne (restoring_ne_outgoing name),
        at?_drop_of_ne (child_ne_restoring name).symm]
      exact staging.1

/-! ## Loops -/

theorem removals_only (names : List String) :
    (Program.forEach (fun agentId =>
          (Program.once (.remove (.child agentId)) : Operation Unit))
        names).Only
      fun action => ∃ name ∈ names, action = .remove (.child name) := by
  apply Program.only_forEach
  intro name member
  exact ⟨⟨name, member, rfl⟩, trivial⟩

theorem at?_removals_of_ne
    {place : Place} (other : ∀ name ∈ names, place ≠ .child name) :
    Unchanged root place ((Program.forEach
        (fun agentId => .once (.remove (.child agentId)))
        names).finish device root).1 := by
  refine @Program.Only.finish _ _ _ device _ _ _ (Unchanged root place)
    (removals_only names) ?_ rfl
  rintro action state ⟨name, member, rfl⟩ same
  exact (at?_drop_of_ne (other name member)).trans same

theorem at?_removals_of_mem
    (member : name ∈ names) :
    ((Program.forEach (fun agentId =>
          (.once (.remove (.child agentId)) : Operation Unit))
        names).finish device root).1.at? (.child name) =
      none := by
  induction names generalizing root with
  | nil => cases member
  | cons first rest ih =>
      rw [Program.forEach, Program.finish_andThen]
      by_cases later : name ∈ rest
      · exact ih later
      · have same : name = first := by simpa [later] using member
        subst same
        have removed :
            (perform (.remove (.child name)) root).at? (.child name) = none :=
          @at?_drop_self root (.child name)
        refine (at?_removals_of_ne ?_).trans removed
        intro other listed equal
        exact later (Place.child.inj equal ▸ listed)

/-- A root after some directories were swapped. -/
structure Swapped
    (label : String) (root : StateRoot) (names : List String)
    (state : StateRoot) :
    Prop where
  others :
    ∀ place, (∀ name ∈ names, ¬ SwapsAt name place) → Unchanged root place state
  directories :
    ∀ name ∈ names, ∀ tree, root.at? (.copy label name) = some tree →
      state.at? (.child name) = some (regularEntriesOnly tree)

theorem not_swapsAt_copy (label name other : String) :
    ¬ SwapsAt other (.copy label name) := by
  rintro (same | same | same) <;> cases same

theorem not_swapsAt_child
    {other : String} (agent : IsAgentDir name) (different : name ≠ other) :
    ¬ SwapsAt other (.child name) := by
  rintro (same | same | same)
  · exact different (Place.child.inj same)
  · exact ne_restoring agent (Place.child.inj same)
  · exact ne_outgoing agent (Place.child.inj same)

/-- A program which swaps several directories in order. -/
def swapAll (label : String) (names : List String) : Operation Unit :=
  Program.forEach (fun agentId => swapIn (.copy label agentId) agentId) names

theorem swapped_swapAll
    (agents : ∀ name ∈ names, IsAgentDir name)
    (sources : ∀ name ∈ names, (root.at? (.copy label name)).isSome) :
    Swapped label root names ((swapAll label names).finish device root).1 := by
  induction names generalizing root with
  | nil => exact ⟨fun _ _ => rfl, fun name member => by cases member⟩
  | cons first rest ih =>
      rw [swapAll, Program.forEach, Program.finish_andThen]
      rw [List.forall_mem_cons] at agents
      have copies : ∀ name, Unchanged root (.copy label name)
            ((swapIn (.copy label first) first).finish device root).1 :=
        fun name => at?_swapIn_finish (not_swapsAt_copy label name first)
      have later := @ih
          ((swapIn (.copy label first) first).finish device root).1 agents.2
          (fun name member => by
            rw [copies name]
            exact sources name (List.mem_cons_of_mem _ member))
      constructor
      · intro place other
        rw [List.forall_mem_cons] at other
        exact (later.others place other.2).trans (at?_swapIn_finish other.1)
      · intro name member tree source
        by_cases listed : name ∈ rest
        · exact later.directories name listed tree ((copies name).trans source)
        · have same : name = first := by simpa [listed] using member
          subst same
          refine (later.others (.child name) ?_).trans (at?_swapIn_self source)
          intro other within
          apply not_swapsAt_child agents.1
          rintro rfl
          exact listed within

/-- What is kept of an operation's state: copies, and what was set aside. -/
def Saved : Place → Prop
  | .child name => Includes name ".refused-"
  | .copy _ name => ¬ EndsWith name ".partial"

/-- What a death at a point leaves, of what an operation makes of a root. -/
structure Leaves
    (root completed left : StateRoot) (point : Point Action) : Prop where
  found : ∀ agentId, IsAgentDir agentId →
      finds left agentId = finds root agentId ∨
        finds left agentId = finds completed agentId ∨
          point = betweenRenames agentId ∨
            point = .during (.remove (.child agentId))
  between : ∀ agentId, IsAgentDir agentId → point = betweenRenames agentId →
      finds left agentId = .empty
  removing : ∀ agentId, IsAgentDir agentId →
      point = .during (.remove (.child agentId)) →
        finds completed agentId = .empty
  saved : ∀ place tree, Saved place → root.at? place = some tree →
      completed.at? place = some tree → left.at? place = some tree

theorem leaves_completed (root completed : StateRoot) :
    Leaves root completed completed .ended where
  found agentId _ := Or.inr (Or.inl rfl)
  between agentId _ same := by cases same
  removing agentId _ same := by cases same
  saved place tree _ _ kept := kept

theorem finds_congr
    {first second : StateRoot} {agentId : String}
    (same : first.at? (.child agentId) = second.at? (.child agentId)) :
    finds first agentId = finds second agentId := by
  rw [finds, finds, same]

theorem finds_of_none (missing : root.at? (.child name) = none) :
    finds root name = .empty := by
  rw [finds, missing, Option.getD_none]

theorem not_swapsAt_of_saved
    {place : Place} (saved : Saved place) (agent : IsAgentDir name) :
    ¬ SwapsAt name place := by
  rcases place with other | ⟨label, other⟩
  · rintro (same | same | same)
    · rw [Place.child.inj same] at saved
      exact agent.2.2.2 saved
    · rw [Place.child.inj same] at saved
      exact agent.2.2.2 (includes_of_append (by decide) saved)
    · rw [Place.child.inj same] at saved
      exact agent.2.2.2 (includes_of_append (by decide) saved)
  · exact not_swapsAt_copy label other name

theorem betweenRenames_of_swapIn
    {other : String}
    (dies : Program.Dies device (swapIn (.copy label name) name) root
        (betweenRenames other) left) :
    other = name := by
  rcases (swapIn_only label name).point_eq dies with
    same | ⟨action, swap, same | same⟩
  · cases same
  · exact swap.2.2 other (Point.before.inj same).symm
  · cases same

theorem not_removing_of_swapIn
    {other : String} (agent : IsAgentDir other)
    (dies : Program.Dies device (swapIn (.copy label name) name) root
        (.during (.remove (.child other))) left) :
    False := by
  rcases (swapIn_only label name).point_eq dies with
    same | ⟨action, swap, same | same⟩
  · cases same
  · cases same
  · have action_eq := (Point.during.inj same).symm
    rcases swap.1 (.child other) (by rw [action_eq]; rfl) with
      own | own | own
    · exact swap.2.1 (by rw [action_eq, own])
    · exact ne_restoring agent (Place.child.inj own)
    · exact ne_outgoing agent (Place.child.inj own)

theorem Swapped.old_or_new
    {earlier : List String}
    (sources : ∀ name ∈ names, (start.at? (.copy label name)).isSome)
    (within : ∀ name ∈ earlier, name ∈ names)
    (started : Swapped label start earlier root)
    (ends : Swapped label start names completed) (agent : IsAgentDir name) :
    finds root name = finds start name ∨
      finds root name = finds completed name := by
  by_cases swapped : name ∈ earlier
  · right
    rcases Option.isSome_iff_exists.1 (sources name (within name swapped)) with
      ⟨tree, source⟩
    apply finds_congr
    rw [started.directories name swapped tree source,
      ends.directories name (within name swapped) tree source]
  · left
    apply finds_congr
    apply started.others
    intro other listed
    apply not_swapsAt_child agent
    rintro rfl
    exact swapped listed

theorem leaves_of_swap
    {earlier : List String} (agents : ∀ name ∈ names, IsAgentDir name)
    (sources : ∀ name ∈ names, (start.at? (.copy label name)).isSome)
    (listed : name ∈ names) (within : ∀ name ∈ earlier, name ∈ names)
    (started : Swapped label start earlier root)
    (ends : Swapped label start names completed)
    (dies :
      Program.Dies device (swapIn (.copy label name) name) root point left) :
    Leaves start completed left point := by
  rcases Option.isSome_iff_exists.1 (sources name listed) with ⟨tree, source⟩
  have copied : root.at? (.copy label name) = some tree :=
    (started.others _ fun other _ =>
      not_swapsAt_copy label name other).trans source
  have leaves := swapLeaves_of_dies copied dies
  constructor
  · intro agentId agent
    have before := started.old_or_new sources within ends agent
    by_cases own : agentId = name
    · subst own
      rcases leaves.directory with old | new | between
      · rw [finds_congr old]
        exact before.imp_right Or.inl
      · right
        left
        apply finds_congr
        rw [new, ends.directories agentId listed tree source]
      · exact Or.inr (Or.inr (Or.inl between))
    · have same : finds left agentId = finds root agentId := finds_congr
          (at?_of_swapIn_dies dies (not_swapsAt_child agent own))
      rw [same]
      exact before.imp_right Or.inl
  · rintro agentId agent rfl
    have own := betweenRenames_of_swapIn dies
    subst own
    exact finds_of_none (leaves.between rfl)
  · rintro agentId agent rfl
    exact (not_removing_of_swapIn agent dies).elim
  · intro place tree saved kept _
    refine (at?_of_swapIn_dies dies
      (not_swapsAt_of_saved saved (agents name listed))).trans ?_
    refine (started.others place fun other member => ?_).trans kept
    exact not_swapsAt_of_saved saved (agents other (within other member))

theorem Leaves.earlier
    (leaves : Leaves start completed left point)
    (found : ∀ agentId, IsAgentDir agentId →
        finds start agentId = finds root agentId ∨
          finds start agentId = finds completed agentId)
    (saved : ∀ place tree, Saved place → root.at? place = some tree →
        completed.at? place = some tree → start.at? place = some tree) :
    Leaves root completed left point where
  found agentId agent := by
    rcases leaves.found agentId agent with old | new
    · rw [old]
      exact (found agentId agent).imp_right Or.inl
    · exact Or.inr new
  between := leaves.between
  removing := leaves.removing
  saved place tree named known kept :=
    leaves.saved place tree named (saved place tree named known kept) kept

theorem leaves_of_swapAll
    (agents : ∀ name ∈ names, IsAgentDir name)
    (sources : ∀ name ∈ names, (root.at? (.copy label name)).isSome)
    (dies : Program.Dies device (swapAll label names) root point left) :
    Leaves root ((swapAll label names).finish device root).1 left point := by
  have ends := swapped_swapAll agents sources
  rcases Program.Dies.of_forEach dies with
    ⟨rfl, rfl⟩ | ⟨earlier, name, later, rfl, inside⟩
  · exact leaves_completed _ _
  · have within : ∀ other ∈ earlier, other ∈ earlier ++ name :: later :=
      fun other member => List.mem_append_left _ member
    have started :=
      swapped_swapAll (fun other member => agents other (within other member))
        fun other member => sources other (within other member)
    exact leaves_of_swap agents sources (by simp) within started ends inside

/-! ## Restoring -/

theorem at?_of_removals
    (dies : Program.Dies device
        (Program.forEach (fun agentId => .once (.remove (.child agentId)))
          names)
        root point left) :
    left.at? (.child name) = root.at? (.child name) ∨
      left.at? (.child name) = none ∨
        point = .during (.remove (.child name)) := by
  induction names generalizing root with
  | nil =>
      cases dies
      exact Or.inl rfl
  | cons first rest ih =>
      have dropped : (perform (.remove (.child first)) root).at? (.child name) =
            root.at? (.child name) ∨
          (perform (.remove (.child first)) root).at? (.child name) = none := by
        by_cases own : name = first
        · rw [own]
          exact Or.inr (@at?_drop_self root (.child first))
        · exact Or.inl (at?_drop_of_ne fun same => own (Place.child.inj same))
      cases dies with
      | before => exact Or.inl rfl
      | during cut =>
          by_cases own : name = first
          · rw [own]
            exact Or.inr (Or.inr rfl)
          · left
            exact at?_of_cut_remove cut fun same => own (Place.child.inj same)
      | later dies =>
          rcases ih dies with same | gone | inside
          · rw [same]
            exact dropped.imp_right Or.inl
          · exact Or.inr (Or.inl gone)
          · exact Or.inr (Or.inr inside)

theorem leaves_of_removals
    (agents : ∀ name ∈ names, IsAgentDir name)
    (removed : ∀ name ∈ names, finds completed name = .empty)
    (dies : Program.Dies device
        (Program.forEach (fun agentId => .once (.remove (.child agentId)))
          names)
        root point left) :
    Leaves root completed left point := by
  have only := removals_only names
  have points := only.point_eq dies
  have kept : ∀ place, (∀ name ∈ names, place ≠ .child name) →
      Unchanged root place left := by
    intro place other
    refine @Program.Only.dies _ _ _ device _ _ _ _ _ (Unchanged root place) only
      ?_ ?_ dies rfl
    · rintro action state ⟨name, member, rfl⟩ same
      exact (at?_drop_of_ne (other name member)).trans same
    · rintro action state remains ⟨name, member, rfl⟩ cut same
      exact (at?_of_cut_remove cut (other name member)).trans same
  constructor
  · intro agentId agent
    by_cases listed : agentId ∈ names
    · rcases at?_of_removals dies with same | gone | inside
      · exact Or.inl (finds_congr same)
      · right
        left
        rw [finds_of_none gone, removed agentId listed]
      · exact Or.inr (Or.inr (Or.inr inside))
    · left
      apply finds_congr
      apply kept
      intro name member same
      exact listed (Place.child.inj same ▸ member)
  · rintro agentId agent rfl
    rcases points with same | ⟨action, ⟨name, member, rfl⟩, same | same⟩
    · cases same
    · cases same
    · cases same
  · rintro agentId agent rfl
    rcases points with same | ⟨action, ⟨name, member, rfl⟩, same | same⟩
    · cases same
    · cases same
    · have own := Place.child.inj (Action.remove.inj (Point.during.inj same))
      rw [own]
      exact removed name member
  · intro place tree saved known _
    refine (kept place ?_).trans known
    rintro name member rfl
    exact (agents name member).2.2.2 saved

theorem mem_agentDirs
    {directories : AList fun _ : String => Tree} :
    name ∈ agentDirs directories ↔
      IsAgentDir name ∧ (directories.lookup name).isSome := by
  rw [agentDirs, List.mem_filter, decide_eq_true_eq, AList.lookup_isSome,
    AList.mem_keys, and_comm]

/-- What an operation makes keeps what is saved, but for snapshots of runs. -/
def KeepsSaved (root completed : StateRoot) : Prop :=
  ∀ place tree, Saved place → root.at? place = some tree →
    completed.at? place = some tree ∨
      ∃ label name, place = .copy label name ∧ isRunIdSnapshot label = true

/-- Remove the strangers, then swap in what a checkpoint carries. -/
def putAllBack (label : String) (strangers carried : List String) :
    Operation (Except String Bool) :=
  (Program.forEach (fun agentId => .once (.remove (.child agentId)))
      strangers).andThen fun _ =>
    (swapAll label carried).andThen fun _ => .done (.ok true)

theorem leaves_of_putAllBack
    {strangers carried : List String}
    (others : ∀ name ∈ strangers, IsAgentDir name ∧ name ∉ carried)
    (agents :
      ∀ name ∈ carried, IsAgentDir name ∧ (root.at? (.copy label name)).isSome)
    (dies : Program.Dies device (putAllBack label strangers carried) root point
        left) :
    Leaves root ((putAllBack label strangers carried).finish device root).1 left
        point ∧
      KeepsSaved root
        ((putAllBack label strangers carried).finish device root).1 := by
  have ending : ((putAllBack label strangers carried).finish device root).1 =
      ((swapAll label carried).finish device ((Program.forEach
          (fun agentId => .once (.remove (.child agentId)))
          strangers).finish device root).1).1 := by
    simp only [putAllBack, Program.finish_andThen, Program.finish]
  rw [ending]
  have copies : ∀ name, Unchanged root (.copy label name)
      ((Program.forEach (fun agentId => .once (.remove (.child agentId)))
        strangers).finish device root).1 := by
    intro name
    apply at?_removals_of_ne
    rintro other _ same
    cases same
  have sources : ∀ name ∈ carried, (((Program.forEach
        (fun agentId => .once (.remove (.child agentId)))
        strangers).finish device root).1.at?
      (.copy label name)).isSome := by
    intro name member
    rw [copies name]
    exact (agents name member).2
  have swapped := swapped_swapAll (fun _ member => (agents _ member).1) sources
  have savedBefore : ∀ place tree, Saved place → root.at? place = some tree →
      ((Program.forEach (fun agentId => .once (.remove (.child agentId)))
          strangers).finish device root).1.at? place =
        some tree := by
    intro place tree saved known
    refine (at?_removals_of_ne ?_).trans known
    rintro name member rfl
    exact (others name member).1.2.2.2 saved
  constructor
  · rcases Program.Dies.of_andThen dies with ⟨_, removing⟩ | dies
    · apply leaves_of_removals (fun _ member => (others _ member).1) _ removing
      intro name member
      apply finds_of_none
      refine (swapped.others _ ?_).trans (at?_removals_of_mem member)
      intro other listed
      apply not_swapsAt_child (others name member).1
      rintro rfl
      exact (others name member).2 listed
    · have swaps : Leaves ((Program.forEach
            (fun agentId => .once (.remove (.child agentId)))
            strangers).finish device root).1
          ((swapAll label carried).finish device ((Program.forEach
              (fun agentId => .once (.remove (.child agentId)))
              strangers).finish device root).1).1
          left point := by
        rcases Program.Dies.of_andThen dies with ⟨_, inside⟩ | ended
        · exact leaves_of_swapAll (fun _ member => (agents _ member).1) sources
              inside
        · cases ended
          exact leaves_completed _ _
      refine swaps.earlier ?_ fun place tree saved known _ =>
        savedBefore place tree saved known
      intro agentId agent
      by_cases stranger : agentId ∈ strangers
      · right
        apply finds_congr
        refine (swapped.others _ ?_).symm
        intro other listed
        apply not_swapsAt_child agent
        rintro rfl
        exact (others _ stranger).2 listed
      · left
        apply finds_congr
        apply at?_removals_of_ne
        intro name member same
        exact stranger (Place.child.inj same ▸ member)
  · intro place tree saved known
    left
    refine (swapped.others place fun name member => ?_).trans
        (savedBefore place tree saved known)
    exact not_swapsAt_of_saved saved (agents name member).1

theorem leaves_of_restoreAll
    (label : String)
    (dies : Program.Dies device (restoreAllAgentState label) root point left) :
    Leaves root ((restoreAllAgentState label).finish device root).1 left point ∧
      KeepsSaved root ((restoreAllAgentState label).finish device root).1 := by
  have nothing : Leaves root root root .ended ∧ KeepsSaved root root :=
    ⟨leaves_completed _ _, fun place tree _ known => Or.inl known⟩
  unfold restoreAllAgentState at dies ⊢
  split
  · next reason refused =>
      simp only [refused] at dies
      cases dies
      exact nothing
  · next accepted =>
      simp only [accepted] at dies
      cases dies with
      | inspect dies =>
      simp only [Program.finish]
      cases known : root.checkpoints.lookup label with
      | none =>
          simp only [known] at dies
          cases dies
          exact nothing
      | some target =>
          simp only [known] at dies
          apply leaves_of_putAllBack _ _ dies
          · intro name member
            rw [List.mem_filter, decide_eq_true_eq] at member
            exact ⟨(mem_agentDirs.1 member.1).1, member.2⟩
          · intro name member
            have listed := mem_agentDirs.1 member
            refine ⟨listed.1, ?_⟩
            rw [StateRoot.at?, known]
            exact listed.2

theorem leaves_of_restore
    {agentId : String} (agent : IsAgentDir agentId) (runId : String)
    (dies :
      Program.Dies device (restoreAgentState agentId runId) root point left) :
    Leaves root ((restoreAgentState agentId runId).finish device root).1 left
        point ∧
      KeepsSaved root
        ((restoreAgentState agentId runId).finish device root).1 := by
  have nothing : Leaves root root root .ended ∧ KeepsSaved root root :=
    ⟨leaves_completed _ _, fun place tree _ known => Or.inl known⟩
  unfold restoreAgentState at dies ⊢
  split
  · next reason _ refused =>
      simp only [refused] at dies
      cases dies
      exact nothing
  · next reason accepted refused =>
      simp only [accepted, refused] at dies
      cases dies
      exact nothing
  · next accepted also =>
      simp only [accepted, also] at dies
      cases dies with
      | inspect dies =>
      simp only [Program.finish]
      dsimp only at dies
      by_cases source : (root.at? (.copy runId agentId)).isSome
      · rw [if_pos source] at dies ⊢
        have alone : (swapIn (.copy runId agentId) agentId).andThen
              (fun _ => .done (.ok true)) =
            putAllBack runId [] [agentId] := by
          rw [putAllBack, swapAll, Program.forEach, Program.forEach,
            Program.forEach, Program.andThen, Program.andThen_andThen]
          rfl
        rw [alone] at dies ⊢
        apply leaves_of_putAllBack _ _ dies
        · intro name member
          cases member
        · intro name member
          cases List.mem_singleton.1 member
          exact ⟨agent, source⟩
      · rw [if_neg source] at dies ⊢
        cases dies
        exact nothing

end Eris.Agents.StateSwap
