import Eris.Registry.Discovery

/-!
# Every market in one place

One sweep moves each market along: a candidate is left waiting, dropped,
tried again or found, and what is found is queued or dropped.  Counting the
places of a market gives the law of discovery along every run.
-/

namespace Eris.Registry.DiscoveryRuns

open Foundation.Transition Capacity FairOrder Sweep Discovery

variable {toLowerCase : String → String} {setup : RegistrySetup}
    {runtime : MarketRegistryRuntime} {view : SweepView} {world : World}
    {key : String × String}

/-! ## Where the parts of a sweep go -/

/-- How often a key is among some candidates. -/
def among (toLowerCase : String → String) (items : List Candidate)
    (key : String × String) : Nat :=
  (items.map (Candidate.key toLowerCase)).count key

/-- How often a key is among some entries. -/
def amid (toLowerCase : String → String) (entries : List PendingEntry)
    (key : String × String) : Nat :=
  (entries.map (PendingEntry.key toLowerCase)).count key

theorem among_candidates :
    among toLowerCase (candidates toLowerCase setup runtime view) key =
      among toLowerCase runtime.classifyQueue key +
        among toLowerCase (newCandidates toLowerCase setup runtime view)
          key := by
  unfold among
  rw [← List.count_append, ← List.map_append]
  exact (fairOrder_perm.map _).count_eq key

def retried (view : SweepView) (fresh : List Candidate) : List Candidate :=
  (fresh.filter (retries view)).map fun c =>
    { c with attempts := c.attempts + 1 }

def probed (view : SweepView) (fresh : List Candidate) :
    List PendingEntry :=
  (fresh.filter fun c => !retries view c).map (probedEntry view)

theorem among_fresh (fresh : List Candidate) :
    among toLowerCase (retried view fresh) key +
        amid toLowerCase (probed view fresh) key =
      among toLowerCase fresh key := by
  unfold among amid retried probed
  rw [List.map_map, List.map_map]
  exact count_parts (retries view) (Candidate.key toLowerCase) fresh key

/-- What is found outside the environment's own addresses. -/
def foundOutside
    (toLowerCase : String → String) (setup : RegistrySetup)
    (view : SweepView) : List PendingEntry :=
  (foundLogs setup view).filter fun entry =>
    !isOwn toLowerCase setup entry

/-- The new contracts outside the environment's own addresses. -/
def createdOutside
    (toLowerCase : String → String) (setup : RegistrySetup)
    (view : SweepView) : List Candidate :=
  (view.created.filter fun c =>
      !isEnvironmentAddress toLowerCase setup c.address).map
    fun c => ⟨c.address, c.creator, 0⟩

theorem count_discoveredIn :
    (discoveredIn toLowerCase setup view).count key =
      amid toLowerCase (foundOutside toLowerCase setup view) key +
        among toLowerCase (createdOutside toLowerCase setup view) key := by
  unfold discoveredIn amid among foundOutside createdOutside
  rw [List.count_append, List.map_map]
  rfl

theorem amid_backlog (pending : List PendingEntry) (added : Nat) :
    amid toLowerCase (if added = 0 then (pending, [])
            else capPending toLowerCase pending).1
          key +
        amid toLowerCase (if added = 0 then (pending, [])
            else capPending toLowerCase pending).2
          key =
      amid toLowerCase pending key := by
  have ordered : (fairOrder toLowerCase
        (fun e : PendingEntry => pendingTier e.environment e.kind)
        PendingEntry.creator pending).Perm pending :=
    fairOrder_perm
  split
  · exact Nat.add_zero _
  · exact count_perm ((capByCreator_perm _ _).trans ordered) _ key

structure Kept
    (toLowerCase : String → String) (setup : RegistrySetup)
    (world : World) : Prop where
  distinct : world.discovered.Nodup
  places : ∀ key, among toLowerCase world.runtime.classifyQueue key +
        amid toLowerCase world.runtime.pending key +
        amid toLowerCase world.registered key +
        among toLowerCase world.droppedToClassify key +
        amid toLowerCase world.droppedToPublish key =
      world.discovered.count key
  seen : ∀ key ∈ world.runtime.seen,
      0 < amid toLowerCase world.runtime.pending key +
        amid toLowerCase world.registered key +
        amid toLowerCase world.droppedToPublish key
  outside : ∀ c ∈ world.runtime.classifyQueue,
      isEnvironmentAddress toLowerCase setup c.address = false
  reported : world.reported =
      world.droppedToClassify.length + world.droppedToPublish.length
  listings : EnvironmentFirst PendingEntry.environment world.runtime.pending
  probes : ∀ report ∈ world.sweeps, EnvironmentFirst
      (fun c => isEnvironmentCreator toLowerCase setup c.creator)
      (report.probed ++ report.left)

theorem kept_opened : Kept toLowerCase setup .opened where
  distinct := List.nodup_nil
  places _ := rfl
  seen _ listed := nomatch listed
  outside _ listed := nomatch listed
  reported := rfl
  listings := List.Pairwise.nil
  probes _ listed := nomatch listed

def probing
    (toLowerCase : String → String) (setup : RegistrySetup)
    (world : World) (view : SweepView) : List Candidate :=
  (candidates toLowerCase setup world.runtime view).take MAX_CLASSIFY_PER_SWEEP

def leaving
    (toLowerCase : String → String) (setup : RegistrySetup)
    (world : World) (view : SweepView) : List Candidate :=
  (candidates toLowerCase setup world.runtime view).drop MAX_CLASSIFY_PER_SWEEP

/-- What a sweep finds outside the environment's own addresses. -/
def found
    (toLowerCase : String → String) (setup : RegistrySetup)
    (world : World) (view : SweepView) : List PendingEntry :=
  foundOutside toLowerCase setup view ++
    probed view (probing toLowerCase setup world view)

theorem amid_found :
    amid toLowerCase (found toLowerCase setup world view) key =
      amid toLowerCase (foundOutside toLowerCase setup view) key +
        amid toLowerCase
          (probed view (probing toLowerCase setup world view)) key := by
  unfold found amid
  rw [List.map_append, List.count_append]

/-- What waits to be published after a sweep, and what was dropped. -/
def backlog
    (toLowerCase : String → String) (setup : RegistrySetup)
    (world : World) (view : SweepView) :
    List PendingEntry × List PendingEntry :=
  let pending := world.runtime.pending ++
      (found toLowerCase setup world view).map (marked toLowerCase setup)
  if (found toLowerCase setup world view).length = 0 then (pending, [])
  else capPending toLowerCase pending

theorem amid_backlog_eq :
    amid toLowerCase (backlog toLowerCase setup world view).1 key +
        amid toLowerCase (backlog toLowerCase setup world view).2 key =
      amid toLowerCase world.runtime.pending key +
        amid toLowerCase (found toLowerCase setup world view) key := by
  have entries : amid toLowerCase (backlog toLowerCase setup world view).1 key +
          amid toLowerCase (backlog toLowerCase setup world view).2 key =
        amid toLowerCase (world.runtime.pending ++
            (found toLowerCase setup world view).map
              (marked toLowerCase setup)) key :=
    amid_backlog _ _
  rw [entries]
  unfold amid
  rw [List.map_append, List.count_append, count_marked]

theorem environmentFirst_backlog
    (listings :
      EnvironmentFirst PendingEntry.environment world.runtime.pending) :
    EnvironmentFirst PendingEntry.environment
      (backlog toLowerCase setup world view).1 := by
  unfold backlog
  by_cases nothing : (found toLowerCase setup world view).length = 0
  · rw [if_pos nothing, List.eq_nil_of_length_eq_zero nothing]
    rw [List.map_nil, List.append_nil]
    exact listings
  · rw [if_neg nothing]
    exact (environmentFirst_fairOrder _).sublist (capByCreator_sublist _ _)

section Sweep

variable (kept : Kept toLowerCase setup world)
    (once : (world.discovered ++ discoveredIn toLowerCase setup view).Nodup)

include once

theorem unknown (key : String × String) :
    world.discovered.count key +
        amid toLowerCase (foundOutside toLowerCase setup view) key +
        among toLowerCase (createdOutside toLowerCase setup view) key ≤
      1 := by
  have single := List.nodup_iff_count_le_one.mp once key
  rw [List.count_append, count_discoveredIn] at single
  omega

include kept

theorem settled_of_seen (seen : key ∈ world.runtime.seen) :
    among toLowerCase world.runtime.classifyQueue key = 0 ∧
      amid toLowerCase (foundOutside toLowerCase setup view) key = 0 ∧
      among toLowerCase (createdOutside toLowerCase setup view) key = 0 := by
  have held := kept.seen key seen
  have place := kept.places key
  have bound := unknown once key
  omega

theorem newCandidates_eq :
    newCandidates toLowerCase setup world.runtime view =
      createdOutside toLowerCase setup view := by
  unfold newCandidates createdOutside
  congr 1
  apply List.filter_congr
  intro c listed
  cases own : isEnvironmentAddress toLowerCase setup c.address with
  | true => rfl
  | false =>
      have member : (⟨c.address, c.creator, 0⟩ : Candidate) ∈
          createdOutside toLowerCase setup view := by
        unfold createdOutside
        apply List.mem_map_of_mem
        apply List.mem_filter.mpr
        exact ⟨listed, by rw [own]; rfl⟩
      have positive :
          0 < among toLowerCase (createdOutside toLowerCase setup view)
            (entryKey toLowerCase c.address ZERO_BYTES32) :=
        List.count_pos_iff.mpr
          (List.mem_map_of_mem (f := Candidate.key toLowerCase) member)
      have unseen : entryKey toLowerCase c.address ZERO_BYTES32 ∉
          world.runtime.seen := by
        intro seen
        have settled := (settled_of_seen kept once seen).2.2
        omega
      have unqueued : toLowerCase c.address ∉
          world.runtime.classifyQueue.map fun queued =>
              toLowerCase queued.address := by
        intro queued
        rcases List.mem_map.mp queued with ⟨other, waits, same⟩
        have waiting : 0 < among toLowerCase world.runtime.classifyQueue
            (entryKey toLowerCase c.address ZERO_BYTES32) := by
          apply List.count_pos_iff.mpr
          apply List.mem_map.mpr
          refine ⟨other, waits, ?_⟩
          unfold Candidate.key entryKey
          rw [same]
        have place := kept.places (entryKey toLowerCase c.address ZERO_BYTES32)
        have bound := unknown once (entryKey toLowerCase c.address ZERO_BYTES32)
        omega
      rw [decide_eq_false unseen, decide_eq_false unqueued]
      rfl

theorem outside_candidates :
    ∀ c ∈ candidates toLowerCase setup world.runtime view,
      isEnvironmentAddress toLowerCase setup c.address = false := by
  intro c listed
  unfold candidates at listed
  rw [fairOrder_perm.mem_iff, List.mem_append,
    newCandidates_eq kept once] at listed
  rcases listed with waiting | created
  · exact kept.outside c waiting
  · unfold createdOutside at created
    rcases List.mem_map.mp created with ⟨contract, inside, rfl⟩
    have chosen := (List.mem_filter.mp inside).2
    rw [Bool.not_eq_eq_eq_not, Bool.not_true] at chosen
    exact chosen

theorem among_probing (key : String × String) :
    among toLowerCase (probing toLowerCase setup world view) key +
        among toLowerCase (leaving toLowerCase setup world view) key =
      among toLowerCase world.runtime.classifyQueue key +
        among toLowerCase (createdOutside toLowerCase setup view) key := by
  rw [← newCandidates_eq kept once, ← among_candidates]
  exact count_take_drop _ _ _ key

theorem filter_found :
    (foundLogs setup view ++
        probed view (probing toLowerCase setup world view)).filter
          (fun entry => !isOwn toLowerCase setup entry) =
      found toLowerCase setup world view := by
  rw [List.filter_append]
  congr 1
  apply List.filter_eq_self.mpr
  intro entry listed
  rcases List.mem_map.mp listed with ⟨c, chosen, rfl⟩
  have candidate : c ∈ candidates toLowerCase setup world.runtime view :=
    List.mem_of_mem_take (List.mem_filter.mp chosen).1
  unfold isOwn probedEntry
  rw [outside_candidates kept once c candidate]
  rfl

theorem intake_found :
    (foundLogs setup view ++
        probed view (probing toLowerCase setup world view)).foldl
          (Intake.takes toLowerCase setup)
          ⟨world.runtime.seen, world.runtime.pending, 0⟩ =
      { seen :=
          world.runtime.seen ++ (found toLowerCase setup world view).map
              (PendingEntry.key toLowerCase)
        pending := world.runtime.pending ++
            (found toLowerCase setup world view).map (marked toLowerCase setup)
        added := (found toLowerCase setup world view).length } := by
  have atMost (key : String × String) :
      amid toLowerCase (found toLowerCase setup world view) key ≤
        amid toLowerCase (foundOutside toLowerCase setup view) key +
          (among toLowerCase world.runtime.classifyQueue key +
            among toLowerCase (createdOutside toLowerCase setup view) key) := by
    have parts : among toLowerCase
              (retried view (probing toLowerCase setup world view)) key +
            amid toLowerCase
              (probed view (probing toLowerCase setup world view)) key =
          among toLowerCase (probing toLowerCase setup world view) key :=
      among_fresh _
    have whole := among_probing kept once key
    have both : amid toLowerCase (found toLowerCase setup world view) key =
          amid toLowerCase (foundOutside toLowerCase setup view) key +
            amid toLowerCase
              (probed view (probing toLowerCase setup world view)) key :=
      amid_found
    omega
  rw [takes_all, filter_found kept once, Nat.zero_add]
  · rw [filter_found kept once]
    apply List.nodup_iff_count_le_one.mpr
    intro key
    have bound := unknown once key
    have place := kept.places key
    change amid toLowerCase (found toLowerCase setup world view) key ≤ 1
    have here := atMost key
    omega
  · intro entry listed outside seen
    have settled := settled_of_seen kept once seen
    have here := atMost (entry.key toLowerCase)
    have member : entry ∈ found toLowerCase setup world view := by
      rw [← filter_found kept once]
      apply List.mem_filter.mpr
      exact ⟨listed, by rw [outside]; rfl⟩
    have positive : 0 < amid toLowerCase (found toLowerCase setup world view)
          (entry.key toLowerCase) :=
      List.count_pos_iff.mpr (List.mem_map_of_mem member)
    omega

theorem sweepMarkets_eq :
    sweepMarkets toLowerCase setup world.runtime view =
      ({ pending := (backlog toLowerCase setup world view).1
         seen := world.runtime.seen ++ (found toLowerCase setup world view).map
             (PendingEntry.key toLowerCase)
         classifyQueue := (capCandidates toLowerCase setup
              (leaving toLowerCase setup world view)).1 ++
            retried view (probing toLowerCase setup world view) },
        { probed := probing toLowerCase setup world view
          left := leaving toLowerCase setup world view
          droppedToClassify := (capCandidates toLowerCase setup
              (leaving toLowerCase setup world view)).2
          droppedToPublish := (backlog toLowerCase setup world view).2 }) := by
  have taken := intake_found kept once
  unfold found at taken
  unfold probed probing foundOutside at taken
  unfold sweepMarkets
  simp only []
  rw [taken]
  rfl

theorem places_swept (key : String × String) :
    among toLowerCase ((capCandidates toLowerCase setup
                (leaving toLowerCase setup world view)).1 ++
              retried view (probing toLowerCase setup world view))
            key +
          amid toLowerCase (backlog toLowerCase setup world view).1 key +
          amid toLowerCase world.registered key +
          among toLowerCase (world.droppedToClassify ++
              (capCandidates toLowerCase setup
                (leaving toLowerCase setup world view)).2)
            key +
          amid toLowerCase
            (world.droppedToPublish ++ (backlog toLowerCase setup world view).2)
            key =
      (world.discovered ++ discoveredIn toLowerCase setup view).count key := by
  have waiting : among toLowerCase (capCandidates toLowerCase setup
              (leaving toLowerCase setup world view)).1 key +
          among toLowerCase (capCandidates toLowerCase setup
              (leaving toLowerCase setup world view)).2 key =
        among toLowerCase (leaving toLowerCase setup world view) key :=
    count_perm (capByCreator_perm _ _) _ key
  have probes : among toLowerCase
            (retried view (probing toLowerCase setup world view)) key +
          amid toLowerCase
            (probed view (probing toLowerCase setup world view)) key =
        among toLowerCase (probing toLowerCase setup world view) key :=
    among_fresh _
  have entries : amid toLowerCase (backlog toLowerCase setup world view).1 key +
          amid toLowerCase (backlog toLowerCase setup world view).2 key =
        amid toLowerCase world.runtime.pending key +
          amid toLowerCase (found toLowerCase setup world view) key :=
    amid_backlog_eq
  rw [amid_found] at entries
  have whole := among_probing kept once key
  have place := kept.places key
  rw [List.count_append, count_discoveredIn, ← place]
  unfold among amid at *
  simp only [List.map_append, List.count_append] at *
  omega

theorem kept_swept :
    Kept toLowerCase setup (world.swept toLowerCase setup view) := by
  unfold World.swept
  rw [sweepMarkets_eq kept once]
  constructor
  · exact once
  · exact places_swept kept once
  · intro key listed
    have entries :
        amid toLowerCase (backlog toLowerCase setup world view).1 key +
            amid toLowerCase (backlog toLowerCase setup world view).2 key =
          amid toLowerCase world.runtime.pending key +
            amid toLowerCase (found toLowerCase setup world view) key :=
      amid_backlog_eq
    have dropped : amid toLowerCase (world.droppedToPublish ++
            (backlog toLowerCase setup world view).2) key =
        amid toLowerCase world.droppedToPublish key +
          amid toLowerCase (backlog toLowerCase setup world view).2 key := by
      unfold amid
      rw [List.map_append, List.count_append]
    rcases List.mem_append.mp listed with earlier | now
    · have held := kept.seen key earlier
      dsimp only
      omega
    · have positive :
          0 < amid toLowerCase (found toLowerCase setup world view) key :=
        List.count_pos_iff.mpr now
      dsimp only
      omega
  · intro c listed
    rcases List.mem_append.mp listed with waiting | again
    · apply outside_candidates kept once
      exact List.mem_of_mem_drop ((capByCreator_sublist _ _).subset waiting)
    · rcases List.mem_map.mp again with ⟨tried, chosen, rfl⟩
      apply outside_candidates kept once tried
      exact List.mem_of_mem_take (List.mem_filter.mp chosen).1
  · dsimp only [reportedDrops]
    rw [kept.reported, droppedTotal_eq, droppedTotal_eq,
      List.length_append, List.length_append]
    omega
  · exact environmentFirst_backlog kept.listings
  · intro report listed
    rcases List.mem_append.mp listed with earlier | now
    · exact kept.probes report earlier
    · rw [List.mem_singleton.mp now]
      change EnvironmentFirst _
        ((candidates toLowerCase setup world.runtime view).take _ ++
          (candidates toLowerCase setup world.runtime view).drop _)
      rw [List.take_append_drop]
      exact environmentFirst_candidates _ _

end Sweep

/-! ## Publication -/

theorem registerPending_cases (setup : RegistrySetup) (sent : Bool) :
    registerPending setup runtime sent = (runtime, none) ∨
      registerPending setup runtime sent = ({ runtime with
           pending := runtime.pending.drop setup.perBlockCap },
          some (runtime.pending.take setup.perBlockCap)) := by
  have drops : runtime.pending.drop
        (runtime.pending.take setup.perBlockCap).length =
      runtime.pending.drop setup.perBlockCap := by
    rw [List.length_take]
    rcases Nat.le_total setup.perBlockCap runtime.pending.length with
      less | more
    · rw [Nat.min_eq_left less]
    · rw [Nat.min_eq_right more, List.drop_length, List.drop_eq_nil_of_le more]
  unfold registerPending
  rw [drops]
  split
  · exact .inl rfl
  · cases sent with
    | true => exact .inr rfl
    | false => exact .inl rfl

theorem kept_published
    (kept : Kept toLowerCase setup world) (sent : Bool) :
    Kept toLowerCase setup (world.published setup sent) := by
  unfold World.published
  rcases @registerPending_cases world.runtime setup sent with
    same | handed
  · rw [same]
    simp only [Option.getD_none, List.append_nil]
    exact kept
  · rw [handed]
    have parts (key : String × String) :
        amid toLowerCase (world.runtime.pending.drop setup.perBlockCap) key +
            amid toLowerCase (world.registered ++
                world.runtime.pending.take setup.perBlockCap) key =
          amid toLowerCase world.runtime.pending key +
            amid toLowerCase world.registered key := by
      have whole : amid toLowerCase
                (world.runtime.pending.take setup.perBlockCap) key +
              amid toLowerCase
                (world.runtime.pending.drop setup.perBlockCap) key =
            amid toLowerCase world.runtime.pending key :=
        count_take_drop _ _ _ key
      have joined : amid toLowerCase (world.registered ++
              world.runtime.pending.take setup.perBlockCap) key =
          amid toLowerCase world.registered key + amid toLowerCase
              (world.runtime.pending.take setup.perBlockCap) key := by
        unfold amid
        rw [List.map_append, List.count_append]
      omega
    constructor
    · exact kept.distinct
    · intro key
      have place := kept.places key
      have moved := parts key
      dsimp only [Option.getD_some]
      omega
    · intro key listed
      have held := kept.seen key listed
      have moved := parts key
      dsimp only [Option.getD_some]
      omega
    · exact kept.outside
    · exact kept.reported
    · exact kept.listings.sublist (List.drop_sublist _ _)
    · exact kept.probes

theorem Kept.accounted (kept : Kept toLowerCase setup world) :
    Accounted toLowerCase setup world := by
  constructor
  · intro key
    have place := kept.places key
    have dropped : (world.dropped toLowerCase).count key =
          among toLowerCase world.droppedToClassify key +
            amid toLowerCase world.droppedToPublish key :=
      List.count_append ..
    have counted : world.discovered.count key =
        if key ∈ world.discovered then 1 else 0 := by
      split
      · exact List.count_eq_one_of_mem kept.distinct ‹_›
      · exact List.count_eq_zero_of_not_mem ‹_›
    rw [dropped, ← counted, ← place]
    unfold among amid World.waiting World.pending World.handed
    omega
  · unfold World.dropped
    rw [List.length_append, List.length_map, List.length_map]
    exact kept.reported
  · exact kept.listings
  · exact kept.probes

/-- A factory, and one creator of the environment. -/
def smallSetup : RegistrySetup where
  uniswapFactory := true
  lending := none
  tokenLauncher := false
  environmentCreators := ["0xe"]
  environmentAddresses := []
  perBlockCap := 1

/-- A pool, and a contract whose probe times out. -/
def quietView : SweepView where
  toBlock := 7
  pools := [⟨some "0x1", some "0x2", some "0x3", "0xa"⟩]
  markets := []
  launches := []
  created := [⟨"0x4", "0xb"⟩]
  codehash _ := "0x5"
  classified _ := ⟨.unknown, some .timeout⟩

/-- The pool is published at the second try, the contract is waiting. -/
def quietWorld : World :=
  ((World.opened.swept id smallSetup quietView).published smallSetup
    false).published smallSetup true

theorem quietWorld_reachable :
    (discoveries id smallSetup).Reachable (CreatedOnce id smallSetup)
      quietWorld := by
  refine ⟨World.opened, rfl, ?_⟩
  apply Relation.ReflTransGen.tail
    (b := (World.opened.swept id smallSetup quietView).published
      smallSetup false)
  · apply Relation.ReflTransGen.tail
      (b := World.opened.swept id smallSetup quietView)
    · refine Relation.ReflTransGen.single ⟨.sweep quietView, ?_, rfl⟩
      change List.Nodup _
      decide
    · exact ⟨.register false, trivial, rfl⟩
  · exact ⟨.register true, trivial, rfl⟩

/-- More contracts than one sweep probes, and the environment's is not
answered. -/
def busyView : SweepView where
  toBlock := 7
  pools := []
  markets := []
  launches := []
  created := ⟨"0x1", "0xe"⟩ ::
      (List.range 64).map fun index =>
        ⟨String.ofList (List.replicate index '0'), "0xa"⟩
  codehash _ := "0x5"
  classified c := ⟨.unknown, if c.creator = "0xe" then some .timeout else none⟩

theorem busyView_queue :
    (World.opened.swept id smallSetup
        busyView).runtime.classifyQueue.map Candidate.creator =
      ["0xa", "0xe"] := by
  decide

end Eris.Registry.DiscoveryRuns
