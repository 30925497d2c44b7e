import Eris.Foundation.Transition
import Eris.Registry.Sweep

/-!
# Discovery loses and duplicates nothing

A market discovered waits to be probed, waits to be published, is handed to a
transaction the node accepted, or is counted in a reported drop: one of these,
and once, whatever times out, is tried again or fails.  What waits to be
published has the environment's listings first, and they are probed first.
-/

namespace Eris.Registry.Discovery

open Foundation Foundation.Transition Capacity FairOrder Sweep

variable (toLowerCase : String → String) (setup : RegistrySetup)

/-- The runtime, and what has happened to what was discovered. -/
structure World where
  runtime : MarketRegistryRuntime
  registered : List PendingEntry
  droppedToClassify : List Candidate
  droppedToPublish : List PendingEntry
  reported : Nat
  discovered : List (String × String)
  sweeps : List SweepReport

def World.opened : World where
  runtime := .opened
  registered := []
  droppedToClassify := []
  droppedToPublish := []
  reported := 0
  discovered := []
  sweeps := []

/-- What a range holds outside the environment's own addresses. -/
def discoveredIn (view : SweepView) : List (String × String) :=
  ((foundLogs setup view).filter fun entry =>
      !isOwn toLowerCase setup entry).map (PendingEntry.key toLowerCase) ++
    (view.created.filter fun c =>
        !isEnvironmentAddress toLowerCase setup c.address).map
      fun c => entryKey toLowerCase c.address ZERO_BYTES32

inductive Step where
  | sweep (view : SweepView)
  | register (sent : Bool)

/-- What the drops of a sweep are reported to be. -/
def reportedDrops (report : SweepReport) : Nat :=
  droppedTotal (fun c => toLowerCase c.creator) report.droppedToClassify +
    droppedTotal (fun e => toLowerCase e.creator) report.droppedToPublish

def World.swept (world : World) (view : SweepView) : World :=
  let swept := sweepMarkets toLowerCase setup world.runtime view
  { runtime := swept.1
    registered := world.registered
    droppedToClassify := world.droppedToClassify ++ swept.2.droppedToClassify
    droppedToPublish := world.droppedToPublish ++ swept.2.droppedToPublish
    reported := world.reported + reportedDrops toLowerCase swept.2
    discovered := world.discovered ++ discoveredIn toLowerCase setup view
    sweeps := world.sweeps ++ [swept.2] }

/-- The world after a publication was tried. -/
def World.published (world : World) (sent : Bool) : World :=
  let done := registerPending setup world.runtime sent
  { world with
    runtime := done.1
    registered := world.registered ++ done.2.getD [] }

/-- Sweeps and publications, in any order. -/
def discoveries : System World Step where
  initial world := world = .opened
  step world step next := match step with
    | .sweep view => next = world.swept toLowerCase setup view
    | .register sent => next = world.published setup sent

def CreatedOnce (world : World) : Step → Prop
  | .sweep view =>
      (world.discovered ++ discoveredIn toLowerCase setup view).Nodup
  | .register _ => True

def World.waiting (world : World) : List (String × String) :=
  world.runtime.classifyQueue.map (Candidate.key toLowerCase)

def World.pending (world : World) : List (String × String) :=
  world.runtime.pending.map (PendingEntry.key toLowerCase)

def World.handed (world : World) : List (String × String) :=
  world.registered.map (PendingEntry.key toLowerCase)

def World.dropped (world : World) : List (String × String) :=
  world.droppedToClassify.map (Candidate.key toLowerCase) ++
    world.droppedToPublish.map (PendingEntry.key toLowerCase)

def EnvironmentFirst {Item : Type}
    (environment : Item → Bool) (items : List Item) : Prop :=
  items.Pairwise fun first second =>
    environment second = true → environment first = true

/-- Everything discovered is in one place, and drops are reported. -/
structure Accounted (world : World) : Prop where
  places : ∀ key, (world.waiting toLowerCase).count key +
        (world.pending toLowerCase).count key +
        (world.handed toLowerCase).count key +
        (world.dropped toLowerCase).count key =
      if key ∈ world.discovered then 1 else 0
  reported : world.reported = (world.dropped toLowerCase).length
  listings : EnvironmentFirst PendingEntry.environment world.runtime.pending
  probes : ∀ report ∈ world.sweeps, EnvironmentFirst
      (fun c => isEnvironmentCreator toLowerCase setup c.creator)
      (report.probed ++ report.left)

section Parts

variable {Item Key : Type} [BEq Key]

theorem count_parts
    (choose : Item → Bool) (keyOf : Item → Key) (items : List Item)
    (key : Key) :
    ((items.filter choose).map keyOf).count key +
        ((items.filter fun item => !choose item).map keyOf).count key =
      (items.map keyOf).count key := by
  have parts := List.filter_append_perm choose items
  rw [← List.count_append, ← List.map_append]
  exact (parts.map keyOf).count_eq key

theorem count_take_drop
    (count : Nat) (keyOf : Item → Key) (items : List Item) (key : Key) :
    ((items.take count).map keyOf).count key +
        ((items.drop count).map keyOf).count key =
      (items.map keyOf).count key := by
  rw [← List.count_append, ← List.map_append, List.take_append_drop]

theorem count_perm
    {first second whole : List Item} (perm : (first ++ second).Perm whole)
    (keyOf : Item → Key) (key : Key) :
    (first.map keyOf).count key + (second.map keyOf).count key =
      (whole.map keyOf).count key := by
  rw [← List.count_append, ← List.map_append]
  exact (perm.map keyOf).count_eq key

end Parts

variable {toLowerCase} {setup}

theorem takes_all
    {entries : List PendingEntry} {intake : Intake}
    (distinct : ((entries.filter fun entry =>
        !isOwn toLowerCase setup entry).map
          (PendingEntry.key toLowerCase)).Nodup)
    (fresh : ∀ entry ∈ entries, isOwn toLowerCase setup entry = false →
        entry.key toLowerCase ∉ intake.seen) :
    entries.foldl (Intake.takes toLowerCase setup) intake =
      { seen :=
          intake.seen ++ (entries.filter fun entry =>
              !isOwn toLowerCase setup entry).map (PendingEntry.key toLowerCase)
        pending := intake.pending ++ (entries.filter fun entry =>
              !isOwn toLowerCase setup entry).map (marked toLowerCase setup)
        added := intake.added + (entries.filter fun entry =>
              !isOwn toLowerCase setup entry).length } := by
  induction entries generalizing intake with
  | nil =>
      simp only [List.foldl_nil, List.filter_nil, List.map_nil,
        List.append_nil, List.length_nil, Nat.add_zero]
  | cons entry rest ih =>
      rw [List.foldl_cons]
      cases own : isOwn toLowerCase setup entry with
      | true =>
          have stays : intake.takes toLowerCase setup entry = intake := by
            unfold Intake.takes
            rw [own]
            split <;> rfl
          have kept : ((entry :: rest).filter fun entry =>
                  !isOwn toLowerCase setup entry) =
                rest.filter fun entry => !isOwn toLowerCase setup entry :=
            List.filter_cons_of_neg (by rw [own]; decide)
          rw [kept] at distinct ⊢
          rw [stays]
          apply ih distinct
          intro other listed
          exact fresh other (List.mem_cons_of_mem _ listed)
      | false =>
          have unseen := fresh entry List.mem_cons_self own
          have taken : intake.takes toLowerCase setup entry =
              { seen := intake.seen ++ [entry.key toLowerCase]
                pending := intake.pending ++ [marked toLowerCase setup entry]
                added := intake.added + 1 } := by
            unfold Intake.takes
            rw [if_neg unseen, own]
            rfl
          have kept : ((entry :: rest).filter fun entry =>
                  !isOwn toLowerCase setup entry) =
                entry :: rest.filter fun entry =>
                    !isOwn toLowerCase setup entry :=
            List.filter_cons_of_pos (by rw [own]; decide)
          rw [kept, List.map_cons, List.nodup_cons] at distinct
          rw [taken, ih distinct.2, kept]
          · simp only [List.map_cons, List.length_cons, List.append_assoc,
              List.singleton_append, Nat.add_assoc, Nat.add_comm 1]
          · intro other listed outside seen
            rcases List.mem_append.mp seen with earlier | same
            · exact fresh other (List.mem_cons_of_mem _ listed) outside earlier
            · apply distinct.1
              rw [← List.mem_singleton.mp same]
              apply List.mem_map_of_mem
              apply List.mem_filter.mpr
              exact ⟨listed, by rw [outside]; rfl⟩

theorem count_marked (entries : List PendingEntry) (key : String × String) :
    ((entries.map (marked toLowerCase setup)).map
        (PendingEntry.key toLowerCase)).count key =
      (entries.map (PendingEntry.key toLowerCase)).count key := by
  rw [List.map_map]
  rfl

theorem environmentFirst_fairOrder (pending : List PendingEntry) :
    EnvironmentFirst PendingEntry.environment (fairOrder toLowerCase
        (fun e : PendingEntry => pendingTier e.environment e.kind)
        PendingEntry.creator pending) := by
  rw [fairOrder_eq_serve]
  apply (Backlog.serve_sorted _).imp
  intro first second ordered own
  by_contra other
  unfold pendingTier at ordered
  rw [if_pos own, if_neg other] at ordered
  omega

theorem environmentFirst_candidates
    (runtime : MarketRegistryRuntime) (view : SweepView) :
    EnvironmentFirst (fun c => isEnvironmentCreator toLowerCase setup c.creator)
      (candidates toLowerCase setup runtime view) := by
  unfold candidates
  rw [fairOrder_eq_serve]
  apply (Backlog.serve_sorted _).imp
  intro first second ordered own
  by_contra other
  rw [if_pos own, if_neg other] at ordered
  omega

theorem EnvironmentFirst.sublist
    {Item : Type} {environment : Item → Bool} {items part : List Item}
    (ordered : EnvironmentFirst environment items)
    (sublist : part.Sublist items) :
    EnvironmentFirst environment part :=
  List.Pairwise.sublist sublist ordered

end Eris.Registry.Discovery
