import Eris.Foundation.ArraySort
import Eris.Foundation.Crash

/-!
# The state directories of agents

`core/src/realtime/agentState.ts` and `core/src/realtime/dirUsage.ts`.  A
state root has a directory for each agent and a store of checkpoints, each of
which has copies of agents' directories under a label.  An epoch prepares an
agent's directory and takes a checkpoint of it; a restore puts a copy back.

Allocated bytes are left out of the measurements.
-/

namespace Eris.Agents.StateDirs

open Foundation.Crash
open Foundation (Collation ArraySort Comparison)

/-! ## Directories -/

inductive Kind where
  | file (bytes : List UInt8)
  | directory
  | unreadableDirectory
  | unstatable
  | irregular (kind : String)
  deriving DecidableEq

/-- An entry, under its path below the directory. -/
structure Entry where
  path : List String
  kind : Kind
  deriving DecidableEq

/-- What a directory holds, or why it cannot be read. -/
structure Tree where
  error : Option String
  entries : List Entry
  deriving DecidableEq

def Tree.empty : Tree := ⟨none, []⟩

/-- The entry is a regular file or a directory. -/
def Entry.isRegular (entry : Entry) : Bool :=
  match entry.kind with
  | .file _ => true
  | .directory => true
  | .unreadableDirectory => true
  | .unstatable => false
  | .irregular _ => false

/-- A copy of a directory skips what is irregular. -/
def regularEntriesOnly (tree : Tree) : Tree :=
  { tree with entries := tree.entries.filter (·.isRegular) }

structure StateDirLimits where
  maxBytes : ℕ
  maxEntries : ℕ
  maxDepth : ℕ

def DEFAULT_STATE_SNAPSHOT_LIMITS : StateDirLimits where
  maxBytes := 256 * 1024 * 1024
  maxEntries := 20000
  maxDepth := 16

structure TreeUsage where
  apparentBytes : ℕ
  entries : ℕ
  depth : ℕ
  truncated : Bool
  irregular : List (String × String)
  irregularCount : ℕ
  error : Option String
  deriving DecidableEq

/-- How many irregular entries are named. -/
def IRREGULAR_REPORTED : ℕ := 8

/-- Count an irregular entry, and name it among the first ones. -/
def TreeUsage.addIrregular
    (usage : TreeUsage) (path : List String) (kind : String) : TreeUsage :=
  { usage with
    irregularCount := usage.irregularCount + 1
    irregular := if usage.irregular.length < IRREGULAR_REPORTED then
        usage.irregular ++
          [(if path = [] then "." else "/".intercalate path, kind)]
      else
        usage.irregular }

/-- A walk: what is measured, the directories to enter, and if it stopped. -/
structure Walk where
  usage : TreeUsage
  stack : List (Entry × ℕ)
  stopped : Bool

/-- Measure one entry of a directory at a depth. -/
def Walk.visit
    (limits : StateDirLimits) (depth : ℕ) (walk : Walk) (entry : Entry) :
    Walk :=
  if walk.stopped then
    walk
  else if walk.usage.entries ≥ limits.maxEntries then
    { walk with
      usage := { walk.usage with truncated := true }, stopped := true }
  else
    let counted := { walk.usage with entries := walk.usage.entries + 1 }
    let below := depth + 1
    let entered := if below > limits.maxDepth then
        { walk with
          usage := { counted with
              depth := max counted.depth below, truncated := true } }
      else
        { walk with
          usage := { counted with depth := max counted.depth below }
          stack := (entry, below) :: walk.stack }
    match entry.kind with
    | .unstatable =>
        { walk with
          usage := walk.usage.addIrregular entry.path "unstatable" }
    | .file bytes =>
        { walk with
          usage := { counted with
              apparentBytes := counted.apparentBytes + bytes.length } }
    | .directory => entered
    | .unreadableDirectory => entered
    | .irregular kind =>
        { walk with usage := counted.addIrregular entry.path kind }

/-- Enter the directories on the stack, the last one first. -/
def walkFrom (tree : Tree) (limits : StateDirLimits) : ℕ → Walk → Walk
  | 0, walk => walk
  | fuel + 1, walk =>
      match walk.stack with
      | [] => walk
      | (directory, depth) :: stack =>
          let names := tree.entries.filter fun entry =>
              entry.path ≠ [] ∧ entry.path.dropLast = directory.path
          let next := if directory.kind = .unreadableDirectory then
              { walk with
                usage := walk.usage.addIrregular directory.path
                    "unreadable-directory"
                stack := stack }
            else
              names.foldl (Walk.visit limits depth) { walk with stack := stack }
          if next.stopped then next else walkFrom tree limits fuel next

/-- Measure a directory; each one is entered once. -/
def measureTree (tree : Tree) (limits : StateDirLimits) : TreeUsage :=
  let nothing : TreeUsage := ⟨0, 0, 0, false, [], 0, none⟩
  match tree.error with
  | some error => { nothing with error := some error }
  | none =>
      (walkFrom tree limits (tree.entries.length + 1)
        ⟨nothing, [(⟨[], .directory⟩, 0)], false⟩).usage

/-- Why the environment does not copy a directory. -/
def refusals (usage : TreeUsage) (limits : StateDirLimits) : List String :=
  (match usage.error with
    | some error => ["unreadable: " ++ error]
    | none => []) ++
  (if usage.irregularCount > 0 then
    [toString usage.irregularCount ++ " entr" ++
      (if usage.irregularCount = 1 then "y" else "ies") ++ " that " ++
      (if usage.irregularCount = 1 then "is" else "are") ++
      " not a regular file or directory (" ++
      ", ".intercalate
        (usage.irregular.map fun found => found.1 ++ ": " ++ found.2) ++
      (if usage.irregularCount > usage.irregular.length then
        ", ..."
      else
        "") ++ ")"]
  else
    []) ++
  (if usage.truncated then
    ["more than " ++ toString limits.maxEntries ++ " entries or deeper than " ++
      toString limits.maxDepth ++ " levels (stopped at " ++
      toString usage.entries ++ " entries, depth " ++ toString usage.depth ++
      ")"]
  else
    []) ++
  (if usage.apparentBytes > limits.maxBytes then
    [toString usage.apparentBytes ++ " bytes to copy, cap " ++
      toString limits.maxBytes]
  else
    [])

/-- Whether the environment copies a directory, and why it does not. -/
def validateStateDir (tree : Tree) (limits : StateDirLimits) :
    Option String × TreeUsage :=
  let usage := measureTree tree limits
  let reasons := refusals usage limits
  (if reasons = [] then none else some ("; ".intercalate reasons), usage)

/-! ## State roots -/

/-- The copies which a checkpoint has, by the agents' names. -/
abbrev Checkpoint := AList fun _ : String => Tree

/-- The directories under a root, and the checkpoints in its store. -/
structure StateRoot where
  children : AList fun _ : String => Tree
  checkpoints : AList fun _ : String => Checkpoint

/-- A directory of a root, or a copy in a checkpoint. -/
inductive Place where
  | child (name : String)
  | copy (label name : String)
  deriving DecidableEq

namespace StateRoot

variable (root : StateRoot)

def at? : Place → Option Tree
  | .child name => root.children.lookup name
  | .copy label name =>
      (root.checkpoints.lookup label).bind fun checkpoint =>
        checkpoint.lookup name

/-- The checkpoint under a label, which may be missing. -/
def checkpoint (label : String) : Checkpoint :=
  (root.checkpoints.lookup label).getD ∅

def put (tree : Tree) : Place → StateRoot
  | .child name => { root with children := root.children.insert name tree }
  | .copy label name =>
      { root with
        checkpoints := root.checkpoints.insert label
            ((root.checkpoint label).insert name tree) }

def drop : Place → StateRoot
  | .child name => { root with children := root.children.erase name }
  | .copy label name =>
      match root.checkpoints.lookup label with
      | none => root
      | some checkpoint =>
          { root with
            checkpoints :=
              root.checkpoints.insert label (checkpoint.erase name) }

end StateRoot

/-- The actions on a root; a copy skips what is irregular. -/
inductive Action where
  | make (place : Place)
  | makeCheckpoint (label : String)
  | remove (place : Place)
  | removeCheckpoint (label : String)
  | copy (source target : Place)
  | rename (source target : Place)
  deriving DecidableEq

def perform : Action → StateRoot → StateRoot
  | .make place, root =>
      match root.at? place with
      | none => root.put .empty place
      | some _ => root
  | .makeCheckpoint label, root =>
      match root.checkpoints.lookup label with
      | none =>
          { root with checkpoints := root.checkpoints.insert label ∅ }
      | some _ => root
  | .remove place, root => root.drop place
  | .removeCheckpoint label, root =>
      { root with checkpoints := root.checkpoints.erase label }
  | .copy source target, root =>
      match root.at? source with
      | none => root
      | some tree => root.put (regularEntriesOnly tree) target
  | .rename source target, root =>
      match root.at? source with
      | none => root
      | some tree => (root.drop source).put tree target

/-- An entry which was copied whole, or a file which was cut off. -/
def CopiedFrom (whole : Tree) (entry : Entry) : Prop :=
  ∃ original ∈ whole.entries, original.path = entry.path ∧
    (original.kind = entry.kind ∨
      ∃ bytes kept, original.kind = .file bytes ∧ entry.kind = .file kept ∧
        kept <+: bytes)

/-- What is left of a removal or a copy which is cut short. -/
def Cut : Action → StateRoot → StateRoot → Prop
  | .remove place, root, left =>
      ∃ tree rest, root.at? place = some tree ∧ rest.Sublist tree.entries ∧
          left = root.put { tree with entries := rest } place
  | .removeCheckpoint label, root, left =>
      ∃ rest : Checkpoint, (∀ name tree, rest.lookup name = some tree →
          ∃ whole, root.at? (.copy label name) = some whole ∧
            tree.entries.Sublist whole.entries) ∧
          left = { root with
              checkpoints := root.checkpoints.insert label rest }
  | .copy source target, root, left =>
      ∃ whole made, root.at? source = some whole ∧
        (∀ entry ∈ made.entries, CopiedFrom whole entry) ∧
          left = root.put made target
  | _, _, _ => False

def device : Device StateRoot Action where
  perform := perform
  Cut := Cut

/-- The subdirectory of the root which has the checkpoints. -/
def SNAPSHOT_DIR : String := ".snapshots"

def assertPathSegment (id : String) : Except String Unit :=
  if id = "" ∨ id = "." ∨ id = ".." ∨
      id.toList.any fun character => character = '\\' ∨ character = '/' then
    .error
      ("agent id " ++ id.quote ++ " cannot be used as a state directory name")
  else
    .ok ()

/-- The staging sibling of a directory which is being restored. -/
def restoring (name : String) : String := name ++ ".restoring"

/-- The sibling a directory is moved to while another takes its place. -/
def outgoing (name : String) : String := name ++ ".outgoing"

/-- The staging sibling of a copy which is being taken. -/
def staged (name : String) : String := name ++ ".partial"

/-- Where a refused directory is set aside, at a try. -/
def refusedName (name runId : String) (attempt : ℕ) : String :=
  if attempt = 1 then
    name ++ ".refused-" ++ runId
  else
    name ++ ".refused-" ++ runId ++ "-" ++ toString attempt

def EndsWith (name ending : String) : Prop := ending.toList <:+ name.toList

instance (name ending : String) : Decidable (EndsWith name ending) :=
  inferInstanceAs (Decidable (ending.toList <:+ name.toList))

def Includes (name part : String) : Prop := part.toList <:+: name.toList

instance (name part : String) : Decidable (Includes name part) :=
  inferInstanceAs (Decidable (part.toList <:+: name.toList))

/-- A child of a root which is an agent's. -/
def IsAgentDir (name : String) : Prop :=
  name ≠ SNAPSHOT_DIR ∧ ¬ EndsWith name ".restoring" ∧
    ¬ EndsWith name ".outgoing" ∧ ¬ Includes name ".refused-"

instance (name : String) : Decidable (IsAgentDir name) :=
  inferInstanceAs (Decidable
      (name ≠ SNAPSHOT_DIR ∧ ¬ EndsWith name ".restoring" ∧
        ¬ EndsWith name ".outgoing" ∧ ¬ Includes name ".refused-"))

def agentDirs (directories : AList fun _ : String => Tree) : List String :=
  directories.keys.filter (IsAgentDir ·)

/-- The label of a checkpoint is a run's id, an ISO timestamp. -/
def isRunIdSnapshot (name : String) : Bool :=
  let pattern := "0000-00-00T00-00-00".toList
  pattern.length ≤ name.toList.length &&
    (pattern.zip name.toList).all fun (expected, character) =>
      if expected = '0' then character.isDigit else character = expected

/-! ## Programs -/

abbrev Operation (Result : Type) := Program StateRoot Action Result

/-- What an operation asks of the machine besides the state root. -/
structure Host where
  mtimeMs : StateRoot → String → ℕ
  collation : Collation
  sorts : ArraySort String
  snapshotsKept : ℕ

/-- The oldest labels of runs past those which are kept. -/
def prunable (host : Host) (root : StateRoot) : List String :=
  let entries := root.checkpoints.keys.filter isRunIdSnapshot
  if host.snapshotsKept = 0 ∨ entries.length ≤ host.snapshotsKept then
    []
  else
    let byAge : Comparison String := fun left right =>
      (compare (host.mtimeMs root left) (host.mtimeMs root right)).then
        (host.collation.localeCompare left right)
    (host.sorts.sort byAge entries).take (entries.length - host.snapshotsKept)

def pruneSnapshots (host : Host) : Operation Unit :=
  .inspect fun root =>
    Program.forEach (fun label => .once (.removeCheckpoint label))
      (prunable host root)

/-- Replace a directory with a copy, which is staged beside it. -/
def swapIn (source : Place) (name : String) : Operation Unit :=
  .act (.remove (.child (restoring name))) <|
  .act (.remove (.child (outgoing name))) <|
  .act (.copy source (.child (restoring name))) <|
  .inspect fun root =>
    if (root.at? (.child name)).isSome then
      .act (.rename (.child name) (.child (outgoing name))) <|
      .act (.rename (.child (restoring name)) (.child name)) <|
      .once (.remove (.child (outgoing name)))
    else
      .act (.rename (.child (restoring name)) (.child name)) <|
      .once (.remove (.child (outgoing name)))

structure PreparedAgentState where
  dir : String
  usage : TreeUsage
  refused : Option (String × String)

/-- The first name which is free to set a refused directory aside to. -/
def refusedTo (root : StateRoot) (name runId : String) : String :=
  let attempts := List.range' 1 (root.children.keys.length + 1)
  ((attempts.map (refusedName name runId)).find? fun candidate =>
    candidate ∉ root.children.keys).getD (refusedName name runId 1)

/-- Take the snapshot of a run, if it has not been taken. -/
def takeSnapshot (agentId runId : String) : Operation Unit :=
  .inspect fun root =>
    if (root.at? (.copy runId agentId)).isSome then
      .done ()
    else
      .act (.makeCheckpoint runId) <|
      .act (.remove (.copy runId (staged agentId))) <|
      .act (.copy (.child agentId) (.copy runId (staged agentId))) <|
      .once (.rename (.copy runId (staged agentId)) (.copy runId agentId))

/-- Take the snapshot, drop old ones and hand the directory over. -/
def handOver
    (host : Host) (agentId runId : String) (usage : TreeUsage)
    (refused : Option (String × String)) :
    Operation (Except String PreparedAgentState) :=
  (takeSnapshot agentId runId).andThen fun _ =>
    (pruneSnapshots host).andThen fun _ =>
      .done (.ok ⟨agentId, usage, refused⟩)

/-- Set the directory aside if it is refused, and hand one over. -/
def validateAndHandOver
    (host : Host) (agentId runId : String) (limits : StateDirLimits)
    (root : StateRoot) :
    Operation (Except String PreparedAgentState) :=
  let own := (root.at? (.child agentId)).getD .empty
  match validateStateDir own limits with
  | (none, usage) => handOver host agentId runId usage none
  | (some reason, _) =>
      let aside := refusedTo root agentId runId
      .act (.rename (.child agentId) (.child aside)) <|
      .act (.make (.child agentId)) <|
      handOver host agentId runId (validateStateDir .empty limits).2
        (some (reason, aside))

/-- Prepare an agent's directory for an epoch. -/
def prepareAgentState
    (host : Host) (agentId runId : String) (limits : StateDirLimits) :
    Operation (Except String PreparedAgentState) :=
  match assertPathSegment agentId, assertPathSegment runId with
  | .error reason, _ => .done (.error reason)
  | .ok (), .error reason => .done (.error reason)
  | .ok (), .ok () =>
      .act (.make (.child agentId)) <|
      .inspect (validateAndHandOver host agentId runId limits)

/-- Put an agent's directory back to what an epoch started with. -/
def restoreAgentState (agentId runId : String) :
    Operation (Except String Bool) :=
  match assertPathSegment agentId, assertPathSegment runId with
  | .error reason, _ => .done (.error reason)
  | .ok (), .error reason => .done (.error reason)
  | .ok (), .ok () =>
      .inspect fun root =>
        if (root.at? (.copy runId agentId)).isSome then
          (swapIn (.copy runId agentId) agentId).andThen fun _ =>
            .done (.ok true)
        else
          .done (.ok false)

/-- Put every agent's directory back to what a checkpoint has of it. -/
def restoreAllAgentState (label : String) : Operation (Except String Bool) :=
  match assertPathSegment label with
  | .error reason => .done (.error reason)
  | .ok () =>
      .inspect fun root =>
        match root.checkpoints.lookup label with
        | none => .done (.ok false)
        | some target =>
            let carried := agentDirs target
            let strangers := (agentDirs root.children).filter fun agentId =>
                agentId ∉ carried
            (Program.forEach (fun agentId => .once (.remove (.child agentId)))
                strangers).andThen fun _ =>
              (Program.forEach
                  (fun agentId => swapIn (.copy label agentId) agentId)
                  carried).andThen fun _ =>
                .done (.ok true)

end Eris.Agents.StateDirs
