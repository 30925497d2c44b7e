import Eris.Inference.Recording

/-!
# Replaying a record

A replay answers an agent's calls with the calls of its file, one after the
other.  It gives a call the response which was recorded for its number when
every full line stands at the place of its number, and no other time.
-/

namespace Eris.Inference.Replaying

open Foundation.Transition Recording

variable {Agent Body : Type}

inductive CallLine (Agent Body : Type) where
  | recorded (record : RecordedCall Agent Body)
  | truncated (stub : TruncatedCall Agent)

def callLine? : Line Agent Body → Option (CallLine Agent Body)
  | .full record => some (.recorded record)
  | .stub truncated => some (.truncated truncated)
  | .note _ => none

/-- The queue of an agent: the lines of its file which are calls. -/
def queueOf (file : List (Line Agent Body)) :
    List (CallLine Agent Body) :=
  file.filterMap callLine?

/-- `Replay`: a queue is read from its file when it is first asked for. -/
structure Replay (Agent Body : Type) where
  files : Agent → List (Line Agent Body)
  queues : Agent → Option (List (CallLine Agent Body))

def openReplay (files : Agent → List (Line Agent Body)) :
    Replay Agent Body where
  files := files
  queues _ := none

variable [DecidableEq Agent] {file : List (Line Agent Body)}

def Replay.queue (replay : Replay Agent Body) (agentId : Agent) :
    List (CallLine Agent Body) :=
  (replay.queues agentId).getD (queueOf (replay.files agentId))

def next (replay : Replay Agent Body) (agentId : Agent) :
    Option (CallLine Agent Body) × Replay Agent Body :=
  ((replay.queue agentId).head?, { replay with
      queues := Function.update replay.queues agentId
          (some (replay.queue agentId).tail) })

inductive Answer (Agent Body : Type) where
  | exhausted
  | truncated (stub : TruncatedCall Agent)
  | served (record : RecordedCall Agent Body)

def answerOf : Option (CallLine Agent Body) → Answer Agent Body
  | none => .exhausted
  | some (.truncated stub) => .truncated stub
  | some (.recorded record) => .served record

/-- A replay which has been called by some agents, in this order. -/
def called (replay : Replay Agent Body) : List Agent → Replay Agent Body
  | [] => replay
  | agentId :: calls => called (next replay agentId).2 calls

/-- How the call after some calls is answered. -/
def answerAfter
    (files : Agent → List (Line Agent Body)) (calls : List Agent)
    (agentId : Agent) : Answer Agent Body :=
  answerOf (next (called (openReplay files) calls) agentId).1

/-- The response which was recorded for a call of this number. -/
def recordedCall
    (file : List (Line Agent Body)) (seq : Nat) :
    Option (RecordedCall Agent Body) :=
  (file.filterMap fun line =>
    match line with
    | .full record => some record
    | _ => none).find? (·.seq = seq)

def Answer.response? : Answer Agent Body → Option (RecordedCall Agent Body)
  | .served record => some record
  | _ => none

/--
Every replay serves an agent's call of a number exactly what was recorded for
this number, whichever calls of whichever agents came before.
-/
def Faithful (files : Agent → List (Line Agent Body)) : Prop :=
  ∀ calls agentId, (answerAfter files calls agentId).response? =
      recordedCall (files agentId) (calls.count agentId + 1)

/-! ## The queue of a replay -/

omit [DecidableEq Agent] in
theorem queueOf_append (file lines : List (Line Agent Body)) :
    queueOf (file ++ lines) = queueOf file ++ queueOf lines :=
  List.filterMap_append

theorem queue_next (replay : Replay Agent Body) (agentId other : Agent) :
    (next replay agentId).2.queue other =
      (replay.queue other).drop (if other = agentId then 1 else 0) := by
  unfold Replay.queue next
  by_cases same : other = agentId
  · subst same
    simp [Replay.queue]
  · simp [same]

theorem queue_called
    (replay : Replay Agent Body) (calls : List Agent) (agentId : Agent) :
    (called replay calls).queue agentId =
      (replay.queue agentId).drop (calls.count agentId) := by
  induction calls generalizing replay with
  | nil => rfl
  | cons caller rest ih =>
      rw [called, ih, queue_next, List.drop_drop, List.count_cons]
      by_cases same : agentId = caller
      · simp [same, Nat.add_comm]
      · simp [same, Ne.symm same]

theorem answerAfter_eq
    (files : Agent → List (Line Agent Body)) (calls : List Agent)
    (agentId : Agent) :
    answerAfter files calls agentId =
      answerOf (queueOf (files agentId))[calls.count agentId]? := by
  have queued := queue_called (openReplay files) calls agentId
  unfold answerAfter next
  rw [queued, List.head?_drop]
  rfl

/-- Every full line of a file stands at the place of its number. -/
def Aligned (file : List (Line Agent Body)) : Prop :=
  ∀ place record,
    (queueOf file)[place]? = some (.recorded record) → record.seq = place + 1

omit [DecidableEq Agent] in
theorem mem_queueOf
    {record : RecordedCall Agent Body} :
    .recorded record ∈ queueOf file ↔ .full record ∈ file := by
  unfold queueOf
  rw [List.mem_filterMap]
  constructor
  · rintro ⟨line, member, same⟩
    cases line with
    | full kept =>
        cases same
        exact member
    | stub truncated => cases same
    | note capped => cases same
  · intro member
    exact ⟨.full record, member, rfl⟩

omit [DecidableEq Agent] in
theorem recordedCall_eq_some
    {seq : Nat} {record : RecordedCall Agent Body}
    (found : recordedCall file seq = some record) :
    record.seq = seq ∧ .full record ∈ file := by
  unfold recordedCall at found
  have numbered := List.find?_some found
  refine ⟨of_decide_eq_true numbered, ?_⟩
  rcases List.mem_filterMap.1 (List.mem_of_find?_eq_some found) with
    ⟨line, member, same⟩
  cases line with
  | full kept =>
      cases same
      exact member
  | stub truncated => cases same
  | note capped => cases same

omit [DecidableEq Agent] in
theorem recordedCall_isSome
    {record : RecordedCall Agent Body} (member : .full record ∈ file) :
    (recordedCall file record.seq).isSome = true := by
  unfold recordedCall
  rw [List.find?_isSome]
  exact ⟨record, List.mem_filterMap.2 ⟨.full record, member, rfl⟩,
    decide_eq_true rfl⟩

omit [DecidableEq Agent] in
theorem Aligned.recordedCall_eq
    (aligned : Aligned file) (place : Nat) :
    recordedCall file (place + 1) =
      (answerOf (queueOf file)[place]?).response? := by
  have placed : ∀ record, recordedCall file (place + 1) = some record →
      (queueOf file)[place]? = some (.recorded record) := by
    intro record found
    rcases recordedCall_eq_some found with ⟨numbered, member⟩
    rcases List.mem_iff_getElem?.1 (mem_queueOf.2 member) with
      ⟨other, listed⟩
    have same := aligned other record listed
    rw [numbered, Nat.add_right_cancel_iff] at same
    rw [same]
    exact listed
  cases found : recordedCall file (place + 1) with
  | some record =>
      rw [placed record found]
      rfl
  | none =>
      cases listed : (queueOf file)[place]? with
      | none => rfl
      | some line =>
          cases line with
          | truncated stub => rfl
          | recorded record =>
              have numbered := aligned place record listed
              have known := recordedCall_isSome
                  (mem_queueOf.1 (List.mem_of_getElem? listed))
              rw [numbered, found] at known
              cases known

theorem faithful_iff (files : Agent → List (Line Agent Body)) :
    Faithful files ↔ ∀ agentId, Aligned (files agentId) := by
  constructor
  · intro faithful agentId place record listed
    have served := faithful (List.replicate place agentId) agentId
    rw [answerAfter_eq, List.count_replicate_self, listed] at served
    exact (recordedCall_eq_some served.symm).1
  · intro aligned calls agentId
    rw [answerAfter_eq, (aligned agentId).recordedCall_eq]

variable (encoding : Encoding Agent Body) (caps : Caps)

/-- The record of a call reaches the disk with its bodies. -/
def keepsBody
    (proxy : Proxy Agent Body) (entry : RecordedCall Agent Body)
    (disk : Disk) : Prop :=
  proxy.capped entry.agentId = false ∧
    totalReached encoding caps proxy entry = false ∧
      agentReached encoding caps proxy entry = false ∧ disk.line = true

/--
A record is kept with its bodies when all calls before it, and no other ones,
have left a line.
-/
def InTurn (proxy : Proxy Agent Body) : Label Agent Body → Prop
  | .complete entry disk =>
      keepsBody encoding caps proxy entry disk →
        (queueOf (proxy.files entry.agentId)).length + 1 = entry.seq
  | _ => True

instance
    (proxy : Proxy Agent Body) (entry : RecordedCall Agent Body) (disk : Disk) :
    Decidable (keepsBody encoding caps proxy entry disk) :=
  inferInstanceAs (Decidable (_ ∧ _))

instance (proxy : Proxy Agent Body) (label : Label Agent Body) :
    Decidable (InTurn encoding caps proxy label) := by
  cases label <;> unfold InTurn <;> infer_instance

variable {encoding caps}

/-- What a record adds to the file of its agent. -/
structure Adds
    (proxy next : Proxy Agent Body) (agentId : Agent)
    (lines : List (Line Agent Body)) : Prop where
  own : next.files agentId = proxy.files agentId ++ lines
  others : ∀ other, other ≠ agentId → next.files other = proxy.files other

theorem append_adds
    (proxy : Proxy Agent Body) (agentId : Agent)
    (line : Line Agent Body) (written : Bool) :
    Adds proxy (append proxy agentId line written) agentId
      (if written then [line] else []) := by
  cases written with
  | true =>
      constructor
      · simp [append]
      · intro other different
        simp [append, different]
  | false =>
      constructor
      · simp [append]
      · intro other different
        simp [append]

theorem appendStub_adds
    (encoding : Encoding Agent Body) (proxy : Proxy Agent Body) (entry : RecordedCall Agent Body)
    (written : Bool) :
    Adds proxy (appendStub encoding proxy entry written) entry.agentId
      (if written then [.stub (stubOf encoding entry)] else []) := by
  have added :=
    append_adds proxy entry.agentId (.stub (stubOf encoding entry)) written
  unfold appendStub
  cases written with
  | true => exact ⟨added.own, added.others⟩
  | false => exact added

theorem stopRecording_adds
    (caps : Caps) (proxy : Proxy Agent Body) (entry : RecordedCall Agent Body)
    (scope : CapScope) (written : Bool) :
    ∃ lines, Adds proxy (stopRecording caps proxy entry scope written)
        entry.agentId lines ∧
      ∀ record, .full record ∉ lines := by
  unfold stopRecording
  refine ⟨_, ⟨(append_adds _ _ _ _).own, (append_adds _ _ _ _).others⟩, ?_⟩
  intro record
  cases written <;> simp

omit [DecidableEq Agent] in
theorem Adds.trans
    {first second third : Proxy Agent Body} {agentId : Agent}
    {lines more : List (Line Agent Body)}
    (before : Adds first second agentId lines)
    (after : Adds second third agentId more) :
    Adds first third agentId (lines ++ more) where
  own := by
    rw [after.own, before.own, List.append_assoc]
  others other different := by
    rw [after.others other different, before.others other different]

theorem record_adds
    (proxy : Proxy Agent Body) (entry : RecordedCall Agent Body) (disk : Disk) :
    ∃ lines, Adds proxy (record encoding caps proxy entry disk) entry.agentId
        lines ∧
      if keepsBody encoding caps proxy entry disk then
        lines = [.full entry]
      else ∀ record, .full record ∉ lines := by
  have stubbed : ∀ record : RecordedCall Agent Body, .full record ∉
      (if disk.line then [.stub (stubOf encoding entry)]
        else [] : List (Line Agent Body)) := by
    intro record
    cases disk.line <;> simp
  have stopped : ∀ (start : Proxy Agent Body) scope, start.files = proxy.files →
      ∃ lines, Adds proxy (appendStub encoding
            (stopRecording caps start entry scope disk.note) entry
            disk.line)
          entry.agentId lines ∧
        ∀ record, .full record ∉ lines := by
    intro start scope files
    rcases stopRecording_adds caps start entry scope disk.note with
      ⟨lines, added, none⟩
    have stub := appendStub_adds encoding
        (stopRecording caps start entry scope disk.note) entry disk.line
    have whole := added.trans stub
    refine ⟨_, ⟨files ▸ whole.own, files ▸ whole.others⟩, ?_⟩
    intro record member
    rcases List.mem_append.1 member with early | late
    · exact none record early
    · exact stubbed record late
  unfold record
  split
  · next capped =>
      refine ⟨_, appendStub_adds encoding proxy entry disk.line, ?_⟩
      rw [if_neg (fun keeps => by simp [keeps.1] at capped)]
      exact stubbed
  · split
    · next reached =>
        rcases stopped { proxy with totalCapped := true } .total rfl with
          ⟨lines, added, none⟩
        refine ⟨lines, added, ?_⟩
        rw [if_neg (fun keeps => by simp [keeps.2.1] at reached)]
        exact none
    · split
      · next reached =>
          rcases stopped proxy .agent rfl with ⟨lines, added, none⟩
          refine ⟨lines, added, ?_⟩
          rw [if_neg (fun keeps => by simp [keeps.2.2.1] at reached)]
          exact none
      · next uncapped unreached room =>
          have added := append_adds proxy entry.agentId (.full entry) disk.line
          unfold recordFull
          cases written : disk.line with
          | true =>
              rw [written] at added
              refine ⟨_, ⟨added.own, added.others⟩, ?_⟩
              rw [if_pos
                ⟨by simpa using uncapped, by simpa using unreached,
                  by simpa using room, written⟩]
              rfl
          | false =>
              rw [written] at added
              refine ⟨_, added, ?_⟩
              rw [if_neg (fun keeps => by simp [keeps.2.2.2] at written)]
              simp

/-! ## Runs -/

omit [DecidableEq Agent] in
theorem aligned_append_iff
    {lines : List (Line Agent Body)} (none : ∀ record, .full record ∉ lines) :
    Aligned (file ++ lines) ↔ Aligned file := by
  unfold Aligned
  rw [queueOf_append]
  constructor
  · intro aligned place record listed
    apply aligned place record
    rw [List.getElem?_append_left (List.getElem?_eq_some_iff.1 listed).1]
    exact listed
  · intro aligned place record listed
    rcases lt_or_ge place (queueOf file).length with within | beyond
    · rw [List.getElem?_append_left within] at listed
      exact aligned place record listed
    · rw [List.getElem?_append_right beyond] at listed
      have member := mem_queueOf.1 (List.mem_of_getElem? listed)
      exact absurd member (none record)

omit [DecidableEq Agent] in
theorem aligned_snoc_iff
    {entry : RecordedCall Agent Body} :
    Aligned (file ++ [.full entry]) ↔
      Aligned file ∧ (queueOf file).length + 1 = entry.seq := by
  have queue :
      queueOf (file ++ [.full entry]) = queueOf file ++ [.recorded entry] :=
    queueOf_append file [.full entry]
  unfold Aligned
  rw [queue]
  constructor
  · intro aligned
    constructor
    · intro place record listed
      apply aligned place record
      rw [List.getElem?_append_left (List.getElem?_eq_some_iff.1 listed).1]
      exact listed
    · exact (aligned _ entry List.getElem?_concat_length).symm
  · rintro ⟨aligned, turn⟩ place record listed
    rcases lt_trichotomy place (queueOf file).length with
      within | same | beyond
    · rw [List.getElem?_append_left within] at listed
      exact aligned place record listed
    · rw [same, List.getElem?_concat_length] at listed
      cases listed
      rw [same, turn]
    · rw [List.getElem?_eq_none
        (by rw [List.length_append]; exact beyond)] at listed
      cases listed

def AllAligned (proxy : Proxy Agent Body) : Prop :=
  ∀ agentId, Aligned (proxy.files agentId)

theorem allAligned_step_iff
    {proxy next : Proxy Agent Body} {label : Label Agent Body}
    (step : (protocol encoding caps).step proxy label next) :
    AllAligned next ↔ AllAligned proxy ∧ InTurn encoding caps proxy label := by
  cases label with
  | arrive agentId =>
      cases step
      exact (and_iff_left trivial).symm
  | abandon agentId seq =>
      simp only [protocol, perform, Option.ite_none_right_eq_some] at step
      rcases step with ⟨_, step⟩
      cases step
      exact (and_iff_left trivial).symm
  | complete entry disk =>
      simp only [protocol, perform, Option.ite_none_right_eq_some] at step
      rcases step with ⟨_, step⟩
      cases step
      have written : ∃ lines, Adds proxy (record encoding caps
              (close proxy entry.agentId entry.seq) entry disk)
            entry.agentId lines ∧
          if keepsBody encoding caps proxy entry disk then
              lines = [.full entry]
            else ∀ record, .full record ∉ lines := by
        rcases record_adds (close proxy entry.agentId entry.seq) entry
          disk with ⟨lines, added, kind⟩
        exact ⟨lines, ⟨added.own, added.others⟩, kind⟩
      rcases written with ⟨lines, added, kind⟩
      have own : Aligned (proxy.files entry.agentId ++ lines) ↔
          Aligned (proxy.files entry.agentId) ∧
            InTurn encoding caps proxy (.complete entry disk) := by
        unfold InTurn
        by_cases keeps : keepsBody encoding caps proxy entry disk
        · rw [if_pos keeps] at kind
          rw [kind, aligned_snoc_iff]
          simp [keeps]
        · rw [if_neg keeps] at kind
          rw [aligned_append_iff kind]
          simp [keeps]
      constructor
      · intro aligned
        have here := aligned entry.agentId
        rw [added.own, own] at here
        refine ⟨?_, here.2⟩
        intro agentId
        by_cases same : agentId = entry.agentId
        · rw [same]
          exact here.1
        · rw [← added.others agentId same]
          exact aligned agentId
      · rintro ⟨aligned, turn⟩ agentId
        by_cases same : agentId = entry.agentId
        · rw [same, added.own, own]
          exact ⟨aligned entry.agentId, turn⟩
        · rw [added.others agentId same]
          exact aligned agentId

/-- Some file of the record is not aligned. -/
def Misaligned (proxy : Proxy Agent Body) : Prop := ¬ AllAligned proxy

theorem misaligned_run
    {proxy later : Proxy Agent Body}
    (run : (protocol encoding caps).Runs System.anything proxy later)
    (broken : Misaligned proxy) :
    Misaligned later := by
  have preserved : ∀ before label after, Misaligned before →
      System.anything before label →
        (protocol encoding caps).step before label after →
          Misaligned after := by
    intro before label after holds _ step aligned
    exact holds ((allAligned_step_iff step).1 aligned).1
  exact run.invariant preserved broken

def defaultCaps : Caps where
  perAgentCap := 256 * 1024 * 1024
  totalCap := 8 * 1024 * 1024 * 1024

/-- Bodies of text, with every line of one length. -/
def plainEncoding : Encoding String String where
  bodyBytes body := body.length
  bodySha256 body := body
  lineBytes _ := 400

/-- The call of a number, answered with a text. -/
def chat (seq : Nat) (response : String) : RecordedCall String String where
  ts := 0
  agentId := "alice"
  seq := seq
  path := "/v1/chat/completions"
  model := "small"
  provider := .openai
  durationMs := 10
  status := 200
  request := "question"
  response := response
  contentType := none
  stream := false
  error := none

/-- Serve labels in order, from a proxy which has served no call. -/
def served
    (allowed : Proxy String String → Label String String → Prop)
    [∀ proxy label, Decidable (allowed proxy label)]
    (labels : List (Label String String)) : Option (Proxy String String) :=
  script (fun proxy label =>
      (perform plainEncoding defaultCaps proxy label).map (label, ·))
    allowed labels create

theorem reachable_of_served
    {allowed : Proxy String String → Label String String → Prop}
    [∀ proxy label, Decidable (allowed proxy label)]
    {labels : List (Label String String)} {proxy : Proxy String String}
    (ran : served allowed labels = some proxy) :
    (protocol plainEncoding defaultCaps).Reachable allowed proxy :=
  ⟨create, rfl, performed_runs (fun _ _ _ performs => performs) ran⟩

/-- Two calls overlap, and the second one completes first. -/
def overlapping : List (Label String String) :=
  [.arrive "alice", .arrive "alice",
    .complete (chat 2 "second") ⟨true, true⟩,
    .complete (chat 1 "first") ⟨true, true⟩]

/-- Two calls overlap, and complete in the order of their numbers. -/
def inOrder : List (Label String String) :=
  [.arrive "alice", .arrive "alice",
    .complete (chat 1 "first") ⟨true, true⟩,
    .complete (chat 2 "second") ⟨true, true⟩]

theorem served_overlapping :
    (served System.anything overlapping).map (·.files "alice") =
      some [.full (chat 2 "second"), .full (chat 1 "first")] := by
  decide

end Eris.Inference.Replaying
