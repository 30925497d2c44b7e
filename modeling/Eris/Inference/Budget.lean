import Eris.Foundation.Trace
import Eris.Inference.Replaying

/-!
# The budget of the record

`core/src/inference/proxy.ts`, `record`: the check of a cap and the write of
a line are one step, whichever calls are open.  What full lines hold is what
the counters say, so it stays within the caps.  A call leaves a full line or
a stub, in the order of completion, and once an agent or the run is capped
the full lines of a file stay as they are.
-/

namespace Eris.Inference.Budget

open Foundation.Transition Foundation.Trace Recording Replaying

variable {Agent Body : Type}

/-! ## Full records -/

def fullRecord? : Line Agent Body → Option (RecordedCall Agent Body)
  | .full record => some record
  | _ => none

def fullRecords (file : List (Line Agent Body)) :
    List (RecordedCall Agent Body) :=
  file.filterMap fullRecord?

/-- The bytes of the full records of a file. -/
def fullBytes
    (encoding : Encoding Agent Body) (file : List (Line Agent Body)) : Nat :=
  ((fullRecords file).map fun record =>
    encoding.lineBytes (.full record)).sum

theorem fullRecords_append (file lines : List (Line Agent Body)) :
    fullRecords (file ++ lines) = fullRecords file ++ fullRecords lines :=
  List.filterMap_append

theorem fullBytes_append
    (encoding : Encoding Agent Body) (file lines : List (Line Agent Body)) :
    fullBytes encoding (file ++ lines) =
      fullBytes encoding file + fullBytes encoding lines := by
  unfold fullBytes
  rw [fullRecords_append, List.map_append, List.sum_append]

variable [DecidableEq Agent] (encoding : Encoding Agent Body) (caps : Caps)

/-- A call leaves no more than a stub, and its agent is capped. -/
structure Stubbed
    (proxy next : Proxy Agent Body) (entry : RecordedCall Agent Body)
    (written : Bool) (lines : List (Line Agent Body)) : Prop where
  adds : Adds proxy next entry.agentId lines
  queue : queueOf lines =
    if written then [.truncated (stubOf encoding entry)] else []
  full : fullRecords lines = []
  recordedBytes : next.recordedBytes = proxy.recordedBytes
  totalBytes : next.totalBytes = proxy.totalBytes
  capped : next.capped = Function.update proxy.capped entry.agentId true
  totalCapped : proxy.totalCapped = true → next.totalCapped = true
  seq : next.seq = proxy.seq
  inFlight : next.inFlight = proxy.inFlight

/-- A call leaves its full record, within the caps, or loses it. -/
structure Recorded
    (proxy next : Proxy Agent Body) (entry : RecordedCall Agent Body)
    (written : Bool) : Prop where
  uncapped : proxy.capped entry.agentId = false
  totalUncapped : proxy.totalCapped = false
  agentRoom :
    proxy.recordedBytes entry.agentId + encoding.lineBytes (.full entry) ≤
      caps.perAgentCap
  totalRoom :
    proxy.totalBytes + encoding.lineBytes (.full entry) ≤ caps.totalCap
  adds : Adds proxy next entry.agentId (if written then [.full entry] else [])
  recordedBytes : next.recordedBytes =
    Function.update proxy.recordedBytes entry.agentId
      (proxy.recordedBytes entry.agentId +
        if written then encoding.lineBytes (.full entry) else 0)
  totalBytes : next.totalBytes =
    proxy.totalBytes + if written then encoding.lineBytes (.full entry) else 0
  capped : next.capped = proxy.capped
  totalCapped : next.totalCapped = proxy.totalCapped
  seq : next.seq = proxy.seq
  inFlight : next.inFlight = proxy.inFlight

variable {encoding caps}
    {proxy next : Proxy Agent Body} {entry : RecordedCall Agent Body}
    {written : Bool} {label : Label Agent Body}
    {calls : List (RecordedCall Agent Body × Bool)}
    {queue : List (CallLine Agent Body)} {labels : List (Label Agent Body)}
    {agentId : Agent}

theorem appendStub_stubbed
    (capped : proxy.capped entry.agentId = true) (written : Bool) :
    Stubbed encoding proxy (appendStub encoding proxy entry written) entry
      written (if written then [.stub (stubOf encoding entry)] else []) where
  adds := appendStub_adds encoding proxy entry written
  queue := by cases written <;> rfl
  full := by cases written <;> rfl
  recordedBytes := by cases written <;> rfl
  totalBytes := by cases written <;> rfl
  capped := by
    have same :
        proxy.capped = Function.update proxy.capped entry.agentId true := by
      rw [← capped, Function.update_eq_self]
    cases written <;> exact same
  totalCapped holds := by
    cases written <;> exact holds
  seq := by cases written <;> rfl
  inFlight := by cases written <;> rfl

theorem Stubbed.noted
    {note : RecordingNote Agent} {totalCapped noteWritten : Bool}
    {lines : List (Line Agent Body)}
    (kept : proxy.totalCapped = true → totalCapped = true)
    (stubbed : Stubbed encoding (append { proxy with
            totalCapped := totalCapped
            capped := Function.update proxy.capped entry.agentId true }
          entry.agentId (.note note) noteWritten)
        next entry written lines) :
    Stubbed encoding proxy next entry written
      ((if noteWritten then [.note note] else []) ++ lines) where
  adds := by
    have first := append_adds { proxy with
          totalCapped := totalCapped
          capped := Function.update proxy.capped entry.agentId true }
        entry.agentId (.note note) noteWritten
    have whole := first.trans stubbed.adds
    exact ⟨whole.own, whole.others⟩
  queue := by
    rw [queueOf_append, stubbed.queue]
    cases noteWritten <;> rfl
  full := by
    rw [fullRecords_append, stubbed.full, List.append_nil]
    cases noteWritten <;> rfl
  recordedBytes := by
    rw [stubbed.recordedBytes]
    cases noteWritten <;> rfl
  totalBytes := by
    rw [stubbed.totalBytes]
    cases noteWritten <;> rfl
  capped := by
    rw [stubbed.capped]
    cases noteWritten <;> exact Function.update_idem true true proxy.capped
  totalCapped holds := by
    apply stubbed.totalCapped
    cases noteWritten <;> exact kept holds
  seq := by
    rw [stubbed.seq]
    cases noteWritten <;> rfl
  inFlight := by
    rw [stubbed.inFlight]
    cases noteWritten <;> rfl

theorem stopped_stubbed
    (proxy : Proxy Agent Body) (entry : RecordedCall Agent Body)
    (scope : CapScope) (disk : Disk) {totalCapped : Bool}
    (kept : proxy.totalCapped = true → totalCapped = true) :
    ∃ lines, Stubbed encoding proxy (appendStub encoding
          (stopRecording caps { proxy with totalCapped := totalCapped }
            entry scope disk.note)
          entry disk.line)
        entry disk.line lines := by
  have capped :
      (stopRecording caps { proxy with totalCapped := totalCapped } entry
        scope disk.note).capped entry.agentId = true := by
    unfold stopRecording append
    cases disk.note <;> exact Function.update_self entry.agentId _ _
  exact ⟨_, (appendStub_stubbed capped disk.line).noted kept⟩

theorem recordFull_recorded
    (uncapped : proxy.capped entry.agentId = false)
    (totalRoom : totalReached encoding caps proxy entry = false)
    (agentRoom : agentReached encoding caps proxy entry = false)
    (written : Bool) :
    Recorded encoding caps proxy
      (recordFull encoding proxy entry written) entry written where
  uncapped := uncapped
  totalUncapped := (Bool.or_eq_false_iff.1 totalRoom).1
  agentRoom := not_lt.1 (of_decide_eq_false agentRoom)
  totalRoom :=
    not_lt.1 (of_decide_eq_false (Bool.or_eq_false_iff.1 totalRoom).2)
  adds := by
    have added := append_adds proxy entry.agentId (.full entry) written
    cases written with
    | true => exact ⟨added.own, added.others⟩
    | false => exact added
  recordedBytes := by
    cases written with
    | true => rfl
    | false => exact (Function.update_eq_self _ _).symm
  totalBytes := by cases written <;> rfl
  capped := by cases written <;> rfl
  totalCapped := by cases written <;> rfl
  seq := by cases written <;> rfl
  inFlight := by cases written <;> rfl

/-- A call leaves a stub and caps its agent, or its full record within the
caps. -/
theorem record_cases
    (proxy : Proxy Agent Body) (entry : RecordedCall Agent Body) (disk : Disk) :
    (∃ lines,
      Stubbed encoding proxy (record encoding caps proxy entry disk) entry
        disk.line lines) ∨
      Recorded encoding caps proxy (record encoding caps proxy entry disk)
        entry disk.line := by
  unfold record
  split
  · next capped => exact Or.inl ⟨_, appendStub_stubbed capped disk.line⟩
  · next uncapped =>
      split
      · exact Or.inl (stopped_stubbed proxy entry .total disk fun _ => rfl)
      · next totalRoom =>
          split
          · exact Or.inl (stopped_stubbed proxy entry .agent disk id)
          · next agentRoom =>
              exact Or.inr
                (recordFull_recorded (Bool.eq_false_of_not_eq_true uncapped)
                  (Bool.eq_false_of_not_eq_true totalRoom)
                  (Bool.eq_false_of_not_eq_true agentRoom) disk.line)

/-! ## The counters -/

/-- The counters say what the full records hold, within the caps. -/
structure Accounted
    (encoding : Encoding Agent Body) (caps : Caps)
    (proxy : Proxy Agent Body) : Prop where
  own : ∀ agentId,
    fullBytes encoding (proxy.files agentId) = proxy.recordedBytes agentId
  agentCap : ∀ agentId, proxy.recordedBytes agentId ≤ caps.perAgentCap
  all : ∀ agents : Finset Agent,
    ∑ agentId ∈ agents, proxy.recordedBytes agentId ≤ proxy.totalBytes
  totalCap : proxy.totalBytes ≤ caps.totalCap

omit [DecidableEq Agent] in
theorem accounted_create :
    Accounted encoding caps (create : Proxy Agent Body) where
  own _ := rfl
  agentCap _ := Nat.zero_le _
  all agents := by
    have none : ∀ agentId ∈ agents,
        (create : Proxy Agent Body).recordedBytes agentId = 0 :=
      fun _ _ => rfl
    rw [Finset.sum_eq_zero none]
    exact Nat.zero_le _
  totalCap := Nat.zero_le _

omit [DecidableEq Agent] in
theorem Accounted.same
    (accounted : Accounted encoding caps proxy)
    (files : next.files = proxy.files)
    (recordedBytes : next.recordedBytes = proxy.recordedBytes)
    (totalBytes : next.totalBytes = proxy.totalBytes) :
    Accounted encoding caps next where
  own agentId := by
    rw [files, recordedBytes]
    exact accounted.own agentId
  agentCap agentId := by
    rw [recordedBytes]
    exact accounted.agentCap agentId
  all agents := by
    rw [recordedBytes, totalBytes]
    exact accounted.all agents
  totalCap := by
    rw [totalBytes]
    exact accounted.totalCap

theorem Stubbed.accounted
    {lines : List (Line Agent Body)}
    (stubbed : Stubbed encoding proxy next entry written lines)
    (accounted : Accounted encoding caps proxy) :
    Accounted encoding caps next where
  own agentId := by
    rw [stubbed.recordedBytes, ← accounted.own agentId]
    by_cases same : agentId = entry.agentId
    · rw [same, stubbed.adds.own, fullBytes_append]
      unfold fullBytes
      rw [stubbed.full]
      rfl
    · rw [stubbed.adds.others agentId same]
  agentCap agentId := by
    rw [stubbed.recordedBytes]
    exact accounted.agentCap agentId
  all agents := by
    rw [stubbed.recordedBytes, stubbed.totalBytes]
    exact accounted.all agents
  totalCap := by
    rw [stubbed.totalBytes]
    exact accounted.totalCap

theorem sum_update_le
    (counter : Agent → Nat) (agentId : Agent) (added : Nat)
    (agents : Finset Agent) :
    ∑ other ∈ agents,
        Function.update counter agentId (counter agentId + added) other ≤
      ∑ other ∈ agents, counter other + added := by
  by_cases listed : agentId ∈ agents
  · have whole := Finset.sum_update_of_mem listed counter (counter agentId)
    rw [Function.update_eq_self] at whole
    rw [Finset.sum_update_of_mem listed, whole]
    omega
  · rw [Finset.sum_update_of_notMem listed]
    exact Nat.le_add_right _ _

theorem Recorded.accounted
    (recorded : Recorded encoding caps proxy next entry written)
    (accounted : Accounted encoding caps proxy) :
    Accounted encoding caps next where
  own agentId := by
    rw [recorded.recordedBytes]
    by_cases same : agentId = entry.agentId
    · subst same
      rw [Function.update_self, recorded.adds.own, fullBytes_append,
        accounted.own]
      cases written <;> rfl
    · rw [Function.update_of_ne same, recorded.adds.others agentId same]
      exact accounted.own agentId
  agentCap agentId := by
    rw [recorded.recordedBytes]
    by_cases same : agentId = entry.agentId
    · subst same
      rw [Function.update_self]
      have room := recorded.agentRoom
      split <;> omega
    · rw [Function.update_of_ne same]
      exact accounted.agentCap agentId
  all agents := by
    rw [recorded.recordedBytes, recorded.totalBytes]
    exact (sum_update_le proxy.recordedBytes entry.agentId _ agents).trans
      (Nat.add_le_add_right (accounted.all agents) _)
  totalCap := by
    have room := recorded.totalRoom
    rw [recorded.totalBytes]
    split <;> omega

theorem Accounted.record
    (accounted : Accounted encoding caps proxy)
    (entry : RecordedCall Agent Body) (disk : Disk) :
    Accounted encoding caps (record encoding caps proxy entry disk) := by
  rcases record_cases proxy entry disk
    with ⟨lines, stubbed⟩ | recorded
  · exact stubbed.accounted accounted
  · exact recorded.accounted accounted

theorem record_open
    (proxy : Proxy Agent Body) (entry : RecordedCall Agent Body) (disk : Disk) :
    (record encoding caps proxy entry disk).seq = proxy.seq ∧
      (record encoding caps proxy entry disk).inFlight = proxy.inFlight := by
  rcases record_cases proxy entry disk
    with ⟨lines, stubbed⟩ | recorded
  · exact ⟨stubbed.seq, stubbed.inFlight⟩
  · exact ⟨recorded.seq, recorded.inFlight⟩

theorem step_cases
    (step : (protocol encoding caps).step proxy label next) :
    (∃ agentId, label = .arrive agentId ∧ next = arrive proxy agentId) ∨
    (∃ entry disk, label = .complete entry disk ∧
      (entry.agentId, entry.seq) ∈ proxy.inFlight ∧
      next = record encoding caps (close proxy entry.agentId entry.seq) entry
          disk) ∨
    ∃ agentId seq, label = .abandon agentId seq ∧
      (agentId, seq) ∈ proxy.inFlight ∧ next = close proxy agentId seq := by
  cases label with
  | arrive agentId =>
      cases step
      exact Or.inl ⟨agentId, rfl, rfl⟩
  | complete entry disk =>
      simp only [protocol, perform, Option.ite_none_right_eq_some] at step
      rcases step with ⟨pending, done⟩
      cases done
      exact Or.inr (Or.inl ⟨entry, disk, rfl, pending, rfl⟩)
  | abandon agentId seq =>
      simp only [protocol, perform, Option.ite_none_right_eq_some] at step
      rcases step with ⟨pending, done⟩
      cases done
      exact Or.inr (Or.inr ⟨agentId, seq, rfl, pending, rfl⟩)

theorem Accounted.step
    {proxy next : Proxy Agent Body} {label : Label Agent Body}
    (accounted : Accounted encoding caps proxy)
    (step : (protocol encoding caps).step proxy label next) :
    Accounted encoding caps next := by
  rcases step_cases step with
    ⟨agentId, -, rfl⟩ | ⟨entry, disk, -, -, rfl⟩ | ⟨agentId, seq, -, -, rfl⟩
  · exact accounted.same rfl rfl rfl
  · have closed : Accounted encoding caps
        (close proxy entry.agentId entry.seq) :=
      accounted.same rfl rfl rfl
    exact closed.record entry disk
  · exact accounted.same rfl rfl rfl

/-- A call of an agent which is completed, and whether its line is
written. -/
def completion? (agentId : Agent) :
    Label Agent Body → Option (RecordedCall Agent Body × Bool)
  | .complete entry disk =>
      if entry.agentId = agentId then some (entry, disk.line) else none
  | _ => none

/-- The calls of an agent which a run served, in the order of completion. -/
def servedCalls (agentId : Agent) (labels : List (Label Agent Body)) :
    List (RecordedCall Agent Body × Bool) :=
  labels.filterMap (completion? agentId)

/-- The full record of a call, or its stub. -/
def LineOf
    (encoding : Encoding Agent Body) (entry : RecordedCall Agent Body)
    (line : CallLine Agent Body) : Prop :=
  line = .recorded entry ∨ line = .truncated (stubOf encoding entry)

/-- The lines of calls stand for the calls whose lines were written. -/
def Listed
    (encoding : Encoding Agent Body)
    (calls : List (RecordedCall Agent Body × Bool))
    (queue : List (CallLine Agent Body)) : Prop :=
  List.Forall₂ (LineOf encoding) ((calls.filter Prod.snd).map Prod.fst) queue

theorem record_line
    (proxy : Proxy Agent Body) (entry : RecordedCall Agent Body) (disk : Disk) :
    ∃ lines, Adds proxy (record encoding caps proxy entry disk) entry.agentId
        lines ∧
      Listed encoding [(entry, disk.line)] (queueOf lines) := by
  rcases record_cases proxy entry disk
    with ⟨lines, stubbed⟩ | recorded
  · refine ⟨lines, stubbed.adds, ?_⟩
    rw [stubbed.queue]
    cases disk.line with
    | true => exact .cons (Or.inr rfl) .nil
    | false => exact .nil
  · refine ⟨_, recorded.adds, ?_⟩
    cases disk.line with
    | true => exact .cons (Or.inl rfl) .nil
    | false => exact .nil

omit [DecidableEq Agent] in
theorem Listed.append
    {more : List (RecordedCall Agent Body × Bool)}
    {lines : List (CallLine Agent Body)} (before : Listed encoding calls queue)
    (after : Listed encoding more lines) :
    Listed encoding (calls ++ more) (queue ++ lines) := by
  unfold Listed
  rw [List.filter_append, List.map_append]
  exact List.rel_append before after

theorem servedCalls_snoc
    (agentId : Agent) (labels : List (Label Agent Body))
    (label : Label Agent Body) :
    servedCalls agentId (labels ++ [label]) =
      servedCalls agentId labels ++ (completion? agentId label).toList := by
  unfold servedCalls
  rw [List.filterMap_append]
  cases completed : completion? agentId label with
  | none => simp [completed]
  | some call => simp [completed]

/-- A step adds the line of the call which it completes to the file of its
agent. -/
theorem step_listed
    (step : (protocol encoding caps).step proxy label next) (agentId : Agent) :
    ∃ lines,
      queueOf (next.files agentId) = queueOf (proxy.files agentId) ++ lines ∧
        Listed encoding (completion? agentId label).toList lines := by
  rcases step_cases step with
    ⟨caller, rfl, rfl⟩ | ⟨entry, disk, rfl, -, rfl⟩ | ⟨caller, seq, rfl, -, rfl⟩
  · exact ⟨[], (List.append_nil _).symm, .nil⟩
  · rcases record_line (close proxy entry.agentId entry.seq) entry disk with
      ⟨lines, adds, listed⟩
    by_cases same : entry.agentId = agentId
    · subst same
      refine ⟨queueOf lines, ?_, ?_⟩
      · rw [adds.own, queueOf_append]
        rfl
      · have completed : completion? entry.agentId (.complete entry disk) =
              some (entry, disk.line) :=
          if_pos rfl
        rw [completed]
        exact listed
    · refine ⟨[], ?_, ?_⟩
      · rw [adds.others agentId (Ne.symm same)]
        exact (List.append_nil _).symm
      · have skipped : completion? agentId (.complete entry disk) = none :=
          if_neg same
        rw [skipped]
        exact .nil
  · exact ⟨[], (List.append_nil _).symm, .nil⟩

/-- Every written call of an agent has left one line of its file, in the
order of completion. -/
theorem listed_of_traced
    (run : Traced (protocol encoding caps) create labels proxy)
    (agentId : Agent) :
    Listed encoding (servedCalls agentId labels)
      (queueOf (proxy.files agentId)) := by
  induction run with
  | nil => exact .nil
  | snoc run step ih =>
      rcases step_listed step agentId with ⟨lines, added, listed⟩
      rw [servedCalls_snoc, added]
      exact ih.append listed

/-! ## The numbers of the calls -/

/-- The numbers of open and of served calls are distinct, and no larger than
the last one given. -/
structure Numbered
    (labels : List (Label Agent Body)) (proxy : Proxy Agent Body) :
    Prop where
  distinct : proxy.inFlight.Nodup
  given : ∀ agentId seq,
    (agentId, seq) ∈ proxy.inFlight → seq ≤ proxy.seq agentId
  served : ∀ agentId, ∀ call ∈ servedCalls agentId labels,
    call.1.seq ≤ proxy.seq agentId ∧ (agentId, call.1.seq) ∉ proxy.inFlight
  once : ∀ agentId,
    ((servedCalls agentId labels).map fun call => call.1.seq).Nodup

theorem numbered_create :
    Numbered [] (create : Proxy Agent Body) where
  distinct := .nil
  given _ _ pending := absurd pending List.not_mem_nil
  served _ _ listed := absurd listed List.not_mem_nil
  once _ := .nil

theorem servedCalls_of_none
    (labels : List (Label Agent Body))
    (none : completion? agentId label = none) :
    servedCalls agentId (labels ++ [label]) = servedCalls agentId labels := by
  rw [servedCalls_snoc, none]
  exact List.append_nil _

theorem Numbered.arrive
    (numbered : Numbered labels proxy) (agentId : Agent) :
    Numbered (labels ++ [.arrive agentId])
      (Recording.arrive proxy agentId) := by
  have grows : ∀ caller, proxy.seq caller ≤
      Function.update proxy.seq agentId (proxy.seq agentId + 1) caller := by
    intro caller
    by_cases same : caller = agentId
    · subst same
      rw [Function.update_self]
      exact Nat.le_succ _
    · rw [Function.update_of_ne same]
  constructor
  · apply List.Nodup.append numbered.distinct (List.nodup_singleton _)
    intro call pending fresh
    rw [List.mem_singleton] at fresh
    subst fresh
    have bound := numbered.given _ _ pending
    omega
  · intro caller seq pending
    rcases List.mem_append.1 pending with earlier | fresh
    · exact (numbered.given caller seq earlier).trans (grows caller)
    · rw [List.mem_singleton] at fresh
      cases fresh
      exact le_of_eq (Function.update_self agentId _ proxy.seq).symm
  · intro caller call listed
    rw [servedCalls_of_none labels rfl] at listed
    rcases numbered.served caller call listed with ⟨bound, closed⟩
    refine ⟨bound.trans (grows caller), ?_⟩
    intro pending
    rcases List.mem_append.1 pending with earlier | fresh
    · exact closed earlier
    · rw [List.mem_singleton, Prod.mk.injEq] at fresh
      rcases fresh with ⟨rfl, number⟩
      omega
  · intro caller
    rw [servedCalls_of_none labels rfl]
    exact numbered.once caller

theorem Numbered.close
    {seq : Nat} (numbered : Numbered labels proxy)
    (pending : (agentId, seq) ∈ proxy.inFlight) (numbers : next.seq = proxy.seq)
    (closed : next.inFlight = proxy.inFlight.erase (agentId, seq))
    (completes : ∀ caller call, completion? caller label = some call →
      caller = agentId ∧ call.1.seq = seq) :
    Numbered (labels ++ [label]) next := by
  have fewer : ∀ call, call ∈ next.inFlight → call ∈ proxy.inFlight := by
    intro call listed
    rw [closed] at listed
    exact List.mem_of_mem_erase listed
  have gone : (agentId, seq) ∉ next.inFlight := by
    rw [closed]
    exact numbered.distinct.not_mem_erase
  constructor
  · rw [closed]
    exact numbered.distinct.erase _
  · intro caller number listed
    rw [numbers]
    exact numbered.given caller number (fewer _ listed)
  · intro caller call listed
    rw [servedCalls_snoc] at listed
    rw [numbers]
    rcases List.mem_append.1 listed with earlier | last
    · rcases numbered.served caller call earlier with ⟨bound, absent⟩
      exact ⟨bound, fun open' => absent (fewer _ open')⟩
    · rw [Option.mem_toList] at last
      rcases completes caller call last with ⟨rfl, rfl⟩
      exact ⟨numbered.given _ _ pending, gone⟩
  · intro caller
    rw [servedCalls_snoc, List.map_append]
    apply List.Nodup.append (numbered.once caller)
    · cases completion? caller label with
      | none => exact .nil
      | some call => exact List.nodup_singleton _
    · intro number earlier last
      rcases List.mem_map.1 earlier with ⟨call, listed, rfl⟩
      rcases List.mem_map.1 last with ⟨other, completed, same⟩
      rw [Option.mem_toList] at completed
      rcases completes caller other completed with ⟨rfl, number⟩
      apply (numbered.served _ call listed).2
      rw [← same, number]
      exact pending

theorem numbered_of_traced
    (run : Traced (protocol encoding caps) create labels proxy) :
    Numbered labels proxy := by
  induction run with
  | nil => exact numbered_create
  | snoc run step numbered =>
      rcases step_cases step with
        ⟨agentId, rfl, rfl⟩ | ⟨entry, disk, rfl, pending, rfl⟩ |
          ⟨agentId, seq, rfl, pending, rfl⟩
      · exact numbered.arrive agentId
      · rcases record_open (close _ entry.agentId entry.seq) entry disk with
          ⟨numbers, closed⟩
        refine numbered.close pending numbers closed ?_
        intro caller call completed
        rcases Option.ite_none_right_eq_some.1 completed with ⟨rfl, same⟩
        cases same
        exact ⟨rfl, rfl⟩
      · refine numbered.close pending rfl rfl ?_
        intro caller call completed
        cases completed

/-- The full records of an agent have stopped. -/
def Sealed (proxy : Proxy Agent Body) (agentId : Agent) : Prop :=
  proxy.capped agentId = true ∨ proxy.totalCapped = true

theorem Sealed.record
    (stopped : Sealed proxy agentId)
    (entry : RecordedCall Agent Body) (disk : Disk) :
    Sealed (record encoding caps proxy entry disk) agentId ∧
      fullRecords ((record encoding caps proxy entry disk).files agentId) =
        fullRecords (proxy.files agentId) := by
  rcases record_cases proxy entry disk
    with ⟨lines, stubbed⟩ | recorded
  · constructor
    · refine stopped.imp ?_ stubbed.totalCapped
      intro capped
      rw [stubbed.capped]
      by_cases same : agentId = entry.agentId
      · rw [same, Function.update_self]
      · rw [Function.update_of_ne same]
        exact capped
    · by_cases same : agentId = entry.agentId
      · rw [same, stubbed.adds.own, fullRecords_append, stubbed.full,
          List.append_nil]
      · rw [stubbed.adds.others agentId same]
  · constructor
    · unfold Sealed
      rw [recorded.capped, recorded.totalCapped]
      exact stopped
    · rcases stopped with capped | capped
      · have other : agentId ≠ entry.agentId := by
          rintro rfl
          exact Bool.false_ne_true (recorded.uncapped.symm.trans capped)
        rw [recorded.adds.others agentId other]
      · exact absurd (recorded.totalUncapped.symm.trans capped)
          Bool.false_ne_true

/-- No later step adds a full record of an agent whose records have
stopped. -/
theorem Sealed.step
    {proxy next : Proxy Agent Body} {label : Label Agent Body} {agentId : Agent}
    (stopped : Sealed proxy agentId)
    (step : (protocol encoding caps).step proxy label next) :
    Sealed next agentId ∧
      fullRecords (next.files agentId) = fullRecords (proxy.files agentId) := by
  rcases step_cases step with
    ⟨caller, -, rfl⟩ | ⟨entry, disk, -, -, rfl⟩ | ⟨caller, seq, -, -, rfl⟩
  · exact ⟨stopped, rfl⟩
  · have closed : Sealed (close proxy entry.agentId entry.seq) agentId :=
      stopped
    exact closed.record entry disk
  · exact ⟨stopped, rfl⟩

theorem Sealed.run
    {later : Proxy Agent Body} (stopped : Sealed proxy agentId)
    (run : (protocol encoding caps).Runs System.anything proxy later) :
    fullRecords (later.files agentId) = fullRecords (proxy.files agentId) := by
  have kept : Sealed later agentId ∧ fullRecords (later.files agentId) =
      fullRecords (proxy.files agentId) := by
    induction run with
    | refl => exact ⟨stopped, rfl⟩
    | tail _ move ih =>
        rcases move with ⟨label, -, step⟩
        rcases ih.1.step step with ⟨stoppedNext, same⟩
        exact ⟨stoppedNext, same.trans ih.2⟩
  exact kept.2

/-! ## The budget -/

/-- The number of the call for which a line stands. -/
def lineSeq : CallLine Agent Body → Nat
  | .recorded record => record.seq
  | .truncated stub => stub.seq

/-- The lines of a file which stand for the call of a number. -/
def linesOf (file : List (Line Agent Body)) (seq : Nat) :
    List (CallLine Agent Body) :=
  (queueOf file).filter fun line => lineSeq line = seq

omit [DecidableEq Agent] in
theorem LineOf.seq
    {line : CallLine Agent Body} (stands : LineOf encoding entry line) :
    lineSeq line = entry.seq := by
  rcases stands with rfl | rfl <;> rfl

omit [DecidableEq Agent] in
theorem Listed.first
    (listed : Listed encoding ((entry, true) :: calls) queue) :
    ∃ line rest, queue = line :: rest ∧ LineOf encoding entry line ∧
        Listed encoding calls rest := by
  have shown : List.Forall₂ (LineOf encoding)
        (entry :: (calls.filter Prod.snd).map Prod.fst) queue :=
    listed
  cases shown with
  | cons stands rest => exact ⟨_, _, rfl, stands, rest⟩

omit [DecidableEq Agent] in
theorem Listed.none
    {seq : Nat} (listed : Listed encoding calls queue)
    (others : ∀ call ∈ calls, call.1.seq ≠ seq) :
    (queue.filter fun line => lineSeq line = seq) = [] := by
  induction calls generalizing queue with
  | nil =>
      cases listed
      rfl
  | cons call calls ih =>
      rw [List.forall_mem_cons] at others
      rcases call with ⟨entry, written⟩
      cases written with
      | false => exact ih listed others.2
      | true =>
          rcases listed.first with ⟨line, rest, rfl, stands, later⟩
          have different : lineSeq line ≠ seq := by
            rw [stands.seq]
            exact others.1
          rw [List.filter_cons_of_neg (by simpa using different)]
          exact ih later others.2

omit [DecidableEq Agent] in
theorem Listed.one
    (listed : Listed encoding calls queue)
    (once : (calls.map fun call => call.1.seq).Nodup)
    (served : (entry, written) ∈ calls) :
    if written then
      (queue.filter fun line => lineSeq line = entry.seq) =
          [.recorded entry] ∨
        (queue.filter fun line => lineSeq line = entry.seq) =
          [.truncated (stubOf encoding entry)]
    else (queue.filter fun line => lineSeq line = entry.seq) = [] := by
  induction calls generalizing queue with
  | nil => exact absurd served List.not_mem_nil
  | cons call calls ih =>
      rw [List.map_cons, List.nodup_cons] at once
      rcases once with ⟨fresh, once⟩
      rcases List.mem_cons.1 served with rfl | later
      · have others : ∀ call ∈ calls, call.1.seq ≠ entry.seq := by
          intro call member same
          exact fresh (List.mem_map.2 ⟨call, member, same⟩)
        cases written with
        | false =>
            have kept : Listed encoding calls queue := listed
            exact kept.none others
        | true =>
            rcases listed.first with ⟨line, rest, rfl, stands, kept⟩
            rw [if_pos rfl, List.filter_cons_of_pos (by simpa using stands.seq),
              kept.none others]
            rcases stands with rfl | rfl
            · exact Or.inl rfl
            · exact Or.inr rfl
      · rcases call with ⟨first, firstWritten⟩
        cases firstWritten with
        | false => exact ih listed once later
        | true =>
            rcases listed.first with ⟨line, rest, rfl, stands, kept⟩
            have different : lineSeq line ≠ entry.seq := by
              rw [stands.seq]
              intro same
              exact fresh (List.mem_map.2 ⟨_, later, same.symm⟩)
            rw [List.filter_cons_of_neg (by simpa using different)]
            exact ih kept once later

theorem accounted_of_traced
    (run : Traced (protocol encoding caps) create labels proxy) :
    Accounted encoding caps proxy := by
  induction run with
  | nil => exact accounted_create
  | snoc _ step accounted => exact accounted.step step

/-- Caps which have room for one record of an agent. -/
def narrowCaps : Caps where
  perAgentCap := 500
  totalCap := 1000

/-- Two calls, of which the second one finds no room. -/
def twoCalls : List (Label String String) :=
  [.arrive "alice", .complete (chat 1 "first") ⟨true, true⟩,
    .arrive "alice", .complete (chat 2 "second") ⟨true, true⟩]

end Eris.Inference.Budget
