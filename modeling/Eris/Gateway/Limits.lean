import Eris.Foundation.TokenBucket
import Eris.Foundation.Transition
import Eris.Gateway.Handle

/-!
# What a caller may ask and hold

`infra/rpc-gateway/gateway.mjs`: `allow`, the token bucket of a client, and
the bytes of request bodies which are charged to it from the first one until
the response closes.  Times are exact numbers of milliseconds.
-/

namespace Eris.Gateway.Limits

open Foundation.TokenBucket Foundation.Transition

variable {Client : Type}

/-! ## The rate of a client -/

section Rate

variable [DecidableEq Client]

structure RateLimit where
  RATE_REFILL : ℚ
  RATE_BURST : ℚ

abbrev Buckets (Client : Type) := Client → Option (Bucket ℚ)

/-- What a bucket holds at `now`, where it fills by the second. -/
def refilled (limit : RateLimit) (bucket : Bucket ℚ) (now : ℚ) :
    Bucket ℚ where
  tokens := min limit.RATE_BURST
      (bucket.tokens + (now - bucket.last) / 1000 * limit.RATE_REFILL)
  last := now

def allow
    (limit : RateLimit) (client : Client) (cost : ℕ) (now : ℚ)
    (buckets : Buckets Client) : Bool × Buckets Client :=
  if limit.RATE_REFILL ≤ 0 then (true, buckets)
  else
    let bucket :=
      refilled limit ((buckets client).getD ⟨limit.RATE_BURST, now⟩) now
    if bucket.tokens < cost then
      (false, Function.update buckets client (some bucket))
    else
      (true, Function.update buckets client
          (some { bucket with tokens := bucket.tokens - cost }))

/-- The caller which `handle` asks about. -/
def callerAt
    (limit : RateLimit) (client : Client) (now : ℚ) (inFlight : ℕ)
    (buckets : Buckets Client) : Handle.Caller where
  inFlight := inFlight
  allow cost := (allow limit client cost now buckets).1

structure Arrival (Client : Type) where
  client : Client
  cost : ℕ
  now : ℚ

/-- What a client is admitted for at times from `first` to `final`. -/
def admitted (limit : RateLimit) (client : Client) (first final : ℚ) :
    Buckets Client → List (Arrival Client) → ℚ
  | _, [] => 0
  | buckets, arrival :: rest =>
      let asked := allow limit arrival.client arrival.cost arrival.now buckets
      (if asked.1 ∧ arrival.client = client ∧ first ≤ arrival.now ∧
          arrival.now ≤ final then
        (arrival.cost : ℚ)
      else 0) + admitted limit client first final asked.2 rest

/-- What a client's own bucket is asked. -/
def asksOf (client : Client) (arrivals : List (Arrival Client)) :
    List (ℚ × ℚ) :=
  (arrivals.filter (·.client = client)).map fun arrival =>
    (arrival.now, (arrival.cost : ℚ))

variable {limit : RateLimit} {client : Client} {first final : ℚ}

theorem allow_eq_serve
    {buckets : Buckets Client} {cost : ℕ} {now : ℚ}
    (limited : 0 < limit.RATE_REFILL) :
    allow limit client cost now buckets =
      ((serve limit.RATE_BURST (limit.RATE_REFILL / 1000) (buckets client)
          (now, cost)).1,
        Function.update buckets client
          (some (serve limit.RATE_BURST (limit.RATE_REFILL / 1000)
            (buckets client) (now, cost)).2)) := by
  have same : ∀ bucket : Bucket ℚ,
      bucket.refill limit.RATE_BURST (limit.RATE_REFILL / 1000) now =
        refilled limit bucket now := by
    intro bucket
    have inflow : (now - bucket.last) * (limit.RATE_REFILL / 1000) =
        (now - bucket.last) / 1000 * limit.RATE_REFILL := by
      ring
    rw [Bucket.refill, refilled, inflow]
  rw [allow, if_neg limited.not_ge]
  simp only [serve, same, Bucket.take]
  split <;> rfl

/-- A client is given what its own bucket gives. -/
theorem admitted_eq_given
    {arrivals : List (Arrival Client)} {buckets : Buckets Client}
    (limited : 0 < limit.RATE_REFILL) :
    admitted limit client first final buckets arrivals =
      given limit.RATE_BURST (limit.RATE_REFILL / 1000) first final
        (buckets client) (asksOf client arrivals) := by
  induction arrivals generalizing buckets with
  | nil => rfl
  | cons arrival rest ih =>
      rw [admitted, allow_eq_serve limited]
      dsimp only
      rw [ih]
      by_cases own : arrival.client = client
      · subst own
        simp [asksOf, given]
      · rw [Function.update_of_ne (Ne.symm own)]
        simp [asksOf, own]

theorem admitted_le
    (limited : 0 < limit.RATE_REFILL) (arrivals : List (Arrival Client))
    (buckets : Buckets Client) :
    admitted limit client first final buckets arrivals ≤
      max 0 (limit.RATE_BURST + limit.RATE_REFILL * ((final - first) / 1000)) := by
  rw [admitted_eq_given limited]
  have positive : ∀ asked ∈ asksOf client arrivals, 0 ≤ asked.2 := by
    intro asked listed
    rcases List.mem_map.1 listed with ⟨arrival, _, rfl⟩
    exact Nat.cast_nonneg _
  have flows : 0 ≤ limit.RATE_REFILL / 1000 :=
    div_nonneg limited.le (by norm_num)
  refine (given_le flows positive).trans (le_of_eq ?_)
  ring_nf

end Rate

structure BufferLimits where
  MAX_BODY_BYTES : ℤ
  MAX_BUFFERED_PER_CLIENT : ℤ
  MAX_BUFFERED_TOTAL : ℤ

/-- One request.  `charged` and `freed` tell of it what the counters were
given and, each time, relieved of. -/
structure Request (Client : Type) where
  who : Client
  listening : Bool
  held : ℤ := 0
  released : Bool := false
  received : ℤ := 0
  tooLarge : Bool := false
  ended : Bool := false
  closed : Bool := false
  charged : ℤ := 0
  freed : List ℤ := []

structure Buffers (Client : Type) where
  clientBuffered : Client → Option ℤ
  bufferedTotal : ℤ

/-- `clientBuffered.get(who) || 0`. -/
def Buffers.mine (buffers : Buffers Client) (who : Client) : ℤ :=
  (buffers.clientBuffered who).getD 0

/-- What the requests of the clients counted are charged for. -/
def heldBy
    (counted : Client → Bool) (requests : List (Request Client)) : ℤ :=
  (requests.map fun request =>
    if counted request.who then request.held else 0).sum

/-- What a byte count goes by: a request's own share of the counters. -/
def Request.account (request : Request Client) :
    Client × ℤ × Bool × ℤ × List ℤ :=
  (request.who, request.held, request.released, request.charged, request.freed)

/-- What is charged is held, until all of it is freed at once. -/
structure Request.Once (request : Request Client) : Prop where
  nonneg : 0 ≤ request.held
  kept : request.released = false →
      request.held = request.charged ∧ request.freed = []
  freed : request.released = true →
      request.held = 0 ∧ request.freed = [request.charged]

def Request.Settled (request : Request Client) : Prop :=
  request.released = (request.closed || request.tooLarge)

section Sums

variable {requests : List (Request Client)} {request changed : Request Client}
    {place : ℕ} {counted : Client → Bool}

theorem heldBy_set
    (found : requests[place]? = some request)
    (same : changed.who = request.who) :
    heldBy counted (requests.set place changed) = heldBy counted requests +
        if counted request.who then changed.held - request.held else 0 := by
  rcases List.getElem?_eq_some_iff.1 found with ⟨bound, known⟩
  rw [heldBy, heldBy, List.map_set, List.sum_set']
  simp only [List.length_map, bound, dif_pos, List.getElem_map, known, same]
  split <;> ring

theorem mem_set_of_other
    {other : Request Client} (found : requests[place]? = some request)
    (listed : other ∈ requests) (different : other ≠ request) :
    other ∈ requests.set place changed := by
  rcases List.getElem?_of_mem listed with ⟨index, known⟩
  have elsewhere : place ≠ index := by
    rintro rfl
    cases known.symm.trans found
    exact different rfl
  refine List.mem_of_getElem? (i := index) ?_
  rw [List.getElem?_set_ne elsewhere, known]

theorem le_heldBy
    (once : ∀ request ∈ requests, request.Once)
    (listed : request ∈ requests) (own : counted request.who = true) :
    request.held ≤ heldBy counted requests := by
  refine List.single_le_sum ?_ _ (List.mem_map.2 ⟨request, listed, if_pos own⟩)
  intro share member
  rcases List.mem_map.1 member with ⟨other, otherListed, rfl⟩
  split
  · exact (once other otherListed).nonneg
  · exact le_rfl

theorem exists_unreleased
    (once : ∀ request ∈ requests, request.Once)
    (positive : 0 < heldBy counted requests) :
    ∃ request ∈ requests, counted request.who = true ∧
      request.released = false := by
  by_contra none
  refine positive.ne' (List.sum_eq_zero ?_)
  intro share member
  rcases List.mem_map.1 member with ⟨request, listed, rfl⟩
  split
  · next own =>
      refine ((once request listed).freed ?_).1
      by_contra unreleased
      exact none ⟨request, listed, own, Bool.eq_false_of_not_eq_true unreleased⟩
  · rfl

theorem Request.Once.of_account
    (once : request.Once) (same : changed.account = request.account) :
    changed.Once := by
  simp only [Request.account, Prod.mk.injEq] at same
  rcases same with ⟨_, held, released, charged, freed⟩
  constructor <;> rw [held]
  · exact once.nonneg
  · rw [released, charged, freed]
    exact once.kept
  · rw [released, charged, freed]
    exact once.freed

end Sums

variable [DecidableEq Client]

def release (request : Request Client) (buffers : Buffers Client) :
    Request Client × Buffers Client :=
  if request.released then (request, buffers)
  else
    let left := buffers.mine request.who - request.held
    ({ request with
        released := true
        held := 0
        freed := request.freed ++ [request.held] },
      { clientBuffered :=
          Function.update buffers.clientBuffered request.who
            (if 0 < left then some left else none)
        bufferedTotal := buffers.bufferedTotal - request.held })

/-- The request and the counters, unless a cap would be passed. -/
def charge
    (limits : BufferLimits) (bytes : ℕ) (request : Request Client)
    (buffers : Buffers Client) : Option (Request Client × Buffers Client) :=
  let mine := buffers.mine request.who
  if 0 < limits.MAX_BUFFERED_PER_CLIENT ∧
      limits.MAX_BUFFERED_PER_CLIENT < mine + bytes then none
  else if 0 < limits.MAX_BUFFERED_TOTAL ∧
      limits.MAX_BUFFERED_TOTAL < buffers.bufferedTotal + bytes then none
  else
    some ({ request with
          held := request.held + bytes
          charged := request.charged + bytes },
        { clientBuffered :=
            Function.update buffers.clientBuffered request.who
              (some (mine + bytes))
          bufferedTotal := buffers.bufferedTotal + bytes })

def onData
    (limits : BufferLimits) (bytes : ℕ) (request : Request Client)
    (buffers : Buffers Client) : Request Client × Buffers Client :=
  if request.tooLarge then (request, buffers)
  else
    let received := { request with received := request.received + bytes }
    if limits.MAX_BODY_BYTES < received.received then
      release { received with tooLarge := true } buffers
    else
      match charge limits bytes received buffers with
      | some charged => charged
      | none => release { received with tooLarge := true } buffers

structure Bodies (Client : Type) where
  requests : List (Request Client)
  buffers : Buffers Client

inductive Label (Client : Type) where
  | request (who : Client) (declared : Option ℤ)
  | data (place : ℕ) (bytes : ℕ)
  | error (place : ℕ)
  | finish (place : ℕ)
  | close (place : ℕ)

/-- What an event does to its request and to the counters.  No more of a body
comes once it is at its end, nor once the response has closed, other than one
the gateway itself refused. -/
def react
    (limits : BufferLimits) (request : Request Client)
    (buffers : Buffers Client) :
    Label Client → Option (Request Client × Buffers Client)
  | .request _ _ => none
  | .data _ bytes =>
      if request.listening ∧ ¬ request.ended ∧
          (¬ request.closed ∨ request.tooLarge) then
        some (onData limits bytes request buffers)
      else none
  | .error _ => some (request, buffers)
  | .finish _ => some ({ request with ended := true }, buffers)
  | .close _ => some (release { request with closed := true } buffers)

def Label.place : Label Client → ℕ
  | .request _ _ => 0
  | .data place _ => place
  | .error place => place
  | .finish place => place
  | .close place => place

def perform
    (limits : BufferLimits) (bodies : Bodies Client) :
    Label Client → Option (Bodies Client)
  | .request who declared =>
      some { bodies with
          requests := bodies.requests ++
              [{ who
                 listening :=
                  declared.all fun bytes => bytes ≤ limits.MAX_BODY_BYTES }] }
  | label => do
      let request ← bodies.requests[label.place]?
      let changed ← react limits request bodies.buffers label
      return ⟨bodies.requests.set label.place changed.1, changed.2⟩

def serving (limits : BufferLimits) :
    System (Bodies Client) (Label Client) where
  initial bodies := bodies = ⟨[], ⟨fun _ => none, 0⟩⟩
  step bodies label next := perform limits bodies label = some next

/-! ## The accounts -/

structure Accounted
    (limits : BufferLimits) (bodies : Bodies Client) : Prop where
  total : bodies.buffers.bufferedTotal = heldBy (fun _ => true) bodies.requests
  own : ∀ who, bodies.buffers.mine who = heldBy (· = who) bodies.requests
  once : ∀ request ∈ bodies.requests, request.Once
  entered : ∀ who, bodies.buffers.clientBuffered who ≠ none →
      ∃ request ∈ bodies.requests, request.who = who ∧ request.released = false
  totalWithin : 0 < limits.MAX_BUFFERED_TOTAL →
      bodies.buffers.bufferedTotal ≤ limits.MAX_BUFFERED_TOTAL
  ownWithin : 0 < limits.MAX_BUFFERED_PER_CLIENT →
      ∀ who, bodies.buffers.mine who ≤ limits.MAX_BUFFERED_PER_CLIENT

section Accounts

variable {limits : BufferLimits} {requests : List (Request Client)}
    {request ready changed : Request Client} {buffers after : Buffers Client}
    {place bytes : ℕ} {label : Label Client}

/-- A map in which one entry is written. -/
theorem mine_update
    {who other : Client} {entry : Option ℤ} {total : ℤ} :
    (Buffers.mk (Function.update buffers.clientBuffered who entry) total).mine
        other =
      if who = other then entry.getD 0 else buffers.mine other := by
  by_cases same : who = other
  · subst same
    simp [Buffers.mine]
  · simp [Buffers.mine, Function.update_of_ne (Ne.symm same), same]

/-- A request changes, and its entry and the total by what it holds more. -/
theorem Accounted.write
    (accounted : Accounted limits ⟨requests, buffers⟩)
    (found : requests[place]? = some request) (entry : Option ℤ) (more : ℤ)
    (same : changed.who = request.who) (once : changed.Once)
    (held : changed.held = request.held + more)
    (mine : entry.getD 0 = buffers.mine request.who + more)
    (entered : entry ≠ none → changed.released = false ∨ 0 < entry.getD 0 ∨
      changed.released = request.released ∧
        buffers.clientBuffered request.who ≠ none)
    (totalWithin : 0 < limits.MAX_BUFFERED_TOTAL →
      buffers.bufferedTotal + more ≤ limits.MAX_BUFFERED_TOTAL)
    (ownWithin : 0 < limits.MAX_BUFFERED_PER_CLIENT →
      entry.getD 0 ≤ limits.MAX_BUFFERED_PER_CLIENT) :
    Accounted limits ⟨requests.set place changed,
      Function.update buffers.clientBuffered request.who entry,
      buffers.bufferedTotal + more⟩ := by
  have bound := (List.getElem?_eq_some_iff.1 found).1
  have growth : changed.held - request.held = more := by omega
  have every : ∀ other ∈ requests.set place changed, other.Once := by
    intro other listed
    rcases List.mem_or_eq_of_mem_set listed with old | rfl
    · exact accounted.once other old
    · exact once
  have shares : ∀ who,
      (if request.who = who then entry.getD 0 else buffers.mine who) =
        heldBy (· = who) (requests.set place changed) := by
    intro who
    rw [heldBy_set found same, ← accounted.own, growth]
    by_cases own : request.who = who
    · subst own
      simpa using mine
    · simp [own]
  refine ⟨?_, fun who => mine_update.trans (shares who), every, ?_,
    totalWithin, ?_⟩
  · rw [heldBy_set found same, ← accounted.total, if_pos rfl, growth]
  · intro who stands
    dsimp only at stands
    by_cases own : request.who = who
    · subst own
      rw [Function.update_self] at stands
      rcases entered stands with waits | positive | ⟨kept, old⟩
      · exact ⟨changed, List.mem_set bound changed, same, waits⟩
      · have share := shares request.who
        rw [if_pos rfl] at share
        rw [share] at positive
        rcases exists_unreleased every positive with
          ⟨other, listed, whose, waits⟩
        exact ⟨other, listed, of_decide_eq_true whose, waits⟩
      · rcases accounted.entered _ old with ⟨other, listed, whose, waits⟩
        by_cases here : other = request
        · subst here
          exact ⟨changed, List.mem_set bound changed, same, kept.trans waits⟩
        · exact ⟨other, mem_set_of_other found listed here, whose, waits⟩
    · rw [Function.update_of_ne (Ne.symm own)] at stands
      rcases accounted.entered who stands with ⟨other, listed, rfl, waits⟩
      refine ⟨other, mem_set_of_other found listed ?_, rfl, waits⟩
      rintro rfl
      exact own rfl
  · intro capped who
    rw [mine_update]
    split
    · exact ownWithin capped
    · exact accounted.ownWithin capped who

/-- What is not counted changes. -/
theorem Accounted.quiet
    (accounted : Accounted limits ⟨requests, buffers⟩)
    (found : requests[place]? = some request)
    (same : ready.account = request.account) :
    Accounted limits ⟨requests.set place ready, buffers⟩ := by
  have once :=
    (accounted.once request (List.mem_of_getElem? found)).of_account same
  simp only [Request.account, Prod.mk.injEq] at same
  rcases same with ⟨who, held, released, _⟩
  have written := accounted.write found (buffers.clientBuffered request.who) 0
    who once (held.trans (add_zero _).symm) (add_zero _).symm
    (fun entry => .inr (.inr ⟨released, entry⟩))
    (by simpa using accounted.totalWithin)
    fun capped => accounted.ownWithin capped _
  rwa [Function.update_eq_self, add_zero] at written

/-- A change is made to what the request has become meanwhile. -/
theorem Accounted.through
    (accounted : Accounted limits ⟨requests, buffers⟩)
    (found : requests[place]? = some request)
    (same : ready.account = request.account)
    (step : ∀ {requests}, Accounted limits ⟨requests, buffers⟩ →
      requests[place]? = some ready →
        Accounted limits ⟨requests.set place changed, after⟩) :
    Accounted limits ⟨requests.set place changed, after⟩ := by
  have bound := (List.getElem?_eq_some_iff.1 found).1
  have kept := step (accounted.quiet found same) (List.getElem?_set_self bound)
  rwa [List.set_set] at kept

theorem Accounted.release
    (accounted : Accounted limits ⟨requests, buffers⟩)
    (found : requests[place]? = some request)
    (frees : Limits.release request buffers = (changed, after)) :
    Accounted limits ⟨requests.set place changed, after⟩ := by
  have listed := List.mem_of_getElem? found
  have once := accounted.once request listed
  have share : request.held ≤ buffers.mine request.who := by
    rw [accounted.own]
    exact le_heldBy accounted.once listed (decide_eq_true rfl)
  have nonneg := once.nonneg
  unfold Limits.release at frees
  split at frees
  · cases frees
    exact accounted.quiet found rfl
  · next waits =>
      cases frees
      rcases once.kept (Bool.eq_false_of_not_eq_true waits) with ⟨full, kept⟩
      have left : (if 0 < buffers.mine request.who - request.held then
            some (buffers.mine request.who - request.held)
          else none).getD 0 =
          buffers.mine request.who + -request.held := by
        split
        · exact sub_eq_add_neg _ _
        · rw [Option.getD_none]
          omega
      refine accounted.write found _ (-request.held) rfl
        ⟨le_rfl, nofun, fun _ => ⟨rfl, by rw [kept, full]; rfl⟩⟩
        (add_neg_cancel _).symm left ?_ ?_ ?_
      · intro entry
        refine .inr (.inl ?_)
        split at entry
        · next positive => rwa [if_pos positive]
        · exact absurd rfl entry
      · intro capped
        have within : buffers.bufferedTotal ≤ _ := accounted.totalWithin capped
        omega
      · intro capped
        have within : buffers.mine request.who ≤ _ :=
          accounted.ownWithin capped _
        omega

/-- A charge is within both caps. -/
theorem charge_cases
    (charges : charge limits bytes request buffers = some (changed, after)) :
    (0 < limits.MAX_BUFFERED_PER_CLIENT →
        buffers.mine request.who + bytes ≤ limits.MAX_BUFFERED_PER_CLIENT) ∧
      (0 < limits.MAX_BUFFERED_TOTAL →
        buffers.bufferedTotal + bytes ≤ limits.MAX_BUFFERED_TOTAL) ∧
      changed = { request with
          held := request.held + bytes
          charged := request.charged + bytes } ∧
      after =
        { clientBuffered :=
            Function.update buffers.clientBuffered request.who
              (some (buffers.mine request.who + bytes))
          bufferedTotal := buffers.bufferedTotal + bytes } := by
  unfold charge at charges
  dsimp only at charges
  split at charges
  · cases charges
  next ownRoom =>
  split at charges
  · cases charges
  next room =>
  cases charges
  exact
    ⟨fun capped => not_lt.1 fun beyond => ownRoom ⟨capped, beyond⟩,
      fun capped => not_lt.1 fun beyond => room ⟨capped, beyond⟩, rfl, rfl⟩

theorem Accounted.charge
    (accounted : Accounted limits ⟨requests, buffers⟩)
    (found : requests[place]? = some request)
    (unreleased : request.released = false)
    (charges :
      Limits.charge limits bytes request buffers = some (changed, after)) :
    Accounted limits ⟨requests.set place changed, after⟩ := by
  have once := accounted.once request (List.mem_of_getElem? found)
  rcases once.kept unreleased with ⟨full, none⟩
  rcases charge_cases charges with ⟨ownRoom, room, rfl, rfl⟩
  refine accounted.write found _ bytes rfl ⟨?_, fun _ => ⟨?_, none⟩, ?_⟩ rfl rfl
    (fun _ => .inl unreleased) room ownRoom
  · exact add_nonneg once.nonneg (Nat.cast_nonneg bytes)
  · rw [full]
  · intro released
    cases unreleased.symm.trans released

/-! ## Every event keeps them -/

theorem settled_release (shut : (request.closed || request.tooLarge) = true) :
    (release request buffers).1.Settled := by
  unfold release
  split
  · next released => exact released.trans shut.symm
  · exact shut.symm

/-- What it holds is freed where its response closes or it is refused. -/
theorem Accounted.shut
    (accounted : Accounted limits ⟨requests, buffers⟩)
    (found : requests[place]? = some request)
    (frees : Limits.release ready buffers = (changed, after))
    (same : ready.account = request.account)
    (shut : (ready.closed || ready.tooLarge) = true) :
    Accounted limits ⟨requests.set place changed, after⟩ ∧ changed.Settled := by
  have settled : (Limits.release ready buffers).1.Settled :=
    settled_release shut
  rw [frees] at settled
  exact ⟨accounted.through found same fun known here =>
    known.release here frees, settled⟩

theorem Accounted.onData
    (accounted : Accounted limits ⟨requests, buffers⟩)
    (found : requests[place]? = some request) (settled : request.Settled)
    (comes : ¬ request.closed ∨ request.tooLarge)
    (same : Limits.onData limits bytes request buffers = (changed, after)) :
    Accounted limits ⟨requests.set place changed, after⟩ ∧ changed.Settled := by
  unfold Limits.onData at same
  split at same
  · cases same
    exact ⟨accounted.quiet found rfl, settled⟩
  next small =>
  have unreleased : request.released = false := by
    rw [settled]
    simpa [small] using comes
  dsimp only at same
  split at same
  · exact accounted.shut found same rfl (Bool.or_true _)
  split at same
  · next charges =>
      rw [same] at charges
      rcases charge_cases charges with ⟨_, _, rfl, _⟩
      have received :
          { request with received := request.received + bytes }.account =
            request.account := rfl
      exact ⟨accounted.through found received fun known here =>
        known.charge here unreleased charges, settled⟩
  · exact accounted.shut found same rfl (Bool.or_true _)

theorem Accounted.react
    (accounted : Accounted limits ⟨requests, buffers⟩)
    (found : requests[place]? = some request) (settled : request.Settled)
    (reacts :
      Limits.react limits request buffers label = some (changed, after)) :
    Accounted limits ⟨requests.set place changed, after⟩ ∧ changed.Settled := by
  cases label with
  | request _ _ => cases reacts
  | data _ bytes =>
      simp only [Limits.react, Option.ite_none_right_eq_some] at reacts
      rcases reacts with ⟨⟨_, _, comes⟩, same⟩
      exact accounted.onData found settled comes (Option.some.inj same)
  | error _ =>
      cases reacts
      exact ⟨accounted.quiet found rfl, settled⟩
  | finish _ =>
      cases reacts
      exact ⟨accounted.quiet found rfl, settled⟩
  | close _ =>
      exact accounted.shut found (Option.some.inj reacts) rfl (Bool.true_or _)

theorem Accounted.opened
    (accounted : Accounted limits ⟨requests, buffers⟩)
    (who : Client) (listening : Bool) :
    Accounted limits ⟨requests ++ [{ who := who, listening }], buffers⟩ := by
  have same :
      ∀ counted, heldBy counted (requests ++ [{ who := who, listening }]) =
        heldBy counted requests := by
    intro counted
    simp [heldBy]
  constructor
  · rw [same]
    exact accounted.total
  · intro other
    rw [same]
    exact accounted.own other
  · intro request listed
    rcases List.mem_append.1 listed with old | new
    · exact accounted.once request old
    · cases List.mem_singleton.1 new
      exact ⟨le_rfl, fun _ => ⟨rfl, rfl⟩, nofun⟩
  · intro other entry
    rcases accounted.entered other entry with ⟨request, listed, kept⟩
    exact ⟨request, List.mem_append_left _ listed, kept⟩
  · exact accounted.totalWithin
  · exact accounted.ownWithin

theorem perform_cases
    {bodies next : Bodies Client}
    (performed : perform limits bodies label = some next) :
    (∃ who listening, next = { bodies with
            requests := bodies.requests ++ [{ who := who, listening }] }) ∨
      ∃ place request changed after, bodies.requests[place]? = some request ∧
          react limits request bodies.buffers label = some (changed, after) ∧
            next = ⟨bodies.requests.set place changed, after⟩ := by
  cases label with
  | request who declared =>
      cases performed
      exact .inl ⟨who, _, rfl⟩
  | _ =>
      simp only [perform, Option.bind_eq_bind, Option.bind_eq_some_iff] at performed
      rcases performed with ⟨request, found, changed, reacts, same⟩
      exact .inr ⟨_, request, changed.1, changed.2, found, reacts,
        (Option.some.inj same).symm⟩

theorem settled_of_reachable
    {bodies : Bodies Client}
    (reachable : (serving limits).Reachable System.anything bodies) :
    Accounted limits bodies ∧ ∀ request ∈ bodies.requests, request.Settled := by
  refine @System.Reachable.invariant _ _ _ _ (fun bodies : Bodies Client =>
        Accounted limits bodies ∧ ∀ request ∈ bodies.requests, request.Settled)
      _ ?_ ?_ reachable
  · rintro start rfl
    refine ⟨⟨rfl, fun _ => rfl, nofun, ?_, le_of_lt, ?_⟩, nofun⟩
    · exact fun _ entry => absurd rfl entry
    · exact fun capped _ => capped.le
  · rintro ⟨requests, buffers⟩ label next ⟨accounted, settled⟩ _ performed
    rcases perform_cases performed with
      ⟨who, listening, rfl⟩ |
        ⟨place, request, changed, after, found, reacts, rfl⟩
    · refine ⟨accounted.opened who listening, ?_⟩
      intro request listed
      rcases List.mem_append.1 listed with old | new
      · exact settled request old
      · cases List.mem_singleton.1 new
        rfl
    · have listed := List.mem_of_getElem? found
      have kept := accounted.react found (settled request listed) reacts
      refine ⟨kept.1, ?_⟩
      intro other member
      rcases List.mem_or_eq_of_mem_set member with old | rfl
      · exact settled other old
      · exact kept.2

end Accounts

/-- What the gateway admits and holds. -/
structure Bounded
    (rate : RateLimit) (limits : BufferLimits) (bodies : Bodies Client) :
    Prop where
  admits : ∀ (buckets : Buckets Client) (arrivals : List (Arrival Client))
      (client : Client) (first final : ℚ),
      admitted rate client first final buckets arrivals ≤
        max 0 (rate.RATE_BURST + rate.RATE_REFILL * ((final - first) / 1000))
  holds : Accounted limits bodies
  closes :
    ∀ request ∈ bodies.requests, request.closed = true → request.released = true
  empties : (∀ request ∈ bodies.requests, request.closed = true) →
      bodies.buffers = ⟨fun _ => none, 0⟩

/-- What is reached where the events which can happen do. -/
def served (limits : BufferLimits) (labels : List (Label Client)) :
    Bodies Client :=
  played (perform limits) labels ⟨[], ⟨fun _ => none, 0⟩⟩

theorem reachable_served
    (limits : BufferLimits) (labels : List (Label Client)) :
    (serving limits).Reachable System.anything (served limits labels) :=
  ⟨_, rfl, played_runs (fun _ _ _ performed => performed) labels _⟩

/-- A body is refused beside another one, which then closes. -/
def besideAnother : Bodies String :=
  served ⟨10, 12, 20⟩
    [.request "a" none, .request "a" (some 9), .data 0 8, .data 1 5,
      .finish 0, .close 1, .close 0]

end Eris.Gateway.Limits
