import Eris.Evm.Word
import Eris.Foundation.IndexedSet
import Eris.Foundation.Paging
import Eris.Foundation.Transition

/-!
# The published list of markets

`MarketRegistry.sol` keeps the entries in one array, with an index over the
digests of `(market, extra)` and another one over the markets alone.  The two
indices and the array stay inverse over every sequence of calls, and nothing
ever leaves the array.

A reader takes the list in windows.  A window is computed from the sum of its
start and its limit, which is checked, so a window may revert which a reader
could be given; `entriesFrom_eq_ok_iff` says which windows those are.
-/

namespace Eris.Registry.OnChain

open Foundation Foundation.Checked Foundation.IndexedSet Foundation.Paging
  Foundation.Transition Evm.Word

inductive Kind where
  | unknown
  | uniswapV3Pool
  | balancerWeightedPool
  | curvePlainPool
  | curveTwocryptoPool
  | lendingMarket
  | erc20
deriving DecidableEq

structure Entry where
  market : Address
  kind : Kind
  creator : Address
  token0 : Address
  token1 : Address
  oracle : Address
  codehash : Bytes32
  verified : Bool
  registeredAtBlock : BitVec 64
  extra : Bytes32
deriving DecidableEq

structure MarketRegistered where
  market : Address
  kind : Kind
  creator : Address
  token0 : Address
  token1 : Address
  oracle : Address
  codehash : Bytes32
  verified : Bool
  extra : Bytes32
  blockNumber : U256
deriving DecidableEq

/-- The owner, and the digest `keccak256(abi.encodePacked(market, extra))`. -/
structure Deployment where
  owner : Address
  digest : Address → Bytes32 → Bytes32

/-- The storage of the contract, and what it has emitted. -/
structure Storage where
  entries : List Entry
  indexPlusOne : Bytes32 → Nat
  firstIndexPlusOne : Address → Nat
  log : List MarketRegistered

structure Context where
  msgSender : Address
  blockNumber : U256

inductive Reason where
  | notOwner
deriving DecidableEq

abbrev Result := Outcome Reason

/-! ## The functions of the contract -/

/-- An array in storage takes no more than `2 ^ 64` elements. -/
def pushEntry (entries : List Entry) (entry : Entry) : Result (List Entry) :=
  if entries.length < 2 ^ 64 then .ok (entries ++ [entry]) else .error .panic

/-- The entry which is stored for a submitted one. -/
def stored (ctx : Context) (e : Entry) : Entry :=
  { e with registeredAtBlock := ctx.blockNumber.setWidth 64 }

/-- The event which is emitted for a submitted entry. -/
def emitted (ctx : Context) (e : Entry) : MarketRegistered where
  market := e.market
  kind := e.kind
  creator := e.creator
  token0 := e.token0
  token1 := e.token1
  oracle := e.oracle
  codehash := e.codehash
  verified := e.verified
  extra := e.extra
  blockNumber := ctx.blockNumber

/-- One pass of the loop in `register`. -/
def registerEntry
    (d : Deployment) (ctx : Context) (s : Storage) (e : Entry) :
    Result Storage :=
  if e.market = 0 then .ok s
  else if s.indexPlusOne (d.digest e.market e.extra) ≠ 0 then .ok s
  else do
    let entries ← pushEntry s.entries (stored ctx e)
    return {
      entries
      indexPlusOne := Function.update s.indexPlusOne (d.digest e.market e.extra)
          entries.length
      firstIndexPlusOne := if s.firstIndexPlusOne e.market = 0 then
          Function.update s.firstIndexPlusOne e.market entries.length
        else s.firstIndexPlusOne
      log := s.log ++ [emitted ctx e] }

def register
    (d : Deployment) (ctx : Context) (s : Storage) (entries : List Entry) :
    Result Storage := do
  require (ctx.msgSender = d.owner) .notOwner
  entries.foldlM (registerEntry d ctx) s

def count (s : Storage) : Nat := s.entries.length

def all (s : Storage) : List Entry := s.entries

/-- `_entries[index]` -/
def entryAt (s : Storage) (index : Nat) : Result Entry :=
  match s.entries[index]? with
  | none => .error .panic
  | some entry => .ok entry

def entriesFrom (s : Storage) (start limit : U256) : Result (List Entry) := do
  let n := s.entries.length
  if n ≤ start.toNat then return []
  let sum ← checkedAdd start limit
  let stop := if n < sum.toNat then n else sum.toNat
  (List.range' start.toNat (stop - start.toNat)).mapM (entryAt s)

def isRegistered (s : Storage) (market : Address) : Bool :=
  s.firstIndexPlusOne market ≠ 0

/-- The greatest word stands for a market which is not registered. -/
def indexOf (s : Storage) (market : Address) : U256 :=
  let i := s.firstIndexPlusOne market
  if i = 0 then BitVec.allOnes 256 else BitVec.ofNat 256 (i - 1)

def isEntryRegistered
    (d : Deployment) (s : Storage) (market : Address) (extra : Bytes32) :
    Bool :=
  s.indexPlusOne (d.digest market extra) ≠ 0

def Storage.deployed : Storage where
  entries := []
  indexPlusOne := fun _ => 0
  firstIndexPlusOne := fun _ => 0
  log := []

structure Call where
  ctx : Context
  entries : List Entry

/-- Successful calls of `register`, by anybody in any block. -/
def registry (d : Deployment) : System Storage Call where
  initial := fun s => s = .deployed
  step := fun s call s' => register d call.ctx s call.entries = .ok s'

def Entry.pair (e : Entry) : Address × Bytes32 := (e.market, e.extra)

def Deployment.key (d : Deployment) (e : Entry) : Bytes32 :=
  d.digest e.market e.extra

def MarketRegistered.entry (event : MarketRegistered) : Entry where
  market := event.market
  kind := event.kind
  creator := event.creator
  token0 := event.token0
  token1 := event.token1
  oracle := event.oracle
  codehash := event.codehash
  verified := event.verified
  registeredAtBlock := event.blockNumber.setWidth 64
  extra := event.extra

/-- The array, both indices and the log agree. -/
structure Consistent (d : Deployment) (s : Storage) : Prop where
  indexed : Inverse (s.entries.map d.key) s.indexPlusOne
  first : FirstPlaces (s.entries.map Entry.market) s.firstIndexPlusOne
  told : s.entries = s.log.map MarketRegistered.entry
  bounded : s.entries.length ≤ 2 ^ 64
  named : ∀ e ∈ s.entries, e.market ≠ 0

variable {d : Deployment} {ctx : Context} {s s' : Storage} {e : Entry}

@[simp]
theorem key_stored : d.key (stored ctx e) = d.key e := rfl

@[simp]
theorem market_stored : (stored ctx e).market = e.market := rfl

theorem Consistent.deployed : Consistent d .deployed :=
  ⟨Inverse.empty, FirstPlaces.empty, rfl, Nat.zero_le _,
    fun _ member => absurd member List.not_mem_nil⟩

theorem registerEntry_ok (done : registerEntry d ctx s e = .ok s') :
    s' = s ∨ e.market ≠ 0 ∧ s.indexPlusOne (d.key e) = 0 ∧
      s.entries.length < 2 ^ 64 ∧
      s' =
        { entries := s.entries ++ [stored ctx e]
          indexPlusOne := Function.update s.indexPlusOne (d.key e)
              (s.entries ++ [stored ctx e]).length
          firstIndexPlusOne := if s.firstIndexPlusOne e.market = 0 then
              Function.update s.firstIndexPlusOne e.market
                (s.entries ++ [stored ctx e]).length
            else s.firstIndexPlusOne
          log := s.log ++ [emitted ctx e] } := by
  rw [registerEntry] at done
  split at done
  · exact .inl (Except.ok.inj done).symm
  · next named =>
      split at done
      · exact .inl (Except.ok.inj done).symm
      · next unknown =>
          rw [bind_eq_ok] at done
          rcases done with ⟨entries, pushed, built⟩
          rw [pushEntry] at pushed
          split at pushed
          · next room =>
              cases pushed
              exact .inr ⟨named, not_not.mp unknown, room,
                (pure_eq_ok.mp built).symm⟩
          · cases pushed

theorem registerEntry_consistent
    (consistent : Consistent d s) (done : registerEntry d ctx s e = .ok s') :
    Consistent d s' ∧ s.entries <+: s'.entries := by
  rcases registerEntry_ok done with rfl | ⟨named, unknown, room, rfl⟩
  · exact ⟨consistent, List.prefix_rfl⟩
  · refine ⟨⟨?_, ?_, ?_, ?_, ?_⟩, List.prefix_append _ _⟩
    · have pushed := consistent.indexed.push unknown
      simpa [IndexedSet.push] using pushed
    · have pushed := consistent.first.push e.market
      simpa using pushed
    · rw [consistent.told]
      simp [stored, emitted, MarketRegistered.entry]
    · simp only [List.length_append, List.length_singleton]
      exact room
    · intro entry member
      rcases List.mem_append.mp member with old | new
      · exact consistent.named entry old
      · rw [List.mem_singleton.mp new]
        exact named

theorem register_consistent
    {entries : List Entry} (consistent : Consistent d s)
    (done : register d ctx s entries = .ok s') :
    Consistent d s' ∧ s.entries <+: s'.entries := by
  rw [register, bind_eq_ok] at done
  rcases done with ⟨_, _, ran⟩
  induction entries generalizing s with
  | nil =>
      rw [List.foldlM_nil, pure_eq_ok] at ran
      subst ran
      exact ⟨consistent, List.prefix_rfl⟩
  | cons e rest ih =>
      rw [List.foldlM_cons, bind_eq_ok] at ran
      rcases ran with ⟨middle, first, others⟩
      have one := registerEntry_consistent consistent first
      have more := ih one.1 others
      exact ⟨more.1, one.2.trans more.2⟩

theorem runs_consistent
    (consistent : Consistent d s)
    (run : (registry d).Runs System.anything s s') :
    Consistent d s' ∧ s.entries <+: s'.entries := by
  refine @System.Runs.invariant _ _ _ _
    (fun state => Consistent d state ∧ s.entries <+: state.entries)
    _ _ ?_ run ⟨consistent, List.prefix_rfl⟩
  rintro state call next ⟨before, extended⟩ _ done
  have one := register_consistent before done
  exact ⟨one.1, extended.trans one.2⟩

theorem reachable_consistent
    (reachable : (registry d).Reachable System.anything s) :
    Consistent d s := by
  rcases reachable with ⟨start, rfl, run⟩
  exact (runs_consistent .deployed run).1

/-! ## Keys, pairs and places -/

theorem Consistent.nodup (consistent : Consistent d s) :
    (s.entries.map Entry.pair).Nodup := by
  refine List.Nodup.of_map (fun pair => d.digest pair.1 pair.2) ?_
  rw [List.map_map]
  exact consistent.indexed.nodup

theorem Consistent.isRegistered_iff
    (consistent : Consistent d s) (market : Address) :
    isRegistered s market = true ↔ ∃ e ∈ s.entries, e.market = market := by
  rw [isRegistered, decide_eq_true_iff, ← consistent.first.mem_iff,
    List.mem_map]

theorem Consistent.isEntryRegistered_iff
    (consistent : Consistent d s) (market : Address) (extra : Bytes32) :
    isEntryRegistered d s market extra = true ↔
      ∃ e ∈ s.entries, d.key e = d.digest market extra := by
  rw [isEntryRegistered, decide_eq_true_iff, ← consistent.indexed.mem_iff,
    List.mem_map]

theorem entryAt_eq
    {index : Nat} (inside : index < s.entries.length) :
    entryAt s index = .ok s.entries[index] := by
  rw [entryAt, List.getElem?_eq_getElem inside]

theorem mapM_entryAt
    (start length : Nat) (inside : start + length ≤ s.entries.length) :
    (List.range' start length).mapM (entryAt s) =
      .ok (page s.entries start length) := by
  induction length generalizing start with
  | zero =>
      rw [page, List.take_zero]
      rfl
  | succ length ih =>
      have here : start < s.entries.length := by omega
      have rest := ih (start + 1) (by omega)
      have split : page s.entries start (length + 1) =
          s.entries[start] :: page s.entries (start + 1) length := by
        rw [page, List.drop_eq_getElem_cons here, List.take_succ_cons, page]
      rw [List.range'_succ, List.mapM_cons, entryAt_eq here, ok_bind, rest,
        ok_bind, split]
      rfl

theorem entriesFrom_of_fits
    {start limit : U256}
    (fits : s.entries.length ≤ start.toNat ∨
      start.toNat + limit.toNat < 2 ^ 256) :
    entriesFrom s start limit =
      .ok (page s.entries start.toNat limit.toNat) := by
  rw [entriesFrom]
  by_cases outside : s.entries.length ≤ start.toNat
  · rw [if_pos outside, page_of_length_le _ _ outside]
    rfl
  · rcases exists_toNat_eq (fits.resolve_left outside) with ⟨sum, sumEq⟩
    have added : (checkedAdd start limit : Result U256) = .ok sum :=
      checkedAdd_eq_ok.mpr sumEq.symm
    have clamped : (if s.entries.length < sum.toNat then s.entries.length
          else sum.toNat) =
        if s.entries.length - start.toNat < limit.toNat then
          s.entries.length
        else start.toNat + limit.toNat := by
      split_ifs <;> omega
    have inside : start.toNat +
          ((if s.entries.length < sum.toNat then s.entries.length
            else sum.toNat) - start.toNat) ≤
        s.entries.length := by
      split_ifs <;> omega
    rw [if_neg outside, added, ok_bind]
    dsimp only
    rw [mapM_entryAt _ _ inside, clamped, page_clamped]

theorem entriesFrom_of_overflows
    {start limit : U256} (inside : start.toNat < s.entries.length)
    (overflows : 2 ^ 256 ≤ start.toNat + limit.toNat) :
    entriesFrom s start limit = .error .panic := by
  rw [entriesFrom, if_neg (not_le.mpr inside), checkedAdd,
    if_neg (not_lt.mpr overflows)]
  rfl

theorem entriesFrom_eq_ok_iff (start limit : U256) :
    entriesFrom s start limit = .ok (page s.entries start.toNat limit.toNat) ↔
      s.entries.length ≤ start.toNat ∨ start.toNat + limit.toNat < 2 ^ 256 := by
  constructor
  · intro returned
    by_contra reverts
    rw [not_or, not_le, not_lt] at reverts
    rw [entriesFrom_of_overflows reverts.1 reverts.2] at returned
    cases returned
  · exact entriesFrom_of_fits

/-- How many windows of a size cover the list. -/
def windows (s : Storage) (limit : Nat) : Nat :=
  (s.entries.length + limit - 1) / limit

/-- Read the whole list in consecutive windows of one size. -/
def readAll (s : Storage) (limit : U256) : Result (List (List Entry)) :=
  (List.range (windows s limit.toNat)).mapM fun number =>
    entriesFrom s (BitVec.ofNat 256 (number * limit.toNat)) limit

theorem Consistent.window_fits
    (consistent : Consistent d s) {limit : U256} {number : Nat}
    (positive : 0 < limit.toNat) (asked : number < windows s limit.toNat) :
    number * limit.toNat < s.entries.length ∧
      number * limit.toNat + limit.toNat < 2 ^ 256 := by
  have bounded := consistent.bounded
  have size := limit.isLt
  have before : number * limit.toNat < s.entries.length := by
    rw [windows, Nat.lt_iff_add_one_le,
      Nat.le_div_iff_mul_le positive, Nat.add_mul, Nat.one_mul] at asked
    omega
  refine ⟨before, ?_⟩
  rcases Nat.eq_zero_or_pos number with first | later
  · rw [first, Nat.zero_mul, Nat.zero_add]
    exact size
  · have atMost : limit.toNat ≤ number * limit.toNat :=
      Nat.le_mul_of_pos_left _ later
    omega

theorem Consistent.readAll_eq
    (consistent : Consistent d s) {limit : U256} (positive : 0 < limit.toNat) :
    ∃ pages, readAll s limit = .ok pages ∧ pages.flatten = s.entries := by
  refine ⟨(List.range (windows s limit.toNat)).map fun number =>
      page s.entries (number * limit.toNat) limit.toNat, ?_, ?_⟩
  · rw [readAll, mapM_eq_ok, List.forall₂_map_right_iff, List.forall₂_same]
    intro number member
    have fits := consistent.window_fits positive (List.mem_range.mp member)
    have start : (BitVec.ofNat 256 (number * limit.toNat)).toNat =
        number * limit.toNat := by
      rw [BitVec.toNat_ofNat, Nat.mod_eq_of_lt (by omega)]
    have window :=
      @entriesFrom_of_fits s (BitVec.ofNat 256 (number * limit.toNat)) limit
        (.inr (by rw [start]; exact fits.2))
    rw [start] at window
    exact window
  · rw [← List.flatMap_def]
    refine flatMap_page _ _ _ ?_
    have enough := Nat.lt_div_mul_add positive
      (a := s.entries.length + limit.toNat - 1)
    rw [windows]
    omega

/--
In every state which is reached: the entries are unique, stay where they are,
and are indexed by their places; windows of one size concatenate to the list;
and a window is returned as asked for exactly when it starts past the end or
the sum of its start and its limit fits a word.
-/
theorem registry_laws
    (reachable : (registry d).Reachable System.anything s) :
    ((s.entries.map Entry.pair).Nodup ∧
      (∀ s', (registry d).Runs System.anything s s' →
        s.entries <+: s'.entries) ∧
      (∀ key place, s.indexPlusOne key = place + 1 ↔
        (s.entries.map d.key)[place]? = some key) ∧
      (∀ market place, s.firstIndexPlusOne market = place + 1 ↔
        (s.entries.map Entry.market).idxOf? market = some place) ∧
      ∀ limit : U256, 0 < limit.toNat →
        ∃ pages, readAll s limit = .ok pages ∧ pages.flatten = s.entries) ∧
    ∀ start limit, entriesFrom s start limit =
          .ok (page s.entries start.toNat limit.toNat) ↔
        s.entries.length ≤ start.toNat ∨
          start.toNat + limit.toNat < 2 ^ 256 := by
  have consistent := reachable_consistent reachable
  refine ⟨⟨consistent.nodup, fun s' run => (runs_consistent consistent run).2,
      consistent.indexed, consistent.first,
      fun limit positive => consistent.readAll_eq positive⟩,
    fun start limit => entriesFrom_eq_ok_iff start limit⟩

/-- Account 1 owns the registry; the digest joins market and handle. -/
def solo : Deployment where
  owner := 1
  digest := fun market extra => market.setWidth 256 ^^^ extra

/-- A pool of two tokens at some address. -/
def poolAt (market : Address) : Entry where
  market := market
  kind := .uniswapV3Pool
  creator := 7
  token0 := 11
  token1 := 12
  oracle := 0
  codehash := 5
  verified := true
  registeredAtBlock := 0
  extra := 0

theorem two_registered :
    ∃ s, (registry solo).Reachable System.anything s ∧
      s.entries.length = 2 := by
  have seen : (register solo ⟨1, 100⟩ .deployed
        [poolAt 20, poolAt 20, poolAt 21]).toOption.any
      (fun s => decide (s.entries.length = 2)) = true := by
    decide
  rcases (Option.any_eq_true _ _).mp seen with ⟨s, returned, length⟩
  have step : (registry solo).step .deployed
        ⟨⟨1, 100⟩, [poolAt 20, poolAt 20, poolAt 21]⟩ s :=
    toOption_eq_some.mp returned
  exact ⟨s, ⟨.deployed, rfl, System.Runs.single trivial step⟩,
    of_decide_eq_true length⟩

theorem registry_laws_for_two :
    ∃ s, (registry solo).Reachable System.anything s ∧
      (s.entries.map Entry.pair).Nodup := by
  rcases two_registered with ⟨s, reachable, _⟩
  exact ⟨s, reachable, (registry_laws reachable).1.1⟩

/-- A window from the second entry of two, of any length at all, reverts. -/
theorem widest_window_reverts :
    ∃ s, (registry solo).Reachable System.anything s ∧ s.entries.length = 2 ∧
      entriesFrom s 1 (BitVec.allOnes 256) = .error .panic := by
  rcases two_registered with ⟨s, reachable, length⟩
  have one : (1 : U256).toNat = 1 := rfl
  have greatest : (BitVec.allOnes 256).toNat = 2 ^ 256 - 1 :=
    BitVec.toNat_allOnes
  refine ⟨s, reachable, length, entriesFrom_of_overflows ?_ ?_⟩
  · rw [one, length]
    exact Nat.one_lt_two
  · rw [one, greatest]
    exact Nat.le_refl _

end Eris.Registry.OnChain
