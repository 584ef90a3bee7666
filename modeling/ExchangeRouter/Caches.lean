import ExchangeRouter.Lib.Transition
import ExchangeRouter.Models
import Mathlib.Algebra.Order.Floor.Defs
import Mathlib.Data.Rat.Floor
import Mathlib.Logic.Function.Basic

/-!
# The caches of an adapter

`_margin_table` and `_ensure_info_cache` of `base.py` are one procedure: take a lock, serve the
cached value while it is fresh, else fetch, and when a refresh fails serve the old value and
move its stamp so that the next refresh is due after the retry delay. They differ in what is
locked and in how the value and its stamp are kept, which is a `Store`.

Times are numbers of seconds. `time.monotonic()` is read once, under the lock; nothing else runs
between that and the fetch. A lock serves its waiters in order.
-/

namespace ExchangeRouter
namespace Caches

/-- `INFO_REFRESH_S`. -/
def infoRefresh : ℚ := 24 * 60 * 60

/-- `INFO_RETRY_S`. -/
def infoRetry : ℚ := 60 * 60

/-! ## The stores -/

/-- How values of type `α` are kept for keys of type `κ`, in dictionaries `σ`. `record` is the
value made of a fetch's result and of the wall clock, `commit` what a fetch that began at the
given time writes, `postpone` what a failed refresh of the given value writes. -/
structure Store (σ κ ρ α : Type) where
  cached : σ → κ → Option α
  stamp : σ → κ → ℚ
  record : ρ → ℚ → α
  commit : σ → κ → ℚ → α → σ
  postpone : σ → κ → ℚ → α → σ

section Stores

variable {κ ρ : Type} [DecidableEq κ]

/-- `_margin_cache`: the stamp, the rows and `read_at`. The wall clock is not negative, so
`int()` rounds down. -/
def marginCache : Store (κ → Option (ℚ × ρ × ℤ)) κ ρ (ρ × ℤ) where
  cached d key := (d key).map Prod.snd
  stamp d key := ((d key).map Prod.fst).getD 0
  record rows wall := (rows, ⌊wall * 1000⌋)
  commit d key now value := Function.update d key (some (now, value))
  postpone d key now value := Function.update d key (some (now - infoRefresh + infoRetry, value))

/-- The two dictionaries of the instrument metadata. -/
structure InfoDicts (κ ι : Type) where
  infoCache : κ → Option (String → Option ι) := fun _ => none
  infoCacheAt : κ → Option ℚ := fun _ => none

/-- `{info.symbol: info for info in infos}`: of two rows of one symbol the later one stays. -/
def bySymbol {ι : Type} (symbol : ι → String) (infos : List ι) : String → Option ι :=
  infos.foldl (fun d info => Function.update d (symbol info) (some info)) fun _ => none

/-- `_info_cache` and `_info_cache_at`. -/
def infoCache {ι : Type} (symbol : ι → String) :
    Store (InfoDicts κ ι) κ (List ι) (String → Option ι) where
  cached d key := d.infoCache key
  stamp d key := (d.infoCacheAt key).getD 0
  record infos _ := bySymbol symbol infos
  commit d key now value :=
    { infoCache := Function.update d.infoCache key (some value)
      infoCacheAt := Function.update d.infoCacheAt key (some now) }
  postpone d key now _ := { d with
    infoCacheAt := Function.update d.infoCacheAt key (some (now - infoRefresh + infoRetry)) }

end Stores

/-! ## The calls of one adapter -/

/-- A fetch under way, with the locals of the call that makes it. -/
structure Fetch (κ α : Type) where
  call : ℕ
  key : κ
  start : ℚ
  cached : Option α

/-- The fetch that its holder makes, and the calls that wait, the next one first. -/
structure Lock (κ α : Type) where
  fetching : Option (Fetch κ α) := none
  waiting : List (ℕ × κ) := []

/-- How a fetch ends. `cancelled` is a `CancelledError`, which no `except Exception` catches. -/
inductive Outcome (ρ : Type) where
  | fetched (result : ρ) (wall : ℚ)
  | failed
  | cancelled

/-- What happened, with the number of the call, its key and the times. A `hit` is served from
the cache; `succeeded` returns what it has fetched; `failed` returns the old value, or raises
where there is none. -/
inductive Entry (κ ρ α : Type) where
  | waits (call : ℕ) (key : κ)
  | hit (call : ℕ) (key : κ) (time : ℚ) (served : α)
  | started (call : ℕ) (key : κ) (start : ℚ)
  | succeeded (call : ℕ) (key : κ) (start finish : ℚ) (result : ρ) (wall : ℚ)
  | failed (call : ℕ) (key : κ) (start : ℚ) (served : Option α)
  | cancelled (call : ℕ) (key : κ)

/-- `log` is newest first; no code reads it. -/
structure State (σ κ ℓ ρ α : Type) where
  now : ℚ
  store : σ
  locks : ℓ → Lock κ α := fun _ => {}
  calls : ℕ := 0
  log : List (Entry κ ρ α) := []

/-- A call arrives; the first waiter of a free lock has its turn; a fetch ends; a call that
waits is cancelled; time goes by. -/
inductive Event (κ ℓ ρ : Type) where
  | call (key : κ)
  | turn (lock : ℓ)
  | ends (lock : ℓ) (outcome : Outcome ρ)
  | cancel (lock : ℓ) (call : ℕ)
  | tick (now : ℚ)

section Machine

variable {σ κ ℓ ρ α : Type} [DecidableEq ℓ]

/-- The log gets an entry. -/
def State.note (s : State σ κ ℓ ρ α) (entry : Entry κ ρ α) : State σ κ ℓ ρ α :=
  { s with log := entry :: s.log }

/-- What fetches under a lock. -/
def State.setFetching (s : State σ κ ℓ ρ α) (l : ℓ) (f : Option (Fetch κ α)) :
    State σ κ ℓ ρ α :=
  { s with locks := Function.update s.locks l { s.locks l with fetching := f } }

/-- Who waits for a lock. -/
def State.setWaiting (s : State σ κ ℓ ρ α) (l : ℓ) (waiting : List (ℕ × κ)) :
    State σ κ ℓ ρ α :=
  { s with locks := Function.update s.locks l { s.locks l with waiting := waiting } }

variable (S : Store σ κ ρ α) (lockOf : κ → ℓ)

/-- The fetch begins, with the lock held. -/
def State.begin (s : State σ κ ℓ ρ α) (call : ℕ) (key : κ) (cached : Option α) :
    State σ κ ℓ ρ α :=
  (s.setFetching (lockOf key) (some ⟨call, key, s.now, cached⟩)).note (.started call key s.now)

/-- The body under the lock, up to the fetch. -/
def State.enter (s : State σ κ ℓ ρ α) (call : ℕ) (key : κ) : State σ κ ℓ ρ α :=
  match S.cached s.store key with
  | some value =>
    if s.now - S.stamp s.store key < infoRefresh then s.note (.hit call key s.now value)
    else s.begin lockOf call key (some value)
  | none => s.begin lockOf call key none

/-- The body from the fetch on. -/
def State.finish (s : State σ κ ℓ ρ α) (l : ℓ) (f : Fetch κ α) :
    Outcome ρ → State σ κ ℓ ρ α
  | .fetched result wall =>
    { s.setFetching l none with
      store := S.commit s.store f.key f.start (S.record result wall)
      log := .succeeded f.call f.key f.start s.now result wall :: s.log }
  | .failed =>
    match f.cached with
    | none => (s.setFetching l none).note (.failed f.call f.key f.start none)
    | some value =>
      { s.setFetching l none with
        store := S.postpone s.store f.key f.start value
        log := .failed f.call f.key f.start (some value) :: s.log }
  | .cancelled => (s.setFetching l none).note (.cancelled f.call f.key)

/-- `async with lock`: a lock that is held, or that others wait for, is waited for. -/
def step (s : State σ κ ℓ ρ α) : Event κ ℓ ρ → Option (State σ κ ℓ ρ α)
  | .call key =>
    let s' := { s with calls := s.calls + 1 }
    match (s.locks (lockOf key)).fetching, (s.locks (lockOf key)).waiting with
    | none, [] => some (s'.enter S lockOf s.calls key)
    | _, waiting =>
      some ((s'.setWaiting (lockOf key) (waiting ++ [(s.calls, key)])).note (.waits s.calls key))
  | .turn l =>
    match (s.locks l).fetching, (s.locks l).waiting with
    | none, (call, key) :: waiting => some ((s.setWaiting l waiting).enter S lockOf call key)
    | _, _ => none
  | .ends l outcome =>
    match (s.locks l).fetching with
    | some f => some (s.finish S l f outcome)
    | none => none
  | .cancel l call =>
    some (s.setWaiting l ((s.locks l).waiting.filter fun w => w.1 ≠ call))
  | .tick now => if s.now ≤ now then some { s with now := now } else none

end Machine

/-- `_margin_table`: a lock for each key. -/
def marginTable {κ ρ : Type} [DecidableEq κ] :
    State (κ → Option (ℚ × ρ × ℤ)) κ κ ρ (ρ × ℤ) → Event κ κ ρ →
      Option (State (κ → Option (ℚ × ρ × ℤ)) κ κ ρ (ρ × ℤ)) :=
  step marginCache id

/-- `_ensure_info_cache`: one lock for the market types of an adapter. -/
def ensureInfoCache {ι : Type} (symbol : ι → String) :
    State (InfoDicts MarketType ι) MarketType Unit (List ι) (String → Option ι) →
      Event MarketType Unit (List ι) →
      Option (State (InfoDicts MarketType ι) MarketType Unit (List ι) (String → Option ι)) :=
  step (infoCache symbol) fun _ => ()

/-! ## What the caches promise -/

section Promise

variable {σ κ ℓ ρ α : Type} [DecidableEq κ]

/-- What the last successful fetch for the key read. -/
def lastSuccess (S : Store σ κ ρ α) (key : κ) : List (Entry κ ρ α) → Option α
  | [] => none
  | .succeeded _ key' _ _ result wall :: earlier =>
    if key' = key then some (S.record result wall) else lastSuccess S key earlier
  | _ :: earlier => lastSuccess S key earlier

/-- The call whose fetch for the key has started and not ended. -/
def flight (key : κ) : List (Entry κ ρ α) → Option ℕ
  | [] => none
  | .started call key' _ :: earlier => if key' = key then some call else flight key earlier
  | .succeeded _ key' _ _ _ _ :: earlier => if key' = key then none else flight key earlier
  | .failed _ key' _ _ :: earlier => if key' = key then none else flight key earlier
  | .cancelled _ key' :: earlier => if key' = key then none else flight key earlier
  | _ :: earlier => flight key earlier

/-- The key of the call that an event is about. -/
def State.keyOf (s : State σ κ ℓ ρ α) : Event κ ℓ ρ → Option κ
  | .call key => some key
  | .turn l => (s.locks l).waiting.head?.map Prod.snd
  | .ends l _ => (s.locks l).fetching.map Fetch.key
  | .cancel l call => ((s.locks l).waiting.find? fun w => w.1 = call).map Prod.snd
  | .tick _ => none

variable (S : Store σ κ ρ α) (next : State σ κ ℓ ρ α → Event κ ℓ ρ → Option (State σ κ ℓ ρ α))

/-- What holds of every state that a run of the machine `next` reaches. -/
structure Kept (s : State σ κ ℓ ρ α) : Prop where
  /-- What is served from the cache is the last success, and so is what a failed refresh serves;
  where there is none a failed fetch raises. -/
  served : ∀ later earlier call key time value,
    s.log = later ++ .hit call key time value :: earlier → lastSuccess S key earlier = some value
  fallback : ∀ later earlier call key start value,
    s.log = later ++ .failed call key start value :: earlier → value = lastSuccess S key earlier
  /-- Nothing is fetched within the refresh period of a success or the retry delay of a failed
  refresh, and nothing while another fetch for the key is under way. -/
  refreshed : ∀ later earlier call key start, s.log = later ++ .started call key start :: earlier →
    ∀ call' start' finish' result wall,
      .succeeded call' key start' finish' result wall ∈ earlier → start' + infoRefresh ≤ start
  retried : ∀ later earlier call key start, s.log = later ++ .started call key start :: earlier →
    ∀ call' start' value, .failed call' key start' (some value) ∈ earlier →
      start' + infoRetry ≤ start
  alone : ∀ later earlier call key start, s.log = later ++ .started call key start :: earlier →
    flight key earlier = none
  /-- A call that has its turn within the refresh period of a success, as those that waited on
  it do, is served its result and fetches nothing. -/
  waited : ∀ later earlier call key start finish result wall,
    s.log = later ++ .succeeded call key start finish result wall :: earlier →
      (∀ call' start', .started call' key start' ∈ later → start + infoRefresh ≤ start') ∧
      ∀ call' time value, .hit call' key time value ∈ later → time < start + infoRefresh →
        value = S.record result wall
  /-- The tables are the last successes; a table is never lost. -/
  tables : ∀ key, S.cached s.store key = lastSuccess S key s.log
  keeps : ∀ es s', Transition.run next s es = some s' → ∀ key, (S.cached s.store key).isSome →
    (S.cached s'.store key).isSome
  /-- A first read that fails changes no dictionary and raises. -/
  first : ∀ l f s', (s.locks l).fetching = some f → S.cached s.store f.key = none →
    next s (.ends l .failed) = some s' →
      s'.store = s.store ∧ s'.log = .failed f.call f.key f.start none :: s.log
  /-- A call for one key leaves the tables and the timers of the others. -/
  others : ∀ e s', next s e = some s' → ∀ key, s.keyOf e ≠ some key →
    S.cached s'.store key = S.cached s.store key ∧ S.stamp s'.store key = S.stamp s.store key

end Promise

end Caches
end ExchangeRouter
