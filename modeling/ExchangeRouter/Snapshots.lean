import ExchangeRouter.Lib.Dict
import ExchangeRouter.Lib.SingleFlight
import ExchangeRouter.SideCaches

/-!
# What the adapters load once for all callers

Hyperliquid's `_ctx_snapshot`, Kraken's `_futures_tickers` and `_ensure_spot_ws_map`, and the
`_ensure_spot_symbol_map` of OKX and KuCoin are each a `SingleFlight.Policy`: the first two serve
what they have loaded for some seconds, a map is served for ever once it has an entry. Here are
the policies, the maps as they are built of a reply, and what is read of them.

The rows of a reply have texts or nulls. A set has whatever order Python gives it (`setOrder`).
-/

namespace ExchangeRouter
namespace Snapshots

open SideCaches (named)
open Symbols (upper)

/-! ## Hyperliquid -/

namespace Hyperliquid

/-- The body of a request for asset contexts. -/
structure Body where
  type : String
  dex : Option String := none
deriving DecidableEq, Repr

/-- `coin.split(":", 1)[0]`, of a coin with a colon. -/
def dexOf (coin : String) : Option String :=
  if ':' ∈ coin.toList then some (String.ofList (coin.toList.takeWhile fun c => decide (c ≠ ':')))
  else none

/-- The key of the cell that `_asset_ctx` goes to, and the body of the request. -/
def assetRequest (marketType : MarketType) (coin : String) : String × Body :=
  if marketType = .spot then ("spot", { type := "spotMetaAndAssetCtxs" })
  else
    match dexOf coin with
    | none => ("linear", { type := "metaAndAssetCtxs" })
    | some dex => ("linear:" ++ dex, { type := "metaAndAssetCtxs", dex := some dex })

/-- The names of `data[0]["universe"]`, and `data[1]` with the `coin` that a context may name. -/
structure Reply (γ : Type) where
  names : List String
  ctxs : List (Option String × γ)

/-- The end of `_asset_ctx`: the context of the coin. -/
def findCtx {γ : Type} (marketType : MarketType) (coin : String) (data : Reply γ) :
    Except Fault γ :=
  if marketType = .spot then
    match data.ctxs.find? fun ctx => decide (ctx.1 = some coin) with
    | some ctx => .ok ctx.2
    | none => .error (.valueError ("Coin " ++ coin ++ " not found on Hyperliquid spot"))
  else
    match (data.names.zip data.ctxs).find? fun row => decide (row.1 = coin) with
    | some row => .ok row.2.2
    | none => .error (.valueError ("Coin " ++ coin ++ " not found on Hyperliquid linear"))

/-- `_CTX_TTL_S`. -/
def ctxTtl : ℚ := 3

/-- `_ctx_snapshot`. -/
def ctxSnapshot (γ : Type) : SingleFlight.Policy (Reply γ) where
  ttl := ctxTtl

/-- The adapter: a cell and a lock for each key. -/
def step (γ : Type) : (String → SingleFlight.Cell (Reply γ)) →
    String × SingleFlight.Event (Reply γ) → Option (String → SingleFlight.Cell (Reply γ)) :=
  Transition.family (SingleFlight.step (ctxSnapshot γ))

end Hyperliquid

/-! ## Spot symbols -/

/-- A market as the two venues list it. -/
structure SpotRow where
  live : Bool
  native : Option String
  base : Option String
  quote : Option String
deriving DecidableEq, Repr

/-- `f"{base}{quote}".upper()` and the native symbol, of a row that is not skipped. -/
def SpotRow.write (row : SpotRow) : Option (String × String) := do
  let native ← named row.native
  let base ← named row.base
  let quote ← named row.quote
  if row.live then some (String.ofList (upper (base ++ quote)), native) else none

/-- `quote.upper()`, of a row that is not skipped. -/
def SpotRow.learned (row : SpotRow) : Option String := do
  let _ ← row.write
  let quote ← named row.quote
  some (String.ofList (upper quote))

/-- `_spot_symbol_map` and `_learned_quotes`. -/
structure Listing where
  spotSymbolMap : AList (fun _ : String => String) := ∅
  learnedQuotes : List String := []
deriving DecidableEq

/-- The body of `_ensure_spot_symbol_map` from the reply on. -/
def readListing (setOrder : List String → List String) (rows : List SpotRow) : Listing where
  spotSymbolMap := Dict.ofWrites (rows.filterMap SpotRow.write)
  learnedQuotes := (setOrder (rows.filterMap SpotRow.learned).dedup).mergeSort
    fun a b => decide (b.length ≤ a.length)

/-- `_ensure_spot_symbol_map`: `if self._spot_symbol_map: return`. -/
def spotSymbolMap : SingleFlight.Policy Listing where
  ttl := ⊤
  usable listing := decide (listing.spotSymbolMap ≠ ∅)

/-- `symbol.upper().replace("/", "").replace("-", "")`. -/
def flat (symbol : String) : String := Symbols.Kucoin.bare symbol

namespace Okx

/-- A row of `/api/v5/public/instruments`. -/
structure Instrument where
  state : Option String
  instId : Option String
  baseCcy : Option String := some ""
  quoteCcy : Option String := some ""
deriving DecidableEq, Repr

/-- What the map reads of an OKX row. -/
def Instrument.row (s : Instrument) : SpotRow :=
  ⟨decide (s.state = some "live"), s.instId, s.baseCcy, s.quoteCcy⟩

/-- `_resolve_symbol`. `listing` is what the adapter has once `_ensure_spot_symbol_map` is over,
`loaded` whether that did not raise. -/
def resolveSymbol (listing : Listing) (loaded : Bool) (symbol : String) (marketType : MarketType) :
    String :=
  if marketType ≠ .spot then Symbols.Okx.getApiSymbol listing.learnedQuotes symbol marketType
  else if loaded = false then Symbols.Okx.getApiSymbol listing.learnedQuotes symbol .spot
  else
    match named (listing.spotSymbolMap.lookup (flat symbol)) with
    | some native => native
    | none => Symbols.Okx.getApiSymbol listing.learnedQuotes symbol .spot

end Okx

namespace Kucoin

/-- A row of `/api/v1/symbols`. -/
structure SymbolRow where
  enableTrading : Bool
  symbol : Option String
  baseCurrency : Option String := some ""
  quoteCurrency : Option String := some ""
deriving DecidableEq, Repr

/-- What the map reads of a KuCoin row. -/
def SymbolRow.row (s : SymbolRow) : SpotRow :=
  ⟨s.enableTrading, s.symbol, s.baseCurrency, s.quoteCurrency⟩

/-- `_resolve_symbol`: a symbol that is not in the map is refused. -/
def resolveSymbol (listing : Listing) (loaded : Bool) (symbol : String) (marketType : MarketType) :
    Except Fault String :=
  if marketType ≠ .spot then .ok (Symbols.Kucoin.getApiSymbol listing.learnedQuotes symbol marketType)
  else if loaded = false then
    .ok (Symbols.Kucoin.getApiSymbol listing.learnedQuotes symbol .spot)
  else
    match named (listing.spotSymbolMap.lookup (flat symbol)) with
    | some native => .ok native
    | none => .error (.valueError ("Symbol " ++ symbol ++ " not listed on KuCoin spot"))

end Kucoin

/-! ## Kraken -/

namespace Kraken

/-- `FUT_TICKERS_TTL_S`. -/
def futTickersTtl : ℚ := 1

/-- `_futures_tickers`. It looks under the lock only, and a reply that is null is not kept. -/
def futuresTickers (γ : Type) : SingleFlight.Policy (Option γ) where
  ttl := futTickersTtl
  usable := Option.isSome
  quick := false

/-- `s.replace(old, new)`, after `skip` letters of an occurrence. -/
def replaceFrom (old new : List Char) : ℕ → List Char → List Char
  | _, [] => []
  | skip + 1, _ :: s => replaceFrom old new skip s
  | 0, c :: s =>
    if old <+: c :: s then new ++ replaceFrom old new (old.length - 1) s
    else c :: replaceFrom old new 0 s

/-- `s.replace(old, new)`. -/
def replace (old new : String) (s : String) : String :=
  String.ofList (replaceFrom old.toList new.toList 0 s.toList)

/-- `_to_v2_wsname`. -/
def toV2Wsname (wsname : String) : String := replace "XDG" "DOGE" (replace "XBT" "BTC" wsname)

/-- An entry of `/AssetPairs`. -/
structure Pair where
  wsname : Option String
  altname : Option String
deriving DecidableEq, Repr

/-- `s.replace("/", "").upper()`. -/
def joined (s : String) : String :=
  String.ofList (upper (String.ofList (s.toList.filter fun c => decide (c ≠ '/'))))

/-- `(v.get("altname") or k).upper()`. -/
def altnameOf (entry : String × Pair) : String :=
  String.ofList (upper ((named entry.2.altname).getD entry.1))

/-- The keys under which an entry goes into the map. -/
def spellings (entry : String × Pair) (wsname : String) : List String :=
  [altnameOf entry, toV2Wsname (altnameOf entry), joined wsname, joined (toV2Wsname wsname)]

/-- What an entry writes: nothing under a key with a dot, or without a `wsname`. -/
def writes (entry : String × Pair) : List (String × String) :=
  if '.' ∈ entry.1.toList then []
  else
    match named entry.2.wsname with
    | none => []
    | some wsname => (spellings entry wsname).map fun key => (key, toV2Wsname wsname)

/-- The body of `_ensure_spot_ws_map` from the reply on. -/
def readPairs (pairs : List (String × Pair)) : AList fun _ : String => String :=
  Dict.ofWrites (pairs.flatMap writes)

/-- `_ensure_spot_ws_map`: `if self._spot_ws_map: return`. -/
def spotWsMap : SingleFlight.Policy (AList fun _ : String => String) where
  ttl := ⊤
  usable map := decide (map ≠ ∅)

/-- The quotes of `_heuristic_ws_symbol`. -/
def wsQuotes : List String :=
  ["USDT", "USDC", "USD", "EUR", "GBP", "JPY", "CAD", "AUD", "CHF", "BTC", "ETH", "DOT"]

/-- `_heuristic_ws_symbol`. -/
def heuristicWsSymbol (apiSymbol : String) : String :=
  if '/' ∈ apiSymbol.toList then toV2Wsname apiSymbol
  else
    let s := toV2Wsname (String.ofList (upper apiSymbol))
    match Symbols.splitQuote wsQuotes s with
    | some (base, quote) => base ++ "/" ++ quote
    | none => s

/-- `_spot_ws_symbol`, with the map that the adapter has once `_ensure_spot_ws_map` is over, and
whether that did not raise. -/
def spotWsSymbol (map : AList fun _ : String => String) (loaded : Bool) (apiSymbol : String) :
    String :=
  if '/' ∈ apiSymbol.toList then apiSymbol
  else if loaded = false then heuristicWsSymbol apiSymbol
  else
    match named (map.lookup (String.ofList (upper apiSymbol))) with
    | some mapped => mapped
    | none => heuristicWsSymbol apiSymbol

end Kraken

end Snapshots
end ExchangeRouter
