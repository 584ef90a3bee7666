import ExchangeRouter.SideCaches

/-!
# The symbols of Hyperliquid

`_fetch_exchange_info` lists the linear market: the primary universe, where a row that cannot be
read raises, and then the universes of the builder dexs, where it only ends its own dex. `_lookup`
finds an instrument of the listing by any spelling of its symbol.

The margin tables and the funding intervals that the fetch also stores are left out.
-/

namespace ExchangeRouter
namespace Symbols
namespace Hyperliquid

open SideCaches (InstrumentInfo)

/-! ## Spelling -/

/-- What `normalize_symbol` takes out. -/
def isSeparator (c : Char) : Bool := c == '/' || c == '-' || c == ':'

/-- `s.endswith("USDC")`. -/
def endsUsdc (s : String) : Bool := decide ("USDC".toList <:+ s.toList)

/-- `normalize_symbol`. -/
def normalizeSymbol (symbol : String) : String :=
  String.ofList ((symbol.toList.filter fun c => !isSeparator c).map Char.toUpper)

/-- `get_api_symbol`. -/
def getApiSymbol (symbol : String) (marketType : MarketType) : String :=
  let s := normalizeSymbol symbol
  if marketType = .linear ∧ endsUsdc s = true then String.ofList (s.toList.take (s.length - 4))
  else s

/-- `get_model_symbol`. -/
def getModelSymbol (apiSymbol : String) (marketType : MarketType) : String :=
  let s := String.ofList (upper apiSymbol)
  if marketType = .linear ∧ endsUsdc s = false then s ++ "USDC" else s

/-! ## What the venue answers -/

/-- A row of a universe, each field as reading it ends. -/
structure UniverseRow where
  isDelisted : Bool := false
  name : Except Fault String
  /-- `int(u["szDecimals"])`. -/
  szDecimals : Except Fault ℤ

/-- `data[0]["universe"]` of a `metaAndAssetCtxs` request, or what asking for it raises. -/
abbrev Universe := Except Fault (List UniverseRow)

/-- An entry of `perpDexs`. -/
inductive DexEntry where
  /-- Nothing, or nothing under `name`. -/
  | nameless
  | named (dex : String) (rows : Universe)
  /-- A value that has no `get`. -/
  | malformed

/-- The replies of a refresh of the linear market. -/
structure Replies where
  primary : Universe
  perpDexs : Except Fault (List DexEntry)

/-! ## The listing -/

/-- `seen` and `results`. -/
structure Listing where
  seen : List String
  results : List InstrumentInfo

/-- `_linear_symbol_info`. -/
def linearSymbolInfo (modelSym native base : String) : InstrumentInfo where
  symbol := modelSym
  nativeSymbol := native
  baseAsset := base
  quoteAsset := "USDC"
  minQty := none
  maxQty := none
  minNotional := some 10
  qtyUnit := .base
  contractSize := none
  fundingKind := some "discrete"

@[simp] theorem linearSymbolInfo_symbol (modelSym native base : String) :
    (linearSymbolInfo modelSym native base).symbol = modelSym := rfl

@[simp] theorem linearSymbolInfo_nativeSymbol (modelSym native base : String) :
    (linearSymbolInfo modelSym native base).nativeSymbol = native := rfl

@[simp] theorem linearSymbolInfo_baseAsset (modelSym native base : String) :
    (linearSymbolInfo modelSym native base).baseAsset = base := rfl

@[simp] theorem linearSymbolInfo_quoteAsset (modelSym native base : String) :
    (linearSymbolInfo modelSym native base).quoteAsset = "USDC" := rfl

/-- The end of a row: a symbol that was seen is skipped. -/
def Listing.add (l : Listing) (modelSym native base : String) : Listing :=
  if modelSym ∈ l.seen then l
  else ⟨l.seen ++ [modelSym], l.results ++ [linearSymbolInfo modelSym native base]⟩

/-- A row of the primary universe. -/
def primaryRow (l : Listing) (u : UniverseRow) : Except Fault Listing :=
  if u.isDelisted then .ok l
  else do
    let coin ← u.name
    let _szDec ← u.szDecimals
    return l.add (getModelSymbol coin .linear) coin coin

/-- `native.split(":", 1)[1] if ":" in native else native`. -/
def baseOf (native : String) : String :=
  if ':' ∈ native.toList then String.ofList ((native.toList.dropWhile fun c => c != ':').drop 1)
  else native

/-- A row of the universe of a dex. -/
def builderRow (dex : String) (l : Listing) (u : UniverseRow) : Except Fault Listing :=
  if u.isDelisted then .ok l
  else do
    let native ← u.name
    let base := baseOf native
    let _szDec ← u.szDecimals
    return l.add (getModelSymbol (dex ++ base) .linear) native base

/-- The rows of a dex, under the `except` that keeps what came before the row that raises. -/
def builderRows (dex : String) : Listing → List UniverseRow → Listing
  | l, [] => l
  | l, u :: rows =>
    match builderRow dex l u with
    | .error _ => l
    | .ok l' => builderRows dex l' rows

/-- An entry of `perpDexs`. -/
def builderEntry (l : Listing) : DexEntry → Except Fault Listing
  | .nameless => .ok l
  | .malformed => .error (.other "AttributeError")
  | .named _ (.error _) => .ok l
  | .named dex (.ok rows) => .ok (builderRows dex l rows)

/-- `_fetch_builder_info`, onto what is listed. -/
def fetchBuilderInfo (l : Listing) : Except Fault (List DexEntry) → Except Fault Listing
  | .error _ => .ok l
  | .ok dexs => dexs.foldlM builderEntry l

/-- `_fetch_exchange_info` on the linear market. -/
def fetchLinearInfo (r : Replies) : Except Fault (List InstrumentInfo) := do
  let rows ← r.primary
  let primary ← rows.foldlM primaryRow ⟨[], []⟩
  let all ← fetchBuilderInfo primary r.perpDexs
  return all.results

/-- `_lookup`, in the cache that `_ensure_info_cache` made of a listing. -/
def lookup (cache : String → Option InstrumentInfo) (marketType : MarketType) (symbol : String) :
    Except Fault (String × String × String) :=
  let modelSym := getModelSymbol (getApiSymbol symbol marketType) marketType
  match cache modelSym with
  | none =>
    let market := marketType.value
    .error (.valueError s!"Symbol {symbol} not found on Hyperliquid {market}")
  | some info => .ok (modelSym, info.nativeSymbol, info.quoteAsset)

end Hyperliquid
end Symbols
end ExchangeRouter
