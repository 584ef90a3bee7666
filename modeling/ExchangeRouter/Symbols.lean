import ExchangeRouter.Lib.Text
import ExchangeRouter.Models

/-!
# The symbols of OKX and KuCoin

`get_api_symbol` and `get_model_symbol` of the two venues. A spot symbol is split at the first of
`_learned_quotes` it ends with. Only the letters of ASCII have an upper case here, and the removal
of one letter is a filter.
-/

namespace ExchangeRouter
namespace Symbols

open Text

/-- `symbol.upper()`. -/
def upper (symbol : String) : List Char := symbol.toList.map Char.toUpper

/-- `s.endswith(q) and len(s) > len(q)`. -/
def endsIn (s q : String) : Bool := decide (q.toList <:+ s.toList ∧ q.length < s.length)

/-- The base and the quote, by the first of the quotes that the symbol ends with. -/
def splitQuote (quotes : List String) (s : String) : Option (String × String) :=
  (quotes.find? (endsIn s)).map fun q =>
    (String.ofList (s.toList.take (s.length - q.length)), q)

/-- The spot symbol with its dash. -/
def spotSymbol (learnedQuotes spotQuotes : List String) (s : String) : String :=
  match splitQuote (if learnedQuotes = [] then spotQuotes else learnedQuotes) s with
  | some (base, quote) => base ++ "-" ++ quote
  | none => s

namespace Okx

/-- `SPOT_QUOTES`. -/
def spotQuotes : List String := ["USDT", "USDC", "USD", "BTC", "ETH", "EUR", "GBP", "DAI"]

/-- `normalize_symbol`. -/
def normalizeSymbol (symbol : String) : String :=
  String.ofList <| (remove "-SWAP".toList (upper symbol)).filter fun c => decide (c ≠ '-' ∧ c ≠ '/')

/-- The quotes that `get_api_symbol` looks for on a swap market, and the one it falls back on. -/
def swapQuotes : MarketType → List String
  | .linear => ["USDT", "USDC"]
  | .inverse => ["USD"]
  | .spot => []

/-- A swap's native name, by the quote it ends in. -/
def swapSymbol (quotes : List String) (fallback s : String) : String :=
  match splitQuote quotes s with
  | some (base, quote) => base ++ "-" ++ quote ++ "-SWAP"
  | none => s ++ "-" ++ fallback ++ "-SWAP"

/-- `get_api_symbol`. The learned quotes are those of the spot market. -/
def getApiSymbol (learnedQuotes : List String) (symbol : String) : MarketType → String
  | .linear => swapSymbol (swapQuotes .linear) "USDT" (normalizeSymbol symbol)
  | .inverse => swapSymbol (swapQuotes .inverse) "USD" (normalizeSymbol symbol)
  | .spot => spotSymbol learnedQuotes spotQuotes (normalizeSymbol symbol)

/-- `get_model_symbol`. -/
def getModelSymbol (apiSymbol : String) : String :=
  String.ofList <| (remove "-SWAP".toList (upper apiSymbol)).filter fun c => decide (c ≠ '-')

end Okx

namespace Kucoin

/-- `SPOT_QUOTES`. -/
def spotQuotes : List String :=
  ["USDT", "USDC", "TUSD", "USD", "BTC", "ETH", "EUR", "GBP", "DAI", "KCS"]

/-- `symbol.upper().replace("/", "").replace("-", "")`. -/
def bare (symbol : String) : String :=
  String.ofList <| (upper symbol).filter fun c => decide (c ≠ '/' ∧ c ≠ '-')

/-- `normalize_symbol`. -/
def normalizeSymbol (symbol : String) : String :=
  let s := (upper symbol).filter fun c => decide (c ≠ '/' ∧ c ≠ '-')
  if ("USDTM".toList <:+ s) ∨ ("USDM".toList <:+ s) then String.ofList s.dropLast
  else String.ofList s

/-- `get_api_symbol`. -/
def getApiSymbol (learnedQuotes : List String) (symbol : String) (marketType : MarketType) :
    String :=
  let s := bare symbol
  if marketType = .spot then spotSymbol learnedQuotes spotQuotes s
  else if "M".toList <:+ s.toList then s
  else s ++ "M"

/-- `get_model_symbol`, on every market. -/
def getModelSymbol (apiSymbol : String) : String := normalizeSymbol apiSymbol

end Kucoin

end Symbols
end ExchangeRouter
