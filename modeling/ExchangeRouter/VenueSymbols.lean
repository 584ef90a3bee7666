import ExchangeRouter.Lib.Affixes
import ExchangeRouter.Symbols

/-!
# The symbols of Kraken, Binance and Bybit

`get_api_symbol` and `get_model_symbol` of the venues that take affixes off a symbol and put them
on again. A listing of Bybit has the native symbols as they are.
-/

namespace ExchangeRouter
namespace Symbols

open Affixes

/-- `"_PERP"`. -/
def perp : List Char := "_PERP".toList

namespace Kraken

/-- The prefixes of futures, in the order in which they are tried. -/
def prefixes : List (List Char) := ["PF_".toList, "PI_".toList, "FF_".toList, "FI_".toList]

/-- `symbol.upper().replace("/", "").replace("-", "")`. -/
def bare (symbol : String) : List Char := (upper symbol).filter fun c => decide (c ≠ '/' ∧ c ≠ '-')

/-- `normalize_symbol`. -/
def normalizeSymbol (symbol : String) : String :=
  String.ofList (stripEnd perp (stripAll prefixes (bare symbol)))

/-- `get_api_symbol`. -/
def getApiSymbol (symbol : String) (marketType : MarketType) : String :=
  let s := normalizeSymbol symbol
  match marketType with
  | .inverse => "PI_" ++ s
  | .linear => "PF_" ++ s
  | .spot => s

/-- One prefix at most is taken off here. -/
def getModelSymbol (apiSymbol : String) : String :=
  String.ofList (stripEnd perp (stripFirst prefixes (bare apiSymbol)))

end Kraken

namespace Binance

/-- `normalize_symbol` of the base class. -/
def normalizeSymbol (symbol : String) : String :=
  String.ofList ((symbol.toList.filter fun c => decide (c ≠ '/' ∧ c ≠ '-')).map Char.toUpper)

/-- `get_api_symbol`. -/
def getApiSymbol (symbol : String) (marketType : MarketType) : String :=
  let s := normalizeSymbol symbol
  if marketType = .inverse ∧ ¬perp <:+ s.toList then s ++ "_PERP" else s

/-- `get_model_symbol`. -/
def getModelSymbol (apiSymbol : String) : String := String.ofList (stripEnd perp (upper apiSymbol))

end Binance

namespace Bybit

/-- Every occurrence of the suffix is taken out of a symbol that ends in it. -/
def getApiSymbol (symbol : String) : String :=
  let s := upper symbol
  if perp <:+ s then String.ofList (Text.remove perp s) else String.ofList s

/-- `get_model_symbol`. -/
def getModelSymbol (apiSymbol : String) : String := String.ofList (stripEnd perp (upper apiSymbol))

end Bybit

end Symbols
end ExchangeRouter
