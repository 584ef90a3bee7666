import ExchangeRouter.SymbolsTheorems
import ExchangeRouter.VenueSymbols

/-!
# Which symbols come back

A native symbol is listed under its model symbol, and asked for under what `get_api_symbol` makes
of a spelling of that. It is asked for under its own name exactly where the affixes that are taken
off cannot be mistaken for a part of it.
-/

namespace ExchangeRouter
namespace Symbols

open Affixes

/-- In upper case, without separators, and of ASCII. -/
def IsBare (s : String) : Prop := IsUpper s ∧ '/' ∉ s.toList ∧ '-' ∉ s.toList ∧ IsAscii s

instance (s : String) : Decidable (IsBare s) := inferInstanceAs (Decidable (_ ∧ _ ∧ _ ∧ _))

lemma perp_ne_nil : perp ≠ [] := by decide

namespace Kraken

lemma prefixes_ne_nil : ∀ p ∈ prefixes, p ≠ [] := by decide

/-- The native symbol of a futures market. -/
def native (marketType : MarketType) (s : String) : String :=
  if marketType = .inverse then "PI_" ++ s else "PF_" ++ s

lemma bare_eq {s : String} (h : IsBare s) : bare s = s.toList := by
  unfold bare
  rw [upper_eq h.1]
  exact List.filter_eq_self.mpr fun _ hc =>
    decide_eq_true ⟨fun heq => h.2.1 (heq ▸ hc), fun heq => h.2.2.1 (heq ▸ hc)⟩

lemma isBare_append {p s : String} (hp : IsBare p) (hs : IsBare s) : IsBare (p ++ s) := by
  refine ⟨hp.1.append hs.1, ?_, ?_, hp.2.2.2.append hs.2.2.2⟩
  · rw [String.toList_append]
    exact fun hin => (List.mem_append.mp hin).elim hp.2.1 hs.2.1
  · rw [String.toList_append]
    exact fun hin => (List.mem_append.mp hin).elim hp.2.2.1 hs.2.2.1

/-- The prefix of its own market is the one that a native symbol loses. -/
lemma stripFirst_native {marketType : MarketType} {s : String} (h : IsBare s) :
    stripFirst prefixes (bare (native marketType s)) = s.toList := by
  have hpi : bare ("PI_" ++ s) = "PI_".toList ++ s.toList := by
    rw [bare_eq (isBare_append (by decide +kernel) h), String.toList_append]
  have hpf : bare ("PF_" ++ s) = "PF_".toList ++ s.toList := by
    rw [bare_eq (isBare_append (by decide +kernel) h), String.toList_append]
  unfold native
  split
  · rw [hpi]
    simp [stripFirst, prefixes]
  · rw [hpf]
    simp [stripFirst, prefixes]

/-- A futures symbol in any spelling is asked for under the native symbol that it is listed with,
exactly where no prefix and no suffix is left in that. -/
theorem futures_symbol_iff {m : MarketType} (hspot : m ≠ .spot) {s : String}
    (h : IsBare s) {symbol : String}
    (hspelling : String.ofList (bare symbol) = getModelSymbol (native m s)) :
    getApiSymbol symbol m = native m s ↔
      ¬perp <:+ s.toList ∧ ∀ p ∈ prefixes, ¬p <+: s.toList := by
  have hmodel : bare symbol = stripEnd perp s.toList := by
    have hsame := String.ofList_injective hspelling
    rwa [stripFirst_native h] at hsame
  have hapi : getApiSymbol symbol m = native m s ↔
      stripEnd perp (stripAll prefixes (stripEnd perp s.toList)) = s.toList := by
    have hcore : getApiSymbol symbol m = native m (normalizeSymbol symbol) := by
      cases m with
      | spot => exact absurd rfl hspot
      | linear => rfl
      | inverse => rfl
    rw [hcore, ← hmodel]
    constructor
    · intro heq
      have hlist := congrArg String.toList heq
      unfold native normalizeSymbol at hlist
      split at hlist
      · simpa [String.toList_append] using hlist
      · simpa [String.toList_append] using hlist
    · intro heq
      unfold normalizeSymbol
      rw [heq, String.ofList_toList]
  rw [hapi]
  by_cases hperp : perp <:+ s.toList
  · -- what was listed without its suffix does not get it back
    refine iff_of_false (fun heq => ?_) fun hno => hno.1 hperp
    obtain ⟨t, ht⟩ := hperp
    have hle := (length_stripEnd_le perp (stripAll prefixes (stripEnd perp s.toList))).trans
      (length_stripAll_le prefixes (stripEnd perp s.toList))
    rw [heq, ← ht, stripEnd_append, List.length_append] at hle
    have hlen : perp.length = 5 := by decide
    omega
  · rw [stripEnd_of_not_suffix hperp]
    exact stripEnd_stripAll_eq_self_iff prefixes_ne_nil perp_ne_nil s.toList

theorem futures_symbol_iff_sample :
    getApiSymbol "xbt/usd" .linear = "PF_XBTUSD" ∧ getApiSymbol "fi_usd" .linear ≠ "PF_FI_USD" := by
  have hxbt : IsBare "XBTUSD" := by decide +kernel
  have hfi : IsBare "FI_USD" := by decide +kernel
  refine ⟨(futures_symbol_iff (m := .linear) (by simp) hxbt (by decide +kernel)).mpr
    (by decide +kernel), fun heq => ?_⟩
  exact absurd ((futures_symbol_iff (m := .linear) (by simp) hfi (by decide +kernel)).mp heq)
    (by decide +kernel)

end Kraken

/-! ## Binance -/

namespace Binance

/-- A symbol in any spelling is asked for under the native symbol that it is listed with, on an
inverse market exactly where that ends in one suffix and no more, and elsewhere where it ends in
none. -/
theorem symbol_iff (marketType : MarketType) {listed : String} (h : IsBare listed)
    {symbol : String} (hspelling : normalizeSymbol symbol = getModelSymbol listed) :
    getApiSymbol symbol marketType = listed ↔
      if marketType = .inverse then
        perp <:+ listed.toList ∧ ¬perp <:+ stripEnd perp listed.toList
      else ¬perp <:+ listed.toList := by
  have hmodel : (getModelSymbol listed).toList = stripEnd perp listed.toList := by
    unfold getModelSymbol
    rw [upper_eq h.1, String.toList_ofList]
  unfold getApiSymbol
  dsimp only
  rw [hspelling, hmodel]
  by_cases hperp : perp <:+ listed.toList
  · obtain ⟨t, ht⟩ := hperp
    have hstrip : stripEnd perp listed.toList = t := by rw [← ht, stripEnd_append]
    have hgets : getModelSymbol listed ++ "_PERP" = listed := by
      apply String.toList_inj.mp
      rw [String.toList_append, hmodel, hstrip]
      exact ht
    have hloses : getModelSymbol listed ≠ listed := by
      intro heq
      have hshort : t = listed.toList := by rw [← hstrip, ← hmodel, heq]
      have hlen := congrArg List.length (hshort.trans ht.symm)
      rw [List.length_append] at hlen
      have hfive : perp.length = 5 := by decide
      omega
    rw [hstrip]
    by_cases hinverse : marketType = .inverse
    · by_cases htwice : perp <:+ t
      · rw [if_neg fun hand => hand.2 htwice, if_pos hinverse]
        exact iff_of_false hloses fun hand => hand.2 htwice
      · rw [if_pos ⟨hinverse, htwice⟩, if_pos hinverse]
        exact iff_of_true hgets ⟨⟨t, ht⟩, htwice⟩
    · rw [if_neg fun hand => hinverse hand.1, if_neg hinverse]
      exact iff_of_false hloses fun hno => hno ⟨t, ht⟩
  · have hsame : getModelSymbol listed = listed := by
      apply String.toList_inj.mp
      rw [hmodel, stripEnd_of_not_suffix hperp]
    rw [stripEnd_of_not_suffix hperp, hsame]
    by_cases hinverse : marketType = .inverse
    · rw [if_pos ⟨hinverse, hperp⟩, if_pos hinverse]
      refine iff_of_false (fun heq => ?_) fun hand => hperp hand.1
      have hlen := congrArg (fun s : String => s.toList.length) heq
      simp [String.toList_append] at hlen
    · rw [if_neg fun hand => hinverse hand.1, if_neg hinverse]
      exact iff_of_true rfl hperp

theorem symbol_iff_sample :
    getApiSymbol "btc-usd" .inverse = "BTCUSD_PERP" ∧ getApiSymbol "BTC" .linear ≠ "BTC_PERP" := by
  have hinverse : IsBare "BTCUSD_PERP" := by decide +kernel
  have hlinear : IsBare "BTC_PERP" := by decide +kernel
  refine ⟨(symbol_iff .inverse hinverse (by decide +kernel)).mpr (by decide +kernel), fun heq => ?_⟩
  exact absurd ((symbol_iff .linear hlinear (by decide +kernel)).mp heq) (by decide +kernel)

end Binance

/-! ## Bybit -/

namespace Bybit

/-- A listed symbol is found in any letter case, exactly where it does not end in the suffix. -/
theorem symbol_found_iff {symbol listed : String}
    (hspelling : String.ofList (upper symbol) = listed) :
    getModelSymbol (getApiSymbol symbol) = listed ↔ ¬perp <:+ listed.toList := by
  have hupper : upper symbol = listed.toList := by rw [← hspelling, String.toList_ofList]
  have hIsUpper : IsUpper listed := fun c hc => isLower_of_mem_upper (hupper ▸ hc)
  unfold getApiSymbol
  rw [hupper]
  by_cases hperp : perp <:+ listed.toList
  · refine iff_of_false (fun heq => ?_) fun hno => hno hperp
    rw [if_pos hperp] at heq
    -- the last occurrence is taken out, and nothing comes back
    have hlen := congrArg (fun s : String => s.toList.length) heq
    have hle := length_stripEnd_le perp (upper (String.ofList (Text.remove perp listed.toList)))
    unfold getModelSymbol at hlen
    simp only [String.toList_ofList] at hlen
    rw [hlen] at hle
    unfold upper at hle
    rw [List.length_map, String.toList_ofList] at hle
    exact absurd (Text.length_remove_lt perp_ne_nil hperp.isInfix) (by omega)
  · rw [if_neg hperp, String.ofList_toList]
    refine iff_of_true ?_ hperp
    unfold getModelSymbol
    rw [upper_eq hIsUpper, stripEnd_of_not_suffix hperp, String.ofList_toList]

end Bybit

end Symbols
end ExchangeRouter
