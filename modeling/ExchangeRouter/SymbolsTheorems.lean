import ExchangeRouter.Symbols
import Mathlib.Data.List.Basic

/-!
# When a swap symbol comes back

A native symbol is taken to its model symbol and back. The base and the quote are any texts
of ASCII without a dash or a slash, so a digit, an underscore and letters of either case are among
them.
-/

namespace ExchangeRouter
namespace Symbols

open Text

/-- A text of ASCII, of which `upper` makes what `str.upper` does. -/
def IsAscii (s : String) : Prop := ∀ c ∈ s.toList, c.val < 128

/-- The base or the quote of a native symbol. -/
def IsPart (s : String) : Prop := s ≠ "" ∧ '-' ∉ s.toList ∧ '/' ∉ s.toList ∧ IsAscii s

/-- No letter of it is in lower case. -/
def IsUpper (s : String) : Prop := ∀ c ∈ s.toList, c.isLower = false

/-- By the letters of the text, as below. -/
instance (s : String) : Decidable (IsAscii s) :=
  (List.decidableBAll _ s.toList : Decidable (∀ c ∈ s.toList, c.val < 128))

instance (s : String) : Decidable (IsPart s) := inferInstanceAs (Decidable (_ ∧ _ ∧ _ ∧ _))

/-- By the letters of the text, not by all there are. -/
instance (s : String) : Decidable (IsUpper s) :=
  (List.decidableBAll _ s.toList : Decidable (∀ c ∈ s.toList, c.isLower = false))

/-! ## Upper case -/

/-- `isLower`, read off the code of the letter. -/
lemma isLower_eq_false_iff (c : Char) :
    c.isLower = false ↔ ¬ ('a'.val ≤ c.val ∧ c.val ≤ 'z'.val) := by
  have hdef : c.isLower = (decide ('a'.val ≤ c.val) && decide (c.val ≤ 'z'.val)) := rfl
  rw [hdef]
  simp only [Bool.and_eq_false_iff, decide_eq_false_iff_not, not_and_or]

lemma toUpper_of_isLower_eq_false {c : Char} (h : c.isLower = false) : c.toUpper = c :=
  dif_neg ((isLower_eq_false_iff c).mp h)

lemma isLower_toUpper (c : Char) : c.toUpper.isLower = false := by
  by_cases hlow : 'a'.val ≤ c.val ∧ c.val ≤ 'z'.val
  · obtain ⟨hvalid, hup⟩ : ∃ hvalid, c.toUpper = ⟨c.val + ('A'.val - 'a'.val), hvalid⟩ :=
      ⟨_, dif_pos hlow⟩
    rw [isLower_eq_false_iff, hup]
    grind [UInt32.toNat_add, Char.toNat_val]
  · have hsame := (isLower_eq_false_iff c).mpr hlow
    rwa [toUpper_of_isLower_eq_false hsame]

/-- A text without the separators is as it is when they are taken out. -/
lemma filter_separators {s : String} (h : IsPart s) :
    s.toList.filter (fun c => decide (c ≠ '-' ∧ c ≠ '/')) = s.toList :=
  List.filter_eq_self.mpr fun _ hc =>
    decide_eq_true ⟨fun heq => h.2.1 (heq ▸ hc), fun heq => h.2.2.1 (heq ▸ hc)⟩

/-- A name in capitals stays as it is. -/
lemma upper_eq {s : String} (h : IsUpper s) : upper s = s.toList := by
  have hsame : s.toList.map Char.toUpper = s.toList.map id := by
    apply List.map_congr_left
    intro c hc
    exact toUpper_of_isLower_eq_false (h c hc)
  exact hsame.trans (List.map_id _)

lemma isLower_of_mem_upper {s : String} {c : Char} (h : c ∈ upper s) : c.isLower = false := by
  obtain ⟨d, -, rfl⟩ := List.mem_map.mp h
  exact isLower_toUpper d

lemma IsUpper.append {s t : String} (hs : IsUpper s) (ht : IsUpper t) : IsUpper (s ++ t) := by
  intro c hc
  rw [String.toList_append] at hc
  rcases List.mem_append.mp hc with hc | hc
  · exact hs c hc
  · exact ht c hc

lemma IsUpper.left {s t : String} (h : IsUpper (s ++ t)) : IsUpper s := fun c hc =>
  h c (by rw [String.toList_append]; exact List.mem_append_left _ hc)

lemma IsUpper.right {s t : String} (h : IsUpper (s ++ t)) : IsUpper t := fun c hc =>
  h c (by rw [String.toList_append]; exact List.mem_append_right _ hc)

lemma IsAscii.append {s t : String} (hs : IsAscii s) (ht : IsAscii t) : IsAscii (s ++ t) := by
  intro c hc
  rw [String.toList_append] at hc
  rcases List.mem_append.mp hc with hc | hc
  · exact hs c hc
  · exact ht c hc

/-- Two parts make a text that could be one. -/
lemma IsPart.append {s t : String} (hs : IsPart s) (ht : IsPart t) : IsPart (s ++ t) := by
  refine ⟨fun h => hs.1 ?_, ?_, ?_, hs.2.2.2.append ht.2.2.2⟩
  · exact (String.append_eq_empty_iff.mp h).1
  · rw [String.toList_append]
    exact fun hin => (List.mem_append.mp hin).elim hs.2.1 ht.2.1
  · rw [String.toList_append]
    exact fun hin => (List.mem_append.mp hin).elim hs.2.2.1 ht.2.2.1

/-! ## Splitting off the quote -/

/-- Of quotes of one length a name ends in its own only. -/
lemma endsIn_append {base quote q : String} (hlen : q.length = quote.length) (hbase : base ≠ "") :
    endsIn (base ++ quote) q ↔ q = quote := by
  unfold endsIn
  rw [decide_eq_true_iff, String.toList_append, String.length_append]
  constructor
  · rintro ⟨⟨rest, hrest⟩, -⟩
    have hsame : q.toList.length = quote.toList.length := by
      rw [String.length_toList, String.length_toList]
      exact hlen
    exact String.toList_inj.mp (List.append_inj_right' hrest hsame)
  · rintro rfl
    have hpos : base.length ≠ 0 := fun h => hbase (String.length_eq_zero_iff.mp h)
    exact ⟨List.suffix_append _ _, by omega⟩

/-- Of quotes of one length, the one that a text ends with is split off. -/
lemma splitQuote_append {quotes : List String} {base quote : String} (hmem : quote ∈ quotes)
    (hlen : ∀ q ∈ quotes, q.length = quote.length) (hbase : base ≠ "") :
    splitQuote quotes (base ++ quote) = some (base, quote) := by
  have hsome : (quotes.find? (endsIn (base ++ quote))).isSome :=
    List.find?_isSome.mpr ⟨quote, hmem, (endsIn_append rfl hbase).mpr rfl⟩
  obtain ⟨q, hfind⟩ := Option.isSome_iff_exists.mp hsome
  have hq : q = quote :=
    (endsIn_append (hlen q (List.mem_of_find?_eq_some hfind)) hbase).mp (List.find?_some hfind)
  have htake : (base.toList ++ quote.toList).take base.length = base.toList := by
    rw [← String.length_toList]
    exact List.take_left
  unfold splitQuote
  rw [hfind, hq, String.toList_append, String.length_append, Option.map_some,
    Nat.add_sub_cancel, htake, String.ofList_toList]

/-- What is split off is one of the quotes, and what is left is part of the text. -/
lemma of_splitQuote {quotes : List String} {s base quote : String}
    (h : splitQuote quotes s = some (base, quote)) :
    quote ∈ quotes ∧ base.toList <+: s.toList := by
  obtain ⟨q, hfind, hq⟩ := Option.map_eq_some_iff.mp h
  obtain ⟨rfl, rfl⟩ := Prod.mk.inj hq
  refine ⟨List.mem_of_find?_eq_some hfind, ?_⟩
  rw [String.toList_ofList]
  exact List.take_prefix _ _

/-! ## OKX -/

namespace Okx

variable (learnedQuotes : List String) {m : MarketType} {base quote : String}

/-- A native swap symbol. -/
def instId (base quote : String) : String := base ++ "-" ++ quote ++ "-SWAP"

/-- The parts of a native name are read off it. -/
lemma instId_inj {base' quote' : String} (hbase : '-' ∉ base.toList) (hquote : '-' ∉ quote.toList)
    (h : instId base quote = instId base' quote') : base = base' ∧ quote = quote' := by
  have hlists : (base.toList ++ '-' :: quote.toList) ++ "-SWAP".toList =
      (base'.toList ++ '-' :: quote'.toList) ++ "-SWAP".toList := by
    have hto := congrArg String.toList h
    simpa [instId] using hto
  have hparts := List.append_cancel_right hlists
  obtain ⟨hb, -, hq⟩ := (List.append_cons_inj_of_notMem hbase hquote).mp hparts
  exact ⟨String.toList_inj.mp hb, String.toList_inj.mp hq⟩

/-- What `get_api_symbol` makes of a symbol on a swap market. -/
lemma getApiSymbol_eq (hm : m ≠ .spot) (s : String) :
    ∃ base quote, getApiSymbol learnedQuotes s m = instId base quote ∧ quote ∈ swapQuotes m ∧
      IsUpper base := by
  have hnormal : IsUpper (normalizeSymbol s) := by
    intro c hc
    unfold normalizeSymbol at hc
    rw [String.toList_ofList] at hc
    exact isLower_of_mem_upper (mem_of_mem_remove (List.mem_of_mem_filter hc))
  have hswap : ∀ (quotes : List String) (fallback : String), fallback ∈ quotes →
      ∃ base quote, swapSymbol quotes fallback (normalizeSymbol s) = instId base quote ∧
        quote ∈ quotes ∧ IsUpper base := by
    intro quotes fallback hfallback
    unfold swapSymbol
    split
    · next base quote hsplit =>
      obtain ⟨hmem, hpre⟩ := of_splitQuote hsplit
      exact ⟨base, quote, rfl, hmem, fun c hc => hnormal c (hpre.subset hc)⟩
    · exact ⟨_, _, rfl, hfallback, hnormal⟩
  cases m with
  | spot => exact absurd rfl hm
  | linear => exact hswap (swapQuotes .linear) "USDT" (by decide)
  | inverse => exact hswap (swapQuotes .inverse) "USD" (by decide)

lemma isUpper_of_swapQuotes : ∀ m, ∀ q ∈ swapQuotes m, IsUpper q ∧ IsPart q := by
  intro m
  cases m <;> decide

lemma length_swapQuotes : ∀ m, ∀ q ∈ swapQuotes m, ∀ q' ∈ swapQuotes m, q'.length = q.length := by
  intro m
  cases m <;> decide

/-- The ending that `.replace("-SWAP", "")` finds is the last one. -/
lemma remove_swap : ∀ m, ∀ q ∈ swapQuotes m,
    remove "-SWAP".toList ('-' :: q.toList ++ "-SWAP".toList) = '-' :: q.toList := by
  intro m
  cases m <;> decide

lemma filter_of_notMem {a : Char} {s : List Char} (h : a ∉ s) :
    s.filter (fun c => decide (c ≠ a)) = s :=
  List.filter_eq_self.mpr fun _ hc => decide_eq_true fun heq => h (heq ▸ hc)

/-- The model symbol of a listed swap is its two parts. -/
lemma getModelSymbol_instId (hbase : IsPart base) (hupper : IsUpper base)
    (hquote : quote ∈ swapQuotes m) : getModelSymbol (instId base quote) = base ++ quote := by
  obtain ⟨hqupper, hqpart⟩ := isUpper_of_swapQuotes m quote hquote
  have hall : IsUpper (instId base quote) :=
    ((hupper.append (by decide)).append hqupper).append (by decide)
  have hlist : (instId base quote).toList =
      base.toList ++ ('-' :: quote.toList ++ "-SWAP".toList) := by
    simp [instId]
  have hremoved : remove "-SWAP".toList (upper (instId base quote)) =
      base.toList ++ '-' :: quote.toList := by
    rw [upper_eq hall, hlist]
    exact (remove_append (a := '-') hbase.2.1 _).trans
      (congrArg (base.toList ++ ·) (remove_swap m quote hquote))
  unfold getModelSymbol
  rw [hremoved, List.filter_append, filter_of_notMem hbase.2.1]
  have hdash : ('-' :: quote.toList).filter (fun c => decide (c ≠ '-')) = quote.toList :=
    filter_of_notMem hqpart.2.1
  rw [hdash, ← String.toList_append, String.ofList_toList]

/-- A swap's native name is found again from its two parts. -/
lemma getApiSymbol_append (hbase : IsPart base) (hupper : IsUpper base)
    (hquote : quote ∈ swapQuotes m) :
    getApiSymbol learnedQuotes (base ++ quote) m = instId base quote := by
  obtain ⟨hqupper, hqpart⟩ := isUpper_of_swapQuotes m quote hquote
  have hpart := hbase.append hqpart
  have hnormal : normalizeSymbol (base ++ quote) = base ++ quote := by
    unfold normalizeSymbol
    rw [upper_eq (hupper.append hqupper)]
    have hremoved : remove "-SWAP".toList (base ++ quote).toList = (base ++ quote).toList :=
      remove_of_notMem (a := '-') hpart.2.1
    rw [hremoved, filter_separators hpart, String.ofList_toList]
  have hswap : ∀ (quotes : List String) (fallback : String), quote ∈ quotes →
      (∀ q ∈ quotes, q.length = quote.length) →
      swapSymbol quotes fallback (normalizeSymbol (base ++ quote)) = instId base quote := by
    intro quotes fallback hmem hlen
    unfold swapSymbol
    rw [hnormal, splitQuote_append hmem hlen hbase.1]
    rfl
  have hlen := length_swapQuotes m quote hquote
  cases m with
  | spot => exact absurd hquote List.not_mem_nil
  | linear => exact hswap (swapQuotes .linear) "USDT" hquote hlen
  | inverse => exact hswap (swapQuotes .inverse) "USD" hquote hlen

/-- A listed swap is requested under its own instrument, and its model symbol comes back, exactly
where its quote is one that `get_api_symbol` looks for and nothing of it is in lower case. -/
theorem swap_symbol_round_trip_iff (learnedQuotes : List String) {m : MarketType} (hm : m ≠ .spot)
    {base quote : String} (hbase : IsPart base) (hquote : IsPart quote) :
    (getApiSymbol learnedQuotes (getModelSymbol (instId base quote)) m = instId base quote ∧
      getModelSymbol (getApiSymbol learnedQuotes (getModelSymbol (instId base quote)) m) =
        getModelSymbol (instId base quote)) ↔
      quote ∈ swapQuotes m ∧ IsUpper base := by
  constructor
  · rintro ⟨hback, -⟩
    -- whatever comes back has a quote of the list and a base in upper case
    obtain ⟨base', quote', heq, hmem, hupper⟩ :=
      getApiSymbol_eq learnedQuotes hm (getModelSymbol (instId base quote))
    obtain ⟨rfl, rfl⟩ := instId_inj hbase.2.1 hquote.2.1 (hback.symm.trans heq)
    exact ⟨hmem, hupper⟩
  · rintro ⟨hmem, hupper⟩
    have hmodel := getModelSymbol_instId hbase hupper hmem
    have hapi := getApiSymbol_append learnedQuotes hbase hupper hmem
    rw [hmodel, hapi]
    exact ⟨rfl, hmodel⟩

/-- A linear swap with another quote asks for another instrument, and its symbol does not come
back. -/
theorem swap_symbol_usd_um :
    IsPart "BTC" ∧ IsPart "USD_UM" ∧
      getApiSymbol [] (getModelSymbol "BTC-USD_UM-SWAP") .linear = "BTCUSD_UM-USDT-SWAP" ∧
      getModelSymbol (getApiSymbol [] (getModelSymbol "BTC-USD_UM-SWAP") .linear) ≠
        getModelSymbol "BTC-USD_UM-SWAP" := by
  decide +kernel

/-- A swap in USDC comes back, and one in USD_UM does not. -/
theorem swap_symbol_round_trip_iff_btc :
    (getApiSymbol [] (getModelSymbol (instId "BTC" "USDC")) .linear = instId "BTC" "USDC" ∧
      getModelSymbol (getApiSymbol [] (getModelSymbol (instId "BTC" "USDC")) .linear) =
        getModelSymbol (instId "BTC" "USDC")) ∧
      ¬ (getApiSymbol [] (getModelSymbol (instId "BTC" "USD_UM")) .linear =
          instId "BTC" "USD_UM" ∧
        getModelSymbol (getApiSymbol [] (getModelSymbol (instId "BTC" "USD_UM")) .linear) =
          getModelSymbol (instId "BTC" "USD_UM")) := by
  have hlinear : MarketType.linear ≠ .spot := by decide
  have hbtc : IsPart "BTC" := by decide +kernel
  have husdc : IsPart "USDC" := by decide +kernel
  have husdUm : IsPart "USD_UM" := by decide +kernel
  refine ⟨(swap_symbol_round_trip_iff [] hlinear hbtc husdc).mpr (by decide +kernel), fun h => ?_⟩
  exact absurd ((swap_symbol_round_trip_iff [] hlinear hbtc husdUm).mp h) (by decide +kernel)

end Okx

/-! ## KuCoin -/

namespace Kucoin

variable (learnedQuotes : List String) {m : MarketType} {base quote : String}

/-- A native futures symbol. -/
def nativeSymbol (base quote : String) : String := base ++ quote ++ "M"

/-- The texts that `normalize_symbol` takes the `M` after. -/
def EndsInUsd (s : String) : Prop := "USDT".toList <:+ s.toList ∨ "USD".toList <:+ s.toList

instance (s : String) : Decidable (EndsInUsd s) := inferInstanceAs (Decidable (_ ∨ _))

/-- The letters of a symbol without its separators. -/
def letters (s : String) : List Char :=
  (upper s).filter fun c => decide (c ≠ '/' ∧ c ≠ '-')

/-- `get_model_symbol`, by the letters of the name. -/
lemma getModelSymbol_eq (s : String) : getModelSymbol s =
    if "USDTM".toList <:+ letters s ∨ "USDM".toList <:+ letters s then
      String.ofList (letters s).dropLast
    else String.ofList (letters s) := rfl

lemma isUpper_getModelSymbol (s : String) : IsUpper (getModelSymbol s) := by
  intro c hc
  have hletters : c ∈ letters s := by
    rw [getModelSymbol_eq] at hc
    split at hc
    · rw [String.toList_ofList] at hc
      exact List.mem_of_mem_dropLast hc
    · rw [String.toList_ofList] at hc
      exact hc
  exact isLower_of_mem_upper (List.mem_of_mem_filter hletters)

/-- The two endings that `normalize_symbol` looks for. -/
lemma suffix_m (s : List Char) :
    ("USDTM".toList <:+ s ++ "M".toList ∨ "USDM".toList <:+ s ++ "M".toList) ↔
      ("USDT".toList <:+ s ∨ "USD".toList <:+ s) := by
  have husdt : "USDTM".toList = "USDT".toList ++ "M".toList := rfl
  have husd : "USDM".toList = "USD".toList ++ "M".toList := rfl
  rw [husdt, husd, List.suffix_append_self_iff, List.suffix_append_self_iff]

lemma letters_eq {s : String} (hpart : IsPart s) (hupper : IsUpper s) : letters s = s.toList := by
  unfold letters
  rw [upper_eq hupper]
  exact List.filter_eq_self.mpr fun _ hc =>
    decide_eq_true ⟨fun heq => hpart.2.2.1 (heq ▸ hc), fun heq => hpart.2.1 (heq ▸ hc)⟩

/-- The `M` is taken off after `USDT` and `USD`, and stays otherwise. -/
lemma getModelSymbol_native (hbase : IsPart base) (hquote : IsPart quote)
    (hupper : IsUpper (base ++ quote)) :
    getModelSymbol (nativeSymbol base quote) =
      if EndsInUsd (base ++ quote) then base ++ quote else nativeSymbol base quote := by
  have hnative : letters (nativeSymbol base quote) = (base ++ quote).toList ++ "M".toList := by
    rw [← String.toList_append]
    exact letters_eq ((hbase.append hquote).append (by decide)) (hupper.append (by decide))
  rw [getModelSymbol_eq, hnative]
  have hdrop : ((base ++ quote).toList ++ "M".toList).dropLast = (base ++ quote).toList :=
    List.dropLast_concat
  refine if_congr (suffix_m _) ?_ ?_
  · rw [hdrop, String.ofList_toList]
  · rw [← String.toList_append, String.ofList_toList]
    rfl

/-- A contract's native name is found again from its two parts. -/
lemma getApiSymbol_append (hm : m ≠ .spot) (hbase : IsPart base) (hquote : IsPart quote)
    (hupper : IsUpper (base ++ quote)) (hends : EndsInUsd (base ++ quote)) :
    getApiSymbol learnedQuotes (base ++ quote) m = nativeSymbol base quote := by
  have hbare : bare (base ++ quote) = base ++ quote := by
    have hletters := letters_eq (hbase.append hquote) hupper
    exact (congrArg String.ofList hletters).trans String.ofList_toList
  -- a text that ends in `USDT` or `USD` does not end in `M`
  have hnot : ¬ "M".toList <:+ (base ++ quote).toList := by
    intro hm
    rcases hends with hends | hends
    · exact absurd (List.suffix_of_suffix_length_le hm hends (by decide)) (by decide)
    · exact absurd (List.suffix_of_suffix_length_le hm hends (by decide)) (by decide)
  unfold getApiSymbol
  rw [if_neg hm, hbare, if_neg hnot]
  rfl

/-- A native futures symbol loses its `M`, is requested under its own name again and its model
symbol comes back, exactly where the base and the quote end in `USDT` or `USD` and nothing of
them is in lower case. -/
theorem futures_symbol_round_trip_iff (learnedQuotes : List String) {m : MarketType}
    (hm : m ≠ .spot) {base quote : String} (hbase : IsPart base) (hquote : IsPart quote) :
    (getModelSymbol (nativeSymbol base quote) = base ++ quote ∧
      getApiSymbol learnedQuotes (getModelSymbol (nativeSymbol base quote)) m =
        nativeSymbol base quote ∧
      getModelSymbol
          (getApiSymbol learnedQuotes (getModelSymbol (nativeSymbol base quote)) m) =
        getModelSymbol (nativeSymbol base quote)) ↔
      EndsInUsd (base ++ quote) ∧ IsUpper base ∧ IsUpper quote := by
  constructor
  · rintro ⟨hbare, -, -⟩
    have hupper : IsUpper (base ++ quote) := hbare ▸ isUpper_getModelSymbol _
    refine ⟨?_, hupper.left, hupper.right⟩
    by_contra hends
    have hnative := getModelSymbol_native hbase hquote hupper
    rw [if_neg hends, hbare] at hnative
    -- the text would be one letter longer than itself
    have hlength := congrArg String.length hnative
    unfold nativeSymbol at hlength
    rw [String.length_append (base ++ quote)] at hlength
    have hone : "M".length = 1 := rfl
    omega
  · rintro ⟨hends, hbupper, hqupper⟩
    have hupper := hbupper.append hqupper
    have hbare := getModelSymbol_native hbase hquote hupper
    rw [if_pos hends] at hbare
    have hapi := getApiSymbol_append learnedQuotes hm hbase hquote hupper hends
    rw [hbare, hapi]
    exact ⟨rfl, rfl, hbare⟩

/-- A contract of another quote keeps its `M`. -/
theorem futures_symbol_usdc :
    IsPart "XBT" ∧ IsPart "USDC" ∧ getModelSymbol "XBTUSDCM" = "XBTUSDCM" := by
  decide +kernel

theorem futures_symbol_round_trip_iff_xbt :
    (getModelSymbol (nativeSymbol "XBT" "USDT") = "XBT" ++ "USDT" ∧
      getApiSymbol [] (getModelSymbol (nativeSymbol "XBT" "USDT")) .linear =
        nativeSymbol "XBT" "USDT" ∧
      getModelSymbol
          (getApiSymbol [] (getModelSymbol (nativeSymbol "XBT" "USDT")) .linear) =
        getModelSymbol (nativeSymbol "XBT" "USDT")) := by
  have hlinear : MarketType.linear ≠ .spot := by decide
  have hxbt : IsPart "XBT" := by decide +kernel
  have husdt : IsPart "USDT" := by decide +kernel
  exact (futures_symbol_round_trip_iff [] hlinear hxbt husdt).mpr (by decide +kernel)

end Kucoin

end Symbols
end ExchangeRouter
