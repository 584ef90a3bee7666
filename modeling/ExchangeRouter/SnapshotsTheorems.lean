import ExchangeRouter.Snapshots
import ExchangeRouter.SymbolsTheorems

/-!
# What is served of what was loaded

`SingleFlight.sound_of_run` holds of every cell. For the snapshots it says how old they are when
they are served and how far apart they are asked for (`snapshots_are_young`); for the symbol maps,
that the first usable one is served for ever (`spot_symbols_resolve`, `spot_ws_symbols_resolve`),
so that a listed symbol comes to its own market whoever asks, however the calls race.
-/

namespace ExchangeRouter
namespace Snapshots

open SideCaches (named)
open Symbols (upper IsAscii IsPart isLower_eq_false_iff toUpper_of_isLower_eq_false)
open SingleFlight (Cell Entry Policy Sound Accounted lastLoad lastLoad_mem flight sound_of_run)

/-! ## Snapshots -/

section

variable {α : Type} {P : Policy α} {s : Cell α}

/-- What is served was the last load and is younger than `ttl`; requests are made one at a time, and
not before every usable load is that old; no caller is lost. -/
structure Young (P : Policy α) (ttl : ℚ) (s : Cell α) : Prop where
  served : ∀ later earlier call time stamp value,
    s.log = later ++ .hit call time stamp value :: earlier →
      lastLoad earlier = some (stamp, value) ∧ P.usable value = true ∧ time < stamp + ttl
  spaced : ∀ later earlier call time, s.log = later ++ .started call time :: earlier →
    flight earlier = none ∧ ∀ call' stamp value, .loaded call' stamp value ∈ earlier →
      P.usable value = true → stamp + ttl ≤ time
  callers : Accounted s

lemma young_of_sound {ttl : ℚ} (httl : P.ttl = ttl) (h : Sound P s) (hcallers : Accounted s) :
    Young P ttl s := by
  refine ⟨?_, ?_, hcallers⟩
  · intro later earlier call time stamp value hlog
    obtain ⟨hlast, husable, hyoung⟩ := h.good later _ earlier hlog
    rw [httl, WithTop.coe_lt_coe] at hyoung
    exact ⟨hlast, husable, by linarith⟩
  · intro later earlier call time hlog
    obtain ⟨hfree, hold⟩ := h.good later _ earlier hlog
    refine ⟨hfree, fun call' stamp value hmem husable => ?_⟩
    have hle := hold call' stamp value hmem husable
    rw [httl, WithTop.coe_le_coe] at hle
    linarith

end

namespace Hyperliquid

variable {γ : Type}

/-- The three requests there are. -/
lemma assetRequest_cases (marketType : MarketType) (coin : String) :
    assetRequest marketType coin = ("spot", { type := "spotMetaAndAssetCtxs" }) ∨
    assetRequest marketType coin = ("linear", { type := "metaAndAssetCtxs" }) ∨
    ∃ dex, assetRequest marketType coin =
      ("linear:" ++ dex, { type := "metaAndAssetCtxs", dex := some dex }) := by
  unfold assetRequest
  split
  · exact .inl rfl
  · split
    · exact .inr (.inl rfl)
    · next dex _ => exact .inr (.inr ⟨dex, rfl⟩)

/-- Where two coins share a cell, their snapshots are asked for in the same words. -/
lemma assetRequest_body {marketType marketType' : MarketType} {coin coin' : String}
    (hkey : (assetRequest marketType coin).1 = (assetRequest marketType' coin').1) :
    (assetRequest marketType coin).2 = (assetRequest marketType' coin').2 := by
  have hspot : ∀ dex, "spot" ≠ "linear:" ++ dex := by
    intro dex heq
    have hletters := congrArg String.toList heq
    simp at hletters
  have hlinear : ∀ dex, "linear" ≠ "linear:" ++ dex := by
    intro dex heq
    have hletters := congrArg String.toList heq
    simp at hletters
  rcases assetRequest_cases marketType coin with h | h | ⟨dex, h⟩ <;>
    rcases assetRequest_cases marketType' coin' with h' | h' | ⟨dex', h'⟩ <;>
    rw [h, h'] at hkey ⊢
  · exact absurd hkey (by decide)
  · exact absurd hkey (hspot dex')
  · exact absurd hkey (by decide)
  · exact absurd hkey (hlinear dex')
  · exact absurd hkey.symm (hspot dex)
  · exact absurd hkey.symm (hlinear dex)
  · rw [(String.append_right_inj "linear:").mp hkey]

/-- The context stands in the reply under the name of the coin. -/
def Reply.Has (data : Reply γ) (marketType : MarketType) (coin : String) (ctx : γ) : Prop :=
  if marketType = .spot then (some coin, ctx) ∈ data.ctxs
  else ∃ (i : ℕ) (name : Option String), data.names[i]? = some coin ∧
    data.ctxs[i]? = some (name, ctx)

lemma has_of_findCtx {marketType : MarketType} {coin : String} {data : Reply γ} {ctx : γ}
    (h : findCtx marketType coin data = .ok ctx) : data.Has marketType coin ctx := by
  unfold findCtx at h
  unfold Reply.Has
  split at h
  · next hm =>
    rw [if_pos hm]
    split at h
    · next entry hfind =>
      have hname : entry.1 = some coin := by simpa using List.find?_some hfind
      rw [← hname, ← Except.ok.inj h]
      exact List.mem_of_find?_eq_some hfind
    · exact absurd h (by simp)
  · next hm =>
    rw [if_neg hm]
    split at h
    · next row hfind =>
      have hname : row.1 = coin := by simpa using List.find?_some hfind
      obtain ⟨i, hi⟩ := List.getElem?_of_mem (List.mem_of_find?_eq_some hfind)
      obtain ⟨hcoin, hctx⟩ := List.getElem?_zip_eq_some.mp hi
      exact ⟨i, row.2.1, hname ▸ hcoin, by rw [hctx, ← Except.ok.inj h]⟩
    · exact absurd h (by simp)

/-- What an `_asset_ctx` call whose snapshot is there returns, and when. -/
def answerOf (marketType : MarketType) (coin : String) :
    Entry (Reply γ) → Option (ℚ × Except Fault γ)
  | .hit _ time _ data => some (time, findCtx marketType coin data)
  | .loaded _ time data => some (time, findCtx marketType coin data)
  | _ => none

/-- In every run of the adapter: the snapshots are young; and what `_asset_ctx` returns of a coin
stands under its name in a reply to the coin's own request, which came less than three seconds
before. -/
theorem asset_ctx_is_young {clock : String → ℚ} {es : List (String × SingleFlight.Event (Reply γ))}
    {s : String → Cell (Reply γ)}
    (hrun : Transition.run (step γ) (fun key => { now := clock key }) es = some s) :
    (∀ key, Young (ctxSnapshot γ) ctxTtl (s key)) ∧
    (∀ marketType coin later entry earlier time ctx,
      (s (assetRequest marketType coin).1).log = later ++ entry :: earlier →
      answerOf marketType coin entry = some (time, .ok ctx) →
      ∃ call stamp data, .loaded call stamp data ∈ entry :: earlier ∧ time < stamp + ctxTtl ∧
        data.Has marketType coin ctx) ∧
    ∀ marketType marketType' coin coin',
      (assetRequest marketType coin).1 = (assetRequest marketType' coin').1 →
      (assetRequest marketType coin).2 = (assetRequest marketType' coin').2 := by
  have hyoung : ∀ key, Young (ctxSnapshot γ) ctxTtl (s key) := by
    intro key
    obtain ⟨hsound, hcallers⟩ := sound_of_run (Transition.run_family hrun key)
    exact young_of_sound rfl hsound hcallers
  refine ⟨hyoung, ?_, fun _ _ _ _ hkey => assetRequest_body hkey⟩
  intro marketType coin later entry earlier time ctx hlog hanswer
  cases entry with
  | hit call time' stamp data =>
    obtain ⟨rfl, hctx⟩ := Prod.mk.inj (Option.some.inj hanswer)
    obtain ⟨hlast, -, hlt⟩ := (hyoung _).served later earlier call time' stamp data hlog
    obtain ⟨call', hmem⟩ := lastLoad_mem hlast
    exact ⟨call', stamp, data, List.mem_cons_of_mem _ hmem, hlt, has_of_findCtx hctx⟩
  | loaded call time' data =>
    obtain ⟨rfl, hctx⟩ := Prod.mk.inj (Option.some.inj hanswer)
    have hpos : (0 : ℚ) < ctxTtl := by decide +kernel
    exact ⟨call, time', data, List.mem_cons_self, by linarith, has_of_findCtx hctx⟩
  | started call time' => exact absurd hanswer (by simp [answerOf])
  | raised call => exact absurd hanswer (by simp [answerOf])
  | cancelled call => exact absurd hanswer (by simp [answerOf])

/-- Two coins of a builder's dex and one of the primary: the second finds the first one's snapshot,
and has its context at two seconds; at three it asks again. -/
def dexCoins : List (String × SingleFlight.Event (Reply ℕ)) :=
  [("linear:xyz", .call 0), ("linear", .call 0), ("linear:xyz", .loaded 0 ⟨["xyz:A", "xyz:B"],
    [(none, 7), (none, 8)]⟩), ("linear:xyz", .call 2), ("linear:xyz", .call 3)]

theorem asset_ctx_is_young_sample :
    ∃ s, Transition.run (step ℕ) (fun _ => { now := 0 }) dexCoins = some s ∧
      (assetRequest .linear "xyz:B").1 = "linear:xyz" ∧ (s "linear").flying = some 0 ∧
      (s "linear:xyz").flying = some 2 ∧ ∀ key, Young (ctxSnapshot ℕ) ctxTtl (s key) := by
  have hrun : ∃ s, Transition.run (step ℕ) (fun _ => { now := 0 }) dexCoins = some s ∧
      (s "linear").flying = some 0 ∧ (s "linear:xyz").flying = some 2 := by
    have hany : (Transition.run (step ℕ) (fun _ => { now := 0 }) dexCoins).any (fun s =>
        decide ((s "linear").flying = some 0 ∧ (s "linear:xyz").flying = some 2)) = true := by
      decide +kernel
    obtain ⟨s, hs, hboth⟩ := (Option.any_eq_true _ _).mp hany
    exact ⟨s, hs, of_decide_eq_true hboth⟩
  obtain ⟨s, hrun, hfirst, hsecond⟩ := hrun
  exact ⟨s, hrun, by decide, hfirst, hsecond, (asset_ctx_is_young hrun).1⟩

end Hyperliquid

/-! ## Spot symbols -/

/-- A row that is not skipped names its market. -/
lemma SpotRow.write_spec {row : SpotRow} {name native : String}
    (h : row.write = some (name, native)) : row.native = some native ∧ native ≠ "" ∧
      ∃ base quote, row.base = some base ∧ row.quote = some quote ∧
        name = String.ofList (upper (base ++ quote)) := by
  unfold SpotRow.write at h
  obtain ⟨native', hnative, h⟩ := Option.bind_eq_some_iff.mp h
  obtain ⟨base, hbase, h⟩ := Option.bind_eq_some_iff.mp h
  obtain ⟨quote, hquote, h⟩ := Option.bind_eq_some_iff.mp h
  split at h
  · obtain ⟨rfl, rfl⟩ := Prod.mk.inj (Option.some.inj h)
    obtain ⟨hnative, hne⟩ := Option.filter_eq_some_iff.mp hnative
    exact ⟨hnative, of_decide_eq_true hne, base, quote,
      (Option.filter_eq_some_iff.mp hbase).1, (Option.filter_eq_some_iff.mp hquote).1, rfl⟩
  · exact absurd h (by simp)

/-- Taking a letter to upper case makes no separator of it. -/
lemma toUpper_ne {c d : Char} (hd : d.val < 'A'.val) (hc : c ≠ d) : c.toUpper ≠ d := by
  by_cases hlow : 'a'.val ≤ c.val ∧ c.val ≤ 'z'.val
  · obtain ⟨hvalid, hup⟩ : ∃ hvalid, c.toUpper = ⟨c.val + ('A'.val - 'a'.val), hvalid⟩ :=
      ⟨_, dif_pos hlow⟩
    intro heq
    rw [hup] at heq
    have hval := congrArg Char.val heq
    grind [UInt32.toNat_add, Char.toNat_val]
  · rwa [toUpper_of_isLower_eq_false ((isLower_eq_false_iff c).mpr hlow)]

lemma filter_upper {s : String} (h : IsPart s) :
    (upper s).filter (fun c => decide (c ≠ '/' ∧ c ≠ '-')) = upper s := by
  refine List.filter_eq_self.mpr fun c hc => decide_eq_true ?_
  obtain ⟨d, hd, rfl⟩ := List.mem_map.mp hc
  exact ⟨toUpper_ne (by decide) fun heq => h.2.2.1 (heq ▸ hd),
    toUpper_ne (by decide) fun heq => h.2.1 (heq ▸ hd)⟩

lemma upper_append (s t : String) : upper (s ++ t) = upper s ++ upper t := by
  unfold upper
  rw [String.toList_append, List.map_append]

/-- A symbol and its parts, with a dash or a slash between them or nothing. -/
lemma flat_join {base quote sep : String} (hbase : IsPart base) (hquote : IsPart quote)
    (hsep : sep ∈ ["", "-", "/"]) :
    flat (base ++ sep ++ quote) = String.ofList (upper (base ++ quote)) := by
  have hnone : (upper sep).filter (fun c => decide (c ≠ '/' ∧ c ≠ '-')) = [] := by
    revert sep
    decide
  unfold flat Symbols.Kucoin.bare
  rw [upper_append, upper_append, List.filter_append, List.filter_append, filter_upper hbase,
    filter_upper hquote, hnone, List.append_nil, upper_append]

/-- The base and the quote of a row are texts of ASCII. -/
def SpotRow.IsAscii (row : SpotRow) : Prop :=
  ∀ name, row.base = some name ∨ row.quote = some name → Symbols.IsAscii name

variable {now stamp : ℚ} {call : ℕ} {setOrder : List String → List String} {rows : List SpotRow}

/-- Once a listing with a market in it is loaded, it is what every later call reads, and nothing is
asked for again. A symbol that is spelt like a listed market, with a dash, a slash or nothing between
the base and the quote, comes to that market's native symbol on both venues, unless another row of
the listing has the spelling too; one of ASCII that no row is spelt like is taken apart by its quote
on OKX, and refused on KuCoin. -/
theorem spot_symbols_resolve {es : List (SingleFlight.Event Listing)} {s : Cell Listing}
    {later earlier : List (Entry Listing)}
    (hrun : Transition.run (SingleFlight.step spotSymbolMap) { now := now } es = some s)
    (hlog : s.log = later ++ .loaded call stamp (readListing setOrder rows) :: earlier)
    (hsome : rows.filterMap SpotRow.write ≠ []) :
    (s.entry = some (stamp, readListing setOrder rows) ∧ s.flying = none ∧ ∀ entry ∈ later,
      (∃ call' time, entry = .hit call' time stamp (readListing setOrder rows)) ∨
        ∃ call', entry = .cancelled call') ∧
    (∀ row ∈ rows, ∀ name native, row.write = some (name, native) →
      (∀ row' ∈ rows, ∀ native', row'.write = some (name, native') → native' = native) →
      ∀ symbol, (flat symbol = name ∨ ∃ base quote sep, row.base = some base ∧
          row.quote = some quote ∧ IsPart base ∧ IsPart quote ∧ sep ∈ ["", "-", "/"] ∧
          symbol = base ++ sep ++ quote) →
        Okx.resolveSymbol (readListing setOrder rows) true symbol .spot = native ∧
        Kucoin.resolveSymbol (readListing setOrder rows) true symbol .spot = .ok native) ∧
    ((∀ row ∈ rows, row.IsAscii) → ∀ symbol, IsAscii symbol →
      (∀ row ∈ rows, ∀ native, row.write ≠ some (flat symbol, native)) →
      Okx.resolveSymbol (readListing setOrder rows) true symbol .spot =
        Symbols.Okx.getApiSymbol (readListing setOrder rows).learnedQuotes symbol .spot ∧
      Kucoin.resolveSymbol (readListing setOrder rows) true symbol .spot =
        .error (.valueError ("Symbol " ++ symbol ++ " not listed on KuCoin spot"))) := by
  obtain ⟨hsound, -⟩ := sound_of_run hrun
  have husable : spotSymbolMap.usable (readListing setOrder rows) = true :=
    decide_eq_true (Dict.ofWrites_ne_empty hsome)
  have hlookup : ∀ k, (readListing setOrder rows).spotSymbolMap.lookup k =
      Dict.lastWrite (rows.filterMap SpotRow.write) k := fun k => Dict.lookup_ofWrites _ k
  refine ⟨hsound.once rfl husable hlog, ?_, ?_⟩
  · intro row hrow name native hwrite hunique symbol hspelt
    obtain ⟨-, hne, base, quote, hbase, hquote, hname⟩ := SpotRow.write_spec hwrite
    have hflat : flat symbol = name := by
      rcases hspelt with hflat | ⟨base', quote', sep, hbase', hquote', hpart, hpart', hsep, rfl⟩
      · exact hflat
      · rw [hbase, Option.some.injEq] at hbase'
        rw [hquote, Option.some.injEq] at hquote'
        rw [← hbase', ← hquote'] at *
        rw [hname]
        exact flat_join hpart hpart' hsep
    subst hflat
    have hfound : (readListing setOrder rows).spotSymbolMap.lookup (flat symbol) = some native := by
      rw [hlookup]
      refine Dict.lastWrite_eq (List.mem_filterMap.mpr ⟨row, hrow, hwrite⟩) ?_
      rintro ⟨key, native'⟩ hmem rfl
      obtain ⟨row', hrow', hwrite'⟩ := List.mem_filterMap.mp hmem
      exact hunique row' hrow' native' hwrite'
    have hnamed : named (some native) = some native := by
      rw [named, Option.filter_some, if_pos]
      exact decide_eq_true hne
    constructor
    · unfold Okx.resolveSymbol
      simp [hfound, hnamed]
    · unfold Kucoin.resolveSymbol
      simp [hfound, hnamed]
  · intro _ symbol _ hnone
    have hmissing : (readListing setOrder rows).spotSymbolMap.lookup (flat symbol) = none := by
      rw [hlookup, Dict.lastWrite_eq_none]
      rintro ⟨key, native⟩ hmem rfl
      obtain ⟨row, hrow, hwrite⟩ := List.mem_filterMap.mp hmem
      exact hnone row hrow native hwrite
    constructor
    · unfold Okx.resolveSymbol
      simp [hmissing, named]
    · unfold Kucoin.resolveSymbol
      simp [hmissing, named]

/-- Two markets, and one that is suspended. -/
def listed : List SpotRow :=
  [Okx.Instrument.row ⟨some "live", some "BTC-USDT", some "BTC", some "USDT"⟩,
    Okx.Instrument.row ⟨some "suspend", some "ETH-USDT", some "ETH", some "USDT"⟩,
    Okx.Instrument.row ⟨some "live", some "OKB-BRL", some "OKB", some "BRL"⟩]

lemma write_listed : ∀ row ∈ listed, row.write = some ("BTCUSDT", "BTC-USDT") ∨
    row.write = none ∨ row.write = some ("OKBBRL", "OKB-BRL") := by
  decide

/-- Two calls that race: the one asks, the other finds what it was given. -/
lemma run_race {L : Listing} (hsome : L.spotSymbolMap ≠ ∅) :
    ∃ s, Transition.run (SingleFlight.step spotSymbolMap) { now := 0 }
        [.call 0, .call 0, .loaded 1 L, .turn 1] = some s ∧
      s.log = [.hit 1 1 1 L] ++ .loaded 0 1 L :: [.started 0 0] := by
  have hfresh : spotSymbolMap.fresh 1 (1, L) = true := by
    simp [Policy.fresh, spotSymbolMap, hsome]
  have hlook : Option.filter (spotSymbolMap.fresh 1) (some (1, L)) = some (1, L) := by
    rw [Option.filter_some, if_pos hfresh]
  have hquick : spotSymbolMap.quick = true := rfl
  refine ⟨{
    now := 1
    entry := some (1, L)
    calls := 2
    log := [.hit 1 1 1 L, .loaded 0 1 L, .started 0 0] }, ?_, rfl⟩
  simp [Transition.run, SingleFlight.step, Cell.call, Cell.enter, Cell.look, hquick, hlook]

theorem spot_symbols_resolve_sample :
    ∃ s, Transition.run (SingleFlight.step spotSymbolMap) { now := 0 }
        [.call 0, .call 0, .loaded 1 (readListing id listed), .turn 1] = some s ∧
      s.flying = none ∧
      Okx.resolveSymbol (readListing id listed) true "okb/brl" .spot = "OKB-BRL" ∧
      Kucoin.resolveSymbol (readListing id listed) true "ETH-USDT" .spot =
        .error (.valueError "Symbol ETH-USDT not listed on KuCoin spot") := by
  have hsome : listed.filterMap SpotRow.write ≠ [] := by decide
  obtain ⟨s, hrun, hlog⟩ := run_race (L := readListing id listed) (Dict.ofWrites_ne_empty hsome)
  have hall := spot_symbols_resolve hrun hlog hsome
  refine ⟨s, hrun, hall.1.2.1, ?_, ?_⟩
  · refine (hall.2.1 (Okx.Instrument.row ⟨some "live", some "OKB-BRL", some "OKB", some "BRL"⟩)
      (by decide) "OKBBRL" "OKB-BRL" (by decide) (fun row hrow native hwrite => ?_) "okb/brl"
      (.inl (by decide))).1
    rcases write_listed row hrow with h | h | h
    · have hname := (Prod.mk.inj (Option.some.inj (h.symm.trans hwrite))).1
      exact absurd hname (by decide)
    · exact absurd (h.symm.trans hwrite) (by simp)
    · exact (Prod.mk.inj (Option.some.inj (h.symm.trans hwrite))).2.symm
  · have hascii : ∀ row ∈ listed, row.IsAscii := by
      intro row hrow name hname
      simp only [listed, List.mem_cons, List.not_mem_nil, or_false] at hrow
      rcases hrow with rfl | rfl | rfl
      all_goals rcases hname with hname | hname
      all_goals
        obtain rfl := Option.some.inj hname
        decide
    refine (hall.2.2 hascii "ETH-USDT" (by decide) fun row hrow native hwrite => ?_).2
    rcases write_listed row hrow with h | h | h
    · have hname := (Prod.mk.inj (Option.some.inj (h.symm.trans hwrite))).1
      exact absurd hname (by decide)
    · exact absurd (h.symm.trans hwrite) (by simp)
    · have hname := (Prod.mk.inj (Option.some.inj (h.symm.trans hwrite))).1
      exact absurd hname (by decide)

/-! ## Kraken -/

namespace Kraken

/-- In every run, a `_futures_tickers` reply that is served was loaded less than a second before,
and replies are asked for one at a time and a second apart, unless the last one was null. -/
lemma futures_tickers_are_young {γ : Type} {es : List (SingleFlight.Event (Option γ))}
    {s : Cell (Option γ)}
    (hrun : Transition.run (SingleFlight.step (futuresTickers γ)) { now := now } es = some s) :
    Young (futuresTickers γ) futTickersTtl s := by
  obtain ⟨hsound, hcallers⟩ := sound_of_run hrun
  exact young_of_sound rfl hsound hcallers

/-- A text with a letter has one still when a pattern is replaced by another text. -/
lemma replaceFrom_ne_nil {old new : List Char} (hnew : new ≠ []) {s : List Char} (hs : s ≠ []) :
    replaceFrom old new 0 s ≠ [] := by
  cases s with
  | nil => exact absurd rfl hs
  | cons c s =>
    unfold replaceFrom
    split
    · exact List.append_ne_nil_of_left_ne_nil hnew _
    · exact List.cons_ne_nil _ _

lemma toV2Wsname_ne_empty {wsname : String} (h : wsname ≠ "") : toV2Wsname wsname ≠ "" := by
  have hreplace : ∀ old new s : String, new ≠ "" → s ≠ "" → replace old new s ≠ "" := by
    intro old new s hnew hs heq
    unfold replace at heq
    have hnil : replaceFrom old.toList new.toList 0 s.toList = [] := by
      simpa using congrArg String.toList heq
    refine replaceFrom_ne_nil (fun hnil => hnew ?_) (fun hnil => hs ?_) hnil
    · simpa using hnil
    · simpa using hnil
  exact hreplace _ _ _ (by decide) (hreplace _ _ _ (by decide) h)

/-- Once a map with a pair in it is loaded, it is what every later call reads, and nothing is asked
for again; and a symbol without a slash that is one of the four spellings of a listed pair, in
either case, comes to the pair's name on the socket, unless another pair has the spelling under
another name. -/
theorem spot_ws_symbols_resolve {es : List (SingleFlight.Event (AList fun _ : String => String))}
    {s : Cell (AList fun _ : String => String)}
    {later earlier : List (Entry (AList fun _ : String => String))} {pairs : List (String × Pair)}
    (hrun : Transition.run (SingleFlight.step spotWsMap) { now := now } es = some s)
    (hlog : s.log = later ++ .loaded call stamp (readPairs pairs) :: earlier)
    (hsome : pairs.flatMap writes ≠ []) :
    (s.entry = some (stamp, readPairs pairs) ∧ s.flying = none ∧ ∀ entry ∈ later,
      (∃ call' time, entry = .hit call' time stamp (readPairs pairs)) ∨
        ∃ call', entry = .cancelled call') ∧
    ∀ entry ∈ pairs, ∀ wsname, '.' ∉ entry.1.toList → named entry.2.wsname = some wsname →
      ∀ key ∈ spellings entry wsname,
        (∀ entry' ∈ pairs, ∀ name, (key, name) ∈ writes entry' → name = toV2Wsname wsname) →
        ∀ apiSymbol, '/' ∉ apiSymbol.toList → String.ofList (upper apiSymbol) = key →
          spotWsSymbol (readPairs pairs) true apiSymbol = toV2Wsname wsname := by
  obtain ⟨hsound, -⟩ := sound_of_run hrun
  have husable : spotWsMap.usable (readPairs pairs) = true :=
    decide_eq_true (Dict.ofWrites_ne_empty hsome)
  refine ⟨hsound.once rfl husable hlog, ?_⟩
  rintro entry hentry wsname hdot hws key hkey hunique apiSymbol hslash rfl
  have hwrite : (String.ofList (upper apiSymbol), toV2Wsname wsname) ∈ writes entry := by
    unfold writes
    rw [if_neg hdot, hws]
    exact List.mem_map.mpr ⟨_, hkey, rfl⟩
  have hfound : (readPairs pairs).lookup (String.ofList (upper apiSymbol)) =
      some (toV2Wsname wsname) := by
    refine (Dict.lookup_ofWrites _ _).trans (Dict.lastWrite_eq ?_ ?_)
    · exact List.mem_flatMap.mpr ⟨entry, hentry, hwrite⟩
    · rintro ⟨key', name⟩ hmem rfl
      obtain ⟨entry', hentry', hwrite'⟩ := List.mem_flatMap.mp hmem
      exact hunique entry' hentry' name hwrite'
  have hne : wsname ≠ "" := of_decide_eq_true (Option.filter_eq_some_iff.mp hws).2
  have hnamed : named (some (toV2Wsname wsname)) = some (toV2Wsname wsname) := by
    rw [named, Option.filter_some, if_pos]
    exact decide_eq_true (toV2Wsname_ne_empty hne)
  unfold spotWsSymbol
  rw [if_neg hslash, if_neg (by decide), hfound, hnamed]

/-- Bitcoin goes by an older name on the REST side; the key with a dot is a dark pool. -/
def assetPairs : List (String × Pair) :=
  [("XXBTZUSD", ⟨some "XBT/USD", some "XBTUSD"⟩), ("XXBTZUSD.d", ⟨some "XBT/USD", some "XBTUSD.d"⟩),
    ("XDGUSD", ⟨some "XDG/USD", none⟩)]

theorem spot_ws_symbols_resolve_sample :
    ∃ s, Transition.run (SingleFlight.step spotWsMap) { now := 0 }
        [.call 0, .loaded 1 (readPairs assetPairs)] = some s ∧
      s.entry = some (1, readPairs assetPairs) ∧
      spotWsSymbol (readPairs assetPairs) true "btcusd" = "BTC/USD" := by
  have hruns : ∃ s, Transition.run (SingleFlight.step spotWsMap) { now := 0 }
        [.call 0, .loaded 1 (readPairs assetPairs)] = some s ∧
      s.log = [] ++ .loaded 0 1 (readPairs assetPairs) :: [.started 0 0] := by
    refine ⟨{
      now := 1
      entry := some (1, readPairs assetPairs)
      calls := 1
      log := [.loaded 0 1 (readPairs assetPairs), .started 0 0] }, ?_, rfl⟩
    simp [Transition.run, SingleFlight.step, Cell.call, Cell.enter, Cell.look]
  obtain ⟨s, hrun, hlog⟩ := hruns
  have hwrites : ∀ entry ∈ assetPairs, ∀ w ∈ writes entry, w.1 = "BTCUSD" →
      w.2 = toV2Wsname "XBT/USD" := by
    decide
  have hall := spot_ws_symbols_resolve hrun hlog (by decide)
  have hname : toV2Wsname "XBT/USD" = "BTC/USD" := by decide
  refine ⟨s, hrun, hall.1.1, ?_⟩
  rw [← hname]
  exact hall.2 _ List.mem_cons_self "XBT/USD" (by decide) rfl "BTCUSD" (by decide)
    (fun entry hentry name hw => hwrites entry hentry _ hw rfl) "btcusd" (by decide) (by decide)

end Kraken

end Snapshots
end ExchangeRouter
