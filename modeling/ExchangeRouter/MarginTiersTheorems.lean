import ExchangeRouter.MarginTiers
import ExchangeRouter.Lib.Brackets
import ExchangeRouter.Lib.Fallible
import Mathlib.Algebra.Order.Floor.Ring
import Mathlib.Data.Rat.Floor
import Mathlib.Tactic.Linarith
import Mathlib.Tactic.NormNum

/-!
# The tier of a position

Whatever form a venue's table has, a position finds in the router's tiers the leverage that the
venue's own rows give it. A position is the bounds that it is up to: an upper set, so that whether
a position of exactly a bound is still below it is left open.
-/

namespace ExchangeRouter
namespace MarginTiers

open BybitTicker (Texts)
open MakeRequest (Json PyFloat)

/-- Numbers only: no text is read. -/
def noTexts : Texts := ⟨fun _ => none, fun _ => .error .malformed⟩

/-! ## Tiers -/

/-- The position is in a tier that ends there. -/
def reaches (upTo : ℚ → Bool) : Option PyFloat → Bool
  | none => true
  | some (.finite b) => upTo b
  | some .inf => true
  | some _ => false

/-- The leverage of the first tier that the position is in. -/
def leverageAt (upTo : ℚ → Bool) (tiers : List MarginTier) : Option PyFloat :=
  (tiers.find? fun t => reaches upTo t.upTo).map MarginTier.maxLeverage

/-- The tier has that end and that leverage. -/
structure IsTier (tier : MarginTier) (t : Option ℚ × ℚ) : Prop where
  upTo : tier.upTo = t.1.map .finite
  leverage : tier.maxLeverage = .finite t.2

lemma leverageAt_eq {upTo : ℚ → Bool} {tiers : List MarginTier} {ts : List (Option ℚ × ℚ)}
    (h : List.Forall₂ IsTier tiers ts) :
    leverageAt upTo tiers = (Brackets.covering upTo ts).map .finite := by
  induction h with
  | nil => rfl
  | @cons tier t tiers ts ht _ ih =>
    have hreach : reaches upTo tier.upTo = t.1.all upTo := by
      rw [ht.upTo]
      cases t.1 <;> rfl
    unfold leverageAt Brackets.covering at ih ⊢
    rw [List.find?_cons, List.find?_cons, hreach]
    cases t.1.all upTo with
    | true => exact congrArg some ht.leverage
    | false => exact ih

/-- What the fields of a tier are read from can be read. -/
lemma build_isTier {texts : Texts} {upTo leverage mmr imr deduction : Json} {b : Option ℚ} {l : ℚ}
    (hupTo : optionalFloat texts upTo = .ok (b.map .finite))
    (hleverage : asFloat texts leverage = .ok (.finite l)) {m i d : Option PyFloat}
    (hmmr : optionalFloat texts mmr = .ok m) (himr : optionalFloat texts imr = .ok i)
    (hdeduction : optionalFloat texts deduction = .ok d) :
    buildMarginTier texts upTo leverage mmr imr deduction =
      .ok ⟨b.map .finite, .finite l, m, i, d⟩ := by
  unfold buildMarginTier
  rw [hupTo, hleverage, hmmr, himr, hdeduction]
  rfl

/-! ## Hyperliquid -/

namespace Hyperliquid

/-- A row of a margin table. -/
structure IsRow (texts : Texts) (row : Json) (r : ℚ × ℚ) : Prop where
  bound : ∃ v, item row "lowerBound" = .ok v ∧ optionalFloat texts v = .ok (some (.finite r.1))
  leverage : ∃ v, item row "maxLeverage" = .ok v ∧ asFloat texts v = .ok (.finite r.2)

lemma readRow_isTier {texts : Texts} {row : Json} {r : ℚ × ℚ} (h : IsRow texts row r) {v : Json}
    {b : Option ℚ} (hv : optionalFloat texts v = .ok (b.map .finite)) :
    ∃ tier, readRow texts (row, v) = .ok tier ∧ IsTier tier (b, r.2) := by
  obtain ⟨leverage, hitem, hread⟩ := h.leverage
  refine ⟨⟨b.map .finite, .finite r.2, none, none, none⟩, ?_, rfl, rfl⟩
  show (item row "maxLeverage").bind _ = _
  rw [hitem]
  exact build_isTier hv hread rfl rfl rfl

/-- The rows are read as the tiers that end where the next row begins. -/
lemma readRows {texts : Texts} {rows : List Json} {table : List (ℚ × ℚ)}
    (h : List.Forall₂ (IsRow texts) rows table) :
    ∃ bounds, rows.tail.mapM (fun row => item row "lowerBound") = .ok bounds ∧
      ∃ tiers, (rows.zip (bounds ++ [.null])).mapM (readRow texts) = .ok tiers ∧
        List.Forall₂ IsTier tiers (Brackets.tiers table) := by
  induction h with
  | nil => exact ⟨[], rfl, [], rfl, .nil⟩
  | @cons row r rows table hrow hrows ih =>
    cases hrows with
    | nil =>
      obtain ⟨tier, hread, htier⟩ := readRow_isTier hrow (v := .null) (b := none) rfl
      refine ⟨[], rfl, [tier], ?_, .cons htier .nil⟩
      show [(row, Json.null)].mapM (readRow texts) = _
      rw [List.mapM_cons, hread]
      rfl
    | @cons row' r' rows table hrow' _ =>
      obtain ⟨bounds, hbounds, tiers, htiers, hall⟩ := ih
      obtain ⟨v, hitem, hv⟩ := hrow'.bound
      obtain ⟨tier, hread, htier⟩ := readRow_isTier hrow (b := some r'.1) hv
      refine ⟨v :: bounds, ?_, tier :: tiers, ?_, .cons htier hall⟩
      · show (row' :: rows).mapM _ = _
        rw [List.mapM_cons, hitem]
        show (rows.mapM fun row => item row "lowerBound").bind _ = _
        rw [show rows.mapM (fun row => item row "lowerBound") = .ok bounds from hbounds]
        rfl
      · show ((row, v) :: (row' :: rows).zip (bounds ++ [.null])).mapM (readRow texts) = _
        rw [List.mapM_cons, hread]
        show (((row' :: rows).zip (bounds ++ [.null])).mapM (readRow texts)).bind _ = _
        rw [htiers]
        rfl

/-- What is found has a name. -/
lemma truthy_of_findAsset {coin : String} {rows : List Json} {asset : Json}
    (h : findAsset coin rows = .ok (some asset)) : asset.truthy = true := by
  induction rows with
  | nil => cases h
  | cons u rows ih =>
    unfold findAsset at h
    obtain ⟨name, hname, hrest⟩ := Fallible.bind_ok h
    by_cases hcoin : name.isStr coin = true
    · rw [if_pos hcoin] at hrest
      obtain rfl : u = asset := Option.some.inj (Except.ok.inj hrest)
      cases u with
      | obj fields =>
        cases fields with
        | nil =>
          obtain rfl : Json.null = name := Except.ok.inj hname
          cases hcoin
        | cons f fields => rfl
      | _ => cases hname
    · rw [if_neg hcoin] at hrest
      exact ih hrest

/-- The table that the venue lists for an asset: one row of its own, or the rows under its number. -/
inductive Lists (texts : Texts) (asset tables : Json) : List (ℚ × ℚ) → Prop where
  | flat (v leverage : Json) (l : ℚ) (hid : get asset "marginTableId" = .ok v)
      (hflat : ∀ tableId ∈ intOf v, tableId < 50) (hitem : get asset "maxLeverage" = .ok leverage)
      (hread : asFloat texts leverage = .ok (.finite l)) : Lists texts asset tables [(0, l)]
  | tiered (v : Json) (tableId : ℤ) (entries : List Json) (entry : Json) (rows : List Json)
      (table : List (ℚ × ℚ)) (hid : get asset "marginTableId" = .ok v)
      (hint : intOf v = some tableId) (htiered : 50 ≤ tableId) (htables : items tables = .ok entries)
      (hentry : entries.find? (isEntry tableId) = some entry) (hrows : rowsOf entry = .ok rows)
      (hread : List.Forall₂ (IsRow texts) rows table) : Lists texts asset tables table

lemma marginTiersOf_lists {texts : Texts} {asset tables : Json} {table : List (ℚ × ℚ)}
    (h : Lists texts asset tables table) :
    ∃ tiers, marginTiersOf texts asset tables = .ok tiers ∧
      List.Forall₂ IsTier tiers (Brackets.tiers table) := by
  cases h with
  | flat v leverage l hid hflat hitem hread =>
    have hnone : (intOf v).filter (fun tableId => decide (50 ≤ tableId)) = none := by
      rw [Option.filter_eq_none_iff]
      intro tableId hmem
      have := hflat tableId hmem
      simpa using this
    refine ⟨[⟨none, .finite l, none, none, none⟩], ?_, .cons ⟨rfl, rfl⟩ .nil⟩
    have hbuild : buildMarginTier texts .null leverage .null .null .null =
        .ok ⟨none, .finite l, none, none, none⟩ := build_isTier (b := none) rfl hread rfl rfl rfl
    unfold marginTiersOf
    simp only [hid, hnone, hitem, hbuild, bind, Except.bind]
    rfl
  | tiered v tableId entries entry rows table hid hint htiered htables hentry hrows hread =>
    have hsome : (intOf v).filter (fun tableId => decide (50 ≤ tableId)) = some tableId := by
      rw [hint]
      simp [htiered]
    obtain ⟨bounds, hbounds, tiers, htiers, hall⟩ := readRows hread
    refine ⟨tiers, ?_, hall⟩
    unfold marginTiersOf
    simp only [hid, hsome, htables, hentry, hrows, hbounds, bind, Except.bind]
    exact htiers

/-- `get_margin_tiers` of an asset that its dex lists: every position above the first bound of the
venue's table finds the leverage of the last row that it is above the bound of. -/
theorem leverage_kept (texts : Texts) (modelSym coin quote : String) (metas : String → Option Json)
    (metaAt : ℤ) (listing : Json) (hlisting : metas (dexOf coin) = some listing)
    (rows : List Json) (hrows : listing.item? "universe" = some (.arr rows)) (asset tables : Json)
    (hasset : findAsset coin rows = .ok (some asset))
    (htables : get listing "marginTables" = .ok tables) (table : List (ℚ × ℚ))
    (hlists : Lists texts asset tables table)
    (hsorted : table.Pairwise fun r r' => r.1 ≤ r'.1) :
    ∃ t, getMarginTiers texts .linear (.ok (modelSym, coin, quote)) metas metaAt = .ok t ∧
      t.timestamp = metaAt ∧ t.tiers.length = table.length ∧
      ∀ upTo : ℚ → Bool, (∀ b b', b ≤ b' → upTo b = true → upTo b' = true) →
        (∀ r ∈ table.head?, upTo r.1 = false) →
        leverageAt upTo t.tiers = (Brackets.inForce upTo table).map .finite := by
  obtain ⟨tiers, htiers, hall⟩ := marginTiersOf_lists hlists
  obtain ⟨fields, rfl⟩ : ∃ fields, listing = .obj fields := by
    cases listing with
    | obj fields => exact ⟨fields, rfl⟩
    | _ => cases hrows
  have hmeta : orEmpty (metas (dexOf coin)) = .obj fields := by
    rw [hlisting]
    cases fields with
    | nil => rfl
    | cons f fields => rfl
  have huniverse : (Json.obj fields).get? (.arr []) "universe" = some (.arr rows) := by
    show some ((Json.item? (.obj fields) "universe").getD (.arr [])) = _
    rw [hrows]
    rfl
  have htruthy : asset.truthy = true := truthy_of_findAsset hasset
  refine ⟨⟨modelSym, .linear, quote, "quote", tiers, metaAt⟩, ?_, rfl, ?_, ?_⟩
  · have hasked : assetTiers texts (.obj fields) (some asset) = .ok tiers := by
      unfold assetTiers
      simp only [Option.filter_some, htruthy, if_true, htables, bind, Except.bind]
      exact htiers
    unfold getMarginTiers
    simp only [hmeta, huniverse, iterate, hasset, hasked, bind, Except.bind]
    rfl
  · rw [hall.length_eq, Brackets.length_tiers]
  · intro upTo hup hfirst
    rw [leverageAt_eq hall, Brackets.covering_tiers hup hsorted hfirst]

/-- A table of two rows. -/
def twoRows : Json :=
  .arr [.num 56, .obj [("marginTiers", .arr [.obj [("lowerBound", .num 0), ("maxLeverage", .num 40)],
    .obj [("lowerBound", .num 150000000), ("maxLeverage", .num 20)]])]]

/-- A `meta` reply that lists BTC under a table of two rows. -/
def oneAsset : Json :=
  .obj [("universe", .arr [.obj [("name", .str "BTC"), ("marginTableId", .num 56)]]),
    ("marginTables", .arr [twoRows])]

theorem leverage_kept_sample :
    ∃ t, getMarginTiers noTexts .linear (.ok ("BTCUSDC", "BTC", "USDC")) (fun _ => some oneAsset) 5 =
        .ok t ∧
      t.tiers.length = 2 ∧
      leverageAt (fun b => decide (200000000 ≤ b)) t.tiers = some (.finite 20) := by
  have hlists : Lists noTexts (.obj [("name", .str "BTC"), ("marginTableId", .num 56)])
      (.arr [twoRows]) [(0, 40), (150000000, 20)] := by
    refine .tiered (.num 56) 56 [twoRows] twoRows _ _ rfl rfl (by decide) rfl ?_ rfl
      (.cons ⟨⟨_, rfl, rfl⟩, ⟨_, rfl, rfl⟩⟩ (.cons ⟨⟨_, rfl, rfl⟩, ⟨_, rfl, rfl⟩⟩ .nil))
    simp [twoRows, isEntry, Json.isInt]
  obtain ⟨t, ht, -, hlength, hleverage⟩ := leverage_kept noTexts "BTCUSDC" "BTC" "USDC"
    (fun _ => some oneAsset) 5 oneAsset rfl _ rfl _ _ rfl rfl _ hlists (by simp)
  refine ⟨t, ht, hlength, (hleverage _ ?_ ?_).trans ?_⟩
  · intro b b' hle hb
    simp only [decide_eq_true_eq] at hb ⊢
    linarith
  · simp
  · simp [Brackets.inForce]
    norm_num

end Hyperliquid

/-! ## Bybit -/

namespace Bybit

/-- The pages that the requests from this one on get, each with the cursor of the one before;
`whole`: the last of them has none. -/
inductive Pages (venue : ℕ → Option Json → Except Raised Json) :
    ℕ → Option Json → List (List Json) → Bool → Prop where
  | last (n : ℕ) (cursor : Option Json) (data v : Json) (page : List Json) (next : Json)
      (hdata : venue n cursor = .ok data) (hlist : get data "list" = .ok v)
      (hpage : items v = .ok page) (hnext : get data "nextPageCursor" = .ok next) :
      Pages venue n cursor [page] !next.truthy
  | more (n : ℕ) (cursor : Option Json) (data v : Json) (page : List Json) (next : Json)
      (pages : List (List Json)) (whole : Bool) (hdata : venue n cursor = .ok data)
      (hlist : get data "list" = .ok v) (hpage : items v = .ok page)
      (hnext : get data "nextPageCursor" = .ok next) (htruthy : next.truthy = true)
      (hpages : Pages venue (n + 1) (some next) pages whole) :
      Pages venue n cursor (page :: pages) whole

/-- The loop collects the rows of the pages that it may ask for. -/
lemma walk_pages {venue : ℕ → Option Json → Except Raised Json} {n : ℕ} {cursor : Option Json}
    {pages : List (List Json)} {whole : Bool} (h : Pages venue n cursor pages whole) {left : ℕ}
    (hleft : whole = true ∧ pages.length ≤ left ∨ pages.length = left) (rows : List Json) :
    walk venue n left rows cursor = .ok (rows ++ pages.flatten) := by
  induction h generalizing left rows with
  | last n cursor data v page next hdata hlist hpage hnext =>
    obtain ⟨left, rfl⟩ : ∃ k, left = k + 1 := by
      cases left with
      | zero => simp at hleft
      | succ k => exact ⟨k, rfl⟩
    unfold walk
    simp only [hdata, hlist, hpage, hnext, bind, Except.bind]
    cases htruthy : next.truthy with
    | false =>
      rw [if_neg (by simp)]
      simp [pure, Except.pure]
    | true =>
      -- the tenth page: the loop ends with a cursor still set
      have hzero : left = 0 := by
        rw [htruthy] at hleft
        simpa using hleft
      rw [if_pos rfl, hzero]
      simp [walk]
  | more n cursor data v page next pages whole hdata hlist hpage hnext htruthy _ ih =>
    obtain ⟨left, rfl⟩ : ∃ k, left = k + 1 := by
      cases left with
      | zero => simp at hleft
      | succ k => exact ⟨k, rfl⟩
    unfold walk
    simp only [hdata, hlist, hpage, hnext, bind, Except.bind]
    rw [if_pos htruthy, ih (by simpa using hleft)]
    simp

/-- A row of `risk-limit`: the size that it goes up to, and its leverage. -/
structure IsRow (texts : Texts) (row : Json) (r : Option ℚ × ℚ) : Prop where
  upTo : ∃ v, get row "riskLimitValue" = .ok v ∧ optionalFloat texts v = .ok (r.1.map .finite)
  leverage : ∃ v, get row "maxLeverage" = .ok v ∧ asFloat texts v = .ok (.finite r.2)
  maintenance : ∃ v x, get row "maintenanceMargin" = .ok v ∧ optionalFloat texts v = .ok x
  initial : ∃ v x, get row "initialMargin" = .ok v ∧ optionalFloat texts v = .ok x
  deduction : ∃ v x, get row "mmDeduction" = .ok v ∧ optionalFloat texts v = .ok x

lemma readRow_isTier {texts : Texts} {row : Json} {r : Option ℚ × ℚ} (h : IsRow texts row r) :
    ∃ tier, readRow texts row = .ok tier ∧ IsTier tier r := by
  obtain ⟨upTo, hupTo, hreadUpTo⟩ := h.upTo
  obtain ⟨leverage, hleverage, hreadLeverage⟩ := h.leverage
  obtain ⟨mmr, m, hmmr, hreadMmr⟩ := h.maintenance
  obtain ⟨imr, i, himr, hreadImr⟩ := h.initial
  obtain ⟨deduction, d, hdeduction, hreadDeduction⟩ := h.deduction
  refine ⟨⟨r.1.map .finite, .finite r.2, m, i, d⟩, ?_, rfl, rfl⟩
  unfold readRow
  simp only [hupTo, hleverage, hmmr, himr, hdeduction, bind, Except.bind]
  exact build_isTier hreadUpTo hreadLeverage hreadMmr hreadImr hreadDeduction

/-- The walk ends with the rows of the pages in their order, all of them where there are no more than
ten, and else those of the first ten, whatever they hold. Where they can be read as the rows of a
table, the tiers of a fresh fetch are that table, and every position finds the leverage of the first
of its rows that it is in. -/
theorem pages_kept (texts : Texts) (marketType : MarketType) (hspot : marketType ≠ .spot)
    (symbol quoteAsset : String) (readAt : ℤ) (venue : ℕ → Option Json → Except Raised Json)
    (pages : List (List Json)) (whole : Bool) (hpages : Pages venue 0 none pages whole)
    (hcount : whole = true ∧ pages.length ≤ 10 ∨ pages.length = 10) :
    walk venue 0 10 [] none = .ok pages.flatten ∧
      ∀ table : List (Option ℚ × ℚ), List.Forall₂ (IsRow texts) pages.flatten table →
        ∃ t, getMarginTiers marketType (.ok (symbol, quoteAsset))
            ((fetch texts venue).map fun tiers => (tiers, readAt)) = .ok t ∧
          List.Forall₂ IsTier t.tiers table ∧
          ∀ upTo, leverageAt upTo t.tiers = (Brackets.covering upTo table).map .finite := by
  have hwalk : walk venue 0 10 [] none = .ok pages.flatten := walk_pages hpages hcount []
  refine ⟨hwalk, fun table hrows => ?_⟩
  obtain ⟨tiers, hread, hall⟩ := Fallible.exists_mapM (hrows.imp fun _ _ => readRow_isTier)
  have hfetch : fetch texts venue = .ok tiers := by
    unfold fetch
    rw [hwalk]
    exact hread
  refine ⟨⟨symbol, marketType, quoteAsset, if marketType = .linear then "quote" else "base", tiers,
    readAt⟩, ?_, hall, fun upTo => leverageAt_eq hall⟩
  unfold getMarginTiers
  rw [if_neg hspot, hfetch]
  rfl

/-- Two pages of `risk-limit`: the second is asked for with the cursor of the first. -/
def twoPages (_ : ℕ) (cursor : Option Json) : Except Raised Json :=
  match cursor with
  | none => .ok (.obj [("list", .arr [.obj [("riskLimitValue", .num 150), ("maxLeverage", .num 100)]]),
    ("nextPageCursor", .str "next")])
  | some _ => .ok (.obj [("list", .arr [.obj [("riskLimitValue", .num 300), ("maxLeverage", .num 66),
    ("mmDeduction", .str "")]]), ("nextPageCursor", .str "")])

theorem pages_kept_sample :
    (∃ rows, walk twoPages 0 10 [] none = .ok rows ∧ rows.length = 2) ∧
      ∃ t, getMarginTiers .inverse (.ok ("BTCUSD", "USD"))
          ((fetch noTexts twoPages).map fun tiers => (tiers, 5)) = .ok t ∧
        List.Forall₂ IsTier t.tiers [(some 150, 100), (some 300, 66)] ∧
        leverageAt (fun b => decide (200 ≤ b)) t.tiers = some (.finite 66) := by
  have hpages : Pages twoPages 0 none
      [[.obj [("riskLimitValue", .num 150), ("maxLeverage", .num 100)]],
        [.obj [("riskLimitValue", .num 300), ("maxLeverage", .num 66), ("mmDeduction", .str "")]]]
      true :=
    .more 0 none _ _ _ (.str "next") _ _ rfl rfl rfl rfl rfl
      (.last 1 (some (.str "next")) _ _ _ (.str "") rfl rfl rfl rfl)
  have hrows : List.Forall₂ (IsRow noTexts)
      [.obj [("riskLimitValue", .num 150), ("maxLeverage", .num 100)],
        .obj [("riskLimitValue", .num 300), ("maxLeverage", .num 66), ("mmDeduction", .str "")]]
      [(some 150, 100), (some 300, 66)] := by
    refine .cons ⟨⟨_, rfl, rfl⟩, ⟨_, rfl, rfl⟩, ⟨_, _, rfl, rfl⟩, ⟨_, _, rfl, rfl⟩, ⟨_, _, rfl, rfl⟩⟩
      (.cons ⟨⟨_, rfl, rfl⟩, ⟨_, rfl, rfl⟩, ⟨_, _, rfl, rfl⟩, ⟨_, _, rfl, rfl⟩, ⟨_, _, rfl, rfl⟩⟩ .nil)
  obtain ⟨hwalk, htiers⟩ := pages_kept noTexts .inverse (by simp) "BTCUSD" "USD" 5
    twoPages _ true hpages (.inl ⟨rfl, by decide⟩)
  obtain ⟨t, ht, hall, hleverage⟩ := htiers _ hrows
  refine ⟨⟨_, hwalk, rfl⟩, t, ht, hall, (hleverage _).trans ?_⟩
  simp [Brackets.covering]
  norm_num

end Bybit

/-! ## OKX -/

namespace Okx

open SideCaches (round12 roundHalfEven)

/-- A row of `position-tiers`: the contracts that it goes up to, and its leverage. -/
structure IsRow (texts : Texts) (row : Json) (r : Option ℚ × ℚ) : Prop where
  upTo : ∃ v, get row "maxSz" = .ok v ∧ optionalFloat texts v = .ok (r.1.map .finite)
  leverage : ∃ v, get row "maxLever" = .ok v ∧ asFloat texts v = .ok (.finite r.2)
  maintenance : ∃ v x, get row "mmr" = .ok v ∧ optionalFloat texts v = .ok x
  initial : ∃ v x, get row "imr" = .ok v ∧ optionalFloat texts v = .ok x

lemma readRow_isTier {texts : Texts} (multiplier : ℚ) {row : Json} {r : Option ℚ × ℚ}
    (h : IsRow texts row r) :
    ∃ tier, readRow texts .linear multiplier row = .ok tier ∧
      IsTier tier (r.1.map fun b => round12 (b * multiplier), r.2) := by
  obtain ⟨upTo, hupTo, hreadUpTo⟩ := h.upTo
  obtain ⟨leverage, hleverage, hreadLeverage⟩ := h.leverage
  obtain ⟨mmr, m, hmmr, hreadMmr⟩ := h.maintenance
  obtain ⟨imr, i, himr, hreadImr⟩ := h.initial
  have hnull : optionalFloat texts .null = .ok none := rfl
  have hbuild := build_isTier hreadUpTo hreadLeverage hreadMmr hreadImr hnull
  refine ⟨⟨(r.1.map .finite).map (scale multiplier), .finite r.2, m, i, none⟩, ?_, ?_, rfl⟩
  · unfold readRow
    simp only [hupTo, hleverage, hmmr, himr, hbuild, bind, Except.bind, if_true]
    rfl
  · show (r.1.map .finite).map (scale multiplier) = (r.1.map _).map .finite
    cases r.1 <;> rfl

lemma abs_roundHalfEven_sub (x : ℚ) : |(roundHalfEven x : ℚ) - x| ≤ 1 / 2 := by
  have hle := Int.floor_le x
  have hlt := Int.lt_floor_add_one x
  unfold roundHalfEven
  rw [abs_le]
  split
  · constructor <;> linarith
  · split
    · push_cast
      constructor <;> linarith
    · have hhalf : x - ⌊x⌋ = 1 / 2 := by linarith
      split
      · constructor <;> linarith
      · push_cast
        constructor <;> linarith

/-- Twelve digits are off by half of the last one. -/
lemma abs_round12_sub (x : ℚ) : |round12 x - x| ≤ 1 / (2 * 10 ^ 12) := by
  have h := abs_roundHalfEven_sub (x * 10 ^ 12)
  rw [abs_le] at h ⊢
  unfold round12
  have hpow : (0 : ℚ) < 10 ^ 12 := by norm_num
  have heq : (roundHalfEven (x * 10 ^ 12) : ℚ) / 10 ^ 12 - x =
      ((roundHalfEven (x * 10 ^ 12) : ℚ) - x * 10 ^ 12) / 10 ^ 12 := by
    field_simp
  rw [heq, le_div_iff₀ hpow, div_le_iff₀ hpow]
  constructor
  · calc -(1 / (2 * 10 ^ 12)) * 10 ^ 12 = (-(1 / 2) : ℚ) := by norm_num
      _ ≤ _ := h.1
  · calc _ ≤ (1 / 2 : ℚ) := h.2
      _ = 1 / (2 * 10 ^ 12) * 10 ^ 12 := by norm_num

/-- A number of contracts that is no closer to a bound than the rounding is up to the rounded bound
in the base asset where it is up to the bound. -/
lemma le_round12_iff {multiplier : ℚ} (hpos : 0 < multiplier) {contracts b : ℚ}
    (hfar : 1 / (2 * 10 ^ 12) < |contracts * multiplier - b * multiplier|) :
    contracts * multiplier ≤ round12 (b * multiplier) ↔ contracts ≤ b := by
  obtain ⟨hbelow, habove⟩ := abs_le.mp (abs_round12_sub (b * multiplier))
  constructor
  · intro hle
    by_contra hlt
    have hscaled : b * multiplier < contracts * multiplier :=
      mul_lt_mul_of_pos_right (not_le.mp hlt) hpos
    rw [abs_of_pos (by linarith)] at hfar
    linarith
  · intro hle
    have hscaled : contracts * multiplier ≤ b * multiplier :=
      mul_le_mul_of_nonneg_right hle hpos.le
    rw [abs_of_nonpos (by linarith)] at hfar
    linarith

/-- `get_margin_tiers` of a fresh fetch on a linear market, its products exact: a position of any
number of contracts whose size is not within the rounding of a bound finds, under its size in the
base asset, the leverage of the first of the venue's rows that has room for so many contracts. -/
theorem scaled_kept (texts : Texts) (modelSym quoteAsset : String) (multiplier : ℚ)
    (hpos : 0 < multiplier) (readAt : ℤ) (rows : List Json) (table : List (Option ℚ × ℚ))
    (hrows : List.Forall₂ (IsRow texts) rows table) :
    ∃ t, getMarginTiers texts .linear (.ok (modelSym, quoteAsset)) (.ok (some multiplier)) (.ok rows)
        (fun fetched => fetched.map fun tiers => (tiers, readAt)) = .ok t ∧
      t.upToUnit = "base" ∧ t.tiers.length = table.length ∧
      ∀ contracts : ℚ, (∀ r ∈ table, ∀ b ∈ r.1,
          1 / (2 * 10 ^ 12) < |contracts * multiplier - b * multiplier|) →
        leverageAt (fun b => decide (contracts * multiplier ≤ b)) t.tiers =
          (Brackets.covering (fun b => decide (contracts ≤ b)) table).map .finite := by
  have hscaled : List.Forall₂ (fun row t => ∃ tier, readRow texts .linear multiplier row = .ok tier ∧
      IsTier tier t) rows
      (table.map fun r => (r.1.map fun b => round12 (b * multiplier), r.2)) := by
    rw [List.forall₂_map_right_iff]
    exact hrows.imp fun row r h => readRow_isTier multiplier h
  obtain ⟨tiers, hread, hall⟩ := Fallible.exists_mapM hscaled
  refine ⟨⟨modelSym, .linear, quoteAsset, "base", tiers, readAt⟩, ?_, rfl, ?_, fun contracts hfar => ?_⟩
  · have hfetch : fetch texts .linear multiplier rows = .ok tiers := hread
    show (((fetch texts .linear multiplier rows).map fun tiers => (tiers, readAt)).bind _) = _
    rw [hfetch]
    rfl
  · rw [← List.length_map (f := fun r : Option ℚ × ℚ =>
      (r.1.map fun b => round12 (b * multiplier), r.2)), ← hall.length_eq]
  · rw [leverageAt_eq hall]
    refine congrArg (Option.map PyFloat.finite) (Brackets.covering_map fun r hr b hb => ?_)
    exact decide_eq_decide.mpr (le_round12_iff hpos (hfar r hr b hb))

theorem scaled_kept_sample :
    ∃ t, getMarginTiers noTexts .linear (.ok ("BTCUSDT", "USDT")) (.ok (some (1 / 100)))
        (.ok [.obj [("maxSz", .num 1000), ("maxLever", .num 100)],
          .obj [("maxSz", .num 5000), ("maxLever", .num 66)]])
        (fun fetched => fetched.map fun tiers => (tiers, 5)) = .ok t ∧
      leverageAt (fun b => decide (1001 * (1 / 100) ≤ b)) t.tiers = some (.finite 66) := by
  have hrows : List.Forall₂ (IsRow noTexts)
      [.obj [("maxSz", .num 1000), ("maxLever", .num 100)],
        .obj [("maxSz", .num 5000), ("maxLever", .num 66)]] [(some 1000, 100), (some 5000, 66)] := by
    refine .cons ⟨⟨_, rfl, rfl⟩, ⟨_, rfl, rfl⟩, ⟨_, _, rfl, rfl⟩, ⟨_, _, rfl, rfl⟩⟩
      (.cons ⟨⟨_, rfl, rfl⟩, ⟨_, rfl, rfl⟩, ⟨_, _, rfl, rfl⟩, ⟨_, _, rfl, rfl⟩⟩ .nil)
  obtain ⟨t, ht, -, -, hleverage⟩ := scaled_kept noTexts "BTCUSDT" "USDT" (1 / 100) (by norm_num) 5
    _ _ hrows
  refine ⟨t, ht, (hleverage 1001 ?_).trans ?_⟩
  · simp only [List.mem_cons, List.not_mem_nil, or_false, forall_eq_or_imp, forall_eq,
      Option.mem_some_iff, forall_eq']
    norm_num [abs_of_pos, abs_of_neg]
  · simp [Brackets.covering]
    norm_num

end Okx

end MarginTiers
end ExchangeRouter
