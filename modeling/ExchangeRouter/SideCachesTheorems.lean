import ExchangeRouter.CachesTheorems
import ExchangeRouter.SideCaches

/-!
# The side caches and the metadata that is served

`Agrees` is the promise: what a market's caches hold is what the fetch computed that made the map
being served. The two caches are written row by row and never cleared, so a refresh that fails in
the middle of its rows leaves values of a map that is never served, and one that succeeds leaves
the values of symbols it has not listed. `side_caches_agree_iff` says that there is no other way
to lose the promise.
-/

namespace ExchangeRouter
namespace SideCaches

/-! ## What the rows of a fetch compute -/

/-- The rows that are read to their writes, with what they write. -/
def written : List RowRead → List (String × Option ℚ × Option ℤ)
  | [] => []
  | .skipped :: rows => written rows
  | .raised _ :: _ => []
  | .listed symbol multiplier interval (.error _) :: _ => [(symbol, multiplier, interval)]
  | .listed symbol multiplier interval (.ok _) :: rows =>
    (symbol, multiplier, interval) :: written rows

/-- The multipliers that were written, in their order. -/
def multipliers (rows : List RowRead) : List (String × Option ℚ) :=
  (written rows).map fun w => (w.1, w.2.1)

/-- The intervals that were written, in their order. -/
def intervals (rows : List RowRead) : List (String × Option ℤ) :=
  (written rows).map fun w => (w.1, w.2.2)

/-- The values that the rows compute: of two for a symbol the later one. -/
def valuesOf (rows : List RowRead) : Values where
  multiplier := Overwrite.last (multipliers rows)
  interval := Overwrite.last (intervals rows)

/-- One of the rows raises. -/
def raises : List RowRead → Bool
  | [] => false
  | .skipped :: rows => raises rows
  | .raised _ :: _ => true
  | .listed _ _ _ (.error _) :: _ => true
  | .listed _ _ _ (.ok _) :: rows => raises rows

/-- The loop writes what the rows compute over what is there. -/
lemma listRows_fst (v : Values) (rows : List RowRead) :
    (listRows v rows).1 = ⟨Overwrite.writeAll v.multiplier (multipliers rows),
      Overwrite.writeAll v.interval (intervals rows)⟩ := by
  induction rows generalizing v with
  | nil => rfl
  | cons row rows ih =>
    cases row with
    | skipped => exact ih v
    | raised e => rfl
    | listed symbol multiplier interval info =>
      cases info with
      | error e => rfl
      | ok info => exact ih (v.write symbol multiplier interval)

/-- What the loop returns does not depend on the caches. -/
lemma listRows_snd (v v' : Values) (rows : List RowRead) :
    (listRows v rows).2 = (listRows v' rows).2 := by
  induction rows generalizing v v' with
  | nil => rfl
  | cons row rows ih =>
    cases row with
    | skipped => exact ih v v'
    | raised e => rfl
    | listed symbol multiplier interval info =>
      cases info with
      | error e => rfl
      | ok info =>
        show ((listRows (v.write symbol multiplier interval) rows).2.map _) = _
        rw [ih _ (v'.write symbol multiplier interval)]
        rfl

/-- The loop raises exactly where one of its rows does. -/
lemma raises_eq (v : Values) (rows : List RowRead) :
    raises rows = !(listRows v rows).2.isOk := by
  induction rows generalizing v with
  | nil => rfl
  | cons row rows ih =>
    cases row with
    | skipped => exact ih v
    | raised e => rfl
    | listed symbol multiplier interval info =>
      cases info with
      | error e => rfl
      | ok info =>
        have hrest := ih (v.write symbol multiplier interval)
        show raises rows = !((listRows (v.write symbol multiplier interval) rows).2.map
          fun infos => info :: infos).isOk
        rw [hrest]
        cases (listRows (v.write symbol multiplier interval) rows).2 <;> rfl

/-! ## The promise -/

section

variable {ω : Type} (feed : Feed ω)

/-- The values that a fetch with that reply computes. -/
def computed (marketType : MarketType) (reply : ω) : Values :=
  match feed marketType reply with
  | .error _ => {}
  | .ok rows => valuesOf rows

/-- For every market with metadata: the caches hold for each symbol the value that the fetch
computed which made the map being served, and nothing where it computed none. -/
def Agrees (s : State ω) : Prop :=
  ∀ m r, s.produced m = some r → s.sides m = computed feed m r

/-- The map being served is the one that the fetch returned. -/
def Serves (s : State ω) : Prop :=
  ∀ m, match s.produced m with
    | none => s.base.store.infoCache m = none
    | some r => ∃ infos, (fetchExchangeInfo feed m r {}).2 = .ok infos ∧
        s.base.store.infoCache m = some (Caches.bySymbol (fun info => info.symbol) infos)

/-- No symbol that has a value in a cache goes without one in the rows. -/
def Covers (rows : List RowRead) (v : Values) : Prop :=
  (∀ symbol, v.multiplier symbol ≠ none → (valuesOf rows).multiplier symbol ≠ none) ∧
    ∀ symbol, v.interval symbol ≠ none → (valuesOf rows).interval symbol ≠ none

/-- The values of the rows are there already. -/
def Repeats (rows : List RowRead) (v : Values) : Prop :=
  (∀ symbol x, (valuesOf rows).multiplier symbol = some x → v.multiplier symbol = some x) ∧
    ∀ symbol x, (valuesOf rows).interval symbol = some x → v.interval symbol = some x

/-- The condition on an event: rows that are all read cover the caches, and rows of which one
raises, while there is a map to serve, repeat what is there up to it. -/
def Clean (s : State ω) : Event ω → Prop
  | .ends (.reply r _) => ∀ f, (s.base.locks ()).fetching = some f →
      ∀ rows, feed f.key r = .ok rows →
        (raises rows = false → Covers rows (s.sides f.key)) ∧
        (raises rows = true → s.base.store.infoCache f.key ≠ none →
          Repeats rows (s.sides f.key))
  | _ => True

end

/-- Rows leave just their own values exactly when they cover what is there. -/
lemma listRows_fst_eq_iff (v : Values) (rows : List RowRead) :
    (listRows v rows).1 = valuesOf rows ↔ Covers rows v := by
  rw [listRows_fst, valuesOf, Values.mk.injEq, Overwrite.writeAll_eq_last_iff,
    Overwrite.writeAll_eq_last_iff]
  rfl

/-- Rows leave the caches as they are exactly when they repeat them. -/
lemma listRows_fst_self_iff (v : Values) (rows : List RowRead) :
    (listRows v rows).1 = v ↔ Repeats rows v := by
  cases v with
  | mk multiplier interval =>
    rw [listRows_fst, Values.mk.injEq, Overwrite.writeAll_eq_self_iff,
      Overwrite.writeAll_eq_self_iff]
    rfl

/-! ## One event -/

section

variable {b b' : Base} {f : Caches.Fetch MarketType (String → Option InstrumentInfo)}

/-- Only a fetch that succeeds commits a map. -/
lemma infoCache_quiet {e : Caches.Event MarketType Unit (List InstrumentInfo)}
    (h : Caches.ensureInfoCache (fun info => info.symbol) b e = some b')
    (hquiet : ∀ infos wall, e ≠ .ends () (.fetched infos wall)) :
    b'.store.infoCache = b.store.infoCache := by
  cases e with
  | call key =>
    simp only [Caches.ensureInfoCache, Caches.step] at h
    split at h
    · rw [← Option.some.inj h, Caches.store_enter]
    · rw [← Option.some.inj h]
      rfl
  | turn l =>
    simp only [Caches.ensureInfoCache, Caches.step] at h
    split at h
    · rw [← Option.some.inj h, Caches.store_enter]
      rfl
    · exact absurd h (by simp)
  | ends l outcome =>
    simp only [Caches.ensureInfoCache, Caches.step] at h
    split at h
    · rw [← Option.some.inj h]
      cases outcome with
      | fetched infos wall => exact absurd rfl (hquiet infos wall)
      | cancelled => rfl
      | failed =>
        unfold Caches.State.finish
        dsimp only
        split <;> rfl
    · exact absurd h (by simp)
  | cancel l call =>
    rw [← Option.some.inj h]
    rfl
  | tick now =>
    simp only [Caches.ensureInfoCache, Caches.step] at h
    split at h
    · rw [← Option.some.inj h]
    · exact absurd h (by simp)

/-- The map of a fetch that succeeds. -/
lemma infoCache_fetched {infos : List InstrumentInfo} {wall : ℚ}
    (hf : (b.locks ()).fetching = some f)
    (h : Caches.ensureInfoCache (fun info => info.symbol) b (.ends () (.fetched infos wall)) =
      some b') :
    b'.store.infoCache = Function.update b.store.infoCache f.key
      (some (Caches.bySymbol (fun info => info.symbol) infos)) := by
  simp only [Caches.ensureInfoCache, Caches.step, hf, Option.some.injEq] at h
  rw [← h]
  rfl

end

section

variable {ω : Type} {feed : Feed ω} {s s' : State ω}

lemma follow_some {e : Caches.Event MarketType Unit (List InstrumentInfo)}
    (h : s.follow e = some s') :
    Caches.ensureInfoCache (fun info => info.symbol) s.base e = some s'.base ∧
      s'.sides = s.sides ∧ s'.produced = s.produced := by
  obtain ⟨base, hbase, hs⟩ := Option.map_eq_some_iff.mp h
  rw [← hs]
  exact ⟨hbase, rfl, rfl⟩

/-- An event that is not a reply changes neither the caches nor the maps. -/
structure Quiet (s s' : State ω) : Prop where
  sides : s'.sides = s.sides
  produced : s'.produced = s.produced
  infoCache : s'.base.store.infoCache = s.base.store.infoCache

/-- What a reply to the fetch `f` does: its rows are written, and a map is committed when none
of them has raised. -/
structure Replied (feed : Feed ω) (s s' : State ω)
    (f : Caches.Fetch MarketType (String → Option InstrumentInfo)) (r : ω) : Prop where
  sides : s'.sides = Function.update s.sides f.key
    (fetchExchangeInfo feed f.key r (s.sides f.key)).1
  result : (∃ e, (fetchExchangeInfo feed f.key r (s.sides f.key)).2 = .error e ∧
      s'.produced = s.produced ∧ s'.base.store.infoCache = s.base.store.infoCache) ∨
    ∃ infos, (fetchExchangeInfo feed f.key r (s.sides f.key)).2 = .ok infos ∧
      s'.produced = Function.update s.produced f.key (some r) ∧
      s'.base.store.infoCache = Function.update s.base.store.infoCache f.key
        (some (Caches.bySymbol (fun info => info.symbol) infos))

/-- Everything an event can do. -/
lemma step_cases {e : Event ω} (h : step feed s e = some s') :
    (Quiet s s' ∧ ∀ r wall, e ≠ .ends (.reply r wall)) ∨
    ∃ r wall f, e = .ends (.reply r wall) ∧ (s.base.locks ()).fetching = some f ∧
      Replied feed s s' f r := by
  have hquiet : ∀ {e : Caches.Event MarketType Unit (List InstrumentInfo)},
      s.follow e = some s' → (∀ infos wall, e ≠ .ends () (.fetched infos wall)) →
      Quiet s s' := by
    intro e hfollow he
    obtain ⟨hbase, hsides, hproduced⟩ := follow_some hfollow
    exact ⟨hsides, hproduced, infoCache_quiet hbase he⟩
  cases e with
  | call m => exact Or.inl ⟨hquiet h (by simp), by simp⟩
  | turn => exact Or.inl ⟨hquiet h (by simp), by simp⟩
  | cancel call => exact Or.inl ⟨hquiet h (by simp), by simp⟩
  | tick now => exact Or.inl ⟨hquiet h (by simp), by simp⟩
  | ends answer =>
    cases answer with
    | cancelled => exact Or.inl ⟨hquiet h (by simp), by simp⟩
    | reply r wall =>
      simp only [step] at h
      cases hf : (s.base.locks ()).fetching with
      | none => simp [hf] at h
      | some f =>
        refine Or.inr ⟨r, wall, f, rfl, rfl, ?_⟩
        simp only [hf] at h
        cases hrun : (fetchExchangeInfo feed f.key r (s.sides f.key)).2 with
        | error e =>
          simp only [hrun] at h
          obtain ⟨hbase, hsides, hproduced⟩ := follow_some h
          exact ⟨hsides, Or.inl ⟨e, hrun, hproduced, infoCache_quiet hbase (by simp)⟩⟩
        | ok infos =>
          simp only [hrun] at h
          obtain ⟨hbase, hsides, hproduced⟩ := follow_some h
          exact ⟨hsides, Or.inr ⟨infos, hrun, hproduced, infoCache_fetched hf hbase⟩⟩

/-- A reply without a fetch cannot come, and no other event has a condition. -/
lemma clean_of_none {e : Event ω} (h : step feed s e = none) : Clean feed s e := by
  cases e with
  | ends answer =>
    cases answer with
    | cancelled => trivial
    | reply r wall =>
      intro f hf
      simp only [step, hf] at h
      split at h
      · simp [State.follow, Caches.ensureInfoCache, Caches.step, hf] at h
      · simp [State.follow, Caches.ensureInfoCache, Caches.step, hf] at h
  | _ => trivial

/-! ## What an event keeps -/

lemma fetchExchangeInfo_snd (m : MarketType) (r : ω) (v v' : Values) :
    (fetchExchangeInfo feed m r v).2 = (fetchExchangeInfo feed m r v').2 := by
  unfold fetchExchangeInfo
  split
  · rfl
  · exact listRows_snd v v' _

/-- The map being served is always that of the fetch that is noted. -/
lemma Serves.preserved (h : Serves feed s) {e : Event ω} (hstep : step feed s e = some s') :
    Serves feed s' := by
  intro m
  rcases step_cases hstep with ⟨hquiet, -⟩ | ⟨r, wall, f, -, -, hreplied⟩
  · rw [hquiet.produced, hquiet.infoCache]
    exact h m
  rcases hreplied.result with ⟨e, -, hproduced, hcache⟩ | ⟨infos, hinfos, hproduced, hcache⟩
  · rw [hproduced, hcache]
    exact h m
  · rw [hproduced, hcache]
    by_cases hm : m = f.key
    · subst hm
      rw [Function.update_self, Function.update_self]
      refine ⟨infos, ?_, rfl⟩
      rw [fetchExchangeInfo_snd _ _ _ (s.sides f.key)]
      exact hinfos
    · rw [Function.update_of_ne hm, Function.update_of_ne hm]
      exact h m

/-- Another market's caches and fetches are not touched, so the promise is about the market of
the fetch. -/
lemma agrees_iff_of_others {m : MarketType} (h : Agrees feed s)
    (hothers : ∀ m', m' ≠ m → s'.sides m' = s.sides m' ∧ s'.produced m' = s.produced m') :
    Agrees feed s' ↔ ∀ r, s'.produced m = some r → s'.sides m = computed feed m r := by
  constructor
  · exact fun hall r hr => hall m r hr
  · intro hm m' r hr
    by_cases hkey : m' = m
    · subst hkey
      exact hm r hr
    · obtain ⟨hsides, hproduced⟩ := hothers m' hkey
      rw [hsides]
      exact h m' r (hproduced ▸ hr)

/-- Rows of which one raises. -/
lemma agrees_iff_of_error (hserves : Serves feed s) (hagrees : Agrees feed s)
    {f : Caches.Fetch MarketType (String → Option InstrumentInfo)} {rows : List RowRead}
    (hraises : raises rows = true) (hproduced : s'.produced = s.produced)
    (hsides : s'.sides = Function.update s.sides f.key (listRows (s.sides f.key) rows).1) :
    Agrees feed s' ↔ (raises rows = false → Covers rows (s.sides f.key)) ∧
      (raises rows = true → s.base.store.infoCache f.key ≠ none →
        Repeats rows (s.sides f.key)) := by
  have hothers : ∀ m', m' ≠ f.key →
      s'.sides m' = s.sides m' ∧ s'.produced m' = s.produced m' := by
    intro m' hm'
    rw [hsides, hproduced, Function.update_of_ne hm']
    exact ⟨rfl, rfl⟩
  rw [agrees_iff_of_others hagrees hothers, hsides, hproduced, Function.update_self, hraises]
  have hmap := hserves f.key
  cases hr : s.produced f.key with
  | none =>
    rw [hr] at hmap
    simp [hmap]
  | some r =>
    rw [hr] at hmap
    obtain ⟨infos, -, hmap⟩ := hmap
    -- what the served fetch computed is what was there before
    have hbefore : s.sides f.key = computed feed f.key r := hagrees f.key r hr
    have hrepeats := listRows_fst_self_iff (s.sides f.key) rows
    constructor
    · intro hafter
      refine ⟨fun habsurd => absurd habsurd (by simp), fun _ _ => hrepeats.mp ?_⟩
      rw [hafter r rfl, hbefore]
    · rintro ⟨-, hclean⟩ r' hr'
      obtain rfl : r = r' := Option.some.inj hr'
      rw [← hbefore]
      apply hrepeats.mpr
      apply hclean rfl
      rw [hmap]
      exact Option.some_ne_none _

/-- Rows that are all read. -/
lemma agrees_iff_of_ok (hagrees : Agrees feed s)
    {f : Caches.Fetch MarketType (String → Option InstrumentInfo)} {r : ω} {rows : List RowRead}
    (hrows : feed f.key r = .ok rows) (hraises : raises rows = false)
    (hproduced : s'.produced = Function.update s.produced f.key (some r))
    (hsides : s'.sides = Function.update s.sides f.key (listRows (s.sides f.key) rows).1) :
    Agrees feed s' ↔ (raises rows = false → Covers rows (s.sides f.key)) ∧
      (raises rows = true → s.base.store.infoCache f.key ≠ none →
        Repeats rows (s.sides f.key)) := by
  have hothers : ∀ m', m' ≠ f.key →
      s'.sides m' = s.sides m' ∧ s'.produced m' = s.produced m' := by
    intro m' hm'
    rw [hsides, hproduced, Function.update_of_ne hm', Function.update_of_ne hm']
    exact ⟨rfl, rfl⟩
  have hvalues : computed feed f.key r = valuesOf rows := by
    unfold computed
    rw [hrows]
  rw [agrees_iff_of_others hagrees hothers, hsides, hproduced, Function.update_self,
    Function.update_self, hraises]
  have hcovers := listRows_fst_eq_iff (s.sides f.key) rows
  constructor
  · intro hafter
    refine ⟨fun _ => hcovers.mp ?_, fun habsurd => absurd habsurd (by simp)⟩
    rw [hafter r rfl, hvalues]
  · rintro ⟨hclean, -⟩ r' hr'
    obtain rfl : r = r' := Option.some.inj hr'
    rw [hvalues]
    exact hcovers.mpr (hclean rfl)

/-- One event keeps the promise exactly when it is clean. -/
theorem agrees_iff_clean (hserves : Serves feed s) (hagrees : Agrees feed s) {e : Event ω}
    (hstep : step feed s e = some s') : Agrees feed s' ↔ Clean feed s e := by
  rcases step_cases hstep with ⟨hquiet, hother⟩ | ⟨r, wall, f, rfl, hf, hreplied⟩
  · have hclean : Clean feed s e := by
      cases e with
      | ends answer =>
        cases answer with
        | cancelled => trivial
        | reply r wall => exact absurd rfl (hother r wall)
      | _ => trivial
    refine iff_of_true (fun m r hr => ?_) hclean
    rw [hquiet.sides]
    exact hagrees m r (hquiet.produced ▸ hr)
  have hsides := hreplied.sides
  have hresult := hreplied.result
  unfold fetchExchangeInfo at hsides hresult
  cases hrows : feed f.key r with
  | error e =>
    -- nothing is written
    simp only [hrows, Function.update_eq_self] at hsides hresult
    refine iff_of_true (fun m r' hr' => ?_) ?_
    · rcases hresult with ⟨-, -, hproduced, -⟩ | ⟨infos, hinfos, -⟩
      · rw [hsides]
        exact hagrees m r' (hproduced ▸ hr')
      · exact absurd hinfos (by simp)
    · intro f' hf' rows hrows'
      obtain rfl : f = f' := Option.some.inj (hf.symm.trans hf')
      exact absurd (hrows.symm.trans hrows') (by simp)
  | ok rows =>
    simp only [hrows] at hsides hresult
    have hclean : Clean feed s (.ends (.reply r wall)) ↔
        (raises rows = false → Covers rows (s.sides f.key)) ∧
          (raises rows = true → s.base.store.infoCache f.key ≠ none →
            Repeats rows (s.sides f.key)) := by
      constructor
      · exact fun h => h f hf rows hrows
      · intro h f' hf' rows' hrows'
        obtain rfl : f = f' := Option.some.inj (hf.symm.trans hf')
        obtain rfl : rows = rows' := Except.ok.inj (hrows.symm.trans hrows')
        exact h
    rw [hclean]
    have hraises := raises_eq (s.sides f.key) rows
    rcases hresult with ⟨e, herror, hproduced, -⟩ | ⟨infos, hinfos, hproduced, -⟩
    · rw [herror] at hraises
      exact agrees_iff_of_error hserves hagrees hraises hproduced hsides
    · rw [hinfos] at hraises
      exact agrees_iff_of_ok hagrees hrows hraises hproduced hsides

end

/-! ## Every run -/

lemma serves_start {ω : Type} (feed : Feed ω) (now : ℚ) : Serves feed (start ω now) :=
  fun _ => rfl

lemma agrees_start {ω : Type} (feed : Feed ω) (now : ℚ) : Agrees feed (start ω now) := by
  intro m r hr
  exact absurd hr (by simp [start])

/-- Every run of refreshes on OKX, KuCoin and Binance: what is served is what the noted fetch
returned, and the caches agree with that fetch all along exactly when every refresh is clean. -/
theorem side_caches_agree_iff (x : Exchange) (now : ℚ) (es : List (Event x.Reply)) :
    (∀ part, part <+: es → ∀ s,
      Transition.run (step x.feed) (start x.Reply now) part = some s → Serves x.feed s) ∧
    (Transition.Meets (step x.feed) (Clean x.feed) (start x.Reply now) es ↔
      ∀ part, part <+: es → ∀ s,
        Transition.run (step x.feed) (start x.Reply now) part = some s → Agrees x.feed s) := by
  have hbase : ∀ s e s', Serves x.feed s → step x.feed s e = some s' → Serves x.feed s' :=
    fun s e s' hs hstep => hs.preserved hstep
  have hinit := serves_start x.feed now
  constructor
  · intro part _ s hrun
    exact Transition.invariant_of_run hbase hinit hrun
  · apply Transition.meets_iff_throughout hbase _ _ hinit (agrees_start x.feed now)
    · exact fun s e s' hserves hagrees hstep => agrees_iff_clean hserves hagrees hstep
    · exact fun s e hnone => clean_of_none hnone

/-- A perpetual of KuCoin, with its multiplier and its lot. -/
def xbtusdtm (multiplier : ℚ) (lotSize : Cell) : Kucoin.Contract where
  status := "Open"
  isInverse := false
  symbol := "XBTUSDTM"
  multiplier := .num multiplier
  fundingRateGranularity := .num 28800000
  baseCurrency := "XBT"
  quoteCurrency := "USDT"
  lotSize := lotSize
  maxOrderQty := .missing

/-- A fetch that succeeds and, a day later, one whose second row raises after the first one has
been written. -/
def refreshRaises : List (Event Exchange.kucoin.Reply) :=
  [.call .linear, .ends (.reply ⟨.ok [], .ok [xbtusdtm 1 .missing]⟩ 0), .tick 86400,
    .call .linear,
    .ends (.reply ⟨.ok [], .ok [xbtusdtm 10 .missing, xbtusdtm 10 .bad]⟩ 0)]

lemma multiplier_refreshRaises :
    (Transition.run (step Exchange.kucoin.feed) (start _ 0) refreshRaises).map (fun s =>
      ((s.sides .linear).multiplier "XBTUSDT", (s.produced .linear).map fun r =>
        (computed Exchange.kucoin.feed .linear r).multiplier "XBTUSDT")) =
      some (some 10, some (some 1)) := by
  decide +kernel

/-- The map of the first fetch is served with the multiplier of the second. -/
theorem failed_refresh_leaves_multiplier :
    ¬ ∀ (es : List (Event Exchange.kucoin.Reply)) s,
      Transition.run (step Exchange.kucoin.feed) (start _ 0) es = some s →
        Agrees Exchange.kucoin.feed s := by
  intro hall
  obtain ⟨s, hrun, hvalues⟩ := Option.map_eq_some_iff.mp multiplier_refreshRaises
  obtain ⟨hcache, hproduced⟩ := Prod.mk.inj hvalues
  obtain ⟨r, hr, hcomputed⟩ := Option.map_eq_some_iff.mp hproduced
  have hagrees := hall refreshRaises s hrun .linear r hr
  rw [hagrees, hcomputed] at hcache
  exact absurd hcache (by decide +kernel)

end SideCaches
end ExchangeRouter
