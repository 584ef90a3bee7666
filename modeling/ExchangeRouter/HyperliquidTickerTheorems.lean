import ExchangeRouter.HyperliquidTicker
import ExchangeRouter.Lib.Fallible
import ExchangeRouter.Lib.Transition

/-!
# The range of the day and the price

A price that is taken in lies within the range, so what `get_ticker` returns does, and what
`stream_ticker` yields without a re-seed. A re-seed comes after the price was taken in, and puts
the snapshot's own range in place of the widened one.
-/

namespace ExchangeRouter
namespace HyperliquidTicker

open Fallible (bind_ok length_of_mapM_ok toOption_some)
open SideCaches (Cell)
open Transition

/-! ## The range -/

/-- The range has both ends, and the price between them. -/
structure Range.Contains (r : Range) (x : ℚ) : Prop where
  high : ∃ high, r.high = some high ∧ x ≤ high
  low : ∃ low, r.low = some low ∧ low ≤ x

/-- A range holds the price that it was widened by. -/
lemma widen_contains (r : Range) (close : ℚ) : (r.widen close).Contains close := by
  refine ⟨?_, ?_⟩
  · unfold Range.widen
    cases r.high with
    | none => exact ⟨close, rfl, le_refl _⟩
    | some high =>
      by_cases hover : high < close
      · exact ⟨close, if_pos hover, le_refl _⟩
      · exact ⟨high, if_neg hover, not_lt.mp hover⟩
  · unfold Range.widen
    cases r.low with
    | none => exact ⟨close, rfl, le_refl _⟩
    | some low =>
      by_cases hunder : close < low
      · exact ⟨close, if_pos hunder, le_refl _⟩
      · exact ⟨low, if_neg hunder, not_lt.mp hunder⟩

lemma contains_iff (high low x : ℚ) :
    (Range.mk (some high) (some low)).Contains x ↔ low ≤ x ∧ x ≤ high := by
  constructor
  · rintro ⟨⟨high', hhigh, hle⟩, ⟨low', hlow, hge⟩⟩
    obtain rfl := Option.some.inj hhigh
    obtain rfl := Option.some.inj hlow
    exact ⟨hge, hle⟩
  · rintro ⟨hge, hle⟩
    exact ⟨⟨high, rfl, hle⟩, ⟨low, rfl, hge⟩⟩

/-- A snapshot has both ends or none. -/
lemma highLow24h_ends {reply : Reply} {r : Range} (h : highLow24h reply = .ok r) :
    r = ⟨none, none⟩ ∨ ∃ high low, r = ⟨some high, some low⟩ := by
  obtain ⟨rows, -, h⟩ := bind_ok h
  by_cases hrows : rows = []
  · rw [if_pos hrows] at h
    exact .inl (Except.ok.inj h).symm
  · rw [if_neg hrows] at h
    obtain ⟨highs, hhighs, h⟩ := bind_ok h
    obtain ⟨lows, hlows, h⟩ := bind_ok h
    -- `max` and `min` of as many numbers as there are rows
    have hne : ∀ cells : List ℚ, cells.length = rows.length → cells ≠ [] := by
      rintro cells hlen rfl
      exact hrows (List.length_eq_zero_iff.mp hlen.symm)
    obtain ⟨high, hhigh⟩ := Option.isSome_iff_exists.mp
      (List.isSome_max?_of_ne_nil (hne highs (length_of_mapM_ok hhighs)))
    obtain ⟨low, hlow⟩ := Option.isSome_iff_exists.mp
      (List.isSome_min?_of_ne_nil (hne lows (length_of_mapM_ok hlows)))
    rw [hhigh, hlow] at h
    exact .inr ⟨high, low, (Except.ok.inj h).symm⟩

/-! ## The records -/

/-- A field that may be missing is read unless it is no number. -/
lemma float_orElse_zero (c : Cell) :
    (∃ q, (c.orElse (.num 0)).float = .ok q) ↔ c ≠ .bad := by
  cases c with
  | bad => simp [Cell.orElse, Cell.float]
  | _ => simp [Cell.orElse, Cell.float]

/-- What a ticker shows of its price and range. -/
lemma buildTicker_ok {m : Market} {ctx : Ctx} {close high low : ℚ} {now : Clock} {t : Ticker}
    (h : buildTicker m ctx close high low now = .ok t) :
    ctx.readable = true ∧ t.price = close ∧ t.high24h = high ∧ t.low24h = low := by
  obtain ⟨prev, hprev, h⟩ := bind_ok h
  obtain ⟨native, hnative, h⟩ := bind_ok h
  obtain ⟨volume, -, h⟩ := bind_ok h
  refine ⟨?_, ?_⟩
  · rw [Ctx.readable, decide_eq_true_iff]
    exact ⟨(float_orElse_zero _).mp ⟨prev, hprev⟩, (float_orElse_zero _).mp ⟨native, hnative⟩⟩
  · rw [← Except.ok.inj h]
    exact ⟨rfl, rfl, rfl⟩

/-- A readable context gives a ticker. -/
lemma buildTicker_exists {ctx : Ctx} (h : ctx.readable = true) (m : Market)
    (close high low : ℚ) (now : Clock) :
    ∃ t, buildTicker m ctx close high low now = .ok t := by
  rw [Ctx.readable, decide_eq_true_iff] at h
  obtain ⟨prev, hprev⟩ := (float_orElse_zero _).mpr h.1
  obtain ⟨native, hnative⟩ := (float_orElse_zero _).mpr h.2
  unfold buildTicker
  rw [hprev, hnative]
  exact ⟨_, rfl⟩

/-! ## What has been returned -/

/-- Every `Ticker` so far is in range. -/
def State.InRange (s : State) : Prop := ∀ t ∈ s.tickers, t.InRange

/-- One `Ticker` more, if one can be made. -/
lemma inRange_append {s s' : State} (h : s.InRange) {m : Market} {ctx : Ctx}
    {close high low : ℚ} {now : Clock}
    (htickers : s'.tickers =
      s.tickers ++ (buildTicker m ctx close high low now).toOption.toList) :
    s'.InRange ↔ (ctx.readable = true → low ≤ close ∧ close ≤ high) := by
  unfold State.InRange
  rw [htickers]
  constructor
  · intro hall hreadable
    obtain ⟨t, ht⟩ := buildTicker_exists hreadable m close high low now
    obtain ⟨-, hprice, hhigh, hlow⟩ := buildTicker_ok ht
    have hrange : t.InRange := by
      refine hall t (List.mem_append_right _ ?_)
      rw [ht]
      exact List.mem_singleton_self t
    rwa [Ticker.InRange, hprice, hhigh, hlow] at hrange
  · intro hle t ht
    rcases List.mem_append.mp ht with hold | hnew
    · exact h t hold
    · have hbuilt := toOption_some (Option.mem_toList.mp hnew)
      obtain ⟨hreadable, hprice, hhigh, hlow⟩ := buildTicker_ok hbuilt
      rw [Ticker.InRange, hprice, hhigh, hlow]
      exact hle hreadable

/-- The price of a `get_ticker` is taken in right before its `Ticker` is made. -/
lemma inRange_answer {s : State} (h : s.InRange) {m : Market} {ctx : Ctx} {close : ℚ}
    (hpos : 0 < close) (e : Entry) (now : Clock) : (s.answer m ctx close e now).InRange := by
  refine (inRange_append h rfl).mpr fun _ => ?_
  have htaken : (e.taken close).range = e.range.widen close := by
    rw [Entry.taken, if_pos hpos]
  obtain ⟨⟨high, hhigh, hle⟩, ⟨low, hlow, hge⟩⟩ := widen_contains e.range close
  rw [htaken, hhigh, hlow]
  exact ⟨hge, hle⟩

/-- What a stream yields is in range exactly when the price is in its range. -/
lemma inRange_yieldTicker {s : State} (h : s.InRange) (j : ℕ) (m : Market) (range : Range)
    (reseedAt : ℚ) (ctx : Ctx) (close : ℚ) (now : Clock)
    (hends : ∃ high low, range = ⟨some high, some low⟩) :
    (s.yieldTicker j m range reseedAt ctx close now).InRange ↔
      (ctx.readable = true → range.Contains close) := by
  obtain ⟨high, low, rfl⟩ := hends
  rw [contains_iff]
  exact inRange_append h rfl

/-- A range that holds a price has both its ends. -/
lemma Range.Contains.ends {r : Range} {x : ℚ} (h : r.Contains x) :
    ∃ high low, r = ⟨some high, some low⟩ := by
  obtain ⟨⟨high, hhigh, -⟩, ⟨low, hlow, -⟩⟩ := h
  exact ⟨high, low, by rw [← hhigh, ← hlow]⟩

/-! ## What every step keeps -/

/-- A stream at a re-seed has taken the price of its frame in. -/
def Stream.Took (st : Stream) : Prop :=
  ∀ range reseedAt ctx close, st.stage = .reseeding range reseedAt ctx close →
    range.Contains close

/-- What every reachable state has: calls with a positive price, and streams that took theirs in. -/
structure Sound (s : State) : Prop where
  positive : ∀ c ∈ s.calls, 0 < c.close
  took : ∀ st ∈ s.streams, st.Took

lemma sound_init : Sound {} :=
  ⟨fun _ hc => absurd hc List.not_mem_nil, fun _ hst => absurd hst List.not_mem_nil⟩

lemma Sound.setStage {s : State} (h : Sound s) {i : ℕ} {c : Call} (hc : s.calls[i]? = some c)
    (stage : CallStage) : Sound (s.setStage i c stage) := by
  refine ⟨fun c' hc' => ?_, h.took⟩
  rcases List.mem_or_eq_of_mem_set hc' with hold | rfl
  · exact h.positive c' hold
  · exact h.positive c (List.mem_of_getElem? hc)

lemma Sound.answer {s : State} (h : Sound s) (m : Market) (ctx : Ctx) (close : ℚ) (e : Entry)
    (now : Clock) : Sound (s.answer m ctx close e now) := ⟨h.positive, h.took⟩

lemma Sound.setStream {s : State} (h : Sound s) (j : ℕ) {m : Market} {stage : StreamStage}
    (htook : Stream.Took ⟨m, stage⟩) : Sound (s.setStream j m stage) := by
  refine ⟨h.positive, fun st hst => ?_⟩
  rcases List.mem_or_eq_of_mem_set hst with hold | rfl
  · exact h.took st hold
  · exact htook

lemma took_reading (m : Market) (range : Range) (reseedAt : ℚ) :
    Stream.Took ⟨m, .reading range reseedAt⟩ := by
  intro range' reseedAt' ctx close hstage
  cases hstage

lemma took_ended (m : Market) : Stream.Took ⟨m, .ended⟩ := by
  intro range reseedAt ctx close hstage
  cases hstage

lemma Sound.yieldTicker {s : State} (h : Sound s) (j : ℕ) (m : Market) (range : Range)
    (reseedAt : ℚ) (ctx : Ctx) (close : ℚ) (now : Clock) :
    Sound (s.yieldTicker j m range reseedAt ctx close now) := by
  have hset := h.setStream j (took_reading m range reseedAt)
  exact ⟨hset.positive, hset.took⟩

/-! ### The steps -/

/-- What `locked` asks for: a call of `get_ticker`. -/
lemma step_locked {s s' : State} {i : ℕ} {now : Clock} (h : step s (.locked i now) = some s') :
    ∃ c, s.calls[i]? = some c ∧ s' = s.locked i c now := by
  simp only [step] at h
  split at h
  · next c hc =>
    split at h
    · exact ⟨c, hc, (Option.some.inj h).symm⟩
    · cases h
  · cases h

lemma step_fetched {s s' : State} {i : ℕ} {reply : Reply} {now : Clock}
    (h : step s (.fetched i reply now) = some s') :
    ∃ c, s.calls[i]? = some c ∧ s' = s.fetched i c reply now := by
  simp only [step] at h
  split at h
  · next c hc =>
    split at h
    · exact ⟨c, hc, (Option.some.inj h).symm⟩
    · cases h
  · cases h

lemma step_seeded {s s' : State} {j : ℕ} {reply : Reply} {now : Clock}
    (h : step s (.seeded j reply now) = some s') : ∃ m, s' = s.seeded j m reply now := by
  simp only [step] at h
  split at h
  · next m _ => exact ⟨m, (Option.some.inj h).symm⟩
  · cases h

/-- What `frame` asks for: a stream at its queue. -/
lemma step_frame {s s' : State} {j : ℕ} {ctx : Option Ctx} {now : Clock}
    (h : step s (.frame j ctx now) = some s') :
    ∃ m range reseedAt, s' = s.frame j m range reseedAt now ctx := by
  simp only [step] at h
  split at h
  · next m range reseedAt _ => exact ⟨m, range, reseedAt, (Option.some.inj h).symm⟩
  · cases h

/-- What `reseeded` asks for: a stream in the middle of a frame. -/
lemma step_reseeded {s s' : State} {j : ℕ} {reply : Reply} {now : Clock}
    (h : step s (.reseeded j reply now) = some s') :
    ∃ m range reseedAt ctx close,
      s.streams[j]? = some ⟨m, .reseeding range reseedAt ctx close⟩ ∧
        s' = s.reseeded j m range reseedAt ctx close reply now := by
  simp only [step] at h
  split at h
  · next m range reseedAt ctx close hst =>
    exact ⟨m, range, reseedAt, ctx, close, hst, (Option.some.inj h).symm⟩
  · cases h

/-- Every step with positive prices. -/
lemma Sound.step {s s' : State} {e : Event} (hpos : e.Positive) (h : Sound s)
    (hstep : HyperliquidTicker.step s e = some s') : Sound s' := by
  cases e with
  | getTicker m ctx now =>
    obtain rfl := Option.some.inj hstep
    unfold State.getTicker
    cases hclose : ctx.close m.coin with
    | error e => exact h
    | ok close =>
      cases s.fresh m.coin now with
      | some e => exact h.answer m ctx close e now
      | none =>
        refine ⟨fun c hc => ?_, h.took⟩
        rcases List.mem_append.mp hc with hold | hnew
        · exact h.positive c hold
        · rw [List.mem_singleton.mp hnew]
          exact hpos close hclose
  | locked i now =>
    obtain ⟨c, hc, rfl⟩ := step_locked hstep
    unfold State.locked
    split
    · exact (h.setStage hc _).answer _ _ _ _ _
    · exact h.setStage hc _
  | fetched i reply now =>
    obtain ⟨c, hc, rfl⟩ := step_fetched hstep
    unfold State.fetched
    split
    · exact h.setStage hc _
    · exact (h.setStage hc _).answer _ _ _ _ _
  | openStream m =>
    obtain rfl := Option.some.inj hstep
    refine ⟨h.positive, fun st hst => ?_⟩
    rcases List.mem_append.mp hst with hold | hnew
    · exact h.took st hold
    · rw [List.mem_singleton.mp hnew]
      intro range reseedAt ctx close hstage
      cases hstage
  | seeded j reply now =>
    obtain ⟨m, rfl⟩ := step_seeded hstep
    unfold State.seeded
    split
    · exact h.setStream j (took_ended m)
    · exact h.setStream j (took_reading m _ _)
  | frame j ctx now =>
    obtain ⟨m, range, reseedAt, rfl⟩ := step_frame hstep
    unfold State.frame
    split
    · exact h
    · next ctx =>
      split
      · exact h
      · next close _ =>
        split
        · exact h
        · split
          · -- the price is taken in before the snapshot is asked for
            refine h.setStream j ?_
            intro range' reseedAt' ctx' close' hstage
            cases hstage
            exact widen_contains range close
          · exact h.yieldTicker j m _ _ _ _ _
  | reseeded j reply now =>
    obtain ⟨m, range, reseedAt, ctx, close, -, rfl⟩ := step_reseeded hstep
    unfold State.reseeded
    split
    · refine h.setStream j ?_
      split
      · exact took_reading m _ _
      · exact took_ended m
    · exact h.yieldTicker j m _ _ _ _ _

/-! ## When every `Ticker` is in range -/

/-- After a re-seed the price is in range exactly when the snapshot has it, or has no rows. -/
lemma inRange_reseeded {s : State} (h : s.InRange) {j : ℕ} {m : Market} {range : Range}
    {reseedAt : ℚ} {ctx : Ctx} {close : ℚ} (htook : range.Contains close) (reply : Reply)
    (now : Clock) :
    (s.reseeded j m range reseedAt ctx close reply now).InRange ↔
      ∀ high low, ctx.readable = true → highLow24h reply = .ok ⟨some high, some low⟩ →
        low ≤ close ∧ close ≤ high := by
  unfold State.reseeded
  cases hreply : highLow24h reply with
  | error e => exact iff_of_true h fun high low _ hsome => by cases hsome
  | ok snapshot =>
    rcases highLow24h_ends hreply with rfl | ⟨high, low, rfl⟩
    · -- the widened range stays
      refine iff_of_true ?_ fun high low _ hsome => ?_
      · exact (inRange_yieldTicker h j m range reseedAt ctx close now htook.ends).mpr
          fun _ => htook
      · simp at hsome
    · -- the snapshot's own ends, which have not taken the price in
      refine (inRange_yieldTicker h j m _ reseedAt ctx close now ⟨high, low, rfl⟩).trans ?_
      rw [contains_iff]
      constructor
      · intro hle high' low' hreadable hsome
        obtain ⟨hhigh, hlow⟩ := Range.mk.inj (Except.ok.inj hsome)
        rw [← Option.some.inj hhigh, ← Option.some.inj hlow]
        exact hle hreadable
      · exact fun hle hreadable => hle high low hreadable rfl

/-- A step keeps every `Ticker` in range exactly when it is no re-seed that leaves out the price. -/
lemma inRange_step_iff {s s' : State} {e : Event} (hpos : e.Positive) (hsound : Sound s)
    (h : s.InRange) (hstep : step s e = some s') : s'.InRange ↔ s.Covers e := by
  cases e with
  | getTicker m ctx now =>
    obtain rfl := Option.some.inj hstep
    refine iff_of_true ?_ trivial
    unfold State.getTicker
    cases hclose : ctx.close m.coin with
    | error e => exact h
    | ok close =>
      cases s.fresh m.coin now with
      | some e => exact inRange_answer h (hpos close hclose) e now
      | none => exact h
  | locked i now =>
    obtain ⟨c, hc, rfl⟩ := step_locked hstep
    refine iff_of_true ?_ trivial
    unfold State.locked
    split
    · exact inRange_answer (s := s.setStage i c .ended) h
        (hsound.positive c (List.mem_of_getElem? hc)) _ now
    · exact h
  | fetched i reply now =>
    obtain ⟨c, hc, rfl⟩ := step_fetched hstep
    refine iff_of_true ?_ trivial
    unfold State.fetched
    split
    · exact h
    · exact inRange_answer (s := s.setStage i c .ended) h
        (hsound.positive c (List.mem_of_getElem? hc)) _ now
  | openStream m =>
    obtain rfl := Option.some.inj hstep
    exact iff_of_true h trivial
  | seeded j reply now =>
    obtain ⟨m, rfl⟩ := step_seeded hstep
    refine iff_of_true ?_ trivial
    unfold State.seeded
    split
    · exact h
    · exact h
  | frame j ctx now =>
    obtain ⟨m, range, reseedAt, rfl⟩ := step_frame hstep
    refine iff_of_true ?_ trivial
    unfold State.frame
    split
    · exact h
    · next ctx =>
      split
      · exact h
      · next close _ =>
        have hwide := widen_contains range close
        split
        · exact h
        · split
          · exact h
          · exact (inRange_yieldTicker h j m _ reseedAt ctx close now hwide.ends).mpr
              fun _ => hwide
  | reseeded j reply now =>
    obtain ⟨m, range, reseedAt, ctx, close, hst, rfl⟩ := step_reseeded hstep
    have htook := hsound.took _ (List.mem_of_getElem? hst) range reseedAt ctx close rfl
    rw [inRange_reseeded h htook]
    -- the stream that the event names is at the one frame it is at
    constructor
    · intro hle m' range' reseedAt' ctx' close' high low hst' hreadable hreply
      rw [hst] at hst'
      cases hst'
      exact hle high low hreadable hreply
    · exact fun hle high low hreadable hreply =>
        hle m range reseedAt ctx close high low hst hreadable hreply

/-- An event that cannot happen is covered. -/
lemma covers_of_step_none {s : State} {e : Event} (hstep : step s e = none) : s.Covers e := by
  cases e with
  | reseeded j reply now =>
    intro m range reseedAt ctx close high low hst
    simp only [step, hst] at hstep
    cases hstep
  | _ => trivial

/-- In a run with positive prices, every `Ticker` that was returned or yielded is in range at any
time exactly when no re-seed of a stream leaves out the price of its frame. -/
theorem tickers_in_range_iff (es : List Event) (hpos : ∀ e ∈ es, e.Positive) :
    Meets step State.Covers {} es ↔
      ∀ part, part <+: es → ∀ s, run step {} part = some s → ∀ t ∈ s.tickers, t.InRange := by
  have hinit : State.InRange {} := fun _ ht => absurd ht List.not_mem_nil
  have hbase : ∀ s e s', Event.Positive e → Sound s → step s e = some s' → Sound s' :=
    fun _ _ _ hpos h hstep => h.step hpos hstep
  have hiff : ∀ s e s', Event.Positive e → Sound s → s.InRange → step s e = some s' →
      (s'.InRange ↔ s.Covers e) :=
    fun _ _ _ hpos hsound h hstep => inRange_step_iff hpos hsound h hstep
  exact meets_iff_throughout_of hbase hiff (fun _ _ hstep => covers_of_step_none hstep)
    sound_init hinit es hpos

/-- Bitcoin at a price, on the linear market. -/
def bitcoin : Market := ⟨"BTCUSDC", .linear, "BTC", "USDC"⟩

/-- A context whose prices are `px`. -/
def priced (px : ℚ) : Ctx := ⟨.num px, .num px, .missing, .missing⟩

/-- A stream whose first snapshot reaches from 9 to 11, and whose frame at 12 is due for a
re-seed. The same snapshot comes. -/
def lateReseed : List Event :=
  [.openStream bitcoin, .seeded 0 (.ok [⟨.num 11, .num 9⟩]) ⟨0, 0⟩,
    .frame 0 (some (priced 12)) ⟨120, 120⟩,
    .reseeded 0 (.ok [⟨.num 11, .num 9⟩]) ⟨121, 121⟩]

lemma lateReseed_positive : ∀ e ∈ lateReseed, e.Positive := by
  simp [lateReseed, Event.Positive]

theorem tickers_in_range_iff_late :
    Meets step State.Covers {} lateReseed ↔
      ∀ part, part <+: lateReseed → ∀ s, run step {} part = some s →
        ∀ t ∈ s.tickers, t.InRange :=
  tickers_in_range_iff lateReseed lateReseed_positive

lemma lateReseed_run : (run step {} lateReseed).map (fun s =>
    s.tickers.map fun t => (t.price, t.high24h)) = some [(12, 11)] := by
  decide +kernel

/-- The `Ticker` has the price 12 and the high 11. -/
theorem ticker_above_high : ∃ es s, (∀ e ∈ es, e.Positive) ∧ run step {} es = some s ∧
    ∃ t ∈ s.tickers, ¬ t.InRange := by
  obtain ⟨s, hrun, htickers⟩ := Option.map_eq_some_iff.mp lateReseed_run
  obtain ⟨t, ht, hfields⟩ := List.exists_of_mem_map
    (show ((12 : ℚ), (11 : ℚ)) ∈ s.tickers.map fun t => (t.price, t.high24h) by
      rw [htickers]
      exact List.mem_singleton_self _)
  obtain ⟨hprice, hhigh⟩ := Prod.mk.inj hfields
  refine ⟨lateReseed, s, lateReseed_positive, hrun, t, ht, fun hrange => ?_⟩
  have hle := hrange.2
  rw [hprice, hhigh] at hle
  norm_num at hle

end HyperliquidTicker
end ExchangeRouter
