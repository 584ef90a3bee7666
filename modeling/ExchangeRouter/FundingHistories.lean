import ExchangeRouter.FundingHistory
import ExchangeRouter.CandleHistories

/-!
# Funding histories

The rows of funding that a venue holds, and what an adapter makes of a page of them. The page of
rows in a time window is read as the records in it (`Settled.page`).
-/

namespace ExchangeRouter

open Newest

/-! ## The rows of a funding history -/

/-- The time of a row as the venue has it. -/
def FundingRow.settles (r : FundingRow) : ℤ := r.time.getD 0

/-- A rate, and a time in milliseconds after 1973. -/
structure FundingRow.Sound (r : FundingRow) : Prop where
  rated : r.fundingRate ≠ none
  dated : ∃ t, r.time = some t ∧ 100000000000 ≤ t

lemma FundingRow.Sound.le_settles {r : FundingRow} (h : r.Sound) : 100000000000 ≤ r.settles := by
  obtain ⟨t, ht, hlarge⟩ := h.dated
  have hsettles : r.settles = t := by simp [FundingRow.settles, ht]
  omega

lemma FundingRow.Sound.read {r : FundingRow} (h : r.Sound) (symbolOf : FundingRow → String)
    (marketType : MarketType) (quote : String) (cycleMs : ℤ) :
    ∃ c, r.read symbolOf marketType quote cycleMs = .ok c ∧ c.timestamp = r.settles := by
  obtain ⟨x, hx⟩ := Option.ne_none_iff_exists'.mp h.rated
  obtain ⟨t, ht, hlarge⟩ := h.dated
  have htime : KlineRow.time ⟨r.time, []⟩ = .ok r.settles :=
    KlineRow.Dated.time ⟨t, ht, hlarge⟩
  refine ⟨⟨symbolOf r, marketType, quote, buildFundingHistorical "discrete" x cycleMs, r.settles⟩,
    ?_, rfl⟩
  unfold FundingRow.read
  rw [hx, htime]
  rfl

/-- Sound rows of different times, oldest first. -/
structure Settled (rows : List FundingRow) : Prop where
  chronological : Chronological FundingRow.settles rows
  sound : ∀ r ∈ rows, r.Sound

lemma Settled.sublist {rows rows' : List FundingRow} (h : Settled rows)
    (hsub : rows'.Sublist rows) : Settled rows' :=
  ⟨h.chronological.sublist hsub, fun r hr => h.sound r (hsub.subset hr)⟩

section

variable {symbolOf : FundingRow → String} {marketType : MarketType} {quote : String} {cycleMs : ℤ}

variable (symbolOf marketType quote cycleMs) in
/-- The records that rows are read as. -/
def fundingRates (rows : List FundingRow) : List FundingRate :=
  rows.filterMap fun r => (r.read symbolOf marketType quote cycleMs).toOption

lemma Settled.readsAs {rows : List FundingRow} (h : Settled rows) :
    ReadsAs FundingRate.timestamp FundingRow.settles
      (fun r => (r.read symbolOf marketType quote cycleMs).toOption) rows := by
  intro r hr
  obtain ⟨c, hc, hts⟩ := (h.sound r hr).read symbolOf marketType quote cycleMs
  exact ⟨c, congrArg Except.toOption hc, hts⟩

lemma Settled.mapM_read {rows page : List FundingRow} (h : Settled rows) (hsub : page ⊆ rows) :
    page.mapM (FundingRow.read symbolOf marketType quote cycleMs) =
      .ok (fundingRates symbolOf marketType quote cycleMs page) := by
  apply Fallible.mapM_eq_filterMap
  intro r hr
  obtain ⟨c, hc, -⟩ := (h.sound r (hsub hr)).read symbolOf marketType quote cycleMs
  exact ⟨c, hc⟩

lemma Settled.chronological_rates {rows : List FundingRow} (h : Settled rows) :
    Chronological FundingRate.timestamp (fundingRates symbolOf marketType quote cycleMs rows) :=
  h.readsAs.chronological h.chronological

lemma Settled.rate_dated {rows : List FundingRow} (h : Settled rows) :
    ∀ x ∈ fundingRates symbolOf marketType quote cycleMs rows, 100000000000 ≤ x.timestamp := by
  intro x hx
  obtain ⟨r, hr, -, hts⟩ := h.readsAs.mem hx
  rw [hts]
  exact (h.sound r hr).le_settles

end

end ExchangeRouter
