import ExchangeRouter.PagedReads
import ExchangeRouter.PaginateTheorems

/-!
# What a paged read does with the first answer

`Surfaces` is the contract: a refused first request is raised, and an empty list means that
the venue answered with no data. The walk breaks it, because its `except` clause does not
look at the number of the page; `Read.surfaces_iff` says for every read, start and limit
when the contract holds.
-/

namespace ExchangeRouter

section

variable {ρ α κ : Type*} [DecidableEq κ] (timestamp : α → ℤ) (modelDumpJson : α → κ)

/-! ## The walk, by its first page -/

/-- A walk only adds to the requests it sent and to the records it holds. -/
structure Extends (s s' : PageState α κ) : Prop where
  asked : s.asked <+: s'.asked
  held : s.held <+: s'.held

omit [DecidableEq κ] in
lemma Extends.refl (s : PageState α κ) : Extends s s :=
  ⟨List.prefix_rfl, List.prefix_rfl⟩

omit [DecidableEq κ] in
lemma Extends.trans {s s' s'' : PageState α κ} (h : Extends s s') (h' : Extends s' s'') :
    Extends s s'' :=
  ⟨h.asked.trans h'.asked, h.held.trans h'.held⟩

omit [DecidableEq κ] in
lemma extends_sent (s : PageState α κ) (r : PageRequest) : Extends s (s.sent r) :=
  ⟨List.prefix_append _ _, List.prefix_rfl⟩

omit [DecidableEq κ] in
lemma extends_absorb (s : PageState α κ) (r : PageRequest) (newItems : List α) (seen : List κ)
    (a : Option ℤ) :
    Extends s { (s.sent r).absorb newItems seen with currentEnd := a } := by
  refine ⟨List.prefix_append _ _, ?_⟩
  show s.held <+: ((s.sent r).absorb newItems seen).held
  rw [PageState.held_absorb]
  exact List.prefix_append _ _

/-- A page extends the walk, however it ends. -/
lemma pageStep_extends (fetch : Upstream α) (l : ℤ) (s : PageState α κ) :
    match pageStep timestamp modelDumpJson fetch l s with
    | .stop s' _ => Extends s s'
    | .again s' => Extends s s' := by
  rcases pageStep_cases timestamp modelDumpJson fetch l s with
    ⟨e, -, hstep⟩ | ⟨batch, -, ⟨-, hstep⟩ | ⟨oldest, rest, newItems, seen, -, -, hcases⟩⟩
  · rw [hstep]
    exact extends_sent s _
  · rw [hstep]
    exact extends_sent s _
  · rcases hcases with ⟨-, hstep⟩ | ⟨-, -, hstep⟩ | ⟨-, -, hstep⟩
    · rw [hstep]
      exact extends_sent s _
    · rw [hstep]
      exact extends_absorb s _ newItems seen _
    · rw [hstep]
      exact extends_absorb s _ newItems seen _

/-- The whole loop extends the walk: by induction on the requests left. -/
lemma pageLoop_extends (fetch : Upstream α) (limit l : ℤ) (left : ℕ) (s : PageState α κ) :
    Extends s (pageLoop timestamp modelDumpJson fetch limit l left s).1 := by
  induction left generalizing s with
  | zero => exact Extends.refl s
  | succ left ih =>
    unfold pageLoop
    split
    · have hstep := pageStep_extends timestamp modelDumpJson fetch l s
      cases hpage : pageStep timestamp modelDumpJson fetch l s with
      | stop s' fault =>
        rw [hpage] at hstep
        exact hstep
      | again s' =>
        rw [hpage] at hstep
        exact hstep.trans (ih s')
    · exact Extends.refl s

/-- Asked for nothing, the walk sends nothing. -/
lemma paginateBackwards_of_nonpos (fetch : Upstream α) {limit : ℤ} (l : ℤ) (hlimit : limit ≤ 0) :
    paginateBackwards timestamp modelDumpJson fetch limit l = ⟨[], .ok []⟩ := by
  have hrun : pageRun timestamp modelDumpJson fetch limit l = ({}, none) := by
    unfold pageRun maxRequests pageLoop
    rw [if_neg (by simpa using hlimit)]
  simp [paginateBackwards, hrun, PageState.out, Newest.sortByTime, sliceTail]

/-- The tail of a list is empty only where the list is, or where a negative bound drops it
all. -/
lemma sliceTail_eq_nil_iff (xs : List α) (n : ℤ) :
    sliceTail xs n = [] ↔ xs = [] ∨ (n < 0 ∧ (xs.length : ℤ) ≤ -n) := by
  unfold sliceTail
  split
  · next hpos =>
    rw [List.rtake, List.drop_eq_nil_iff, ← List.length_eq_zero_iff]
    omega
  · next hnpos =>
    rw [List.drop_eq_nil_iff, ← List.length_eq_zero_iff]
    omega

/-- A walk that is asked for something begins with a page. -/
lemma pageRun_of_pos (fetch : Upstream α) {limit : ℤ} (l : ℤ) (hlimit : 1 ≤ limit) :
    pageRun timestamp modelDumpJson fetch limit l =
      match pageStep timestamp modelDumpJson fetch l ({} : PageState α κ) with
      | .stop s fault => (s, fault)
      | .again s => pageLoop timestamp modelDumpJson fetch limit l 99 s := by
  have hbelow : ((({} : PageState α κ).collected : ℕ) : ℤ) < limit := by
    show (0 : ℤ) < limit
    omega
  unfold pageRun maxRequests
  rw [pageLoop]
  apply (if_pos hbelow).trans
  cases pageStep timestamp modelDumpJson fetch l ({} : PageState α κ) <;> rfl

/-- Whatever the loop does after its first page, the first request and the first records
stay. -/
lemma paginateBackwards_of_extends {fetch : Upstream α} {limit l : ℤ} (hlimit : 1 ≤ limit)
    {s s' : PageState α κ} {fault : Option Fault} (hasked : s.asked = [⟨none, l⟩])
    (hheld : s.held ≠ []) (hext : Extends s s')
    (hrun : pageRun timestamp modelDumpJson fetch limit l = (s', fault)) :
    (paginateBackwards timestamp modelDumpJson fetch limit l).asked.head? = some ⟨none, l⟩ ∧
      (paginateBackwards timestamp modelDumpJson fetch limit l).result ≠ .ok [] := by
  obtain ⟨more, hmore⟩ := hext.asked
  have hout : s'.out timestamp ≠ [] := by
    intro hnil
    have hperm := s'.out_perm timestamp
    rw [hnil] at hperm
    have hempty : s'.held = [] := hperm.symm.eq_nil
    exact hheld (List.prefix_nil.mp (hempty ▸ hext.held))
  simp only [paginateBackwards, hrun]
  constructor
  · rw [← hmore, hasked]
    rfl
  · cases fault with
    | some e => simp
    | none =>
      intro hresult
      rcases (sliceTail_eq_nil_iff _ _).mp (Except.ok.inj hresult) with hnil | ⟨hneg, -⟩
      · exact hout hnil
      · omega

/-- What the first page decides: a refusal is swallowed, another fault is raised, and the
walk returns an empty list exactly when the page is empty. -/
theorem paginateBackwards_first (fetch : Upstream α) {limit : ℤ} (l : ℤ) (hlimit : 1 ≤ limit) :
    (paginateBackwards timestamp modelDumpJson fetch limit l).asked.head? = some ⟨none, l⟩ ∧
      (∀ e, fetch 0 ⟨none, l⟩ = .error e →
        (paginateBackwards timestamp modelDumpJson fetch limit l).result =
          if e.isRejection then .ok [] else .error e) ∧
      ∀ batch, fetch 0 ⟨none, l⟩ = .ok batch →
        ((paginateBackwards timestamp modelDumpJson fetch limit l).result = .ok [] ↔
          batch = []) := by
  have hunfold := pageRun_of_pos timestamp modelDumpJson fetch l hlimit
  rcases pageStep_cases timestamp modelDumpJson fetch l ({} : PageState α κ) with
    ⟨e, herr, hstep⟩ | ⟨batch, hok, ⟨hnil, hstep⟩ | ⟨oldest, rest, newItems, seen, hsort, hdrop,
      hcases⟩⟩
  -- the first page fails, and the walk holds nothing
  · rw [hstep] at hunfold
    refine ⟨by simp [paginateBackwards, hunfold, PageState.sent], ?_, ?_⟩
    · intro e' he'
      obtain rfl : e = e' := Except.error.inj (herr.symm.trans he')
      cases hrej : e.isRejection <;>
        simp [paginateBackwards, hunfold, hrej, PageState.out, PageState.sent,
          Newest.sortByTime, sliceTail]
    · intro batch hbatch
      exact absurd (herr.symm.trans hbatch) (by simp)
  · rw [hstep] at hunfold
    refine ⟨by simp [paginateBackwards, hunfold, PageState.sent], ?_, ?_⟩
    · intro e' he'
      exact absurd (hok.symm.trans he') (by simp)
    · intro batch' hbatch'
      obtain rfl : batch = batch' := Except.ok.inj (hok.symm.trans hbatch')
      simp [paginateBackwards, hunfold, hnil, PageState.out, PageState.sent, Newest.sortByTime,
        sliceTail]
  · -- nothing has been seen yet, so the oldest record of the page is new
    have hnew : newItems ≠ [] := by
      rintro rfl
      simp [dropSeen] at hdrop
    have hbatch : batch ≠ [] := by
      rintro rfl
      simp [Newest.sortByTime] at hsort
    have hsome : (paginateBackwards timestamp modelDumpJson fetch limit l).asked.head? =
          some ⟨none, l⟩ ∧
        (paginateBackwards timestamp modelDumpJson fetch limit l).result ≠ .ok [] := by
      have hheld : ∀ a, ({ ((({} : PageState α κ).sent ⟨none, l⟩).absorb newItems seen) with
          currentEnd := a } : PageState α κ).held ≠ [] := by
        intro a
        simpa [PageState.held, PageState.absorb, PageState.sent] using hnew
      rcases hcases with ⟨hnone, -⟩ | ⟨-, -, hstep⟩ | ⟨-, -, hstep⟩
      · exact absurd hnone hnew
      · rw [hstep] at hunfold
        exact paginateBackwards_of_extends timestamp modelDumpJson hlimit rfl (hheld none)
          (Extends.refl _) hunfold
      · rw [hstep] at hunfold
        have hext := pageLoop_extends timestamp modelDumpJson fetch limit l 99
          { ((({} : PageState α κ).sent ⟨none, l⟩).absorb newItems seen) with
            currentEnd := some (timestamp oldest) }
        exact paginateBackwards_of_extends timestamp modelDumpJson hlimit rfl (hheld _) hext
          hunfold
    refine ⟨hsome.1, ?_, ?_⟩
    · intro e' he'
      exact absurd (hok.symm.trans he') (by simp)
    · intro batch' hbatch'
      obtain rfl : batch = batch' := Except.ok.inj (hok.symm.trans hbatch')
      exact ⟨fun h => absurd h hsome.2, fun h => absurd h hbatch⟩

/-! ## The contract -/

variable (venue : Venue ρ) (parse : ρ → Except Fault (List α))

/-- A first request refused with a `ValueError` is raised, and an empty list is returned only
after the venue answered the first request with no data. -/
def Surfaces (call : ReadCall α) : Prop :=
  (∀ q e, call.asked.head? = some q → venue 0 q = .error e → e.isValueError = true →
    call.result = .error e) ∧
  (call.result = .ok [] →
    ∃ q rows, call.asked.head? = some q ∧ venue 0 q = .ok rows ∧ parse rows = .ok [])

/-- The upstream, or the parsing of its answer, ended in one of the classes that the walk
catches. -/
def Refused {β : Type*} (answer : Except Fault β) : Prop :=
  ∃ e, answer = .error e ∧ e.isRejection = true

/-- A negative limit that cuts a page to nothing: Python's `xs[-limit:]` drops `-limit`
records from the front. -/
def CutAway (limit : ℤ) (page : Except Fault (List α)) : Prop :=
  ∃ batch, page = .ok batch ∧ batch ≠ [] ∧ limit < 0 ∧ (batch.length : ℤ) ≤ -limit

/-- What a paged read calls its fetch with first. -/
def PagedRead.firstPage (r : PagedRead) : PageRequest :=
  ⟨none, if r.paginates then r.perReq else r.limit⟩

/-- The first request of a paged read. -/
def PagedRead.first (r : PagedRead) : Query := r.query 0 r.firstPage

/-- When a paged read surfaces the first answer. -/
def PagedRead.SurfacesWhen (r : PagedRead) : Prop :=
  if r.paginates then 1 ≤ r.limit ∧ ¬ Refused ((venue 0 r.first).bind parse)
  else r.trims = true → ¬ CutAway r.limit ((venue 0 r.first).bind parse)

/-- When a paged read whose fetch turns a refusal into an empty page does. -/
def PagedRead.SurfacesWhenCaught (r : PagedRead) : Prop :=
  ¬ Refused (venue 0 r.first) ∧ r.SurfacesWhen venue parse

/-- When the OKX candles do: they ask for recent candles outside the walk. -/
def Okx.CandlesRead.SurfacesWhen (c : Okx.CandlesRead) : Prop :=
  ¬ CutAway c.limit ((venue 0 c.first).bind parse)

variable {venue parse}

/-- The contract of a call that sent a first request `q`, in terms of the page `q` got. -/
lemma surfaces_iff_of_head {call : ReadCall α} {q : Query} (hhead : call.asked.head? = some q) :
    Surfaces venue parse call ↔
      (∀ e, venue 0 q = .error e → e.isValueError = true → call.result = .error e) ∧
      (call.result = .ok [] → (venue 0 q).bind parse = .ok []) := by
  unfold Surfaces
  simp only [hhead, Option.some.injEq]
  refine and_congr ⟨fun h e => h q e rfl, ?_⟩ (imp_congr_right fun _ => ?_)
  · rintro h q' e rfl
    exact h e
  · constructor
    · rintro ⟨q', rows, rfl, hrows, hparse⟩
      rw [hrows]
      exact hparse
    · intro hpage
      cases hvenue : venue 0 q with
      | error e => simp [hvenue, Except.bind] at hpage
      | ok rows => exact ⟨q, rows, rfl, hvenue, by rw [hvenue] at hpage; exact hpage⟩

/-- The walk over a fetch whose first page lets every fault through surfaces the first answer
when there is a first request and it is not refused. -/
lemma walk_surfaces_iff {fetch : Upstream α} {query : ℕ → PageRequest → Query} {limit l : ℤ}
    (hfetch : fetch 0 ⟨none, l⟩ = (venue 0 (query 0 ⟨none, l⟩)).bind parse) :
    Surfaces venue parse (walk timestamp modelDumpJson fetch query limit l) ↔
      1 ≤ limit ∧ ¬ Refused ((venue 0 (query 0 ⟨none, l⟩)).bind parse) := by
  by_cases hlimit : 1 ≤ limit
  · obtain ⟨hasked, herror, hok⟩ :=
      paginateBackwards_first timestamp modelDumpJson fetch l hlimit
    have hhead : (walk timestamp modelDumpJson fetch query limit l).asked.head? =
        some (query 0 ⟨none, l⟩) := by
      obtain ⟨rest, hrest⟩ := List.head?_eq_some_iff.mp hasked
      simp [walk, queries, hrest]
    have hresult : (walk timestamp modelDumpJson fetch query limit l).result =
        (paginateBackwards timestamp modelDumpJson fetch limit l).result := rfl
    rw [and_iff_right hlimit, surfaces_iff_of_head hhead, hresult]
    rw [hfetch] at herror hok
    generalize hpage : (venue 0 (query 0 ⟨none, l⟩)).bind parse = page at herror hok
    cases page with
    | ok batch =>
      refine iff_of_true ⟨fun e he => ?_, fun hempty => ?_⟩ (fun ⟨e, he, _⟩ => by simp at he)
      · rw [he] at hpage
        exact absurd hpage (by simp [Except.bind])
      · rw [(hok batch rfl).mp hempty]
    | error e =>
      have herr := herror e rfl
      cases hrej : e.isRejection with
      | true =>
        -- the walk swallows it, and an empty list is no answer of the venue
        rw [hrej, if_pos rfl] at herr
        refine iff_of_false (fun h => ?_) (fun h => h ⟨e, rfl, hrej⟩)
        exact absurd (h.2 herr) (by simp)
      | false =>
        -- any other fault leaves the walk
        rw [hrej, if_neg (by simp)] at herr
        refine iff_of_true ⟨fun e' he' _ => ?_, fun hempty => ?_⟩ ?_
        · rw [he'] at hpage
          rw [herr]
          exact hpage.symm
        · exact absurd (herr.symm.trans hempty) (by simp)
        · rintro ⟨e', he', hrej'⟩
          rw [← Except.error.inj he', hrej] at hrej'
          exact absurd hrej' (by simp)
  · -- nothing was asked for, so nothing was answered
    have hwalk : walk timestamp modelDumpJson fetch query limit l = ⟨[], .ok []⟩ := by
      simp [walk, paginateBackwards_of_nonpos timestamp modelDumpJson fetch l
        (by omega : limit ≤ 0), queries]
    rw [hwalk]
    refine iff_of_false ?_ fun h => hlimit h.1
    rintro ⟨-, hempty⟩
    obtain ⟨q, rows, hq, -⟩ := hempty rfl
    exact absurd hq (by simp)

/-- A single page that lets every fault through, cut or not. -/
lemma surfaces_onePage_iff {fetch : Upstream α} {query : ℕ → PageRequest → Query} {limit : ℤ}
    {trims : Bool} (hfetch : fetch 0 ⟨none, limit⟩ = (venue 0 (query 0 ⟨none, limit⟩)).bind parse) :
    Surfaces venue parse (onePage fetch query trims limit) ↔
      (trims = true → ¬ CutAway limit ((venue 0 (query 0 ⟨none, limit⟩)).bind parse)) := by
  have hhead : (onePage fetch query trims limit).asked.head? = some (query 0 ⟨none, limit⟩) := rfl
  rw [surfaces_iff_of_head hhead]
  have hresult : (onePage fetch query trims limit).result =
      ((venue 0 (query 0 ⟨none, limit⟩)).bind parse).map fun batch =>
        if trims then sliceTail batch limit else batch := by
    rw [← hfetch]
    rfl
  rw [hresult]
  have hraised : ∀ e, venue 0 (query 0 ⟨none, limit⟩) = .error e → e.isValueError = true →
      (((venue 0 (query 0 ⟨none, limit⟩)).bind parse).map fun batch =>
        if trims then sliceTail batch limit else batch) = .error e := by
    intro e he _
    rw [he]
    rfl
  rw [and_iff_right hraised]
  generalize (venue 0 (query 0 ⟨none, limit⟩)).bind parse = page
  cases page with
  | error e => simp [Except.map, CutAway]
  | ok batch =>
    have hempty := sliceTail_eq_nil_iff batch limit
    cases trims with
    | false => simp [Except.map]
    | true =>
      simp only [Except.map, if_true, Except.ok.injEq, hempty, CutAway, forall_const]
      constructor
      · rintro h ⟨batch', rfl, hne, hneg, hlen⟩
        exact hne (h (Or.inr ⟨hneg, hlen⟩))
      · rintro h (hnil | ⟨hneg, hlen⟩)
        · exact hnil
        · by_contra hne
          exact h ⟨batch, rfl, hne, hneg, hlen⟩

/-! ## The shapes of a read -/

/-- A paged read whose fetch lets the faults of the first request through. -/
lemma PagedRead.callWith_surfaces_iff (r : PagedRead) {fetch : Upstream α}
    (hfetch : fetch 0 r.firstPage = (venue 0 r.first).bind parse) :
    Surfaces venue parse (r.callWith timestamp modelDumpJson fetch) ↔
      r.SurfacesWhen venue parse := by
  unfold PagedRead.first PagedRead.firstPage at hfetch
  unfold PagedRead.callWith PagedRead.SurfacesWhen PagedRead.first PagedRead.firstPage
  split
  · next hpag =>
    rw [if_pos hpag] at hfetch
    exact walk_surfaces_iff timestamp modelDumpJson hfetch
  · next hpag =>
    rw [if_neg hpag] at hfetch
    exact surfaces_onePage_iff hfetch

theorem PagedRead.call_surfaces_iff (r : PagedRead) :
    Surfaces venue parse (r.call timestamp modelDumpJson venue parse) ↔
      r.SurfacesWhen venue parse :=
  r.callWith_surfaces_iff timestamp modelDumpJson rfl

/-- An empty first page is an empty result, and the first request is `first` if there is one. -/
lemma PagedRead.callWith_of_empty (r : PagedRead) {fetch : Upstream α}
    (hfetch : fetch 0 r.firstPage = .ok []) :
    (r.callWith timestamp modelDumpJson fetch).result = .ok [] ∧
      ∀ q, (r.callWith timestamp modelDumpJson fetch).asked.head? = some q → q = r.first := by
  unfold PagedRead.firstPage at hfetch
  unfold PagedRead.callWith PagedRead.first PagedRead.firstPage
  split
  · next hpag =>
    rw [if_pos hpag] at hfetch
    by_cases hlimit : 1 ≤ r.limit
    · obtain ⟨hasked, -, hok⟩ :=
        paginateBackwards_first timestamp modelDumpJson fetch r.perReq hlimit
      refine ⟨(hok [] hfetch).mpr rfl, fun q hq => ?_⟩
      obtain ⟨rest, hrest⟩ := List.head?_eq_some_iff.mp hasked
      simp only [walk, queries, hrest, List.mapIdx_cons, List.head?_cons,
        Option.some.injEq] at hq
      exact hq.symm
    · have hcall := paginateBackwards_of_nonpos timestamp modelDumpJson fetch r.perReq
        (show r.limit ≤ 0 by omega)
      simp [walk, hcall, queries]
  · next hpag =>
    rw [if_neg hpag] at hfetch
    refine ⟨?_, fun q hq => (Option.some.inj hq).symm⟩
    cases htrims : r.trims <;> simp [onePage, hfetch, Except.map, sliceTail]

/-- A refusal that the fetch itself turns into an empty page is not surfaced either. -/
theorem PagedRead.liquidations_surfaces_iff (r : PagedRead) :
    Surfaces venue parse
        (r.callWith timestamp modelDumpJson (Okx.fetchLiquidations venue parse r.query)) ↔
      r.SurfacesWhenCaught venue parse := by
  by_cases hrefused : Refused (venue 0 r.first)
  · refine iff_of_false ?_ fun h => h.1 hrefused
    obtain ⟨e, he, hrej⟩ := hrefused
    have hempty : Okx.fetchLiquidations venue parse r.query 0 r.firstPage = .ok [] := by
      unfold Okx.fetchLiquidations
      rw [show venue 0 (r.query 0 r.firstPage) = .error e from he]
      exact if_pos hrej
    obtain ⟨hresult, hfirst⟩ := r.callWith_of_empty timestamp modelDumpJson hempty
    rintro ⟨-, hanswered⟩
    obtain ⟨q, rows, hq, hrows, -⟩ := hanswered hresult
    rw [hfirst q hq, he] at hrows
    exact absurd hrows (by simp)
  · unfold PagedRead.SurfacesWhenCaught
    rw [and_iff_right hrefused]
    apply r.callWith_surfaces_iff timestamp modelDumpJson
    show Okx.fetchLiquidations venue parse r.query 0 r.firstPage = (venue 0 r.first).bind parse
    unfold Okx.fetchLiquidations PagedRead.first
    cases hvenue : venue 0 (r.query 0 r.firstPage) with
    | ok rows => rfl
    | error e =>
      have hrej : ¬ e.isRejection = true := fun h => hrefused ⟨e, hvenue, h⟩
      exact if_neg hrej

/-- Of two candles of one timestamp the later one replaces the first, so none is lost but
those. -/
lemma Okx.byTimestamp_ne_nil {xs : List α} (h : xs ≠ []) : byTimestamp timestamp xs ≠ [] := by
  obtain ⟨init, last, rfl⟩ := List.eq_nil_or_concat xs |>.resolve_left h
  unfold byTimestamp
  intro hnil
  have hentries := List.map_eq_nil_iff.mp ((Newest.sortByTime_eq_nil timestamp).mp hnil)
  rw [List.concat_eq_append, List.foldl_concat, AList.entries_insert] at hentries
  exact List.cons_ne_nil _ _ hentries

omit [DecidableEq κ] in
/-- A page that is not empty is cut away exactly when its slice is empty. -/
lemma cutAway_iff {xs : List α} {limit : ℤ} :
    CutAway limit (.ok xs : Except Fault (List α)) ↔ xs ≠ [] ∧ sliceTail xs limit = [] := by
  rw [sliceTail_eq_nil_iff]
  constructor
  · rintro ⟨ys, hys, hne, hneg⟩
    obtain rfl : xs = ys := Except.ok.inj hys
    exact ⟨hne, Or.inr hneg⟩
  · rintro ⟨hne, hnil | hneg⟩
    · exact absurd hnil hne
    · exact ⟨xs, rfl, hne, hneg⟩

namespace Okx

/-- Whatever the recent candles are, they are asked for first. -/
lemma getCandles_head (c : CandlesRead) :
    (getCandles timestamp modelDumpJson venue parse c).asked.head? = some c.first := by
  unfold getCandles
  split
  · rfl
  · split
    · rfl
    · split
      · rfl
      · split <;> rfl

/-- Recent candles that are enough are returned, cut to the limit. -/
lemma getCandles_of_enough {c : CandlesRead} {oldest : α} {rest : List α}
    (hpage : (venue 0 c.first).bind parse = .ok (oldest :: rest))
    (henough : c.single = true ∨ c.limit ≤ ((oldest :: rest).length : ℤ)) :
    (getCandles timestamp modelDumpJson venue parse c).result =
      .ok (sliceTail (oldest :: rest) c.limit) := by
  unfold getCandles
  simp only [hpage]
  by_cases hsingle : c.single = true
  · rw [if_pos hsingle]
  · rw [if_neg hsingle, if_pos (henough.resolve_left hsingle)]

/-- Recent candles that are too few are joined with history, and the result is not empty. -/
lemma getCandles_of_few {c : CandlesRead} {oldest : α} {rest : List α}
    (hpage : (venue 0 c.first).bind parse = .ok (oldest :: rest))
    (hfew : ¬ (c.single = true ∨ c.limit ≤ ((oldest :: rest).length : ℤ))) :
    (getCandles timestamp modelDumpJson venue parse c).result ≠ .ok [] := by
  push Not at hfew
  have hpos : 0 < c.limit := by
    have := hfew.2
    simp only [List.length_cons] at this
    omega
  unfold getCandles
  simp only [hpage, if_neg hfew.1, if_neg (not_le.mpr hfew.2)]
  -- the history may end in a fault, or be empty: the recent candles stay
  generalize (historyWalk timestamp modelDumpJson venue parse c _ _).result = older
  cases older with
  | error e => simp [Except.map]
  | ok history =>
    intro hnil
    have hslice := (sliceTail_eq_nil_iff _ _).mp (Except.ok.inj hnil)
    rcases hslice with hnil | ⟨hneg, -⟩
    · exact byTimestamp_ne_nil timestamp (by simp) hnil
    · omega

/-- Recent candles are asked for outside the walk, so a refusal gets through. -/
theorem getCandles_surfaces_iff (c : CandlesRead) :
    Surfaces venue parse (getCandles timestamp modelDumpJson venue parse c) ↔
      c.SurfacesWhen venue parse := by
  unfold CandlesRead.SurfacesWhen
  rw [surfaces_iff_of_head (getCandles_head timestamp modelDumpJson c)]
  cases hpage : (venue 0 c.first).bind parse with
  | error e =>
    have hresult : (getCandles timestamp modelDumpJson venue parse c).result = .error e := by
      simp [getCandles, hpage]
    refine iff_of_true ⟨fun e' he' _ => ?_, fun hempty => ?_⟩ ?_
    · rw [he'] at hpage
      rw [hresult, ← Except.error.inj hpage]
    · exact absurd (hresult.symm.trans hempty) (by simp)
    · rintro ⟨batch, hbatch, -⟩
      exact absurd hbatch (by simp)
  | ok batch =>
    have hraised : ∀ e, venue 0 c.first = .error e → e.isValueError = true →
        (getCandles timestamp modelDumpJson venue parse c).result = .error e := by
      intro e he _
      rw [he] at hpage
      exact absurd hpage (by simp [Except.bind])
    rw [and_iff_right hraised, cutAway_iff]
    cases batch with
    | nil => simp
    | cons oldest rest =>
      by_cases henough : c.single = true ∨ c.limit ≤ ((oldest :: rest).length : ℤ)
      · rw [getCandles_of_enough timestamp modelDumpJson hpage henough]
        simp
      · have hresult := getCandles_of_few timestamp modelDumpJson hpage henough
        refine iff_of_true (fun h => absurd h hresult) ?_
        rintro ⟨-, hnil⟩
        rcases (sliceTail_eq_nil_iff _ _).mp hnil with hnil | ⟨hneg, -⟩
        · exact absurd hnil (List.cons_ne_nil _ _)
        · push Not at henough
          have hlen := henough.2
          simp only [List.length_cons] at hlen
          omega

end Okx

variable (venue parse) in
/-- When a method of that shape surfaces the first answer. -/
def Shape.SurfacesWhen : Shape → Prop
  | plain r => r.SurfacesWhen venue parse
  | caught r => r.SurfacesWhenCaught venue parse
  | recentFirst c => c.SurfacesWhen venue parse

/-- For every read, start and limit: the first answer surfaces when the call does not walk,
or walks with something to ask for and a first page that is not refused. -/
theorem Read.surfaces_iff (read : Read) (startTime : Option ℤ) (limit : ℤ) :
    Surfaces venue parse (read.call timestamp modelDumpJson venue parse startTime limit) ↔
      (read.shape startTime limit).SurfacesWhen venue parse := by
  unfold Read.call
  cases read.shape startTime limit with
  | plain r => exact r.call_surfaces_iff timestamp modelDumpJson
  | caught r => exact r.liquidations_surfaces_iff timestamp modelDumpJson
  | recentFirst c => exact Okx.getCandles_surfaces_iff timestamp modelDumpJson c

end

/-- Bybit's funding rates of a symbol it does not know: `retCode` 10001 is a `ValueError`, and
the call returns an empty list. -/
theorem bybit_funding_rate_refusal_swallowed :
    let venue : Venue (List ℤ) := fun _ _ =>
      .error (.valueError "Bybit API Error (10001): params error: symbol invalid")
    let call := (Read.bybitFundingRate "linear" "NOPEUSDT").call id id venue .ok none 100
    call.result = .ok [] ∧ ¬ Surfaces venue .ok call := by
  intro venue call
  have hresult : call.result = .ok [] := by decide
  refine ⟨hresult, ?_⟩
  rintro ⟨-, hanswered⟩
  obtain ⟨q, rows, -, hrows, -⟩ := hanswered hresult
  exact absurd hrows (by simp [venue])

end ExchangeRouter
