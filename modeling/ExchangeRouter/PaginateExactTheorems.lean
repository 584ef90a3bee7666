import ExchangeRouter.Lib.Chronological
import ExchangeRouter.PaginateSafetyTheorems

/-!
# The walk over a history without ties

Where no two records share a time, what a walk should return is one list: the tail of the
history at or before `start`. `paginateBackwards_newest` is the walk over an upstream that
counts records, `paginateBackwards_windows` the one over an upstream that answers with the
records of a time window; there the result is that list exactly when every record of it is in
the first window or in the window of a newer one (`Linked`).
-/

namespace ExchangeRouter

open Newest

section

variable {α κ : Type*} [DecidableEq κ] {timestamp : α → ℤ} {modelDumpJson : α → κ}

variable (timestamp modelDumpJson) in
/-- The dump of a record shows its time. -/
def DumpsTime : Prop := ∀ x y, modelDumpJson x = modelDumpJson y → timestamp x = timestamp y

omit [DecidableEq κ] in
/-- In a history without ties no dump stands twice. -/
lemma DumpsTime.nodup (h : DumpsTime timestamp modelDumpJson) {history : List α}
    (hchrono : Chronological timestamp history) : (history.map modelDumpJson).Nodup := by
  rw [List.Nodup, List.pairwise_map]
  exact hchrono.imp fun hlt heq => hlt.ne (h _ _ heq)

omit [DecidableEq κ] in
lemma chronological_upTo {history : List α} (h : Chronological timestamp history)
    (bound : Option ℤ) : Chronological timestamp (upTo timestamp bound history) :=
  h.sublist List.filter_sublist

/-! ## The cap -/

variable (timestamp modelDumpJson) in
/-- A request that is counted has brought a record. -/
lemma pageStep_counted (fetch : Upstream α) (l : ℤ) {s : PageState α κ}
    (hs : s.reqCount ≤ s.collected) :
    match pageStep timestamp modelDumpJson fetch l s with
    | .stop s' _ => s'.reqCount ≤ s'.collected
    | .again s' => s'.reqCount ≤ s'.collected := by
  have habsorb : ∀ (r : PageRequest) (newItems : List α) (seen : List κ), newItems ≠ [] →
      ((s.sent r).absorb newItems seen).reqCount ≤
        ((s.sent r).absorb newItems seen).collected := by
    intro r newItems seen hnew
    have hlength := List.length_pos_iff.mpr hnew
    show s.reqCount + 1 ≤ s.collected + newItems.length
    omega
  rcases pageStep_cases timestamp modelDumpJson fetch l s with
    ⟨e, -, hstep⟩ | ⟨batch, -, ⟨-, hstep⟩ | ⟨oldest, rest, newItems, seen, -, -, hcases⟩⟩
  · rw [hstep]
    exact hs
  · rw [hstep]
    exact hs
  · rcases hcases with ⟨-, hstep⟩ | ⟨hnew, -, hstep⟩ | ⟨hnew, -, hstep⟩
    · rw [hstep]
      exact hs
    · rw [hstep]
      exact habsorb _ newItems seen hnew
    · rw [hstep]
      exact habsorb _ newItems seen hnew

variable (timestamp modelDumpJson) in
lemma pageLoop_counted (fetch : Upstream α) (limit l : ℤ) (left : ℕ) {s : PageState α κ}
    (hs : s.reqCount ≤ s.collected) :
    (pageLoop timestamp modelDumpJson fetch limit l left s).1.reqCount ≤
      (pageLoop timestamp modelDumpJson fetch limit l left s).1.collected := by
  induction left generalizing s with
  | zero => exact hs
  | succ left ih =>
    unfold pageLoop
    split
    · have hstep := pageStep_counted timestamp modelDumpJson fetch l hs
      cases hround : pageStep timestamp modelDumpJson fetch l s with
      | stop s' fault =>
        rw [hround] at hstep
        exact hstep
      | again s' =>
        rw [hround] at hstep
        exact ih hstep
    · exact hs

/-- A call for no more records than the cap has pages does not reach the cap. -/
theorem not_truncated_of_le (fetch : Upstream α) {limit : ℤ} (l : ℤ)
    (hlimit : limit ≤ maxRequests) :
    ¬ (pageRun timestamp modelDumpJson fetch limit l).1.truncated limit := by
  rintro ⟨hcap, hfew⟩
  have hcounted : (pageRun timestamp modelDumpJson fetch limit l).1.reqCount ≤
      (pageRun timestamp modelDumpJson fetch limit l).1.collected :=
    pageLoop_counted timestamp modelDumpJson fetch limit l maxRequests (Nat.le_refl 0)
  omega

/-! ## An upstream that counts records -/

/-- The walk goes on from a positive anchor only. -/
lemma pos_of_again {fetch : Upstream α} {l : ℤ} {s s' : PageState α κ}
    (h : pageStep timestamp modelDumpJson fetch l s = .again s') :
    ∀ e ∈ s'.currentEnd, 0 < e := by
  rcases pageStep_cases timestamp modelDumpJson fetch l s with
    ⟨e, -, hstep⟩ | ⟨batch, -, hcases⟩
  · rw [hstep] at h
    exact absurd h (by simp)
  rcases hcases with ⟨-, hstep⟩ | ⟨oldest, rest, newItems, seen, -, -, hcases⟩
  · rw [hstep] at h
    exact absurd h (by simp)
  rcases hcases with ⟨-, hstep⟩ | ⟨-, -, hstep⟩ | ⟨-, hmove, hstep⟩
  · rw [hstep] at h
    exact absurd h (by simp)
  · rw [hstep] at h
    exact absurd h (by simp)
  · rw [hstep] at h
    obtain rfl := PageStep.again.inj h
    intro e he
    obtain rfl : timestamp oldest = e := Option.some.inj he
    simp only [stalled, Bool.or_eq_false_iff, decide_eq_false_iff_not] at hmove
    omega

section

variable {fetch fetch' : Upstream α} {l : ℤ}
  (hagree : ∀ n endTs, (∀ e ∈ endTs, 0 < e) → fetch n ⟨endTs, l⟩ = fetch' n ⟨endTs, l⟩)

include hagree in
/-- The walk does not look at what an upstream answers to an anchor that is not positive. -/
lemma pageLoop_congr (limit : ℤ) (left : ℕ) {s : PageState α κ}
    (hs : ∀ e ∈ s.currentEnd, 0 < e) :
    pageLoop timestamp modelDumpJson fetch limit l left s =
      pageLoop timestamp modelDumpJson fetch' limit l left s := by
  induction left generalizing s with
  | zero => rfl
  | succ left ih =>
    unfold pageLoop
    rw [pageStep_congr (hagree s.reqCount s.currentEnd hs)]
    split
    · cases hround : pageStep timestamp modelDumpJson fetch' l s with
      | stop s' fault => rfl
      | again s' => exact ih (pos_of_again hround)
    · rfl

include hagree in
lemma pageRun_congr (limit : ℤ) : pageRun timestamp modelDumpJson fetch limit l =
    pageRun timestamp modelDumpJson fetch' limit l :=
  pageLoop_congr hagree limit maxRequests fun e he => absurd he (by simp)

include hagree in
lemma paginateBackwards_congr (limit : ℤ) :
    paginateBackwards timestamp modelDumpJson fetch limit l =
      paginateBackwards timestamp modelDumpJson fetch' limit l := by
  simp only [paginateBackwards, pageRun_congr hagree limit]

end

/-- Pages of the newest `l` records at or before their anchor: a walk that the cap does not end
returns the newest `limit` records at or before `start`. -/
theorem paginateBackwards_newest {history : List α} {start : Option ℤ} {l limit : ℕ}
    {fetch : Upstream α} (hchrono : Chronological timestamp history)
    (hpos : ∀ x ∈ history, 0 < timestamp x) (hdump : DumpsTime timestamp modelDumpJson)
    (hl : 1 < l) (hlimit : 1 ≤ limit)
    (hfetch : ∀ n endTs, (∀ e ∈ endTs, 0 < e) → ∃ batch, fetch n ⟨endTs, l⟩ = .ok batch ∧
      IsNewest timestamp l (upTo timestamp (anchor endTs start) history) batch)
    (hcap : ¬ (pageRun timestamp modelDumpJson fetch limit l).1.truncated limit) :
    (paginateBackwards timestamp modelDumpJson fetch limit l).result =
      .ok ((upTo timestamp start history).rtake limit) := by
  -- nothing is as old as an anchor that is not positive
  let fetch' : Upstream α := fun n request =>
    if ∀ e ∈ request.endTs, 0 < e then fetch n request else .ok []
  have hagree : ∀ n endTs, (∀ e ∈ endTs, 0 < e) → fetch n ⟨endTs, l⟩ = fetch' n ⟨endTs, l⟩ :=
    fun n endTs h => (if_pos h).symm
  have hserves : ServesNewest timestamp history start l fetch' := by
    intro n endTs
    by_cases h : ∀ e ∈ endTs, 0 < e
    · rw [← hagree n endTs h]
      exact hfetch n endTs h
    · refine ⟨[], if_neg h, ?_⟩
      push Not at h
      obtain ⟨e, he, hle⟩ := h
      have hnil : upTo timestamp (anchor endTs start) history = [] := by
        rw [List.eq_nil_iff_forall_not_mem]
        intro x hx
        obtain ⟨hx, hbound⟩ := mem_upTo.mp hx
        have hxe : timestamp x ≤ e := hbound e (by rw [he]; rfl)
        have hxpos := hpos x hx
        omega
      rw [hnil]
      exact ⟨UpperPart.nil [], by simp⟩
  have hms : ∀ t, history.countP (fun x => timestamp x = t) < l := by
    intro t
    have hone := List.nodup_iff_count_le_one.mp hchrono.nodup_times t
    rw [List.count, List.countP_map] at hone
    exact lt_of_le_of_lt hone hl
  rw [paginateBackwards_congr hagree]
  rw [pageRun_congr hagree] at hcap
  obtain ⟨out, hout, hsorted, -, hnewest⟩ := paginateBackwards_complete history start l limit
    fetch' (hdump.nodup hchrono) hpos hlimit hms hserves hcap
  have hall := chronological_upTo hchrono start
  rw [hout, ← hnewest.sort_eq_rtake hall, hsorted.sort_eq]

/-! ## An upstream that answers with a window of time -/

section

variable (timestamp) (all : List α)

/-- An anchor that a walk over `all` sets: none for the first request, then times of records. -/
def SetsAnchor (n : ℕ) : Option ℤ → Prop
  | none => n = 0
  | some a => ∃ x ∈ all, timestamp x = a

variable (since : Option ℤ → ℤ)

/-- The page of an anchor holds what lies between `since` of the anchor and the anchor. Whether
a record at the anchor is in it again is left open. -/
def ServesSince (l : ℤ) (fetch : Upstream α) : Prop :=
  ∀ n endTs, SetsAnchor timestamp all n endTs → ∃ batch, fetch n ⟨endTs, l⟩ = .ok batch ∧
    (∀ x ∈ batch, x ∈ all ∧ since endTs ≤ timestamp x ∧ ∀ a ∈ endTs, timestamp x ≤ a) ∧
    ∀ x ∈ all, since endTs ≤ timestamp x → (∀ a ∈ endTs, timestamp x < a) → x ∈ batch

/-- The record is in the first window, or in the one that ends at a newer record. -/
def Linked (x : α) : Prop :=
  since none ≤ timestamp x ∨
    ∃ y ∈ all, timestamp x < timestamp y ∧ since (some (timestamp y)) ≤ timestamp x

/-- The invariant of the walk: it holds the records from its anchor on, each of them linked. -/
structure WindowWalk (modelDumpJson : α → κ) (s : PageState α κ) : Prop
    extends Tidy modelDumpJson s where
  subset : s.held ⊆ all
  linked : ∀ x ∈ s.held, Linked timestamp all since x
  first : s.currentEnd = none → s.held = [] ∧ s.reqCount = 0
  reached : ∀ a ∈ s.currentEnd, ∃ x ∈ all, timestamp x = a
  started : s.currentEnd ≠ none → ∀ x ∈ all, since none ≤ timestamp x → x ∈ s.held
  held_iff : ∀ a ∈ s.currentEnd, ∀ x ∈ all, x ∈ s.held ↔ a ≤ timestamp x

/-- What the walk holds when it has ended: an upper part of linked records, and every linked
record that nothing newer is missing before, unless it was asked for no more. -/
structure WindowEnd (modelDumpJson : α → κ) (limit : ℕ) (s : PageState α κ) : Prop
    extends Tidy modelDumpJson s where
  subset : s.held ⊆ all
  linked : ∀ x ∈ s.held, Linked timestamp all since x
  upper : ∀ x ∈ s.held, ∀ y ∈ all, timestamp x ≤ timestamp y → y ∈ s.held
  enough : limit ≤ s.collected ∨ ∀ x ∈ all, Linked timestamp all since x →
    (∀ y ∈ all, timestamp x < timestamp y → y ∈ s.held) → x ∈ s.held

end

section

variable {all : List α} {since : Option ℤ → ℤ} {l : ℤ} {fetch : Upstream α}

omit [DecidableEq κ] in
lemma WindowWalk.init : WindowWalk timestamp all since modelDumpJson {} where
  toTidy := Tidy.init
  subset := List.nil_subset _
  linked := fun x hx => absurd hx List.not_mem_nil
  first := fun _ => ⟨rfl, rfl⟩
  reached := fun a ha => absurd ha (by simp)
  started := fun h => absurd rfl h
  held_iff := fun a ha => absurd ha (by simp)

omit [DecidableEq κ] in
lemma WindowWalk.setsAnchor {s : PageState α κ}
    (h : WindowWalk timestamp all since modelDumpJson s) :
    SetsAnchor timestamp all s.reqCount s.currentEnd := by
  cases hend : s.currentEnd with
  | none => exact (h.first hend).2
  | some a => exact h.reached a hend

omit [DecidableEq κ] in
lemma WindowWalk.upper {s : PageState α κ}
    (h : WindowWalk timestamp all since modelDumpJson s) :
    ∀ x ∈ s.held, ∀ y ∈ all, timestamp x ≤ timestamp y → y ∈ s.held := by
  intro x hx y hy hle
  cases hend : s.currentEnd with
  | none =>
    rw [(h.first hend).1] at hx
    exact absurd hx List.not_mem_nil
  | some a =>
    have hax := (h.held_iff a hend x (h.subset hx)).mp hx
    exact (h.held_iff a hend y hy).mpr (hax.trans hle)

omit [DecidableEq κ] in
/-- A walk that has enough may end. -/
lemma WindowWalk.done {s : PageState α κ} (h : WindowWalk timestamp all since modelDumpJson s)
    {limit : ℕ} (henough : limit ≤ s.collected) :
    WindowEnd timestamp all since modelDumpJson limit s :=
  ⟨h.toTidy, h.subset, h.linked, h.upper, Or.inl henough⟩

omit [DecidableEq κ] in
/-- A walk whose next window has nothing new is at its end. -/
lemma WindowWalk.stuck (hmono : ∀ a b, a ≤ b → since (some a) ≤ since (some b))
    {s : PageState α κ} (h : WindowWalk timestamp all since modelDumpJson s)
    (hstuck : ∀ x ∈ all, since s.currentEnd ≤ timestamp x → x ∈ s.held) (limit : ℕ)
    (r : PageRequest) : WindowEnd timestamp all since modelDumpJson limit (s.sent r) := by
  refine ⟨h.toTidy.sent r, h.subset, h.linked, h.upper, Or.inr ?_⟩
  show ∀ x ∈ all, _ → (∀ y ∈ all, timestamp x < timestamp y → y ∈ s.held) → x ∈ s.held
  intro x hx hlink hnewer
  cases hend : s.currentEnd with
  | none =>
    rw [hend] at hstuck
    rcases hlink with hfirst | ⟨y, hy, hlt, -⟩
    · exact hstuck x hx hfirst
    · have hheld := hnewer y hy hlt
      rw [(h.first hend).1] at hheld
      exact absurd hheld List.not_mem_nil
  | some a =>
    rw [hend] at hstuck
    rcases hlink with hfirst | ⟨y, hy, hlt, hwindow⟩
    · exact h.started (by simp [hend]) x hx hfirst
    · have hay := (h.held_iff a hend y hy).mp (hnewer y hy hlt)
      exact hstuck x hx ((hmono a _ hay).trans hwindow)

omit [DecidableEq κ] in
/-- A record of the page is within the window, or linked to the anchor's record. -/
lemma WindowWalk.linked_of_page {s : PageState α κ}
    (h : WindowWalk timestamp all since modelDumpJson s) {x : α} (hx : x ∈ all)
    (hsince : since s.currentEnd ≤ timestamp x) (hle : ∀ a ∈ s.currentEnd, timestamp x ≤ a) :
    Linked timestamp all since x := by
  cases hend : s.currentEnd with
  | none =>
    left
    rw [hend] at hsince
    exact hsince
  | some a =>
    obtain ⟨y, hy, rfl⟩ := h.reached a hend
    rcases (hle _ hend).lt_or_eq with hlt | heq
    · right
      rw [hend] at hsince
      exact ⟨y, hy, hlt, hsince⟩
    · -- the record at the anchor is held already
      exact h.linked x ((h.held_iff _ hend x hx).mpr heq.ge)

omit [DecidableEq κ] in
/-- What is held and the page are all there is from the oldest record of the page on. -/
lemma WindowWalk.held_or_page_iff {s : PageState α κ}
    (h : WindowWalk timestamp all since modelDumpJson s) {batch : List α} {oldest : α}
    (hwhole : ∀ x ∈ all, since s.currentEnd ≤ timestamp x →
      (∀ a ∈ s.currentEnd, timestamp x < a) → x ∈ batch)
    (holdest : ∀ x ∈ batch, timestamp oldest ≤ timestamp x)
    (hsince : since s.currentEnd ≤ timestamp oldest)
    (hlt : ∀ a ∈ s.currentEnd, timestamp oldest < a) {x : α} (hx : x ∈ all) :
    (x ∈ s.held ∨ x ∈ batch) ↔ timestamp oldest ≤ timestamp x := by
  constructor
  · rintro (hin | hin)
    · cases hend : s.currentEnd with
      | none =>
        rw [(h.first hend).1] at hin
        exact absurd hin List.not_mem_nil
      | some a =>
        have hax := (h.held_iff a hend x hx).mp hin
        exact (hlt a hend).le.trans hax
    · exact holdest x hin
  · intro hle
    cases hend : s.currentEnd with
    | none =>
      right
      apply hwhole x hx (hsince.trans hle)
      simp [hend]
    | some a =>
      rcases lt_or_ge (timestamp x) a with hxa | hax
      · right
        apply hwhole x hx (hsince.trans hle)
        intro b hb
        obtain rfl : a = b := Option.some.inj (hend.symm.trans hb)
        exact hxa
      · left
        exact (h.held_iff a hend x hx).mpr hax

/-- A page that reaches further back takes the walk on to its oldest record. -/
lemma WindowWalk.advance (hchrono : Chronological timestamp all)
    (hdump : DumpsTime timestamp modelDumpJson) {s : PageState α κ}
    (h : WindowWalk timestamp all since modelDumpJson s) (r : PageRequest)
    {batch newItems rest : List α} {oldest : α} {seen : List κ}
    (hpage : ∀ x ∈ batch, x ∈ all ∧ since s.currentEnd ≤ timestamp x ∧
      ∀ a ∈ s.currentEnd, timestamp x ≤ a)
    (hwhole : ∀ x ∈ all, since s.currentEnd ≤ timestamp x →
      (∀ a ∈ s.currentEnd, timestamp x < a) → x ∈ batch)
    (hsort : sortByTime timestamp batch = oldest :: rest)
    (hdrop : dropSeen modelDumpJson s.seen (sortByTime timestamp batch) = (newItems, seen))
    (hmove : stalled s.currentEnd (timestamp oldest) = false) :
    WindowWalk timestamp all since modelDumpJson
      { (s.sent r).absorb newItems seen with currentEnd := some (timestamp oldest) } := by
  have htidy := (h.toTidy.sent r).absorb hdrop
  have hbatch : batch ⊆ all := fun x hx => (hpage x hx).1
  obtain ⟨holdest_mem, holdest⟩ := oldest_of_sort hsort
  obtain ⟨hold_all, hold_since, hold_le⟩ := hpage oldest holdest_mem
  have hheld : ∀ x, x ∈ ((s.sent r).absorb newItems seen).held ↔ x ∈ s.held ∨ x ∈ batch := by
    intro x
    rw [PageState.held_absorb, PageState.held_sent]
    exact h.toTidy.mem_absorb_iff (hdump.nodup hchrono) h.subset hbatch hdrop
  -- the new anchor is before the old one
  have hlt : ∀ a ∈ s.currentEnd, timestamp oldest < a := by
    intro a ha
    rw [ha] at hmove
    simp only [stalled, Option.any_some, Bool.or_eq_false_iff, decide_eq_false_iff_not] at hmove
    omega
  have hiff : ∀ x ∈ all, x ∈ ((s.sent r).absorb newItems seen).held ↔
      timestamp oldest ≤ timestamp x := by
    intro x hx
    rw [hheld]
    exact h.held_or_page_iff hwhole holdest hold_since hlt hx
  refine ⟨⟨htidy.seen_iff, htidy.nodup, htidy.collected_eq⟩, ?_, ?_, ?_, ?_, ?_, ?_⟩
  · intro x hx
    rcases (hheld x).mp hx with hx | hx
    · exact h.subset hx
    · exact hbatch hx
  · intro x hx
    rcases (hheld x).mp hx with hin | hin
    · exact h.linked x hin
    · obtain ⟨hx_all, hx_since, hx_le⟩ := hpage x hin
      exact h.linked_of_page hx_all hx_since hx_le
  · intro hnone
    exact absurd hnone (by simp)
  · intro a ha
    exact ⟨oldest, hold_all, Option.some.inj ha⟩
  · intro _ x hx hfirst
    apply (hheld x).mpr
    cases hend : s.currentEnd with
    | none =>
      right
      apply hwhole x hx
      · rw [hend]
        exact hfirst
      · simp [hend]
    | some a =>
      left
      exact h.started (by simp [hend]) x hx hfirst
  · intro a ha
    obtain rfl : timestamp oldest = a := Option.some.inj ha
    exact hiff

/-- A page takes the walk on, or the walk ends with it. -/
theorem WindowWalk.step (hchrono : Chronological timestamp all)
    (hpos : ∀ x ∈ all, 0 < timestamp x) (hdump : DumpsTime timestamp modelDumpJson)
    (hmono : ∀ a b, a ≤ b → since (some a) ≤ since (some b))
    (hserves : ServesSince timestamp all since l fetch) (limit : ℕ) {s : PageState α κ}
    (h : WindowWalk timestamp all since modelDumpJson s) :
    (∃ s', pageStep timestamp modelDumpJson fetch l s = .stop s' none ∧
      WindowEnd timestamp all since modelDumpJson limit s') ∨
    ∃ s', pageStep timestamp modelDumpJson fetch l s = .again s' ∧
      WindowWalk timestamp all since modelDumpJson s' ∧ s'.reqCount = s.reqCount + 1 := by
  obtain ⟨batch, hok, hpage, hwhole⟩ := hserves _ _ h.setsAnchor
  have hbatch : batch ⊆ all := fun x hx => (hpage x hx).1
  rcases pageStep_cases timestamp modelDumpJson fetch l s with
    ⟨e, herr, -⟩ | ⟨batch', hok', hcases⟩
  · rw [hok] at herr
    exact absurd herr (by simp)
  obtain rfl : batch = batch' := by rw [hok] at hok'; exact Except.ok.inj hok'
  -- a page that is held already leaves nothing new in the window
  have hstuck : batch ⊆ s.held → ∀ x ∈ all, since s.currentEnd ≤ timestamp x → x ∈ s.held := by
    intro hsub x hx hsince
    by_cases hbefore : ∀ a ∈ s.currentEnd, timestamp x < a
    · exact hsub (hwhole x hx hsince hbefore)
    · push Not at hbefore
      obtain ⟨a, ha, hle⟩ := hbefore
      exact (h.held_iff a ha x hx).mpr hle
  rcases hcases with ⟨hnil, hstep⟩ | ⟨oldest, rest, newItems, seen, hsort, hdrop, hcases⟩
  · refine Or.inl ⟨_, hstep, h.stuck hmono (hstuck ?_) limit _⟩
    rw [hnil]
    exact List.nil_subset _
  rw [← hsort] at hdrop
  have hmem_iff := fun x =>
    h.toTidy.mem_absorb_iff (hdump.nodup hchrono) h.subset hbatch hdrop (x := x)
  obtain ⟨holdest_mem, holdest⟩ := oldest_of_sort hsort
  rcases hcases with ⟨hnone, hstep⟩ | ⟨hnew, hstall, hstep⟩ | ⟨-, hmove, hstep⟩
  · refine Or.inl ⟨_, hstep, h.stuck hmono (hstuck ?_) limit _⟩
    intro x hx
    simpa [hnone] using (hmem_iff x).mpr (Or.inr hx)
  · -- the page would be held already, and then nothing in it is new
    exfalso
    have hheld : batch ⊆ s.held := by
      intro x hx
      have hxpos := hpos oldest (hbatch holdest_mem)
      cases hend : s.currentEnd with
      | none =>
        simp only [stalled, hend, Option.any_none, Bool.or_false, decide_eq_true_eq] at hstall
        omega
      | some a =>
        simp only [stalled, hend, Option.any_some, Bool.or_eq_true, decide_eq_true_eq] at hstall
        have hle : a ≤ timestamp oldest := by omega
        exact (h.held_iff a hend x (hbatch hx)).mpr (hle.trans (holdest x hx))
    obtain ⟨x, hx⟩ := List.exists_mem_of_ne_nil _ hnew
    have hfresh := (dropSeen_nodup modelDumpJson s.seen (sortByTime timestamp batch)).2
    have hsub := (dropSeen_sublist modelDumpJson s.seen (sortByTime timestamp batch)).subset
    rw [hdrop] at hfresh hsub
    have hxb : x ∈ batch := (mem_sortByTime timestamp).mp (hsub hx)
    have hseen := (h.seen_iff (modelDumpJson x)).mpr (List.mem_map_of_mem (hheld hxb))
    exact hfresh _ hseen (List.mem_map_of_mem hx)
  · exact Or.inr ⟨_, hstep, h.advance hchrono hdump _ hpage hwhole hsort hdrop hmove, rfl⟩

/-- The loop ends without an exception. Induction on the requests it may still send. -/
theorem pageLoop_windows (hchrono : Chronological timestamp all)
    (hpos : ∀ x ∈ all, 0 < timestamp x) (hdump : DumpsTime timestamp modelDumpJson)
    (hmono : ∀ a b, a ≤ b → since (some a) ≤ since (some b))
    (hserves : ServesSince timestamp all since l fetch) (limit left : ℕ) {s : PageState α κ}
    (h : WindowWalk timestamp all since modelDumpJson s)
    (hleft : s.reqCount + left = maxRequests) :
    (pageLoop timestamp modelDumpJson fetch limit l left s).2 = none ∧
      (¬ (pageLoop timestamp modelDumpJson fetch limit l left s).1.truncated limit →
        WindowEnd timestamp all since modelDumpJson limit
          (pageLoop timestamp modelDumpJson fetch limit l left s).1) := by
  induction left generalizing s with
  | zero =>
    refine ⟨rfl, fun hcap => h.done ?_⟩
    by_contra hfew
    exact hcap ⟨show maxRequests ≤ s.reqCount by omega,
      show (s.collected : ℤ) < limit by omega⟩
  | succ left ih =>
    unfold pageLoop
    split
    · rcases h.step hchrono hpos hdump hmono hserves limit with
        ⟨s', hstep, hend⟩ | ⟨s', hstep, hwalk, hcount⟩
      · rw [hstep]
        exact ⟨rfl, fun _ => hend⟩
      · rw [hstep]
        exact ih hwalk (by omega)
    · next hmany => exact ⟨rfl, fun _ => h.done (by omega)⟩

omit [DecidableEq κ] in
lemma WindowEnd.upperPart {limit : ℕ} {s : PageState α κ}
    (h : WindowEnd timestamp all since modelDumpJson limit s) :
    UpperPart timestamp all s.held := by
  refine ⟨List.Nodup.of_map _ h.nodup, h.subset, fun x hx hout y hy => ?_⟩
  by_contra hlt
  exact hout (h.upper y hy x hx (not_le.mp hlt).le)

omit [DecidableEq κ] in
/-- What the walk ends with holds the newest `limit` records exactly when they are linked. -/
lemma WindowEnd.tail_subset_iff (hchrono : Chronological timestamp all) {limit : ℕ}
    {s : PageState α κ} (h : WindowEnd timestamp all since modelDumpJson limit s) :
    all.rtake limit ⊆ s.held ↔ ∀ x ∈ all.rtake limit, Linked timestamp all since x := by
  constructor
  · exact fun hsub x hx => h.linked x (hsub hx)
  · intro hlinked
    rcases h.enough with hmany | hclosed
    · rw [← h.upperPart.rtake_eq_iff hchrono, h.upperPart.sort_eq_rtake hchrono]
      apply rtake_rtake
      rw [← h.collected_eq]
      exact Or.inl hmany
    · show ∀ x ∈ all.rtake limit, x ∈ s.held
      apply hchrono.rtake_induction (p := fun x => x ∈ s.held)
      intro x hx hnewer
      exact hclosed x (List.mem_of_mem_drop hx) (hlinked x hx) hnewer

/-- A walk over windows that the cap does not end returns the newest `limit` records exactly
when each of them is in the first window or in the window of a newer record. -/
theorem paginateBackwards_windows {limit : ℕ} (hlimit : 1 ≤ limit)
    (hchrono : Chronological timestamp all)
    (hpos : ∀ x ∈ all, 0 < timestamp x) (hdump : DumpsTime timestamp modelDumpJson)
    (hmono : ∀ a b, a ≤ b → since (some a) ≤ since (some b))
    (hserves : ServesSince timestamp all since l fetch)
    (hcap : ¬ (pageRun timestamp modelDumpJson fetch limit l).1.truncated limit) :
    (paginateBackwards timestamp modelDumpJson fetch limit l).result = .ok (all.rtake limit) ↔
      ∀ x ∈ all.rtake limit, Linked timestamp all since x := by
  have hinit : WindowWalk timestamp all since modelDumpJson {} := WindowWalk.init
  obtain ⟨hnone, hend⟩ :=
    pageLoop_windows hchrono hpos hdump hmono hserves limit maxRequests hinit rfl
  have hfin : WindowEnd timestamp all since modelDumpJson limit
    (pageRun timestamp modelDumpJson fetch limit l).1 := hend hcap
  have hperm := (pageRun timestamp modelDumpJson fetch limit l).1.out_perm timestamp
  have hout : (pageRun timestamp modelDumpJson fetch limit l).1.out timestamp =
      sortByTime timestamp (pageRun timestamp modelDumpJson fetch limit l).1.held := by
    have hall := hfin.upperPart
    rw [hall.sort_eq_rtake hchrono, ← hperm.length_eq,
      ← (hall.perm hperm.symm).sort_eq_rtake hchrono]
    exact (ascending_sortByTime timestamp _).sort_eq.symm
  rw [paginateBackwards_of_ended timestamp modelDumpJson hlimit hnone,
    ← hfin.tail_subset_iff hchrono, ← hfin.upperPart.rtake_eq_iff hchrono, hout,
    Except.ok.injEq]

end

end

end ExchangeRouter
