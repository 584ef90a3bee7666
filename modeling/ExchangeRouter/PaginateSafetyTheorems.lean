import ExchangeRouter.PaginateTheorems

/-!
# `_paginate_backwards` on an upstream that does anything

Nothing is asked of the upstream but that what it raises is a rejection. The walk still ends
within the cap, its anchors fall, and it returns the newest of the records it has collected.
-/

namespace ExchangeRouter

open Newest

section

variable {α κ : Type*} [DecidableEq κ] {timestamp : α → ℤ} {modelDumpJson : α → κ}

/-! ## What is collected -/

/-- No anchor but the first may be missing, and each is below those before it. -/
def Descending (anchors : List (Option ℤ)) : Prop :=
  anchors.Pairwise fun earlier later => ∃ b, later = some b ∧ ∀ a ∈ earlier, b < a

variable (modelDumpJson) in
/-- The distinct records of the batches that the requests got: each is of some batch, no dump
is there twice, and the dump of every record of a batch is there. -/
structure Collected (fetch : Upstream α) (asked : List PageRequest) (records : List α) : Prop where
  nodup : (records.map modelDumpJson).Nodup
  of_batch : ∀ x ∈ records, ∃ n request batch, asked[n]? = some request ∧
    fetch n request = .ok batch ∧ x ∈ batch
  covers : ∀ n request batch, asked[n]? = some request → fetch n request = .ok batch →
    ∀ x ∈ batch, modelDumpJson x ∈ records.map modelDumpJson

/-- What a walk has gathered, also when it has come to its end. -/
structure Gathered (modelDumpJson : α → κ) (fetch : Upstream α) (s : PageState α κ) : Prop
    extends Tidy modelDumpJson s where
  collected : Collected modelDumpJson fetch s.asked s.held
  descending : Descending (s.asked.map PageRequest.endTs)

/-- A walk that goes on: its requests are counted, and the next anchor is below the others. -/
structure Walking (modelDumpJson : α → κ) (fetch : Upstream α) (s : PageState α κ) : Prop
    extends Gathered modelDumpJson fetch s where
  counted : s.asked.length = s.reqCount
  falling : Descending (s.asked.map PageRequest.endTs ++ [s.currentEnd])

omit [DecidableEq κ] in
lemma Walking.init (fetch : Upstream α) :
    Walking modelDumpJson fetch ({} : PageState α κ) := by
  refine ⟨⟨Tidy.init, ⟨?_, ?_, ?_⟩, List.Pairwise.nil⟩, rfl, List.pairwise_singleton _ _⟩
  · exact List.nodup_nil
  · intro x hx
    exact absurd hx List.not_mem_nil
  · intro n request batch hn
    simp at hn

omit [DecidableEq κ] in
/-- One more request, and what it brought. -/
lemma Collected.snoc {fetch : Upstream α} {asked : List PageRequest} {records newItems : List α}
    (h : Collected modelDumpJson fetch asked records) (request : PageRequest)
    (hnodup : ((records ++ newItems).map modelDumpJson).Nodup)
    (hof : ∀ x ∈ newItems, ∃ batch, fetch asked.length request = .ok batch ∧ x ∈ batch)
    (hcovers : ∀ batch, fetch asked.length request = .ok batch →
      ∀ x ∈ batch, modelDumpJson x ∈ (records ++ newItems).map modelDumpJson) :
    Collected modelDumpJson fetch (asked ++ [request]) (records ++ newItems) := by
  refine ⟨hnodup, ?_, ?_⟩
  · intro x hx
    rcases List.mem_append.mp hx with hx | hx
    · obtain ⟨n, request', batch, hn, hbatch, hmem⟩ := h.of_batch x hx
      have hlt : n < asked.length := (List.getElem?_eq_some_iff.mp hn).1
      exact ⟨n, request', batch, by rw [List.getElem?_append_left hlt, hn], hbatch, hmem⟩
    · obtain ⟨batch, hbatch, hmem⟩ := hof x hx
      exact ⟨asked.length, request, batch, List.getElem?_concat_length, hbatch, hmem⟩
  · intro n request' batch hn hbatch x hx
    rw [List.getElem?_append] at hn
    split at hn
    · have hold := h.covers n request' batch hn hbatch x hx
      rw [List.map_append]
      exact List.mem_append_left _ hold
    · next hge =>
      have hlen : n = asked.length := by
        have hlt := (List.getElem?_eq_some_iff.mp hn).1
        simp only [List.length_singleton] at hlt
        omega
      subst hlen
      simp only [Nat.sub_self, List.getElem?_cons_zero, Option.some.injEq] at hn
      subst hn
      exact hcovers batch hbatch x hx

/-! ## One page -/

omit [DecidableEq κ] in
/-- The request of a round goes out and brings nothing new: the walk stops there. -/
lemma Walking.sent {fetch : Upstream α} {s : PageState α κ}
    (h : Walking modelDumpJson fetch s) (l : ℤ)
    (hcovers : ∀ batch, fetch s.reqCount ⟨s.currentEnd, l⟩ = .ok batch →
      ∀ x ∈ batch, modelDumpJson x ∈ s.held.map modelDumpJson) :
    Gathered modelDumpJson fetch (s.sent ⟨s.currentEnd, l⟩) := by
  refine ⟨h.toTidy.sent _, ?_, ?_⟩
  · have hsnoc : Collected modelDumpJson fetch (s.asked ++ [⟨s.currentEnd, l⟩]) (s.held ++ []) := by
      apply h.collected.snoc
      · rw [List.append_nil]
        exact h.nodup
      · exact fun x hx => absurd hx List.not_mem_nil
      · rw [List.append_nil, h.counted]
        exact hcovers
    rw [List.append_nil] at hsnoc
    exact hsnoc
  · show Descending ((s.asked ++ [_]).map PageRequest.endTs)
    rw [List.map_append]
    exact h.falling

/-- The request of a round goes out and brings a page with new records. -/
lemma Walking.absorb {fetch : Upstream α} {s : PageState α κ}
    (h : Walking modelDumpJson fetch s) {l : ℤ} {batch newItems : List α} {seen : List κ}
    (hbatch : fetch s.reqCount ⟨s.currentEnd, l⟩ = .ok batch)
    (hdrop : dropSeen modelDumpJson s.seen (sortByTime timestamp batch) = (newItems, seen)) :
    Gathered modelDumpJson fetch ((s.sent ⟨s.currentEnd, l⟩).absorb newItems seen) := by
  have htidy := (h.toTidy.sent ⟨s.currentEnd, l⟩).absorb hdrop
  have hsub : newItems.Sublist (sortByTime timestamp batch) := by
    have hall := dropSeen_sublist modelDumpJson s.seen (sortByTime timestamp batch)
    rwa [hdrop] at hall
  have hheld : ((s.sent ⟨s.currentEnd, l⟩).absorb newItems seen).held = s.held ++ newItems := by
    rw [PageState.held_absorb, PageState.held_sent]
  refine ⟨htidy, ?_, ?_⟩
  · rw [hheld]
    apply h.collected.snoc
    · rw [← hheld]
      exact htidy.nodup
    · intro x hx
      rw [h.counted]
      exact ⟨batch, hbatch, (mem_sortByTime timestamp).mp (hsub.subset hx)⟩
    · intro batch' hbatch' x hx
      rw [h.counted, hbatch, Except.ok.injEq] at hbatch'
      subst hbatch'
      have hsorted : x ∈ sortByTime timestamp batch := (mem_sortByTime timestamp).mpr hx
      rw [List.map_append, List.mem_append, ← h.seen_iff]
      have hcovers := dropSeen_covers modelDumpJson s.seen (sortByTime timestamp batch) hsorted
      rwa [hdrop] at hcovers
  · show Descending ((s.asked ++ [_]).map PageRequest.endTs)
    rw [List.map_append]
    exact h.falling

omit [DecidableEq κ] in
/-- A page whose oldest record is below the anchor. -/
lemma Walking.again {fetch : Upstream α} {s : PageState α κ}
    (h : Walking modelDumpJson fetch s) {l : ℤ} {newItems : List α} {seen : List κ} {oldest : α}
    (hgathered : Gathered modelDumpJson fetch ((s.sent ⟨s.currentEnd, l⟩).absorb newItems seen))
    (hmove : stalled s.currentEnd (timestamp oldest) = false) :
    Walking modelDumpJson fetch { (s.sent ⟨s.currentEnd, l⟩).absorb newItems seen with
      currentEnd := some (timestamp oldest) } := by
  refine ⟨⟨⟨hgathered.seen_iff, hgathered.nodup, hgathered.collected_eq⟩, hgathered.collected,
    hgathered.descending⟩, ?_, ?_⟩
  · show (s.asked ++ [_]).length = s.reqCount + 1
    rw [List.length_append, List.length_singleton, h.counted]
  · show Descending ((s.asked ++ [_]).map PageRequest.endTs ++ [some (timestamp oldest)])
    have hbelow : ∀ a ∈ s.currentEnd, timestamp oldest < a := by
      intro a ha
      have hend : s.currentEnd = some a := ha
      simp only [stalled, hend, Option.any_some, Bool.or_eq_false_iff,
        decide_eq_false_iff_not] at hmove
      omega
    apply List.pairwise_append.mpr
    refine ⟨?_, List.pairwise_singleton _ _, ?_⟩
    · rw [List.map_append]
      exact h.falling
    · intro earlier hearlier later hlater
      obtain rfl := List.mem_singleton.mp hlater
      refine ⟨_, rfl, fun a ha => ?_⟩
      rw [List.map_append] at hearlier
      rcases List.mem_append.mp hearlier with hmem | hmem
      · -- the anchors before the last one are above it
        obtain ⟨b, hb, hlt⟩ :=
          (List.pairwise_append.mp h.falling).2.2 earlier hmem _ (List.mem_singleton_self _)
        have hoa : timestamp oldest < b := hbelow b hb
        exact hoa.trans (hlt a ha)
      · have hlast : earlier = s.currentEnd := List.mem_singleton.mp hmem
        exact hbelow a (hlast ▸ ha)

/-- Everything a page does to a walk. -/
theorem Walking.step {fetch : Upstream α}
    (hfetch : ∀ n request e, fetch n request = .error e → e.isRejection) {s : PageState α κ}
    (h : Walking modelDumpJson fetch s) (l : ℤ) :
    (∃ s', pageStep timestamp modelDumpJson fetch l s = .stop s' none ∧
      Gathered modelDumpJson fetch s' ∧ s'.asked = s.asked ++ [⟨s.currentEnd, l⟩]) ∨
    ∃ s', pageStep timestamp modelDumpJson fetch l s = .again s' ∧
      Walking modelDumpJson fetch s' ∧ s'.reqCount = s.reqCount + 1 ∧
      s'.asked = s.asked ++ [⟨s.currentEnd, l⟩] := by
  rcases pageStep_cases timestamp modelDumpJson fetch l s with
    ⟨e, herror, hstep⟩ | ⟨batch, hbatch, hcases⟩
  · rw [if_pos (hfetch _ _ _ herror)] at hstep
    refine Or.inl ⟨_, hstep, h.sent l fun batch hok => ?_, rfl⟩
    rw [herror] at hok
    exact absurd hok (by simp)
  rcases hcases with ⟨hnil, hstep⟩ | ⟨oldest, rest, newItems, seen, hsort, hdrop, hcases⟩
  · refine Or.inl ⟨_, hstep, h.sent l fun batch' hok x hx => ?_, rfl⟩
    rw [hbatch, Except.ok.injEq] at hok
    subst hok
    rw [hnil] at hx
    exact absurd hx List.not_mem_nil
  rw [← hsort] at hdrop
  have hgathered := h.absorb hbatch hdrop
  rcases hcases with ⟨hnone, hstep⟩ | ⟨-, -, hstep⟩ | ⟨-, hmove, hstep⟩
  · refine Or.inl ⟨_, hstep, h.sent l fun batch' hok x hx => ?_, rfl⟩
    rw [hbatch, Except.ok.injEq] at hok
    subst hok
    have hsorted : x ∈ sortByTime timestamp batch := (mem_sortByTime timestamp).mpr hx
    have hcovers := dropSeen_covers modelDumpJson s.seen (sortByTime timestamp batch) hsorted
    rw [hdrop, hnone, h.seen_iff] at hcovers
    simpa using hcovers
  · exact Or.inl ⟨_, hstep, hgathered, rfl⟩
  · exact Or.inr ⟨_, hstep, h.again hgathered hmove, rfl, rfl⟩

/-! ## The loop -/

/-- Induction on the requests that the cap leaves, with `Walking` as the invariant. -/
theorem pageLoop_gathered {fetch : Upstream α}
    (hfetch : ∀ n request e, fetch n request = .error e → e.isRejection) (limit l : ℤ)
    (left : ℕ) {s : PageState α κ} (h : Walking modelDumpJson fetch s)
    (hleft : s.reqCount + left = maxRequests) :
    (pageLoop timestamp modelDumpJson fetch limit l left s).2 = none ∧
      Gathered modelDumpJson fetch (pageLoop timestamp modelDumpJson fetch limit l left s).1 ∧
      (pageLoop timestamp modelDumpJson fetch limit l left s).1.asked.length ≤ maxRequests := by
  induction left generalizing s with
  | zero =>
    refine ⟨rfl, h.toGathered, ?_⟩
    show s.asked.length ≤ maxRequests
    rw [h.counted]
    omega
  | succ left ih =>
    unfold pageLoop
    split
    · rcases h.step hfetch l with ⟨s', hstep, hgathered, hasked⟩ | ⟨s', hstep, hwalking, hcount, -⟩
      · rw [hstep]
        refine ⟨rfl, hgathered, ?_⟩
        show s'.asked.length ≤ maxRequests
        rw [hasked, List.length_append, List.length_singleton, h.counted]
        omega
      · rw [hstep]
        exact ih hwalking (by omega)
    · refine ⟨rfl, h.toGathered, ?_⟩
      show s.asked.length ≤ maxRequests
      rw [h.counted]
      omega

/-! ## A page that fails -/

/-- The upstream whose history ends at request number `k`. -/
def endsAt (k : ℕ) (fetch : Upstream α) : Upstream α := fun n request =>
  if n < k then fetch n request else .ok []

/-- A loop never takes back a request. -/
lemma pageLoop_asked {fetch : Upstream α}
    (hfetch : ∀ n request e, fetch n request = .error e → e.isRejection) (limit l : ℤ)
    (left : ℕ) {s : PageState α κ} (h : Walking modelDumpJson fetch s) :
    s.asked <+: (pageLoop timestamp modelDumpJson fetch limit l left s).1.asked := by
  induction left generalizing s with
  | zero => exact List.prefix_rfl
  | succ left ih =>
    unfold pageLoop
    split
    · rcases h.step hfetch l with ⟨s', hstep, -, hasked⟩ | ⟨s', hstep, hwalking, -, hasked⟩
      · rw [hstep]
        show s.asked <+: s'.asked
        rw [hasked]
        exact List.prefix_append _ _
      · rw [hstep]
        have hprefix : s.asked <+: s'.asked := hasked ▸ List.prefix_append _ _
        exact hprefix.trans (ih hwalking)
    · exact List.prefix_rfl

/-- A page looks at one answer only. -/
lemma pageStep_congr {fetch fetch' : Upstream α} {l : ℤ} {s : PageState α κ}
    (h : fetch s.reqCount ⟨s.currentEnd, l⟩ = fetch' s.reqCount ⟨s.currentEnd, l⟩) :
    pageStep timestamp modelDumpJson fetch l s = pageStep timestamp modelDumpJson fetch' l s := by
  simp only [pageStep, h]

/-- A page that is rejected and one that is empty. -/
lemma pageStep_endsAt {fetch : Upstream α} {l : ℤ} {s : PageState α κ} {e : Fault}
    (herror : fetch s.reqCount ⟨s.currentEnd, l⟩ = .error e) (he : e.isRejection) :
    pageStep timestamp modelDumpJson (endsAt s.reqCount fetch) l s =
      pageStep timestamp modelDumpJson fetch l s := by
  have hends : endsAt s.reqCount fetch s.reqCount ⟨s.currentEnd, l⟩ = .ok [] :=
    if_neg (lt_irrefl _)
  have hnil : sortByTime timestamp ([] : List α) = [] := rfl
  simp only [pageStep, herror, hends, hnil, he, if_true]

/-- A request that fails is as one that finds the end of the history. -/
theorem pageLoop_endsAt {fetch : Upstream α}
    (hfetch : ∀ n request e, fetch n request = .error e → e.isRejection) (limit l : ℤ) (k : ℕ)
    (left : ℕ) {s : PageState α κ} (h : Walking modelDumpJson fetch s) (hk : s.reqCount ≤ k)
    (hfails : ∀ request,
      (pageLoop timestamp modelDumpJson fetch limit l left s).1.asked[k]? = some request →
        ∃ e, fetch k request = .error e) :
    pageLoop timestamp modelDumpJson (endsAt k fetch) limit l left s =
      pageLoop timestamp modelDumpJson fetch limit l left s := by
  induction left generalizing s with
  | zero => rfl
  | succ left ih =>
    unfold pageLoop at hfails ⊢
    split
    · next hmore =>
      rw [if_pos hmore] at hfails
      rcases Nat.lt_or_eq_of_le hk with hlt | rfl
      · -- a request before the one that fails gets the same answer
        have hsame : endsAt k fetch s.reqCount ⟨s.currentEnd, l⟩ =
            fetch s.reqCount ⟨s.currentEnd, l⟩ := if_pos hlt
        rw [pageStep_congr hsame]
        rcases h.step hfetch l with ⟨s', hstep, -, -⟩ | ⟨s', hstep, hwalking, hcount, -⟩
        · rw [hstep]
        · rw [hstep] at hfails ⊢
          exact ih hwalking (by omega) hfails
      · have hfailed : ∃ e, fetch s.reqCount ⟨s.currentEnd, l⟩ = .error e := by
          apply hfails
          rcases h.step hfetch l with ⟨s', hstep, -, hasked⟩ | ⟨s', hstep, hwalking, -, hasked⟩
          all_goals
            rw [hstep]
            have hget : s'.asked[s.reqCount]? = some ⟨s.currentEnd, l⟩ := by
              rw [hasked, ← h.counted]
              exact List.getElem?_concat_length
          · exact hget
          · obtain ⟨later, hlater⟩ := pageLoop_asked hfetch limit l left hwalking
            have hlt := (List.getElem?_eq_some_iff.mp hget).1
            rw [← hlater, List.getElem?_append_left hlt, hget]
        obtain ⟨e, herror⟩ := hfailed
        rw [pageStep_endsAt herror (hfetch _ _ _ herror)]
        rcases pageStep_cases timestamp modelDumpJson fetch l s with
          ⟨e', -, hstop⟩ | ⟨batch, hok, -⟩
        · rw [hstop]
        · rw [herror] at hok
          exact absurd hok (by simp)
    · rfl

/-! ## The walk -/

/-- The walk on any upstream. A request that fails leaves what the ones before it brought: it
is as one that finds the end of the history. -/
theorem paginateBackwards_safe (timestamp : α → ℤ) (modelDumpJson : α → κ) (fetch : Upstream α)
    (limit l : ℤ) (hlimit : 1 ≤ limit)
    (hfetch : ∀ n request e, fetch n request = .error e → e.isRejection) :
    (paginateBackwards timestamp modelDumpJson fetch limit l).asked.length ≤ 100 ∧
    Descending ((paginateBackwards timestamp modelDumpJson fetch limit l).asked.map
      PageRequest.endTs) ∧
    (∃ out records, (paginateBackwards timestamp modelDumpJson fetch limit l).result = .ok out ∧
      Collected modelDumpJson fetch (paginateBackwards timestamp modelDumpJson fetch limit l).asked
        records ∧
      Ascending timestamp out ∧ out.length ≤ limit.toNat ∧ (out.map modelDumpJson).Nodup ∧
      (∀ x ∈ out, ∃ n request batch, fetch n request = .ok batch ∧ x ∈ batch) ∧
      IsNewest timestamp limit.toNat records out) ∧
    ∀ k request e,
      (paginateBackwards timestamp modelDumpJson fetch limit l).asked[k]? = some request →
      fetch k request = .error e →
      paginateBackwards timestamp modelDumpJson (endsAt k fetch) limit l =
        paginateBackwards timestamp modelDumpJson fetch limit l := by
  have hinit : Walking modelDumpJson fetch ({} : PageState α κ) := Walking.init fetch
  obtain ⟨hnone, hgathered, hlen⟩ : _ ∧ Gathered modelDumpJson fetch
      (pageLoop timestamp modelDumpJson fetch limit l maxRequests {}).1 ∧ _ :=
    pageLoop_gathered hfetch limit l maxRequests hinit rfl
  refine ⟨hlen, hgathered.descending, ?_, ?_⟩
  · generalize hrun : (pageRun timestamp modelDumpJson fetch limit l).1 = s
    have hs : (pageLoop timestamp modelDumpJson fetch limit l maxRequests {}).1 = s := hrun
    have hrun2 : (pageRun timestamp modelDumpJson fetch limit l).2 = none := hnone
    rw [hs] at hgathered
    have hperm := s.out_perm timestamp
    have hsorted : Ascending timestamp (s.out timestamp) := ascending_sortByTime timestamp _
    have hheld : s.held.Nodup := List.Nodup.of_map _ hgathered.nodup
    have hupper : UpperPart timestamp s.held (s.out timestamp) :=
      (UpperPart.of_complete hheld (List.Subset.refl _) (List.Subset.refl _)).perm hperm.symm
    have htail : sliceTail (s.out timestamp) limit = (s.out timestamp).rtake limit.toNat := by
      rw [sliceTail, if_pos (by omega)]
    have hnewest : IsNewest timestamp limit.toNat s.held ((s.out timestamp).rtake limit.toNat) :=
      isNewest_rtake hupper hsorted hheld (Or.inr fun x hx => hperm.mem_iff.mpr hx)
    refine ⟨(s.out timestamp).rtake limit.toNat, s.held, ?_, ?_, hsorted.rtake _, ?_, ?_, ?_,
      hnewest⟩
    · simp only [paginateBackwards, hrun, hrun2, htail]
    · show Collected modelDumpJson fetch (pageRun timestamp modelDumpJson fetch limit l).1.asked _
      rw [hrun]
      exact hgathered.collected
    · rw [hnewest.length_eq]
      exact min_le_left _ _
    · have hnodup : ((s.out timestamp).map modelDumpJson).Nodup :=
        (hperm.map modelDumpJson).nodup_iff.mpr hgathered.nodup
      exact hnodup.sublist ((List.drop_sublist _ _).map _)
    · intro x hx
      obtain ⟨n, request, batch, -, hbatch, hmem⟩ :=
        hgathered.collected.of_batch x (hnewest.subset hx)
      exact ⟨n, request, batch, hbatch, hmem⟩
  · intro k request e hasked herror
    have hloop : pageLoop timestamp modelDumpJson (endsAt k fetch) limit l maxRequests {} =
        pageLoop timestamp modelDumpJson fetch limit l maxRequests {} := by
      apply pageLoop_endsAt hfetch limit l k maxRequests hinit (Nat.zero_le _)
      intro request' hasked'
      have hsame : some request = some request' := hasked.symm.trans hasked'
      rw [Option.some.injEq] at hsame
      exact ⟨e, hsame ▸ herror⟩
    unfold paginateBackwards pageRun
    rw [hloop]

end

/-- Two pages with one record on both, and a refusal: the record comes once, and the walk is as if
the history ended there. -/
theorem paginateBackwards_safe_repeats :
    let fetch : Upstream (ℤ × ℕ) := fun n _ =>
      if n = 0 then .ok [(5, 1), (3, 0)] else if n = 1 then .ok [(2, 7), (3, 0)]
      else .error (.valueError "refused")
    let walk := paginateBackwards (Prod.fst : ℤ × ℕ → ℤ) id fetch 9 2
    walk.asked.map PageRequest.endTs = [none, some 3, some 2] ∧
    Descending (walk.asked.map PageRequest.endTs) ∧
    walk.result = .ok [(2, 7), (3, 0), (5, 1)] ∧
    (∃ records, Collected id fetch walk.asked records ∧
      IsNewest Prod.fst 9 records [(2, 7), (3, 0), (5, 1)]) ∧
    paginateBackwards (Prod.fst : ℤ × ℕ → ℤ) id (endsAt 2 fetch) 9 2 = walk := by
  intro fetch walk
  have hfetch : ∀ n request e, fetch n request = .error e → e.isRejection := by
    intro n request e he
    simp only [fetch] at he
    split at he
    · cases he
    · split at he
      · cases he
      · rw [← Except.error.inj he]
        rfl
  obtain ⟨-, hdescending, ⟨out, records, hresult, hcollected, -, -, -, -, hnewest⟩, hrefused⟩ :=
    paginateBackwards_safe Prod.fst id fetch 9 2 (by decide) hfetch
  have hout : walk.result = .ok [(2, 7), (3, 0), (5, 1)] := by decide +kernel
  obtain rfl := Except.ok.inj (hresult.symm.trans hout)
  exact ⟨by decide +kernel, hdescending, hout, ⟨records, hcollected, hnewest⟩,
    hrefused 2 ⟨some 2, 2⟩ (.valueError "refused") (by decide +kernel) rfl⟩

end ExchangeRouter
