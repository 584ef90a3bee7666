import ExchangeRouter.Paginate
import Mathlib.Data.List.Nodup
import Mathlib.Data.List.Count
import Mathlib.Tactic.Linarith

/-!
# What `_paginate_backwards` returns

`pageStep_cases` says once what a page can do to the walk. On any upstream the walk
keeps its books (`Tidy`): `seen` is the dumps of the records it holds, no dump twice.
On an upstream that serves the newest records up to its anchor (`ServesNewest`) it also
keeps everything above the anchor (`Walked`), and `paginateBackwards_complete` reads the
result off the two.
-/

namespace ExchangeRouter

open Newest

section

variable {α κ : Type*} [DecidableEq κ] {timestamp : α → ℤ} {modelDumpJson : α → κ}

/-! ## The `seen` loop -/

section

variable (modelDumpJson)

lemma dropSeen_sublist (seen : List κ) (xs : List α) :
    (dropSeen modelDumpJson seen xs).1.Sublist xs := by
  induction xs generalizing seen with
  | nil => exact List.Sublist.refl _
  | cons x xs ih =>
    unfold dropSeen
    split
    · exact (ih seen).cons x
    · exact (ih _).cons_cons x

/-- The dumps seen afterwards are the dumps seen before and those of the new records. -/
lemma mem_dropSeen_snd (seen : List κ) (xs : List α) (k : κ) :
    k ∈ (dropSeen modelDumpJson seen xs).2 ↔
      k ∈ seen ∨ k ∈ (dropSeen modelDumpJson seen xs).1.map modelDumpJson := by
  induction xs generalizing seen with
  | nil => simp [dropSeen]
  | cons x xs ih =>
    by_cases hx : modelDumpJson x ∈ seen
    · simp only [dropSeen, if_pos hx]
      exact ih seen
    · simp only [dropSeen, if_neg hx, List.map_cons, List.mem_cons]
      rw [ih]
      simp only [List.mem_cons]
      tauto

/-- Every record of a batch has been seen, or it is among the new ones under its dump. -/
lemma dropSeen_covers (seen : List κ) (xs : List α) {x : α} (hx : x ∈ xs) :
    modelDumpJson x ∈ seen ∨
      modelDumpJson x ∈ (dropSeen modelDumpJson seen xs).1.map modelDumpJson := by
  induction xs generalizing seen with
  | nil => exact absurd hx List.not_mem_nil
  | cons y ys ih =>
    by_cases hy : modelDumpJson y ∈ seen
    · simp only [dropSeen, if_pos hy]
      rcases List.mem_cons.mp hx with rfl | hx
      · exact Or.inl hy
      · exact ih seen hx
    · simp only [dropSeen, if_neg hy, List.map_cons, List.mem_cons]
      rcases List.mem_cons.mp hx with rfl | hx
      · exact Or.inr (Or.inl rfl)
      · rcases ih (modelDumpJson y :: seen) hx with h | h
        · rcases List.mem_cons.mp h with h | h
          · exact Or.inr (Or.inl h)
          · exact Or.inl h
        · exact Or.inr (Or.inr h)

/-- The new records have new dumps, no two the same. -/
lemma dropSeen_nodup (seen : List κ) (xs : List α) :
    ((dropSeen modelDumpJson seen xs).1.map modelDumpJson).Nodup ∧
      ∀ k ∈ seen, k ∉ (dropSeen modelDumpJson seen xs).1.map modelDumpJson := by
  induction xs generalizing seen with
  | nil => simp [dropSeen]
  | cons x xs ih =>
    by_cases hx : modelDumpJson x ∈ seen
    · simp only [dropSeen, if_pos hx]
      exact ih seen
    · obtain ⟨hnodup, hnew⟩ := ih (modelDumpJson x :: seen)
      simp only [dropSeen, if_neg hx, List.map_cons]
      refine ⟨List.nodup_cons.mpr ⟨hnew _ List.mem_cons_self, hnodup⟩, fun k hk hmem => ?_⟩
      rcases List.mem_cons.mp hmem with rfl | hmem
      · exact hx hk
      · exact hnew k (List.mem_cons_of_mem _ hk) hmem

end

/-! ## One page -/

variable (timestamp modelDumpJson) in
/-- Everything a page can do. -/
theorem pageStep_cases (fetch : Upstream α) (l : ℤ) (s : PageState α κ) :
    (∃ e, fetch s.reqCount ⟨s.currentEnd, l⟩ = .error e ∧
      pageStep timestamp modelDumpJson fetch l s =
        .stop (s.sent ⟨s.currentEnd, l⟩) (if e.isRejection then none else some e)) ∨
    ∃ batch, fetch s.reqCount ⟨s.currentEnd, l⟩ = .ok batch ∧
      ((batch = [] ∧
          pageStep timestamp modelDumpJson fetch l s = .stop (s.sent ⟨s.currentEnd, l⟩) none) ∨
        ∃ oldest rest newItems seen, sortByTime timestamp batch = oldest :: rest ∧
          dropSeen modelDumpJson s.seen (oldest :: rest) = (newItems, seen) ∧
          ((newItems = [] ∧
              pageStep timestamp modelDumpJson fetch l s =
                .stop (s.sent ⟨s.currentEnd, l⟩) none) ∨
            (newItems ≠ [] ∧ stalled s.currentEnd (timestamp oldest) = true ∧
              pageStep timestamp modelDumpJson fetch l s =
                .stop ((s.sent ⟨s.currentEnd, l⟩).absorb newItems seen) none) ∨
            (newItems ≠ [] ∧ stalled s.currentEnd (timestamp oldest) = false ∧
              pageStep timestamp modelDumpJson fetch l s =
                .again { (s.sent ⟨s.currentEnd, l⟩).absorb newItems seen with
                  currentEnd := some (timestamp oldest) }))) := by
  cases hfetch : fetch s.reqCount ⟨s.currentEnd, l⟩ with
  | error e => exact Or.inl ⟨e, rfl, by simp only [pageStep, hfetch]⟩
  | ok batch =>
    refine Or.inr ⟨batch, rfl, ?_⟩
    cases hsort : sortByTime timestamp batch with
    | nil => exact Or.inl ⟨(sortByTime_eq_nil timestamp).mp hsort,
        by simp only [pageStep, hfetch, hsort]⟩
    | cons oldest rest =>
      rcases hdrop : dropSeen modelDumpJson s.seen (oldest :: rest) with ⟨newItems, seen⟩
      refine Or.inr ⟨oldest, rest, newItems, seen, rfl, hdrop, ?_⟩
      cases newItems with
      | nil => exact Or.inl ⟨rfl, by simp only [pageStep, hfetch, hsort, hdrop]⟩
      | cons x xs =>
        right
        cases hstall : stalled s.currentEnd (timestamp oldest) with
        | true =>
          refine Or.inl ⟨List.cons_ne_nil _ _, rfl, ?_⟩
          simp only [pageStep, hfetch, hsort, hdrop, PageState.absorb, PageState.sent, hstall,
            if_true]
        | false =>
          refine Or.inr ⟨List.cons_ne_nil _ _, rfl, ?_⟩
          simp only [pageStep, hfetch, hsort, hdrop, PageState.absorb, PageState.sent, hstall,
            Bool.false_eq_true, if_false]

/-! ## The books of the walk -/

/-- The records held so far. -/
def PageState.held (s : PageState α κ) : List α := s.chunks.flatten

variable (modelDumpJson) in
/-- `seen` is the dumps of the records held, no dump is held twice, `collected` counts them. -/
structure Tidy (s : PageState α κ) : Prop where
  seen_iff : ∀ k, k ∈ s.seen ↔ k ∈ s.held.map modelDumpJson
  nodup : (s.held.map modelDumpJson).Nodup
  collected_eq : s.collected = s.held.length

omit [DecidableEq κ] in
lemma Tidy.init : Tidy modelDumpJson ({} : PageState α κ) :=
  ⟨fun k => by simp [PageState.held], by simp [PageState.held], rfl⟩

omit [DecidableEq κ] in
@[simp] lemma PageState.held_sent (s : PageState α κ) (r : PageRequest) :
    (s.sent r).held = s.held := rfl

omit [DecidableEq κ] in
@[simp] lemma PageState.held_absorb (s : PageState α κ) (newItems : List α) (seen : List κ) :
    (s.absorb newItems seen).held = s.held ++ newItems := by
  simp [PageState.held, PageState.absorb]

omit [DecidableEq κ] in
lemma Tidy.sent {s : PageState α κ} (h : Tidy modelDumpJson s) (r : PageRequest) :
    Tidy modelDumpJson (s.sent r) := ⟨h.seen_iff, h.nodup, h.collected_eq⟩

/-- A page's new records keep the books. -/
lemma Tidy.absorb {s : PageState α κ} (h : Tidy modelDumpJson s) {batch newItems : List α}
    {seen : List κ} (hdrop : dropSeen modelDumpJson s.seen batch = (newItems, seen)) :
    Tidy modelDumpJson (s.absorb newItems seen) := by
  have hseen := mem_dropSeen_snd modelDumpJson s.seen batch
  obtain ⟨hnew, hfresh⟩ := dropSeen_nodup modelDumpJson s.seen batch
  simp only [hdrop] at hseen hnew hfresh
  refine ⟨fun k => ?_, ?_, ?_⟩
  · rw [PageState.held_absorb, List.map_append, List.mem_append, ← h.seen_iff]
    exact hseen k
  · rw [PageState.held_absorb, List.map_append]
    refine List.nodup_append.mpr ⟨h.nodup, hnew, fun k hk k' hk' heq => ?_⟩
    exact hfresh k ((h.seen_iff k).mpr hk) (heq ▸ hk')
  · rw [PageState.held_absorb, List.length_append, ← h.collected_eq]
    rfl

/-! ## An upstream that serves the newest records up to its anchor -/

variable (timestamp) in
/-- The records at or before a bound, all of them without one. -/
def upTo (bound : Option ℤ) (history : List α) : List α :=
  history.filter fun x => bound.all fun b => decide (timestamp x ≤ b)

omit [DecidableEq κ] in
@[simp] lemma mem_upTo {bound : Option ℤ} {history : List α} {x : α} :
    x ∈ upTo timestamp bound history ↔ x ∈ history ∧ ∀ b ∈ bound, timestamp x ≤ b := by
  cases bound <;> simp [upTo]

omit [DecidableEq κ] in
/-- Where there is no bound, any time that no record is past is one. -/
lemma upTo_eq_filter {bound : Option ℤ} {history : List α} {now : ℤ}
    (hpast : bound = none → ∀ x ∈ history, timestamp x ≤ now) :
    upTo timestamp bound history = history.filter fun x => timestamp x ≤ bound.getD now := by
  unfold upTo
  apply List.filter_congr
  intro x hx
  cases bound with
  | some b => rfl
  | none => simpa using hpast rfl x hx

variable (timestamp) in
/-- `fetch(anchor, l)` returns the newest `l` records at or before the anchor, and at or
before `start` where there is no anchor yet. -/
def ServesNewest (history : List α) (start : Option ℤ) (l : ℕ) (fetch : Upstream α) : Prop :=
  ∀ n endTs, ∃ batch, fetch n ⟨endTs, l⟩ = .ok batch ∧
    IsNewest timestamp l (upTo timestamp (anchor endTs start) history) batch

/-- What the walk holds once its anchor is `a`: everything newer, nothing older. -/
structure WalkedTo (timestamp : α → ℤ) (all held : List α) (a : ℤ) : Prop where
  reached : ∃ x ∈ all, timestamp x = a
  above : ∀ x ∈ all, a < timestamp x → x ∈ held
  below : ∀ y ∈ held, a ≤ timestamp y

/-- The invariant of the walk over `all`, the history at or before `start`. -/
structure Walked (timestamp : α → ℤ) (modelDumpJson : α → κ) (all : List α)
    (s : PageState α κ) : Prop extends Tidy modelDumpJson s where
  subset : s.held ⊆ all
  fresh : s.currentEnd = none → s.held = []
  walkedTo : ∀ a, s.currentEnd = some a → WalkedTo timestamp all s.held a

/-- What the walk holds when it stops by itself: an upper part, and complete unless it was
asked for no more. -/
structure Finished (timestamp : α → ℤ) (modelDumpJson : α → κ) (all : List α) (limit : ℕ)
    (s : PageState α κ) : Prop extends Tidy modelDumpJson s where
  upper : UpperPart timestamp all s.held
  enough : limit ≤ s.collected ∨ all ⊆ s.held

variable (timestamp) in
/-- An upstream that answers with the newest records of a list, oldest first. -/
def serveNewest (history : List α) (start : Option ℤ) : Upstream α := fun _ request =>
  .ok ((sortByTime timestamp (upTo timestamp (anchor request.endTs start) history)).rtake
    request.limit.toNat)

omit [DecidableEq κ] in
/-- A venue that answers with the newest records that it has. -/
lemma servesNewest_serveNewest {history : List α} (hdist : history.Nodup) (start : Option ℤ)
    (l : ℕ) : ServesNewest timestamp history start l (serveNewest timestamp history start) := by
  intro n endTs
  refine ⟨_, rfl, ?_⟩
  have hpage : (upTo timestamp (anchor endTs start) history).Nodup :=
    hdist.sublist List.filter_sublist
  have hperm := sortByTime_perm timestamp (upTo timestamp (anchor endTs start) history)
  have hall := hperm.symm.subset
  rw [Int.toNat_natCast]
  exact isNewest_rtake (UpperPart.of_complete (hperm.symm.nodup hpage) hperm.subset hall)
    (ascending_sortByTime timestamp _) hpage (Or.inr hall)

/-! ## One page of such an upstream -/

section

variable {history : List α} {start : Option ℤ} {l : ℕ}

omit [DecidableEq κ] in
/-- Records of one millisecond do not fill a page. -/
lemma length_lt_of_same_ms (hms : ∀ t, history.countP (fun x => timestamp x = t) < l)
    {xs : List α} (hnodup : xs.Nodup) (hsub : xs ⊆ history) {t : ℤ}
    (hsame : ∀ x ∈ xs, timestamp x = t) : xs.length < l := by
  have hsub' : xs ⊆ history.filter fun x => timestamp x = t := by
    intro x hx
    exact List.mem_filter.mpr ⟨hsub hx, by simpa using hsame x hx⟩
  calc xs.length ≤ (history.filter fun x => timestamp x = t).length :=
        (hnodup.subperm hsub').length_le
    _ = history.countP (fun x => timestamp x = t) := List.countP_eq_length_filter.symm
    _ < l := hms t

omit [DecidableEq κ] in
lemma upTo_subset (bound : Option ℤ) : upTo timestamp bound history ⊆ history :=
  fun _ hx => (mem_upTo.mp hx).1

omit [DecidableEq κ] in
/-- The records a page may serve: those of the walk at or before its anchor. -/
lemma Walked.mem_page_iff {s : PageState α κ}
    (h : Walked timestamp modelDumpJson (upTo timestamp start history) s) {x : α} :
    x ∈ upTo timestamp (anchor s.currentEnd start) history ↔
      x ∈ upTo timestamp start history ∧ ∀ a ∈ s.currentEnd, timestamp x ≤ a := by
  cases hend : s.currentEnd with
  | none => simp
  | some a =>
    obtain ⟨z, hz, hza⟩ := (h.walkedTo a hend).reached
    simp only [anchor_some, mem_upTo, Option.mem_some_iff, forall_eq']
    constructor
    · rintro ⟨hx, hxa⟩
      exact ⟨⟨hx, fun b hb => hxa.trans (hza ▸ (mem_upTo.mp hz).2 b hb)⟩, hxa⟩
    · rintro ⟨⟨hx, -⟩, hxa⟩
      exact ⟨hx, hxa⟩

variable (hdist : (history.map modelDumpJson).Nodup)

include hdist in
omit [DecidableEq κ] in
/-- In a history of distinct records the dump is a name. -/
lemma mem_of_dump_mem {xs : List α} (hsub : xs ⊆ history) {x : α} (hx : x ∈ history)
    (hdump : modelDumpJson x ∈ xs.map modelDumpJson) : x ∈ xs := by
  obtain ⟨y, hy, hxy⟩ := List.mem_map.mp hdump
  rwa [← List.inj_on_of_nodup_map hdist (hsub hy) hx hxy]

include hdist in
/-- After a page the walk holds what it held and what the page served. -/
lemma Tidy.mem_absorb_iff {s : PageState α κ} (h : Tidy modelDumpJson s)
    (hheld : s.held ⊆ history) {batch newItems : List α} {seen : List κ} (hbatch : batch ⊆ history)
    (hdrop : dropSeen modelDumpJson s.seen (sortByTime timestamp batch) = (newItems, seen))
    {x : α} : x ∈ s.held ++ newItems ↔ x ∈ s.held ∨ x ∈ batch := by
  have hnew_sub : newItems ⊆ batch := by
    intro y hy
    have hsorted : y ∈ sortByTime timestamp batch :=
      (dropSeen_sublist modelDumpJson s.seen _).subset (by rw [hdrop]; exact hy)
    exact (mem_sortByTime timestamp).mp hsorted
  rw [List.mem_append]
  refine ⟨Or.imp_right (@hnew_sub x), ?_⟩
  rintro (hx | hx)
  · exact Or.inl hx
  · have hcover := dropSeen_covers modelDumpJson s.seen _
      ((mem_sortByTime timestamp).mpr hx)
    rw [hdrop, h.seen_iff] at hcover
    exact hcover.imp (mem_of_dump_mem hdist hheld (hbatch hx))
      (mem_of_dump_mem hdist (fun _ hy => hbatch (hnew_sub hy)) (hbatch hx))

omit [DecidableEq κ] in
/-- A record at or before `start` that the page's anchor excludes is one the walk holds. -/
lemma Walked.held_or_page {s : PageState α κ}
    (h : Walked timestamp modelDumpJson (upTo timestamp start history) s) {x : α}
    (hx : x ∈ upTo timestamp start history) :
    x ∈ s.held ∨ x ∈ upTo timestamp (anchor s.currentEnd start) history := by
  by_cases hxa : ∀ a ∈ s.currentEnd, timestamp x ≤ a
  · right
    exact h.mem_page_iff.mpr ⟨hx, hxa⟩
  · left
    push Not at hxa
    obtain ⟨a, ha, hlt⟩ := hxa
    exact (h.walkedTo a ha).above x hx hlt

omit [DecidableEq κ] in
/-- A page that does not get below its anchor has run out of older records. -/
lemma Walked.page_subset (hms : ∀ t, history.countP (fun x => timestamp x = t) < l)
    {s : PageState α κ} (h : Walked timestamp modelDumpJson (upTo timestamp start history) s)
    {a : ℤ} (hend : s.currentEnd = some a) {batch : List α}
    (hnewest : IsNewest timestamp l (upTo timestamp (anchor s.currentEnd start) history) batch)
    (hge : ∀ x ∈ batch, a ≤ timestamp x) :
    upTo timestamp (anchor s.currentEnd start) history ⊆ batch := by
  have hbatch : batch ⊆ history := fun _ hx => upTo_subset _ (hnewest.subset hx)
  -- all of it is at the anchor, and one millisecond does not fill a page
  have hsame : ∀ x ∈ batch, timestamp x = a := by
    intro x hx
    have hle : timestamp x ≤ a := (h.mem_page_iff.mp (hnewest.subset hx)).2 a hend
    exact le_antisymm hle (hge x hx)
  apply hnewest.complete_of_short
  exact length_lt_of_same_ms hms hnewest.nodup hbatch hsame

/-- The first record of the sorted page is its oldest. -/
lemma oldest_of_sort {batch rest : List α} {oldest : α}
    (hsort : sortByTime timestamp batch = oldest :: rest) :
    oldest ∈ batch ∧ ∀ y ∈ batch, timestamp oldest ≤ timestamp y := by
  constructor
  · rw [← mem_sortByTime timestamp, hsort]
    exact List.mem_cons_self
  · intro y hy
    have hasc := ascending_sortByTime timestamp batch
    rw [hsort] at hasc
    apply hasc.head_le timestamp
    rw [← hsort]
    exact (mem_sortByTime timestamp).mpr hy

include hdist in
/-- A page whose oldest record is below the anchor takes the walk on to that record. -/
lemma Walked.advance {s : PageState α κ}
    (h : Walked timestamp modelDumpJson (upTo timestamp start history) s) (r : PageRequest)
    {batch newItems rest : List α} {oldest : α} {seen : List κ}
    (hnewest : IsNewest timestamp l (upTo timestamp (anchor s.currentEnd start) history) batch)
    (hsort : sortByTime timestamp batch = oldest :: rest)
    (hdrop : dropSeen modelDumpJson s.seen (sortByTime timestamp batch) = (newItems, seen))
    (hmove : stalled s.currentEnd (timestamp oldest) = false) :
    Walked timestamp modelDumpJson (upTo timestamp start history)
      { (s.sent r).absorb newItems seen with currentEnd := some (timestamp oldest) } := by
  have htidy := (h.sent r).absorb hdrop
  have hbatch : batch ⊆ upTo timestamp start history :=
    fun _ hx => (h.mem_page_iff.mp (hnewest.subset hx)).1
  obtain ⟨holdest_mem, holdest⟩ := oldest_of_sort hsort
  have hheld : ∀ x, x ∈ ((s.sent r).absorb newItems seen).held ↔ x ∈ s.held ∨ x ∈ batch := by
    intro x
    rw [PageState.held_absorb, PageState.held_sent]
    exact h.mem_absorb_iff hdist (fun _ hy => upTo_subset start (h.subset hy))
      (fun _ hx => upTo_subset start (hbatch hx)) hdrop
  refine ⟨⟨htidy.seen_iff, htidy.nodup, htidy.collected_eq⟩, ?_, ?_, ?_⟩
  · intro x hx
    rcases (hheld x).mp hx with hx | hx
    · exact h.subset hx
    · exact hbatch hx
  · intro hnone
    exact absurd hnone (by simp)
  · intro a ha
    obtain rfl : timestamp oldest = a := by simpa using ha
    refine ⟨⟨oldest, hbatch holdest_mem, rfl⟩, fun x hx hlt => ?_, fun y hy => ?_⟩
    · -- newer than the oldest of the page, so the page has it
      apply (hheld x).mpr
      refine (h.held_or_page hx).imp_right fun hmem => ?_
      by_contra hout
      exact absurd (hnewest.newer x hmem hout oldest holdest_mem) (not_le.mpr hlt)
    · rcases (hheld y).mp hy with hy | hy
      · cases hend : s.currentEnd with
        | none => simp [h.fresh hend] at hy
        | some a =>
          have hlt : timestamp oldest < a := by
            simp only [stalled, hend, Option.any_some, Bool.or_eq_false_iff,
              decide_eq_false_iff_not] at hmove
            omega
          exact hlt.le.trans ((h.walkedTo a hend).below y hy)
      · exact holdest y hy

include hdist in
/-- A page takes the walk on, or ends it with everything at or before `start`. -/
theorem Walked.step (hpos : ∀ x ∈ history, 0 < timestamp x)
    (hms : ∀ t, history.countP (fun x => timestamp x = t) < l)
    {fetch : Upstream α} (hfetch : ServesNewest timestamp history start l fetch)
    {s : PageState α κ}
    (h : Walked timestamp modelDumpJson (upTo timestamp start history) s) :
    (∃ s', pageStep timestamp modelDumpJson fetch l s = .stop s' none ∧
      Tidy modelDumpJson s' ∧ s'.held ⊆ upTo timestamp start history ∧
      upTo timestamp start history ⊆ s'.held) ∨
    ∃ s', pageStep timestamp modelDumpJson fetch l s = .again s' ∧
      Walked timestamp modelDumpJson (upTo timestamp start history) s' ∧
      s'.reqCount = s.reqCount + 1 := by
  obtain ⟨batch, hok, hnewest⟩ := hfetch s.reqCount s.currentEnd
  have hbatch_all : batch ⊆ upTo timestamp start history :=
    fun _ hx => (h.mem_page_iff.mp (hnewest.subset hx)).1
  have hbatch : batch ⊆ history := fun _ hx => upTo_subset start (hbatch_all hx)
  rcases pageStep_cases timestamp modelDumpJson fetch l s with
    ⟨e, herr, -⟩ | ⟨batch', hok', hcases⟩
  · rw [hok] at herr
    exact absurd herr (by simp)
  obtain rfl : batch = batch' := by rw [hok] at hok'; exact Except.ok.inj hok'
  rcases hcases with ⟨hnil, hstep⟩ | ⟨oldest, rest, newItems, seen, hsort, hdrop, hcases⟩
  · -- an empty page: there is nothing at or before the anchor
    refine Or.inl ⟨_, hstep, h.sent _, by simpa using h.subset, ?_⟩
    intro x hx
    rcases h.held_or_page hx with hheld | hmem
    · exact hheld
    · have hl : 0 < l := lt_of_le_of_lt (Nat.zero_le _) (hms 0)
      have := hnewest.complete_of_short (by simpa [hnil] using hl) hmem
      simp [hnil] at this
  rw [← hsort] at hdrop
  have hheld : s.held ⊆ history := fun _ hy => upTo_subset start (h.subset hy)
  have hmem_iff := fun x => h.mem_absorb_iff hdist hheld hbatch hdrop (x := x)
  obtain ⟨holdest_mem, holdest⟩ := oldest_of_sort hsort
  rcases hcases with ⟨hnone, hstep⟩ | ⟨-, hstall, hstep⟩ | ⟨-, hmove, hstep⟩
  · -- a page without a new record: it is all at the anchor, and nothing is older
    have hbatch_held : batch ⊆ s.held := by
      intro x hx
      simpa [hnone] using (hmem_iff x).mpr (Or.inr hx)
    refine Or.inl ⟨_, hstep, h.sent _, by simpa using h.subset, ?_⟩
    intro x hx
    rcases h.held_or_page hx with hheld | hmem
    · exact hheld
    · apply hbatch_held
      cases hend : s.currentEnd with
      | none =>
        have := hbatch_held holdest_mem
        simp [h.fresh hend] at this
      | some a =>
        have hge : ∀ y ∈ batch, a ≤ timestamp y :=
          fun y hy => (h.walkedTo a hend).below y (hbatch_held hy)
        exact h.page_subset hms hend hnewest hge hmem
  · -- the oldest record of the page does not move the anchor: nothing is older
    refine Or.inl ⟨_, hstep, (h.sent ⟨s.currentEnd, l⟩).absorb hdrop, ?_, ?_⟩
    · intro x hx
      rw [PageState.held_absorb, PageState.held_sent] at hx
      exact ((hmem_iff x).mp hx).elim (fun hx => h.subset hx) fun hx => hbatch_all hx
    · intro x hx
      rw [PageState.held_absorb, PageState.held_sent, hmem_iff]
      refine (h.held_or_page hx).imp_right fun hmem => ?_
      have hpos' := hpos oldest (hbatch holdest_mem)
      cases hend : s.currentEnd with
      | none =>
        simp only [stalled, hend, Option.any_none, Bool.or_false, decide_eq_true_eq] at hstall
        omega
      | some a =>
        have hge : a ≤ timestamp oldest := by
          simp only [stalled, hend, Option.any_some, Bool.or_eq_true, decide_eq_true_eq] at hstall
          omega
        exact h.page_subset hms hend hnewest (fun y hy => hge.trans (holdest y hy)) hmem
  · -- the anchor moves to the oldest record of the page
    right
    exact ⟨_, hstep, h.advance hdist _ hnewest hsort hdrop hmove, rfl⟩

/-! ## The whole walk -/

variable (timestamp modelDumpJson) in
omit [DecidableEq κ] in
/-- Before the first page the walk holds nothing, and that is an upper part. -/
lemma Walked.init (all : List α) : Walked timestamp modelDumpJson all {} :=
  ⟨Tidy.init, List.nil_subset _, fun _ => rfl, fun a ha => absurd ha (by simp)⟩

omit [DecidableEq κ] in
/-- What a walk holds is the newest part of the history. -/
lemma Walked.upper {all : List α} {s : PageState α κ} (h : Walked timestamp modelDumpJson all s) :
    UpperPart timestamp all s.held := by
  cases hend : s.currentEnd with
  | none =>
    rw [h.fresh hend]
    exact UpperPart.nil all
  | some a =>
    have hto := h.walkedTo a hend
    exact UpperPart.of_edge a (List.Nodup.of_map _ h.nodup) h.subset hto.above hto.below

include hdist in
/-- The loop ends without an exception, and unless the cap ended it with what it was asked
for. Induction on the requests it may still send, with `Walked` as the invariant. -/
theorem pageLoop_finished (hpos : ∀ x ∈ history, 0 < timestamp x)
    (hms : ∀ t, history.countP (fun x => timestamp x = t) < l)
    {fetch : Upstream α} (hfetch : ServesNewest timestamp history start l fetch) (limit : ℕ)
    (left : ℕ) {s : PageState α κ}
    (h : Walked timestamp modelDumpJson (upTo timestamp start history) s)
    (hleft : s.reqCount + left = maxRequests) :
    (pageLoop timestamp modelDumpJson fetch limit l left s).2 = none ∧
      (¬ (pageLoop timestamp modelDumpJson fetch limit l left s).1.truncated limit →
        Finished timestamp modelDumpJson (upTo timestamp start history) limit
          (pageLoop timestamp modelDumpJson fetch limit l left s).1) := by
  induction left generalizing s with
  | zero =>
    refine ⟨rfl, fun hcap => ⟨h.toTidy, h.upper, Or.inl ?_⟩⟩
    show limit ≤ s.collected
    -- no request is left, so the cap would have ended a walk with fewer
    by_contra hfew
    exact hcap ⟨show maxRequests ≤ s.reqCount by omega,
      show (s.collected : ℤ) < limit by omega⟩
  | succ left ih =>
    unfold pageLoop
    split
    · rcases h.step hdist hpos hms hfetch with
        ⟨s', hstep, htidy, hsub, hall⟩ | ⟨s', hstep, hwalked, hcount⟩
      · rw [hstep]
        have hnodup : s'.held.Nodup := List.Nodup.of_map _ htidy.nodup
        exact ⟨rfl, fun _ => ⟨htidy, UpperPart.of_complete hnodup hsub hall, Or.inr hall⟩⟩
      -- the walk goes round again with the invariant
      · rw [hstep]
        exact ih hwalked (by omega)
    · next hmany =>
      exact ⟨rfl, fun _ => ⟨h.toTidy, h.upper, Or.inl (show limit ≤ s.collected by omega)⟩⟩

variable (timestamp) in
omit [DecidableEq κ] in
/-- `out` is the records held, in time order. -/
lemma PageState.out_perm (s : PageState α κ) : (s.out timestamp).Perm s.held :=
  (sortByTime_perm timestamp _).trans (List.reverse_perm s.chunks).flatten

variable (timestamp modelDumpJson) in
/-- A walk that no exception ends returns the newest `limit` of the records it holds. -/
lemma paginateBackwards_of_ended {fetch : Upstream α} {limit : ℕ} {l : ℤ} (hlimit : 1 ≤ limit)
    (hnone : (pageRun timestamp modelDumpJson fetch limit l).2 = none) :
    (paginateBackwards timestamp modelDumpJson fetch limit l).result =
      .ok (((pageRun timestamp modelDumpJson fetch limit l).1.out timestamp).rtake limit) := by
  simp only [paginateBackwards, hnone, sliceTail]
  rw [if_pos (by omega), Int.toNat_natCast]

/-- A walk that the cap does not end returns the newest `limit` records at or before
`start`, in ascending order and each once. -/
theorem paginateBackwards_complete (history : List α) (start : Option ℤ) (l limit : ℕ)
    (fetch : Upstream α) (hdist : (history.map modelDumpJson).Nodup)
    (hpos : ∀ x ∈ history, 0 < timestamp x) (hlimit : 1 ≤ limit)
    (hms : ∀ t, history.countP (fun x => timestamp x = t) < l)
    (hfetch : ServesNewest timestamp history start l fetch)
    (hcap : ¬ (pageRun timestamp modelDumpJson fetch limit l).1.truncated limit) :
    ∃ out, (paginateBackwards timestamp modelDumpJson fetch limit l).result = .ok out ∧
      Ascending timestamp out ∧ (out.map modelDumpJson).Nodup ∧
      IsNewest timestamp limit (upTo timestamp start history) out := by
  obtain ⟨hnone, hfinished⟩ := pageLoop_finished hdist hpos hms hfetch limit maxRequests
    (Walked.init timestamp modelDumpJson _) rfl
  have hfin := hfinished hcap
  refine ⟨_, paginateBackwards_of_ended timestamp modelDumpJson hlimit hnone, ?_⟩
  generalize hrun : (pageRun timestamp modelDumpJson fetch limit l).1 = s
  have hs : (pageLoop timestamp modelDumpJson fetch limit l maxRequests {}).1 = s := hrun
  rw [hs] at hfin
  have hperm := s.out_perm timestamp
  have hsorted : Ascending timestamp (s.out timestamp) := ascending_sortByTime timestamp _
  refine ⟨hsorted.rtake limit, ?_, ?_⟩
  · have hnodup : ((s.out timestamp).map modelDumpJson).Nodup :=
      (hperm.map modelDumpJson).nodup_iff.mpr hfin.nodup
    exact hnodup.sublist ((List.drop_sublist _ _).map _)
  · have hall : (upTo timestamp start history).Nodup :=
      (List.Nodup.of_map _ hdist).sublist List.filter_sublist
    refine isNewest_rtake (hfin.upper.perm hperm.symm) hsorted hall ?_
    rcases hfin.enough with hlen | hcomplete
    · left
      rw [hperm.length_eq, ← hfin.collected_eq]
      exact hlen
    · right
      intro x hx
      exact hperm.mem_iff.mpr (hcomplete hx)

end

end

/-- Five records, two of one millisecond, in pages of three: the second page starts inside
that millisecond. -/
theorem paginateBackwards_complete_two_pages :
    ∃ out, (paginateBackwards (Prod.fst : ℤ × ℕ → ℤ) id
        (serveNewest Prod.fst [(1, 0), (2, 1), (2, 2), (3, 3), (4, 4)] (some 3))
        (4 : ℕ) (3 : ℕ)).result = .ok out ∧
      Ascending Prod.fst out ∧ (out.map id).Nodup ∧
      IsNewest Prod.fst 4 (upTo Prod.fst (some 3) [(1, 0), (2, 1), (2, 2), (3, 3), (4, 4)])
        out := by
  refine paginateBackwards_complete _ _ 3 4 _ (by decide) (by decide) (by decide) ?_
    (servesNewest_serveNewest (by decide) _ 3) ?_
  · intro t
    simp only [List.countP_cons, List.countP_nil, decide_eq_true_eq]
    split_ifs <;> omega
  · unfold PageState.truncated
    decide

end ExchangeRouter
