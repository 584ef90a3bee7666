import ExchangeRouter.FoldedBook

/-!
# A folded book is the venue's

What makes the fold right is that a message can pass the check only when nothing that
changed the book was lost since the last message (`Chained`); each venue has its own reason
for that. Then the dictionaries follow the venue's book over any subsequence of the feed
(`Follows.step`). A message that fails the check ends the stream in any case.
-/

namespace ExchangeRouter

open Generator

section

variable {μ β : Type*} {v : BookReader μ}

/-- What the feed says about the book, message by message. -/
def BookReader.updates (v : BookReader μ) (feed : List μ) : List BookUpdate := feed.map v.update

lemma BookReader.getElem?_updates {feed : List μ} {i : ℕ} {m : μ} (h : feed[i]? = some m) :
    (v.updates feed)[i]? = some (v.update m) := by
  unfold BookReader.updates
  rw [List.getElem?_map, h]
  rfl

/-- The id of the last message seen, when nothing from position `n` on has been seen. -/
def BookReader.lastId (v : BookReader μ) (feed : List μ) : ℕ → Option ℤ
  | 0 => none
  | j + 1 => feed[j]?.bind v.seq

lemma BookReader.lastId_succ {feed : List μ} {i : ℕ} {m : μ} (h : feed[i]? = some m) :
    v.lastId feed (i + 1) = v.seq m := by
  show feed[i]?.bind v.seq = v.seq m
  rw [h]
  rfl

/-- A message that passes the check at position `i`, after the one before position `n`, finds
the book unchanged between the two. -/
def Chained (v : BookReader μ) (start : Book) (feed : List μ) : Prop :=
  ∀ n i m, n ≠ 0 → n ≤ i → feed[i]? = some m → (v.update m).reset = false →
    v.gap (v.lastId feed n) m = false →
    trueBook start ((v.updates feed).take n) = trueBook start ((v.updates feed).take i)

/-- The invariant: the last id is the one before position `n`, and once bootstrapped the
dictionaries hold the venue's book of that moment. -/
structure Follows (v : BookReader μ) (start : Book) (feed : List μ) (n : ℕ) (s : FoldState) :
    Prop where
  last_eq : s.last = v.lastId feed n
  fresh : n = 0 → s.bootstrapped = false
  hold : s.bootstrapped = true → s.book.HoldAt v.scale start (v.updates feed) n

variable {feed : List μ} {start : Book}

lemma Follows.init : Follows v start feed 0 {} :=
  ⟨rfl, fun _ => rfl, fun h => absurd h (by simp)⟩

/-- A message that is applied starts over, or finds the book before it in the dictionaries. -/
lemma Follows.before (hchained : Chained v start feed) {n i : ℕ} {s : FoldState} {m : μ}
    (h : Follows v start feed n s) (hni : n ≤ i) (hget : feed[i]? = some m)
    (hpass : (v.update m).reset = false → v.gap s.last m = false)
    (hboot : ((v.update m).reset || s.bootstrapped) = true) :
    (v.update m).reset = true ∨ s.book.HoldAt v.scale start (v.updates feed) i := by
  cases hreset : (v.update m).reset with
  | true => exact Or.inl rfl
  | false =>
    right
    rw [hreset, Bool.false_or] at hboot
    have hn : n ≠ 0 := fun hzero => by simp [h.fresh hzero] at hboot
    have hgap := hpass hreset
    rw [h.last_eq] at hgap
    have hsame := hchained n i m hn hni hget hreset hgap
    obtain ⟨b, hb, hold⟩ := h.hold hboot
    exact ⟨b, hsame ▸ hb, hold⟩

/-- One message, for any frames that show the book the dictionaries hold. -/
theorem Follows.step {emit : Sides → μ → Option (List β)} (shows : β → Book → Prop)
    (hemit : ∀ book m frames b, book.Hold v.scale b → emit book m = some frames →
      ∀ o ∈ frames, shows o b)
    (hchained : Chained v start feed) (n i : ℕ) (s : FoldState) (m : μ)
    (h : Follows v start feed n s) (hni : n ≤ i) (hget : feed[i]? = some m) :
    (∀ o ∈ (onMessage v emit s m).1,
      ∃ b, trueBook start ((v.updates feed).take (i + 1)) = some b ∧ shows o b) ∧
    ∀ s', (onMessage v emit s m).2 = some s' → Follows v start feed (i + 1) s' := by
  have hsilent : (∀ o ∈ ([] : List β),
      ∃ b, trueBook start ((v.updates feed).take (i + 1)) = some b ∧ shows o b) ∧
      ∀ s', (none : Option FoldState) = some s' → Follows v start feed (i + 1) s' :=
    ⟨fun o ho => absurd ho List.not_mem_nil, fun s' hs' => absurd hs' (by simp)⟩
  have hlast : v.seq m = v.lastId feed (i + 1) := (BookReader.lastId_succ hget).symm
  unfold onMessage
  -- a message that fails the check ends the stream
  split
  · exact hsilent
  next hpass =>
  simp only [Bool.and_eq_true, Bool.not_eq_true', not_and, Bool.not_eq_true] at hpass
  dsimp only
  split
  · next hboot =>
    have hbefore := h.before hchained hni hget hpass hboot
    -- a level or a timestamp that raises ends it too
    split
    · exact hsilent
    · next book happly =>
      obtain ⟨b, hb, hold⟩ :=
        Sides.HoldAt.succ (BookReader.getElem?_updates hget) hbefore happly
      split
      · exact hsilent
      · next frames hframes =>
        refine ⟨fun o ho => ⟨b, hb, hemit book m frames b hold hframes o ho⟩, fun s' hs' => ?_⟩
        obtain rfl := Option.some.inj hs'
        exact ⟨hlast, fun hzero => absurd hzero (by simp), fun _ => ⟨b, hb, hold⟩⟩
  · next hboot =>
    -- nothing is applied, and the stream goes on
    refine ⟨hsilent.1, fun s' hs' => ?_⟩
    obtain rfl := Option.some.inj hs'
    exact ⟨hlast, fun hzero => absurd hzero (by simp), fun htrue => absurd htrue hboot⟩

/-- Over any subsequence of the feed, every frame shows the venue's book as of its message. -/
theorem yields_show {emit : Sides → μ → Option (List β)} (shows : β → Book → Prop)
    (hemit : ∀ book m frames b, book.Hold v.scale b → emit book m = some frames →
      ∀ o ∈ frames, shows o b)
    (hchained : Chained v start feed) {delivered : List (μ × ℕ)}
    (hsub : delivered.Sublist feed.zipIdx) :
    ∀ o i, (o, i) ∈ yields (onMessage v emit) {} delivered →
      ∃ b, trueBook start ((v.updates feed).take (i + 1)) = some b ∧ shows o b :=
  fun o i ho => yields_of_delivered (Follows.step shows hemit hchained) Follows.init
    (delivered_of_sublist hsub) (o, i) ho

/-- A stream that has not ended remembers the id of its last message. -/
lemma last_of_after {ι : Type*} {emit : Sides → μ → Option (List β)} {s s' : FoldState}
    {before : List (μ × ι)} {m : μ} {i : ι}
    (hafter : after (onMessage v emit) s (before ++ [(m, i)]) = some s') :
    s'.last = v.seq m := by
  induction before generalizing s with
  | nil =>
    simp only [List.nil_append, after] at hafter
    split at hafter
    · exact absurd hafter (by simp)
    · next t ht =>
      obtain rfl := Option.some.inj hafter
      unfold onMessage at ht
      split at ht
      · exact absurd ht (by simp)
      · dsimp only at ht
        split at ht
        · split at ht
          · exact absurd ht (by simp)
          · split at ht
            · exact absurd ht (by simp)
            · rw [← Option.some.inj ht]
        · rw [← Option.some.inj ht]
  | cons a rest ih =>
    obtain ⟨m', j⟩ := a
    simp only [List.cons_append, after] at hafter
    split at hafter
    · exact absurd hafter (by simp)
    · exact ih hafter

/-- A message that does not follow the one before it ends the stream. -/
theorem yields_eq_of_gap {ι : Type*} (emit : Sides → μ → Option (List β))
    {before rest : List (μ × ι)} {m m' : μ} {j i : ι} (hdelta : (v.update m').reset = false)
    (hgap : v.gap (v.seq m) m' = true) :
    yields (onMessage v emit) {} (before ++ (m, j) :: (m', i) :: rest) =
      yields (onMessage v emit) {} (before ++ [(m, j)]) := by
  have hsplit : before ++ (m, j) :: (m', i) :: rest = (before ++ [(m, j)]) ++ (m', i) :: rest := by
    simp
  rw [hsplit]
  apply yields_eq_of_ends
  intro s hafter
  unfold onMessage
  rw [last_of_after hafter, hdelta, hgap]
  rfl

end

end ExchangeRouter
