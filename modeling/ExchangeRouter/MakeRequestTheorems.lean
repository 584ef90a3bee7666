import ExchangeRouter.MakeRequest
import Mathlib.Data.List.Count
import Mathlib.Tactic.NormNum

/-!
# How many requests `_make_request` sends

A reply with a 2xx status other than 200 ends the `try` block of every adapter at its last
statement: the loop goes round again and no retry is counted. `bounded_iff` says exactly which
replies keep a call within its three requests; what it needs of an adapter is `Venue.Plain`.
-/

namespace ExchangeRouter
namespace MakeRequest

/-! ## One round -/

/-- A reply that the `try` block falls off its end on: a 2xx other than 200, with headers that
can be read. -/
def Venue.passes (v : Venue) (a : Attempt) : Bool :=
  match a.reply with
  | .transportError => false
  | .response r =>
    decide (200 < r.status ∧ r.status < 300) &&
      (v.readHeaders a.repliedAt a.deadlineThen r).toBool

/-- A round that ends a call which has retries left: the check refuses to wait, or the reply is
one to return or to raise on. -/
def Venue.ends (v : Venue) (a : Attempt) : Bool :=
  (v.refuse a.checkedAt a.deadline).isSome ||
    (v.read 3 a.repliedAt a.deadlineThen a.reply).2.final

/-- No `except` clause goes round without counting, the block falls off its end on the other
2xx statuses only, and how it ends has nothing to do with the retries. -/
structure Venue.Plain (v : Venue) : Prop where
  handled : ∀ e, v.handle e ≠ .again
  falls_iff : ∀ retries now deadline r, (v.body retries now deadline r).2 = .falls ↔
    200 < r.status ∧ r.status < 300
  constant : ∀ retries retries' now deadline r,
    (v.body retries now deadline r).2 = (v.body retries' now deadline r).2

/-- The end of the `try` block has nothing to do with the retries. -/
lemma Venue.Plain.tryBlock_eq {v : Venue} (hv : v.Plain) (retries retries' : ℕ) (now : ℚ)
    (deadline : WithTop ℚ) (r : Response) :
    (v.tryBlock retries now deadline r).2 = (v.tryBlock retries' now deadline r).2 := by
  unfold Venue.tryBlock
  cases v.readHeaders now deadline r with
  | error e => rfl
  | ok deadline => exact hv.constant retries retries' now deadline r

/-- The block falls off its end when the headers are read and the status is another 2xx. -/
lemma Venue.Plain.tryBlock_falls_iff {v : Venue} (hv : v.Plain) (retries : ℕ) (now : ℚ)
    (deadline : WithTop ℚ) (r : Response) :
    (v.tryBlock retries now deadline r).2 = .falls ↔
      (200 < r.status ∧ r.status < 300) ∧ (v.readHeaders now deadline r).toBool = true := by
  unfold Venue.tryBlock
  cases v.readHeaders now deadline r with
  | error e => simp [Except.toBool]
  | ok deadline => simpa [Except.toBool] using hv.falls_iff retries now deadline r

/-- Only a block that falls off its end goes round for nothing. -/
lemma Venue.Plain.verdict_again_iff {v : Venue} (hv : v.Plain) (e : TryEnd) :
    v.verdict e = .again ↔ e = .falls := by
  cases e with
  | raises e => exact iff_of_false (hv.handled e) (by simp)
  | _ => simp [Venue.verdict]

/-- What an attempt comes to does not depend on the retries that are left. -/
lemma Venue.Plain.read_eq {v : Venue} (hv : v.Plain) (retries retries' : ℕ) (a : Attempt) :
    (v.read retries a.repliedAt a.deadlineThen a.reply).2 =
      (v.read retries' a.repliedAt a.deadlineThen a.reply).2 := by
  cases a.reply with
  | transportError => rfl
  | response r => exact congrArg v.verdict (hv.tryBlock_eq retries retries' _ _ r)

/-- The replies that go round again uncounted. -/
lemma Venue.Plain.again_iff {v : Venue} (hv : v.Plain) (retries : ℕ) (a : Attempt) :
    (v.read retries a.repliedAt a.deadlineThen a.reply).2 = .again ↔ v.passes a = true := by
  unfold Venue.passes
  cases a.reply with
  | transportError => exact iff_of_false (hv.handled _) (by simp)
  | response r =>
    have hfalls := hv.tryBlock_falls_iff retries a.repliedAt a.deadlineThen r
    have hagain : (v.read retries a.repliedAt a.deadlineThen (.response r)).2 = .again ↔
        (v.tryBlock retries a.repliedAt a.deadlineThen r).2 = .falls := hv.verdict_again_iff _
    rw [hagain, hfalls, Bool.and_eq_true, decide_eq_true_eq]

/-! ## A call -/

/-- A call in its loop that has sent a request in each of `n` rounds. -/
structure Running (v : Venue) (attempts : ℕ → Attempt) (n : ℕ) (c : CallState) : Prop where
  result_eq : c.result = none
  sent_eq : c.sent = n
  retries_eq : c.retries + n = 3 + (List.range n).countP fun i => v.passes (attempts i)

/-- A round with retries left and no refusal, by its verdict. -/
lemma CallState.round_eq {v : Venue} {c : CallState} {a : Attempt} {left : ℕ}
    (hresult : c.result = none) (hleft : c.retries = left + 1)
    (hrefuse : v.refuse a.checkedAt a.deadline = none) :
    c.round v a = match (v.read c.retries a.repliedAt a.deadlineThen a.reply).2 with
      | .returned value => { c with sent := c.sent + 1, result := some (.ok value) }
      | .raised e => { c with sent := c.sent + 1, result := some (.error e) }
      | .retry _ => { c with sent := c.sent + 1, retries := left }
      | .again => { c with sent := c.sent + 1 } := by
  unfold CallState.round
  rw [hresult]
  dsimp only
  split
  · next hzero => omega
  · next left' hleft' =>
    have hsame : left' = left := by omega
    rw [hsame]
    cases (v.read c.retries a.repliedAt a.deadlineThen a.reply).2 <;> simp only [hrefuse]

/-- A round that does not end the call. -/
lemma Running.round {v : Venue} (hv : v.Plain) {attempts : ℕ → Attempt} {n : ℕ} {c : CallState}
    (h : Running v attempts n c) (hn : n < 3) (hends : v.ends (attempts n) = false) :
    Running v attempts (n + 1) (c.round v (attempts n)) := by
  have hretries := h.retries_eq
  obtain ⟨left, hleft⟩ : ∃ left, c.retries = left + 1 := ⟨c.retries - 1, by omega⟩
  obtain ⟨hrefuse, hfinal⟩ := Bool.or_eq_false_iff.mp hends
  have hnone : v.refuse (attempts n).checkedAt (attempts n).deadline = none := by
    simpa using hrefuse
  rw [hv.read_eq 3 c.retries] at hfinal
  have hagain := hv.again_iff c.retries (attempts n)
  have hcount : (List.range (n + 1)).countP (fun i => v.passes (attempts i)) =
      (List.range n).countP (fun i => v.passes (attempts i)) +
        if v.passes (attempts n) = true then 1 else 0 := by
    rw [List.range_succ, List.countP_append, List.countP_singleton]
  rw [CallState.round_eq h.result_eq hleft hnone]
  cases hverdict : (v.read c.retries (attempts n).repliedAt (attempts n).deadlineThen
      (attempts n).reply).2 with
  | returned value => simp [hverdict, Verdict.final] at hfinal
  | raised e => simp [hverdict, Verdict.final] at hfinal
  | retry pause =>
    rw [hverdict] at hagain
    refine ⟨h.result_eq, congrArg (· + 1) h.sent_eq, ?_⟩
    have hpass : ¬ v.passes (attempts n) = true := fun hpass => by simpa using hagain.mpr hpass
    rw [hcount, if_neg hpass]
    show left + (n + 1) = _
    omega
  | again =>
    refine ⟨h.result_eq, congrArg (· + 1) h.sent_eq, ?_⟩
    rw [hcount, if_pos (hagain.mp hverdict)]
    show c.retries + (n + 1) = _
    omega

/-- Up to the first round that ends it the call has sent a request a round. -/
lemma running_after {v : Venue} (hv : v.Plain) (attempts : ℕ → Attempt) {n : ℕ} (hn : n ≤ 3)
    (hends : ∀ i < n, v.ends (attempts i) = false) :
    Running v attempts n (v.after attempts n) := by
  induction n with
  | zero => exact ⟨rfl, rfl, rfl⟩
  | succ n ih =>
    have hbefore := ih (by omega) fun i hi => hends i (by omega)
    exact hbefore.round hv (by omega) (hends n (by omega))

/-- A round that ends the call. -/
lemma Running.ended {v : Venue} (hv : v.Plain) {attempts : ℕ → Attempt} {n : ℕ} {c : CallState}
    (h : Running v attempts n c) (hn : n < 3) (hends : v.ends (attempts n) = true) :
    (c.round v (attempts n)).result.isSome = true ∧ (c.round v (attempts n)).sent ≤ 3 := by
  have hretries := h.retries_eq
  have hsent := h.sent_eq
  obtain ⟨left, hleft⟩ : ∃ left, c.retries = left + 1 := ⟨c.retries - 1, by omega⟩
  cases hrefuse : v.refuse (attempts n).checkedAt (attempts n).deadline with
  | some e =>
    have hround : c.round v (attempts n) = { c with result := some (.error e) } := by
      unfold CallState.round
      rw [h.result_eq]
      dsimp only
      split
      · next hzero => omega
      · rw [hrefuse]
    rw [hround]
    exact ⟨rfl, by dsimp only; omega⟩
  | none =>
    have hfinal : (v.read c.retries (attempts n).repliedAt (attempts n).deadlineThen
        (attempts n).reply).2.final = true := by
      rw [hv.read_eq c.retries 3]
      simpa [Venue.ends, hrefuse] using hends
    rw [CallState.round_eq h.result_eq hleft hrefuse]
    cases hverdict : (v.read c.retries (attempts n).repliedAt (attempts n).deadlineThen
        (attempts n).reply).2 with
    | returned value => exact ⟨rfl, by dsimp only; omega⟩
    | raised e => exact ⟨rfl, by dsimp only; omega⟩
    | retry pause => simp [hverdict, Verdict.final] at hfinal
    | again => simp [hverdict, Verdict.final] at hfinal

/-- A call sends no request back. -/
lemma sent_le_after (v : Venue) (attempts : ℕ → Attempt) {m n : ℕ} (hmn : m ≤ n) :
    (v.after attempts m).sent ≤ (v.after attempts n).sent := by
  induction n with
  | zero =>
    obtain rfl : m = 0 := by omega
    exact le_refl _
  | succ n ih =>
    rcases Nat.lt_or_ge n m with hlt | hge
    · obtain rfl : m = n + 1 := by omega
      exact le_refl _
    · apply (ih hge).trans
      show _ ≤ ((v.after attempts n).round v (attempts n)).sent
      unfold CallState.round
      split
      · exact le_refl _
      · split
        · exact le_refl _
        · split
          · exact le_refl _
          · split <;> exact Nat.le_succ _

/-- A call whose first three rounds do not end it is over in the fourth, unless it has a retry
left and is not refused. -/
lemma Running.fourth {v : Venue} {attempts : ℕ → Attempt} {c : CallState}
    (h : Running v attempts 3 c)
    (hstop : (∀ i < 3, v.passes (attempts i) = false) ∨
      (v.refuse (attempts 3).checkedAt (attempts 3).deadline).isSome = true) :
    (c.round v (attempts 3)).result.isSome = true ∧ (c.round v (attempts 3)).sent ≤ 3 := by
  have hsent := h.sent_eq
  have hretries := h.retries_eq
  unfold CallState.round
  rw [h.result_eq]
  dsimp only
  split
  · exact ⟨rfl, by dsimp only; omega⟩
  · next left hleft =>
    rcases hstop with hnone | hrefuse
    · -- every round was counted, so no retry is left
      have hcount : (List.range 3).countP (fun i => v.passes (attempts i)) = 0 := by
        apply List.countP_eq_zero.mpr
        intro i hi
        rw [hnone i (List.mem_range.mp hi)]
        exact Bool.false_ne_true
      omega
    · obtain ⟨e, he⟩ := Option.isSome_iff_exists.mp hrefuse
      rw [he]
      exact ⟨rfl, by dsimp only; omega⟩

/-- The fourth request. -/
lemma Running.fourth_sent {v : Venue} {attempts : ℕ → Attempt} {c : CallState}
    (h : Running v attempts 3 c) {i : ℕ} (hi : i < 3) (hpass : v.passes (attempts i) = true)
    (hrefuse : v.refuse (attempts 3).checkedAt (attempts 3).deadline = none) :
    (c.round v (attempts 3)).sent = 4 := by
  have hcount : 0 < (List.range 3).countP (fun i => v.passes (attempts i)) :=
    List.countP_pos_iff.mpr ⟨i, List.mem_range.mpr hi, hpass⟩
  have hretries := h.retries_eq
  obtain ⟨left, hleft⟩ : ∃ left, c.retries = left + 1 := ⟨c.retries - 1, by omega⟩
  have hsent : c.sent + 1 = 4 := by rw [h.sent_eq]
  rw [CallState.round_eq h.result_eq hleft hrefuse]
  split <;> exact hsent

/-- Exactly when a call keeps to its three requests. -/
theorem Venue.Plain.bounded_iff {v : Venue} (hv : v.Plain) (attempts : ℕ → Attempt) :
    v.Bounded attempts ↔
      (∀ i < 3, v.passes (attempts i) = false) ∨ (∃ i < 3, v.ends (attempts i) = true) ∨
        (v.refuse (attempts 3).checkedAt (attempts 3).deadline).isSome = true := by
  by_cases hends : ∃ i < 3, v.ends (attempts i) = true
  · apply iff_of_true _ (Or.inr (Or.inl hends))
    -- the first round that ends the call
    have hfirst := Nat.find_spec hends
    have hmin : ∀ i < Nat.find hends, v.ends (attempts i) = false := by
      intro i hi
      have hno := Nat.find_min hends hi
      have hi3 : i < 3 := hi.trans hfirst.1
      simpa [hi3] using hno
    have hrunning := running_after hv attempts hfirst.1.le hmin
    exact ⟨Nat.find hends + 1, hrunning.ended hv hfirst.1 hfirst.2⟩
  · have hnone : ∀ i < 3, v.ends (attempts i) = false := by
      intro i hi
      by_contra hne
      exact hends ⟨i, hi, by simpa using hne⟩
    have hrunning := running_after hv attempts (le_refl 3) hnone
    constructor
    · rintro ⟨n, hresult, hsent⟩
      by_contra hcond
      push Not at hcond
      obtain ⟨⟨i, hi, hpass⟩, -, hrefuse⟩ := hcond
      have hfour : (v.after attempts 4).sent = 4 :=
        hrunning.fourth_sent hi (by simpa using hpass) (by simpa using hrefuse)
      rcases Nat.lt_or_ge n 4 with hlt | hge
      · have hstill := running_after hv attempts (n := n) (by omega)
          fun i hi => hnone i (by omega)
        rw [hstill.result_eq] at hresult
        exact Bool.false_ne_true hresult
      · have hmono := sent_le_after v attempts hge
        omega
    · rintro (hpass | hend | hrefuse)
      · exact ⟨4, hrunning.fourth (Or.inl hpass)⟩
      · exact absurd hend hends
      · exact ⟨4, hrunning.fourth (Or.inr hrefuse)⟩

/-! ## The adapters -/

/-- A response falls through when it is 2xx. -/
lemma raiseForStatus_falls_iff {r : Response} :
    raiseForStatus r = .falls ↔ 200 ≤ r.status ∧ r.status < 300 := by
  unfold raiseForStatus
  split
  · next h => exact iff_of_true rfl h
  · next h => exact iff_of_false (by simp) h

/-- An exception ends the call or costs a retry. -/
lemma exceptClauses_ne_again (name target : String) (letsThrough : Bool) (e : Exc) :
    exceptClauses name target letsThrough e ≠ .again := by
  unfold exceptClauses
  split
  · split
    · simp
    · split <;> simp
  · simp
  · split <;> simp
  · simp

lemma Binance.plain (texts : Texts) (url host : String) : (venue texts url host).Plain where
  handled := by
    intro e
    show handle texts url e ≠ .again
    unfold handle
    split
    · split
      · simp
      · split
        · simp
        · split <;> simp
    · simp
    · simp
    · simp
  falls_iff := by
    intro retries now deadline r
    show (body texts now deadline r).2 = .falls ↔ _
    unfold body
    split
    · next h =>
      apply iff_of_false _ (by omega)
      cases r.json <;> simp
    · split
      · next h =>
        simp only [List.mem_cons, List.not_mem_nil, or_false] at h
        apply iff_of_false _ (by omega)
        cases floatOfInt (retryAfter texts r) <;> simp
      · rw [raiseForStatus_falls_iff]
        omega
  constant := fun _ _ _ _ _ => rfl

/-- A body that was parsed always decides. -/
lemma Bybit.readData_ne_falls (texts : Texts) (now : ℚ) (deadline : WithTop ℚ) (data : Json) :
    (readData texts now deadline data).2 ≠ .falls := by
  unfold readData
  split
  · simp
  · split
    · simp
    · split
      · split <;> simp
      · split <;> simp

lemma Bybit.plain (texts : Texts) (restUrl endpoint : String) :
    (venue texts restUrl endpoint).Plain where
  handled := exceptClauses_ne_again _ _ _
  falls_iff := by
    intro retries now deadline r
    show (body texts now deadline r).2 = .falls ↔ _
    unfold body
    split
    · next h =>
      apply iff_of_false _ (by omega)
      cases r.json with
      | error message => simp
      | ok data => exact readData_ne_falls texts now deadline data
    · split
      · next h => exact iff_of_false (by simp) (by omega)
      · split
        · next h => exact iff_of_false (by simp) (by omega)
        · rw [raiseForStatus_falls_iff]
          omega
  constant := fun _ _ _ _ _ => rfl

lemma Kucoin.readBody_ne_falls (texts : Texts) (body : Json) : readBody texts body ≠ .falls := by
  unfold readBody
  split
  · simp
  · split
    · split <;> simp
    · split <;> simp

lemma Kucoin.plain (texts : Texts) (base endpoint : String) :
    (venue texts base endpoint).Plain where
  handled := exceptClauses_ne_again _ _ _
  falls_iff := by
    intro retries now deadline r
    show (body texts now deadline r).2 = .falls ↔ _
    unfold body
    split
    · next h => exact iff_of_false (by simp) (by omega)
    · split
      · next h =>
        apply iff_of_false _ (by omega)
        cases r.json with
        | error message => simp
        | ok data => exact readBody_ne_falls texts data
      · rw [raiseForStatus_falls_iff]
        omega
  constant := fun _ _ _ _ _ => rfl

lemma Okx.readBody_ne_falls (texts : Texts) (body : Json) : readBody texts body ≠ .falls := by
  unfold readBody
  split
  · simp
  · split
    · split <;> simp
    · split <;> simp

lemma Okx.plain (texts : Texts) (restUrl endpoint : String) :
    (venue texts restUrl endpoint).Plain where
  handled := exceptClauses_ne_again _ _ _
  falls_iff := by
    intro retries now deadline r
    show (body texts now deadline r).2 = .falls ↔ _
    unfold body
    split
    · next h => exact iff_of_false (by simp) (by omega)
    · split
      · next h =>
        apply iff_of_false _ (by omega)
        cases r.json with
        | error message => simp
        | ok data => exact readBody_ne_falls texts data
      · rw [raiseForStatus_falls_iff]
        omega
  constant := fun _ _ _ _ _ => rfl

lemma Hyperliquid.plain (texts : Texts) (infoType : String) : (venue texts infoType).Plain where
  handled := exceptClauses_ne_again _ _ _
  falls_iff := by
    intro retries now deadline r
    show (body infoType retries now deadline r).2 = .falls ↔ _
    unfold body
    split
    · next h =>
      apply iff_of_false _ (by omega)
      cases r.json <;> simp
    · split
      · next h => exact iff_of_false (by simp) (by omega)
      · split
        · next h => exact iff_of_false (by simp) (by omega)
        · rw [raiseForStatus_falls_iff]
          omega
  constant := by
    intro retries retries' now deadline r
    show (body infoType retries now deadline r).2 = (body infoType retries' now deadline r).2
    unfold body
    split
    · rfl
    · split
      · rfl
      · split <;> rfl

/-- An adapter's `_make_request` with the request it is called for. -/
inductive Request where
  | binance (url host : String)
  | bybit (restUrl endpoint : String)
  | kucoin (base endpoint : String)
  | okx (restUrl endpoint : String)
  | hyperliquid (infoType : String)

/-- The venue that a request goes to. -/
def Request.venue (texts : Texts) : Request → Venue
  | binance url host => Binance.venue texts url host
  | bybit restUrl endpoint => Bybit.venue texts restUrl endpoint
  | kucoin base endpoint => Kucoin.venue texts base endpoint
  | okx restUrl endpoint => Okx.venue texts restUrl endpoint
  | hyperliquid infoType => Hyperliquid.venue texts infoType

lemma Request.plain (texts : Texts) (request : Request) : (request.venue texts).Plain := by
  cases request with
  | binance url host => exact Binance.plain texts url host
  | bybit restUrl endpoint => exact Bybit.plain texts restUrl endpoint
  | kucoin base endpoint => exact Kucoin.plain texts base endpoint
  | okx restUrl endpoint => exact Okx.plain texts restUrl endpoint
  | hyperliquid infoType => exact Hyperliquid.plain texts infoType

/-- A call sends at most three requests and then returns or raises if and only if none of the
first three replies is a 2xx other than 200, or one of the first three rounds ends the call, or
the fourth is refused. -/
theorem makeRequest_bounded_iff (texts : Texts) (request : Request) (attempts : ℕ → Attempt) :
    (request.venue texts).Bounded attempts ↔
      (∀ i < 3, (request.venue texts).passes (attempts i) = false) ∨
        (∃ i < 3, (request.venue texts).ends (attempts i) = true) ∨
          ((request.venue texts).refuse (attempts 3).checkedAt
            (attempts 3).deadline).isSome = true :=
  (request.plain texts).bounded_iff attempts

/-- Conversions for the examples: no header is read. -/
def noTexts : Texts :=
  { int := fun _ => none, float := fun _ => none, str := fun _ => "", fixed0 := fun _ => "" }

/-- Every reply is a 204. -/
def noContent : ℕ → Attempt := fun _ =>
  { checkedAt := 1, deadline := (0 : ℚ), repliedAt := 1, deadlineThen := (0 : ℚ)
    reply := .response { status := 204 } }

/-- A server that answers 204 is asked for ever. -/
theorem noContent_unbounded :
    ¬ ((Request.binance "https://api.binance.com/api/v3/time" "api.binance.com").venue
        noTexts).Bounded noContent ∧
      ¬ ((Request.bybit "https://api.bybit.com" "/v5/market/time").venue
        noTexts).Bounded noContent ∧
      ¬ ((Request.kucoin "https://api.kucoin.com" "/api/v1/timestamp").venue
        noTexts).Bounded noContent ∧
      ¬ ((Request.okx "https://www.okx.com" "/api/v5/public/time").venue
        noTexts).Bounded noContent ∧
      ¬ ((Request.hyperliquid "l2Book").venue noTexts).Bounded noContent := by
  refine ⟨?_, ?_, ?_, ?_, ?_⟩ <;>
    · rw [(Request.plain _ _).bounded_iff]
      decide

end MakeRequest
end ExchangeRouter
