import ExchangeRouter.RemoteFetch

/-!
# The outcomes of `RemoteBackend.fetch`

A call comes down to one request, the first that is not asked for again or the last of the
budget, and `fetchLoop_spec` says how it ends by that request's outcome. `fetch_oneOutcome_iff`
reads off when a caller sees nothing but a body or a `RouterError`: the deciding response has to
be JSON where its status is 2xx, and no wait before it may be a NaN that `asyncio.sleep` refuses.
-/

namespace ExchangeRouter
namespace RemoteFetch

open MakeRequest (Json PyFloat Response Texts)

variable {texts : Texts} {refusesNan : Bool} {jitter : ℕ → ℚ} {maxRetries : ℤ}
  {outcomes : ℕ → Outcome}

/-! ## What is promised -/

/-- The outcomes that another request may follow. -/
def Retried : Outcome → Prop
  | .response r => r.status ∈ retriedStatuses
  | .transportError _ _ => True
  | .httpError _ _ => False
  | .outside _ => False

/-- The ending that an outcome is promised: the body of a 2xx, the error that `error_for_status`
assigns to another status, `RouterUnreachable` where there is no response. -/
def Answers (texts : Texts) (o : Outcome) : Ending → Prop
  | .returned body => ∃ r, o = .response r ∧ Success r.status ∧ r.json = .ok body
  | .raised e => ∃ r, o = .response r ∧ ¬ Success r.status ∧ e = errorOf texts r
  | .unreachable _ => ∀ r, o ≠ .response r
  | .escaped _ => False

/-- At most `max_retries + 1` requests, each but the last with an outcome that is asked for
again, and the ending promised for the last. -/
def OneOutcome (texts : Texts) (maxRetries : ℤ) (outcomes : ℕ → Outcome) (run : Run) : Prop :=
  ∃ k : ℕ, run.sent = k + 1 ∧ (k : ℤ) ≤ maxRetries ∧ (∀ i < k, Retried (outcomes i)) ∧
    Answers texts (outcomes k) run.ending

/-! ## The request that decides -/

/-- Request `k` is the last within the budget, or the first that is not asked for again. -/
def Decides (maxRetries : ℤ) (outcomes : ℕ → Outcome) (k : ℕ) : Prop :=
  (k : ℤ) ≤ maxRetries ∧ (∀ i < k, Retried (outcomes i)) ∧
    (Retried (outcomes k) → (k : ℤ) = maxRetries)

/-- A 2xx has a JSON body, and no exception comes from outside `httpx.HTTPError`. -/
def Readable : Outcome → Prop
  | .response r => Success r.status → ∃ body, r.json = .ok body
  | .transportError _ _ => True
  | .httpError _ _ => True
  | .outside _ => False

/-- A response whose `Retry-After` reads as a NaN. -/
def NanWait (texts : Texts) (o : Outcome) : Prop :=
  ∃ r, o = .response r ∧ retryAfterOf texts r = some .nan

/-- At most one attempt decides. -/
lemma Decides.eq {k l : ℕ} (hk : Decides maxRetries outcomes k)
    (hl : Decides maxRetries outcomes l) : k = l := by
  obtain ⟨hkmax, hkbefore, hkend⟩ := hk
  obtain ⟨hlmax, hlbefore, hlend⟩ := hl
  rcases lt_trichotomy k l with hlt | heq | hgt
  · have := hkend (hlbefore k hlt)
    omega
  · exact heq
  · have := hlend (hkbefore l hgt)
    omega

/-- No status that is asked for again is a 2xx. -/
lemma not_success_of_retried {status : ℕ} (h : status ∈ retriedStatuses) : ¬ Success status := by
  simp only [retriedStatuses, List.mem_cons, List.not_mem_nil, or_false] at h
  unfold Success
  omega

/-! ## One attempt -/

/-- An outcome that is not asked for again ends the call, as promised if it can be read. -/
lemma read_ends (texts : Texts) {o : Outcome} (h : ¬ Retried o) :
    ∃ e, read texts o = .ends e ∧ (Answers texts o e ↔ Readable o) := by
  cases o with
  | transportError name message => exact absurd trivial h
  | httpError name message => exact ⟨_, rfl, by simp [Answers, Readable]⟩
  | outside message => exact ⟨_, rfl, by simp [Answers, Readable]⟩
  | response r =>
    by_cases hs : Success r.status
    · cases hj : r.json with
      | ok body =>
        exact ⟨.returned body, by simp [read, hs, hj], by simp [Answers, Readable, hs, hj]⟩
      | error message =>
        exact ⟨.escaped message, by simp [read, hs, hj], by simp [Answers, Readable, hs, hj]⟩
    · have h : r.status ∉ retriedStatuses := h
      exact ⟨.raised (errorOf texts r), by simp [read, hs, h], by simp [Answers, Readable, hs]⟩

/-- One that is asked for again has the promised ending ready. -/
lemma read_again (texts : Texts) {o : Outcome} (h : Retried o) :
    Readable o ∧ ∃ e retryAfter, read texts o = .again e retryAfter ∧ Answers texts o e ∧
      (retryAfter = some .nan ↔ NanWait texts o) := by
  cases o with
  | httpError name message => exact absurd h id
  | outside message => exact absurd h id
  | transportError name message =>
    exact ⟨trivial, _, _, rfl, by simp [Answers], by simp [NanWait]⟩
  | response r =>
    have h : r.status ∈ retriedStatuses := h
    have hs := not_success_of_retried h
    refine ⟨fun hs' => absurd hs' hs, .raised (errorOf texts r), retryAfterOf texts r, ?_, ?_, ?_⟩
    · simp [read, hs, h]
    · exact ⟨r, rfl, hs, rfl⟩
    · simp [NanWait]

/-- The only wait that raises is the NaN, where the interpreter refuses it. -/
lemma sleepRaises_eq_none_iff (attempt : ℕ) (draw : ℚ) (retryAfter : Option PyFloat) :
    sleepRaises refusesNan (sleepFor attempt draw retryAfter) = none ↔
      ¬ (refusesNan = true ∧ retryAfter = some .nan) := by
  rcases retryAfter with _ | (q | _ | _ | _) <;> simp [sleepFor, sleepRaises]

/-! ## The loop -/

/-- An attempt that is not retried ends the call. -/
lemma fetchLoop_of_not_retried {attempt : ℕ} (h : ¬ Retried (outcomes attempt)) :
    ∃ e, fetchLoop texts refusesNan jitter maxRetries outcomes attempt = ⟨attempt + 1, e⟩ ∧
      (Answers texts (outcomes attempt) e ↔ Readable (outcomes attempt)) := by
  obtain ⟨e, hread, hanswers⟩ := read_ends texts h
  refine ⟨e, ?_, hanswers⟩
  rw [fetchLoop, hread]

/-- Out of retries. -/
lemma fetchLoop_of_spent {attempt : ℕ} (h : Retried (outcomes attempt))
    (hmax : maxRetries < attempt + 1) :
    ∃ e, fetchLoop texts refusesNan jitter maxRetries outcomes attempt = ⟨attempt + 1, e⟩ ∧
      (Answers texts (outcomes attempt) e ↔ Readable (outcomes attempt)) := by
  obtain ⟨hreadable, e, retryAfter, hread, hanswers, -⟩ := read_again texts h
  refine ⟨e, ?_, iff_of_true hanswers hreadable⟩
  rw [fetchLoop, hread]
  simp [hmax]

/-- The wait before the next request raises. -/
lemma fetchLoop_of_nan {attempt : ℕ} (h : Retried (outcomes attempt))
    (hmax : ¬ maxRetries < attempt + 1) (hrefuses : refusesNan = true)
    (hnan : NanWait texts (outcomes attempt)) :
    ∃ message, fetchLoop texts refusesNan jitter maxRetries outcomes attempt =
      ⟨attempt + 1, .escaped message⟩ := by
  obtain ⟨-, e, retryAfter, hread, -, hiff⟩ := read_again texts h
  rw [fetchLoop, hread]
  simp [hmax, hrefuses, hiff.2 hnan, sleepFor, sleepRaises]

/-- An attempt that is retried leads to the next. -/
lemma fetchLoop_next {attempt : ℕ} (h : Retried (outcomes attempt))
    (hmax : ¬ maxRetries < attempt + 1)
    (hwait : ¬ (refusesNan = true ∧ NanWait texts (outcomes attempt))) :
    fetchLoop texts refusesNan jitter maxRetries outcomes attempt =
      fetchLoop texts refusesNan jitter maxRetries outcomes (attempt + 1) := by
  obtain ⟨-, e, retryAfter, hread, -, hiff⟩ := read_again texts h
  have hsleep : sleepRaises refusesNan (sleepFor (attempt + 1) (jitter attempt) retryAfter) =
      none := by
    rw [sleepRaises_eq_none_iff, hiff]
    exact hwait
  rw [fetchLoop, hread]
  simp [hmax, hsleep]

/-- A wait between the requests `attempt` and `k` raises. -/
def Blocked (texts : Texts) (refusesNan : Bool) (outcomes : ℕ → Outcome) (attempt k : ℕ) : Prop :=
  refusesNan = true ∧ ∃ i, attempt ≤ i ∧ i < k ∧ NanWait texts (outcomes i)

lemma not_blocked_self (attempt : ℕ) : ¬ Blocked texts refusesNan outcomes attempt attempt := by
  rintro ⟨-, i, hle, hlt, -⟩
  omega

/-- Past a wait that does not raise, only the later ones count. -/
lemma blocked_succ_iff {attempt k : ℕ}
    (hwait : ¬ (refusesNan = true ∧ NanWait texts (outcomes attempt))) :
    Blocked texts refusesNan outcomes (attempt + 1) k ↔
      Blocked texts refusesNan outcomes attempt k := by
  constructor
  · rintro ⟨hrefuses, i, hle, hlt, hnan⟩
    exact ⟨hrefuses, i, by omega, hlt, hnan⟩
  · rintro ⟨hrefuses, i, hle, hlt, hnan⟩
    have hne : attempt ≠ i := by
      rintro rfl
      exact hwait ⟨hrefuses, hnan⟩
    exact ⟨hrefuses, i, by omega, hlt, hnan⟩

/-- From any attempt within the budget there is a request that decides. The call ends there,
unless a wait before it raises. -/
lemma fetchLoop_spec (left attempt : ℕ) (hleft : maxRetries = attempt + left)
    (hbefore : ∀ i < attempt, Retried (outcomes i)) :
    ∃ k, attempt ≤ k ∧ Decides maxRetries outcomes k ∧
      (Blocked texts refusesNan outcomes attempt k → ∃ n message,
        fetchLoop texts refusesNan jitter maxRetries outcomes attempt = ⟨n, .escaped message⟩) ∧
      (¬ Blocked texts refusesNan outcomes attempt k → ∃ e,
        fetchLoop texts refusesNan jitter maxRetries outcomes attempt = ⟨k + 1, e⟩ ∧
          (Answers texts (outcomes k) e ↔ Readable (outcomes k))) := by
  -- on the retries that are left
  induction left generalizing attempt with
  | zero =>
    have hmax : (attempt : ℤ) = maxRetries := by omega
    refine ⟨attempt, le_refl _, ⟨hmax.le, hbefore, fun _ => hmax⟩,
      fun h => absurd h (not_blocked_self attempt), fun _ => ?_⟩
    by_cases h : Retried (outcomes attempt)
    · exact fetchLoop_of_spent h (by omega)
    · exact fetchLoop_of_not_retried h
  | succ left ih =>
    by_cases h : Retried (outcomes attempt)
    · have hmax : ¬ maxRetries < attempt + 1 := by omega
      have hbefore' : ∀ i < attempt + 1, Retried (outcomes i) := by
        intro i hi
        rcases Nat.lt_succ_iff_lt_or_eq.1 hi with hi | rfl
        · exact hbefore i hi
        · exact h
      obtain ⟨k, hle, hdecides, hblocked, hends⟩ :=
        ih (attempt + 1) (by push_cast; omega) hbefore'
      -- a wait that raises ends the call here, whichever request would have decided
      refine ⟨k, by omega, hdecides, ?_, ?_⟩
      all_goals by_cases hwait : refusesNan = true ∧ NanWait texts (outcomes attempt)
      · obtain ⟨message, hrun⟩ := fetchLoop_of_nan h hmax hwait.1 hwait.2
        exact fun _ => ⟨_, message, hrun⟩
      · rw [fetchLoop_next h hmax hwait, ← blocked_succ_iff hwait]
        exact hblocked
      · exact fun hnot => absurd ⟨hwait.1, attempt, le_refl _, by omega, hwait.2⟩ hnot
      · rw [fetchLoop_next h hmax hwait, ← blocked_succ_iff hwait]
        exact hends
    · refine ⟨attempt, le_refl _, ⟨by omega, hbefore, fun h' => absurd h' h⟩,
        fun hb => absurd hb (not_blocked_self attempt), fun _ => fetchLoop_of_not_retried h⟩

/-- The whole call. -/
lemma fetch_spec (hmax : 0 ≤ maxRetries) :
    ∃ k, Decides maxRetries outcomes k ∧
      (Blocked texts refusesNan outcomes 0 k → ∃ n message,
        fetch texts refusesNan jitter maxRetries outcomes = ⟨n, .escaped message⟩) ∧
      (¬ Blocked texts refusesNan outcomes 0 k → ∃ e,
        fetch texts refusesNan jitter maxRetries outcomes = ⟨k + 1, e⟩ ∧
          (Answers texts (outcomes k) e ↔ Readable (outcomes k))) := by
  have hleft : maxRetries = (0 : ℕ) + (maxRetries.toNat : ℤ) := by omega
  obtain ⟨k, -, hk⟩ := fetchLoop_spec maxRetries.toNat 0 hleft fun i hi => absurd hi (by omega)
  exact ⟨k, hk⟩

/-! ## The router's own service -/

/-- The JSON of an error response of the service. -/
def errorJson (body : Service.ErrorBody) : Json :=
  .obj (("detail", .str body.detail) :: body.error.toList.map fun error => ("error", .str error))

section

variable {J : Type}

/-- A response of the service, as it comes over the wire. -/
def Renders (texts : Texts) (toJson : Body J → Json) : Service.Response J → Response → Prop
  | .ok body, r => Success r.status ∧ r.json = .ok (toJson body)
  | .page, r => Success r.status ∧ ∃ message, r.json = .error message
  | .error status none retryAfter, r =>
    r.status = status ∧ ¬ Success status ∧ (∃ message, r.json = .error message) ∧ r.text = "" ∧
      retryAfterOf texts r = retryAfter.map fun (seconds : ℤ) => PyFloat.finite (seconds : ℚ)
  | .error status (some body) retryAfter, r =>
    r.status = status ∧ ¬ Success status ∧ r.json = .ok (errorJson body) ∧
      body.error ≠ some "" ∧
      retryAfterOf texts r = retryAfter.map fun (seconds : ℤ) => PyFloat.finite (seconds : ℚ)

/-- The two errors say the same. -/
def SameError (e : RouterError) (e' : StatusError) : Prop :=
  e'.cls = e.cls ∧ e'.detail = .str e.detail ∧ some e'.status = e.status ∧
    e'.retryAfter = e.retryAfter.map .finite

/-- The two ends of a call are the same, `toJson` being the JSON of a body. -/
def Matches (toJson : Body J → Json) : Except RemoteBackend.Raised (Body J) → Ending → Prop
  | .ok body, .returned json => json = toJson body
  | .error (.router e), .raised e' => SameError e e'
  | .error .escaped, .escaped _ => True
  | _, _ => False

lemma sameError_errorForStatus (status : ℕ) (detail : String) (seconds : Option ℚ) :
    SameError (ExchangeRouter.errorForStatus status detail seconds)
      (errorForStatus status (.str detail) (seconds.map .finite)) := by
  unfold errorForStatus ExchangeRouter.errorForStatus
  repeat' split
  all_goals exact ⟨rfl, rfl, rfl, rfl⟩

/-- `_detail` of an error response. -/
lemma detailOf_errorJson {r : Response} {body : Service.ErrorBody} (status : ℕ)
    (hstr : texts.str (.obj [("detail", .str "")]) = "\x7b'detail': ''\x7d")
    (hjson : r.json = .ok (errorJson body)) (herror : body.error ≠ some "") :
    detailOf texts r = .str (ExchangeRouter.detailOf status (some body)) := by
  obtain ⟨detail, error⟩ := body
  have hdetail : (errorJson ⟨detail, error⟩).get? .null "detail" = some (.str detail) := by
    cases error <;> rfl
  have hget : (errorJson ⟨detail, error⟩).get? .null "error" =
      some ((error.map Json.str).getD .null) := by
    cases error <;> rfl
  unfold detailOf ExchangeRouter.detailOf
  simp only [hjson, hdetail, hget]
  by_cases hempty : detail = ""
  · subst hempty
    cases error with
    | none => simp [Json.truthy, errorJson, hstr]
    | some error =>
      have hne : error ≠ "" := fun heq => herror (congrArg some heq)
      simp [Json.truthy, hne]
  · simp [Json.truthy, hempty]

/-- The error of a response is the one that the service's status and body stand for. -/
lemma sameError_errorOf
    (hstr : texts.str (.obj [("detail", .str "")]) = "\x7b'detail': ''\x7d")
    {toJson : Body J → Json} {status : ℕ} {body : Option Service.ErrorBody} {retryAfter : Option ℤ}
    {r : Response} (h : Renders texts toJson (.error status body retryAfter) r) :
    SameError (ExchangeRouter.errorForStatus status (ExchangeRouter.detailOf status body)
      (retryAfter.map fun (seconds : ℤ) => (seconds : ℚ))) (errorOf texts r) := by
  have hseconds :
      (retryAfter.map fun (seconds : ℤ) => PyFloat.finite (seconds : ℚ)) =
        (retryAfter.map fun (seconds : ℤ) => (seconds : ℚ)).map .finite := by
    rw [Option.map_map]
    rfl
  unfold errorOf
  cases body with
  | none =>
    obtain ⟨hstatus, -, ⟨message, hjson⟩, htext, hretry⟩ := h
    have hdetail : detailOf texts r = .str (ExchangeRouter.detailOf status none) := by
      simp [detailOf, hjson, htext, hstatus, ExchangeRouter.detailOf]
      rfl
    rw [hstatus, hdetail, hretry, hseconds]
    exact sameError_errorForStatus _ _ _
  | some body =>
    obtain ⟨hstatus, -, hjson, herror, hretry⟩ := h
    rw [hstatus, detailOf_errorJson status hstr hjson herror, hretry, hseconds]
    exact sameError_errorForStatus _ _ _

/-- No `Retry-After` of the service is a NaN. -/
lemma not_nanWait {toJson : Body J → Json} {response : Service.Response J} {r : Response}
    (h : Renders texts toJson response r) (hretried : r.status ∈ retriedStatuses) :
    ¬ NanWait texts (.response r) := by
  rintro ⟨r', hr', hnan⟩
  obtain rfl := Outcome.response.inj hr'
  have hsome : ∀ retryAfter : Option ℤ, retryAfterOf texts r ≠
      retryAfter.map fun (seconds : ℤ) => PyFloat.finite (seconds : ℚ) := by
    intro retryAfter hretry
    rw [hnan] at hretry
    cases retryAfter <;> cases hretry
  cases response with
  | ok body => exact not_success_of_retried hretried h.1
  | page => exact not_success_of_retried hretried h.1
  | error status body retryAfter =>
    cases body with
    | none => exact hsome retryAfter h.2.2.2.2
    | some body => exact hsome retryAfter h.2.2.2.2

/-- A response that is asked for again is an error, and comes over the wire with its status. -/
lemma error_of_retried {toJson : Body J → Json} {response : Service.Response J} {r : Response}
    (h : Renders texts toJson response r) (hretried : r.status ∈ retriedStatuses) :
    ∃ body retryAfter, response = .error r.status body retryAfter := by
  cases response with
  | ok body => exact absurd h.1 (not_success_of_retried hretried)
  | page => exact absurd h.1 (not_success_of_retried hretried)
  | error status body retryAfter =>
    have hstatus : r.status = status := by
      cases body with
      | none => exact h.1
      | some body => exact h.1
    exact ⟨body, retryAfter, by rw [hstatus]⟩

/-- One that is not ends both calls alike. -/
lemma matches_of_not_retried
    (hstr : texts.str (.obj [("detail", .str "")]) = "\x7b'detail': ''\x7d")
    {toJson : Body J → Json} {request : ℕ → Service.Response J} {attempt : ℕ} {r : Response}
    (h : Renders texts toJson (request attempt) r) (hnot : r.status ∉ retriedStatuses)
    (left : ℕ) : ∃ e, read texts (.response r) = .ends e ∧
      Matches toJson (RemoteBackend.fetchLoop request left attempt) e := by
  rw [RemoteBackend.fetchLoop.eq_def]
  cases hresponse : request attempt with
  | ok body =>
    rw [hresponse] at h
    exact ⟨.returned (toJson body), by simp [read, h.1, h.2], rfl⟩
  | page =>
    rw [hresponse] at h
    obtain ⟨hsuccess, message, hjson⟩ := h
    exact ⟨.escaped message, by simp [read, hsuccess, hjson], trivial⟩
  | error status body retryAfter =>
    rw [hresponse] at h
    have hsame := sameError_errorOf hstr h
    have hstatus : r.status = status ∧ ¬ Success status := by
      cases body with
      | none => exact ⟨h.1, h.2.1⟩
      | some body => exact ⟨h.1, h.2.1⟩
    obtain ⟨rfl, hsuccess⟩ := hstatus
    refine ⟨.raised (errorOf texts r), by simp [read, hsuccess, hnot], ?_⟩
    simp only [hnot, not_false_eq_true, if_true]
    exact hsame

/-- Against the service the two loops come to the same end. `hstr` is what `str` makes of the body
with an empty detail and no error. -/
theorem fetchLoop_matches
    (hstr : texts.str (.obj [("detail", .str "")]) = "\x7b'detail': ''\x7d")
    {toJson : Body J → Json} {request : ℕ → Service.Response J} {responses : ℕ → Response}
    (h : ∀ i, Renders texts toJson (request i) (responses i)) (left attempt : ℕ) :
    Matches toJson (RemoteBackend.fetchLoop request left attempt)
      (fetchLoop texts refusesNan jitter (attempt + left) (fun i => .response (responses i))
        attempt).ending := by
  -- on the retries that are left
  induction left generalizing attempt with
  | zero =>
    by_cases hretried : (responses attempt).status ∈ retriedStatuses
    · have hsuccess := not_success_of_retried hretried
      obtain ⟨body, retryAfter, hresponse⟩ := error_of_retried (h attempt) hretried
      have hsame := sameError_errorOf hstr (hresponse ▸ h attempt)
      have hlast : fetchLoop texts refusesNan jitter (attempt + (0 : ℕ))
          (fun i => .response (responses i)) attempt =
          ⟨attempt + 1, .raised (errorOf texts (responses attempt))⟩ := by
        rw [fetchLoop]
        simp [read, hsuccess, hretried]
      rw [hlast, RemoteBackend.fetchLoop.eq_def, hresponse]
      simp only [hretried, not_true_eq_false, if_false]
      exact hsame
    · obtain ⟨e, hread, hmatches⟩ := matches_of_not_retried hstr (h attempt) hretried 0
      rw [fetchLoop, hread]
      exact hmatches
  | succ left ih =>
    by_cases hretried : (responses attempt).status ∈ retriedStatuses
    · obtain ⟨body, retryAfter, hresponse⟩ := error_of_retried (h attempt) hretried
      have hnext : RemoteBackend.fetchLoop request (left + 1) attempt =
          RemoteBackend.fetchLoop request left (attempt + 1) := by
        rw [RemoteBackend.fetchLoop, hresponse]
        simp [hretried]
      have hbudget : (attempt : ℤ) + (left + 1 : ℕ) = (attempt + 1 : ℕ) + left := by
        omega
      have hrest : fetchLoop texts refusesNan jitter (attempt + (left + 1 : ℕ))
          (fun i => .response (responses i)) attempt =
          fetchLoop texts refusesNan jitter (attempt + (left + 1 : ℕ))
            (fun i => .response (responses i)) (attempt + 1) := by
        have hasked : Retried (.response (responses attempt)) := hretried
        refine fetchLoop_next hasked (by omega) ?_
        exact fun hnan => not_nanWait (h attempt) hretried hnan.2
      rw [hnext, hrest, hbudget]
      exact ih (attempt + 1)
    · obtain ⟨e, hread, hmatches⟩ := matches_of_not_retried hstr (h attempt) hretried (left + 1)
      rw [fetchLoop, hread]
      exact hmatches

end

/-! ## When a caller sees only a body or a `RouterError` -/

/-- A call keeps what is promised exactly when `max_retries` is not negative, the deciding
outcome can be read, and no response before it names a NaN to an interpreter that refuses to
sleep for one. -/
theorem fetch_oneOutcome_iff (texts : Texts) (refusesNan : Bool) (jitter : ℕ → ℚ)
    (maxRetries : ℤ) (outcomes : ℕ → Outcome) :
    OneOutcome texts maxRetries outcomes (fetch texts refusesNan jitter maxRetries outcomes) ↔
      0 ≤ maxRetries ∧ ∀ k, Decides maxRetries outcomes k →
        Readable (outcomes k) ∧
          (refusesNan = true → ∀ i < k, ¬ NanWait texts (outcomes i)) := by
  constructor
  · rintro ⟨last, hsent, hlast, hretried, hanswers⟩
    have hmax : 0 ≤ maxRetries := by omega
    refine ⟨hmax, fun k hk => ?_⟩
    obtain ⟨k', hk', hblocked, hends⟩ := fetch_spec hmax
    -- only one request decides
    obtain rfl := hk.eq hk'
    by_cases hb : Blocked texts refusesNan outcomes 0 k
    · obtain ⟨n, message, hrun⟩ := hblocked hb
      rw [hrun] at hanswers
      exact hanswers.elim
    · obtain ⟨e, hrun, hiff⟩ := hends hb
      rw [hrun] at hsent hanswers
      obtain rfl : k = last := by simpa using hsent
      exact ⟨hiff.1 hanswers, fun hrefuses i hi hnan =>
        hb ⟨hrefuses, i, Nat.zero_le i, hi, hnan⟩⟩
  · rintro ⟨hmax, hall⟩
    obtain ⟨k, hk, -, hends⟩ := fetch_spec hmax
    obtain ⟨hreadable, hwaits⟩ := hall k hk
    have hb : ¬ Blocked texts refusesNan outcomes 0 k := by
      rintro ⟨hrefuses, i, -, hi, hnan⟩
      exact hwaits hrefuses i hi hnan
    obtain ⟨e, hrun, hiff⟩ := hends hb
    rw [hrun]
    exact ⟨k, rfl, hk.1, hk.2.1, hiff.2 hreadable⟩

/-- A proxy's page with status 200: the `ValueError` of `response.json()` reaches the caller. -/
theorem fetch_page_escapes : ¬ ∀ (texts : Texts) (refusesNan : Bool) (jitter : ℕ → ℚ)
    (maxRetries : ℤ) (outcomes : ℕ → Outcome), 0 ≤ maxRetries →
      OneOutcome texts maxRetries outcomes
        (fetch texts refusesNan jitter maxRetries outcomes) := by
  intro h
  let texts : Texts := ⟨fun _ => none, fun _ => none, fun _ => "", fun _ => ""⟩
  let page : Response := ⟨200, fun _ => none, .error "Expecting value: line 1 column 1 (char 0)",
    "<html></html>"⟩
  obtain ⟨k, hsent, -, -, hanswers⟩ := h texts false (fun _ => 0) 3 (fun _ => .response page)
    (by decide)
  have hrun : fetch texts false (fun _ => 0) 3 (fun _ => .response page) =
      ⟨1, .escaped "Expecting value: line 1 column 1 (char 0)"⟩ := by
    rw [fetch, fetchLoop]
    rfl
  rw [hrun] at hanswers
  exact hanswers

end RemoteFetch
end ExchangeRouter
