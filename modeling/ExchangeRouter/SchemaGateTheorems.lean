import ExchangeRouter.Lib.Dict
import ExchangeRouter.SchemaGate

/-!
# What the schema gate promises

Every read keeps `contract`: it asks for data only after a handshake that succeeded, with no
mismatch since. The rules of `Coroutine.wp` give that for every coroutine, and so for every run
of any number of them whose steps are `Safe`.
-/

namespace ExchangeRouter
namespace SchemaGate

open MakeRequest (Json)
open Coroutine (wp_bind wp_ite wp_reads)

/-! ## The log -/

/-- A log grows by an entry that starts no call. -/
lemma Refuses.cons {log : List Entry} (h : Refuses log) {entry : Entry}
    (hentry : ∀ i, entry ≠ .started i) : Refuses (entry :: log) := by
  intro later earlier i heq hmem
  cases later with
  | nil =>
    rw [List.nil_append, List.cons.injEq] at heq
    exact absurd heq.1 (hentry i)
  | cons e later =>
    rw [List.cons_append, List.cons.injEq] at heq
    obtain ⟨err, herr, hended⟩ := h later earlier i heq.2 hmem
    exact ⟨err, herr, List.mem_cons_of_mem _ hended⟩

/-- A call that starts before any mismatch. -/
lemma refuses_started {log : List Entry} (i : ℕ) (hlog : .mismatch ∉ log) :
    Refuses (.started i :: log) := by
  intro later earlier j heq hmem
  have hearlier : earlier ⊆ log := by
    cases later with
    | nil =>
      rw [List.nil_append, List.cons.injEq] at heq
      exact heq.2 ▸ List.Subset.refl _
    | cons e later =>
      rw [List.cons_append, List.cons.injEq] at heq
      rw [heq.2]
      exact fun x hx => by simp [hx]
  exact absurd (hearlier hmem) hlog

/-- A call that starts and is refused at once. -/
lemma Refuses.refused {log : List Entry} (h : Refuses log) (i : ℕ) {e : Err}
    (he : e.isSchemaMismatch) : Refuses (.ended i (some e) :: .started i :: log) := by
  intro later earlier j heq hmem
  match later, heq with
  | [], heq => simp at heq
  | [entry], heq =>
    simp only [List.cons_append, List.nil_append, List.cons.injEq, Entry.started.injEq] at heq
    obtain ⟨rfl, rfl, rfl⟩ := heq
    exact ⟨e, he, List.mem_singleton_self _⟩
  | entry :: entry' :: later, heq =>
    simp only [List.cons_append, List.cons.injEq] at heq
    obtain ⟨rfl, rfl, hlog⟩ := heq
    obtain ⟨err, herr, hended⟩ := h later earlier j hlog hmem
    exact ⟨err, herr, List.mem_cons_of_mem _ (List.mem_cons_of_mem _ hended)⟩

/-! ## The contract of the reads -/

/-- What holds of the router while its calls wait. -/
structure Router.Sound (r : Router) : Prop where
  refused : .mismatch ∈ r.log → r.Refused
  shook : r.handshakeDone → .shook ∈ r.log
  gated : Gated r.log
  refuses : Refuses r.log

/-- What the other calls do not undo. -/
structure Router.Keeps (r r' : Router) : Prop where
  done : r.handshakeDone → r'.handshakeDone
  refused : r.Refused → r'.Refused

lemma Router.Keeps.refl {r : Router} : r.Keeps r := ⟨id, id⟩

/-- What is set stays set. -/
lemma Router.Keeps.trans {r r' r'' : Router} (h : r.Keeps r') (h' : r'.Keeps r'') :
    r.Keeps r'' := ⟨fun hr => h'.done (h.done hr), fun hr => h'.refused (h.refused hr)⟩

/-- What a stretch may rely on at an `await`, and what it owes there: a read goes out on an open
router only. -/
def contract : Coroutine.Contract Router Request (Except Err Json) where
  inv := Router.Sound
  rely := Router.Keeps
  asks request r := ∀ route arguments, request = .read route arguments → r.Open
  answers := Acceptable
  arrives := arrives

/-- A stretch comes back ready, and if it comes back with a value the router is open. -/
def Passed {α : Type} (result : Except Err α) (r₀ r : Router) : Prop :=
  contract.Ready r₀ r ∧ ∀ a, result = .ok a → r.Open

lemma ready_rfl {r : Router} (h : r.Sound) : contract.Ready r r := ⟨h, Router.Keeps.refl⟩

/-- A raised exception needs no open router. -/
lemma passed_error {α : Type} {e : Err} {r₀ r : Router} (h : contract.Ready r₀ r) :
    Passed (.error e : Except Err α) r₀ r := ⟨h, fun _ heq => by simp at heq⟩

/-- A value on an open router. -/
lemma passed_ok {α : Type} {a : α} {r₀ r : Router} (h : contract.Ready r₀ r) (hopen : r.Open) :
    Passed (.ok a) r₀ r := ⟨h, fun _ _ => hopen⟩

/-- A write that leaves the handshake alone. -/
lemma ready_of_same {r₀ r r' : Router} (h : contract.Ready r₀ r)
    (hdone : r'.handshakeDone = r.handshakeDone) (herror : r'.handshakeError = r.handshakeError)
    (hlog : r'.log = r.log) : contract.Ready r₀ r' := by
  have hrefused : r'.Refused ↔ r.Refused := by
    unfold Router.Refused
    rw [herror]
  refine ⟨⟨?_, ?_, ?_, ?_⟩, ⟨?_, ?_⟩⟩
  · rw [hlog, hrefused]
    exact h.1.refused
  · rw [hlog, hdone]
    exact h.1.shook
  · rw [hlog]
    exact h.1.gated
  · rw [hlog]
    exact h.1.refuses
  · rw [hdone]
    exact h.2.done
  · rw [hrefused]
    exact h.2.refused

/-! ## The handshake -/

/-- A value that is `none` where the language raises, and what follows it. -/
lemma wp_orRaise {α β : Type} {name : String} {value : Option α} {f : α → Co β}
    {Q : Except Err β → Router → Router → Prop} {r₀ r : Router}
    (hsome : ∀ a, value = some a → (f a).wp contract Q r₀ r)
    (hnone : Q (.error (.other name)) r₀ r) :
    (orRaise name value >>= f).wp contract Q r₀ r := by
  cases value with
  | none => exact hnone
  | some a => exact hsome a rfl

/-- A router that shakes hands is open. -/
lemma wp_shake {r₀ r : Router} (h : contract.Ready r₀ r) (hopen : ¬ r.Refused) :
    shake.wp contract Passed r₀ r := by
  have hsound : ({ r with handshakeDone := true, log := .shook :: r.log } : Router).Sound := by
    refine ⟨fun hmem => ?_, fun _ => List.mem_cons_self, h.1.gated, h.1.refuses.cons (by simp)⟩
    have hold : .mismatch ∈ r.log := by simpa using hmem
    exact absurd (h.1.refused hold) hopen
  have hkeeps : r₀.Keeps { r with handshakeDone := true, log := .shook :: r.log } :=
    ⟨fun _ => rfl, fun hr => h.2.refused hr⟩
  exact passed_ok ⟨hsound, hkeeps⟩ ⟨rfl, hopen⟩

/-- An error is set where no mismatch has been. -/
lemma wp_refuse {e : Err} {r₀ r : Router} (h : contract.Ready r₀ r) (hopen : ¬ r.Refused) :
    (refuse e).wp contract Passed r₀ r := by
  have hsound : ({ r with handshakeError := some e } : Router).Sound :=
    ⟨fun hmem => absurd (h.1.refused hmem) hopen, h.1.shook, h.1.gated, h.1.refuses⟩
  have hkeeps : r₀.Keeps { r with handshakeError := some e } :=
    ⟨h.2.done, fun hr => absurd (h.2.refused hr) hopen⟩
  exact passed_error ⟨hsound, hkeeps⟩

/-- A mismatch that has just arrived. -/
lemma wp_refuse_mismatch {message : String} {theirs : Json} {r₀ r : Router}
    (h : contract.Ready r₀ r) :
    (refuse (.schemaMismatch message schemaVersion theirs)).wp contract Passed r₀
      { r with log := .mismatch :: r.log } := by
  refine passed_error ⟨⟨fun _ => ⟨_, rfl, rfl⟩, fun hr => ?_, h.1.gated,
    h.1.refuses.cons (by simp)⟩, ⟨h.2.done, fun _ => ⟨_, rfl, rfl⟩⟩⟩
  exact List.mem_cons_of_mem _ (h.1.shook hr)

variable {texts : Texts}

/-- `fetch("exchanges")` of a handshake: what comes back is read where no mismatch has been. -/
lemma wp_fetch_exchanges {r₀ r : Router} (h : contract.Ready r₀ r) :
    (fetch .exchanges).wp contract
      (fun result r₀ r => contract.Ready r₀ r ∧ ∀ a, result = .ok a → ¬ r.Refused) r₀ r := by
  refine ⟨h, fun _ _ heq => by simp at heq, fun reply r' hready hanswers => ?_⟩
  cases reply with
  | error e => exact ⟨ready_rfl hready.1, fun _ heq => by simp at heq⟩
  | ok data => exact ⟨ready_rfl hready.1, fun _ _ => hanswers⟩

/-- `_ensure_scope` keeps the contract, and returns on an open router only. -/
lemma wp_ensureScope {r₀ r : Router} (h : contract.Ready r₀ r) :
    (ensureScope texts).wp contract Passed r₀ r := by
  apply wp_bind (wp_fetch_exchanges h)
  · intro data r₀ r hr
    have hready : contract.Ready r₀ r := hr.1
    have hopen : ¬ r.Refused := hr.2 data rfl
    apply wp_orRaise _ (passed_error hready)
    intro listed _
    apply wp_orRaise _ (passed_error hready)
    intro served _
    apply wp_reads
    apply wp_ite
    · intro _
      apply wp_orRaise _ (passed_error hready)
      intro scope _
      have hscope : contract.Ready r₀ { r with scope := scope } :=
        ready_of_same hready rfl rfl rfl
      exact wp_shake hscope hopen
    · intro _
      apply wp_ite
      · intro _
        apply wp_orRaise _ (passed_error hready)
        intro carried _
        exact wp_refuse hready hopen
      · intro _
        exact wp_shake hready hopen
  · intro e r₀ r hr
    exact passed_error hr.1

/-- A version reply with another schema. -/
lemma wp_ensureSchema_mismatching {data : Json} {r₀ r : Router} (h : contract.Ready r₀ r)
    (hdata : mismatching data) :
    (ensureSchema texts data).wp contract Passed r₀ { r with log := .mismatch :: r.log } := by
  unfold mismatching at hdata
  unfold ensureSchema
  cases htheirs : data.get? .null "schema_version" with
  | none => simp [htheirs] at hdata
  | some theirs =>
    rw [htheirs, Option.any_some] at hdata
    apply wp_ite
    · intro _
      cases hrelease : data.get? .null "version" with
      | none => cases data <;> simp [Json.get?] at htheirs hrelease
      | some release => exact wp_refuse_mismatch h
    · exact fun hneg => absurd hdata hneg

/-- A version reply with the SDK's schema, or one that cannot be read. -/
lemma wp_ensureSchema {data : Json} {r₀ r : Router} (h : contract.Ready r₀ r)
    (hdata : ¬ mismatching data) (hopen : r.Refused → ¬ accepted data) :
    (ensureSchema texts data).wp contract Passed r₀ r := by
  unfold mismatching at hdata
  unfold accepted at hopen
  apply wp_orRaise _ (passed_error h)
  intro theirs htheirs
  rw [htheirs, Option.any_some] at hdata hopen
  apply wp_ite
  · exact fun hpos => absurd hpos hdata
  · intro _
    have hr : ¬ r.Refused := fun hr => hopen hr (by simpa using hdata)
    apply wp_reads
    apply wp_ite
    · intro _
      exact wp_ensureScope h
    · intro _
      exact wp_shake h hr

/-- `_ensure_handshake` leaves the router open, or raises. -/
theorem wp_ensureHandshake {r₀ r : Router} (h : contract.Ready r₀ r) :
    (ensureHandshake texts).wp contract Passed r₀ r := by
  apply wp_reads
  split
  · exact passed_error h
  · next hnone =>
    have hopen : ¬ r.Refused := by
      intro hr
      obtain ⟨e, he, -⟩ := hr
      simp [hnone] at he
    apply wp_ite
    · exact fun hdone => passed_ok h ⟨hdone, hopen⟩
    · intro _
      refine ⟨h, fun _ _ heq => by simp at heq, fun reply r' hready hanswers => ?_⟩
      have hr' : contract.Ready r' r' := ready_rfl hready.1
      cases reply with
      | error e => exact passed_error hr'
      | ok data =>
        by_cases hdata : mismatching data
        · have harrives : contract.arrives .version (.ok data) r' =
              { r' with log := .mismatch :: r'.log } := by
            show (if mismatching data then { r' with log := .mismatch :: r'.log } else r') = _
            rw [if_pos hdata]
          rw [harrives]
          exact wp_ensureSchema_mismatching hr' hdata
        · have harrives : contract.arrives .version (.ok data) r' = r' := by
            show (if mismatching data then { r' with log := .mismatch :: r'.log } else r') = r'
            rw [if_neg hdata]
          rw [harrives]
          exact wp_ensureSchema hr' hdata hanswers

/-! ## The reads -/

/-- What a read leaves behind. -/
def Left {α : Type} (_ : Except Err α) (r₀ r : Router) : Prop := contract.Ready r₀ r

/-- The reply to a read is noted after the handshake it came behind. -/
lemma ready_arrives {route : String} {arguments : List String} {reply : Except Err Json}
    {r : Router} (h : r.Sound) (hopen : r.handshakeDone)
    (hanswers : contract.answers (.read route arguments) reply r) :
    contract.Ready r (arrives (.read route arguments) reply r) := by
  cases reply with
  | error e => exact ready_rfl h
  | ok data =>
    show contract.Ready r (ite _ _ _)
    rw [if_neg hanswers]
    refine ⟨⟨fun hmem => ?_, fun _ => ?_, ⟨h.shook hopen, h.gated⟩,
      h.refuses.cons (by simp)⟩, ⟨id, id⟩⟩
    · exact h.refused (by simpa using hmem)
    · exact List.mem_cons_of_mem _ (h.shook hopen)

/-- An await behind the gate. -/
lemma wp_awaits {α : Type} {route : String} {arguments : List String}
    {k : Except Err Json → Co α} {r₀ r : Router} (h : contract.Ready r₀ r) (hopen : r.Open)
    (hk : ∀ reply r₀ r, contract.Ready r₀ r → (k reply).wp contract Left r₀ r) :
    Coroutine.wp contract (.awaits (.read route arguments) k) Left r₀ r := by
  refine ⟨h, fun _ _ _ => hopen, fun reply r' hready hanswers => ?_⟩
  apply hk
  exact ready_arrives hready.1 (hready.2.done hopen.1) hanswers

/-- What comes behind the gate. -/
lemma wp_gate {α : Type} {k : Unit → Co α} {r₀ r : Router} (h : contract.Ready r₀ r)
    (hk : ∀ r₀ r, contract.Ready r₀ r → r.Open → (k ()).wp contract Left r₀ r) :
    (ensureHandshake texts >>= k).wp contract Left r₀ r := by
  apply wp_bind (wp_ensureHandshake h)
  · intro _ r₀ r hpassed
    exact hk r₀ r hpassed.1 (hpassed.2 () rfl)
  · intro e r₀ r hpassed
    exact hpassed.1

/-- The rule for a sequence of reads. -/
lemma wp_seq {α β : Type} {c : Co α} {f : α → Co β} {r₀ r : Router}
    (h : c.wp contract Left r₀ r)
    (hf : ∀ a r₀ r, contract.Ready r₀ r → (f a).wp contract Left r₀ r) :
    (c >>= f).wp contract Left r₀ r :=
  wp_bind h hf fun _ _ _ hleft => hleft

/-- A request behind the handshake keeps the contract. -/
lemma wp_fetchRead {route : String} {arguments : List String} {r₀ r : Router}
    (h : contract.Ready r₀ r) : (fetchRead texts route arguments).wp contract Left r₀ r := by
  apply wp_gate h
  intro r₀ r hready hopen
  apply wp_awaits hready hopen
  intro reply r₀ r hr
  cases reply <;> exact hr

/-- So does `_ensure_capabilities`. -/
lemma wp_ensureCapabilities {exchange : String} {quiet : Bool} {r₀ r : Router}
    (h : contract.Ready r₀ r) :
    (ensureCapabilities texts exchange quiet).wp contract Left r₀ r := by
  apply wp_gate h
  intro r₀ r hready hopen
  apply wp_reads
  split
  · exact hready
  · apply wp_awaits hready hopen
    intro reply r₀ r hr
    cases reply with
    | ok data => exact ready_of_same hr rfl rfl rfl
    | error e => exact wp_ite (fun _ => hr) (fun _ => hr)

/-- So does the preflight. -/
lemma wp_preflight {exchange marketType route : String} {interval : Option String}
    {intervalLabel : String} {r₀ r : Router} (h : contract.Ready r₀ r) :
    (preflight texts exchange marketType route interval intervalLabel).wp contract Left r₀ r := by
  apply wp_seq (wp_ensureCapabilities h)
  intro caps r₀ r hr
  apply wp_reads
  apply wp_orRaise _ hr
  intro block _
  apply wp_ite
  · intro _
    apply wp_orRaise _ hr
    intro rest _
    apply wp_ite
    · exact fun _ => hr
    · intro _
      apply wp_orRaise _ hr
      intro intervals _
      cases interval with
      | none => exact hr
      | some interval =>
        apply wp_ite
        · intro _
          apply wp_orRaise _ hr
          intro valid _
          apply wp_ite
          · exact fun _ => hr
          · exact fun _ => wp_orRaise (fun _ _ => hr) hr
        · exact fun _ => hr
  · exact fun _ => hr

lemma wp_getVersion {r₀ r : Router} (h : contract.Ready r₀ r) :
    (getVersion texts).wp contract Left r₀ r := by
  apply wp_seq (wp_fetchRead h)
  intro data r₀ r hr
  cases hvalue : data.get? (.str "") "version" <;> exact hr

/-- So does a read behind its preflight. -/
lemma wp_preflighted {route exchange marketType symbol : String} {interval : Option String}
    {intervalLabel : String} {r₀ r : Router} (h : contract.Ready r₀ r) :
    (do
      preflight texts exchange marketType route interval intervalLabel
      fetchRead texts route [exchange, marketType, symbol]).wp contract Left r₀ r := by
  apply wp_seq (wp_preflight h)
  intro _ r₀ r hr
  exact wp_fetchRead hr

/-- So does `get_margin_tiers`. -/
lemma wp_getMarginTiers {exchange marketType symbol : String} {r₀ r : Router}
    (h : contract.Ready r₀ r) :
    (getMarginTiers texts exchange marketType symbol).wp contract Left r₀ r := by
  apply wp_seq (wp_ensureCapabilities h)
  intro caps r₀ r hr
  apply wp_orRaise _ hr
  intro market _
  have hlisted : (listsMarginTiers market).wp contract Left r₀ r := by
    apply wp_ite
    · intro _
      cases contains? "margin_tiers" market <;> exact hr
    · exact fun _ => hr
  apply wp_seq hlisted
  intro listed r₀ r hr
  apply wp_ite
  · exact fun _ => wp_preflighted hr
  · intro _
    apply wp_seq (wp_getVersion hr)
    exact fun _ _ _ hr => hr

/-- So does the warming of the names. -/
lemma wp_warmNames {names : List String} {r₀ r : Router} (h : contract.Ready r₀ r) :
    (warmNames texts names).wp contract Left r₀ r := by
  induction names generalizing r₀ r with
  | nil => exact h
  | cons name names ih =>
    apply wp_seq (wp_ensureCapabilities h)
    exact fun _ _ _ hr => ih hr

/-- Every read keeps the contract. -/
theorem wp_coroutine (m : Method) {r₀ r : Router} (h : contract.Ready r₀ r) :
    (m.coroutine texts).wp contract Left r₀ r := by
  cases m with
  | discovery route arguments => exact wp_fetchRead h
  | getVersion => exact wp_getVersion h
  | getCapabilities exchange => exact wp_ensureCapabilities h
  | point route exchange marketType symbol => exact wp_preflighted h
  | getMarginTiers exchange marketType symbol => exact wp_getMarginTiers h
  | series route exchange marketType symbol interval intervalLabel => exact wp_preflighted h
  | fetchMany route exchange =>
    exact wp_ite (fun _ => h) (fun _ => wp_ensureCapabilities h)
  | warm exchange =>
    apply wp_gate h
    intro r₀ r hready _
    apply wp_reads
    apply wp_seq (wp_warmNames hready)
    exact fun _ _ _ hr => hr

/-! ## Calls behind a mismatch -/

/-- A read in a router that refuses ends at once. -/
lemma stretch_ensureHandshake {r : Router} {e : Err} (herror : r.handshakeError = some e) :
    (ensureHandshake texts).stretch r = (r, .ended (.error e)) := by
  unfold ensureHandshake
  simp only [Coroutine.stretch, herror]

/-- `_ensure_capabilities` raises what the handshake raised. -/
lemma stretch_ensureCapabilities {r : Router} {e : Err} (herror : r.handshakeError = some e)
    (exchange : String) (quiet : Bool) :
    (ensureCapabilities texts exchange quiet).stretch r = (r, .ended (.error e)) :=
  Coroutine.stretch_bind_of_raises (stretch_ensureHandshake herror) _

/-- So does a request. -/
lemma stretch_fetchRead {r : Router} {e : Err} (herror : r.handshakeError = some e)
    (route : String) (arguments : List String) :
    (fetchRead texts route arguments).stretch r = (r, .ended (.error e)) :=
  Coroutine.stretch_bind_of_raises (stretch_ensureHandshake herror) _

lemma stretch_preflight {r : Router} {e : Err} (herror : r.handshakeError = some e)
    (exchange marketType route : String) (interval : Option String) (intervalLabel : String) :
    (preflight texts exchange marketType route interval intervalLabel).stretch r =
      (r, .ended (.error e)) :=
  Coroutine.stretch_bind_of_raises (stretch_ensureCapabilities herror _ _) _

/-- A read that is not refused for its own arguments raises what the handshake raised. -/
theorem stretch_coroutine {r : Router} {e : Err} (herror : r.handshakeError = some e) {m : Method}
    (hm : ∀ route exchange, m = .fetchMany route exchange → route ∈ seriesRoutes) :
    (m.coroutine texts).stretch r = (r, .ended (.error e)) := by
  cases m with
  | discovery route arguments => exact stretch_fetchRead herror _ _
  | getVersion => exact Coroutine.stretch_bind_of_raises (stretch_fetchRead herror _ _) _
  | getCapabilities exchange => exact stretch_ensureCapabilities herror _ _
  | point => exact Coroutine.stretch_bind_of_raises (stretch_preflight herror _ _ _ _ _) _
  | getMarginTiers =>
    exact Coroutine.stretch_bind_of_raises (stretch_ensureCapabilities herror _ _) _
  | series => exact Coroutine.stretch_bind_of_raises (stretch_preflight herror _ _ _ _ _) _
  | fetchMany route exchange =>
    have hroute : ¬ route ∉ seriesRoutes := not_not.mpr (hm route exchange rfl)
    show Coroutine.stretch (ite _ _ _) r = _
    rw [if_neg hroute]
    exact stretch_ensureCapabilities herror _ _
  | warm exchange => exact Coroutine.stretch_bind_of_raises (stretch_ensureHandshake herror) _

/-! ## Runs -/

/-- A stream or a subscription that has not come to its end. -/
def Call.Subscribed : Call → Prop
  | .streaming _ => True
  | .pausing => True
  | _ => False

/-- The router and the calls that wait. -/
structure State.Sound (s : State) : Prop where
  router : s.router.Sound
  streams : ∀ call ∈ s.calls, call.Subscribed → s.router.handshakeDone
  calls : ∀ (i : ℕ) request next, s.calls[i]? = some (Call.running request next) →
    (∀ route arguments, request = .read route arguments → s.router.handshakeDone) ∧
      Coroutine.Suspended contract request next Left s.router

/-- The calls go on waiting while the router changes. -/
lemma State.Sound.update {s s' : State} (h : s.Sound)
    (hready : contract.Ready s.router s'.router)
    (hstreams : ∀ call ∈ s'.calls, call.Subscribed → s'.router.handshakeDone)
    (hcalls : ∀ (i : ℕ) request next, s'.calls[i]? = some (Call.running request next) →
      s.calls[i]? = some (Call.running request next)) : s'.Sound := by
  refine ⟨hready.1, hstreams, fun i request next hi => ?_⟩
  obtain ⟨hdone, hsuspended⟩ := h.calls i request next (hcalls i request next hi)
  exact ⟨fun route arguments heq => hready.2.done (hdone route arguments heq),
    hsuspended.later Router.Keeps.trans hready.2⟩

/-- Streams were begun behind a handshake: the old ones, and the one that is put among them. -/
lemma State.Sound.streams_set {s : State} (h : s.Sound) {r : Router} (hkeeps : s.router.Keeps r)
    {call : Call} (hcall : call.Subscribed → r.handshakeDone) (i : ℕ) :
    ∀ call' ∈ s.calls.set i call, call'.Subscribed → r.handshakeDone := by
  intro call' hmem hsub
  rcases List.mem_or_eq_of_mem_set hmem with hold | rfl
  · exact hkeeps.done (h.streams call' hold hsub)
  · exact hcall hsub

/-- A call that has just begun is no stream yet. -/
lemma State.Sound.streams_append {s : State} (h : s.Sound) {r : Router}
    (hkeeps : s.router.Keeps r) :
    ∀ call ∈ s.calls ++ [Call.over], call.Subscribed → r.handshakeDone := by
  intro call hmem hsub
  rcases List.mem_append.mp hmem with hold | hnew
  · exact hkeeps.done (h.streams call hold hsub)
  · rw [List.mem_singleton.mp hnew] at hsub
    exact absurd hsub id

/-- A call that no longer runs. -/
lemma running_set {calls : List Call} {i j : ℕ} {call : Call} {request : Request}
    {next : Except Err Json → Co Json} (hcall : ∀ request next, call ≠ Call.running request next)
    (hj : (calls.set i call)[j]? = some (.running request next)) :
    calls[j]? = some (.running request next) := by
  rcases Dict.of_get_set hj with ⟨-, heq⟩ | ⟨-, hold⟩
  · exact absurd heq.symm (hcall request next)
  · exact hold

/-- A call that has just begun does not run yet. -/
lemma running_append {calls : List Call} {j : ℕ} {request : Request}
    {next : Except Err Json → Co Json}
    (hj : (calls ++ [Call.over])[j]? = some (.running request next)) :
    calls[j]? = some (.running request next) := by
  rw [List.getElem?_append] at hj
  split at hj
  · exact hj
  · have hover := List.mem_singleton.mp (List.mem_of_getElem? hj)
    exact absurd hover (by simp)

/-- A noted entry that is neither a mismatch nor a handshake. -/
lemma ready_note {r₀ r : Router} (h : contract.Ready r₀ r) {entry : Entry}
    (hmismatch : entry ≠ .mismatch) (hstarted : ∀ i, entry ≠ .started i)
    (hgated : Gated (entry :: r.log)) : contract.Ready r₀ (r.note entry) := by
  refine ⟨⟨fun hmem => ?_, fun hr => ?_, hgated, h.1.refuses.cons hstarted⟩, h.2.done, h.2.refused⟩
  · rcases List.mem_cons.mp hmem with heq | hmem
    · exact absurd heq.symm hmismatch
    · exact h.1.refused hmem
  · exact List.mem_cons_of_mem _ (h.1.shook hr)

lemma ready_requested {r₀ r : Router} (h : contract.Ready r₀ r) (hopen : ¬ r.Refused) :
    contract.Ready r₀ (r.note .requested) :=
  ready_note h (by simp) (by simp) ⟨fun hmem => hopen (h.1.refused hmem), h.1.gated⟩

lemma ready_ended {r₀ r : Router} (h : contract.Ready r₀ r) (i : ℕ) (raised : Option Err) :
    contract.Ready r₀ (r.note (.ended i raised)) :=
  ready_note h (by simp) (by simp) h.1.gated

/-- A request of a call may be made. -/
lemma ready_sent {r₀ r : Router} {request : Request} (h : contract.Ready r₀ r)
    (hasks : ∀ route arguments, request = .read route arguments → ¬ r.Refused) :
    contract.Ready r₀ (request.sent r) := by
  cases request with
  | version => exact h
  | exchanges => exact h
  | read route arguments => exact ready_requested h (hasks route arguments rfl)

lemma Request.sent_done (request : Request) (r : Router) :
    (request.sent r).handshakeDone = r.handshakeDone := by cases request <;> rfl

/-- A stretch of call `i` from the state the router is in. -/
lemma State.Sound.settle {s : State} (h : s.Sound) {c : Co Json} {r : Router}
    (hwp : c.wp contract Left s.router r) (i : ℕ) : (s.settle i (c.stretch r)).Sound := by
  obtain ⟨hready, hwaits⟩ := Coroutine.ready_of_stretch hwp
  rcases hstretch : c.stretch r with ⟨r', pause⟩
  rw [hstretch] at hready hwaits
  cases pause with
  | ended result =>
    have hended := ready_ended hready i (raised? result)
    exact h.update hended (h.streams_set hended.2 (fun hsub => absurd hsub id) i)
      fun j request next => running_set (by simp)
  | waits request next =>
    obtain ⟨hasks, hsuspended⟩ := hwaits request next rfl
    have hsent : contract.Ready s.router (request.sent r') :=
      ready_sent hready fun route arguments heq => (hasks route arguments heq).2
    have hself : contract.Ready r' (request.sent r') :=
      ready_sent (ready_rfl hready.1) fun route arguments heq => (hasks route arguments heq).2
    refine ⟨hsent.1, h.streams_set hsent.2 (fun hsub => absurd hsub id) i,
      fun j request' next' hj => ?_⟩
    rcases Dict.of_get_set hj with ⟨-, heq⟩ | ⟨-, hold⟩
    · obtain ⟨rfl, rfl⟩ := Call.running.inj heq
      refine ⟨fun route arguments heq => ?_, hsuspended.later Router.Keeps.trans hself.2⟩
      show (Request.sent _ r').handshakeDone
      rw [Request.sent_done]
      exact (hasks route arguments heq).1
    · obtain ⟨hdone, hwaiting⟩ := h.calls j request' next' hold
      exact ⟨fun route arguments heq => hsent.2.done (hdone route arguments heq),
        hwaiting.later Router.Keeps.trans hsent.2⟩

/-- The state in which a new call runs its first stretch, before any mismatch. -/
lemma State.Sound.begin {s : State} (h : s.Sound) (hopen : ¬ s.router.Refused) :
    s.begin.Sound := by
  have hlog : .mismatch ∉ s.router.log := fun hmem => hopen (h.router.refused hmem)
  have hready : contract.Ready s.router s.begin.router := by
    refine ⟨⟨fun hmem => ?_, fun hr => ?_, h.router.gated, refuses_started _ hlog⟩, id, id⟩
    · exact absurd (by simpa [State.begin, Router.note] using hmem) hlog
    · exact List.mem_cons_of_mem _ (h.router.shook hr)
  exact h.update hready (h.streams_append hready.2) fun i request next hi => running_append hi

/-- A read that is refused. -/
lemma State.Sound.refused {s : State} (h : s.Sound) {e : Err}
    (herror : s.router.handshakeError = some e) (he : e.isSchemaMismatch) :
    (s.begin.settle s.calls.length (s.begin.router, .ended (.error e))).Sound := by
  have hready : contract.Ready s.router
      ((s.router.note (.started s.calls.length)).note (.ended s.calls.length (some e))) := by
    refine ⟨⟨fun _ => ⟨e, herror, he⟩, fun hr => ?_, h.router.gated,
      h.router.refuses.refused _ he⟩, id, id⟩
    exact List.mem_cons_of_mem _ (List.mem_cons_of_mem _ (h.router.shook hr))
  have hstreams : ∀ call ∈ (s.calls ++ [Call.over]).set s.calls.length Call.over,
      call.Subscribed → s.router.handshakeDone := by
    intro call hmem hsub
    rcases List.mem_or_eq_of_mem_set hmem with hold | rfl
    · exact h.streams_append Router.Keeps.refl call hold hsub
    · exact absurd hsub id
  exact h.update hready hstreams fun i request next hi =>
    running_append (running_set (by simp) hi)

/-- A subscription is opened behind a handshake and where no mismatch has been. -/
lemma State.Sound.subscribe {s : State} (h : s.Sound) (hopen : s.router.Open) (i : ℕ)
    (reconnect : Bool) : (s.subscribe i reconnect).Sound := by
  have hready := ready_requested (ready_rfl h.router) hopen.2
  exact h.update hready (h.streams_set hready.2 (fun _ => hopen.1) i)
    fun _ _ _ => running_set (by simp)

/-- A stream that goes on was begun behind a handshake. -/
lemma State.Sound.done_of_stream {s : State} (h : s.Sound) {i : ℕ} {call : Call}
    (hi : s.calls[i]? = some call) (hsub : call.Subscribed) : s.router.handshakeDone :=
  h.streams call (List.mem_of_getElem? hi) hsub

/-- A stream ends. -/
lemma State.Sound.finish {s : State} (h : s.Sound) (i : ℕ) (raised : Option Err) :
    (s.finish i raised).Sound := by
  have hready := ready_ended (ready_rfl h.router) i raised
  exact h.update hready (h.streams_set hready.2 (fun hsub => absurd hsub id) i)
    fun _ _ _ => running_set (by simp)

/-- What one step keeps. -/
theorem State.Sound.preserved {s s' : State} {e : Event} (h : s.Sound) (hsafe : Safe s e)
    (hstep : step texts s e = some s') : s'.Sound := by
  cases e with
  | start m =>
    simp only [step, Option.some.injEq] at hstep
    rw [← hstep]
    by_cases hopen : s.router.Refused
    · obtain ⟨e, herror, he⟩ := hopen
      have hm : ∀ route exchange, m = .fetchMany route exchange → route ∈ seriesRoutes := by
        intro route exchange heq
        rw [heq] at hsafe
        exact hsafe.resolve_right (not_not.mpr ⟨e, herror, he⟩)
      rw [stretch_coroutine (r := s.begin.router) herror hm]
      exact h.refused herror he
    · have hbegin := h.begin hopen
      exact hbegin.settle (wp_coroutine m (ready_rfl hbegin.router)) _
  | answer i reply =>
    simp only [step] at hstep
    split at hstep
    · next request next hi =>
      rw [Option.some.injEq] at hstep
      rw [← hstep]
      obtain ⟨-, hsuspended⟩ := h.calls i request next hi
      exact h.settle (hsuspended reply s.router (ready_rfl h.router) (hsafe request next hi)) i
    · exact absurd hstep (by simp)
  | resend i =>
    simp only [step] at hstep
    split at hstep
    · next request next hi =>
      rw [Option.some.injEq] at hstep
      rw [← hstep]
      have hsent : contract.Ready s.router (request.sent s.router) :=
        ready_sent (ready_rfl h.router) fun route arguments heq =>
          hsafe route arguments next (heq ▸ hi)
      have hstreams : ∀ call ∈ s.calls, call.Subscribed →
          (request.sent s.router).handshakeDone := by
        intro call hmem hsub
        exact hsent.2.done (h.streams call hmem hsub)
      exact h.update hsent hstreams fun _ _ _ hj => hj
    · exact absurd hstep (by simp)
  | stream reconnect =>
    simp only [step, Option.some.injEq] at hstep
    rw [← hstep]
    exact (h.begin hsafe.2).subscribe hsafe _ _
  | item i =>
    simp only [step] at hstep
    split at hstep
    · next reconnect hi =>
      rw [Option.some.injEq] at hstep
      rw [← hstep]
      -- the stream was begun behind the handshake that its item needs
      have hdone : s.router.handshakeDone := h.done_of_stream hi trivial
      have hready : contract.Ready s.router (s.router.note .received) :=
        ready_note (ready_rfl h.router) (by simp) (by simp) ⟨h.router.shook hdone, h.router.gated⟩
      exact h.update hready h.streams fun _ _ _ hj => hj
    · exact absurd hstep (by simp)
  | drop i e retryable =>
    simp only [step] at hstep
    split at hstep
    · next reconnect hi =>
      have hdone : s.router.handshakeDone := h.done_of_stream hi trivial
      split at hstep
      · rw [Option.some.injEq] at hstep
        rw [← hstep]
        exact h.update (ready_rfl h.router) (h.streams_set Router.Keeps.refl (fun _ => hdone) i)
          fun _ _ _ => running_set (by simp)
      · rw [Option.some.injEq] at hstep
        rw [← hstep]
        exact h.finish i _
    · exact absurd hstep (by simp)
  | finish i =>
    simp only [step] at hstep
    split at hstep
    · next hi =>
      rw [Option.some.injEq] at hstep
      rw [← hstep]
      exact h.subscribe ⟨h.done_of_stream hi trivial, hsafe hi⟩ _ _
    · rw [Option.some.injEq] at hstep
      rw [← hstep]
      exact h.finish i _
    · exact absurd hstep (by simp)
  | wake i =>
    simp only [step] at hstep
    split at hstep
    · next hi =>
      rw [Option.some.injEq] at hstep
      rw [← hstep]
      exact h.subscribe ⟨h.done_of_stream hi trivial, hsafe⟩ _ _
    · exact absurd hstep (by simp)

/-- A new router. -/
lemma sound_init (baseUrl : String) (scope : List String) (scopeAll : Bool) :
    (init baseUrl scope scopeAll).Sound := by
  refine ⟨⟨by simp [init], by simp [init], trivial, fun later _ _ heq => ?_⟩, by simp [init],
    by simp [init]⟩
  simp [init] at heq

/-- What the service answers at `GET /version`. -/
def versionReply (schema : ℚ) : Except Err Json :=
  .ok (.obj [("version", .str "3.2.0"), ("schema_version", .num schema)])

/-- Conversions for runs in which no text is read. -/
def noTexts : Texts := ⟨fun _ => "", fun _ => "", fun _ => none⟩

/-- Every run whose steps are safe: no data before a handshake, and behind a mismatch every read
raises `SchemaMismatch` and nothing is requested. -/
theorem gate_of_safe_run (texts : Texts) (baseUrl : String) (scope : List String)
    (scopeAll : Bool) (es : List Event) (s : State)
    (hsafe : Transition.Meets (step texts) Safe (init baseUrl scope scopeAll) es)
    (hrun : Transition.run (step texts) (init baseUrl scope scopeAll) es = some s) :
    Gated s.router.log ∧ Refuses s.router.log := by
  have hsound : s.Sound := Transition.invariant_of_meets
    (fun _ _ _ h hsafe hstep => h.preserved hsafe hstep) (sound_init _ _ _) hsafe hrun
  exact ⟨hsound.router.gated, hsound.router.refuses⟩

/-- A read and a stream behind a handshake, with an item that reaches the caller. -/
theorem gate_of_safe_run_stream :
    ∃ s, Transition.run (step noTexts) (init "http://localhost:8040" [] false)
        [.start Method.getStatus, .answer 0 (versionReply 3), .answer 0 (.ok .null),
          .stream true, .item 1] = some s ∧
      Gated s.router.log ∧ Refuses s.router.log := by
  have hrun : ∃ s, Transition.run (step noTexts) (init "http://localhost:8040" [] false)
      [.start Method.getStatus, .answer 0 (versionReply 3), .answer 0 (.ok .null),
        .stream true, .item 1] = some s := ⟨_, rfl⟩
  obtain ⟨s, hs⟩ := hrun
  refine ⟨s, hs, gate_of_safe_run noTexts "http://localhost:8040" [] false _ s ?_ hs⟩
  refine ⟨trivial, ?_, ?_, ⟨rfl, ?_⟩, trivial, trivial⟩
  · intro request next h
    cases h
    intro hr
    obtain ⟨e, he, -⟩ := hr
    cases he
  · intro request next h
    cases h
    exact fun hname => absurd hname.1 (by decide)
  · intro hr
    obtain ⟨e, he, -⟩ := hr
    cases he

/-- A stream does not pass the gate: its items reach the caller before any handshake, and it
opens its subscription behind a mismatch. -/
theorem streams_skip_the_gate :
    (∃ s, Transition.run (step noTexts) (init "http://localhost:8040" [] false)
        [.stream true, .item 0] = some s ∧ ¬ Gated s.router.log) ∧
      ∃ s, Transition.run (step noTexts) (init "http://localhost:8040" [] false)
        [.start Method.getStatus, .answer 0 (versionReply 4), .stream true] = some s ∧
        ¬ Gated s.router.log := by
  refine ⟨⟨_, rfl, ?_⟩, ⟨_, rfl, ?_⟩⟩
  · intro h
    have hshook : Entry.shook ∈ [Entry.requested, .started 0] := h.1
    simp at hshook
  · intro h
    have hmismatch : Entry.mismatch ∉ _ := h.1
    exact hmismatch (.tail _ (.tail _ (.head _)))

end SchemaGate
end ExchangeRouter
