import ExchangeRouter.StreamManagerSteps

/-!
# What a client of the service is sent

`buckets_of_every_run` says who is sent an item when it comes. Over a run that makes: a client has
been sent what its handler has taken since the client came, each item once and in that order, and
all of it as long as the client is attached.
-/

namespace ExchangeRouter
namespace StreamManager

open Transition

variable {κ ι : Type*} [DecidableEq κ] {s s' t : State κ ι} {e : Event κ ι}

/-- The items that handler `i` takes. -/
def itemsOf (i : ℕ) (es : List (Event κ ι)) : List ι :=
  es.filterMap fun
    | .item j x => if j = i then some x else none
    | _ => none

/-- What the client was sent. -/
def State.received (s : State κ ι) (c : ℕ) : List ι :=
  (s.sends.filter fun entry => decide (entry.1 = c)).map Prod.snd

omit [DecidableEq κ] in
lemma itemsOf_append (i : ℕ) (es es' : List (Event κ ι)) :
    itemsOf i (es ++ es') = itemsOf i es ++ itemsOf i es' :=
  List.filterMap_append

omit [DecidableEq κ] in
/-- An item that is sent to distinct clients is sent once to each. -/
lemma received_append {bucket : List ℕ} (hnodup : bucket.Nodup) (x : ι) (c : ℕ)
    (hsends : s'.sends = s.sends ++ bucket.map fun client => (client, x)) :
    s'.received c = s.received c ++ if c ∈ bucket then [x] else [] := by
  have hmap : ((bucket.map fun client => (client, x)).filter
      fun entry => decide (entry.1 = c)).map Prod.snd = if c ∈ bucket then [x] else [] := by
    clear hsends
    induction bucket with
    | nil => rfl
    | cons b bucket ih =>
      obtain ⟨hnotin, hrest⟩ := List.nodup_cons.mp hnodup
      rw [List.map_cons, List.filter_cons]
      by_cases hb : b = c
      · subst hb
        have hnone : (bucket.map fun client => (client, x)).filter
            (fun entry => decide (entry.1 = b)) = [] := by
          rw [List.filter_eq_nil_iff]
          intro entry hentry
          obtain ⟨client, hclient, rfl⟩ := List.mem_map.mp hentry
          exact fun heq => hnotin (of_decide_eq_true heq ▸ hclient)
        simp [hnone]
      · rw [if_neg (by simpa using hb), ih hrest]
        simp [Ne.symm hb]
  unfold State.received
  rw [hsends, List.filter_append, List.map_append, hmap]

/-- What an item adds to what a client was sent. -/
lemma Managed.received_item (h : Managed s) {i : ℕ} {x : ι}
    (hstep : step s (.item i x) = some s') (c : ℕ) :
    ∃ hd, s.handlers[i]? = some hd ∧ s.upstreamTasks.lookup hd.key = some i ∧
      s'.received c = s.received c ++ if c ∈ s.attached hd.key then [x] else [] := by
  obtain ⟨hd, hi, hrun, rfl⟩ := step_item hstep
  obtain ⟨bucket, hbucket, -⟩ := h.bucket hi hrun
  refine ⟨hd, hi, h.running i hd hi hrun, ?_⟩
  rw [attached_of_lookup hbucket]
  refine received_append (h.members _ _ hbucket).1 x c ?_
  rw [h.item_eq hi hrun, attached_of_lookup hbucket]
  rfl

/-- Whatever else happens, nobody is sent anything. -/
lemma Managed.received_other (h : Managed s) (hstep : step s e = some s')
    (hitem : ∀ i x, e ≠ .item i x) (c : ℕ) : s'.received c = s.received c := by
  unfold State.received
  rw [h.sends hstep hitem]

/-! ## One client -/

/-- Client `c` of handler `i` has been sent the first of the items, and all of them while it is
attached. -/
structure Delivered (s : State κ ι) (key : κ) (i c : ℕ) (items : List ι) : Prop where
  client : s.clients[c]? = some ⟨key, some i⟩
  first : s.received c <+: items
  whole : c ∈ s.attached key → s.received c = items

/-- An event of the manager adds the items that the handler takes in it. -/
lemma Delivered.next {key : κ} {i c : ℕ} {items : List ι} (h : Managed s)
    (hd : Delivered s key i c items) (hstep : step s e = some s') :
    Delivered s' key i c (items ++ itemsOf i [e]) := by
  have hlt : c < s.clients.length := (List.getElem?_eq_some_iff.mp hd.client).1
  have hclient : s'.clients[c]? = some ⟨key, some i⟩ := by
    obtain ⟨new, hnew⟩ := (reach_of_step h hstep).clients
    rw [← hnew, List.getElem?_append_left hlt]
    exact hd.client
  have hattached : c ∈ s'.attached key → c ∈ s.attached key := fun hc =>
    (attached_of_step hstep hc).resolve_right (Nat.ne_of_lt hlt)
  by_cases hitem : ∀ j x, e ≠ .item j x
  · have hitems : itemsOf i [e] = [] := by
      cases e <;> first | rfl | exact absurd rfl (hitem _ _)
    have hsame := h.received_other hstep hitem c
    refine ⟨hclient, ?_, fun hc => ?_⟩
    · rw [hsame, hitems, List.append_nil]
      exact hd.first
    · rw [hsame, hitems, List.append_nil]
      exact hd.whole (hattached hc)
  · simp only [not_forall, not_not] at hitem
    obtain ⟨j, x, rfl⟩ := hitem
    obtain ⟨hdj, hj, htask, hreceived⟩ := h.received_item hstep c
    by_cases hin : c ∈ s.attached hdj.key
    · -- who is in the bucket of handler `j` is its client, so `j` is `i`
      have hown := h.client hin
      rw [hd.client, htask, Option.some.injEq, Client.mk.injEq, Option.some.injEq] at hown
      obtain ⟨rfl, rfl⟩ := hown
      have hitems : itemsOf i [Event.item (κ := κ) i x] = [x] := by simp [itemsOf]
      rw [if_pos hin, hd.whole hin] at hreceived
      refine ⟨hclient, ?_, fun _ => ?_⟩
      · exact ⟨[], by rw [List.append_nil, hreceived, hitems]⟩
      · rw [hreceived, hitems]
    · rw [if_neg hin, List.append_nil] at hreceived
      refine ⟨hclient, ?_, fun hc => ?_⟩
      · rw [hreceived]
        exact hd.first.trans (List.prefix_append _ _)
      · have hne : j ≠ i := by
          rintro rfl
          have hown := h.client (hattached hc)
          rw [hd.client, Option.some.injEq, Client.mk.injEq] at hown
          obtain ⟨hd', hi', hkey, -⟩ := h.registered key j hown.2.symm
          rw [hj, Option.some.injEq] at hi'
          refine hin ?_
          rw [hi', hkey]
          exact hattached hc
        have hitems : itemsOf i [Event.item (κ := κ) j x] = [] := by simp [itemsOf, hne]
        rw [hreceived, hitems, List.append_nil]
        exact hd.whole (hattached hc)

/-- Over a run. -/
lemma Delivered.of_run {key : κ} {i c : ℕ} {items : List ι} {es : List (Event κ ι)} (h : Managed s)
    (hd : Delivered s key i c items) (hrun : run step s es = some t) :
    Delivered t key i c (items ++ itemsOf i es) := by
  induction es generalizing s items with
  | nil =>
    rw [run_nil, Option.some.injEq] at hrun
    rw [← hrun, show itemsOf i ([] : List (Event κ ι)) = [] from rfl, List.append_nil]
    exact hd
  | cons e es ih =>
    obtain ⟨s', hstep, hrest⟩ := run_cons.mp hrun
    have hnext := ih (h.preserved e hstep) (hd.next h hstep) hrest
    rwa [List.append_assoc, ← itemsOf_append] at hnext

omit [DecidableEq κ] in
/-- A client that has not come has been sent nothing. -/
lemma received_new (hsent : ∀ entry ∈ s.sends, entry.1 < s.clients.length) :
    s.received s.clients.length = [] := by
  unfold State.received
  rw [List.filter_eq_nil_iff.mpr, List.map_nil]
  intro entry hentry
  have := hsent entry hentry
  simpa using Nat.ne_of_lt this

/-- A client that subscribes has been sent nothing. -/
lemma delivered_subscribe (h : Managed s) (hsent : ∀ entry ∈ s.sends, entry.1 < s.clients.length)
    (key : κ) (channel : String) :
    ∃ i, Delivered (s.subscribe key channel) key i s.clients.length [] := by
  have hnone : s.received s.clients.length = [] := received_new hsent
  unfold State.subscribe
  cases hbucket : s.activeStreams.lookup key with
  | none =>
    refine ⟨s.handlers.length, List.getElem?_concat_length, ?_, fun _ => ?_⟩
    · exact hnone ▸ List.prefix_rfl
    · exact hnone
  | some bucket =>
    cases htask : s.upstreamTasks.lookup key with
    | none =>
      rw [(h.keys key).mpr htask] at hbucket
      exact absurd hbucket (by simp)
    | some i =>
      refine ⟨i, List.getElem?_concat_length, ?_, fun _ => ?_⟩
      · exact hnone ▸ List.prefix_rfl
      · exact hnone

/-- Only clients that have come are sent to. -/
lemma sent_of_step (h : Managed s) (hsent : ∀ entry ∈ s.sends, entry.1 < s.clients.length)
    (hstep : step s e = some s') : ∀ entry ∈ s'.sends, entry.1 < s'.clients.length := by
  have hreach := reach_of_step h hstep
  obtain ⟨new, hnew, hserved⟩ := hreach.sends
  intro entry hentry
  rw [hnew] at hentry
  refine lt_of_lt_of_le ?_ hreach.clients.length_le
  rcases List.mem_append.mp hentry with hentry | hentry
  · exact hsent entry hentry
  · obtain ⟨client, j, hd, hclient, -⟩ := hserved entry hentry
    exact (List.getElem?_eq_some_iff.mp hclient).1

/-! ## Two clients of a key -/

/-- The later of two clients under one key has been sent what the earlier was last sent. -/
def Alike (s : State κ ι) : Prop :=
  ∀ key, ∀ c ∈ s.attached key, ∀ c' ∈ s.attached key, c ≤ c' →
    s.received c' <:+ s.received c

lemma alike_of_step (h : Managed s) (hsent : ∀ entry ∈ s.sends, entry.1 < s.clients.length)
    (halike : Alike s) (hstep : step s e = some s') : Alike s' := by
  intro key c hc c' hc' hle
  by_cases hitem : ∀ j x, e ≠ .item j x
  · rw [h.received_other hstep hitem, h.received_other hstep hitem]
    rcases attached_of_step hstep hc' with hold' | rfl
    · rcases attached_of_step hstep hc with hold | rfl
      · exact halike key c hold c' hold' hle
      · have := (List.getElem?_eq_some_iff.mp (h.client hold')).1
        omega
    · -- the one that comes now has been sent nothing
      have hnone : s.received s.clients.length = [] := received_new hsent
      rw [hnone]
      exact List.nil_suffix
  · simp only [not_forall, not_not] at hitem
    obtain ⟨j, x, rfl⟩ := hitem
    have hold : ∀ k, k ∈ s'.attached key → k ∈ s.attached key := by
      intro k hk
      obtain ⟨hd, hj, hrun, rfl⟩ := step_item hstep
      rw [h.item_eq hj hrun] at hk
      exact hk
    obtain ⟨hd, hj, -, hreceived⟩ := h.received_item hstep c
    obtain ⟨hd', hj', -, hreceived'⟩ := h.received_item hstep c'
    obtain rfl : hd = hd' := Option.some.inj (hj.symm.trans hj')
    have hbefore := halike key c (hold c hc) c' (hold c' hc') hle
    by_cases hkey : hd.key = key
    · rw [if_pos (hkey ▸ hold c hc)] at hreceived
      rw [if_pos (hkey ▸ hold c' hc')] at hreceived'
      rw [hreceived, hreceived']
      obtain ⟨missed, hmissed⟩ := hbefore
      exact ⟨missed, by rw [← List.append_assoc, hmissed]⟩
    · -- a client of one key is under no other
      have hnot : ∀ k ∈ s.attached key, k ∉ s.attached hd.key := by
        intro k hk hin
        have hown := (h.client hk).symm.trans (h.client hin)
        exact hkey (Client.mk.injEq .. ▸ Option.some.inj hown).1.symm
      rw [if_neg (hnot c (hold c hc)), List.append_nil] at hreceived
      rw [if_neg (hnot c' (hold c' hc')), List.append_nil] at hreceived'
      rw [hreceived, hreceived']
      exact hbefore

/-- The invariants together, over a run. -/
lemma alike_of_run {es : List (Event κ ι)} (hrun : run step {} es = some s) :
    Managed s ∧ (∀ entry ∈ s.sends, entry.1 < s.clients.length) ∧ Alike s := by
  have hkeeps : ∀ (s : State κ ι) e s', (Managed s ∧
      (∀ entry ∈ s.sends, entry.1 < s.clients.length) ∧ Alike s) → step s e = some s' →
      Managed s' ∧ (∀ entry ∈ s'.sends, entry.1 < s'.clients.length) ∧ Alike s' := by
    rintro s e s' ⟨h, hsent, halike⟩ hstep
    exact ⟨h.preserved e hstep, sent_of_step h hsent hstep, alike_of_step h hsent halike hstep⟩
  refine invariant_of_run hkeeps ⟨Managed.init, ?_, ?_⟩ hrun
  · exact fun _ hmem => absurd hmem List.not_mem_nil
  · exact fun key c hc => absurd hc List.not_mem_nil

/-- A client that subscribes under a key gets the key's handler for its own. In every run from then
on, it has been sent an initial part of the items that handler has taken since, each once and in
order, and the whole of them as long as it is attached; and of two clients that are attached under
one key the later has been sent the last part of what the earlier has. -/
theorem fan_out_gapless {before after : List (Event κ ι)} {key : κ} {channel : String}
    (hbefore : run step {} before = some s)
    (hafter : run step (s.subscribe key channel) after = some t) :
    (∃ i missed, t.clients[s.clients.length]? = some ⟨key, some i⟩ ∧
      itemsOf i after = t.received s.clients.length ++ missed ∧
      (s.clients.length ∈ t.attached key → missed = [])) ∧
    ∀ k, ∀ c ∈ t.attached k, ∀ c' ∈ t.attached k, c ≤ c' → t.received c' <:+ t.received c := by
  obtain ⟨h, hsent, -⟩ := alike_of_run hbefore
  have hsub : step s (.subscribe key channel) = some (s.subscribe key channel) := rfl
  constructor
  · obtain ⟨i, hd⟩ := delivered_subscribe h hsent key channel
    have hd := hd.of_run (h.preserved _ hsub) hafter
    rw [List.nil_append] at hd
    obtain ⟨missed, hmissed⟩ := hd.first
    refine ⟨i, missed, hd.client, hmissed.symm, fun hin => ?_⟩
    have hwhole := hd.whole hin
    rw [← hmissed] at hwhole
    exact List.self_eq_append_right.mp hwhole
  · have hrun : run step {} (before ++ .subscribe key channel :: after) = some t := by
      rw [run_append, hbefore, Option.bind_some]
      exact run_cons.mpr ⟨_, hsub, hafter⟩
    exact (alike_of_run hrun).2.2

/-- An item for two clients of a key, of which the first one's send fails, and another item. -/
def sendFails : List (Event ℕ ℕ) := [.item 0 11, .sent 0 [0], .item 0 12]

/-- The second client comes after the first item, and has the last one alone. -/
theorem fan_out_gapless_sample :
    ∃ s t : State ℕ ℕ,
      run step {} [.subscribe 5 "ticker", .start 0, .item 0 10, .sent 0 []] = some s ∧
      run step (s.subscribe 5 "ticker") sendFails = some t ∧
      t.received 0 = [10, 11] ∧ t.received 1 = [11, 12] ∧
      ∃ i missed, t.clients[s.clients.length]? = some ⟨5, some i⟩ ∧
        itemsOf i sendFails = t.received s.clients.length ++ missed ∧
        (s.clients.length ∈ t.attached 5 → missed = []) := by
  have hruns : ∃ s t : State ℕ ℕ,
      run step {} [.subscribe 5 "ticker", .start 0, .item 0 10, .sent 0 []] = some s ∧
      run step (s.subscribe 5 "ticker") sendFails = some t ∧
      t.received 0 = [10, 11] ∧ t.received 1 = [11, 12] :=
    ⟨_, _, rfl, rfl, rfl, rfl⟩
  obtain ⟨s, t, hbefore, hafter, hfirst, hsecond⟩ := hruns
  exact ⟨s, t, hbefore, hafter, hfirst, hsecond, (fan_out_gapless hbefore hafter).1⟩

end StreamManager
end ExchangeRouter
