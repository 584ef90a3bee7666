import ExchangeRouter.BybitTicker
import ExchangeRouter.KlinesTheorems

/-!
# What a malformed ticker message leaves behind

A message is folded into the dictionary before the `Ticker` is made, so one that is skipped may
have changed what later messages are read on. Two states are `Alike` when a `Ticker` reads the
same of both; `streamTicker_wellFormed` says that the malformed messages may be taken out of a
feed if each of them leaves the state alike, by the simulation rule of `Generator`.
-/

namespace ExchangeRouter
namespace BybitTicker

open Bybit (Instrument)
open Fallible (bind_ok)
open HubRoutes (orElse)
open MakeRequest (Json PyFloat)

variable {inst : Instrument} {texts : Texts}

/-! ## States that read alike -/

/-- The keys that are read as numbers. -/
def numberKeys : List String :=
  ["lastPrice", "prevPrice24h", "highPrice24h", "lowPrice24h", "volume24h", "price24hPcnt"]

/-- A `Ticker` reads the same of both dictionaries. -/
structure SameReadings (inst : Instrument) (texts : Texts) (d d' : Dict) : Prop where
  symbol : symbolOf inst d = symbolOf inst d'
  number : ∀ key ∈ numberKeys, number texts d key = number texts d' key

/-- Ahead of the first snapshot the dictionary does not matter. -/
structure Alike (inst : Instrument) (texts : Texts) (s t : State) : Prop where
  bootstrapped : s.bootstrapped = t.bootstrapped
  readings : s.bootstrapped = true → SameReadings inst texts s.state t.state

/-- A message that is skipped as malformed leaves what a `Ticker` reads as it was. -/
def Untraced (inst : Instrument) (texts : Texts) (s : State) (m : Message) : Prop :=
  malformed inst texts s m = true → Alike inst texts s (merge s m).1

lemma SameReadings.refl (d : Dict) : SameReadings inst texts d d := ⟨rfl, fun _ _ => rfl⟩

lemma Alike.refl (s : State) : Alike inst texts s s := ⟨rfl, fun _ => .refl s.state⟩

lemma SameReadings.trans {d d' d'' : Dict} (h : SameReadings inst texts d d')
    (h' : SameReadings inst texts d' d'') : SameReadings inst texts d d'' :=
  ⟨h.symbol.trans h'.symbol, fun key hkey => (h.number key hkey).trans (h'.number key hkey)⟩

lemma SameReadings.symm {d d' : Dict} (h : SameReadings inst texts d d') :
    SameReadings inst texts d' d :=
  ⟨h.symbol.symm, fun key hkey => (h.number key hkey).symm⟩

lemma Alike.symm {s t : State} (h : Alike inst texts s t) : Alike inst texts t s :=
  ⟨h.bootstrapped.symm, fun ht => (h.readings (h.bootstrapped.trans ht)).symm⟩

lemma Alike.trans {s t u : State} (h : Alike inst texts s t) (h' : Alike inst texts t u) :
    Alike inst texts s u :=
  ⟨h.bootstrapped.trans h'.bootstrapped, fun hs =>
    (h.readings hs).trans (h'.readings (h.bootstrapped.symm.trans hs))⟩

/-- The `Ticker` is made of the readings alone. -/
lemma SameReadings.buildTicker_eq {d d' : Dict} (h : SameReadings inst texts d d') (ts : Json) :
    buildTicker inst texts d ts = buildTicker inst texts d' ts := by
  unfold buildTicker
  rw [h.symbol, h.number "lastPrice" (by simp [numberKeys]),
    h.number "prevPrice24h" (by simp [numberKeys]),
    h.number "highPrice24h" (by simp [numberKeys]),
    h.number "lowPrice24h" (by simp [numberKeys]),
    h.number "volume24h" (by simp [numberKeys]),
    h.number "price24hPcnt" (by simp [numberKeys])]

/-! ## Folding a message in -/

/-- The same key on both sides. -/
lemma SameReadings.setItem {d d' : Dict} (h : SameReadings inst texts d d') (key value : Json) :
    SameReadings inst texts (setItem d key value) (setItem d' key value) := by
  cases key with
  | str key =>
    refine ⟨?_, fun key' hkey' => ?_⟩
    · by_cases hkey : key = "symbol"
      · simp [BybitTicker.setItem, symbolOf, hkey]
      · simpa [BybitTicker.setItem, symbolOf, Ne.symm hkey] using h.symbol
    · by_cases hkey : key = key'
      · simp [BybitTicker.setItem, BybitTicker.number, hkey]
      · simpa [BybitTicker.setItem, BybitTicker.number, Ne.symm hkey] using h.number key' hkey'
  | _ => exact h

/-- Whether the items can be folded in has nothing to do with the dictionary. -/
lemma updatePairs_snd_eq (d d' : Dict) (items : List Json) :
    (updatePairs d items).2 = (updatePairs d' items).2 := by
  induction items generalizing d d' with
  | nil => rfl
  | cons item rest ih =>
    unfold updatePairs
    split
    · rfl
    · split
      · exact ih _ _
      · rfl

/-- The same pairs on both sides. -/
lemma SameReadings.updatePairs {d d' : Dict} (h : SameReadings inst texts d d')
    (items : List Json) :
    SameReadings inst texts (updatePairs d items).1 (updatePairs d' items).1 := by
  induction items generalizing d d' with
  | nil => exact h
  | cons item rest ih =>
    unfold BybitTicker.updatePairs
    split
    · exact h
    · split
      · exact ih (h.setItem _ _)
      · exact h

/-- Whether `update` raises is up to the value alone. -/
lemma update_snd_eq (d d' : Dict) (value : Json) : (update d value).2 = (update d' value).2 := by
  cases value with
  | arr items => exact updatePairs_snd_eq d d' items
  | _ => rfl

/-- The same update on both sides. -/
lemma SameReadings.update {d d' : Dict} (h : SameReadings inst texts d d') (value : Json) :
    SameReadings inst texts (update d value).1 (update d' value).1 := by
  cases value with
  | arr items => exact h.updatePairs items
  | obj fields =>
    show SameReadings inst texts (fields.foldl _ d) (fields.foldl _ d')
    induction fields generalizing d d' with
    | nil => exact h
    | cons f rest ih => exact ih (h.setItem (.str f.1) f.2)
  | _ => exact h

/-- A message is folded into alike states alike, or raises on both. -/
lemma Alike.merge {s t : State} (h : Alike inst texts s t) (m : Message) :
    (merge s m).2 = (merge t m).2 ∧ Alike inst texts (merge s m).1 (merge t m).1 := by
  unfold BybitTicker.merge
  by_cases hsnap : m.isSnapshot = true
  · rw [if_pos hsnap, if_pos hsnap]
    -- the copy of a snapshot does not see the state
    split
    · exact ⟨rfl, .refl _⟩
    · exact ⟨rfl, h⟩
  · rw [if_neg hsnap, if_neg hsnap]
    exact ⟨update_snd_eq s.state t.state m.data,
      h.bootstrapped, fun hs => (h.readings hs).update m.data⟩

/-! ## The loop body -/

/-- The block leaves the state that the message was folded into. -/
lemma tryBlock_fst (inst : Instrument) (texts : Texts) (s : State) (m : Message) :
    (tryBlock inst texts s m).1 = (merge s m).1 := by
  unfold tryBlock
  split
  · next heq => rw [heq]
  · next heq =>
    rw [heq]
    split <;> rfl

/-- On alike states the block yields the same, or raises the same. -/
lemma Alike.tryBlock_snd {s t : State} (h : Alike inst texts s t) (m : Message) :
    (tryBlock inst texts s m).2 = (tryBlock inst texts t m).2 := by
  obtain ⟨hok, hmerged⟩ := h.merge m
  unfold tryBlock
  cases hs : BybitTicker.merge s m with
  | mk s' ok =>
    cases ht : BybitTicker.merge t m with
    | mk t' ok' =>
      rw [hs, ht] at hok hmerged
      obtain rfl : ok = ok' := hok
      cases ok with
      | false => rfl
      | true =>
        by_cases hboot : s'.bootstrapped = true
        · have hboot' : t'.bootstrapped = true := hmerged.bootstrapped.symm.trans hboot
          simp [hboot, hboot', (hmerged.readings hboot).buildTicker_eq m.ts]
        · have hboot' : ¬ t'.bootstrapped = true := fun h => hboot (hmerged.bootstrapped.trans h)
          simp [hboot, hboot']

/-- A message that is skipped yields nothing, and leaves the state it was folded into. -/
lemma onTicker_of_malformed {s : State} {m : Message} (h : malformed inst texts s m = true) :
    onTicker inst texts s m = ([], some (merge s m).1) := by
  rw [← tryBlock_fst inst texts]
  unfold malformed at h
  unfold onTicker
  split at h
  · next heq =>
    cases hblock : tryBlock inst texts s m with
    | mk s' out =>
      rw [hblock] at heq
      obtain rfl : out = .error .malformed := heq
      rfl
  · cases h

/-- On alike states the loop body yields the same, and goes on in alike states. -/
lemma Alike.onTicker {s t : State} (h : Alike inst texts s t) (m : Message) :
    (onTicker inst texts s m).1 = (onTicker inst texts t m).1 ∧
      Generator.GoOn (Alike inst texts) (onTicker inst texts s m).2
        (onTicker inst texts t m).2 := by
  have hout := h.tryBlock_snd m
  have hmerged := (h.merge m).2
  rw [← tryBlock_fst inst texts s m,
    ← tryBlock_fst inst texts t m] at hmerged
  unfold BybitTicker.onTicker
  cases hs : tryBlock inst texts s m with
  | mk s' out =>
    cases ht : tryBlock inst texts t m with
    | mk t' out' =>
      rw [hs, ht] at hout hmerged
      obtain rfl : out = out' := hout
      cases out with
      | ok ticker => exact ⟨rfl, hmerged⟩
      | error e =>
        cases e with
        | malformed => exact ⟨rfl, hmerged⟩
        | other => exact ⟨rfl, trivial⟩

/-! ## Telling two states apart -/

/-- A volume can be built: an inverse market knows the size of its contract. -/
def Sized (inst : Instrument) : Prop :=
  inst.marketType.qtyUnit = .contract → inst.contractSize.isSome = true

/-- The keys that a `Ticker` is made of. -/
def tickerKeys : List String := "symbol" :: numberKeys

/-- A value that can be read at the key. -/
def sample (key : String) : Json := if key = "symbol" then .str "" else .num 1

/-- A delta with a value for every key but one. -/
def probe (omitted : String) : Message where
  fields := [("type", .str "delta"), ("ts", .num 100000000000),
    ("data", .obj ((tickerKeys.filter (· ≠ omitted)).map fun key => (key, sample key)))]
  now := 0

/-- The dictionary after the probe. -/
def probed (omitted : String) (d : Dict) : Dict := fun key =>
  if key ∈ tickerKeys ∧ key ≠ omitted then some (sample key) else d key

lemma float_error {value : Json} {e : Raised} (h : float texts value = .error e) :
    e = .malformed := by
  unfold float at h
  repeat' split at h
  all_goals cases h
  all_goals rfl

lemma symbolOf_error {d : Dict} {e : Raised} (h : symbolOf inst d = .error e) :
    e = .malformed := by
  unfold symbolOf at h
  split at h
  · cases h
  · cases h
    rfl

/-- A sized instrument has a volume. -/
lemma buildVolumeValue_ok (hsized : Sized inst) (native close : PyFloat) :
    ∃ v, buildVolumeValue native inst.marketType.qtyUnit inst.contractSize close = .ok v := by
  unfold buildVolumeValue
  split
  · next hunit hsize =>
    have := hsized hunit
    simp [hsize] at this
  · exact ⟨_, rfl⟩
  · exact ⟨_, rfl⟩

/-- A product with a hundred tells its factor. -/
lemma product_hundred_inj {x y : PyFloat}
    (h : product x (.finite 100) = product y (.finite 100)) : x = y := by
  cases x <;> cases y <;> simp_all [product, sign]

/-- A volume keeps the quantity it was built from. -/
lemma buildVolumeValue_native {native close : PyFloat} {unit : QtyUnit} {size : Option ℚ}
    {v : VolumeValue} (h : buildVolumeValue native unit size close = .ok v) :
    v.native = native := by
  unfold buildVolumeValue at h
  split at h
  · cases h
  · rw [← Except.ok.inj h]
  · rw [← Except.ok.inj h]

/-- A `Ticker` shows what was read. -/
lemma readings_of_buildTicker {d : Dict} {ts : Json} {t : Ticker}
    (h : buildTicker inst texts d ts = .ok t) :
    symbolOf inst d = .ok t.symbol ∧ number texts d "lastPrice" = .ok t.price ∧
      number texts d "prevPrice24h" = .ok t.open24h ∧
      number texts d "highPrice24h" = .ok t.high24h ∧
      number texts d "lowPrice24h" = .ok t.low24h ∧
      number texts d "volume24h" = .ok t.volume24h.native ∧
      ∃ x, number texts d "price24hPcnt" = .ok x ∧
        t.priceChangePercent = product x (.finite 100) := by
  obtain ⟨price, hprice, h⟩ := bind_ok h
  obtain ⟨symbol, hsymbol, h⟩ := bind_ok h
  obtain ⟨open24h, hopen, h⟩ := bind_ok h
  obtain ⟨high24h, hhigh, h⟩ := bind_ok h
  obtain ⟨low24h, hlow, h⟩ := bind_ok h
  obtain ⟨native, hnative, h⟩ := bind_ok h
  obtain ⟨volume24h, hvolume, h⟩ := bind_ok h
  obtain ⟨change, hchange, h⟩ := bind_ok h
  obtain ⟨timestamp, -, h⟩ := bind_ok h
  cases h
  rw [← buildVolumeValue_native hvolume] at hnative
  exact ⟨hsymbol, hprice, hopen, hhigh, hlow, hnative, change, hchange, rfl⟩

/-- And is made of whatever can be read. -/
lemma buildTicker_of_readings (hsized : Sized inst) {d : Dict} {ts : Json}
    (hsymbol : ∃ symbol, symbolOf inst d = .ok symbol)
    (hnumbers : ∀ key ∈ numberKeys, ∃ x, number texts d key = .ok x)
    (hts : ∃ n, normalizeTimestamp texts ts = .ok n) :
    ∃ t, buildTicker inst texts d ts = .ok t := by
  obtain ⟨price, hprice⟩ := hnumbers "lastPrice" (by simp [numberKeys])
  obtain ⟨symbol, hsymbol⟩ := hsymbol
  obtain ⟨open24h, hopen⟩ := hnumbers "prevPrice24h" (by simp [numberKeys])
  obtain ⟨high24h, hhigh⟩ := hnumbers "highPrice24h" (by simp [numberKeys])
  obtain ⟨low24h, hlow⟩ := hnumbers "lowPrice24h" (by simp [numberKeys])
  obtain ⟨native, hnative⟩ := hnumbers "volume24h" (by simp [numberKeys])
  obtain ⟨volume24h, hvolume⟩ := buildVolumeValue_ok hsized native price
  obtain ⟨change, hchange⟩ := hnumbers "price24hPcnt" (by simp [numberKeys])
  obtain ⟨timestamp, hts⟩ := hts
  refine ⟨⟨symbol, inst.marketType, inst.quote, price, open24h, high24h, low24h, volume24h,
    product change (.finite 100), timestamp⟩, ?_⟩
  unfold buildTicker
  rw [hprice, hsymbol, hopen, hhigh, hlow, hnative, hchange, hts]
  show (buildVolumeValue native inst.marketType.qtyUnit inst.contractSize price).bind _ = _
  rw [hvolume]
  rfl

/-- Two dictionaries of which the same `Ticker` is made read the same. -/
lemma sameReadings_of_buildTicker {d d' : Dict} {ts : Json} {t : Ticker}
    (h : buildTicker inst texts d ts = .ok t) (h' : buildTicker inst texts d' ts = .ok t) :
    SameReadings inst texts d d' := by
  obtain ⟨hsymbol, hprice, hopen, hhigh, hlow, hnative, x, hx, hchange⟩ :=
    readings_of_buildTicker h
  obtain ⟨hsymbol', hprice', hopen', hhigh', hlow', hnative', y, hy, hchange'⟩ :=
    readings_of_buildTicker h'
  obtain rfl : x = y := product_hundred_inj (hchange.symm.trans hchange')
  refine ⟨hsymbol.trans hsymbol'.symm, fun key hkey => ?_⟩
  simp only [numberKeys, List.mem_cons, List.not_mem_nil, or_false] at hkey
  rcases hkey with rfl | rfl | rfl | rfl | rfl | rfl
  · exact hprice.trans hprice'.symm
  · exact hopen.trans hopen'.symm
  · exact hhigh.trans hhigh'.symm
  · exact hlow.trans hlow'.symm
  · exact hnative.trans hnative'.symm
  · exact hx.trans hy.symm

/-! ### The probe -/

/-- The keys of a list have its values, and the others what they had. -/
lemma foldl_setItem (keys : List String) (value : String → Json) (d : Dict) :
    (keys.map fun key => (key, value key)).foldl (fun d f => setItem d (.str f.1) f.2) d =
      fun key => if key ∈ keys then some (value key) else d key := by
  induction keys generalizing d with
  | nil => simp
  | cons k rest ih =>
    rw [List.map_cons, List.foldl_cons, ih]
    funext key
    by_cases hrest : key ∈ rest
    · simp [hrest]
    · by_cases hkey : key = k
      · simp [hkey, setItem]
      · simp [hrest, hkey, setItem]

/-- The probe is folded in whole. -/
lemma merge_probe (omitted : String) (s : State) :
    merge s (probe omitted) = ({ s with state := probed omitted s.state }, true) := by
  have hdata : (probe omitted).data =
      .obj ((tickerKeys.filter (· ≠ omitted)).map fun key => (key, sample key)) := by
    show orElse _ _ = _
    simp [orElse, Json.truthy, HubRoutes.get, probe]
  have hdelta : (probe omitted).isSnapshot = false := rfl
  unfold merge
  rw [hdelta, hdata]
  simp only [Bool.false_eq_true, if_false, update, foldl_setItem]
  unfold probed
  simp [List.mem_filter]

/-- What the probe brings can be read, and what it leaves out is as it was. -/
lemma number_probed {key : String} (hkey : key ∈ numberKeys) (omitted : String) (d : Dict) :
    number texts (probed omitted d) key =
      if key = omitted then number texts d omitted else .ok (.finite 1) := by
  have hmem : key ∈ tickerKeys := List.mem_cons_of_mem _ hkey
  have hsample : sample key = .num 1 := by
    unfold sample
    rw [if_neg]
    rintro rfl
    exact absurd hkey (by decide)
  unfold number probed
  by_cases h : key = omitted
  · simp [h]
  · simp [h, hmem, hsample, orElse, Json.truthy, float]

lemma symbolOf_probed (omitted : String) (d : Dict) :
    symbolOf inst (probed omitted d) =
      if "symbol" = omitted then symbolOf inst d else .ok (inst.modelSymbol "") := by
  unfold symbolOf probed
  by_cases h : "symbol" = omitted
  · simp [← h]
  · simp [h, tickerKeys, sample]

/-- A state with a snapshot shows the probe as a `Ticker`, if there is one. -/
lemma onTicker_probe {s : State} (hs : s.bootstrapped = true) (omitted : String) :
    (onTicker inst texts s (probe omitted)).1 =
      (buildTicker inst texts (probed omitted s.state) (.num 100000000000)).toOption.toList := by
  have hts : (probe omitted).ts = .num 100000000000 := rfl
  unfold onTicker tryBlock
  rw [merge_probe]
  simp only [hs, if_true, hts]
  cases buildTicker inst texts (probed omitted s.state) (.num 100000000000) with
  | ok t => rfl
  | error e => cases e <;> rfl

/-- Ahead of the snapshot it shows nothing. -/
lemma onTicker_probe_nil {s : State} (hs : s.bootstrapped = false) (omitted : String) :
    (onTicker inst texts s (probe omitted)).1 = [] := by
  unfold onTicker tryBlock
  rw [merge_probe]
  simp [hs]

/-- A `Ticker` is built of the probe if what it leaves out can be read. -/
lemma buildTicker_probed (hsized : Sized inst) {omitted : String} {d : Dict}
    (hsymbol : omitted = "symbol" → ∃ symbol, symbolOf inst d = .ok symbol)
    (hnumber : omitted ∈ numberKeys → ∃ x, number texts d omitted = .ok x) :
    ∃ t, buildTicker inst texts (probed omitted d) (.num 100000000000) = .ok t := by
  refine buildTicker_of_readings hsized ?_ ?_ ⟨_, rfl⟩
  · rw [symbolOf_probed]
    split
    · next heq => exact hsymbol heq.symm
    · exact ⟨_, rfl⟩
  · intro key hkey
    rw [number_probed hkey]
    split
    · next heq => exact hnumber (heq ▸ hkey)
    · exact ⟨_, rfl⟩

/-- The same outputs on the probe, and one of the states can be read where the probe has
nothing. -/
lemma sameReadings_probed (hsized : Sized inst) {omitted : String} {s t : State}
    (hs : s.bootstrapped = true) (ht : t.bootstrapped = true)
    (hout : (onTicker inst texts s (probe omitted)).1 = (onTicker inst texts t (probe omitted)).1)
    (hsymbol : omitted = "symbol" → ∃ symbol, symbolOf inst s.state = .ok symbol)
    (hnumber : omitted ∈ numberKeys → ∃ x, number texts s.state omitted = .ok x) :
    SameReadings inst texts (probed omitted s.state) (probed omitted t.state) := by
  obtain ⟨ticker, hticker⟩ := buildTicker_probed hsized hsymbol hnumber
  rw [onTicker_probe hs, onTicker_probe ht, hticker] at hout
  cases hother : buildTicker inst texts (probed omitted t.state) (.num 100000000000) with
  | error e =>
    rw [hother] at hout
    cases hout
  | ok ticker' =>
    rw [hother] at hout
    obtain rfl : ticker = ticker' := by simpa [Except.toOption] using hout
    exact sameReadings_of_buildTicker hticker hother

/-- Two states that answer the probe alike read the same number. -/
lemma number_eq_of_ok (hsized : Sized inst) {key : String} (hkey : key ∈ numberKeys)
    {s t : State} (hs : s.bootstrapped = true) (ht : t.bootstrapped = true)
    (hout : (onTicker inst texts s (probe key)).1 = (onTicker inst texts t (probe key)).1)
    {x : PyFloat} (hx : number texts s.state key = .ok x) :
    number texts s.state key = number texts t.state key := by
  have hsame := (sameReadings_probed hsized hs ht hout
    (fun h => absurd (h ▸ hkey) (by decide)) (fun _ => ⟨x, hx⟩)).number key hkey
  rwa [number_probed hkey, number_probed hkey, if_pos rfl, if_pos rfl] at hsame

/-- Two states that answer the probe alike read the same symbol. -/
lemma symbolOf_eq_of_ok (hsized : Sized inst) {s t : State} (hs : s.bootstrapped = true)
    (ht : t.bootstrapped = true)
    (hout : (onTicker inst texts s (probe "symbol")).1 =
      (onTicker inst texts t (probe "symbol")).1)
    {symbol : String} (hsymbol : symbolOf inst s.state = .ok symbol) :
    symbolOf inst s.state = symbolOf inst t.state := by
  have hsame := (sameReadings_probed hsized hs ht hout (fun _ => ⟨symbol, hsymbol⟩)
    (fun h => absurd h (by decide))).symbol
  rwa [symbolOf_probed, symbolOf_probed, if_pos rfl, if_pos rfl] at hsame

lemma number_error {d : Dict} {key : String} {e : Raised}
    (h : number texts d key = .error e) : e = .malformed := float_error h

/-- A state ahead of its snapshot shows nothing of the probe that leaves no key out. -/
lemma bootstrapped_of_outputs (hsized : Sized inst) {s t : State}
    (hout : (onTicker inst texts s (probe "")).1 = (onTicker inst texts t (probe "")).1)
    (hs : s.bootstrapped = true) : t.bootstrapped = true := by
  obtain ⟨ticker, hticker⟩ : ∃ ticker,
      buildTicker inst texts (probed "" s.state) (.num 100000000000) = .ok ticker :=
    buildTicker_probed hsized (fun h => absurd h (by decide)) (fun h => absurd h (by decide))
  cases ht : t.bootstrapped with
  | true => rfl
  | false =>
    rw [onTicker_probe hs, onTicker_probe_nil ht, hticker] at hout
    cases hout

/-- Readings that fail all fail alike, so those that succeed decide. -/
lemma reading_eq {α : Type} {x y : Except Raised α} (hx : ∀ a, x = .ok a → x = y)
    (hy : ∀ a, y = .ok a → y = x) (hfail : ∀ e, x = .error e → e = .malformed)
    (hfail' : ∀ e, y = .error e → e = .malformed) : x = y := by
  cases x with
  | ok a => exact hx a rfl
  | error e =>
    cases y with
    | ok a => exact (hy a rfl).symm
    | error e' => rw [hfail e rfl, hfail' e' rfl]

/-- States that no single message tells apart are alike. -/
lemma alike_of_outputs (hsized : Sized inst) {s t : State}
    (hout : ∀ m, (onTicker inst texts s m).1 = (onTicker inst texts t m).1) :
    Alike inst texts s t := by
  have hboot : s.bootstrapped = t.bootstrapped := Bool.eq_iff_iff.mpr
    ⟨bootstrapped_of_outputs hsized (hout _), bootstrapped_of_outputs hsized (hout _).symm⟩
  refine ⟨hboot, fun hs => ?_⟩
  have ht : t.bootstrapped = true := hboot.symm.trans hs
  -- the probe that leaves a key out shows what the states have there, if either can be read
  refine ⟨?_, fun key hkey => ?_⟩
  · exact reading_eq (fun _ h => symbolOf_eq_of_ok hsized hs ht (hout _) h)
      (fun _ h => symbolOf_eq_of_ok hsized ht hs (hout _).symm h)
      (fun _ => symbolOf_error) (fun _ => symbolOf_error)
  · exact reading_eq (fun _ h => number_eq_of_ok hsized hkey hs ht (hout _) h)
      (fun _ h => number_eq_of_ok hsized hkey ht hs (hout _).symm h)
      (fun _ => number_error) (fun _ => number_error)

/-! ## The stream -/

variable {ι : Type*}

/-- The malformed messages of a feed may be taken out where each leaves the state alike. -/
lemma streamTicker_eq_wellFormed {msgs : List (Message × ι)}
    (h : Generator.Along (Untraced inst texts) (onTicker inst texts) {} msgs) :
    streamTicker inst texts msgs = streamTicker inst texts (wellFormed inst texts msgs) := by
  refine Generator.yields_without (fun s t m hst _ => hst.onTicker m) ?_ (Alike.refl {}) h
  intro s t m hst hmal huntraced
  rw [onTicker_of_malformed hmal]
  exact ⟨rfl, _, rfl, (huntraced hmal).symm.trans hst⟩

/-- A malformed message goes unseen in whatever follows exactly when it leaves the state
alike. -/
lemma yields_malformed_iff (hsized : Sized inst) {s : State} {m : Message}
    (hmal : malformed inst texts s m = true) (i : ℕ) :
    (∀ more : List (Message × ℕ), Generator.yields (onTicker inst texts) s ((m, i) :: more) =
        Generator.yields (onTicker inst texts) s more) ↔
      Alike inst texts s (merge s m).1 := by
  have hskip : ∀ more : List (Message × ℕ),
      Generator.yields (onTicker inst texts) s ((m, i) :: more) =
        Generator.yields (onTicker inst texts) (merge s m).1 more := by
    intro more
    simp [Generator.yields, onTicker_of_malformed hmal]
  simp only [hskip]
  constructor
  · intro hall
    -- one message more tells the states apart, if any feed does
    refine (alike_of_outputs hsized fun probe => ?_).symm
    have hone := congrArg (List.map Prod.fst) (hall [(probe, 0)])
    have hlast : ∀ s : State, (Generator.yields (onTicker inst texts) s [(probe, 0)]).map Prod.fst =
        (onTicker inst texts s probe).1 := by
      intro s
      cases hnext : (onTicker inst texts s probe).2 <;>
        simp [Generator.yields, hnext, Function.comp_def]
    rwa [hlast, hlast] at hone
  · intro halike more
    exact (Generator.yields_of_related (R := Alike inst texts)
      (fun _ _ m hst => hst.onTicker m) halike more).symm

/-- BTCUSDT, whose timestamps stay as they are. -/
def btc : Instrument := ⟨"BTCUSDT", .linear, "USDT", none, id⟩

/-- The texts of the feed. -/
def texts789 : Texts where
  float := fun s => ([("7", 7), ("8", 8), ("9", 9)].find? fun e => e.1 = s).map fun e => .finite e.2
  isoMs := fun _ => .error .malformed

/-- A message of the feed. -/
def ticker (type : String) (ts : Json) (data : List (String × Json)) : Message :=
  ⟨[("type", .str type), ("ts", ts), ("data", .obj data)], 0⟩

/-- A delta whose price is no number, between a snapshot and a delta with a price. -/
def badPrice : List (Message × ℕ) :=
  [(ticker "snapshot" (.num 1700000000000) [("lastPrice", .str "7"), ("volume24h", .str "8")], 0),
    (ticker "delta" (.num 1700000001000) [("lastPrice", .str "?"), ("volume24h", .str "9")], 1),
    (ticker "delta" (.num 1700000002000) [("lastPrice", .str "8")], 2)]

/-- A delta without data whose time is no number, after a snapshot. -/
def badTime : List (Message × ℕ) :=
  [(ticker "snapshot" (.num 1700000000000) [("lastPrice", .str "7")], 0),
    (ticker "delta" .null [], 1)]

end BybitTicker
end ExchangeRouter
