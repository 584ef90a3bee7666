import ExchangeRouter.HyperliquidSymbols
import ExchangeRouter.Lib.Fallible
import ExchangeRouter.SymbolsTheorems

/-!
# When a symbol of Hyperliquid finds its own instrument

The symbol of an instrument is its name in capitals, with USDC at the end, and a spelling of it
loses one USDC and gets one back. Only a name that ends in USDC twice comes out shorter.
-/

namespace ExchangeRouter
namespace Symbols
namespace Hyperliquid

open Fallible
open SideCaches (InstrumentInfo)

/-! ## Adding and taking away USDC -/

/-- The letters of `USDC`. -/
def usdc : List Char := "USDC".toList

/-- What `get_api_symbol` does with the quote. -/
def stripUsdc (s : List Char) : List Char := if usdc <:+ s then s.take (s.length - 4) else s

/-- What `get_model_symbol` does with the quote. -/
def addUsdc (s : List Char) : List Char := if usdc <:+ s then s else s ++ usdc

lemma stripUsdc_append (s : List Char) : stripUsdc (s ++ usdc) = s := by
  have htake : (s ++ usdc).take ((s ++ usdc).length - 4) = s := by
    have hlen : (s ++ usdc).length - 4 = s.length := by
      rw [List.length_append]
      show s.length + 4 - 4 = s.length
      omega
    rw [hlen, List.take_left]
  unfold stripUsdc
  rw [if_pos (List.suffix_append s usdc), htake]

/-- With the quote appended, it stands there twice if the name ended in it. -/
lemma suffix_usdc_twice (s : List Char) : usdc ++ usdc <:+ s ++ usdc ↔ usdc <:+ s := by
  constructor
  · rintro ⟨t, ht⟩
    rw [← List.append_assoc] at ht
    exact ⟨t, List.append_cancel_right ht⟩
  · rintro ⟨t, rfl⟩
    exact ⟨t, by rw [List.append_assoc]⟩

/-- What a spelling with USDC comes to. -/
lemma addUsdc_strip_append (s : List Char) : addUsdc (stripUsdc (s ++ usdc)) = addUsdc s := by
  rw [stripUsdc_append]

/-- What a spelling without USDC comes to. -/
lemma addUsdc_strip_iff (s : List Char) :
    addUsdc (stripUsdc s) = addUsdc s ↔ ¬ usdc ++ usdc <:+ s := by
  by_cases h : usdc <:+ s
  · obtain ⟨t, rfl⟩ := h
    have hadd : addUsdc (t ++ usdc) = t ++ usdc := if_pos (List.suffix_append t usdc)
    rw [stripUsdc_append, hadd, suffix_usdc_twice]
    unfold addUsdc
    by_cases ht : usdc <:+ t
    · rw [if_pos ht]
      have hlen : t ≠ t ++ usdc := by
        intro heq
        have := congrArg List.length heq
        rw [List.length_append] at this
        have : usdc.length = 4 := rfl
        omega
      exact iff_of_false hlen (not_not.mpr ht)
    · rw [if_neg ht]
      exact iff_of_true rfl ht
  · have hstrip : stripUsdc s = s := if_neg h
    have hnot : ¬ usdc ++ usdc <:+ s := fun hsuffix => h ((List.suffix_append _ _).trans hsuffix)
    rw [hstrip]
    exact iff_of_true rfl hnot

/-! ## Spellings -/

/-- A letter or a digit, in each place. -/
def IsAlphanumeric (s : String) : Prop := ∀ c ∈ s.toList, c.isAlphanum = true

instance (s : String) : Decidable (IsAlphanumeric s) :=
  (List.decidableBAll _ s.toList : Decidable (∀ c ∈ s.toList, c.isAlphanum = true))

/-- `s` is `t` in any letter case, and with separators anywhere. -/
def Respells (s t : String) : Prop :=
  (s.toList.filter fun c => !isSeparator c).map Char.toUpper =
    (t.toList.filter fun c => !isSeparator c).map Char.toUpper

/-- The forms that a symbol is asked for in, of a primary coin or of a coin of a dex. -/
def inputForms : Option String → String → List String
  | none, coin => [coin ++ "USDC", coin]
  | some dex, coin => [dex ++ coin ++ "USDC", dex ++ coin, dex ++ ":" ++ coin]

/-- The native symbol of a coin. -/
def nativeSymbol : Option String → String → String
  | none, coin => coin
  | some dex, coin => dex ++ ":" ++ coin

/-- The coin, behind its dex where it has one. -/
def nameOf (dex : Option String) (coin : String) : String := dex.getD "" ++ coin

lemma isSeparator_of_isAlphanum {c : Char} (h : c.isAlphanum = true) : isSeparator c = false := by
  unfold isSeparator
  by_contra hsep
  simp only [Bool.not_eq_false, Bool.or_eq_true, beq_iff_eq] at hsep
  rcases hsep with (rfl | rfl) | rfl <;> revert h <;> decide

lemma filter_of_isAlphanumeric {s : String} (h : IsAlphanumeric s) :
    (s.toList.filter fun c => !isSeparator c) = s.toList :=
  List.filter_eq_self.mpr fun c hc => by rw [isSeparator_of_isAlphanum (h c hc)]; rfl

/-- The letters that every spelling of a text comes to. -/
def letters (s : String) : List Char := (normalizeSymbol s).toList

lemma letters_eq (s : String) :
    letters s = (s.toList.filter fun c => !isSeparator c).map Char.toUpper := String.toList_ofList

/-- Two spellings of a name have the same letters. -/
lemma letters_of_respells {s t : String} (h : Respells s t) : letters s = letters t := by
  rw [letters_eq, letters_eq]
  exact h

lemma letters_append (s t : String) : letters (s ++ t) = letters s ++ letters t := by
  rw [letters_eq, letters_eq, letters_eq, String.toList_append, List.filter_append, List.map_append]

lemma letters_of_isAlphanumeric {s : String} (h : IsAlphanumeric s) : letters s = upper s := by
  rw [letters_eq, filter_of_isAlphanumeric h]
  rfl

lemma upper_append (s t : String) : upper (s ++ t) = upper s ++ upper t := by
  unfold upper
  rw [String.toList_append, List.map_append]

lemma toUpper_toUpper (c : Char) : c.toUpper.toUpper = c.toUpper :=
  toUpper_of_isLower_eq_false (isLower_toUpper c)

/-- What `get_api_symbol` leaves is in capitals. -/
lemma upper_getApiSymbol (s : String) :
    upper (getApiSymbol s .linear) = stripUsdc (letters s) := by
  have hletters : (letters s).map Char.toUpper = letters s := by
    rw [letters_eq, List.map_map]
    exact List.map_congr_left fun c _ => toUpper_toUpper c
  have hlength : (normalizeSymbol s).length = (letters s).length := String.length_toList.symm
  unfold getApiSymbol stripUsdc endsUsdc upper
  simp only [true_and, decide_eq_true_eq]
  show (if usdc <:+ letters s then
    String.ofList ((letters s).take ((normalizeSymbol s).length - 4))
    else normalizeSymbol s).toList.map Char.toUpper = _
  by_cases h : usdc <:+ letters s
  · rw [if_pos h, if_pos h, String.toList_ofList, hlength, List.map_take]
    rw [hletters]
  · rw [if_neg h, if_neg h]
    exact hletters

/-- `get_model_symbol` of the linear market. -/
lemma getModelSymbol_eq (s : String) :
    getModelSymbol s .linear = String.ofList (addUsdc (upper s)) := by
  unfold getModelSymbol addUsdc endsUsdc
  simp only [true_and, decide_eq_false_iff_not, String.toList_ofList]
  show (if ¬ usdc <:+ upper s then String.ofList (upper s) ++ "USDC"
    else String.ofList (upper s)) = _
  by_cases h : usdc <:+ upper s
  · rw [if_neg (not_not.mpr h), if_pos h]
  · rw [if_pos h, if_neg h, String.ofList_append]
    rfl

/-- The symbol that a spelling is looked up under. -/
lemma modelSymbol_eq (s : String) :
    getModelSymbol (getApiSymbol s .linear) .linear =
      String.ofList (addUsdc (stripUsdc (letters s))) := by
  rw [getModelSymbol_eq, upper_getApiSymbol]

/-! ## The forms of a name -/

section

variable {dex : Option String} {coin : String}

/-- The letters of a form are those of the name, or those of the name and of `USDC`. -/
lemma letters_inputForm (hdex : ∀ d ∈ dex, IsAlphanumeric d) (hcoin : IsAlphanumeric coin)
    {form : String} (h : form ∈ inputForms dex coin) :
    letters form = upper (nameOf dex coin) ++ usdc ∨ letters form = upper (nameOf dex coin) := by
  have husdc : letters "USDC" = usdc := by decide
  have hcolon : letters ":" = [] := by decide
  cases dex with
  | none =>
    have hname : nameOf none coin = coin := String.empty_append
    rw [hname]
    unfold inputForms at h
    simp only [List.mem_cons, List.not_mem_nil, or_false] at h
    rcases h with rfl | rfl
    · left
      rw [letters_append, letters_of_isAlphanumeric hcoin, husdc]
    · right
      exact letters_of_isAlphanumeric hcoin
  | some d =>
    have hd := letters_of_isAlphanumeric (hdex d rfl)
    have hname : upper (nameOf (some d) coin) = upper d ++ upper coin := upper_append d coin
    rw [hname]
    unfold inputForms at h
    simp only [List.mem_cons, List.not_mem_nil, or_false] at h
    rcases h with rfl | rfl | rfl
    · left
      rw [letters_append, letters_append, hd, letters_of_isAlphanumeric hcoin, husdc]
    · right
      rw [letters_append, hd, letters_of_isAlphanumeric hcoin]
    · right
      rw [letters_append, letters_append, hd, letters_of_isAlphanumeric hcoin, hcolon,
        List.append_nil]

lemma letters_coin (hdex : ∀ d ∈ dex, IsAlphanumeric d) (hcoin : IsAlphanumeric coin) :
    letters (nameOf dex coin) = upper (nameOf dex coin) := by
  unfold nameOf
  rw [letters_append, upper_append, letters_of_isAlphanumeric hcoin]
  cases dex with
  | none => rfl
  | some d => rw [Option.getD_some, letters_of_isAlphanumeric (hdex d rfl)]

/-- The name itself is one of the forms. -/
lemma nameOf_mem_inputForms : nameOf dex coin ∈ inputForms dex coin := by
  cases dex with
  | none =>
    have hname : nameOf none coin = coin := String.empty_append
    rw [hname]
    simp [inputForms]
  | some d => simp [inputForms, nameOf]

/-- Every spelling of every form is looked up under the symbol of the name exactly when the name
does not end in USDC twice. -/
theorem modelSymbol_forms_iff (hdex : ∀ d ∈ dex, IsAlphanumeric d) (hcoin : IsAlphanumeric coin) :
    (∀ form ∈ inputForms dex coin, ∀ s, Respells s form →
      getModelSymbol (getApiSymbol s .linear) .linear = getModelSymbol (nameOf dex coin) .linear) ↔
    ¬ usdc ++ usdc <:+ upper (nameOf dex coin) := by
  rw [getModelSymbol_eq]
  constructor
  · intro h
    have hname := h (nameOf dex coin) nameOf_mem_inputForms (nameOf dex coin) rfl
    rw [modelSymbol_eq, letters_coin hdex hcoin] at hname
    exact (addUsdc_strip_iff _).mp (String.ofList_injective hname)
  · intro h form hform s hs
    rw [modelSymbol_eq, letters_of_respells hs]
    rcases letters_inputForm hdex hcoin hform with hletters | hletters
    · rw [hletters, addUsdc_strip_append]
    · rw [hletters, (addUsdc_strip_iff _).mpr h]

end

/-! ## The listing -/

/-- An instrument of a coin, behind its dex where it has one. -/
structure Lists (info : InstrumentInfo) (dex : Option String) (coin : String) : Prop where
  symbol : info.symbol = getModelSymbol (nameOf dex coin) .linear
  native : info.nativeSymbol = nativeSymbol dex coin
  base : info.baseAsset = coin
  quote : info.quoteAsset = "USDC"

/-- The names that the venue answers with are alphanumeric, and a builder coin is named
`dex:coin`. -/
structure Replies.WellNamed (r : Replies) : Prop where
  primary : ∀ rows, r.primary = .ok rows → ∀ u ∈ rows, ∀ coin, u.name = .ok coin →
    IsAlphanumeric coin
  builder : ∀ dexs, r.perpDexs = .ok dexs → ∀ dex rows, .named dex (.ok rows) ∈ dexs →
    IsAlphanumeric dex ∧ ∀ u ∈ rows, ∀ native, u.name = .ok native →
      ∃ coin, IsAlphanumeric coin ∧ native = nativeSymbol (some dex) coin

/-- What the loops keep: no symbol twice, and under every symbol the coin it is made of. -/
structure Listing.Sound (l : Listing) : Prop where
  seen : l.results.map (fun info => info.symbol) = l.seen
  nodup : l.seen.Nodup
  lists : ∀ info ∈ l.results, ∃ dex coin, (∀ d ∈ dex, IsAlphanumeric d) ∧ IsAlphanumeric coin ∧
    Lists info dex coin

namespace Listing.Sound

variable {l : Listing}

/-- The end of a row keeps the listing sound. -/
lemma add (h : l.Sound) {dex : Option String} {coin : String}
    (hdex : ∀ d ∈ dex, IsAlphanumeric d) (hcoin : IsAlphanumeric coin) :
    (l.add (getModelSymbol (nameOf dex coin) .linear) (nativeSymbol dex coin) coin).Sound := by
  unfold Listing.add
  split
  · exact h
  · next hnew =>
    refine ⟨?_, ?_, ?_⟩
    · rw [List.map_append, h.seen, List.map_singleton, linearSymbolInfo_symbol]
    · exact List.nodup_append.mpr ⟨h.nodup, List.nodup_singleton _, fun s hs t ht heq =>
        hnew (List.mem_singleton.mp ht ▸ heq ▸ hs)⟩
    · intro info hinfo
      rcases List.mem_append.mp hinfo with hmem | hmem
      · exact h.lists info hmem
      · rw [List.mem_singleton.mp hmem]
        exact ⟨dex, coin, hdex, hcoin, linearSymbolInfo_symbol _ _ _,
          linearSymbolInfo_nativeSymbol _ _ _, linearSymbolInfo_baseAsset _ _ _,
          linearSymbolInfo_quoteAsset _ _ _⟩

/-- A row of the primary universe keeps the listing sound. -/
lemma primaryRow {l' : Listing} (h : l.Sound) {u : UniverseRow}
    (hu : ∀ coin, u.name = .ok coin → IsAlphanumeric coin)
    (hrow : Hyperliquid.primaryRow l u = .ok l') : l'.Sound := by
  unfold Hyperliquid.primaryRow at hrow
  split at hrow
  · injection hrow with hrow
    rwa [← hrow]
  · obtain ⟨coin, hname, hrow⟩ := bind_ok hrow
    obtain ⟨szDec, -, hrow⟩ := bind_ok hrow
    have hnone : ∀ d ∈ (none : Option String), IsAlphanumeric d := by simp
    have hadd := h.add hnone (hu coin hname)
    have hsame : nameOf none coin = coin := String.empty_append
    rw [hsame] at hadd
    rwa [← Except.ok.inj hrow]

end Listing.Sound

/-- The coin is what is behind the colon. -/
lemma baseOf_nativeSymbol {dex : String} (hdex : IsAlphanumeric dex) (coin : String) :
    baseOf (nativeSymbol (some dex) coin) = coin := by
  have hlist : (nativeSymbol (some dex) coin).toList = dex.toList ++ ':' :: coin.toList := by
    unfold nativeSymbol
    rw [String.toList_append, String.toList_append, List.append_assoc]
    rfl
  have hdrop : (dex.toList ++ ':' :: coin.toList).dropWhile (fun c => c != ':') =
      ':' :: coin.toList := by
    rw [List.dropWhile_append_of_pos]
    · rfl
    · intro c hc
      have hsep := isSeparator_of_isAlphanum (hdex c hc)
      rw [bne_iff_ne]
      rintro rfl
      contradiction
  unfold baseOf
  rw [hlist, if_pos (by simp), hdrop]
  exact String.ofList_toList

namespace Listing.Sound

variable {l l' : Listing} {dex : String}

/-- A row of a builder's universe keeps the listing sound. -/
lemma builderRow (h : l.Sound) (hdex : IsAlphanumeric dex) {u : UniverseRow}
    (hu : ∀ native, u.name = .ok native →
      ∃ coin, IsAlphanumeric coin ∧ native = nativeSymbol (some dex) coin)
    (hrow : Hyperliquid.builderRow dex l u = .ok l') : l'.Sound := by
  unfold Hyperliquid.builderRow at hrow
  split at hrow
  · injection hrow with hrow
    rwa [← hrow]
  · obtain ⟨native, hname, hrow⟩ := bind_ok hrow
    obtain ⟨szDec, -, hrow⟩ := bind_ok hrow
    obtain ⟨coin, hcoin, rfl⟩ := hu native hname
    have hsome : ∀ d ∈ some dex, IsAlphanumeric d := fun d hd => Option.some.inj hd ▸ hdex
    have hadd := h.add hsome hcoin
    rw [baseOf_nativeSymbol hdex] at hrow
    rwa [← Except.ok.inj hrow]

/-- The rows of a dex, as far as they are read. -/
lemma builderRows (h : l.Sound) (hdex : IsAlphanumeric dex) {rows : List UniverseRow}
    (hrows : ∀ u ∈ rows, ∀ native, u.name = .ok native →
      ∃ coin, IsAlphanumeric coin ∧ native = nativeSymbol (some dex) coin) :
    (Hyperliquid.builderRows dex l rows).Sound := by
  induction rows generalizing l with
  | nil => exact h
  | cons u rows ih =>
    unfold Hyperliquid.builderRows
    split
    · exact h
    · next l' hrow =>
      exact ih (h.builderRow hdex (hrows u (by simp)) hrow) fun u' hu' => hrows u' (by simp [hu'])

/-- The rows of a builder keep the listing sound. -/
lemma builderEntry (h : l.Sound) {entry : DexEntry}
    (hentry : ∀ dex rows, entry = .named dex (.ok rows) →
      IsAlphanumeric dex ∧ ∀ u ∈ rows, ∀ native, u.name = .ok native →
        ∃ coin, IsAlphanumeric coin ∧ native = nativeSymbol (some dex) coin)
    (hstep : Hyperliquid.builderEntry l entry = .ok l') : l'.Sound := by
  cases entry with
  | nameless =>
    injection hstep with hstep
    rwa [← hstep]
  | malformed => contradiction
  | named dex rows =>
    cases rows with
    | error e =>
      injection hstep with hstep
      rwa [← hstep]
    | ok rows =>
      obtain ⟨hdex, hrows⟩ := hentry dex rows rfl
      injection hstep with hstep
      rw [← hstep]
      exact h.builderRows hdex hrows

end Listing.Sound

/-- A listing that is fetched is sound. -/
theorem fetchLinearInfo_sound {r : Replies} (hnames : r.WellNamed) {infos : List InstrumentInfo}
    (h : fetchLinearInfo r = .ok infos) : ∃ l : Listing, l.Sound ∧ l.results = infos := by
  have hempty : (⟨[], []⟩ : Listing).Sound := ⟨rfl, List.nodup_nil, by simp⟩
  obtain ⟨rows, hrows, h⟩ := bind_ok h
  obtain ⟨primary, hprimary, h⟩ := bind_ok h
  obtain ⟨all, hall, h⟩ := bind_ok h
  refine ⟨all, ?_, Except.ok.inj h⟩
  have hsound : primary.Sound := foldlM_keeps (fun _ u _ hu hs hstep =>
    hs.primaryRow (hnames.primary rows hrows u hu) hstep) hempty hprimary
  cases hdexs : r.perpDexs with
  | error e =>
    -- only the primary universe is served
    rw [hdexs] at hall
    rwa [← Except.ok.inj hall]
  | ok dexs =>
    rw [hdexs] at hall
    exact foldlM_keeps (fun _ entry _ hentry hs hstep => hs.builderEntry
      (fun dex rows heq => hnames.builder dexs hdexs dex rows (heq ▸ hentry)) hstep) hsound hall

/-- In a listing that has no symbol twice an instrument is found under its own. -/
lemma bySymbol_of_mem {infos : List InstrumentInfo}
    (hnodup : (infos.map fun info => info.symbol).Nodup) {info : InstrumentInfo}
    (h : info ∈ infos) : Caches.bySymbol (fun info => info.symbol) infos info.symbol = some info := by
  unfold Caches.bySymbol
  induction infos using List.reverseRecOn with
  | nil => contradiction
  | append_singleton infos last ih =>
    rw [List.map_append, List.nodup_append] at hnodup
    obtain ⟨hfirst, -, hdisjoint⟩ := hnodup
    rw [List.foldl_append]
    rcases List.mem_append.mp h with hmem | hmem
    · have hne : info.symbol ≠ last.symbol :=
        hdisjoint _ (List.mem_map.mpr ⟨info, hmem, rfl⟩) _ (by simp)
      exact (Function.update_of_ne hne _ _).trans (ih hfirst hmem)
    · rw [List.mem_singleton.mp hmem]
      exact Function.update_self _ _ _

/-- A spelling finds an instrument when it comes to the instrument's symbol. -/
lemma lookup_eq_ok_iff {cache : String → Option InstrumentInfo} {info : InstrumentInfo}
    (hfound : cache info.symbol = some info) (s : String) :
    lookup cache .linear s = .ok (info.symbol, info.nativeSymbol, info.quoteAsset) ↔
      getModelSymbol (getApiSymbol s .linear) .linear = info.symbol := by
  unfold lookup
  generalize getModelSymbol (getApiSymbol s .linear) .linear = modelSym
  constructor
  · intro h
    simp only at h
    split at h
    · contradiction
    · exact (Prod.mk.inj (Except.ok.inj h)).1
  · rintro rfl
    simp only [hfound]

/-- Every spelling of every form of an instrument of a sound listing finds it exactly when its
name does not end in USDC twice. -/
lemma Listing.Sound.lookup_forms_iff {l : Listing} (h : l.Sound) {info : InstrumentInfo}
    (hinfo : info ∈ l.results) {dex : Option String} {coin : String}
    (hdex : ∀ d ∈ dex, IsAlphanumeric d) (hcoin : IsAlphanumeric coin)
    (hlists : Lists info dex coin) :
    (∀ form ∈ inputForms dex coin, ∀ s, Respells s form →
      lookup (Caches.bySymbol (fun info => info.symbol) l.results) .linear s =
        .ok (info.symbol, nativeSymbol dex coin, "USDC")) ↔
    ¬ usdc ++ usdc <:+ upper (nameOf dex coin) := by
  have hnodup : (l.results.map fun info => info.symbol).Nodup := by
    rw [h.seen]
    exact h.nodup
  have hfound := lookup_eq_ok_iff (bySymbol_of_mem hnodup hinfo)
  simp only [hlists.native, hlists.quote] at hfound
  simp only [hfound]
  rw [hlists.symbol]
  exact modelSymbol_forms_iff hdex hcoin

/-- No two instruments of a listing share a symbol, and every spelling of every form of an
instrument finds the instrument exactly when its name does not end in USDC twice. -/
theorem lookup_listed_iff (r : Replies) (hnames : r.WellNamed) (infos : List InstrumentInfo)
    (h : fetchLinearInfo r = .ok infos) :
    (infos.map fun info => info.symbol).Nodup ∧
    ∀ info ∈ infos, ∃ dex coin, Lists info dex coin ∧
      ((∀ form ∈ inputForms dex coin, ∀ s, Respells s form →
        lookup (Caches.bySymbol (fun info => info.symbol) infos) .linear s =
          .ok (info.symbol, nativeSymbol dex coin, "USDC")) ↔
      ¬ usdc ++ usdc <:+ upper (nameOf dex coin)) := by
  obtain ⟨l, hsound, rfl⟩ := fetchLinearInfo_sound hnames h
  constructor
  · rw [hsound.seen]
    exact hsound.nodup
  · intro info hinfo
    obtain ⟨dex, coin, hdex, hcoin, hlists⟩ := hsound.lists info hinfo
    exact ⟨dex, coin, hlists, hsound.lookup_forms_iff hinfo hdex hcoin hlists⟩

/-- A primary coin and a coin of a dex. -/
theorem lookup_listed_iff_two :
    let infos := [linearSymbolInfo "KPEPEUSDC" "kPEPE" "kPEPE",
      linearSymbolInfo "XYZNVDAUSDC" "xyz:NVDA" "NVDA"]
    (infos.map fun info => info.symbol).Nodup ∧
    ∀ info ∈ infos, ∃ dex coin, Lists info dex coin ∧
      ((∀ form ∈ inputForms dex coin, ∀ s, Respells s form →
        lookup (Caches.bySymbol (fun info => info.symbol) infos) .linear s =
          .ok (info.symbol, nativeSymbol dex coin, "USDC")) ↔
      ¬ usdc ++ usdc <:+ upper (nameOf dex coin)) := by
  intro infos
  let primary : List UniverseRow := [⟨false, .ok "kPEPE", .ok 0⟩]
  let builder : List UniverseRow := [⟨false, .ok "xyz:NVDA", .ok 3⟩]
  let r : Replies := ⟨.ok primary, .ok [.nameless, .named "xyz" (.ok builder)]⟩
  have hnames : r.WellNamed := by
    constructor
    · intro rows hrows u hu coin hname
      rw [← Except.ok.inj hrows, List.mem_singleton] at hu
      rw [hu] at hname
      rw [← Except.ok.inj hname]
      decide
    · intro dexs hdexs dex rows hmem
      rw [← Except.ok.inj hdexs] at hmem
      simp only [List.mem_cons, List.not_mem_nil, or_false, reduceCtorEq, false_or,
        DexEntry.named.injEq, Except.ok.injEq] at hmem
      obtain ⟨rfl, rfl⟩ := hmem
      refine ⟨by decide, fun u hu native hname => ⟨"NVDA", by decide, ?_⟩⟩
      rw [List.mem_singleton] at hu
      rw [hu] at hname
      rw [← Except.ok.inj hname]
      rfl
  exact lookup_listed_iff r hnames infos rfl

/-- The coin USDC of a dex that is named usdc, asked for by its native symbol. -/
theorem lookup_usdc_twice :
    ¬ ∀ (r : Replies) (infos : List InstrumentInfo), r.WellNamed → fetchLinearInfo r = .ok infos →
      (∀ info ∈ infos, ∀ dex coin, Lists info dex coin → ¬ usdc ++ usdc <:+ (nameOf dex coin).toList) →
      (infos.map fun info => info.symbol).Nodup ∧
      ∀ info ∈ infos, ∀ dex coin, Lists info dex coin →
        ∀ form ∈ inputForms dex coin, ∀ s, Respells s form →
          lookup (Caches.bySymbol (fun info => info.symbol) infos) .linear s =
            .ok (info.symbol, nativeSymbol dex coin, "USDC") := by
  intro h
  let builder : List UniverseRow := [⟨false, .ok "usdc:USDC", .ok 2⟩]
  let r : Replies := ⟨.ok [], .ok [.named "usdc" (.ok builder)]⟩
  let info := linearSymbolInfo "USDCUSDC" "usdc:USDC" "USDC"
  have hnames : r.WellNamed := by
    constructor
    · intro rows hrows u hu
      rw [← Except.ok.inj hrows] at hu
      contradiction
    · intro dexs hdexs dex rows hmem
      rw [← Except.ok.inj hdexs, List.mem_singleton] at hmem
      simp only [DexEntry.named.injEq, Except.ok.injEq] at hmem
      obtain ⟨rfl, rfl⟩ := hmem
      refine ⟨by decide, fun u hu native hname => ⟨"USDC", by decide, ?_⟩⟩
      rw [List.mem_singleton] at hu
      rw [hu] at hname
      rw [← Except.ok.inj hname]
      rfl
  have hnot : ∀ info' ∈ [info], ∀ dex coin, Lists info' dex coin →
      ¬ usdc ++ usdc <:+ (nameOf dex coin).toList := by
    intro info' hinfo' dex coin hlists
    rw [List.mem_singleton.mp hinfo'] at hlists
    have hcoin : "USDC" = coin := hlists.base
    have hnative : "usdc:USDC" = nativeSymbol dex coin := hlists.native
    rw [← hcoin] at hnative ⊢
    cases dex with
    | none => exact absurd hnative (by decide)
    | some d =>
      have hd : d.toList = "usdc".toList := by
        have hlist := congrArg String.toList hnative
        unfold nativeSymbol at hlist
        rw [String.toList_append, String.toList_append, List.append_assoc] at hlist
        exact List.append_cancel_right
          (show d.toList ++ (":".toList ++ "USDC".toList) =
            "usdc".toList ++ (":".toList ++ "USDC".toList) from hlist.symm)
      show ¬ usdc ++ usdc <:+ (d ++ "USDC").toList
      rw [String.toList_append, hd]
      decide
  have hlists : Lists info (some "usdc") "USDC" := ⟨by decide, by decide, by decide, by decide⟩
  have hfound := (h r [info] hnames rfl hnot).2 info (by simp) (some "usdc") "USDC" hlists
    "usdc:USDC" (by decide) "usdc:USDC" rfl
  have hlookup : lookup (Caches.bySymbol (fun info => info.symbol) [info]) .linear "usdc:USDC" =
      .error (.valueError "Symbol usdc:USDC not found on Hyperliquid linear") := by decide
  rw [hlookup] at hfound
  contradiction

end Hyperliquid
end Symbols
end ExchangeRouter
