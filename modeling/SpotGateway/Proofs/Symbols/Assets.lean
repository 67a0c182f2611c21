import Mathlib.Data.List.Nodup
import SpotGateway.Proofs.Market.Pair
import SpotGateway.Proofs.Symbols.Snapshot

/-!
# Assets of a snapshot

The names of assets are the exchange's, and a pair is the text that they make.  What of them is left
in that text depends on the names: from a pair of assets both can be taken back, and two such pairs
are the same only if their assets are, while names with a separator, or without a character, make
pairs that cannot be taken apart.

* `SymbolEntry.NamesAssets` — both names of an entry are assets;
* `SymbolEntry.split?_pair_iff`, `SymbolEntry.split?_pair_isSome_iff` — entries whose pair is taken
  apart;
* `SymbolEntry.consistent_iff_of_assets` — consistent snapshots of assets;
* `SymbolMap.splits_iff_assets`, `SymbolMap.unsplit_hyphenated` — maps whose pairs are all taken apart,
  and one where a pair is not.
-/

set_option autoImplicit false

namespace SpotGateway

namespace SymbolEntry

/-- Base and quote as the exchange names them. -/
def assets (e : SymbolEntry) : String × String := (e.base, e.quote)

/-- Both names are assets, that is, not empty and without a separator. -/
structure NamesAssets (e : SymbolEntry) : Prop where
  base : Pair.IsAsset e.base
  quote : Pair.IsAsset e.quote

instance (e : SymbolEntry) : Decidable e.NamesAssets :=
  decidable_of_iff (Pair.IsAsset e.base ∧ Pair.IsAsset e.quote)
    ⟨fun h => ⟨h.1, h.2⟩, fun h => ⟨h.base, h.quote⟩⟩

variable {entries : List SymbolEntry} {e e' : SymbolEntry}

theorem split?_pair_iff : Pair.split? e.pair = some e.assets ↔ e.NamesAssets := by
  rw [pair, assets, Pair.split?_combine_iff]
  exact ⟨fun h => ⟨h.1, h.2⟩, fun h => ⟨h.base, h.quote⟩⟩

/-- Of the names of two entries that make one pair, one holds a separator that divides the other
entry. -/
theorem pair_eq_pair_iff : e.pair = e'.pair ↔ e.assets = e'.assets ∨
    ∃ middle, e'.base = Pair.combine e.base middle ∧ e.quote = Pair.combine middle e'.quote ∨
      e.base = Pair.combine e'.base middle ∧ e'.quote = Pair.combine middle e.quote := by
  rw [pair, pair, assets, assets, Pair.combine_eq_combine_iff, Prod.mk.injEq]

/-- Pairs of assets are the same only if the assets are. -/
theorem NamesAssets.assets_eq (h : e.NamesAssets) (h' : e'.NamesAssets) (hpair : e.pair = e'.pair) :
    e.assets = e'.assets := by
  have hsplit := split?_pair_iff.mpr h
  rw [hpair, split?_pair_iff.mpr h'] at hsplit
  exact (Option.some.inj hsplit).symm

/-- Whatever a pair is taken apart into are the names of its entry. -/
theorem split?_pair_isSome_iff : (∃ names, Pair.split? e.pair = some names) ↔ e.NamesAssets := by
  constructor
  · rintro ⟨⟨base, quote⟩, hsplit⟩
    obtain ⟨hbase, hquote, hpair⟩ := Pair.split?_eq_some_iff.mp hsplit
    rcases Pair.combine_eq_combine_iff.mp hpair with ⟨rfl, rfl⟩ | ⟨middle, ⟨hmore, _⟩ | ⟨_, hmore⟩⟩
    · exact ⟨hbase, hquote⟩
    · exact absurd (by simp [hmore, Pair.toList_combine]) hbase.2
    · exact absurd (by simp [hmore, Pair.toList_combine]) hquote.2
  · intro h
    exact ⟨_, split?_pair_iff.mpr h⟩

/-- Assets may be listed together unless the same two are listed twice, or one symbol is. -/
theorem consistent_iff_of_assets (h : ∀ e ∈ entries, e.NamesAssets) :
    Consistent entries ↔ (entries.map assets).Nodup ∧ (entries.map symbol).Nodup := by
  have hpairs : entries.map pair = (entries.map assets).map fun a => Pair.combine a.1 a.2 := by
    rw [List.map_map]
    rfl
  have happart : ∀ a ∈ entries.map assets, ∀ b ∈ entries.map assets,
      Pair.combine a.1 a.2 = Pair.combine b.1 b.2 → a = b := by
    simp only [List.forall_mem_map]
    intro e he e' he' hpair
    exact (h e he).assets_eq (h e' he') hpair
  rw [Consistent, hpairs]
  exact and_congr_left fun _ => ⟨List.Nodup.of_map _, List.Nodup.map_on happart⟩

end SymbolEntry

namespace SymbolMap

open SymbolEntry (assets)

/-- **All pairs of a map can be taken apart exactly if all names that were listed are assets.**

* In a snapshot that has a map, the pair of an entry is taken apart into the two names of the entry
  exactly if both are assets, and all pairs of the map are taken apart into anything at all exactly if
  that holds of all entries.
* A snapshot of assets has a map exactly if neither the same two assets nor a symbol occur twice.
* Two entries have one pair exactly if their names are the same, or a name of each has a separator
  where the other entry is divided. -/
theorem splits_iff_assets (entries : List SymbolEntry) :
    (∀ m, build entries = .ok m →
      (∀ e ∈ entries, Pair.split? e.pair = some (e.base, e.quote) ↔ e.NamesAssets) ∧
      ((∀ pair ∈ m.pairs, ∃ names, Pair.split? pair = some names) ↔
        ∀ e ∈ entries, e.NamesAssets)) ∧
    ((∀ e ∈ entries, e.NamesAssets) →
      ((∃ m, build entries = .ok m) ↔
        (entries.map assets).Nodup ∧ (entries.map SymbolEntry.symbol).Nodup)) ∧
    (∀ e ∈ entries, ∀ e' ∈ entries, e.pair = e'.pair ↔ e.assets = e'.assets ∨
      ∃ middle, e'.base = Pair.combine e.base middle ∧ e.quote = Pair.combine middle e'.quote ∨
        e.base = Pair.combine e'.base middle ∧ e'.quote = Pair.combine middle e.quote) := by
  refine ⟨fun m hm => ⟨fun e _ => SymbolEntry.split?_pair_iff, ?_⟩, fun hassets => ?_,
    fun e _ e' _ => SymbolEntry.pair_eq_pair_iff⟩
  · obtain ⟨_, rfl⟩ := build_eq_ok_iff.mp hm
    simp only [mem_pairs_iff, List.forall_mem_map, SymbolEntry.split?_pair_isSome_iff]
  · rw [build_isOk_iff, SymbolEntry.consistent_iff_of_assets hassets]

/-- Two symbols with the same base. -/
def twoOfBtc : List SymbolEntry :=
  [⟨"BTCUSDT", "BTC", "USDT", some "TRADING"⟩, ⟨"BTC/XLM", "BTC", "XLM", none⟩]

/-- They have a map, and their pairs are taken apart. -/
theorem splits_twoOfBtc : ∃ m, build twoOfBtc = .ok m ∧ Pair.split? "BTC-USDT" = some ("BTC", "USDT") ∧
    Pair.split? "BTC-XLM" = some ("BTC", "XLM") := by
  obtain ⟨hsplits, hbuild, _⟩ := splits_iff_assets twoOfBtc
  have hassets : ∀ e ∈ twoOfBtc, e.NamesAssets := by decide +kernel
  obtain ⟨m, hm⟩ := (hbuild hassets).mpr (by decide +kernel)
  obtain ⟨hentries, _⟩ := hsplits m hm
  have hsplit := fun e he => (hentries e he).mpr (hassets e he)
  exact ⟨m, hm, hsplit ⟨"BTCUSDT", "BTC", "USDT", some "TRADING"⟩ List.mem_cons_self,
    hsplit ⟨"BTC/XLM", "BTC", "XLM", none⟩ (List.mem_cons_of_mem _ List.mem_cons_self)⟩

/-- The base has a separator in it. -/
def hyphenated : SymbolEntry := ⟨"AB/C", "A-B", "C", some "TRADING"⟩

/-- The quote has one, where the base before had it. -/
def regrouped : SymbolEntry := ⟨"A/BC", "A", "B-C", some "TRADING"⟩

/-- An entry with a separator in its base has a map, and its pair cannot be taken apart.  Another entry
has other assets and the same pair, so that the two have no map together. -/
theorem unsplit_hyphenated :
    (∃ m, build [hyphenated] = .ok m ∧ m.pairs = ["A-B-C"]) ∧ hyphenated.pair = "A-B-C" ∧
    Pair.split? "A-B-C" = none ∧ hyphenated.assets ≠ regrouped.assets ∧
    hyphenated.symbol ≠ regrouped.symbol ∧
    build [hyphenated, regrouped] = .error (.symbolConflict "A-B-C" "AB/C" "A/BC") := by
  refine ⟨⟨ofEntries [hyphenated], ?_, by decide +kernel⟩, by decide +kernel, by decide +kernel,
    by decide +kernel, by decide +kernel, rfl⟩
  exact build_eq_ok_iff.mpr ⟨by decide +kernel, rfl⟩

end SymbolMap

end SpotGateway
