import SpotGateway.Proofs.Distinct
import SpotGateway.Proofs.Outcome
import SpotGateway.Symbols

/-!
# Maps of snapshots

A snapshot is what the exchange lists at one time.  It has a map exactly if no pair and no symbol is
listed twice, and then the map says neither more nor less than the snapshot.

* `SymbolEntry.Consistent` — no pair and no symbol occurs twice;
* `SymbolMap.build_eq_ok_iff`, `SymbolMap.conflict_of_build` — which snapshots have a map, which map
  it is, and what is said of the others;
* `SymbolMap.ofPair?_eq_some_iff`, `SymbolMap.ofSymbol?_eq_some_iff` — lookup in the map of a
  snapshot, by what the snapshot lists;
* `SymbolMap.symbolOf_eq_ok_iff_pairOf` — translations there and back;
* `SymbolMap.pairwise_pairs`, `SymbolMap.mem_pairs_iff` — the sorted list of pairs.
-/

set_option autoImplicit false

namespace SpotGateway

namespace SymbolEntry

/-- The entry as it stands in a map. -/
def listing (e : SymbolEntry) : Listing := ⟨e.pair, e.symbol, e.status⟩

/-- The pair is open for trading: by its status or, where none is reported, by policy. -/
def isOpen (e : SymbolEntry) (missingStatus : MissingStatusPolicy) : Bool :=
  match e.status with
  | some status => status = Exchange.tradingStatus
  | none => missingStatus = .assumeTrading

/-- No pair and no symbol occurs twice. -/
def Consistent (entries : List SymbolEntry) : Prop :=
  (entries.map pair).Nodup ∧ (entries.map symbol).Nodup

instance (entries : List SymbolEntry) : Decidable (Consistent entries) :=
  inferInstanceAs (Decidable (_ ∧ _))

variable {before entries : List SymbolEntry} {e : SymbolEntry}

theorem consistent_nil : Consistent [] := ⟨List.nodup_nil, List.nodup_nil⟩

theorem Consistent.of_append (h : Consistent (before ++ entries)) : Consistent before := by
  simp only [Consistent, List.map_append] at h
  exact ⟨(List.nodup_append.mp h.1).1, (List.nodup_append.mp h.2).1⟩

/-- One more entry is consistent with those before it if its names are new. -/
theorem Consistent.append_singleton_iff (h : Consistent before) :
    Consistent (before ++ [e]) ↔ e.pair ∉ before.map pair ∧ e.symbol ∉ before.map symbol := by
  have hnew : ∀ {names : List String} {name : String}, names.Nodup →
      ((names ++ [name]).Nodup ↔ name ∉ names) := by
    intro names name hnames
    rw [List.nodup_append]
    constructor
    · rintro ⟨_, _, hapart⟩ hmem
      exact hapart name hmem name (List.mem_singleton_self name) rfl
    · intro hnot
      refine ⟨hnames, by simp, ?_⟩
      intro a ha b hb hab
      rw [List.mem_singleton.mp hb] at hab
      exact hnot (hab ▸ ha)
  simp only [Consistent, List.map_append, List.map_cons, List.map_nil, hnew h.1, hnew h.2]

end SymbolEntry

namespace SymbolMap

open SymbolEntry (Consistent)

/-- The map that has the entries as they are. -/
def ofEntries (entries : List SymbolEntry) : SymbolMap := ⟨entries.map SymbolEntry.listing⟩

variable {before entries : List SymbolEntry} {e : SymbolEntry} {m : SymbolMap} {pair symbol : String}
  {l : Listing}

theorem map_pair_ofEntries (entries : List SymbolEntry) :
    (ofEntries entries).listings.map Listing.pair = entries.map SymbolEntry.pair := by
  simp [ofEntries, SymbolEntry.listing]

theorem map_symbol_ofEntries (entries : List SymbolEntry) :
    (ofEntries entries).listings.map Listing.symbol = entries.map SymbolEntry.symbol := by
  simp [ofEntries, SymbolEntry.listing]

theorem ofPair?_ofEntries_eq_none_iff :
    (ofEntries entries).ofPair? pair = none ↔ pair ∉ entries.map SymbolEntry.pair := by
  rw [← map_pair_ofEntries]
  exact find?_name_eq_none_iff

theorem ofSymbol?_ofEntries_eq_none_iff :
    (ofEntries entries).ofSymbol? symbol = none ↔ symbol ∉ entries.map SymbolEntry.symbol := by
  rw [← map_symbol_ofEntries]
  exact find?_name_eq_none_iff

/-! ## Which snapshots have a map -/

theorem add_of_new (hpair : m.ofPair? e.pair = none) (hsymbol : m.ofSymbol? e.symbol = none) :
    m.add e = .ok ⟨m.listings ++ [e.listing]⟩ := by
  simp [add, hpair, hsymbol, SymbolEntry.listing]

/-- An entry is refused for a name that is taken. -/
theorem conflict_of_add {error : GatewayError} (h : m.add e = .error error) :
    ∃ name taken new, error = .symbolConflict name taken new := by
  unfold add at h
  split at h
  · cases h
    exact ⟨_, _, _, rfl⟩
  · cases h
    exact ⟨_, _, _, rfl⟩
  · cases h

theorem isOk_of_add {m' : SymbolMap} (h : m.add e = .ok m') :
    m.ofPair? e.pair = none ∧ m.ofSymbol? e.symbol = none := by
  unfold add at h
  split at h
  · cases h
  · cases h
  · rename_i hpair hsymbol
    exact ⟨hpair, hsymbol⟩

theorem add_ofEntries_eq_ok_iff (h : Consistent before) :
    (ofEntries before).add e = .ok m ↔
      Consistent (before ++ [e]) ∧ m = ofEntries (before ++ [e]) := by
  have hnew : Consistent (before ++ [e]) ↔ (ofEntries before).ofPair? e.pair = none ∧
      (ofEntries before).ofSymbol? e.symbol = none := by
    rw [h.append_singleton_iff, ofPair?_ofEntries_eq_none_iff, ofSymbol?_ofEntries_eq_none_iff]
  have hmore : (⟨(ofEntries before).listings ++ [e.listing]⟩ : SymbolMap) =
      ofEntries (before ++ [e]) := by
    simp [ofEntries]
  rw [hnew]
  constructor
  · intro hadd
    have hfresh := isOk_of_add hadd
    rw [add_of_new hfresh.1 hfresh.2, hmore] at hadd
    exact ⟨hfresh, (Except.ok.inj hadd).symm⟩
  · rintro ⟨⟨hpair, hsymbol⟩, rfl⟩
    rw [add_of_new hpair hsymbol, hmore]

/-- Entries that are added to those of a map, one after another. -/
theorem foldlM_add_eq_ok_iff (h : Consistent before) :
    entries.foldlM add (ofEntries before) = .ok m ↔
      Consistent (before ++ entries) ∧ m = ofEntries (before ++ entries) := by
  induction entries generalizing before with
  | nil =>
    rw [List.foldlM_nil, pure_eq_ok, List.append_nil]
    exact ⟨fun heq => ⟨h, heq.symm⟩, fun heq => heq.2.symm⟩
  | cons e rest ih =>
    have hsplit : before ++ e :: rest = (before ++ [e]) ++ rest := by simp
    rw [List.foldlM_cons, bind_eq_ok, hsplit]
    constructor
    · rintro ⟨m₁, hadd, hrest⟩
      obtain ⟨hmore, rfl⟩ := (add_ofEntries_eq_ok_iff h).mp hadd
      exact (ih hmore).mp hrest
    · rintro ⟨hall, rfl⟩
      have hmore := hall.of_append
      exact ⟨_, (add_ofEntries_eq_ok_iff h).mpr ⟨hmore, rfl⟩, (ih hmore).mpr ⟨hall, rfl⟩⟩

/-- A snapshot has a map if no name occurs twice in it, and then it is the map of its entries. -/
theorem build_eq_ok_iff :
    build entries = .ok m ↔ Consistent entries ∧ m = ofEntries entries := by
  have h : entries.foldlM add (ofEntries []) = .ok m ↔ _ :=
    foldlM_add_eq_ok_iff SymbolEntry.consistent_nil
  rwa [List.nil_append] at h

theorem build_isOk_iff : (∃ m, build entries = .ok m) ↔ Consistent entries := by
  simp [build_eq_ok_iff]

/-- Of a snapshot without a map it is said which name occurs twice in it. -/
theorem conflict_of_build (h : ¬ Consistent entries) :
    ∃ name taken new, build entries = .error (.symbolConflict name taken new) := by
  cases hbuild : build entries with
  | ok m => exact absurd (build_isOk_iff.mp ⟨m, hbuild⟩) h
  | error error =>
    obtain ⟨m, e, _, hadd⟩ := foldlM_eq_error hbuild
    obtain ⟨name, taken, new, rfl⟩ := conflict_of_add hadd
    exact ⟨name, taken, new, rfl⟩

/-! ## Lookup -/

theorem ofPair?_eq_some_iff (h : Consistent entries) :
    (ofEntries entries).ofPair? pair = some l ↔ ∃ e ∈ entries, e.pair = pair ∧ e.listing = l := by
  have hdistinct : ((ofEntries entries).listings.map Listing.pair).Nodup := by
    rw [map_pair_ofEntries]
    exact h.1
  rw [ofPair?, find?_name_eq_some_iff hdistinct, ofEntries, List.mem_map]
  constructor
  · rintro ⟨⟨e, he, rfl⟩, hpair⟩
    exact ⟨e, he, hpair, rfl⟩
  · rintro ⟨e, he, hpair, rfl⟩
    exact ⟨⟨e, he, rfl⟩, hpair⟩

theorem ofSymbol?_eq_some_iff (h : Consistent entries) :
    (ofEntries entries).ofSymbol? symbol = some l ↔
      ∃ e ∈ entries, e.symbol = symbol ∧ e.listing = l := by
  have hdistinct : ((ofEntries entries).listings.map Listing.symbol).Nodup := by
    rw [map_symbol_ofEntries]
    exact h.2
  rw [ofSymbol?, find?_name_eq_some_iff hdistinct, ofEntries, List.mem_map]
  constructor
  · rintro ⟨⟨e, he, rfl⟩, hsymbol⟩
    exact ⟨e, he, hsymbol, rfl⟩
  · rintro ⟨e, he, hsymbol, rfl⟩
    exact ⟨⟨e, he, rfl⟩, hsymbol⟩

theorem symbolOf_eq_ok_iff_ofPair? :
    m.symbolOf pair = .ok symbol ↔ ∃ l, m.ofPair? pair = some l ∧ l.symbol = symbol := by
  unfold symbolOf
  cases m.ofPair? pair <;> simp

theorem pairOf_eq_ok_iff_ofSymbol? :
    m.pairOf symbol = .ok pair ↔ ∃ l, m.ofSymbol? symbol = some l ∧ l.pair = pair := by
  unfold pairOf
  cases m.ofSymbol? symbol <;> simp

theorem symbolOf_eq_ok_iff (h : Consistent entries) :
    (ofEntries entries).symbolOf pair = .ok symbol ↔
      ∃ e ∈ entries, e.pair = pair ∧ e.symbol = symbol := by
  rw [symbolOf_eq_ok_iff_ofPair?]
  simp only [ofPair?_eq_some_iff h]
  constructor
  · rintro ⟨_, ⟨e, he, hpair, rfl⟩, hsymbol⟩
    exact ⟨e, he, hpair, hsymbol⟩
  · rintro ⟨e, he, hpair, hsymbol⟩
    exact ⟨_, ⟨e, he, hpair, rfl⟩, hsymbol⟩

theorem pairOf_eq_ok_iff (h : Consistent entries) :
    (ofEntries entries).pairOf symbol = .ok pair ↔
      ∃ e ∈ entries, e.pair = pair ∧ e.symbol = symbol := by
  rw [pairOf_eq_ok_iff_ofSymbol?]
  simp only [ofSymbol?_eq_some_iff h]
  constructor
  · rintro ⟨_, ⟨e, he, hsymbol, rfl⟩, hpair⟩
    exact ⟨e, he, hpair, hsymbol⟩
  · rintro ⟨e, he, hpair, hsymbol⟩
    exact ⟨_, ⟨e, he, hsymbol, rfl⟩, hpair⟩

/-- What a pair is translated to is translated back to it, and the other way round. -/
theorem symbolOf_eq_ok_iff_pairOf (h : build entries = .ok m) :
    m.symbolOf pair = .ok symbol ↔ m.pairOf symbol = .ok pair := by
  obtain ⟨hconsistent, rfl⟩ := build_eq_ok_iff.mp h
  rw [symbolOf_eq_ok_iff hconsistent, pairOf_eq_ok_iff hconsistent]

theorem symbolOf_isOk_iff (h : build entries = .ok m) :
    (∃ symbol, m.symbolOf pair = .ok symbol) ↔ pair ∈ entries.map SymbolEntry.pair := by
  obtain ⟨hconsistent, rfl⟩ := build_eq_ok_iff.mp h
  simp only [symbolOf_eq_ok_iff hconsistent, List.mem_map]
  constructor
  · rintro ⟨_, e, he, hpair, _⟩
    exact ⟨e, he, hpair⟩
  · rintro ⟨e, he, hpair⟩
    exact ⟨_, e, he, hpair, rfl⟩

theorem pairOf_isOk_iff (h : build entries = .ok m) :
    (∃ pair, m.pairOf symbol = .ok pair) ↔ symbol ∈ entries.map SymbolEntry.symbol := by
  obtain ⟨hconsistent, rfl⟩ := build_eq_ok_iff.mp h
  simp only [pairOf_eq_ok_iff hconsistent, List.mem_map]
  constructor
  · rintro ⟨_, e, he, _, hsymbol⟩
    exact ⟨e, he, hsymbol⟩
  · rintro ⟨e, he, hsymbol⟩
    exact ⟨_, e, he, rfl, hsymbol⟩

/-! ## All pairs -/

theorem mem_pairs_iff : pair ∈ (ofEntries entries).pairs ↔ pair ∈ entries.map SymbolEntry.pair := by
  rw [pairs, List.mem_mergeSort, map_pair_ofEntries]

theorem pairwise_pairs (h : Consistent entries) :
    (ofEntries entries).pairs.Pairwise fun a b => a < b := by
  have hdistinct : ((entries.map SymbolEntry.pair).map id).Nodup := by
    rw [List.map_id]
    exact h.1
  rw [pairs, map_pair_ofEntries]
  exact pairwise_lt_mergeSort hdistinct

end SymbolMap

end SpotGateway
