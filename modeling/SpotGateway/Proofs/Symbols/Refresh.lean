import SpotGateway.Proofs.Symbols.Snapshot

/-!
# Tables under refreshes

A table is given one snapshot after another.  One that contradicts itself is refused and changes
nothing; whatever is looked up, it is the last accepted snapshot that answers.

* `SymbolTable.refreshAll`, `SymbolTable.lastAccepted` — a history of refreshes, and the snapshot
  that is in force after it;
* `SymbolTable.Shows` — every lookup is answered by a snapshot;
* `SymbolTable.refreshAll_create` — after any history the table is that of the snapshot in force;
* `SymbolTable.shows_of_refreshes` — which snapshots are accepted, how their names are translated,
  and what is looked up after any history.
-/

set_option autoImplicit false

namespace SpotGateway.SymbolTable

open SymbolEntry (Consistent)

/-- The table after one snapshot after another. -/
def refreshAll (t : SymbolTable) (snapshots : List (List SymbolEntry)) : SymbolTable :=
  snapshots.foldl (fun t entries => (t.refresh entries).1) t

/-- The last snapshot that does not contradict itself, or the empty one. -/
def lastAccepted (snapshots : List (List SymbolEntry)) : List SymbolEntry :=
  (snapshots.filter fun entries => Consistent entries).getLastD []

/-- Every lookup is answered by what the entries list. -/
structure Shows (t : SymbolTable) (entries : List SymbolEntry) : Prop where
  symbolOf_iff : ∀ pair symbol, t.current.symbolOf pair = .ok symbol ↔
    ∃ e ∈ entries, e.pair = pair ∧ e.symbol = symbol
  unknownPair : ∀ pair, pair ∉ entries.map SymbolEntry.pair →
    t.current.symbolOf pair = .error (.unknownPair pair)
  pairOf_iff : ∀ symbol pair, t.current.pairOf symbol = .ok pair ↔
    ∃ e ∈ entries, e.pair = pair ∧ e.symbol = symbol
  unknownSymbol : ∀ symbol, symbol ∉ entries.map SymbolEntry.symbol →
    t.current.pairOf symbol = .error (.unknownSymbol symbol)
  isTradable_iff : ∀ pair, t.isTradable pair = true ↔
    ∃ e ∈ entries, e.pair = pair ∧ e.isOpen t.missingStatus = true
  pairs_sorted : t.current.pairs.Pairwise fun a b => a < b
  mem_pairs_iff : ∀ pair, pair ∈ t.current.pairs ↔ pair ∈ entries.map SymbolEntry.pair
  size_eq : t.current.size = entries.length
  isEmpty_eq : t.current.isEmpty = entries.isEmpty

variable {t : SymbolTable} {entries : List SymbolEntry}

/-! ## One refresh -/

theorem refresh_of_consistent (t : SymbolTable) (h : Consistent entries) :
    t.refresh entries = ({ t with current := .ofEntries entries }, .ok ()) := by
  rw [refresh, SymbolMap.build_eq_ok_iff.mpr ⟨h, rfl⟩]

theorem refresh_of_not_consistent (t : SymbolTable) (h : ¬ Consistent entries) :
    ∃ name taken new, t.refresh entries = (t, .error (.symbolConflict name taken new)) := by
  obtain ⟨name, taken, new, hbuild⟩ := SymbolMap.conflict_of_build h
  exact ⟨name, taken, new, by rw [refresh, hbuild]⟩

/-! ## What a table shows -/

theorem isTradable_eq_true_iff {pair : String} (hcurrent : t.current = .ofEntries entries)
    (h : Consistent entries) : t.isTradable pair = true ↔
      ∃ e ∈ entries, e.pair = pair ∧ e.isOpen t.missingStatus = true := by
  cases hlookup : t.current.ofPair? pair with
  | none =>
    have hunknown := hlookup
    rw [hcurrent, SymbolMap.ofPair?_ofEntries_eq_none_iff] at hunknown
    simp only [isTradable, hlookup, Bool.false_eq_true, false_iff]
    rintro ⟨e, he, rfl, _⟩
    exact hunknown (List.mem_map_of_mem he)
  | some l =>
    have hlisted := hlookup
    rw [hcurrent, SymbolMap.ofPair?_eq_some_iff h] at hlisted
    obtain ⟨e, he, hpair, rfl⟩ := hlisted
    -- the entry of a pair is the only one, so its status decides
    have honly : ∀ e' ∈ entries, e'.pair = pair → e'.status = e.status := by
      intro e' he' hpair'
      have hfound : t.current.ofPair? pair = some e'.listing := by
        rw [hcurrent, SymbolMap.ofPair?_eq_some_iff h]
        exact ⟨e', he', hpair', rfl⟩
      have hsame : e'.listing = e.listing := Option.some.inj (hfound.symm.trans hlookup)
      exact congrArg Listing.status hsame
    have hopen : t.isTradable pair = e.isOpen t.missingStatus := by
      simp only [isTradable, hlookup, SymbolEntry.listing, SymbolEntry.isOpen]
      cases e.status <;> rfl
    rw [hopen]
    constructor
    · exact fun hisOpen => ⟨e, he, hpair, hisOpen⟩
    · rintro ⟨e', he', hpair', hisOpen⟩
      rwa [SymbolEntry.isOpen, honly e' he' hpair'] at hisOpen

/-- A table with the map of a consistent snapshot shows that snapshot. -/
theorem Shows.of_current (hcurrent : t.current = .ofEntries entries) (h : Consistent entries) :
    t.Shows entries where
  symbolOf_iff pair symbol := by
    rw [hcurrent]
    exact SymbolMap.symbolOf_eq_ok_iff h
  unknownPair pair hpair := by
    rw [hcurrent, SymbolMap.symbolOf, SymbolMap.ofPair?_ofEntries_eq_none_iff.mpr hpair]
  pairOf_iff symbol pair := by
    rw [hcurrent]
    exact SymbolMap.pairOf_eq_ok_iff h
  unknownSymbol symbol hsymbol := by
    rw [hcurrent, SymbolMap.pairOf, SymbolMap.ofSymbol?_ofEntries_eq_none_iff.mpr hsymbol]
  isTradable_iff _ := isTradable_eq_true_iff hcurrent h
  pairs_sorted := by
    rw [hcurrent]
    exact SymbolMap.pairwise_pairs h
  mem_pairs_iff pair := by
    rw [hcurrent]
    exact SymbolMap.mem_pairs_iff
  size_eq := by simp [hcurrent, SymbolMap.size, SymbolMap.ofEntries]
  isEmpty_eq := by simp [hcurrent, SymbolMap.isEmpty, SymbolMap.ofEntries]

/-! ## Histories -/

/-- A table that has a snapshot has the last accepted one afterwards, or still that one. -/
theorem refreshAll_ofEntries (present : List SymbolEntry) (missingStatus : MissingStatusPolicy)
    (snapshots : List (List SymbolEntry)) :
    refreshAll ⟨.ofEntries present, missingStatus⟩ snapshots =
      ⟨.ofEntries ((snapshots.filter fun entries => Consistent entries).getLastD present),
        missingStatus⟩ := by
  induction snapshots generalizing present with
  | nil => rfl
  | cons entries rest ih =>
    simp only [refreshAll, List.foldl_cons]
    by_cases h : Consistent entries
    · rw [refresh_of_consistent _ h, List.filter_cons_of_pos (by simpa using h),
        List.getLastD_cons]
      exact ih entries
    · obtain ⟨name, taken, new, hrefused⟩ := refresh_of_not_consistent _ h
      rw [hrefused, List.filter_cons_of_neg (by simpa using h)]
      exact ih present

theorem consistent_lastAccepted (snapshots : List (List SymbolEntry)) :
    Consistent (lastAccepted snapshots) := by
  unfold lastAccepted
  cases haccepted : (snapshots.filter fun entries => Consistent entries).getLast? with
  | none =>
    rw [List.getLastD_eq_getLast?, haccepted]
    exact SymbolEntry.consistent_nil
  | some entries =>
    rw [List.getLastD_eq_getLast?, haccepted]
    have hmem := List.mem_of_getLast? haccepted
    simpa using (List.mem_filter.mp hmem).2

theorem refreshAll_create (missingStatus : MissingStatusPolicy)
    (snapshots : List (List SymbolEntry)) :
    (create missingStatus).refreshAll snapshots =
      ⟨.ofEntries (lastAccepted snapshots), missingStatus⟩ :=
  refreshAll_ofEntries [] missingStatus snapshots

/-- **The last accepted snapshot answers every lookup.**  A snapshot has a map exactly if no pair and
no symbol occurs twice in it, and then pairs and symbols are translated into each other one to one;
a table takes it over, while any other snapshot leaves the table as it is.  So after any history of
refreshes a table is the one that the last accepted snapshot alone would have made of an empty
table, and shows what that snapshot lists, or nothing at all if there was none. -/
theorem shows_of_refreshes (entries : List SymbolEntry) (missingStatus : MissingStatusPolicy)
    (snapshots : List (List SymbolEntry)) :
    ((∃ m, SymbolMap.build entries = .ok m) ↔
      (entries.map SymbolEntry.pair).Nodup ∧ (entries.map SymbolEntry.symbol).Nodup) ∧
    (∀ m, SymbolMap.build entries = .ok m →
      (∀ pair symbol, m.symbolOf pair = .ok symbol ↔ m.pairOf symbol = .ok pair) ∧
      (∀ pair, (∃ symbol, m.symbolOf pair = .ok symbol) ↔
        pair ∈ entries.map SymbolEntry.pair) ∧
      (∀ symbol, (∃ pair, m.pairOf symbol = .ok pair) ↔
        symbol ∈ entries.map SymbolEntry.symbol) ∧
      ∀ e ∈ entries, m.symbolOf e.pair = .ok e.symbol) ∧
    (∀ t : SymbolTable,
      if Consistent entries then
        ∃ t' : SymbolTable, t.refresh entries = (t', .ok ()) ∧
          t'.missingStatus = t.missingStatus ∧ t'.Shows entries
      else ∃ name taken new, t.refresh entries = (t, .error (.symbolConflict name taken new))) ∧
    (create missingStatus).refreshAll snapshots =
      ((create missingStatus).refresh (lastAccepted snapshots)).1 ∧
    ((create missingStatus).refreshAll snapshots).missingStatus = missingStatus ∧
    ((create missingStatus).refreshAll snapshots).Shows (lastAccepted snapshots) := by
  have hlast := consistent_lastAccepted snapshots
  have hhistory := refreshAll_create missingStatus snapshots
  refine ⟨SymbolMap.build_isOk_iff, ?_, ?_, ?_, ?_, ?_⟩
  · intro m hm
    refine ⟨fun _ _ => SymbolMap.symbolOf_eq_ok_iff_pairOf hm,
      fun _ => SymbolMap.symbolOf_isOk_iff hm, fun _ => SymbolMap.pairOf_isOk_iff hm, ?_⟩
    intro e he
    obtain ⟨hconsistent, rfl⟩ := SymbolMap.build_eq_ok_iff.mp hm
    exact (SymbolMap.symbolOf_eq_ok_iff hconsistent).mpr ⟨e, he, rfl, rfl⟩
  · intro t
    split
    · rename_i hconsistent
      exact ⟨_, refresh_of_consistent t hconsistent, rfl, .of_current rfl hconsistent⟩
    · rename_i hcontradicts
      exact refresh_of_not_consistent t hcontradicts
  · rw [hhistory, refresh_of_consistent _ hlast]
    rfl
  · rw [hhistory]
  · exact .of_current (by rw [hhistory]) hlast

/-- Two symbols, of which one has no status. -/
def twoListed : List SymbolEntry :=
  [⟨"ETH/XLM", "ETH", "XLM", some "TRADING"⟩, ⟨"BTC/XLM", "BTC", "XLM", none⟩]

/-- Two symbols whose pairs are the same only once they are put together. -/
def sameOncePut : List SymbolEntry := [⟨"s1", "A-B", "C", none⟩, ⟨"s2", "A", "B-C", none⟩]

/-- The snapshot that contradicts itself is passed over, and the one before it stays in force. -/
theorem shows_twoListed : ∃ m, SymbolMap.build twoListed = .ok m ∧
    m.symbolOf "BTC-XLM" = .ok "BTC/XLM" ∧ m.pairOf "BTC/XLM" = .ok "BTC-XLM" ∧
    lastAccepted [twoListed, sameOncePut] = twoListed ∧
    ((create .assumeHalted).refreshAll [twoListed, sameOncePut]).Shows twoListed := by
  obtain ⟨hbuild, htranslates, _, _, _, hshows⟩ :=
    shows_of_refreshes twoListed .assumeHalted [twoListed, sameOncePut]
  have haccepted : lastAccepted [twoListed, sameOncePut] = twoListed := by decide +kernel
  obtain ⟨m, hm⟩ := hbuild.mpr (by decide +kernel)
  obtain ⟨hback, _, _, hlisted⟩ := htranslates m hm
  have hsymbol : m.symbolOf "BTC-XLM" = .ok "BTC/XLM" :=
    hlisted ⟨"BTC/XLM", "BTC", "XLM", none⟩ (List.mem_cons_of_mem _ List.mem_cons_self)
  exact ⟨m, hm, hsymbol, (hback _ _).mp hsymbol, haccepted, haccepted ▸ hshows⟩

end SpotGateway.SymbolTable
