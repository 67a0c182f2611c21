import SpotGateway.Proofs.Http.Query
import SpotGateway.Proofs.Text.Digits

/-!
# Requests and their addresses

Paths and parameters go into an address as they are.  Among requests without marks of their own the
address tells path and parameters; one parameter is read back from it exactly if its value has no
mark in it at which a reader would stop, and stands for itself where it is decoded.

* `Http.Request.Plain` — requests without marks of their own;
* `Http.Request.toList_address` — the parts of an address;
* `Http.Request.address_eq_iff` — what an address tells;
* `Http.Request.parameters_address_iff` — one parameter in an address.
-/

set_option autoImplicit false

namespace SpotGateway.Http

theorem mem_of_mem_baseAddress {url : String} {c : Char} (h : c ∈ (baseAddress url).toList) :
    c ∈ url.toList := by
  rw [baseAddress, String.toList_ofList, List.mem_reverse] at h
  exact List.mem_reverse.mp ((List.dropWhile_sublist _).mem h)

theorem mem_of_mem_relativePath {path : String} {c : Char} (h : c ∈ (relativePath path).toList) :
    c ∈ path.toList := by
  rw [relativePath, String.toList_ofList] at h
  exact (List.dropWhile_sublist _).mem h

namespace Request

variable {r r' : Request} {base : String}

/-- The path has no question mark in it, no name of a parameter an equals sign, and no value an
ampersand. -/
structure Plain (r : Request) : Prop where
  path : '?' ∉ r.path.toList
  query : PlainParameters r.query

/-- How the parameters are put behind the path. -/
def suffix (r : Request) : List Char :=
  if r.query = [] then [] else '?' :: r.queryString.toList

theorem head_suffix (r : Request) : ∀ c ∈ r.suffix.head?, (c != '?') = false := by
  intro c hc
  unfold suffix at hc
  split at hc
  · cases hc
  · rw [List.head?_cons, Option.mem_some_iff] at hc
    rw [← hc]
    rfl

theorem drop_suffix (r : Request) : r.suffix.drop 1 = r.queryString.toList := by
  unfold suffix
  split
  · rename_i hnone
    rw [queryString_eq_empty_iff.mpr hnone]
    rfl
  · rfl

theorem toList_address (r : Request) (base : String) : (r.address base).toList =
    (baseAddress base).toList ++ '/' :: ((relativePath r.path).toList ++ r.suffix) := by
  have hsuffix : (if r.queryString = "" then "" else "?" ++ r.queryString).toList = r.suffix := by
    unfold suffix
    simp only [queryString_eq_empty_iff]
    split
    · rfl
    · simp
  rw [address, String.toList_append, hsuffix]
  simp

/-- Plain requests have the same address exactly if path and parameters are the same, but for slashes
in front of the path. -/
theorem address_eq_iff (h : r.Plain) (h' : r'.Plain) : r.address base = r'.address base ↔
    relativePath r.path = relativePath r'.path ∧ r.query = r'.query := by
  constructor
  · intro hsame
    have hrest : (relativePath r.path).toList ++ r.suffix =
        (relativePath r'.path).toList ++ r'.suffix := by
      have htext := congrArg String.toList hsame
      rw [toList_address, toList_address] at htext
      exact (List.cons.inj (List.append_cancel_left htext)).2
    have hpath : ∀ {r : Request}, r.Plain →
        ∀ c ∈ (relativePath r.path).toList, (c != '?') = true :=
      fun h => bne_of_not_mem fun hmem => h.path (mem_of_mem_relativePath hmem)
    -- the parameters begin at the first question mark
    obtain ⟨hpaths, hsuffixes⟩ := Text.run_append_inj (hpath h) (hpath h') r.head_suffix
      r'.head_suffix hrest
    have hqueries : r.queryString = r'.queryString := by
      rw [← String.toList_inj, ← drop_suffix, ← drop_suffix, hsuffixes]
    exact ⟨String.toList_inj.mp hpaths, query_of_queryString h.query h'.query hqueries⟩
  · rintro ⟨hpath, hquery⟩
    rw [address, address, hpath, queryString, queryString, hquery]

/-- Of the parameters a reader sees what stands ahead of a hash sign. -/
theorem parameters_address (reader : Reader) (hbase : '?' ∉ base.toList ∧ '#' ∉ base.toList)
    (hpath : '?' ∉ r.path.toList ∧ '#' ∉ r.path.toList) (hsome : r.query ≠ []) :
    reader.parameters (r.address base) =
      reader.query (r.queryString.toList.takeWhile fun c => c != '#') := by
  have hfront : ∀ mark, mark ∉ base.toList → mark ∉ r.path.toList → mark ≠ '/' →
      mark ∉ (baseAddress base).toList ++ '/' :: (relativePath r.path).toList := by
    intro mark hbase hpath hslash hmem
    rcases List.mem_append.mp hmem with hmem | hmem
    · exact hbase (mem_of_mem_baseAddress hmem)
    · rcases List.mem_cons.mp hmem with hmem | hmem
      · exact hslash hmem
      · exact hpath (mem_of_mem_relativePath hmem)
  have hquestion := bne_of_not_mem (hfront '?' hbase.1 hpath.1 (by decide))
  have hhash := bne_of_not_mem (hfront '#' hbase.2 hpath.2 (by decide))
  have htext : (r.address base).toList =
      ((baseAddress base).toList ++ '/' :: (relativePath r.path).toList) ++
        '?' :: r.queryString.toList := by
    rw [toList_address, suffix, if_neg hsome]
    simp
  have hcut : ((r.address base).toList.takeWhile fun c => c != '#').dropWhile (fun c => c != '?') =
      '?' :: r.queryString.toList.takeWhile fun c => c != '#' := by
    rw [htext, List.takeWhile_append_of_pos hhash, List.dropWhile_append_of_pos hquestion,
      List.takeWhile_cons_of_pos (by decide), List.dropWhile_cons_of_neg (by decide)]
  rw [Reader.parameters, hcut]

/-- One parameter under a name of letters and digits is read back from an address exactly if its value
has neither an ampersand nor a hash sign in it and stands for itself. -/
theorem parameters_address_iff (reader : Reader) {name value : String}
    (hbase : '?' ∉ base.toList ∧ '#' ∉ base.toList)
    (hpath : '?' ∉ r.path.toList ∧ '#' ∉ r.path.toList)
    (hname : ∀ c ∈ name.toList, c.isAlphanum = true) (hquery : r.query = [(name, value)]) :
    reader.parameters (r.address base) = [(name, value)] ↔
      '&' ∉ value.toList ∧ '#' ∉ value.toList ∧ reader.decode value.toList = value.toList := by
  have hhash : '#' ∉ name.toList := Reader.not_mem_of_alphanumeric hname rfl
  have hsent : r.queryString.toList.takeWhile (fun c => c != '#') =
      parameterText (name, String.ofList (value.toList.takeWhile fun c => c != '#')) := by
    rw [toList_queryString, hquery, List.map_singleton]
    simp only [List.intercalate_singleton, parameterText, String.toList_ofList]
    rw [List.takeWhile_append_of_pos (bne_of_not_mem hhash), List.takeWhile_cons_of_pos (by decide)]
  rw [parameters_address reader hbase hpath (by simp [hquery]), hsent]
  obtain ⟨⟨rest, hfirst⟩, hwhole⟩ := reader.query_parameterText hname
    (String.ofList (value.toList.takeWhile fun c => c != '#'))
  simp only [String.toList_ofList] at hfirst hwhole
  constructor
  · intro hread
    rw [hfirst, List.cons.injEq, Prod.mk.injEq] at hread
    have hvalue := congrArg String.toList hread.1.2
    rw [String.toList_ofList] at hvalue
    -- what is decoded is no shorter than the value, so that nothing of the value was cut off
    have hlength := reader.length_decode_le
      ((value.toList.takeWhile fun c => c != '#').takeWhile fun c => c != '&')
    rw [hvalue] at hlength
    have hkept := ((List.takeWhile_sublist _).trans
      (List.takeWhile_sublist fun c => c != '#')).eq_of_length_le hlength
    rw [hkept] at hvalue
    refine ⟨fun hmem => ?_, fun hmem => ?_, hvalue⟩
    · have := List.mem_takeWhile_imp (hkept.symm ▸ hmem)
      simp at this
    · have hmem' := (List.takeWhile_sublist _).mem (hkept.symm ▸ hmem)
      have := List.mem_takeWhile_imp hmem'
      simp at this
  · rintro ⟨hvalue, hvalue', hdecode⟩
    have htake : value.toList.takeWhile (fun c => c != '#') = value.toList :=
      List.takeWhile_eq_self_iff.mpr (bne_of_not_mem hvalue')
    rw [htake, String.ofList_toList] at hwhole ⊢
    rw [hwhole hvalue, hdecode, String.ofList_toList]

end Request

end SpotGateway.Http
