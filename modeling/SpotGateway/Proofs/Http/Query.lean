import Mathlib.Data.List.TakeWhile
import SpotGateway.Http.Request
import SpotGateway.Proofs.Text.Digits

/-!
# Parameters as they are sent

Parameters are sent as they are: nothing stands in for the marks between them.  Without such marks in
them they are told by what is sent, and else they may be read otherwise.

* `Http.PlainParameters`, `Http.followingText_inj` — parameters without marks of their own;
* `Http.Request.toList_queryString`, `Http.Request.queryString_eq_empty_iff`,
  `Http.Request.query_of_queryString` — what is sent, and what it tells;
* `Http.Reader`, `Http.Reader.parameters` — who reads addresses, and the parameters in one;
* `Http.Reader.forms` — a reader to which a plus sign is a blank, and which resolves escapes;
* `Http.Reader.query_parameterText` — what is read of one parameter.
-/

set_option autoImplicit false

namespace SpotGateway.Http

/-- Text in which a mark does not occur has other characters only. -/
theorem bne_of_not_mem {mark : Char} {cs : List Char} (h : mark ∉ cs) :
    ∀ c ∈ cs, (c != mark) = true := by
  intro c hc
  rw [bne_iff_ne]
  rintro rfl
  exact h hc

/-- How a parameter is sent. -/
def parameterText (p : String × String) : List Char := p.1.toList ++ '=' :: p.2.toList

theorem isEmpty_parameterText (p : String × String) : (parameterText p).isEmpty = false := by
  simp [parameterText]

/-- How parameters are sent behind another one. -/
def followingText (ps : List (String × String)) : List Char :=
  ps.flatMap fun p => '&' :: parameterText p

theorem intercalate_parameterText (p : String × String) (ps : List (String × String)) :
    ['&'].intercalate ((p :: ps).map parameterText) = parameterText p ++ followingText ps := by
  induction ps generalizing p with
  | nil => simp [followingText]
  | cons next rest ih =>
    have hrest := ih next
    simp only [List.map_cons] at hrest ⊢
    simp only [List.intercalate_cons_cons, hrest, followingText, List.flatMap_cons]
    simp

theorem head_followingText (ps : List (String × String)) :
    ∀ c ∈ (followingText ps).head?, (c != '&') = false := by
  intro c hc
  cases ps with
  | nil => cases hc
  | cons p rest =>
    rw [followingText, List.flatMap_cons, List.cons_append, List.head?_cons,
      Option.mem_some_iff] at hc
    rw [← hc]
    rfl

/-- No name has an equals sign in it, and no value an ampersand. -/
def PlainParameters (ps : List (String × String)) : Prop :=
  ∀ p ∈ ps, '=' ∉ p.1.toList ∧ '&' ∉ p.2.toList

/-- A name ends at the first equals sign, and its value at the first ampersand behind that. -/
theorem followingText_inj {ps qs : List (String × String)} (hp : PlainParameters ps)
    (hq : PlainParameters qs) (h : followingText ps = followingText qs) : ps = qs := by
  induction ps generalizing qs with
  | nil =>
    cases qs with
    | nil => rfl
    | cons q qs => cases h
  | cons p ps ih =>
    cases qs with
    | nil => cases h
    | cons q qs =>
      obtain ⟨⟨hname, hvalue⟩, hps⟩ := List.forall_mem_cons.mp hp
      obtain ⟨⟨hname', hvalue'⟩, hqs⟩ := List.forall_mem_cons.mp hq
      simp only [followingText, List.flatMap_cons, parameterText, List.cons_append,
        List.append_assoc, List.cons.injEq, true_and] at h
      obtain ⟨hnames, hrest⟩ := Text.run_append_inj (bne_of_not_mem hname) (bne_of_not_mem hname')
        (by simp) (by simp) h
      obtain ⟨hvalues, hrest⟩ := Text.run_append_inj (bne_of_not_mem hvalue)
        (bne_of_not_mem hvalue') (head_followingText ps) (head_followingText qs)
        (List.cons.inj hrest).2
      rw [ih hps hqs hrest, Prod.ext (String.toList_inj.mp hnames) (String.toList_inj.mp hvalues)]

namespace Request

variable {r r' : Request}

theorem toList_queryString (r : Request) :
    r.queryString.toList = ['&'].intercalate (r.query.map parameterText) := by
  rw [queryString, String.toList_intercalate, List.map_map]
  congr 1
  refine List.map_congr_left fun p _ => ?_
  simp [parameterText]

/-- Nothing is sent exactly if there are no parameters. -/
theorem queryString_eq_empty_iff : r.queryString = "" ↔ r.query = [] := by
  rw [← String.toList_inj, toList_queryString]
  cases r.query with
  | nil => simp
  | cons p rest =>
    rw [intercalate_parameterText]
    simp [parameterText]

theorem followingText_query (h : r.query ≠ []) :
    followingText r.query = '&' :: r.queryString.toList := by
  obtain ⟨p, rest, hquery⟩ := List.exists_cons_of_ne_nil h
  rw [toList_queryString, hquery, intercalate_parameterText, followingText, List.flatMap_cons,
    List.cons_append]
  rfl

/-- Plain parameters are told by what is sent of them. -/
theorem query_of_queryString (h : PlainParameters r.query) (h' : PlainParameters r'.query)
    (hsame : r.queryString = r'.queryString) : r.query = r'.query := by
  by_cases hnone : r.query = []
  · rw [hnone, eq_comm, ← queryString_eq_empty_iff, ← hsame, queryString_eq_empty_iff, hnone]
  · have hnone' : r'.query ≠ [] := by
      rw [Ne, ← queryString_eq_empty_iff, ← hsame, queryString_eq_empty_iff]
      exact hnone
    refine followingText_inj h h' ?_
    rw [followingText_query hnone, followingText_query hnone', hsame]

end Request

/-! ## Readers -/

/-- Who reads addresses.  What stands between the marks of an address is decoded: letters and digits
stand for themselves, and nothing stands for more characters than it has. -/
structure Reader where
  decode : List Char → List Char
  decode_alphanumeric : ∀ cs, (∀ c ∈ cs, c.isAlphanum = true) → decode cs = cs
  length_decode_le : ∀ cs, (decode cs).length ≤ cs.length

/-- Text without escapes: a blank for a plus sign, and for a percent sign with two hexadecimal digits
behind it the character of this code, if it is below 128. -/
def unescape : List Char → List Char
  | [] => []
  | '+' :: cs => ' ' :: unescape cs
  | '%' :: a :: b :: cs =>
    match Text.hexDigit? a, Text.hexDigit? b with
    | some high, some low =>
      if high < 8 then Char.ofNat (16 * high + low) :: unescape cs
      else '%' :: unescape (a :: b :: cs)
    | _, _ => '%' :: unescape (a :: b :: cs)
  | c :: cs => c :: unescape cs

theorem length_unescape_le (cs : List Char) : (unescape cs).length ≤ cs.length := by
  fun_induction unescape cs <;> simp only [List.length_cons, List.length_nil] at * <;> omega

theorem unescape_alphanumeric (cs : List Char) (h : ∀ c ∈ cs, c.isAlphanum = true) :
    unescape cs = cs := by
  induction cs with
  | nil => rfl
  | cons c cs ih =>
    obtain ⟨hc, hcs⟩ := List.forall_mem_cons.mp h
    have hplus : c ≠ '+' := by
      rintro rfl
      exact absurd hc (by decide)
    have hpercent : c ≠ '%' := by
      rintro rfl
      exact absurd hc (by decide)
    rw [unescape.eq_4 c cs hplus fun a b rest hmark => absurd hmark hpercent, ih hcs]

namespace Reader

variable (reader : Reader)

/-- A parameter as it is read: the first equals sign parts its name from its value. -/
def parameter (cs : List Char) : String × String :=
  (String.ofList (reader.decode (cs.takeWhile fun c => c != '=')),
    String.ofList (reader.decode ((cs.dropWhile fun c => c != '=').drop 1)))

/-- The parameters of a query as they are read: ampersands part them, and where nothing stands
between two of these there is none. -/
def query (cs : List Char) : List (String × String) :=
  ((cs.splitOn '&').filter fun piece => !piece.isEmpty).map reader.parameter

/-- The parameters of an address as they are read: they begin behind the first question mark, and end
where the first hash sign is. -/
def parameters (address : String) : List (String × String) :=
  match (address.toList.takeWhile fun c => c != '#').dropWhile fun c => c != '?' with
  | [] => []
  | _ :: query => reader.query query

/-- A reader of what forms send. -/
def forms : Reader where
  decode := unescape
  decode_alphanumeric := unescape_alphanumeric
  length_decode_le := length_unescape_le

/-- The first equals sign behind a name without one ends it. -/
theorem parameter_parameterText {p : String × String} (h : '=' ∉ p.1.toList) :
    reader.parameter (parameterText p) =
      (String.ofList (reader.decode p.1.toList), String.ofList (reader.decode p.2.toList)) := by
  have hname := bne_of_not_mem h
  have htake : (parameterText p).takeWhile (fun c => c != '=') = p.1.toList := by
    rw [parameterText, List.takeWhile_append_of_pos hname]
    simp
  have hdrop : ((parameterText p).dropWhile fun c => c != '=').drop 1 = p.2.toList := by
    rw [parameterText, List.dropWhile_append_of_pos hname]
    simp
  rw [parameter, htake, hdrop]

/-- A mark is neither a letter nor a digit. -/
theorem not_mem_of_alphanumeric {cs : List Char} (h : ∀ c ∈ cs, c.isAlphanum = true) {mark : Char}
    (hmark : mark.isAlphanum = false) : mark ∉ cs := by
  intro hmem
  rw [h mark hmem] at hmark
  cases hmark

/-- What is read first of one parameter under a name of letters and digits is its value up to an
ampersand; without one, nothing else is read. -/
theorem query_parameterText {name : String} (hname : ∀ c ∈ name.toList, c.isAlphanum = true)
    (value : String) :
    (∃ rest, reader.query (parameterText (name, value)) = (name, String.ofList
        (reader.decode (value.toList.takeWhile fun c => c != '&'))) :: rest) ∧
      ('&' ∉ value.toList → reader.query (parameterText (name, value)) =
        [(name, String.ofList (reader.decode value.toList))]) := by
  have hampersand : '&' ∉ name.toList := not_mem_of_alphanumeric hname rfl
  have hread : ∀ value : String, reader.parameter (parameterText (name, value)) =
      (name, String.ofList (reader.decode value.toList)) := by
    intro value
    rw [reader.parameter_parameterText (not_mem_of_alphanumeric hname rfl),
      reader.decode_alphanumeric _ hname, String.ofList_toList]
  have hwhole : '&' ∉ value.toList → reader.query (parameterText (name, value)) =
      [(name, String.ofList (reader.decode value.toList))] := by
    intro hvalue
    have hplain : '&' ∉ parameterText (name, value) := by
      simp [parameterText, hampersand, hvalue]
    rw [query, List.splitOn_eq_singleton hplain, List.filter_cons, isEmpty_parameterText,
      Bool.not_false, if_pos rfl, List.filter_nil, List.map_singleton, hread]
  refine ⟨?_, hwhole⟩
  by_cases hmem : '&' ∈ value.toList
  · obtain ⟨before, after, hsplit, hbefore⟩ := List.eq_append_cons_of_mem hmem
    have htake : value.toList.takeWhile (fun c => c != '&') = before := by
      rw [hsplit, List.takeWhile_append_of_pos (bne_of_not_mem hbefore)]
      simp
    have htext : parameterText (name, value) =
        parameterText (name, String.ofList before) ++ '&' :: after := by
      simp [parameterText, hsplit]
    have hfirst : '&' ∉ parameterText (name, String.ofList before) := by
      simp [parameterText, hampersand, hbefore]
    rw [query, htext, List.splitOn_append_cons_self_of_not_mem hfirst, List.filter_cons,
      isEmpty_parameterText, Bool.not_false, if_pos rfl, List.map_cons, hread,
      String.toList_ofList, htake]
    exact ⟨_, rfl⟩
  · have htake : value.toList.takeWhile (fun c => c != '&') = value.toList :=
      List.takeWhile_eq_self_iff.mpr (bne_of_not_mem hmem)
    rw [hwhole hmem, htake]
    exact ⟨[], rfl⟩

end Reader

end SpotGateway.Http
