import Mathlib.Data.List.Sort
import SpotGateway.Http.Request

/-!
# Headers that are set

Headers are kept like a map by name, and names are told apart exactly there; to be set or looked up,
a name is the same in any case.  A header that is set takes the place of all of its name.

* `Text.sameIgnoringCase_comm`, `Text.sameIgnoringCase_congr` — names up to case;
* `Json.mem_insertMember`, `Json.pairwise_insertMember`, `Json.filter_insertMember` — a member that is
  put in its place;
* `Http.Request.Ordered`, `Http.Request.eq_of_pairwise_lt` — headers sorted by name, each name once;
* `Http.Request.setHeaders` — headers set one after another;
* `Http.Request.mem_setHeaders`, `Http.Request.filter_setHeaders`, `Http.Request.header?_setHeaders`,
  `Http.Request.header?_setHeaders_of_besides` — which headers there are then, and what is found;
* `Http.Request.setHeaders_setHeaders` — headers that are set twice.
-/

set_option autoImplicit false

namespace SpotGateway

namespace Text

theorem sameIgnoringCase_comm (a b : String) : sameIgnoringCase a b = sameIgnoringCase b a := by
  rw [Bool.eq_iff_iff, sameIgnoringCase_iff, sameIgnoringCase_iff, eq_comm]

/-- Names that are the same are the same as the same names. -/
theorem sameIgnoringCase_congr {a b : String} (h : sameIgnoringCase a b = true) (c : String) :
    sameIgnoringCase c a = sameIgnoringCase c b := by
  rw [Bool.eq_iff_iff, sameIgnoringCase_iff, sameIgnoringCase_iff, sameIgnoringCase_iff.mp h]

end Text

namespace Json

variable {α : Type} {key : String} {value : α} {members : List (String × α)}

/-- What is there is there from before, or it is the member that was put in. -/
theorem of_mem_insertMember {m : String × α} (h : m ∈ insertMember key value members) :
    m = (key, value) ∨ m ∈ members := by
  induction members with
  | nil => exact Or.inl (List.mem_singleton.mp h)
  | cons first rest ih =>
    obtain ⟨k, v⟩ := first
    unfold insertMember at h
    split at h
    · exact List.mem_cons.mp h
    · split at h
      · exact (List.mem_cons.mp h).imp id (List.mem_cons_of_mem _)
      · rcases List.mem_cons.mp h with rfl | h
        · exact Or.inr List.mem_cons_self
        · exact (ih h).imp id (List.mem_cons_of_mem _)

/-- A member with a new key is there besides the others. -/
theorem mem_insertMember (hnew : ∀ m ∈ members, m.1 ≠ key) {m : String × α} :
    m ∈ insertMember key value members ↔ m = (key, value) ∨ m ∈ members := by
  induction members with
  | nil => simp [insertMember]
  | cons first rest ih =>
    obtain ⟨k, v⟩ := first
    have hrest := ih fun m hm => hnew m (List.mem_cons_of_mem _ hm)
    have hk : key ≠ k := (hnew (k, v) List.mem_cons_self).symm
    simp only [insertMember, hk, if_false]
    split
    · exact List.mem_cons
    · rw [List.mem_cons, hrest, List.mem_cons, or_left_comm]

/-- Among the others a member with a new key does not show. -/
theorem filter_insertMember (hnew : ∀ m ∈ members, m.1 ≠ key) {p : String × α → Bool}
    (hp : p (key, value) = false) : (insertMember key value members).filter p = members.filter p := by
  induction members with
  | nil => simp [insertMember, hp]
  | cons first rest ih =>
    obtain ⟨k, v⟩ := first
    have hrest := ih fun m hm => hnew m (List.mem_cons_of_mem _ hm)
    have hk : key ≠ k := (hnew (k, v) List.mem_cons_self).symm
    simp only [insertMember, hk, if_false]
    split
    · rw [List.filter_cons_of_neg (by simp [hp])]
    · rw [List.filter_cons, List.filter_cons, hrest]

/-- Members that are sorted by key stay so. -/
theorem pairwise_insertMember (h : members.Pairwise fun m m' => m.1 < m'.1) :
    (insertMember key value members).Pairwise fun m m' => m.1 < m'.1 := by
  induction members with
  | nil => exact List.pairwise_singleton _ _
  | cons first rest ih =>
    obtain ⟨k, v⟩ := first
    obtain ⟨hfirst, hrest⟩ := List.pairwise_cons.mp h
    unfold insertMember
    split
    · rename_i hlt
      refine List.pairwise_cons.mpr ⟨fun m hm => ?_, h⟩
      rcases List.mem_cons.mp hm with rfl | hm
      · exact hlt
      · exact String.lt_trans hlt (hfirst m hm)
    · rename_i hnot
      split
      · rename_i heq
        subst heq
        exact List.pairwise_cons.mpr ⟨hfirst, hrest⟩
      · rename_i hne
        have hgt : k < key := String.not_le.mp fun hle =>
          hne (String.le_antisymm hle (String.not_lt.mp hnot))
        refine List.pairwise_cons.mpr ⟨fun m hm => ?_, ih hrest⟩
        rcases of_mem_insertMember hm with rfl | hm
        · exact hgt
        · exact hfirst m hm

end Json

namespace Http.Request

variable {r r' : Request} {name value : String} {hs : List (String × String)}

/-! ## Headers in order -/

/-- Headers are sorted by name, and each name is there once. -/
def Ordered (r : Request) : Prop := r.headers.Pairwise fun h h' => h.1 < h'.1

instance (r : Request) : Decidable r.Ordered :=
  inferInstanceAs (Decidable (r.headers.Pairwise fun h h' => h.1 < h'.1))

/-- Lists in order are the same if they have the same entries. -/
theorem eq_of_pairwise_lt {xs ys : List (String × String)}
    (hx : xs.Pairwise fun h h' => h.1 < h'.1) (hy : ys.Pairwise fun h h' => h.1 < h'.1)
    (hmem : ∀ h, h ∈ xs ↔ h ∈ ys) : xs = ys := by
  have : Std.Irrefl fun h h' : String × String => h.1 < h'.1 := ⟨fun h => String.lt_irrefl h.1⟩
  have : Std.Antisymm fun h h' : String × String => h.1 < h'.1 :=
    ⟨fun h h' hlt hgt => absurd (String.lt_trans hlt hgt) (String.lt_irrefl h.1)⟩
  exact hx.eq_of_mem_iff hy hmem

theorem Ordered.filter (h : r.Ordered) (p : String × String → Bool) :
    (r.headers.filter p).Pairwise fun h h' => h.1 < h'.1 :=
  List.Pairwise.filter p h

/-! ## One header -/

/-- A header that is set is there, and of the others those whose name is another. -/
theorem mem_setHeader {h : String × String} : h ∈ (r.setHeader name value).headers ↔
    h = (name, value) ∨ h ∈ r.headers ∧ Text.sameIgnoringCase h.1 name = false := by
  have hnew : ∀ h ∈ r.headers.filter (fun h => !Text.sameIgnoringCase h.1 name), h.1 ≠ name := by
    rintro h hmem rfl
    simp [Text.sameIgnoringCase_refl] at hmem
  simp only [setHeader, Json.mem_insertMember hnew, List.mem_filter, Bool.not_eq_true']

theorem Ordered.setHeader (h : r.Ordered) (name value : String) :
    (r.setHeader name value).Ordered :=
  Json.pairwise_insertMember (h.filter _)

/-- Headers of another name do not notice. -/
theorem filter_setHeader {other : String} (hother : Text.sameIgnoringCase name other = false) :
    (r.setHeader name value).headers.filter (fun h => Text.sameIgnoringCase h.1 other) =
      r.headers.filter fun h => Text.sameIgnoringCase h.1 other := by
  have hnew : ∀ h ∈ r.headers.filter (fun h => !Text.sameIgnoringCase h.1 name), h.1 ≠ name := by
    rintro h hmem rfl
    simp [Text.sameIgnoringCase_refl] at hmem
  rw [setHeader, Json.filter_insertMember hnew hother, List.filter_filter]
  refine List.filter_congr fun h _ => ?_
  cases hsame : Text.sameIgnoringCase h.1 other with
  | false => rfl
  | true =>
    have hdiffers : Text.sameIgnoringCase h.1 name = false := by
      rw [Text.sameIgnoringCase_comm, Text.sameIgnoringCase_congr hsame, hother]
    simp [hdiffers]

/-! ## One header after another -/

/-- With headers in the place of all of their names, in any case. -/
def setHeaders (r : Request) (hs : List (String × String)) : Request :=
  hs.foldl (fun r h => r.setHeader h.1 h.2) r

/-- No two of the names are the same, in any case. -/
def NamesApart (hs : List (String × String)) : Prop :=
  hs.Pairwise fun h h' => Text.sameIgnoringCase h.1 h'.1 = false

instance (hs : List (String × String)) : Decidable (NamesApart hs) :=
  inferInstanceAs (Decidable (hs.Pairwise fun h h' => Text.sameIgnoringCase h.1 h'.1 = false))

/-- The header is none of those, in any case. -/
def Besides (hs : List (String × String)) (name : String) : Prop :=
  ∀ h ∈ hs, Text.sameIgnoringCase h.1 name = false

theorem besides_cons {h : String × String} :
    Besides (h :: hs) name ↔ Text.sameIgnoringCase h.1 name = false ∧ Besides hs name := by
  rw [Besides, List.forall_mem_cons]
  rfl

/-- Nothing else of a request is changed. -/
theorem setHeaders_eq (r : Request) (hs : List (String × String)) :
    ∃ headers, r.setHeaders hs = { r with headers } := by
  induction hs generalizing r with
  | nil => exact ⟨r.headers, rfl⟩
  | cons h rest ih =>
    obtain ⟨headers, hrest⟩ := ih (r.setHeader h.1 h.2)
    exact ⟨headers, hrest⟩

theorem Ordered.setHeaders (h : r.Ordered) (hs : List (String × String)) :
    (r.setHeaders hs).Ordered := by
  induction hs generalizing r with
  | nil => exact h
  | cons first rest ih => exact ih (h.setHeader first.1 first.2)

/-- Headers that are set are there, and of the others those whose names are others. -/
theorem mem_setHeaders (hapart : NamesApart hs) {h : String × String} :
    h ∈ (r.setHeaders hs).headers ↔ h ∈ hs ∨ h ∈ r.headers ∧ Besides hs h.1 := by
  induction hs generalizing r with
  | nil => simp [setHeaders, Besides]
  | cons first rest ih =>
    obtain ⟨hfirst, hrest⟩ := List.pairwise_cons.mp hapart
    have hstep : (r.setHeaders (first :: rest)).headers =
        ((r.setHeader first.1 first.2).setHeaders rest).headers := rfl
    rw [hstep, ih hrest, mem_setHeader, List.mem_cons, besides_cons,
      Text.sameIgnoringCase_comm first.1]
    constructor
    · rintro (hmem | ⟨rfl | ⟨hmem, hdiffers⟩, hbesides⟩)
      · exact Or.inl (Or.inr hmem)
      · exact Or.inl (Or.inl rfl)
      · exact Or.inr ⟨hmem, hdiffers, hbesides⟩
    · rintro ((rfl | hmem) | ⟨hmem, hdiffers, hbesides⟩)
      · refine Or.inr ⟨Or.inl rfl, fun h' hmem' => ?_⟩
        rw [Text.sameIgnoringCase_comm, hfirst h' hmem']
      · exact Or.inl hmem
      · exact Or.inr ⟨Or.inr ⟨hmem, hdiffers⟩, hbesides⟩

/-- Of two headers that are set and have the same name there is only one. -/
theorem NamesApart.eq_of_same (hapart : NamesApart hs) {h h' : String × String} (hmem : h ∈ hs)
    (hmem' : h' ∈ hs) (hsame : Text.sameIgnoringCase h.1 h'.1 = true) : h = h' := by
  induction hs with
  | nil => cases hmem
  | cons first rest ih =>
    obtain ⟨hfirst, hrest⟩ := List.pairwise_cons.mp hapart
    rcases List.mem_cons.mp hmem with rfl | hlater
    · rcases List.mem_cons.mp hmem' with rfl | hlater'
      · rfl
      · rw [hfirst h' hlater'] at hsame
        cases hsame
    · rcases List.mem_cons.mp hmem' with rfl | hlater'
      · rw [Text.sameIgnoringCase_comm, hfirst h hlater] at hsame
        cases hsame
      · exact ih hrest hlater hlater'

/-- A header that is set is the only one of its name, in any case. -/
theorem filter_setHeaders (hr : r.Ordered) (hapart : NamesApart hs) {h : String × String}
    (hmem : h ∈ hs) :
    (r.setHeaders hs).headers.filter (fun h' => Text.sameIgnoringCase h'.1 h.1) = [h] := by
  refine eq_of_pairwise_lt ((hr.setHeaders hs).filter _) (List.pairwise_singleton _ _) fun h' => ?_
  rw [List.mem_filter, mem_setHeaders hapart, List.mem_singleton]
  constructor
  · rintro ⟨hset | ⟨_, hbesides⟩, hsame⟩
    · exact hapart.eq_of_same hset hmem hsame
    · rw [Text.sameIgnoringCase_comm, hbesides h hmem] at hsame
      cases hsame
  · rintro rfl
    exact ⟨Or.inl hmem, Text.sameIgnoringCase_refl h'.1⟩

theorem header?_eq (r : Request) (name : String) :
    r.header? name =
      (r.headers.filter fun h => Text.sameIgnoringCase h.1 name).head?.map Prod.snd := by
  rw [header?, List.head?_filter]

/-- A header that is set is found by its name, in any case. -/
theorem header?_setHeaders (hr : r.Ordered) (hapart : NamesApart hs) {h : String × String}
    (hmem : h ∈ hs) (hname : Text.sameIgnoringCase name h.1 = true) :
    (r.setHeaders hs).header? name = some h.2 := by
  have honly := filter_setHeaders hr hapart hmem
  simp only [← Text.sameIgnoringCase_congr hname] at honly
  rw [header?_eq, honly]
  rfl

/-- What is found by another name is what was found before. -/
theorem header?_setHeaders_of_besides (hbesides : Besides hs name) :
    (r.setHeaders hs).header? name = r.header? name := by
  induction hs generalizing r with
  | nil => rfl
  | cons first rest ih =>
    obtain ⟨hfirst, hrest⟩ := besides_cons.mp hbesides
    have hstep : (r.setHeader first.1 first.2).header? name = r.header? name := by
      rw [header?_eq, header?_eq, filter_setHeader hfirst]
    exact (ih hrest).trans hstep

/-- To set the same headers once more changes nothing. -/
theorem setHeaders_setHeaders (hr : r.Ordered) (hapart : NamesApart hs) :
    (r.setHeaders hs).setHeaders hs = r.setHeaders hs := by
  obtain ⟨headers, htwice⟩ := setHeaders_eq (r.setHeaders hs) hs
  have hsame : headers = (r.setHeaders hs).headers := by
    have hordered := (hr.setHeaders hs).setHeaders hs
    have hmem := fun h => mem_setHeaders (r := r.setHeaders hs) hapart (h := h)
    rw [htwice] at hordered
    simp only [htwice] at hmem
    refine eq_of_pairwise_lt hordered (hr.setHeaders hs) fun h => ?_
    rw [hmem, mem_setHeaders hapart]
    constructor
    · rintro (hset | ⟨hthere, _⟩)
      · exact Or.inl hset
      · exact hthere
    · rintro (hset | ⟨hthere, hbesides⟩)
      · exact Or.inl hset
      · exact Or.inr ⟨Or.inr ⟨hthere, hbesides⟩, hbesides⟩
  rw [htwice, hsame]

end Http.Request

end SpotGateway
