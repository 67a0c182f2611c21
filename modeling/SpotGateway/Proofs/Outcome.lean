import SpotGateway.Fault

/-!
# Outcomes

Reading a chain of steps backwards: each step of a successful one was successful too, and one that
failed did so at one of its steps.

* `bind_eq_ok`, `bind_eq_error` — two steps, and which of them failed;
* `toOption_eq_some_iff` — the value alone;
* `Matched`, `Compatible` — two outcomes that are alike, and two that are alike if both are values,
  with `Matched.bind` and `Compatible.bind`, which say so step by step;
* `mapM_eq_ok_iff`, `mapM_eq_error`, `forM_eq_ok_iff` — a step for each entry of a list;
* `foldlM_invariant`, `foldlM_along`, `foldlM_congr`, `foldlM_fixed`, `foldlM_isOk`,
  `foldlM_eq_error` — a chain along a list: what it keeps, what it knows of the entries it has
  passed, what it depends on, that it stays where it is, that it succeeds, and where it fails.
-/

set_option autoImplicit false

namespace SpotGateway

section

variable {ε α β : Type}

theorem bind_eq_ok {x : Except ε α} {f : α → Except ε β} {b : β} :
    (x >>= f) = .ok b ↔ ∃ a, x = .ok a ∧ f a = .ok b := by
  cases x <;> simp [bind, Except.bind]

theorem bind_eq_error {x : Except ε α} {f : α → Except ε β} {e : ε} :
    (x >>= f) = .error e ↔ x = .error e ∨ ∃ a, x = .ok a ∧ f a = .error e := by
  cases x <;> simp [bind, Except.bind]

theorem bind_isOk {x : Except ε α} {f : α → Except ε β} (hx : ∃ a, x = .ok a)
    (hf : ∀ a, ∃ b, f a = .ok b) : ∃ b, (x >>= f) = .ok b := by
  obtain ⟨a, rfl⟩ := hx
  exact hf a

theorem pure_eq_ok {a b : α} : (pure a : Except ε α) = .ok b ↔ a = b := by
  simp [pure, Except.pure]

theorem toOption_eq_some_iff {x : Except ε α} {a : α} : x.toOption = some a ↔ x = .ok a := by
  cases x <;> simp [Except.toOption]

/-- Both outcomes are values, which `R` relates, or both are the same error. -/
inductive Matched {ε α β : Type} (R : α → β → Prop) : Except ε α → Except ε β → Prop where
  | ok {a : α} {b : β} (related : R a b) : Matched R (.ok a) (.ok b)
  | error (e : ε) : Matched R (.error e) (.error e)

theorem Matched.refl {R : α → α → Prop} (hR : ∀ a, R a a) (x : Except ε α) : Matched R x x := by
  cases x with
  | ok a => exact .ok (hR a)
  | error e => exact .error e

theorem Matched.bind {α' β' : Type} {R : α → β → Prop} {S : α' → β' → Prop} {x : Except ε α}
    {y : Except ε β} {f : α → Except ε α'} {g : β → Except ε β'} (h : Matched R x y)
    (hnext : ∀ a b, R a b → Matched S (f a) (g b)) : Matched S (x >>= f) (y >>= g) := by
  cases h with
  | ok related => exact hnext _ _ related
  | error e => exact .error e

/-- If both outcomes are values, `R` relates them. -/
def Compatible {ε α β : Type} (R : α → β → Prop) (x : Except ε α) (y : Except ε β) : Prop :=
  ∀ a b, x = .ok a → y = .ok b → R a b

theorem Compatible.ok {R : α → β → Prop} {a : α} {b : β} (h : R a b) :
    Compatible R (.ok a : Except ε α) (.ok b) := by
  intro a' b' ha hb
  cases ha
  cases hb
  exact h

theorem Compatible.refl {R : α → α → Prop} (hR : ∀ a, R a a) (x : Except ε α) :
    Compatible R x x := by
  intro a b ha hb
  rw [ha] at hb
  cases hb
  exact hR a

theorem Compatible.bind {α' β' : Type} {R : α → β → Prop} {S : α' → β' → Prop} {x : Except ε α}
    {y : Except ε β} {f : α → Except ε α'} {g : β → Except ε β'} (h : Compatible R x y)
    (hnext : ∀ a b, R a b → Compatible S (f a) (g b)) : Compatible S (x >>= f) (y >>= g) := by
  intro a' b' hx hy
  obtain ⟨a, ha, hx⟩ := bind_eq_ok.mp hx
  obtain ⟨b, hb, hy⟩ := bind_eq_ok.mp hy
  exact hnext a b (h a b ha hb) a' b' hx hy

/-- The results are those of the entries, one by one. -/
theorem mapM_eq_ok_iff {f : α → Except ε β} {xs : List α} {ys : List β} :
    xs.mapM f = .ok ys ↔ xs.map f = ys.map .ok := by
  induction xs generalizing ys with
  | nil =>
    rw [List.mapM_nil, pure_eq_ok, List.map_nil, eq_comm, eq_comm (b := ys.map _),
      List.map_eq_nil_iff]
  | cons x rest ih =>
    rw [List.mapM_cons, bind_eq_ok, List.map_cons, eq_comm (b := ys.map _), List.map_eq_cons_iff]
    constructor
    · rintro ⟨y, hy, h⟩
      obtain ⟨zs, hzs, h⟩ := bind_eq_ok.mp h
      rw [pure_eq_ok] at h
      exact ⟨y, zs, h.symm, hy.symm, (ih.mp hzs).symm⟩
    · rintro ⟨y, zs, rfl, hy, hzs⟩
      refine ⟨y, hy.symm, ?_⟩
      rw [ih.mpr hzs.symm]
      rfl

theorem mapM_isOk {f : α → Except ε β} {xs : List α} (h : ∀ x ∈ xs, ∃ y, f x = .ok y) :
    ∃ ys, xs.mapM f = .ok ys := by
  induction xs with
  | nil => exact ⟨[], rfl⟩
  | cons x rest ih =>
    obtain ⟨y, hy⟩ := h x List.mem_cons_self
    obtain ⟨ys, hys⟩ := ih fun z hz => h z (List.mem_cons_of_mem _ hz)
    exact ⟨y :: ys, by rw [List.mapM_cons, hy, hys]; rfl⟩

/-- Where it fails, it fails for one of the entries. -/
theorem mapM_eq_error {f : α → Except ε β} {xs : List α} {e : ε} (h : xs.mapM f = .error e) :
    ∃ x ∈ xs, f x = .error e := by
  induction xs with
  | nil => cases h
  | cons x rest ih =>
    rw [List.mapM_cons, bind_eq_error] at h
    rcases h with h | ⟨y, -, h⟩
    · exact ⟨x, List.mem_cons_self, h⟩
    · rcases bind_eq_error.mp h with h | ⟨ys, -, h⟩
      · obtain ⟨z, hz, hfails⟩ := ih h
        exact ⟨z, List.mem_cons_of_mem _ hz, hfails⟩
      · cases h

theorem forM_eq_ok_iff {f : α → Except ε Unit} {xs : List α} :
    xs.forM f = .ok () ↔ ∀ x ∈ xs, f x = .ok () := by
  induction xs with
  | nil => simp [pure, Except.pure]
  | cons x rest ih =>
    have hcons : (x :: rest).forM f = (f x >>= fun _ => rest.forM f) := rfl
    rw [hcons, bind_eq_ok, List.forall_mem_cons, ← ih]
    exact ⟨fun ⟨_, hx, hrest⟩ => ⟨hx, hrest⟩, fun ⟨hx, hrest⟩ => ⟨(), hx, hrest⟩⟩

/-- What every step keeps, the chain keeps. -/
theorem foldlM_invariant {f : β → α → Except ε β} (P : β → Prop) {xs : List α}
    (hstep : ∀ b x c, P b → f b x = .ok c → P c) {b c : β} (hb : P b)
    (h : xs.foldlM f b = .ok c) : P c := by
  induction xs generalizing b with
  | nil =>
    rw [List.foldlM_nil, pure_eq_ok] at h
    exact h ▸ hb
  | cons x rest ih =>
    rw [List.foldlM_cons, bind_eq_ok] at h
    obtain ⟨d, hd, h⟩ := h
    exact ih (hstep b x d hb hd) h

/-- What is known of the entries passed so far is known of all of them in the end. -/
theorem foldlM_along {f : β → α → Except ε β} (I : List α → β → Prop) {xs : List α} {b c : β}
    (hstart : I [] b)
    (hstep : ∀ seen x rest d d', xs = seen ++ x :: rest → I seen d → f d x = .ok d' →
      I (seen ++ [x]) d')
    (h : xs.foldlM f b = .ok c) : I xs c := by
  suffices ∀ (rest seen : List α) (d : β), xs = seen ++ rest → I seen d → rest.foldlM f d = .ok c →
      I xs c from this xs [] b rfl hstart h
  intro rest
  induction rest with
  | nil =>
    intro seen d hxs hd hfold
    rw [List.foldlM_nil, pure_eq_ok] at hfold
    rw [hxs, List.append_nil, ← hfold]
    exact hd
  | cons x rest ih =>
    intro seen d hxs hd hfold
    rw [List.foldlM_cons, bind_eq_ok] at hfold
    obtain ⟨d', hd', hfold⟩ := hfold
    exact ih (seen ++ [x]) d' (by simp [hxs]) (hstep seen x rest d d' hxs hd hd') hfold

/-- Chains are alike if each of their steps is. -/
theorem foldlM_congr {f g : β → α → Except ε β} {xs : List α} (h : ∀ x ∈ xs, ∀ b, f b x = g b x)
    {b : β} : xs.foldlM f b = xs.foldlM g b := by
  induction xs generalizing b with
  | nil => rfl
  | cons x rest ih =>
    rw [List.foldlM_cons, List.foldlM_cons, h x List.mem_cons_self]
    congr 1
    funext c
    exact ih fun y hy => h y (List.mem_cons_of_mem _ hy)

/-- A chain none of whose steps moves stays where it is. -/
theorem foldlM_fixed {f : β → α → Except ε β} {xs : List α} {b : β}
    (h : ∀ x ∈ xs, f b x = .ok b) : xs.foldlM f b = .ok b := by
  induction xs with
  | nil => rfl
  | cons x rest ih =>
    rw [List.foldlM_cons, h x List.mem_cons_self]
    exact ih fun y hy => h y (List.mem_cons_of_mem _ hy)

theorem foldlM_isOk {f : β → α → Except ε β} {xs : List α}
    (h : ∀ x ∈ xs, ∀ b, ∃ c, f b x = .ok c) (b : β) : ∃ c, xs.foldlM f b = .ok c := by
  induction xs generalizing b with
  | nil => exact ⟨b, rfl⟩
  | cons x rest ih =>
    obtain ⟨c, hc⟩ := h x List.mem_cons_self b
    obtain ⟨e, he⟩ := ih (fun z hz => h z (List.mem_cons_of_mem _ hz)) c
    exact ⟨e, by rw [List.foldlM_cons, hc]; exact he⟩

/-- A chain that fails does so in one of its steps. -/
theorem foldlM_eq_error {f : β → α → Except ε β} {xs : List α} {b : β} {error : ε}
    (h : xs.foldlM f b = .error error) : ∃ c, ∃ x ∈ xs, f c x = .error error := by
  induction xs generalizing b with
  | nil => cases h
  | cons x rest ih =>
    rw [List.foldlM_cons] at h
    cases hstep : f b x with
    | error e =>
      rw [hstep] at h
      cases h
      exact ⟨b, x, List.mem_cons_self, hstep⟩
    | ok c =>
      rw [hstep] at h
      obtain ⟨d, y, hy, hfails⟩ := ih h
      exact ⟨d, y, List.mem_cons_of_mem _ hy, hfails⟩

end

end SpotGateway
